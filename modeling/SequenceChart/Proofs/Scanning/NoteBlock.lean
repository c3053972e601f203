import SequenceChart.Proofs.Scanning.Divided
set_option autoImplicit false

/-!
# When a note opens a block of free text

Main statement: a line that is read as a statement opens a block of free text exactly if it starts
with the word `note`, has no text and does not end with a colon.  So a colon keeps a note on its line
also where nothing but gaps is behind it.
-/

namespace SequenceChart

namespace Scanner

/-- The first token of a line is the word `note`. -/
def StartsNote (ts : List Token) : Prop := ∃ t ∈ ts.head?, t.kind = .keyword .note

/-- There is a text on the line. -/
def HasText (ts : List Token) : Prop := ∃ t ∈ ts, t.kind = .text

/-- The last token of a line is a colon. -/
def EndsWithColon (ts : List Token) : Prop := ∃ t ∈ ts.getLast?, t.kind = .colon

/-! ## Colons and texts -/

/-- A text that is announced stays announced. -/
theorem AnnouncesText.append {before : List Token} (h : AnnouncesText before) (more : List Token) :
    AnnouncesText (before ++ more) := by
  rcases h with ⟨t, ht, hkind⟩ | ⟨t, ht, hkind⟩
  · exact .inl ⟨t, List.mem_append_left more ht, hkind⟩
  · obtain ⟨rest, rfl⟩ := List.head?_eq_some_iff.1 ht
    exact .inr ⟨t, rfl, hkind⟩

namespace Divides

variable {number column : Nat} {cs : List Char} {ts earlier later : List Token} {t : Token}

/-- The tokens before a token decide whether it is a text. -/
theorem isText_iff (h : Divides [] number column cs ts) (hts : ts = earlier ++ t :: later) :
    t.kind = .text ↔ AnnouncesText earlier := by
  obtain ⟨front, word, after, hcs, htext, hcolumn⟩ := h.tiles.stands t (by rw [hts]; simp)
  exact (h.fits earlier t later front word after hts hcs htext hcolumn).announced

/-- Where a line starts with `note`, the colons are what announces a text. -/
theorem exists_colon_iff (h : Divides [] number column cs ts) (hnote : StartsNote ts) :
    (∃ t ∈ ts, t.kind = .colon) ↔ HasText ts ∨ EndsWithColon ts := by
  constructor
  · rintro ⟨t, ht, hcolon⟩
    obtain ⟨earlier, later, hts⟩ := List.append_of_mem ht
    cases later with
    | nil => exact .inr ⟨t, by rw [hts]; simp, hcolon⟩
    | cons u later =>
      have hannounces : AnnouncesText (earlier ++ [t]) := .inl ⟨t, by simp, hcolon⟩
      rw [List.append_cons] at hts
      exact .inl ⟨u, by rw [hts]; simp, (h.isText_iff hts).2 hannounces⟩
  · rintro (⟨t, ht, htext⟩ | ⟨t, ht, hcolon⟩)
    · obtain ⟨earlier, later, rfl⟩ := List.append_of_mem ht
      rcases (h.isText_iff rfl).1 htext with ⟨u, hu, hcolon⟩ | ⟨u, hu, hopens⟩
      · exact ⟨u, List.mem_append_left _ hu, hcolon⟩
      -- the first word is `note`, which announces no text
      · obtain ⟨rest, rfl⟩ := List.head?_eq_some_iff.1 hu
        obtain ⟨first, hfirst, hkind⟩ := hnote
        cases hfirst
        rw [hkind] at hopens
        cases hopens
    · exact ⟨t, List.mem_of_mem_getLast? ht, hcolon⟩

/-- No text stands before a colon that ends the line. -/
theorem not_hasText (h : Divides [] number column cs ts) (hcolon : EndsWithColon ts) :
    ¬HasText ts := by
  rintro ⟨t, ht, htext⟩
  obtain ⟨last, hlast, hkind⟩ := hcolon
  obtain ⟨before, hts⟩ := List.getLast?_eq_some_iff.1 hlast
  rw [hts] at ht
  rcases List.mem_append.1 ht with ht | ht
  · obtain ⟨earlier, later, rfl⟩ := List.append_of_mem ht
    have hannounces := (h.isText_iff (hts.trans (List.append_assoc ..))).1 htext
    rw [(h.isText_iff hts).2 (hannounces.append (t :: later))] at hkind
    cases hkind
  · rw [List.mem_singleton.1 ht, hkind] at htext
    cases htext

end Divides

/-! ## The mode -/

theorem afterStatement_cases (ts : List Token) :
    Mode.afterStatement ts = .statement ∨ Mode.afterStatement ts = .textBlock := by
  unfold Mode.afterStatement
  split
  · exact .inl rfl
  · split
    · exact .inr rfl
    · exact .inl rfl

theorem afterStatement_eq_textBlock_iff {ts : List Token} :
    Mode.afterStatement ts = .textBlock ↔ StartsNote ts ∧ ¬∃ t ∈ ts, t.kind = .colon := by
  cases ts with
  | nil => simp [Mode.afterStatement, StartsNote]
  | cons t ts => simp [Mode.afterStatement, StartsNote, TokenKind.opensTextBlock]

/-- A line that is read as a statement opens a block of free text exactly if it starts with `note`,
has no text and does not end with a colon; otherwise the next line is a statement again.  So whether
there is a text on a line that starts with `note` decides it unless the line ends with a colon. -/
theorem opensBlock_iff (s s' : Scanner) (line : List Char) (ts : List Token)
    (h : s.ReadsStatement line) (hfeed : s.feed line = (.ok ts, s')) :
    (s'.mode = .textBlock ↔ StartsNote ts ∧ ¬HasText ts ∧ ¬EndsWithColon ts) ∧
    (s'.mode ≠ .textBlock → s'.mode = .statement) ∧
    ((s'.mode = .textBlock ↔ StartsNote ts ∧ ¬HasText ts) ↔ ¬(StartsNote ts ∧ EndsWithColon ts)) := by
  obtain ⟨htokens, rfl⟩ := h.of_feed hfeed
  have hdivides := (statementTokens_eq_ok_iff .start).1 htokens
  have hopens : Mode.afterStatement ts = .textBlock ↔
      StartsNote ts ∧ ¬HasText ts ∧ ¬EndsWithColon ts := by
    rw [afterStatement_eq_textBlock_iff, ← not_or]
    exact and_congr_right fun hnote => not_congr (hdivides.exists_colon_iff hnote)
  refine ⟨hopens, (afterStatement_cases ts).resolve_right, ?_⟩
  dsimp only
  rw [hopens]
  constructor
  · rintro hrule ⟨hnote, hcolon⟩
    exact (hrule.2 ⟨hnote, hdivides.not_hasText hcolon⟩).2.2 hcolon
  · intro hnot
    constructor
    · rintro ⟨hnote, htext, -⟩
      exact ⟨hnote, htext⟩
    · rintro ⟨hnote, htext⟩
      exact ⟨hnote, htext, fun hcolon => hnot ⟨hnote, hcolon⟩⟩

/-- A note without a colon opens a block of free text. -/
theorem opensBlock_iff_over :
    ∃ s', ({} : Scanner).feed "note over A".toList = (.ok [⟨.keyword .note, some "note", 1, 1⟩,
        ⟨.keyword .over_, some "over", 1, 6⟩, ⟨.identifier, some "A", 1, 11⟩], s') ∧
      s'.mode = .textBlock := by
  have hline : (({} : Scanner).feed "note over A".toList).1.toOption =
      some [⟨.keyword .note, some "note", 1, 1⟩, ⟨.keyword .over_, some "over", 1, 6⟩,
        ⟨.identifier, some "A", 1, 11⟩] := by decide +kernel
  refine ⟨_, Prod.ext (eq_ok_of_toOption hline) rfl, ?_⟩
  obtain ⟨hopens, -⟩ := opensBlock_iff {} _ "note over A".toList _ ⟨⟨by decide, by decide⟩, .inl rfl⟩
    (Prod.ext (eq_ok_of_toOption hline) rfl)
  exact hopens.2 ⟨⟨_, rfl, rfl⟩, by simp [HasText], by simp [EndsWithColon]⟩

/-- A note with nothing behind its colon has no text, and yet it opens no block of free text. -/
theorem not_opensBlock_colon :
    ∃ ts s', ({} : Scanner).feed "note over A:".toList = (.ok ts, s') ∧ StartsNote ts ∧
      ¬HasText ts ∧ s'.mode = .statement := by
  have hline : (({} : Scanner).feed "note over A:".toList).1.toOption =
      some [⟨.keyword .note, some "note", 1, 1⟩, ⟨.keyword .over_, some "over", 1, 6⟩,
        ⟨.identifier, some "A", 1, 11⟩, ⟨.colon, some ":", 1, 12⟩] := by decide +kernel
  refine ⟨_, _, Prod.ext (eq_ok_of_toOption hline) rfl, ⟨_, rfl, rfl⟩, ?_, ?_⟩
  · simp [HasText]
  · decide +kernel

end Scanner

end SequenceChart
