import SequenceChart.Proofs.Scanning.Lines
set_option autoImplicit false

/-!
# Tokens and the lines they stand on

Scanning loses nothing but spaces and tabs.  Main statement: the text of every token of a line stands
at its column, no two tokens share a character, and what no token covers is a space or a tab; so the
tokens of a whole source stand in the order of their places, and the end of the input after them.
-/

namespace SequenceChart

namespace Token

/-- The token takes up a column of its line. -/
def Covers (t : Token) (column : Int) : Prop :=
  t.column ≤ column ∧ column < t.column + t.content.length

/-- The token starts before another one. -/
def Before (t u : Token) : Prop := t.line < u.line ∨ t.line = u.line ∧ t.column < u.column

theorem length_content {t : Token} {word : List Char} (h : t.text = some (String.ofList word)) :
    t.content.length = word.length := by
  rw [content, h, Option.getD_some, String.length_ofList]

end Token

/-- A text that is cut in two ways is cut in three. -/
theorem exists_between {first second before after : List Char}
    (h : first ++ second = before ++ after) (hle : first.length ≤ before.length) :
    ∃ more, before = first ++ more ∧ second = more ++ after := by
  rcases List.append_eq_append_iff.1 h with ⟨more, hbefore, hsecond⟩ | ⟨more, rfl, hafter⟩
  · exact ⟨more, hbefore, hsecond⟩
  · rw [List.length_append] at hle
    obtain rfl : more = [] := List.eq_nil_of_length_eq_zero (by omega)
    exact ⟨[], by simp, hafter.symm⟩

/-- The tokens lie side by side on a text that starts at a column, with only spaces and tabs between
them. -/
structure Tiles (column : Nat) (cs : List Char) (ts : List Token) : Prop where
  /-- the text of a token stands at its column -/
  stands : ∀ t ∈ ts, ∃ before word after, cs = before ++ word ++ after ∧
    t.text = some (String.ofList word) ∧ t.column = (column + before.length : Nat)
  /-- a token ends before the next ones start -/
  apart : ts.Pairwise fun t u : Token => t.column + t.content.length ≤ u.column
  /-- a character that no token covers is a space or a tab -/
  blank : ∀ before c after, cs = before ++ c :: after →
    (∀ t ∈ ts, ¬t.Covers (column + before.length : Nat)) → Text.isGap c

namespace Tiles

variable {column : Nat} {cs : List Char} {t : Token} {ts : List Token}

theorem le_column (h : Tiles column cs ts) (ht : t ∈ ts) : column ≤ t.column := by
  obtain ⟨before, word, after, -, -, hcolumn⟩ := h.stands t ht
  omega

theorem column_le (h : Tiles column cs ts) (ht : t ∈ ts) : t.column ≤ (column + cs.length : Nat) := by
  obtain ⟨before, word, after, rfl, -, hcolumn⟩ := h.stands t ht
  rw [hcolumn, List.append_assoc, List.length_append]
  omega

/-- Tokens that are not empty stand in the order of their columns. -/
theorem increasing (h : Tiles column cs ts) (hne : ∀ t ∈ ts, t.text ≠ some "") :
    ts.Pairwise fun t u : Token => t.column < u.column := by
  refine h.apart.imp_of_mem fun {t u} ht _ happart => ?_
  obtain ⟨before, word, after, -, htext, -⟩ := h.stands t ht
  have hlength : 0 < t.content.length := by
    rw [Token.length_content htext]
    refine List.length_pos_iff.2 fun hnil => hne t ht ?_
    rw [htext, hnil]
  omega

theorem nil (column : Nat) : Tiles column [] [] where
  stands := nofun
  apart := .nil
  blank before c after h := absurd h.symm (by simp)

/-- A space or a tab in front of the text is covered by no token. -/
theorem gap_cons {c : Char} (hc : Text.isGap c) (h : Tiles (column + 1) cs ts) :
    Tiles column (c :: cs) ts where
  stands t ht := by
    obtain ⟨before, word, after, rfl, htext, hcolumn⟩ := h.stands t ht
    refine ⟨c :: before, word, after, rfl, htext, ?_⟩
    rw [hcolumn, List.length_cons]
    omega
  apart := h.apart
  blank before d after hcs hnone := by
    cases before with
    | nil =>
      obtain ⟨rfl, -⟩ := List.cons.inj hcs
      exact hc
    | cons b before =>
      refine h.blank before d after (List.cons.inj hcs).2 fun t ht hcovers => ?_
      refine hnone t ht ?_
      rwa [List.length_cons, ← Nat.add_assoc, Nat.add_right_comm]

/-- A token at the start of the text, and those of the text after it. -/
theorem cons {word : List Char} (htext : t.text = some (String.ofList word))
    (hcolumn : t.column = column) (h : Tiles (column + word.length) cs ts) :
    Tiles column (word ++ cs) (t :: ts) where
  stands := by
    refine List.forall_mem_cons.2 ⟨⟨[], word, cs, rfl, htext, hcolumn⟩, fun u hu => ?_⟩
    obtain ⟨before, text, after, rfl, hutext, hucolumn⟩ := h.stands u hu
    refine ⟨word ++ before, text, after, by simp, hutext, ?_⟩
    rw [hucolumn, List.length_append, Nat.add_assoc]
  apart := by
    refine List.pairwise_cons.2 ⟨fun u hu => ?_, h.apart⟩
    have hle := h.le_column hu
    rw [Token.length_content htext]
    omega
  blank before d after hcs hnone := by
    obtain ⟨hfirst, hrest⟩ := List.forall_mem_cons.1 hnone
    have hpast : word.length ≤ before.length := by
      refine Nat.not_lt.1 fun hlt => hfirst ?_
      rw [Token.Covers, Token.length_content htext]
      omega
    obtain ⟨more, rfl, hmore⟩ := exists_between hcs hpast
    refine h.blank more d after hmore fun u hu hcovers => hrest u hu ?_
    rwa [List.length_append, ← Nat.add_assoc]

/-- What is left of the tokens behind a space or a tab that none of them starts with. -/
theorem of_gap_cons {c : Char} (h : Tiles column (c :: cs) ts) (hne : ∀ t ∈ ts, t.column ≠ column) :
    Tiles (column + 1) cs ts where
  stands t ht := by
    obtain ⟨before, word, after, hcs, htext, hcolumn⟩ := h.stands t ht
    cases before with
    | nil => exact absurd hcolumn (hne t ht)
    | cons b before =>
      refine ⟨before, word, after, (List.cons.inj hcs).2, htext, ?_⟩
      rw [hcolumn, List.length_cons]
      omega
  apart := h.apart
  blank before d after hcs hnone := by
    refine h.blank (c :: before) d after (congrArg (c :: ·) hcs) fun t ht hcovers => hnone t ht ?_
    rwa [List.length_cons, ← Nat.add_assoc, Nat.add_right_comm] at hcovers

/-- What is left of the tokens behind the first one. -/
theorem of_cons {word : List Char} (h : Tiles column (word ++ cs) (t :: ts))
    (htext : t.text = some (String.ofList word)) (hcolumn : t.column = column) :
    Tiles (column + word.length) cs ts := by
  obtain ⟨hapart, hrest⟩ := List.pairwise_cons.1 h.apart
  have hlater : ∀ u ∈ ts, (column + word.length : Nat) ≤ u.column := by
    intro u hu
    have hle := hapart u hu
    rw [hcolumn, Token.length_content htext] at hle
    exact hle
  refine ⟨fun u hu => ?_, hrest, fun before d after hcs hnone => ?_⟩
  · obtain ⟨before, text, after, hline, hutext, hucolumn⟩ := h.stands u (List.mem_cons_of_mem t hu)
    have hle := hlater u hu
    rw [List.append_assoc] at hline
    obtain ⟨more, rfl, rfl⟩ := exists_between hline (by omega)
    refine ⟨more, text, after, (List.append_assoc ..).symm, hutext, ?_⟩
    rw [hucolumn, List.length_append, Nat.add_assoc]
  · refine h.blank (word ++ before) d after (by rw [hcs, List.append_assoc]) ?_
    refine List.forall_mem_cons.2 ⟨fun hcovers => ?_, fun u hu hcovers => hnone u hu ?_⟩
    · have hlt := hcovers.2
      rw [hcolumn, Token.length_content htext, List.length_append] at hlt
      omega
    · rwa [List.length_append, ← Nat.add_assoc] at hcovers

end Tiles

namespace Scanner

/-! ## One line -/

/-- The tokens of a statement line tile it, and none of them is empty. -/
theorem tiles_statementTokens {line column : Nat} {slot : Slot} {isFirst : Bool} {cs : List Char}
    {ts : List Token} (h : statementTokens line slot isFirst column cs = .ok ts) :
    Tiles column cs ts ∧ ∀ t ∈ ts, t.text ≠ some "" := by
  have hne {word : List Char} (hword : word ≠ []) : some (String.ofList word) ≠ some "" := by
    intro hempty
    exact hword (String.ofList_injective (Option.some.inj hempty))
  fun_induction statementTokens line slot isFirst column cs generalizing ts with
  | case1 slot isFirst column =>
    cases h
    refine ⟨.nil column, ?_⟩
    intro t ht
    cases ht
  | case2 slot isFirst column c rest hgap ih =>
    obtain ⟨htiles, hall⟩ := ih h
    exact ⟨htiles.gap_cons hgap, hall⟩
  | case3 isFirst column c rest hgap =>
    cases h
    have htiles := Tiles.cons (t := ⟨.text, some (String.ofList (c :: rest)), line, column⟩)
      rfl rfl (.nil (column + (c :: rest).length))
    rw [List.append_nil] at htiles
    exact ⟨htiles, List.forall_mem_singleton.2 (hne (List.cons_ne_nil c rest))⟩
  | case4 => cases h
  | case5 slot isFirst column c rest hgap htext kind word after hlex ih =>
    obtain ⟨more, hmore, rfl⟩ := exists_more_of_ok h
    obtain ⟨hword, hcs⟩ := lexeme?_append hlex
    obtain ⟨htiles, hall⟩ := ih hmore
    rw [← hcs]
    exact ⟨htiles.cons rfl rfl, List.forall_mem_cons.2 ⟨hne hword, hall⟩⟩

/-- What a scanner that takes a line answers with: nothing of the line is lost but its gaps. -/
structure TakesWhole (s s' : Scanner) (line : List Char) (ts : List Token) : Prop where
  next : s'.lineNumber = s.lineNumber + 1
  /-- the tokens carry the number of the line -/
  numbered : ∀ t ∈ ts, t.line = s'.lineNumber
  tiles : Tiles 1 line ts
  increasing : ts.Pairwise fun t u : Token => t.column < u.column
  /-- only an empty line of a block of free text is an empty token -/
  nonempty : ∀ t ∈ ts, t.text = some "" → t.kind = .text ∧ s.mode = .textBlock ∧ line = []

theorem takesWhole_of_feed {s s' : Scanner} {line : List Char} {ts : List Token}
    (h : s.feed line = (.ok ts, s')) : TakesWhole s s' line ts := by
  rcases feed_ok_cases h with ⟨hmode, rfl, rfl⟩ | ⟨-, htokens, rfl⟩
  · have htiles := Tiles.cons (t := ⟨.text, some (String.ofList line), (s.lineNumber + 1 : Nat), 1⟩)
      rfl rfl (.nil (1 + line.length))
    rw [List.append_nil] at htiles
    refine ⟨rfl, List.forall_mem_singleton.2 rfl, htiles, List.pairwise_singleton _ _, ?_⟩
    refine List.forall_mem_singleton.2 fun hempty => ⟨rfl, hmode, ?_⟩
    exact String.ofList_injective (Option.some.inj hempty)
  · obtain ⟨htiles, hne⟩ := tiles_statementTokens htokens
    refine ⟨rfl, fun t ht => (mem_statementTokens htokens t ht).1, htiles, htiles.increasing hne, ?_⟩
    intro t ht hempty
    exact absurd hempty (hne t ht)

/-! ## A whole source -/

/-- A token stands no later than where the input of the scanner ends now. -/
def HasPassed (s : Scanner) (t : Token) : Prop :=
  t.line < s.lineNumber ∨ t.line = s.lineNumber ∧ t.column ≤ (s.width + 1 : Nat)

theorem width_of_feed {s s' : Scanner} {line : List Char} {ts : List Token}
    (h : s.feed line = (.ok ts, s')) : s'.width = line.length := by
  rcases feed_ok_cases h with ⟨-, -, rfl⟩ | ⟨-, -, rfl⟩ <;> rfl

/-- A line that is taken puts its own tokens behind the scanner, and keeps those there that were. -/
theorem hasPassed_of_feed {s s' : Scanner} {line : List Char} {ts : List Token}
    (h : s.feed line = (.ok ts, s')) :
    (∀ t ∈ ts, s'.HasPassed t) ∧ ∀ t, s.HasPassed t → s'.HasPassed t := by
  have hwhole := takesWhole_of_feed h
  constructor
  · intro t ht
    have hcolumn := hwhole.tiles.column_le ht
    refine .inr ⟨hwhole.numbered t ht, ?_⟩
    rw [width_of_feed h]
    omega
  · intro t ht
    have hnext := hwhole.next
    left
    rcases ht with hline | ⟨hline, -⟩ <;> omega

namespace Feeds

variable {s s' : Scanner} {lines : List (List Char)} {ts : List Token}

theorem width (h : Feeds s lines ts s') :
    s'.width = (lines.getLast?.map List.length).getD s.width := by
  induction h with
  | nil => rfl
  | cons first _ ih =>
    rw [ih, width_of_feed first, List.getLast?_cons]
    cases List.getLast? _ <;> rfl

theorem hasPassed (h : Feeds s lines ts s') :
    (∀ t ∈ ts, s'.HasPassed t) ∧ ∀ t, s.HasPassed t → s'.HasPassed t := by
  induction h with
  | nil => exact ⟨nofun, fun t ht => ht⟩
  | cons first _ ih =>
    obtain ⟨hfirst, hkept⟩ := hasPassed_of_feed first
    obtain ⟨hrest, hkeptRest⟩ := ih
    refine ⟨List.forall_mem_append.2 ⟨?_, hrest⟩, fun t ht => hkeptRest t (hkept t ht)⟩
    intro t ht
    exact hkeptRest t (hfirst t ht)

/-- The tokens of lines that are taken one after the other stand in the order of their places. -/
theorem ordered (h : Feeds s lines ts s') :
    ts.Pairwise Token.Before ∧ ∀ t ∈ ts, s.lineNumber < t.line := by
  induction h with
  | nil => exact ⟨.nil, nofun⟩
  | cons first _ ih =>
    have hwhole := takesWhole_of_feed first
    have hnext := hwhole.next
    obtain ⟨hpairwise, hlater⟩ := ih
    have hfirst := hwhole.increasing.imp_of_mem fun {t u} ht hu hlt => show t.Before u from
      .inr ⟨(hwhole.numbered t ht).trans (hwhole.numbered u hu).symm, hlt⟩
    refine ⟨List.pairwise_append.2 ⟨hfirst, hpairwise, fun t ht u hu => .inl ?_⟩, ?_⟩
    · rw [hwhole.numbered t ht]
      exact hlater u hu
    · refine List.forall_mem_append.2 ⟨fun t ht => ?_, fun t ht => ?_⟩
      · have hline := hwhole.numbered t ht
        omega
      · have hline := hlater t ht
        omega

end Feeds

/-- The tokens of lines stand in the order of their places, and the end of the input after them. -/
structure InOrder (lines : List (List Char)) (ts : List Token) (last : Token) : Prop where
  before : ts.Pairwise Token.Before
  kind : last.kind = .endOfInput
  noEnd : ∀ t ∈ ts, t.kind ≠ .endOfInput
  /-- the input ends on the last line, or on the first if there is none -/
  line : last.line = (max lines.length 1 : Nat)
  /-- it ends one column behind that line -/
  column : last.column = (((lines.getLast?.map List.length).getD 0 + 1 : Nat) : Int)
  /-- the end of the input stands before no token -/
  after : ∀ t ∈ ts, ¬last.Before t

theorem inOrder_of_tokens {lines : List (List Char)} {tokens : List Token}
    (h : ({} : Scanner).tokens lines = .ok tokens) :
    ∃ ts last, tokens = ts ++ [last] ∧ InOrder lines ts last := by
  obtain ⟨ts, s', -, hfeeds, -, -⟩ := feeds_of_tokens h
  have hmode : s'.mode.isOver = false := hfeeds.isOver rfl
  have hclose : s'.close.1 =
      .ok ⟨.endOfInput, none, (max s'.lineNumber 1 : Nat), (s'.width + 1 : Nat)⟩ := by
    rw [close, hmode]
    rfl
  obtain ⟨last, hlast, -, -, htokens⟩ := hfeeds.tokens_eq rfl
  cases hclose.symm.trans hlast
  refine ⟨ts, _, Except.ok.inj (h.symm.trans htokens), ?_⟩
  refine ⟨hfeeds.ordered.1, rfl, fun t ht => (hfeeds.mem t ht).2, ?_, ?_, fun t ht hbefore => ?_⟩
  · rw [hfeeds.lineNumber, Nat.zero_add]
  · rw [hfeeds.width]
  · rcases hfeeds.hasPassed.1 t ht with hline | ⟨hline, hcolumn⟩ <;>
      rcases hbefore with hafter | ⟨hsame, hafter⟩ <;> dsimp only at * <;> omega

/-- Every scanner that takes a line takes all of it, and the tokens of a source stand in order. -/
theorem feed_lossless :
    (∀ (s s' : Scanner) (line : List Char) (ts : List Token),
      s.feed line = (.ok ts, s') → TakesWhole s s' line ts) ∧
    ∀ (source : String) (tokens : List Token), tokenize source = .ok tokens →
      ∃ ts last, tokens = ts ++ [last] ∧ InOrder (Text.lines source.toList) ts last :=
  ⟨fun _ _ _ _ => takesWhole_of_feed, fun _ _ => inOrder_of_tokens⟩

/-- An empty line of a note is an empty token, and the input may end where it stands. -/
theorem feed_lossless_emptyLine :
    TakesWhole ⟨.textBlock, 1, 5⟩ ⟨.textBlock, 2, 0⟩ [] [⟨.text, some "", 2, 1⟩] ∧
      ∃ ts last, [⟨.keyword .note, some "note", 1, 2⟩, ⟨.text, some "", 2, 1⟩,
          ⟨.endOfInput, none, 2, 1⟩] = ts ++ [last] ∧
        InOrder (Text.lines " note\n\n".toList) ts last := by
  obtain ⟨hline, hsource⟩ := feed_lossless
  refine ⟨hline _ _ _ _ rfl, ?_⟩
  have hrun : (tokenize " note\n\n").toOption = some [⟨.keyword .note, some "note", 1, 2⟩,
      ⟨.text, some "", 2, 1⟩, ⟨.endOfInput, none, 2, 1⟩] := by decide +kernel
  exact hsource _ _ (eq_ok_of_toOption hrun)

end Scanner

end SequenceChart
