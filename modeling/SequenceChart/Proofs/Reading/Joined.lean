import SequenceChart.Proofs.Chart.Joined
import SequenceChart.Proofs.Reading.Behind
import SequenceChart.Proofs.Reading.Explains
import SequenceChart.Proofs.Reading.OnDemand
set_option autoImplicit false

/-!
# Documents in a row

Lines that write a chart leave the scanner in statement mode, as no construct has the word that
opens a block of free text, and leave the reading at the top level.  Main statement: if lines write
a chart and more lines write one, then both in a row write a chart that is made of the two.
-/

namespace SequenceChart

namespace Chart

open Scanner (Feeds)

/-- Tokens up to the end of the input write a chart exactly if they lead back to the top level. -/
theorem ofTokens_append_end_eq_ok_iff {ts : List Token} (h : ∀ t ∈ ts, t.kind ≠ .endOfInput)
    {last : Token} (hlast : last.kind = .endOfInput) {c : Chart} :
    ofTokens (ts ++ [last]) = .ok c ↔
      ∃ r items, Reading.Reads {} ts r ∧ r.AtTop items ∧ c = ofItems items := by
  rw [ofTokens_append_end h hlast]
  constructor
  · intro hchart
    cases hread : ({} : Reading).pushAll ts with
    | error why =>
      rw [hread] at hchart
      cases hchart
    | ok r =>
      cases hpush : r.push last with
      | error why =>
        rw [hread, Except.bind, hpush] at hchart
        cases hchart
      | ok r' =>
        rw [hread, Except.bind, hpush] at hchart
        cases hchart
        obtain ⟨q, hq, hblocks, hitems⟩ := Reading.settled_of_push_end hlast hpush
        exact ⟨r, r'.items, hread, ⟨q, hq, hblocks, hitems.symm⟩, rfl⟩
  · rintro ⟨r, items, hread, htop, rfl⟩
    obtain ⟨r', hpush, hitems⟩ := Reading.push_end_of_atTop htop hlast
    rw [show ({} : Reading).pushAll ts = .ok r from hread, Except.bind, hpush, Except.map, hitems]

/-- Lines that write a chart are all taken. -/
theorem exists_feeds_of_ofLines {lines : List (List Char)} {c : Chart}
    (h : (ofLines lines).1 = .ok c) : ∃ ts s, Feeds {} lines ts s := by
  rcases Scanner.feeds_or_refuses {} lines with
    hfeeds | ⟨taken, line, rest, ts, s, refusal, rfl, hfeeds, hline⟩
  · exact hfeeds
  · rcases ofLines_refused hfeeds hline rest with ⟨-, hlines⟩ | ⟨why, unread, -, hlines⟩
    · rw [hlines] at h
      cases h
    · rw [hlines] at h
      cases h

/-- Lines that are taken write a chart exactly if their tokens lead back to the top level. -/
theorem ofLines_eq_ok_iff {lines : List (List Char)} {ts : List Token} {s : Scanner}
    (hfeeds : Feeds {} lines ts s) {c : Chart} :
    (ofLines lines).1 = .ok c ↔
      ∃ r items, Reading.Reads {} ts r ∧ r.AtTop items ∧ c = ofItems items := by
  obtain ⟨last, -, hlast, -, htokens⟩ := hfeeds.tokens_eq rfl
  rw [ofLines_eq_ofTokens htokens,
    ← ofTokens_append_end_eq_ok_iff (fun t ht => (hfeeds.mem t ht).2) hlast]
  cases ofTokens (ts ++ [last]) <;> constructor <;> intro h <;> cases h
  all_goals rfl

/-- If lines write a chart and more lines write one, both in a row write a chart that is made of
the two. -/
theorem joins_of_ofLines {lines more : List (List Char)} {c₁ c₂ : Chart}
    (h₁ : (ofLines lines).1 = .ok c₁) (h₂ : (ofLines more).1 = .ok c₂) :
    ∃ c, (ofLines (lines ++ more)).1 = .ok c ∧ Joins c₁ c₂ c := by
  obtain ⟨ts, s, hfeeds⟩ := exists_feeds_of_ofLines h₁
  obtain ⟨us, s', hfeeds'⟩ := exists_feeds_of_ofLines h₂
  obtain ⟨r, items, hread, htop, rfl⟩ := (ofLines_eq_ok_iff hfeeds).1 h₁
  obtain ⟨q, items', hread', htop', rfl⟩ := (ofLines_eq_ok_iff hfeeds').1 h₂
  have hbelow : Scanner.Below lines.length {} s :=
    ⟨hfeeds.mode rfl hread.ne_note, hfeeds.lineNumber⟩
  obtain ⟨s₁, hmore, -⟩ := hfeeds'.lower hbelow
  obtain ⟨q₁, hread₁, htop₁⟩ := htop.reads hread' htop' lines.length
  refine ⟨ofItems (items ++ items'), ?_, joins_ofItems items items'⟩
  exact (ofLines_eq_ok_iff (hfeeds.append hmore)).2 ⟨q₁, _, hread.append hread₁, htop₁, rfl⟩

/-- The lines before end in a target, which a message may follow, and the lines after bind a name
anew. -/
theorem joins_of_ofLines_rebound :
    ∃ lines more c₁ c₂ c,
      lines = ["title old", "participant alice as a", "a ->+ bob"].map String.toList ∧
        more = ["", "participant carol as a", "bob -> a: done"].map String.toList ∧
        (ofLines lines).1 = .ok c₁ ∧ (ofLines more).1 = .ok c₂ ∧
        (ofLines (lines ++ more)).1 = .ok c ∧ Joins c₁ c₂ c := by
  obtain ⟨lines, hlines⟩ : ∃ lines : List (List Char),
      lines = ["title old", "participant alice as a", "a ->+ bob"].map String.toList := ⟨_, rfl⟩
  obtain ⟨more, hmore⟩ : ∃ more : List (List Char),
      more = ["", "participant carol as a", "bob -> a: done"].map String.toList := ⟨_, rfl⟩
  have h₁ : (ofLines lines).1.isOk := by
    rw [hlines]
    decide +kernel
  have h₂ : (ofLines more).1.isOk := by
    rw [hmore]
    decide +kernel
  cases hc₁ : (ofLines lines).1 with
  | error why =>
    rw [hc₁] at h₁
    cases h₁
  | ok c₁ =>
    cases hc₂ : (ofLines more).1 with
    | error why =>
      rw [hc₂] at h₂
      cases h₂
    | ok c₂ =>
      obtain ⟨c, hc, hjoins⟩ := joins_of_ofLines hc₁ hc₂
      exact ⟨lines, more, c₁, c₂, c, hlines, hmore, hc₁, hc₂, hc, hjoins⟩

end Chart

end SequenceChart
