import SequenceChart.Proofs.Geometry.Lookups
import SequenceChart.Proofs.Reading.OnDemand
import SequenceChart.Proofs.Scanning.Lines
import SequenceChart.Proofs.Settings.Growing
set_option autoImplicit false

/-!
# Faults that a source can have

Main statement: a source is laid out unless it has a stray character or a syntax fault, and these
are reported as such.  Cutting a text into lines leaves no line break in a line, so a scanner is
never fed one and never asked to go on after it has failed; and with a font size that is not below
zero no box shrinks.
-/

namespace SequenceChart

/-- Scanning a text gives its tokens or reports a stray character. -/
theorem exists_tokenize (source : String) :
    (∃ tokens, tokenize source = .ok tokens) ∨ ∃ at_, tokenize source = .error (.stray at_) := by
  cases hscan : tokenize source with
  | ok tokens => exact Or.inl ⟨tokens, rfl⟩
  | error why =>
    obtain ⟨_, _, _, _, _, at_, -, -, -, rfl, -⟩ :=
      Scanner.exists_stray (Scanner.oneLine_lines source) hscan
    exact Or.inr ⟨at_, rfl⟩

/-- What can be said of a source and the layout that is asked for it. -/
structure Reported (settings : Settings Float) (source : String) : Prop where
  /-- It is scanned, or a stray character is reported. -/
  scanned : (∃ tokens, tokenize source = .ok tokens) ∨
    ∃ at_, tokenize source = .error (.stray at_)
  /-- It has a chart, or a stray character or a syntax fault is reported. -/
  read : (∃ c, Chart.ofSource source = .ok c) ∨
    (∃ at_, Chart.ofSource source = .error (.scan (.stray at_))) ∨
    ∃ why, Chart.ofSource source = .error (.syntax_ why)
  /-- It has a layout, which is that of its chart and in whose making no place is missing; or a
  stray character or a syntax fault is reported. -/
  laidOut : (∃ c l, Chart.ofSource source = .ok c ∧ Lookup.ofChart settings c = .ok l ∧
      Layout.ofSource settings source = .ok l) ∨
    (∃ at_, Layout.ofSource settings source = .error (.source (.scan (.stray at_)))) ∨
    ∃ why, Layout.ofSource settings source = .error (.source (.syntax_ why))

/-- With usable settings a source is laid out unless it has a stray character or a syntax fault. -/
theorem reported_of_usable {settings : Settings Float} (h : settings.Usable) (source : String) :
    Reported settings source := by
  have hscanned := exists_tokenize source
  have honeLine := Scanner.oneLine_lines source
  cases hscan : tokenize source with
  | error why =>
    obtain ⟨taken, line, rest, ts, s', at_, hsource, hfeeds, hline, rfl, -⟩ :=
      Scanner.exists_stray honeLine hscan
    refine ⟨hscanned, Or.inr (Or.inl ⟨at_, by rw [Chart.ofSource, hscan]⟩), Or.inr ?_⟩
    rw [Layout.ofSource, hsource]
    rcases Chart.ofLines_refused hfeeds hline rest with ⟨-, hlines⟩ | ⟨fault, unread, -, hlines⟩
    · exact Or.inl ⟨at_, by rw [Layout.ofLines_eq_error.2 hlines]⟩
    · exact Or.inr ⟨fault, by rw [Layout.ofLines_eq_error.2 hlines]⟩
  | ok tokens =>
    have hlines := Chart.ofLines_eq_ofTokens hscan
    cases hread : Chart.ofTokens tokens with
    | error why =>
      have hchart : Chart.ofSource source = .error (.syntax_ why) := by
        rw [Chart.ofSource, hscan]
        simp only [hread]
      refine ⟨hscanned, Or.inr (Or.inr ⟨why, hchart⟩), Or.inr (Or.inr ⟨why, ?_⟩)⟩
      rw [hread] at hlines
      rw [Layout.ofSource, Layout.ofLines_eq_error.2 (Prod.ext hlines rfl)]
    | ok c =>
      have hchart : Chart.ofSource source = .ok c := by
        rw [Chart.ofSource, hscan]
        simp only [hread]
      rw [hread] at hlines
      obtain ⟨l, hl⟩ := exists_run h.growing c.resolve c.topSignals Layout.empty
      refine ⟨hscanned, Or.inl ⟨c, hchart⟩, Or.inl ⟨c, l, hchart, ?_, ?_⟩⟩
      · rw [Lookup.ofChart_eq, Layout.ofChart, hl]
        rfl
      · rw [Layout.ofSource, Layout.ofLines_of_ok hlines, Layout.ofChart, hl]
        rfl

/-- A font size of negative zero is not below zero. -/
theorem reported_of_usable_negative_zero :
    ∃ settings : Settings Float, settings = ⟨-0.0, 32.0, 8.0⟩ ∧ settings.Usable ∧
      Reported settings "A->+B\nB->-A: done" := by
  have husable : (⟨-0.0, 32.0, 8.0⟩ : Settings Float).Usable := .notNegative (by decide)
  exact ⟨_, rfl, husable, reported_of_usable husable _⟩

end SequenceChart
