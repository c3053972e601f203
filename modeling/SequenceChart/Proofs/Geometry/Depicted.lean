import Mathlib.Data.List.Basic
import SequenceChart.Proofs.Geometry.History
import SequenceChart.Proofs.Geometry.Places
set_option autoImplicit false

/-!
# What a layout shows of a chart

Lifelines and boxes are referred to by their places.  Main statement: in a finished layout every
place names what it should.  There is one lifeline for each name that a signal at the top level
stands for, in the order of their first signal, and one arrow for each of these signals; both ends
of an arrow stand on the lifelines of the signal's ends, at boxes that are there.  Nothing else of
the chart counts.
-/

namespace SequenceChart

open Layout Replay

variable {α : Type}

/-- An anchor stands on the lifeline of a name: its place is that of this lifeline, and the box, if
it has one, is a box of it. -/
def Layout.StandsOn (l : Layout α) (name : String) (a : Anchor α) : Prop :=
  ∃ line, l.lifelines[a.lifeline]? = some line ∧ line.name = name ∧
    ∀ i, a.box = some i → ∃ box, line.boxes[i]? = some box ∧ l.anchorBox? a = some box

theorem Layout.anchorBox?_eq {l : Layout α} {a : Anchor α} {line : Lifeline α} {i : Nat}
    (hline : l.lifelines[a.lifeline]? = some line) (hi : a.box = some i) :
    l.anchorBox? a = line.boxes[i]? := by
  simp [Layout.anchorBox?, hline, hi]

/-- An arrow is drawn for a signal: it has its message and its line, and stands where its ends
are. -/
structure Layout.Draws (l : Layout α) (c : Chart) (s : Signal) (arrow : Arrow α) : Prop where
  label : arrow.label = s.message
  dotted : arrow.dotted = s.dotted
  start : l.StandsOn (c.resolve s.source) arrow.start
  finish : l.StandsOn (c.resolve s.target) arrow.finish

variable [Measure α]

/-- A layout shows a chart. -/
structure Layout.Depicts (settings : Settings α) (l : Layout α) (c : Chart) : Prop where
  /-- the lifelines are named by the ends of the signals, in the order of their first signal -/
  names : l.lifelines.map Lifeline.name = Audit.firstOccurrences
    (c.topSignals.flatMap fun s => [c.resolve s.source, c.resolve s.target])
  /-- no two lifelines have one name -/
  distinct : (l.lifelines.map Lifeline.name).Nodup
  /-- there is one arrow for each signal -/
  drawn : l.arrows.length = c.topSignals.length
  /-- the arrows are drawn for the signals in document order -/
  arrows : ∀ (k : Nat) (s : Signal), c.topSignals[k]? = some s →
    ∃ arrow, l.arrows[k]? = some arrow ∧ l.Draws c s arrow
  /-- a pass that keeps a table of places makes this layout, and by a name one finds the lifeline
  that the table has under it -/
  indexed : ∃ places, Indexed.ofChart settings c = .ok ⟨l, places⟩ ∧
    ∀ name, l.lifeline? name = (places.lookup name).bind fun i => l.lifelines[i]?
  /-- a chart with the same aliases and the same signals at the top level has this layout, whatever
  its blocks, groups, title and participants are -/
  only : ∀ c' : Chart, c'.aliases = c.aliases → c'.topSignals = c.topSignals →
    Layout.ofChart settings c' = .ok l

namespace Replay

variable {settings : Settings α} {resolve : String → String} {signals : List Signal}

/-- An anchor at the innermost box that is open on a lifeline after some signals stands on the
lifeline of all signals: boxes are only added. -/
theorem standsOn_layout {name : String} (hname : name ∈ names resolve signals) {n : Nat}
    (hn : n ≤ signals.length) (y : α) :
    (Replay.layout settings resolve signals).StandsOn name
      ⟨(names resolve signals).idxOf name,
        (track resolve (signals.take n) name).openStack.head?, y⟩ := by
  have hplace : (names resolve signals)[(names resolve signals).idxOf name]? = some name :=
    List.getElem?_idxOf hname
  have hline : ((names resolve signals).map fun n =>
        lifeline settings (growths settings signals) (track resolve signals n) n)[
          (names resolve signals).idxOf name]?
      = some (lifeline settings (growths settings signals) (track resolve signals name) name) := by
    rw [List.getElem?_map, hplace]
    rfl
  refine ⟨_, hline, rfl, ?_⟩
  intro i hi
  have hthen : i < (track resolve (signals.take n) name).spans.length :=
    (sound_track resolve signals name n hn).bound i (List.mem_of_head? hi)
  have hnow : i < (track resolve signals name).spans.length := by
    have hextends : (track resolve (signals.take n) name).Extends
        (track resolve (signals.take signals.length) name) := extends_track hn (Nat.le_refl _)
    rw [List.take_length] at hextends
    exact Nat.lt_of_lt_of_le hthen hextends.length_le
  obtain ⟨box, hbox⟩ : ∃ box, (lifeline settings (growths settings signals)
      (track resolve signals name) name).boxes[i]? = some box := by
    rw [lifeline, List.getElem?_map, List.getElem?_eq_getElem hnow]
    exact ⟨_, rfl⟩
  refine ⟨box, hbox, ?_⟩
  rw [Layout.anchorBox?_eq hline hi]
  exact hbox

/-- The arrow of a signal stands on the lifelines of its ends. -/
theorem draws_layout {c : Chart} {k : Nat} {s : Signal} (h : c.topSignals[k]? = some s) :
    (Replay.layout settings c.resolve c.topSignals).Draws c s
      (arrow settings c.resolve c.topSignals (s, k)) := by
  have hk : k < c.topSignals.length := (List.getElem?_eq_some_iff.1 h).1
  obtain ⟨hsource, htarget⟩ := ends_mem_names c.resolve (List.mem_of_getElem? h)
  exact ⟨rfl, rfl, standsOn_layout hsource (Nat.le_of_lt hk) _, standsOn_layout htarget hk _⟩

end Replay

/-- A layout that is finished shows its chart. -/
theorem depicts_of_ofChart {settings : Settings α} {c : Chart} {l : Layout α}
    (h : Layout.ofChart settings c = .ok l) : l.Depicts settings c := by
  have hreplays := Replays.of_ofChart h
  have hnames : l.lifelines.map Lifeline.name = names c.resolve c.topSignals := hreplays.names
  obtain ⟨places, hindexed, hconsistent⟩ := Indexed.exists_ofChart h
  refine ⟨hnames, hreplays.tracks.distinct, hreplays.length_arrows, ?_,
    ⟨places, hindexed, hconsistent.lifeline?_eq⟩, ?_⟩
  · intro k s hs
    rw [hreplays.eq_layout, getElem?_arrows, hs]
    exact ⟨_, rfl, draws_layout hs⟩
  · intro c' haliases hsignals
    have hresolve : c'.resolve = c.resolve := by
      funext name
      rw [Chart.resolve, Chart.alias?, haliases]
      rfl
    rw [Layout.ofChart, hresolve, hsignals]
    exact h

/-- The second signal starts under another name of the lifeline that the first one ends on, at the
box that was opened there; the signal in the block between them is not drawn. -/
theorem depicts_of_ofChart_renamed :
    ∃ (c : Chart) (l : Layout Rat), Layout.ofChart ⟨16, 32, 8⟩ c = .ok l ∧
      l.Depicts ⟨16, 32, 8⟩ c ∧ l.lifelines.map Lifeline.name = ["a", "b"] ∧
      l.arrows = [⟨⟨0, none, 20⟩, ⟨1, some 0, 20⟩, some "go", false⟩,
        ⟨⟨1, some 0, 56⟩, ⟨0, none, 56⟩, none, true⟩] := by
  let first : Signal :=
    { source := "a", target := "b", head := some .closed, message := some "go", activates := true }
  let inner : Signal := { source := "c", target := "a", head := some .open_ }
  let second : Signal :=
    { source := "x", target := "a", head := some .open_, dotted := true, deactivates := true }
  let c : Chart :=
    { title := some "two"
      statements := [.signal first, .block ⟨.opt, none, [.signal inner]⟩, .signal second]
      aliases := Table.empty.insert "x" "b" }
  let settings : Settings Rat := ⟨16, 32, 8⟩
  have hrun : ((Layout.ofChart settings c).toOption.map fun l =>
      (l.lifelines.map Lifeline.name, l.arrows)) =
      some (["a", "b"], [⟨⟨0, none, 20⟩, ⟨1, some 0, 20⟩, some "go", false⟩,
        ⟨⟨1, some 0, 56⟩, ⟨0, none, 56⟩, none, true⟩]) := by
    decide +kernel
  cases hlayout : Layout.ofChart settings c with
  | error halt =>
    rw [hlayout] at hrun
    cases hrun
  | ok l =>
    rw [hlayout] at hrun
    obtain ⟨hnames, harrows⟩ := Prod.mk.inj (Option.some.inj hrun)
    exact ⟨c, l, hlayout, depicts_of_ofChart hlayout, hnames, harrows⟩

end SequenceChart
