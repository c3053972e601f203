import Mathlib.Algebra.BigOperators.Ring.List
import SequenceChart.Proofs.Geometry.Timing
set_option autoImplicit false

/-!
# Geometry and settings

The settings act on a layout apart from each other.  Main statement, over the rationals and for font
sizes that are not negative: two layouts of one chart differ in their lengths only; heights are
multiplied by what the font size is multiplied by, insets by what the inset of a box is multiplied
by, and every box has the width that is set.
-/

namespace SequenceChart

namespace Layout

variable {α : Type}

/-- A layout without its lengths. -/
def shape (l : Layout α) : Layout Unit where
  lifelines := l.lifelines.map fun line =>
    ⟨line.name, line.boxes.map fun _ => ⟨(), (), (), ()⟩, line.openStack⟩
  arrows := l.arrows.map fun a =>
    ⟨⟨a.start.lifeline, a.start.box, ()⟩, ⟨a.finish.lifeline, a.finish.box, ()⟩, a.label, a.dotted⟩
  height := ()

/-- The boxes of all lifelines. -/
def allBoxes (l : Layout α) : List (Box α) := l.lifelines.flatMap Lifeline.boxes

/-- The vertical lengths: the height of the layout, where boxes start and how high they are, and
where arrows start and end. -/
def verticals (l : Layout α) : List α :=
  l.height :: l.allBoxes.flatMap (fun b => [b.start, b.height])
    ++ l.arrows.flatMap fun a => [a.start.y, a.finish.y]

end Layout

/-- Two layouts made with two settings are one up to their lengths, and the lengths go with the
settings. -/
structure Scales (settings settings' : Settings Rat) (l l' : Layout Rat) : Prop where
  /-- lifelines and their order, boxes and which of them are open, the places that arrows refer to,
  labels and lines do not depend on the settings -/
  shape : l'.shape = l.shape
  /-- vertical lengths depend on the font size only, and are proportional to it -/
  verticals : ∀ k, settings'.fontSize = k * settings.fontSize →
    l'.verticals = l.verticals.map (k * ·)
  /-- every box has the width that is set -/
  widths : (∀ b ∈ l.allBoxes, b.width = settings.boxWidth) ∧
    ∀ b ∈ l'.allBoxes, b.width = settings'.boxWidth
  /-- insets depend on the inset of one box only, and are proportional to it -/
  insets : ∀ k, settings'.boxInset = k * settings.boxInset →
    l'.allBoxes.map Box.inset = (l.allBoxes.map Box.inset).map (k * ·)

namespace Replay

variable {settings settings' : Settings Rat} {k : Rat}

/-! ## Growths -/

theorem total_scaled (amounts : List Rat) : total (amounts.map (k * ·)) = k * total amounts := by
  rw [total_eq_sum, total_eq_sum, List.sum_map_mul_left, List.map_id']

theorem growths_scaled (h : settings'.fontSize = k * settings.fontSize) (signals : List Signal) :
    growths settings' signals = (growths settings signals).map (k * ·) := by
  have hsignal (s : Signal) : growthsOf settings' s = (growthsOf settings s).map (k * ·) := by
    have htop : settings'.topMargin = k * settings.topMargin := by
      show settings'.fontSize * (5 / 4) = k * (settings.fontSize * (5 / 4))
      rw [h, mul_assoc]
    have hbottom : settings'.bottomMargin = k * settings.bottomMargin := h
    have hloop : Layout.loop settings' s = k * Layout.loop settings s := by
      unfold Layout.loop
      split
      · exact h
      · exact (mul_zero k).symm
    show [settings'.topMargin, Layout.loop settings' s, settings'.bottomMargin] = _
    rw [htop, hbottom, hloop]
    rfl
  rw [growths, growths, List.map_flatMap]
  congr 1
  funext s
  exact hsignal s

/-! ## The parts of a replay -/

theorem allBoxes_layout (settings : Settings Rat) (resolve : String → String)
    (signals : List Signal) :
    (Replay.layout settings resolve signals).allBoxes
      = (names resolve signals).flatMap fun name =>
          (track resolve signals name).spans.map (box settings (growths settings signals)) := by
  rw [Layout.allBoxes, Replay.layout, List.flatMap_map]
  rfl

theorem shape_layout (settings settings' : Settings Rat) (resolve : String → String)
    (signals : List Signal) :
    (Replay.layout settings' resolve signals).shape
      = (Replay.layout settings resolve signals).shape := by
  simp only [Layout.shape, Replay.layout, lifeline, List.map_map]
  congr 1
  refine List.map_congr_left fun name _ => ?_
  simp only [Function.comp_apply, List.map_map]
  rfl

section Verticals

variable (h : settings'.fontSize = k * settings.fontSize)
include h

theorem total_growths_scaled (signals : List Signal) :
    total (growths settings' signals) = k * total (growths settings signals) := by
  rw [growths_scaled h, total_scaled]

theorem box_scaled (signals : List Signal) (span : Span) :
    (box settings' (growths settings' signals) span).start
        = k * (box settings (growths settings signals) span).start ∧
      (box settings' (growths settings' signals) span).height
        = k * (box settings (growths settings signals) span).height := by
  simp only [box, growths_scaled h, List.length_map, ← List.map_take, ← List.map_drop,
    total_scaled, and_self]

theorem arrow_scaled (resolve : String → String) (signals : List Signal) (event : Signal × Nat) :
    (arrow settings' resolve signals event).start.y
        = k * (arrow settings resolve signals event).start.y ∧
      (arrow settings' resolve signals event).finish.y
        = k * (arrow settings resolve signals event).finish.y := by
  simp only [arrow, growths_scaled h, ← List.map_take, total_scaled, and_self]

theorem verticals_layout (resolve : String → String) (signals : List Signal) :
    (Replay.layout settings' resolve signals).verticals
      = (Replay.layout settings resolve signals).verticals.map (k * ·) := by
  have hboxes : (Replay.layout settings' resolve signals).allBoxes.flatMap
        (fun b => [b.start, b.height])
      = ((Replay.layout settings resolve signals).allBoxes.flatMap
        fun b => [b.start, b.height]).map (k * ·) := by
    simp only [allBoxes_layout, List.flatMap_assoc, List.flatMap_map, List.map_flatMap,
      List.map_cons, List.map_nil, (box_scaled h signals _).1, (box_scaled h signals _).2]
  have harrows : (Replay.layout settings' resolve signals).arrows.flatMap
        (fun a => [a.start.y, a.finish.y])
      = ((Replay.layout settings resolve signals).arrows.flatMap
        fun a => [a.start.y, a.finish.y]).map (k * ·) := by
    simp only [Replay.layout, List.flatMap_map, List.map_flatMap, List.map_cons, List.map_nil,
      (arrow_scaled h resolve signals _).1, (arrow_scaled h resolve signals _).2]
  rw [Layout.verticals, Layout.verticals, hboxes, harrows, List.map_append, List.map_cons]
  congr 2
  exact total_growths_scaled h signals

end Verticals

/-! ## Widths and insets -/

theorem width_layout {settings : Settings Rat} {resolve : String → String}
    {signals : List Signal} {b : Box Rat}
    (hb : b ∈ (Replay.layout settings resolve signals).allBoxes) :
    b.width = settings.boxWidth := by
  rw [allBoxes_layout, List.mem_flatMap] at hb
  obtain ⟨name, -, hname⟩ := hb
  obtain ⟨span, -, rfl⟩ := List.mem_map.1 hname
  rfl

theorem insets_layout (h : settings'.boxInset = k * settings.boxInset)
    (resolve : String → String) (signals : List Signal) :
    (Replay.layout settings' resolve signals).allBoxes.map Box.inset
      = ((Replay.layout settings resolve signals).allBoxes.map Box.inset).map (k * ·) := by
  have hinset (span : Span) :
      (box settings' (growths settings' signals) span).inset
        = k * (box settings (growths settings signals) span).inset := by
    show (span.depth : Rat) * settings'.boxInset = k * (span.depth * settings.boxInset)
    rw [h, mul_left_comm]
  simp only [allBoxes_layout, List.map_flatMap, List.map_map, Function.comp_def, hinset]

end Replay

/-- With font sizes that are not negative a chart has a layout for either settings, and the two
differ as the settings do. -/
theorem exists_scales (settings settings' : Settings Rat) (h : 0 ≤ settings.fontSize)
    (h' : 0 ≤ settings'.fontSize) (c : Chart) :
    ∃ l l', Layout.ofChart settings c = .ok l ∧ Layout.ofChart settings' c = .ok l' ∧
      Scales settings settings' l l' := by
  have hrun := run_eq_replay (growing_of_nonneg h) c.resolve c.topSignals
  have hrun' := run_eq_replay (growing_of_nonneg h') c.resolve c.topSignals
  refine ⟨_, _, hrun, hrun', ?_⟩
  exact
    { shape := Replay.shape_layout settings settings' c.resolve c.topSignals
      verticals := fun k hk => Replay.verticals_layout hk c.resolve c.topSignals
      widths := ⟨fun b hb => Replay.width_layout hb, fun b hb => Replay.width_layout hb⟩
      insets := fun k hk => Replay.insets_layout hk c.resolve c.topSignals }

/-- A signal to itself inside two open boxes, laid out twice: the second time at half the font size,
three times the inset and another width. -/
theorem exists_scales_nested :
    ∃ (c : Chart) (l l' : Layout Rat), Layout.ofChart ⟨16, 32, 8⟩ c = .ok l ∧
      Layout.ofChart ⟨8, 10, 24⟩ c = .ok l' ∧ Scales ⟨16, 32, 8⟩ ⟨8, 10, 24⟩ l l' ∧
      l.lifelines = [⟨"a", [], []⟩, ⟨"b", [⟨20, 32, 104, 0⟩, ⟨72, 32, 52, 8⟩], [1, 0]⟩] ∧
      l'.lifelines = [⟨"a", [], []⟩, ⟨"b", [⟨10, 10, 52, 0⟩, ⟨36, 10, 26, 24⟩], [1, 0]⟩] := by
  let signal (source target : String) (activates : Bool) : Statement :=
    .signal { source, target, head := some .closed, activates }
  let c : Chart :=
    { statements := [signal "a" "b" true, signal "b" "b" true, signal "b" "a" false] }
  obtain ⟨l, l', hl, hl', hscales⟩ :=
    exists_scales ⟨16, 32, 8⟩ ⟨8, 10, 24⟩ (by decide) (by decide) c
  have hrun : ((Layout.ofChart (⟨16, 32, 8⟩ : Settings Rat) c).toOption.map Layout.lifelines) =
      some [⟨"a", [], []⟩, ⟨"b", [⟨20, 32, 104, 0⟩, ⟨72, 32, 52, 8⟩], [1, 0]⟩] := by
    decide +kernel
  have hrun' : ((Layout.ofChart (⟨8, 10, 24⟩ : Settings Rat) c).toOption.map Layout.lifelines) =
      some [⟨"a", [], []⟩, ⟨"b", [⟨10, 10, 52, 0⟩, ⟨36, 10, 26, 24⟩], [1, 0]⟩] := by
    decide +kernel
  rw [hl] at hrun
  rw [hl'] at hrun'
  exact ⟨c, l, l', hl, hl', hscales, Option.some.inj hrun, Option.some.inj hrun'⟩

end SequenceChart
