import SequenceChart.Proofs.Geometry.Timing
set_option autoImplicit false

/-!
# Boxes are aligned with arrows

Main statement: with a font size that is not negative every chart has a layout, and its boxes and
arrows meet exactly.  A box starts where the arrow of the signal that opened it ends, and it ends
where the arrow of the signal that closed it starts; a box that no signal closes ends with the
layout.  Nothing lies above the layout or below it.
-/

namespace SequenceChart

open Layout Replay

/-- The heights in a layout: where arrows and boxes stand, and the bounds of all of them. -/
structure Aligned (settings : Settings Rat) (c : Chart) (l : Layout Rat) : Prop where
  /-- there is one arrow for each signal -/
  drawn : l.arrows.length = c.topSignals.length
  /-- one signal opened a box, and the box starts where its arrow ends -/
  opened : ∀ line ∈ l.lifelines, ∀ (j : Nat) (box : Box Rat), line.boxes[j]? = some box →
    ∃ (k : Nat) (arrow : Arrow Rat), l.arrows[k]? = some arrow ∧ box.start = arrow.finish.y ∧
      ∀ k', Opens settings c k' line.name j ↔ k' = k
  /-- a closed box ends where the arrow of the signal that closed it starts -/
  closed : ∀ line ∈ l.lifelines, ∀ (j : Nat) (box : Box Rat), line.boxes[j]? = some box →
    ∀ k, Closes settings c k line.name j →
      ∃ arrow : Arrow Rat, l.arrows[k]? = some arrow ∧ box.bottom = arrow.start.y
  /-- a box that no signal closed ends with the layout -/
  unclosed : ∀ line ∈ l.lifelines, ∀ (j : Nat) (box : Box Rat), line.boxes[j]? = some box →
    (∀ k, ¬Closes settings c k line.name j) → box.bottom = l.height
  /-- an arrow comes down by the font size if its two ends are written alike, else not at all -/
  loop : ∀ (k : Nat) (s : Signal) (arrow : Arrow Rat), c.topSignals[k]? = some s →
    l.arrows[k]? = some arrow →
      arrow.finish.y - arrow.start.y = if s.source = s.target then settings.fontSize else 0
  /-- the next arrow starts below the last one by the two margins between them -/
  next : ∀ (k : Nat) (arrow after : Arrow Rat), l.arrows[k]? = some arrow →
    l.arrows[k + 1]? = some after →
      after.start.y = arrow.finish.y + settings.bottomMargin + settings.topMargin
  /-- both ends of an arrow lie within the layout -/
  anchors : ∀ arrow ∈ l.arrows, (0 ≤ arrow.start.y ∧ arrow.start.y ≤ l.height) ∧
    0 ≤ arrow.finish.y ∧ arrow.finish.y ≤ l.height
  /-- a box lies within the layout -/
  boxes : ∀ line ∈ l.lifelines, ∀ box ∈ line.boxes,
    0 ≤ box.start ∧ box.start ≤ box.bottom ∧ box.bottom ≤ l.height
  /-- a lifeline does not reach below the layout -/
  extents : ∀ line ∈ l.lifelines, line.extent ≤ l.height

section Replay

variable {settings : Settings Rat}

/-- A box of a replay, by its span: when it was opened and closed, and where it stands. -/
theorem exists_span {resolve : String → String} {signals : List Signal} {line : Lifeline Rat}
    (hline : line ∈ (Replay.layout settings resolve signals).lifelines) {j : Nat} {box : Box Rat}
    (hbox : line.boxes[j]? = some box) :
    ∃ span, (track resolve signals line.name).spans[j]? = some span ∧
      box = Replay.box settings (growths settings signals) span := by
  obtain ⟨name, -, rfl⟩ := List.mem_map.1 hline
  rw [lifeline, List.getElem?_map, Option.map_eq_some_iff] at hbox
  obtain ⟨span, hspan, rfl⟩ := hbox
  exact ⟨span, hspan, rfl⟩

theorem exists_arrow (settings : Settings Rat) (resolve : String → String) {signals : List Signal}
    {k : Nat} (hk : k < signals.length) :
    ∃ a, (Replay.layout settings resolve signals).arrows[k]? = some a := by
  rw [getElem?_arrows, List.getElem?_eq_getElem hk]
  exact ⟨_, rfl⟩

theorem bounds_box (h : 0 ≤ settings.fontSize) {resolve : String → String}
    {signals : List Signal} {name : String} {j : Nat} {span : Span}
    (hspan : (track resolve signals name).spans[j]? = some span) :
    0 ≤ (Replay.box settings (growths settings signals) span).start ∧
      (Replay.box settings (growths settings signals) span).start
        ≤ (Replay.box settings (growths settings signals) span).bottom ∧
      (Replay.box settings (growths settings signals) span).bottom
        ≤ (Replay.layout settings resolve signals).height := by
  rw [bottom_box hspan, start_box]
  exact ⟨cursor_nonneg h signals _, cursor_mono h signals (Nat.le_of_lt (opened_lt_end hspan)),
    cursor_le_height h _⟩

/-- The replay of the signals of a chart is aligned. -/
theorem aligned_replay (h : 0 ≤ settings.fontSize) (c : Chart) :
    Aligned settings c (Replay.layout settings c.resolve c.topSignals) where
  drawn := length_arrows settings c.resolve c.topSignals
  opened := by
    intro line hline j box hbox
    obtain ⟨span, hspan, rfl⟩ := exists_span hline hbox
    obtain ⟨k, hk, hopened, -⟩ := exists_opener hspan
    obtain ⟨arrow, harrow⟩ := exists_arrow settings c.resolve hk
    obtain ⟨-, -, -, hfinish⟩ := ends_arrow harrow
    refine ⟨k, arrow, harrow, ?_, fun k' => ?_⟩
    · rw [start_box, hopened, hfinish]
    · rw [opens_iff (growing_of_nonneg h) hspan, hopened]
      omega
  closed := by
    intro line hline j box hbox k hcloses
    obtain ⟨span, hspan, rfl⟩ := exists_span hline hbox
    have hclosed := (closes_iff (growing_of_nonneg h) hspan).1 hcloses
    obtain ⟨k', hk', heq, -⟩ := exists_closer hspan hclosed
    obtain rfl : k = k' := by omega
    obtain ⟨arrow, harrow⟩ := exists_arrow settings c.resolve hk'
    obtain ⟨-, -, hstart, -⟩ := ends_arrow harrow
    refine ⟨arrow, harrow, ?_⟩
    rw [hstart, bottom_box hspan, hclosed, Option.getD_some]
  unclosed := by
    intro line hline j box hbox hnone
    obtain ⟨span, hspan, rfl⟩ := exists_span hline hbox
    have hclosed : span.closed = none := by
      cases hclosed : span.closed with
      | none => rfl
      | some now =>
        obtain ⟨k, -, rfl, -⟩ := exists_closer hspan hclosed
        exact absurd ((closes_iff (growing_of_nonneg h) hspan).2 hclosed) (hnone k)
    rw [bottom_box hspan, hclosed, Option.getD_none, height_layout]
  loop := by
    intro k s arrow hs harrow
    obtain ⟨s', hs', hstart, hfinish⟩ := ends_arrow harrow
    cases hs.symm.trans hs'
    rw [hstart, hfinish, cursor_start hs, cursor_finish hs, add_sub_cancel_left, Layout.loop,
      Signal.isSelfSignal]
    simp only [decide_eq_true_eq]
    rfl
  next := by
    intro k arrow after harrow hafter
    obtain ⟨s, hs, -, hfinish⟩ := ends_arrow harrow
    obtain ⟨s', hs', hstart, -⟩ := ends_arrow hafter
    rw [hstart, hfinish, cursor_start hs', cursor_next hs]
  anchors := by
    intro arrow harrow
    obtain ⟨k, hk⟩ := List.mem_iff_getElem?.1 harrow
    obtain ⟨-, -, hstart, hfinish⟩ := ends_arrow hk
    rw [hstart, hfinish]
    exact ⟨⟨cursor_nonneg h _ _, cursor_le_height h _⟩, cursor_nonneg h _ _, cursor_le_height h _⟩
  boxes := by
    intro line hline box hbox
    obtain ⟨j, hj⟩ := List.mem_iff_getElem?.1 hbox
    obtain ⟨span, hspan, rfl⟩ := exists_span hline hj
    exact bounds_box h hspan
  extents := by
    intro line hline
    have hheight : 0 ≤ (Replay.layout settings c.resolve c.topSignals).height :=
      (cursor_nonneg h _ 0).trans (cursor_le_height h 0)
    refine greatest_le hheight ?_
    intro bottom hbottom
    obtain ⟨box, hbox, rfl⟩ := List.mem_map.1 hbottom
    obtain ⟨j, hj⟩ := List.mem_iff_getElem?.1 hbox
    obtain ⟨span, hspan, rfl⟩ := exists_span hline hj
    exact (bounds_box h hspan).2.2

end Replay

/-- With a font size that is not negative, every chart has a layout, and the layout is aligned. -/
theorem exists_aligned (settings : Settings Rat) (h : 0 ≤ settings.fontSize) (c : Chart) :
    ∃ l, Layout.ofChart settings c = .ok l ∧ Aligned settings c l :=
  ⟨_, run_eq_replay (growing_of_nonneg h) c.resolve c.topSignals, aligned_replay h c⟩

/-- The first signal opens a box, the second one passes by in a loop, the third one closes the box,
and the last one opens another, which stays open. -/
theorem exists_aligned_reopened :
    ∃ (c : Chart) (l : Layout Rat), Layout.ofChart ⟨16, 32, 8⟩ c = .ok l ∧
      Aligned ⟨16, 32, 8⟩ c l ∧ l.height = 160 ∧
      l.lifelines = [⟨"a", [], []⟩, ⟨"b", [⟨20, 32, 88, 0⟩, ⟨144, 32, 16, 0⟩], [1]⟩] := by
  let signal (source target : String) (activates deactivates : Bool) : Statement :=
    .signal { source, target, head := some .closed, activates, deactivates }
  let c : Chart :=
    { statements :=
        [signal "a" "b" true false, signal "b" "b" false false, signal "b" "a" false true,
          signal "a" "b" true false] }
  let settings : Settings Rat := ⟨16, 32, 8⟩
  have hrun : ((Layout.ofChart settings c).toOption.map fun l => (l.height, l.lifelines)) =
      some (160, [⟨"a", [], []⟩, ⟨"b", [⟨20, 32, 88, 0⟩, ⟨144, 32, 16, 0⟩], [1]⟩]) := by
    decide +kernel
  obtain ⟨l, hlayout, haligned⟩ := exists_aligned settings (by decide) c
  rw [hlayout] at hrun
  obtain ⟨hheight, hlines⟩ := Prod.mk.inj (Option.some.inj hrun)
  exact ⟨c, l, hlayout, haligned, hheight, hlines⟩

end SequenceChart
