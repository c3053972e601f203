import SequenceChart.Proofs.Geometry.Replay
set_option autoImplicit false

/-!
# What a growth does

A growth that goes through lengthens the open boxes of every lifeline and no others.  In a replay it
lengthens the spans that are not closed.  The two agree on a track whose open boxes are exactly the
ones that are not closed, which closing and opening boxes keeps.
-/

namespace SequenceChart

/-! ## Spans and tracks -/

/-- A span lies within the first `n` growths. -/
def Span.Within (span : Span) (n : Nat) : Prop :=
  span.opened ≤ n ∧ ∀ now ∈ span.closed, now ≤ n

theorem Span.Within.mono {span : Span} {m n : Nat} (h : span.Within m) (hmn : m ≤ n) :
    span.Within n :=
  ⟨Nat.le_trans h.1 hmn, fun now hnow => Nat.le_trans (h.2 now hnow) hmn⟩

namespace Track

/-- After `n` growths: the open boxes are distinct, and they are the boxes that are not closed. -/
structure Sound (t : Track) (n : Nat) : Prop where
  within : ∀ span ∈ t.spans, span.Within n
  nodup : t.openStack.Nodup
  bound : ∀ i ∈ t.openStack, i < t.spans.length
  closed_iff : ∀ i span, t.spans[i]? = some span → (span.closed = none ↔ i ∈ t.openStack)

theorem sound_empty : Sound {} 0 where
  within span h := by cases h
  nodup := List.nodup_nil
  bound i h := by cases h
  closed_iff i span h := by cases h

theorem Sound.mono {t : Track} {m n : Nat} (h : t.Sound m) (hmn : m ≤ n) : t.Sound n :=
  { h with within := fun span hspan => (h.within span hspan).mono hmn }

theorem Sound.pop {t : Track} {n : Nat} (h : t.Sound n) : (t.pop n).Sound n := by
  obtain ⟨spans, openStack⟩ := t
  cases openStack with
  | nil => exact h
  | cons top rest =>
    have hnodup := List.nodup_cons.1 h.nodup
    refine ⟨?_, hnodup.2, ?_, ?_⟩
    · intro span hspan
      obtain ⟨i, hi⟩ := List.mem_iff_getElem?.1 hspan
      simp only [Track.pop, List.getElem?_modify, Option.map_eq_map,
        Option.map_eq_some_iff] at hi
      obtain ⟨old, hold, rfl⟩ := hi
      have hwithin := h.within old (List.mem_of_getElem? hold)
      split
      · exact ⟨hwithin.1, fun now hnow => by cases hnow; exact Nat.le_refl n⟩
      · exact hwithin
    · intro i hi
      rw [Track.pop, List.length_modify]
      exact h.bound i (List.mem_cons_of_mem top hi)
    · intro i span hspan
      simp only [Track.pop, List.getElem?_modify, Option.map_eq_map,
        Option.map_eq_some_iff] at hspan
      obtain ⟨old, hold, rfl⟩ := hspan
      show _ ↔ i ∈ rest
      by_cases hi : top = i
      · subst hi
        simp [hnodup.1]
      · have hclosed := h.closed_iff i old hold
        have hne : ¬i = top := fun he => hi he.symm
        simpa [hi, hne] using hclosed

theorem Sound.push {t : Track} {n : Nat} (h : t.Sound n) : (t.push n).Sound n := by
  refine ⟨?_, ?_, ?_, ?_⟩
  · intro span hspan
    rcases List.mem_append.1 hspan with hold | hnew
    · exact h.within span hold
    · cases List.mem_singleton.1 hnew
      exact ⟨Nat.le_refl n, fun now hnow => by cases hnow⟩
  · exact List.nodup_cons.2 ⟨fun hmem => Nat.lt_irrefl _ (h.bound _ hmem), h.nodup⟩
  · intro i hi
    rw [Track.push, List.length_append, List.length_singleton]
    rcases List.mem_cons.1 hi with rfl | hold
    · omega
    · have := h.bound i hold
      omega
  · intro i span hspan
    rw [Track.push, List.mem_cons]
    rw [Track.push, List.getElem?_append] at hspan
    split at hspan
    · next hlt =>
      have hne : i ≠ t.spans.length := by omega
      simpa [hne] using h.closed_iff i span hspan
    · next hge =>
      have hi : i = t.spans.length := by
        have := (List.getElem?_eq_some_iff.1 hspan).1
        simp only [List.length_singleton] at this
        omega
      subst hi
      simp only [Nat.sub_self, List.getElem?_cons_zero, Option.some.injEq] at hspan
      simp [← hspan]

end Track

/-! ## What a growth does to boxes -/

section Growth

variable {α : Type} [Measure α]

/-- A box that is higher by an amount. -/
def Box.grown (amount : α) (b : Box α) : Box α :=
  { b with height := Measure.add b.height amount }

/-- A lifeline whose open boxes are higher by an amount. -/
def Lifeline.grown (amount : α) (line : Lifeline α) : Lifeline α :=
  { line with
    boxes := line.boxes.mapIdx fun i b => if i ∈ line.openStack then b.grown amount else b }

theorem eq_grown_of_grow {amount : α} {b b' : Box α} (h : b.grow amount = .ok b') :
    b' = b.grown amount := by
  unfold Box.grow at h
  split at h
  · cases h
  · cases h
    rfl

theorem growBoxes_eq {amount : α} {places : List Nat} {boxes boxes' : List (Box α)}
    (hnodup : places.Nodup) (h : Lifeline.growBoxes amount places boxes = .ok boxes') :
    boxes' = boxes.mapIdx fun i b => if i ∈ places then b.grown amount else b := by
  induction places generalizing boxes with
  | nil =>
    cases h
    apply List.ext_getElem?
    simp
  | cons place places ih =>
    obtain ⟨hplace, hnodup⟩ := List.nodup_cons.1 hnodup
    rw [Lifeline.growBoxes] at h
    cases hbox : boxes[place]? with
    | none =>
      rw [hbox] at h
      rw [ih hnodup h]
      apply List.ext_getElem?
      intro i
      rw [List.getElem?_mapIdx, List.getElem?_mapIdx]
      by_cases hi : i = place
      · simp [hi, hbox]
      · simp [hi]
    | some box =>
      rw [hbox] at h
      cases hgrow : box.grow amount with
      | error cause =>
        simp only [hgrow] at h
        cases h
      | ok grown =>
        simp only [hgrow] at h
        rw [ih hnodup h]
        apply List.ext_getElem?
        intro i
        rw [List.getElem?_mapIdx, List.getElem?_mapIdx, List.getElem?_set]
        by_cases hi : place = i
        · subst hi
          have hlt := (List.getElem?_eq_some_iff.1 hbox).1
          rw [if_pos rfl, if_pos hlt, hbox, eq_grown_of_grow hgrow]
          simp [hplace]
        · have hne : ¬i = place := fun he => hi he.symm
          simp [hi, hne]

theorem grow_eq_grown {amount : α} {line line' : Lifeline α} (hnodup : line.openStack.Nodup)
    (h : line.grow amount = .ok line') : line' = line.grown amount := by
  unfold Lifeline.grow at h
  split at h
  · cases h
  · next boxes hboxes =>
    cases h
    rw [growBoxes_eq ((List.reverse_perm line.openStack).nodup_iff.2 hnodup) hboxes]
    simp [Lifeline.grown]

theorem growLifelines_eq {amount : α} {lines lines' : List (Lifeline α)}
    (hnodup : ∀ line ∈ lines, line.openStack.Nodup)
    (h : Layout.growLifelines amount lines = .ok lines') :
    lines' = lines.map (Lifeline.grown amount) := by
  induction lines generalizing lines' with
  | nil =>
    cases h
    rfl
  | cons line rest ih =>
    unfold Layout.growLifelines at h
    split at h
    · cases h
    · next hline =>
      split at h
      · cases h
      · next hrest =>
        cases h
        rw [List.map_cons, grow_eq_grown (hnodup line List.mem_cons_self) hline,
          ih (fun l hl => hnodup l (List.mem_cons_of_mem line hl)) hrest]

/-! ## What a growth that goes through says -/

theorem isNegative_of_growBoxes {amount : α} {places : List Nat} {boxes boxes' : List (Box α)}
    (h : Lifeline.growBoxes amount places boxes = .ok boxes') {i : Nat} (hi : i ∈ places)
    (hlt : i < boxes.length) : Measure.isNegative amount = false := by
  induction places generalizing boxes with
  | nil => cases hi
  | cons place places ih =>
    rw [Lifeline.growBoxes] at h
    split at h
    · next hnone =>
      rcases List.mem_cons.1 hi with rfl | hi
      · rw [List.getElem?_eq_getElem hlt] at hnone
        cases hnone
      · exact ih h hi hlt
    · next box _ =>
      cases hneg : Measure.isNegative amount with
      | false => rfl
      | true =>
        simp only [Box.grow, hneg, if_true] at h
        cases h

/-- Where a box is open, only an amount that is not negative goes through. -/
theorem isNegative_of_growLifelines {amount : α} {lines lines' : List (Lifeline α)}
    (h : Layout.growLifelines amount lines = .ok lines') {line : Lifeline α} (hline : line ∈ lines)
    {i : Nat} (hi : i ∈ line.openStack) (hlt : i < line.boxes.length) :
    Measure.isNegative amount = false := by
  induction lines generalizing lines' with
  | nil => cases hline
  | cons first rest ih =>
    rw [Layout.growLifelines] at h
    split at h
    · cases h
    · next hfirst =>
      split at h
      · cases h
      · next hrest =>
        rcases List.mem_cons.1 hline with rfl | hline
        · rw [Lifeline.grow] at hfirst
          split at hfirst
          · cases hfirst
          · next hboxes => exact isNegative_of_growBoxes hboxes (List.mem_reverse.2 hi) hlt
        · exact ih hrest hline

/-- No growth that a box spans is negative. -/
def Track.Lengthened (amounts : List α) (t : Track) : Prop :=
  ∀ span ∈ t.spans, ∀ a ∈ (amounts.take (span.closed.getD amounts.length)).drop span.opened,
    Measure.isZero a = false → Measure.isNegative a = false

namespace Track.Lengthened

variable {amounts : List α} {t : Track}

theorem concat (h : t.Lengthened amounts) (hsound : t.Sound amounts.length) {a : α}
    (ha : t.openStack ≠ [] → Measure.isZero a = false → Measure.isNegative a = false) :
    t.Lengthened (amounts ++ [a]) := by
  intro span hspan b hb hzero
  have hwithin := hsound.within span hspan
  have hold := h span hspan b
  cases hclosed : span.closed with
  | some now =>
    rw [hclosed] at hb hold
    rw [Option.getD_some, List.take_append_of_le_length (hwithin.2 now hclosed)] at hb
    exact hold hb hzero
  | none =>
    rw [hclosed] at hb hold
    rw [Option.getD_none, List.take_length] at hold
    rw [Option.getD_none, List.take_length, List.drop_append_of_le_length hwithin.1] at hb
    rcases List.mem_append.1 hb with hb | hb
    · exact hold hb hzero
    · obtain ⟨i, hi⟩ := List.mem_iff_getElem?.1 hspan
      rw [List.mem_singleton.1 hb] at hzero ⊢
      exact ha (List.ne_nil_of_mem ((hsound.closed_iff i span hi).1 hclosed)) hzero

theorem pop (h : t.Lengthened amounts) (hsound : t.Sound amounts.length) :
    (t.pop amounts.length).Lengthened amounts := by
  obtain ⟨spans, openStack⟩ := t
  cases openStack with
  | nil => exact h
  | cons top rest =>
    intro span hspan
    obtain ⟨i, hi⟩ := List.mem_iff_getElem?.1 hspan
    simp only [Track.pop, List.getElem?_modify, Option.map_eq_map, Option.map_eq_some_iff] at hi
    obtain ⟨old, hold, rfl⟩ := hi
    have hspanned := h old (List.mem_of_getElem? hold)
    split
    · next htop =>
      -- an open box spans all growths so far, and so it does when it is closed now
      have hopen : old.closed = none := (hsound.closed_iff i old hold).2 (htop ▸ List.mem_cons_self)
      rw [hopen] at hspanned
      exact hspanned
    · exact hspanned

theorem push (h : t.Lengthened amounts) : (t.push amounts.length).Lengthened amounts := by
  intro span hspan
  rcases List.mem_append.1 hspan with hold | hnew
  · exact h span hold
  · rw [List.mem_singleton.1 hnew, Option.getD_none, List.take_length, List.drop_length]
    exact nofun

end Track.Lengthened

/-! ## What a growth does to a replay -/

open Replay

theorem box_concat (settings : Settings α) {amounts : List α} (a : α) {span : Span}
    (h : span.Within amounts.length) :
    box settings (amounts ++ [a]) span
      = if span.closed = none ∧ Measure.isZero a = false then (box settings amounts span).grown a
        else box settings amounts span := by
  obtain ⟨opened, closed, depth⟩ := span
  obtain ⟨hopened, hclosed⟩ := h
  have hstart : (amounts ++ [a]).take opened = amounts.take opened :=
    List.take_append_of_le_length hopened
  cases closed with
  | some now =>
    have hstop : (amounts ++ [a]).take now = amounts.take now :=
      List.take_append_of_le_length (hclosed now rfl)
    simp [box, hstart, hstop]
  | none =>
    have hspanned : ((amounts ++ [a]).take (amounts.length + 1)).drop opened
        = amounts.drop opened ++ [a] := by
      rw [List.take_of_length_le (by simp), List.drop_append_of_le_length hopened]
    cases hzero : Measure.isZero a with
    | true => simp [box, hstart, hspanned, total_concat, hzero]
    | false => simp [box, Box.grown, hstart, hspanned, total_concat, hzero]

theorem lifeline_concat_of_isZero (settings : Settings α) {amounts : List α} {a : α}
    (hzero : Measure.isZero a = true) {t : Track} (h : t.Sound amounts.length) (name : String) :
    lifeline settings (amounts ++ [a]) t name = lifeline settings amounts t name := by
  have hboxes :
      t.spans.map (box settings (amounts ++ [a])) = t.spans.map (box settings amounts) := by
    refine List.map_congr_left ?_
    intro span hspan
    simp [box_concat settings a (h.within span hspan), hzero]
  rw [lifeline, hboxes, lifeline]

theorem lifeline_concat (settings : Settings α) {amounts : List α} {a : α}
    (hzero : Measure.isZero a = false) {t : Track} (h : t.Sound amounts.length) (name : String) :
    lifeline settings (amounts ++ [a]) t name = (lifeline settings amounts t name).grown a := by
  have hboxes : t.spans.map (box settings (amounts ++ [a]))
      = (t.spans.map (box settings amounts)).mapIdx
          fun i b => if i ∈ t.openStack then b.grown a else b := by
    apply List.ext_getElem?
    intro i
    rw [List.getElem?_map, List.getElem?_mapIdx, List.getElem?_map]
    cases hspan : t.spans[i]? with
    | none => rfl
    | some span =>
      have hopen := h.closed_iff i span hspan
      simp [box_concat settings a (h.within span (List.mem_of_getElem? hspan)), hzero, hopen]
  rw [lifeline, hboxes]
  rfl

end Growth

end SequenceChart
