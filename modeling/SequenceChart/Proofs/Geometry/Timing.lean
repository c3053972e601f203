import Mathlib.Algebra.Order.BigOperators.Group.List
import Mathlib.Algebra.Order.Ring.Rat
import Mathlib.Data.List.Induction
import Mathlib.Tactic.Linarith
import SequenceChart.Proofs.Geometry.History
set_option autoImplicit false

/-!
# Where boxes start and end

Over the rationals the cursor is a sum of growths, so the height of a box is the way that the cursor
went while the box was open.  A box therefore starts at the end of the arrow that opened it and ends
at the start of the arrow that closed it, or at the height of the layout.
-/

namespace SequenceChart

open Layout Replay

/-! ## Sums of growths -/

theorem total_eq_sum (amounts : List Rat) : total amounts = amounts.sum := by
  induction amounts using List.reverseRecOn with
  | nil => rfl
  | append_singleton amounts a ih =>
    rw [total_concat, List.sum_append, List.sum_singleton, ih]
    by_cases ha : a = 0
    · rw [ha, add_zero]
      rfl
    · have hzero : Measure.isZero a = false := decide_eq_false ha
      rw [hzero]
      rfl

theorem sum_take_mono {amounts : List Rat} (h : ∀ a ∈ amounts, 0 ≤ a) {m n : Nat} (hmn : m ≤ n) :
    (amounts.take m).sum ≤ (amounts.take n).sum :=
  (List.take_sublist_take_left hmn).sum_le_sum fun a ha => h a (List.mem_of_mem_take ha)

theorem sum_take_le {amounts : List Rat} (h : ∀ a ∈ amounts, 0 ≤ a) (n : Nat) :
    (amounts.take n).sum ≤ amounts.sum :=
  (List.take_sublist n amounts).sum_le_sum h

theorem sum_take_nonneg {amounts : List Rat} (h : ∀ a ∈ amounts, 0 ≤ a) (n : Nat) :
    0 ≤ (amounts.take n).sum :=
  List.sum_nonneg fun a ha => h a (List.mem_of_mem_take ha)

theorem greatest_le {xs : List Rat} {bound : Rat} (hzero : 0 ≤ bound) (h : ∀ x ∈ xs, x ≤ bound) :
    Measure.greatest xs ≤ bound := by
  cases xs with
  | nil => exact hzero
  | cons x rest =>
    obtain ⟨hx, hrest⟩ := List.forall_mem_cons.1 h
    rw [Measure.greatest]
    clear h
    induction rest generalizing x with
    | nil => exact hx
    | cons y rest ih =>
      obtain ⟨hy, hrest⟩ := List.forall_mem_cons.1 hrest
      rw [List.foldl_cons]
      split
      · exact ih y hy hrest
      · exact ih x hx hrest

/-! ## The cursor -/

section Cursor

variable {settings : Settings Rat}

theorem growthsOf_nonneg (h : 0 ≤ settings.fontSize) (s : Signal) :
    ∀ a ∈ growthsOf settings s, 0 ≤ a := by
  have htop : 0 ≤ settings.topMargin := mul_nonneg h (by norm_num)
  have hloop : 0 ≤ Layout.loop settings s := by
    unfold Layout.loop
    split
    · exact h
    · exact le_refl 0
  simpa [growthsOf] using ⟨htop, hloop, h⟩

theorem growths_nonneg (h : 0 ≤ settings.fontSize) (signals : List Signal) :
    ∀ a ∈ growths settings signals, 0 ≤ a := by
  intro a ha
  obtain ⟨s, -, hs⟩ := List.mem_flatMap.1 ha
  exact growthsOf_nonneg h s a hs

theorem growing_of_nonneg (h : 0 ≤ settings.fontSize) : settings.Growing :=
  fun s a ha => decide_eq_false (not_lt.2 (growthsOf_nonneg h s a ha))

/-- The cursor after some growths of the signals. -/
def cursor (settings : Settings Rat) (signals : List Signal) (n : Nat) : Rat :=
  ((growths settings signals).take n).sum

/-- Within the `k`-th signal the cursor goes on by the growths of that signal. -/
theorem cursor_add {signals : List Signal} {k r : Nat} {s : Signal} (h : signals[k]? = some s)
    (hr : r ≤ 3) :
    cursor settings signals (3 * k + r)
      = cursor settings signals (3 * k) + ((growthsOf settings s).take r).sum := by
  obtain ⟨hk, hs⟩ := List.getElem?_eq_some_iff.1 h
  have hlength : (growths settings (signals.take k)).length = 3 * k := by
    rw [length_growths, List.length_take_of_le (Nat.le_of_lt hk)]
  have hsplit : growths settings signals
      = growths settings (signals.take k)
        ++ (growthsOf settings s ++ growths settings (signals.drop (k + 1))) := by
    conv_lhs => rw [← List.take_append_drop k signals, List.drop_eq_getElem_cons hk, hs]
    simp [growths]
  have htake : (growthsOf settings s ++ growths settings (signals.drop (k + 1))).take r
      = (growthsOf settings s).take r :=
    List.take_append_of_le_length hr
  have hbase : (growths settings signals).take (3 * k) = growths settings (signals.take k) := by
    rw [hsplit, ← hlength, List.take_left]
  rw [cursor, cursor, hbase, hsplit, ← hlength, List.take_length_add_append, htake,
    List.sum_append]

theorem cursor_start {signals : List Signal} {k : Nat} {s : Signal} (h : signals[k]? = some s) :
    cursor settings signals (3 * k + 1)
      = cursor settings signals (3 * k) + settings.topMargin := by
  rw [cursor_add h (by decide)]
  simp [growthsOf]

theorem cursor_finish {signals : List Signal} {k : Nat} {s : Signal} (h : signals[k]? = some s) :
    cursor settings signals (3 * k + 2)
      = cursor settings signals (3 * k) + settings.topMargin + Layout.loop settings s := by
  rw [cursor_add h (by decide)]
  simp [growthsOf, Layout.loop, add_assoc]

theorem cursor_next {signals : List Signal} {k : Nat} {s : Signal} (h : signals[k]? = some s) :
    cursor settings signals (3 * (k + 1))
      = cursor settings signals (3 * k + 2) + settings.bottomMargin := by
  rw [Nat.mul_succ, cursor_add h (Nat.le_refl 3), cursor_finish h]
  simp [growthsOf, Layout.loop, add_assoc]

theorem cursor_mono (h : 0 ≤ settings.fontSize) (signals : List Signal) {m n : Nat}
    (hmn : m ≤ n) : cursor settings signals m ≤ cursor settings signals n :=
  sum_take_mono (growths_nonneg h signals) hmn

theorem cursor_nonneg (h : 0 ≤ settings.fontSize) (signals : List Signal) (n : Nat) :
    0 ≤ cursor settings signals n :=
  sum_take_nonneg (growths_nonneg h signals) n

end Cursor

/-! ## Boxes and arrows at the cursor -/

section Replay

variable {settings : Settings Rat} {resolve : String → String} {signals : List Signal}

theorem height_layout : (Replay.layout settings resolve signals).height
    = cursor settings signals (3 * signals.length) := by
  rw [cursor, ← length_growths settings signals, List.take_length, ← total_eq_sum]
  rfl

theorem cursor_le_height (h : 0 ≤ settings.fontSize) (n : Nat) :
    cursor settings signals n ≤ (Replay.layout settings resolve signals).height := by
  rw [height_layout, cursor, cursor, ← length_growths settings signals, List.take_length]
  exact sum_take_le (growths_nonneg h signals) n

theorem start_box (span : Span) :
    (box settings (growths settings signals) span).start = cursor settings signals span.opened :=
  total_eq_sum _

/-- A box is opened before it is closed, or before the last growth if it is not closed. -/
theorem opened_lt_end {name : String} {j : Nat} {span : Span}
    (hspan : (track resolve signals name).spans[j]? = some span) :
    span.opened < span.closed.getD (3 * signals.length) := by
  cases hclosed : span.closed with
  | some now => exact opened_lt_closed hspan hclosed
  | none =>
    obtain ⟨k, hk, hopened, -⟩ := exists_opener hspan
    rw [Option.getD_none]
    omega

/-- A box reaches down to where the cursor was when it was closed, or to the last place of the
cursor. -/
theorem bottom_box {name : String} {j : Nat} {span : Span}
    (hspan : (track resolve signals name).spans[j]? = some span) :
    (box settings (growths settings signals) span).bottom
      = cursor settings signals (span.closed.getD (3 * signals.length)) := by
  have hstart : (growths settings signals).take span.opened
      = ((growths settings signals).take (span.closed.getD (3 * signals.length))).take
        span.opened := by
    rw [List.take_take, Nat.min_eq_left (Nat.le_of_lt (opened_lt_end hspan))]
  show total _ + total _ = _
  rw [length_growths, total_eq_sum, total_eq_sum, hstart, List.sum_take_add_sum_drop]
  rfl

/-- The two ends of the arrow of the `k`-th signal. -/
theorem ends_arrow {k : Nat} {a : Arrow Rat}
    (ha : (Replay.layout settings resolve signals).arrows[k]? = some a) :
    ∃ s, signals[k]? = some s ∧ a.start.y = cursor settings signals (3 * k + 1) ∧
      a.finish.y = cursor settings signals (3 * k + 2) := by
  rw [getElem?_arrows, Option.map_eq_some_iff] at ha
  obtain ⟨s, hs, rfl⟩ := ha
  exact ⟨s, hs, total_eq_sum _, total_eq_sum _⟩

end Replay

end SequenceChart
