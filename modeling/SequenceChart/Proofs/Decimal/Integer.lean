import SequenceChart.Proofs.Decimal.Digits
import SequenceChart.Proofs.Decimal.Sign
set_option autoImplicit false

/-!
# The double of an integer

An integer that has a double has few digits, and the double of one above zero is finite and above
zero itself.  Both follow from how the pattern of the nearest double grows with the integer.
-/

namespace SequenceChart.Decimal

/-- The double is a number above zero and no infinity. -/
def IsFinitePositive (x : Float) : Prop := magnitude x < infinityBits ∧ 0 < x

/-- The pattern of an integer grows by a binade with its logarithm, up to infinity. -/
theorem le_nearest (n : Nat) :
    min ((1021 + n.log2) * leadingBit) infinityBits ≤ nearest n 1 := by
  have hlog : (n.log2 : Int) - 1 ≤ floorLog2 n 1 := by
    unfold floorLog2
    dsimp only
    have hone : (Nat.log2 1 : Int) = 0 := rfl
    rw [hone, sub_zero]
    split <;> omega
  unfold nearest
  dsimp only
  refine min_le_min_right infinityBits (Nat.le_add_right_of_le ?_)
  refine Nat.mul_le_mul_right leadingBit ?_
  omega

section OfInt

variable {n : Int} {x : Float}

/-- The double of an integer above zero has the pattern that is nearest to it. -/
theorem ofInt?_of_pos (hn : 0 < n) (h : ofInt? n = some x) :
    nearest n.natAbs 1 < infinityBits ∧ x = ofMagnitude false (nearest n.natAbs 1) := by
  have hle : nearest n.natAbs 1 ≤ infinityBits := Nat.min_le_right _ _
  have hsign : decide (n < 0) = false := decide_eq_false (by omega)
  simp only [ofInt?, if_neg (show n ≠ 0 by omega), hsign] at h
  split at h
  · cases h
  · next hfinite =>
    cases h
    exact ⟨Nat.lt_of_le_of_ne hle hfinite, rfl⟩

/-- The double of an integer above zero is finite and above zero. -/
theorem isFinitePositive_of_ofInt? (hn : 0 < n) (h : ofInt? n = some x) : IsFinitePositive x := by
  obtain ⟨hfinite, rfl⟩ := ofInt?_of_pos hn h
  have hle := Nat.le_of_lt hfinite
  have hlow := le_nearest n.natAbs
  have hpos : 0 < min ((1021 + n.natAbs.log2) * leadingBit) infinityBits :=
    lt_min (Nat.mul_pos (by omega) (by decide)) (by decide)
  refine ⟨?_, zero_lt_of_magnitude (isSigned_ofMagnitude hle) ?_ ?_⟩
  · rw [magnitude_ofMagnitude hle]
    exact hfinite
  · rw [magnitude_ofMagnitude hle]
    omega
  · rw [magnitude_ofMagnitude hle]
    exact hle

/-- An integer that has a double is short enough to be shown. -/
theorem length_natDigits_le_of_ofInt? (h : (ofInt? n).isSome) :
    (natDigits n.natAbs).length ≤ digitLimit := by
  by_cases hzero : n = 0
  · rw [hzero]
    decide
  have hfinite : nearest n.natAbs 1 ≠ infinityBits := by
    intro hinfinite
    simp only [ofInt?, if_neg hzero, if_pos hinfinite] at h
    cases h
  have hlog : n.natAbs.log2 < 1026 := by
    refine Nat.not_le.1 fun hlarge => hfinite ?_
    have hlow := le_nearest n.natAbs
    rw [min_eq_right (by unfold infinityBits leadingBit; omega)] at hlow
    exact le_antisymm (Nat.min_le_right _ _) hlow
  have hpow : n.natAbs < 10 ^ (n.natAbs.log2 + 1) :=
    calc n.natAbs < 2 ^ (n.natAbs.log2 + 1) := Nat.lt_log2_self
      _ ≤ 10 ^ (n.natAbs.log2 + 1) := Nat.pow_le_pow_left (by decide) _
  have hdigits := (pow_length_natDigits_le (Int.natAbs_ne_zero.2 hzero)).trans_lt hpow
  have hlength := (Nat.pow_lt_pow_iff_right (by decide)).1 hdigits
  unfold digitLimit
  omega

end OfInt

end SequenceChart.Decimal
