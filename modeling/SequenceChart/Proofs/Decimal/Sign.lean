import Mathlib
import SequenceChart.Proofs.Decimal.Double
set_option autoImplicit false

/-!
# The sign of a double

A double is below zero exactly if it has a sign and is neither zero nor no number.  Main statement:
a quarter more of a number that is not below zero is not below zero.  A product has the sign of its
factors whatever its rounding does, and packing keeps the sign.
-/

namespace SequenceChart.Decimal

open Float.Model (Format UnpackedFloat)
open Float.Model.UnpackedFloat

/-- The sign of an unpacked float. -/
def signOf : UnpackedFloat → Sign
  | .infinity s | .zero s | .finite s .. => s
  | .notANumber => .positive

/-- The unpacked float is a number below zero. -/
def IsBelowZero (u : UnpackedFloat) : Prop := u.compare (.zero .positive) = some .lt

section Unpacked

variable {u v : UnpackedFloat} {spec : Format}

theorem isBelowZero_iff : IsBelowZero u ↔ signOf u = .negative ∧ ∀ s, u ≠ .zero s := by
  cases u with
  | infinity s => cases s <;> simp [IsBelowZero, signOf, UnpackedFloat.compare]
  | notANumber => simp [IsBelowZero, signOf, UnpackedFloat.compare]
  | zero s => cases s <;> simp [IsBelowZero, signOf, UnpackedFloat.compare]
  | finite s m e h => cases s <;> simp [IsBelowZero, signOf, UnpackedFloat.compare]

/-- What is above zero is not below it. -/
theorem not_isBelowZero_of_above (h : (UnpackedFloat.zero .positive).compare u = some .lt) :
    ¬IsBelowZero u := by
  cases u with
  | notANumber => nofun
  | zero s => cases s <;> nofun
  | infinity s =>
    cases s with
    | negative => cases h
    | positive => nofun
  | finite s m e hm =>
    cases s with
    | negative => cases h
    | positive => nofun

theorem signOf_unpack (b : BitVec spec.numBits) (h : signOf (unpack spec b) = .negative) :
    Sign.ofBitVec (unpackSign b) = .negative := by
  unfold unpack at h
  dsimp only at h
  split at h
  · split at h
    · exact h
    · cases h
  · split at h
    · split at h <;> exact h
    · exact h

/-- Packing keeps the sign. -/
theorem unpackSign_pack (v : UnpackedFloat) :
    unpackSign (pack spec v) = (signOf v).toBitVec := by
  unfold pack
  cases v with
  | notANumber => exact unpackSign_packComponents _ _ _
  | infinity s => exact unpackSign_packComponents _ _ _
  | zero s => exact unpackSign_packComponents _ _ _
  | finite s m e h =>
    dsimp only
    split
    · exact unpackSign_packComponents _ _ _
    split <;> exact unpackSign_packComponents _ _ _

/-- What is below zero after it has been packed was below zero before. -/
theorem isBelowZero_of_pack (h : IsBelowZero (unpack spec (pack spec v))) : IsBelowZero v := by
  obtain ⟨hsign, hzero⟩ := isBelowZero_iff.1 h
  refine isBelowZero_iff.2 ⟨?_, ?_⟩
  · have hbit := signOf_unpack _ hsign
    rwa [unpackSign_pack, Sign.ofBitVec_toBitVec] at hbit
  · rintro s rfl
    exact hzero s unpack_packedZero

theorem signOf_roundWithAccuracy (s : Sign) (m : Nat) (e : Int) (a : Accuracy) :
    signOf (roundWithAccuracy spec s m e a) = s := by
  unfold roundWithAccuracy
  dsimp only
  split <;> rfl

/-- A product is below zero only if its factor is, where the other is finite and positive. -/
theorem isBelowZero_of_mul {m : Nat} {e : Int} {hm : 0 < m}
    (h : IsBelowZero (UnpackedFloat.mul spec u (.finite .positive m e hm))) : IsBelowZero u := by
  obtain ⟨hsign, hzero⟩ := isBelowZero_iff.1 h
  cases u with
  | notANumber => cases hsign
  | zero s => exact absurd rfl (hzero _)
  | infinity s =>
    cases s with
    | negative => rfl
    | positive => cases hsign
  | finite s m' e' hm' =>
    cases s with
    | negative => rfl
    | positive =>
      rw [UnpackedFloat.mul, signOf_roundWithAccuracy] at hsign
      cases hsign

end Unpacked

/-! ## Doubles -/

variable {x y : Float}

theorem lt_iff_compare : x < y ↔ x.toModel.unpack.compare y.toModel.unpack = some .lt := by
  constructor
  · intro h
    have hmodel : x.toModel < y.toModel := of_decide_eq_true h
    exact eq_of_beq hmodel
  · intro h
    have hmodel : x.toModel < y.toModel := beq_iff_eq.2 h
    exact decide_eq_true hmodel

theorem unpack_zero : (0 : Float).toModel.unpack = .zero .positive := rfl

theorem lt_zero_iff : x < 0 ↔ IsBelowZero x.toModel.unpack := by
  rw [lt_iff_compare, unpack_zero, IsBelowZero]

/-- A double below zero is not zero. -/
theorem beq_zero_of_lt_zero (h : x < 0) : (x == 0.0) = false := by
  rw [lt_zero_iff] at h
  show x.toModel.unpack.beq (.zero .positive) = false
  rw [UnpackedFloat.beq, h]
  rfl

/-- A double that is above zero is not below it. -/
theorem not_lt_zero_of_pos (h : 0 < x) : ¬x < 0 := by
  rw [lt_iff_compare, unpack_zero] at h
  rw [lt_zero_iff]
  exact not_isBelowZero_of_above h

/-- A quarter more of a double that is not below zero is not below zero. -/
theorem not_mul_lt_zero (h : ¬x < 0) : ¬x * 1.25 < 0 := by
  rw [lt_zero_iff] at h ⊢
  exact fun hmul => h (isBelowZero_of_mul (isBelowZero_of_pack hmul))

theorem unpackSign_of_lt {a : UInt64} (h : a.toNat < signBit) :
    @unpackSign Format.binary64 a.toBitVec = 0#1 := by
  refine BitVec.eq_of_toNat_eq ?_
  rw [unpackSign, BitVec.toNat_cast, BitVec.extractLsb, BitVec.extractLsb'_toNat]
  show a.toNat >>> 63 % 2 ^ 1 = 0
  rw [Nat.shiftRight_eq_div_pow]
  unfold signBit at h
  omega

/-- A number without a sign is above zero unless its pattern is zero. -/
theorem zero_lt_of_magnitude (hsign : isSigned x = false) (hzero : magnitude x ≠ 0)
    (hnumber : magnitude x ≤ infinityBits) : 0 < x := by
  have hbits : magnitude x = x.toModel.toBits.toBitVec.toNat % signBit := rfl
  have hpositive : signOf x.toModel.unpack ≠ .negative := by
    intro hnegative
    have hbit : Sign.ofBitVec (@unpackSign Format.binary64 x.toBits.toBitVec) = .negative :=
      signOf_unpack _ hnegative
    rw [unpackSign_of_lt (Nat.not_le.1 (of_decide_eq_false hsign))] at hbit
    cases hbit
  rw [lt_iff_compare, unpack_zero]
  cases hunpack : x.toModel.unpack with
  | notANumber =>
    rw [hbits, (unpack_eq_notANumber_iff_of_valid x.toModel.valid).1 hunpack] at hnumber
    exact absurd hnumber (by decide)
  | zero s =>
    rw [hbits, (unpack_eq_zero_iff_of_valid x.toModel.valid).1 hunpack] at hzero
    cases s <;> exact absurd rfl hzero
  | infinity s =>
    rw [hunpack] at hpositive
    cases s with
    | negative => exact absurd rfl hpositive
    | positive => rfl
  | finite s m e hm =>
    rw [hunpack] at hpositive
    cases s with
    | negative => exact absurd rfl hpositive
    | positive => rfl

end SequenceChart.Decimal
