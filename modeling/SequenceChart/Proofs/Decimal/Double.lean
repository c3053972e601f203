import Mathlib
import SequenceChart.Decimal.Numeral
set_option autoImplicit false

/-!
# Doubles and their patterns

A double is its sign and the pattern of the rest, and every pattern up to infinity is that of a
number.  There is one double that is no number, and no double is less than itself.
-/

namespace SequenceChart.Decimal

open Float.Model (Format)
open Float.Model.UnpackedFloat

@[simp] theorem ofMagnitude_magnitude (x : Float) : ofMagnitude (isSigned x) (magnitude x) = x := by
  have hsum : (if isSigned x = true then signBit else 0) + magnitude x = x.toBits.toNat := by
    have hlt := x.toBits.toNat_lt
    unfold isSigned magnitude signBit
    simp only [decide_eq_true_eq]
    split <;> omega
  rw [ofMagnitude, hsum, UInt64.ofNat_toNat, Float.ofBits_toBits]

/-! ## Patterns of numbers -/

/-- The patterns above infinity, sign aside, are those of no numbers. -/
theorem isNaNBits_iff (a : UInt64) :
    @isNaNBits Format.binary64 a.toBitVec = true ↔ infinityBits < a.toNat % signBit := by
  have hexponent : (@unpackExponent Format.binary64 a.toBitVec).toNat
      = a.toNat / 2 ^ 52 % 2 ^ 11 := by
    rw [unpackExponent_def, BitVec.extractLsb'_toNat]
    exact congrArg (· % 2 ^ 11) (Nat.shiftRight_eq_div_pow a.toNat 52)
  have hmantissa : (@unpackMantissa Format.binary64 a.toBitVec).toNat = a.toNat % 2 ^ 52 := by
    rw [unpackMantissa_def, BitVec.extractLsb'_toNat]
    rfl
  have hones : (-BitVec.ofNat Format.binary64.exponentBits 1).toNat = 2047 := rfl
  have hnone : (BitVec.ofNat Format.binary64.mantissaBitsWithoutImplicit 0).toNat = 0 := rfl
  rw [isNaNBits, decide_eq_true_iff, Ne, ← BitVec.toNat_inj, ← BitVec.toNat_inj, hexponent,
    hmantissa, hones, hnone]
  have hlt := a.toNat_lt
  unfold infinityBits signBit
  omega

/-- There is one double that is no number. -/
theorem eq_notANumber {x : Float} (h : infinityBits < magnitude x) : x = notANumber := by
  obtain ⟨hexponent, hmantissa⟩ := of_decide_eq_true ((isNaNBits_iff x.toBits).2 h)
  have hpacked := x.toModel.valid.eq_packedNaN hexponent hmantissa
  rw [← Float.ofBits_toBits x, notANumber]
  congr 1
  exact UInt64.toBitVec_inj.1 hpacked

section Unsigned

variable {bits : Nat} (h : bits ≤ infinityBits)

include h

/-- A pattern up to infinity is that of a number, so its double keeps it. -/
theorem toBits_ofMagnitude : (ofMagnitude false bits).toBits.toNat = bits := by
  have hnat : (UInt64.ofNat (0 + bits)).toNat = bits := by
    rw [Nat.zero_add]
    exact Nat.mod_eq_of_lt (Nat.lt_of_le_of_lt h (by decide))
  have hnumber : ¬@isNaNBits Format.binary64 (UInt64.ofNat (0 + bits)).toBitVec = true := by
    rw [isNaNBits_iff, hnat, Nat.mod_eq_of_lt (Nat.lt_of_le_of_lt h (by decide))]
    exact Nat.not_lt.2 h
  show (pack Format.binary64 (unpack Format.binary64 (UInt64.ofNat (0 + bits)).toBitVec)).toNat
    = bits
  rw [pack_unpack, if_neg hnumber]
  exact hnat

theorem magnitude_ofMagnitude : magnitude (ofMagnitude false bits) = bits := by
  rw [magnitude, toBits_ofMagnitude h]
  exact Nat.mod_eq_of_lt (Nat.lt_of_le_of_lt h (by decide))

theorem isSigned_ofMagnitude : isSigned (ofMagnitude false bits) = false := by
  rw [isSigned, toBits_ofMagnitude h]
  exact decide_eq_false (Nat.not_le.2 (Nat.lt_of_le_of_lt h (by decide)))

end Unsigned

/-! ## The order -/

theorem compare_self_ne_lt (a : Float.Model.UnpackedFloat) : a.compare a ≠ some .lt := by
  cases a with
  | infinity sign => cases sign <;> decide
  | notANumber => nofun
  | zero sign => cases sign <;> nofun
  | finite sign m e h => cases sign <;> simp [Float.Model.UnpackedFloat.compare]

theorem not_lt_self (x : Float) : ¬ x < x := by
  intro h
  have hmodel : x.toModel < x.toModel := of_decide_eq_true h
  exact compare_self_ne_lt _ (eq_of_beq hmodel)

end SequenceChart.Decimal
