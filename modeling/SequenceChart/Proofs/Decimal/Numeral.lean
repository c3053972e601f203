import SequenceChart.Proofs.Decimal.Digits
import SequenceChart.Proofs.Decimal.Shortest
set_option autoImplicit false

/-!
# Numerals of doubles

The text of a positive finite double is a numeral, and reading a numeral of its value gives the
double back: the value lies in the interval of the double's pattern, and the shortcuts for numbers
far out of range are not taken.
-/

namespace SequenceChart.Decimal

/-! ## Rounding a decimal number -/

section Rounding

variable {bits d : Nat} {k : Int}

/-- A number in the interval of a pattern lies between the least and the greatest doubles. -/
theorem Interval.Contains.range {v : ℚ} (h : (Interval.ofBits bits).Contains v) (hbits : bits ≠ 0)
    (hfinite : bits < infinityBits) : (2 : ℚ) ^ (-1075 : Int) ≤ v ∧ v < 2 ^ (1024 : Int) := by
  obtain ⟨⟨m, q⟩, hmantissa⟩ : ∃ parts, mantissa bits = parts := ⟨_, rfl⟩
  obtain ⟨-, hq, hm, -, hq'⟩ := mantissa_spec hmantissa
  have hm0 := mantissa_pos hbits hmantissa
  obtain ⟨⟨hlow, hhigh, -⟩, -⟩ := h.bounds hmantissa hm0
  have hunit : (0 : ℚ) < 2 ^ q := by positivity
  have hm0' : (1 : ℚ) ≤ m := by exact_mod_cast hm0
  have hm' : (m : ℚ) + 1 ≤ 2 ^ 53 := by exact_mod_cast hm
  have htwo : (2 : ℚ) ≠ 0 := by norm_num
  constructor
  · calc (2 : ℚ) ^ (-1075 : Int) ≤ 2 ^ (q - 1) := zpow_le_zpow_right₀ (by norm_num) (by omega)
      _ = 1 / 2 * 2 ^ q := by
          rw [zpow_sub_one₀ htwo]
          ring
      _ ≤ v / 2 ^ q * 2 ^ q := by
          rw [mul_le_mul_iff_left₀ hunit]
          linarith
      _ = v := div_mul_cancel₀ v hunit.ne'
  · calc v = v / 2 ^ q * 2 ^ q := (div_mul_cancel₀ v hunit.ne').symm
      _ < 2 ^ (53 : Int) * 2 ^ q := by
          rw [mul_lt_mul_iff_left₀ hunit]
          norm_num at hm' ⊢
          linarith
      _ = 2 ^ (53 + q) := (zpow_add₀ htwo 53 q).symm
      _ ≤ 2 ^ (1024 : Int) := by
          have hle := hq' hfinite
          exact zpow_le_zpow_right₀ (by norm_num) (by omega)

theorem coefficient_ne_zero (h : (Interval.ofBits bits).Contains (d * 10 ^ k)) (hbits : bits ≠ 0)
    (hfinite : bits < infinityBits) : d ≠ 0 := by
  rintro rfl
  have hpos : (0 : ℚ) < 2 ^ (-1075 : Int) := by positivity
  have hlow := (h.range hbits hfinite).1
  rw [Nat.cast_zero, zero_mul] at hlow
  exact absurd hlow (not_le.2 hpos)

/-- The number of places of a decimal number bounds it from both sides. -/
theorem places_bounds (hd : d ≠ 0) :
    (10 : ℚ) ^ (k + (natDigits d).length - 1) ≤ d * 10 ^ k ∧
      (d : ℚ) * 10 ^ k < 10 ^ (k + (natDigits d).length) := by
  have hunit : (0 : ℚ) < 10 ^ k := by positivity
  have hlength := length_natDigits_pos d
  have hlow : (10 : ℚ) ^ ((natDigits d).length - 1) ≤ d := by
    exact_mod_cast pow_length_natDigits_le hd
  have hhigh : (d : ℚ) < 10 ^ (natDigits d).length := by
    exact_mod_cast lt_pow_length_natDigits d
  constructor
  · rw [add_sub_assoc, add_comm, zpow_add₀ (by norm_num), mul_le_mul_iff_left₀ hunit]
    rwa [show ((natDigits d).length : Int) - 1 = ((natDigits d).length - 1 : Nat) by omega,
      zpow_natCast]
  · rw [add_comm, zpow_add₀ (by norm_num), mul_lt_mul_iff_left₀ hunit, zpow_natCast]
    exact hhigh

/-- A decimal number in the interval of a pattern is rounded to the pattern. -/
theorem readMagnitude_eq (hbits : bits ≠ 0) (hfinite : bits < infinityBits)
    (h : (Interval.ofBits bits).Contains (d * 10 ^ k)) : readMagnitude d k = bits := by
  obtain ⟨hlow, hhigh⟩ := h.range hbits hfinite
  have hd := coefficient_ne_zero h hbits hfinite
  obtain ⟨hplaces, hplaces'⟩ := places_bounds (k := k) hd
  have hlarge : ¬ 310 < k + ((natDigits d).length : Int) := by
    intro hlt
    have hpower : (10 : ℚ) ^ (310 : Int) ≤ 10 ^ (k + ((natDigits d).length : Int) - 1) :=
      zpow_le_zpow_right₀ (by norm_num) (by omega)
    have hbound : (10 : ℚ) ^ (-310 : Int) < 2 ^ (-1024 : Int) :=
      ten_zpow_lt (by decide) (by decide)
    rw [zpow_neg, zpow_neg, inv_lt_inv₀ (by positivity) (by positivity)] at hbound
    exact lt_irrefl _ (hhigh.trans (hbound.trans_le (hpower.trans hplaces)))
  have hsmall : ¬ k + ((natDigits d).length : Int) < -330 := by
    intro hlt
    have hpower : (10 : ℚ) ^ (k + ((natDigits d).length : Int)) ≤ 10 ^ (-330 : Int) :=
      zpow_le_zpow_right₀ (by norm_num) (by omega)
    have hbound : (10 : ℚ) ^ (-330 : Int) < 2 ^ (-1075 : Int) :=
      ten_zpow_lt (by decide) (by decide)
    exact lt_irrefl _ (hplaces'.trans (hpower.trans_lt (hbound.trans_le hlow)))
  unfold readMagnitude
  dsimp only
  rw [if_neg hd, if_neg hlarge, if_neg hsmall]
  refine nearest_eq hbits hfinite (Nat.mul_pos (Nat.pos_of_ne_zero hd) (Nat.pow_pos (by decide)))
    (Nat.pow_pos (by decide)) ?_
  have hpower := zpow_eq_div 10 (by decide) k
  rw [Nat.cast_ofNat] at hpower
  simp only [Nat.pow_eq]
  rwa [Nat.cast_mul, mul_div_assoc, ← hpower]

end Rounding

/-! ## The text of a decimal number -/

/-- The digits of an exponent, at least two. -/
def exponentDigits (e : Int) : List Char :=
  if (natDigits e.natAbs).length < 2 then '0' :: natDigits e.natAbs else natDigits e.natAbs

/-- An exponent with its sign. -/
def exponentText (e : Int) : List Char :=
  'e' :: (if e < 0 then '-' else '+') :: exponentDigits e

theorem isDigit_exponentDigits (e : Int) : ∀ c ∈ exponentDigits e, c.isDigit = true := by
  intro c hc
  unfold exponentDigits at hc
  split at hc
  · rcases List.mem_cons.1 hc with rfl | hc
    · rfl
    · exact isDigit_natDigits _ c hc
  · exact isDigit_natDigits _ c hc

theorem exponentDigits_ne_nil (e : Int) : exponentDigits e ≠ [] := by
  unfold exponentDigits
  split
  · nofun
  · exact natDigits_ne_nil _

theorem intOfDigits_exponentDigits (e : Int) :
    intOfDigits (decide (e < 0)) (exponentDigits e) = e := by
  have hvalue : natOfDigits (exponentDigits e) = natOfDigits (natDigits e.natAbs) := by
    unfold exponentDigits
    split <;> rfl
  rw [intOfDigits, hvalue]
  exact intOfDigits_natDigits e

/-- The parts of a numeral with a fraction or an exponent: the digits before the point, those after
it, and the exponent. -/
structure Numeral where
  whole : List Char
  fraction : List Char
  exponent : Option Int
  isDigit_whole : ∀ c ∈ whole, c.isDigit = true
  isDigit_fraction : ∀ c ∈ fraction, c.isDigit = true
  /-- no leading zero but for a zero alone -/
  leading : whole = ['0'] ∨ ∃ c rest, whole = c :: rest ∧ c ≠ '0'
  isReal : fraction ≠ [] ∨ exponent.isSome

namespace Numeral

def text (n : Numeral) : List Char :=
  n.whole ++ ((if n.fraction = [] then [] else '.' :: n.fraction)
    ++ n.exponent.elim [] exponentText)

/-- The digits as a number. -/
def digits (n : Numeral) : Nat := natOfDigits (n.whole ++ n.fraction)

/-- The power of ten that the digits are multiplied with. -/
def power (n : Numeral) : Int := n.exponent.getD 0 - n.fraction.length

/-- A numeral starts with a digit. -/
theorem text_eq_cons (n : Numeral) : ∃ c rest, n.text = c :: rest ∧ c.isDigit = true := by
  obtain ⟨c, rest, hwhole⟩ : ∃ c rest, n.whole = c :: rest := by
    rcases n.leading with h | ⟨c, rest, h, -⟩
    · exact ⟨_, _, h⟩
    · exact ⟨c, rest, h⟩
  refine ⟨c, _, by rw [text, hwhole]; rfl, n.isDigit_whole c ?_⟩
  rw [hwhole]
  exact List.mem_cons_self

/-- The number that a numeral writes. -/
def value (n : Numeral) : ℚ := n.digits * 10 ^ n.power

theorem isDigit_replicate (n : Nat) : ∀ c ∈ List.replicate n '0', c.isDigit = true := by
  intro c hc
  rw [List.eq_of_mem_replicate hc]
  rfl

/-- Digits of a positive number from the first one on have no leading zero. -/
theorem leading_take {d : Nat} (hd : d ≠ 0) {n : Nat} (hn : 0 < n) (more : List Char) :
    ∃ c rest, (natDigits d).take n ++ more = c :: rest ∧ c ≠ '0' := by
  obtain ⟨c, rest, hdigits, hc⟩ := natDigits_eq_cons hd
  obtain ⟨n, rfl⟩ := Nat.exists_eq_add_one.2 hn
  exact ⟨c, rest.take n ++ more, by rw [hdigits]; rfl, hc⟩

/-- Zeros behind the point, and then the digits of a number. -/
def decimals (zeros d : Nat) : Numeral where
  whole := ['0']
  fraction := List.replicate zeros '0' ++ natDigits d
  exponent := none
  isDigit_whole := List.forall_mem_singleton.2 rfl
  isDigit_fraction := List.forall_mem_append.2 ⟨isDigit_replicate zeros, isDigit_natDigits d⟩
  leading := .inl rfl
  isReal := .inl (by simp [natDigits_ne_nil])

theorem value_decimals (zeros d : Nat) :
    (decimals zeros d).value = d * 10 ^ (-(zeros : Int) - (natDigits d).length) := by
  have hdigits : (decimals zeros d).digits = d := by
    simp [digits, decimals, natOfDigits_zeros_append]
  have hpower : (decimals zeros d).power = -(zeros : Int) - (natDigits d).length := by
    simp only [power, decimals, Option.getD_none, List.length_append, List.length_replicate]
    omega
  rw [value, hdigits, hpower]

variable {d : Nat} (hd : d ≠ 0)

/-- The digits of a number and zeros after them, before the point. -/
def padded (zeros : Nat) : Numeral where
  whole := natDigits d ++ List.replicate zeros '0'
  fraction := ['0']
  exponent := none
  isDigit_whole := List.forall_mem_append.2 ⟨isDigit_natDigits d, isDigit_replicate zeros⟩
  isDigit_fraction := List.forall_mem_singleton.2 rfl
  leading := by
    have hleading := leading_take hd (length_natDigits_pos d) (List.replicate zeros '0')
    rw [List.take_length] at hleading
    exact .inr hleading
  isReal := .inl (by simp)

theorem value_padded (zeros : Nat) : (padded hd zeros).value = d * 10 ^ (zeros : Int) := by
  have hdigits : (padded hd zeros).digits = 10 ^ (zeros + 1) * d := by
    rw [digits, padded, List.append_assoc, ← List.replicate_succ', natOfDigits_append_zeros,
      natOfDigits_natDigits]
  have hpower : (padded hd zeros).power = -1 := rfl
  rw [value, hdigits, hpower, zpow_neg_one, zpow_natCast, pow_succ]
  push_cast
  field_simp

section Pointed

variable (places : Nat) (hplaces : 0 < places) (exponent : Option Int)
  (hreal : places < (natDigits d).length ∨ exponent.isSome)

/-- The digits of a number with the point behind some of them, or behind all of them if there is an
exponent. -/
def pointed : Numeral where
  whole := (natDigits d).take places
  fraction := (natDigits d).drop places
  exponent := exponent
  isDigit_whole c hc := isDigit_natDigits d c (List.mem_of_mem_take hc)
  isDigit_fraction c hc := isDigit_natDigits d c (List.mem_of_mem_drop hc)
  leading := by
    have hleading := leading_take hd hplaces []
    rw [List.append_nil] at hleading
    exact .inr hleading
  isReal := hreal.imp_left (by simp)

theorem value_pointed (hle : places ≤ (natDigits d).length) :
    (pointed hd places hplaces exponent hreal).value
      = d * 10 ^ (exponent.getD 0 + places - (natDigits d).length) := by
  have hdigits : (pointed hd places hplaces exponent hreal).digits = d := by
    rw [digits, pointed, List.take_append_drop, natOfDigits_natDigits]
  have hpower : (pointed hd places hplaces exponent hreal).power
      = exponent.getD 0 + places - (natDigits d).length := by
    simp only [power, pointed, List.length_drop]
    omega
  rw [value, hdigits, hpower]

end Pointed

end Numeral

section Text

variable {d : Nat} (hd : d ≠ 0)

include hd

/-- Digits with a point are a numeral of the same value. -/
theorem exists_positional {point : Int} (hpoint : point ≤ 16) :
    ∃ n : Numeral, n.text = positional (natDigits d) point ∧ n.whole.length ≤ 16 ∧
      n.value = d * 10 ^ (point - (natDigits d).length) := by
  unfold positional
  split
  · next hneg =>
    refine ⟨.decimals (-point).toNat d, ?_, by simp [Numeral.decimals], ?_⟩
    · simp [Numeral.text, Numeral.decimals, natDigits_ne_nil]
    · rw [Numeral.value_decimals, Int.toNat_of_nonneg (by omega), neg_neg]
  · next hpos =>
    split
    · next hlong =>
      refine ⟨.padded hd (point.toNat - (natDigits d).length), ?_, ?_, ?_⟩
      · simp [Numeral.text, Numeral.padded]
      · rw [Numeral.padded, List.length_append, List.length_replicate]
        omega
      · rw [Numeral.value_padded, Nat.cast_sub hlong, Int.toNat_of_nonneg (by omega)]
    · next hshort =>
      have hlt : point.toNat < (natDigits d).length := Nat.not_le.1 hshort
      refine ⟨.pointed hd point.toNat (by omega) none (.inl hlt), ?_, ?_, ?_⟩
      · have hfraction : (natDigits d).drop point.toNat ≠ [] := by simpa using hshort
        simp [Numeral.text, Numeral.pointed, hfraction]
      · rw [Numeral.pointed, List.length_take]
        omega
      · rw [Numeral.value_pointed _ _ _ _ _ hlt.le, Option.getD_none, zero_add,
          Int.toNat_of_nonneg (by omega)]

/-- Digits with an exponent are a numeral of the same value. -/
theorem exists_exponential (exponent : Int) :
    ∃ n : Numeral, n.text = exponential (natDigits d) exponent ∧ n.whole.length ≤ 16 ∧
      n.value = d * 10 ^ (exponent + 1 - (natDigits d).length) := by
  refine ⟨.pointed hd 1 Nat.one_pos (some exponent) (.inr rfl), ?_, ?_, ?_⟩
  · simp only [Numeral.text, Numeral.pointed, exponential, List.drop_eq_nil_iff, Option.elim_some,
      List.append_assoc]
    rfl
  · rw [Numeral.pointed, List.length_take]
    omega
  · rw [Numeral.value_pointed _ _ _ _ _ (length_natDigits_pos d), Option.getD_some, Nat.cast_one]

/-- The text of a decimal number is a numeral of the same value. -/
theorem exists_numeral (k : Int) :
    ∃ n : Numeral, n.text = decimalText d k ∧ n.whole.length ≤ 16 ∧ n.value = d * 10 ^ k := by
  unfold decimalText
  dsimp only
  split
  · next hpoint =>
    simp only [Bool.and_eq_true, decide_eq_true_eq] at hpoint
    have hnumeral := exists_positional hd hpoint.2
    rwa [add_sub_cancel_right] at hnumeral
  · have hnumeral := exists_exponential hd (k + (natDigits d).length - 1)
    rwa [sub_add_cancel, add_sub_cancel_right] at hnumeral

end Text

/-- The text of a finite pattern is a numeral that is rounded to the pattern. -/
theorem exists_magnitudeText {bits : Nat} (hfinite : bits < infinityBits) :
    ∃ n : Numeral, n.text = magnitudeText bits ∧ n.whole.length ≤ 16 ∧
      readMagnitude n.digits n.power = bits := by
  unfold magnitudeText
  split
  · next hzero =>
    refine ⟨⟨['0'], ['0'], none, List.forall_mem_singleton.2 rfl, List.forall_mem_singleton.2 rfl,
      .inl rfl, .inl nofun⟩, rfl, by decide, ?_⟩
    rw [hzero]
    rfl
  · next hbits =>
    have hcontains := contains_shortest hbits hfinite
    obtain ⟨n, htext, hwhole, hvalue⟩ :=
      exists_numeral (coefficient_ne_zero hcontains hbits hfinite) (shortest bits).2
    refine ⟨n, htext, hwhole, readMagnitude_eq hbits hfinite ?_⟩
    rw [← Numeral.value, hvalue]
    exact hcontains

end SequenceChart.Decimal
