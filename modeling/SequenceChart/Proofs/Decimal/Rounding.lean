import Mathlib.Algebra.Order.Field.Power
import Mathlib.Data.Int.Log
import Mathlib.Data.Rat.Floor
import Mathlib.Tactic.FieldSimp
import Mathlib.Tactic.Linarith
import Mathlib.Tactic.NormNum
import Mathlib.Tactic.Positivity
import Mathlib.Tactic.Ring
import SequenceChart.Decimal.Shortest
set_option autoImplicit false

/-!
# Rounding to doubles

The rounding of a fraction to a double is read in rational numbers.  Main statement: a fraction that
lies in the interval of a finite pattern is rounded to that pattern.
-/

namespace SequenceChart.Decimal

/-! ## Rounding to integers -/

/-- A fraction within a half of an integer is rounded to it; at a distance of a half only if the
integer is even. -/
theorem roundHalfEven_eq {num den r : Nat} (hlow : 2 * (r * den) ≤ 2 * num + den)
    (hhigh : 2 * num ≤ 2 * (r * den) + den)
    (hodd : r % 2 = 1 → 2 * (r * den) < 2 * num + den ∧ 2 * num < 2 * (r * den) + den)
    (hden : 0 < den) : roundHalfEven num den = r := by
  have hsplit : num = num / den * den + num % den := (Nat.div_add_mod' num den).symm
  have hrest : num % den < den := Nat.mod_lt num hden
  unfold roundHalfEven
  generalize num / den = low at *
  generalize num % den = rest at *
  dsimp only
  have hle : low ≤ r := by
    refine Nat.not_lt.1 fun hlt => ?_
    have hmul : (r + 1) * den ≤ low * den := Nat.mul_le_mul_right den hlt
    rw [Nat.add_mul, Nat.one_mul] at hmul
    omega
  have hge : r ≤ low + 1 := by
    refine Nat.not_lt.1 fun hlt => ?_
    have hmul : (low + 2) * den ≤ r * den := Nat.mul_le_mul_right den hlt
    rw [Nat.add_mul] at hmul
    omega
  rcases Nat.lt_or_ge low r with hlt | hge'
  · obtain rfl : r = low + 1 := by omega
    rw [Nat.add_mul, Nat.one_mul] at hlow hhigh hodd
    split
    · omega
    · split <;> omega
  · obtain rfl : low = r := by omega
    split
    · rfl
    · split <;> omega

/-! ## Powers with an integer exponent -/

/-- A power is a quotient of powers with natural exponents. -/
theorem zpow_eq_div (b : Nat) (hb : 0 < b) (e : Int) :
    (b : ℚ) ^ e = ((b ^ e.toNat : Nat) : ℚ) / ((b ^ (-e).toNat : Nat) : ℚ) := by
  have hb' : (b : ℚ) ≠ 0 := by positivity
  rw [Nat.cast_pow, Nat.cast_pow, ← zpow_natCast, ← zpow_natCast, ← zpow_sub₀ hb']
  congr 1
  omega

/-- A fraction scaled by a power of two. -/
theorem scaled_div (num den : Nat) (q : Int) :
    ((num * Nat.pow 2 (-q).toNat : Nat) : ℚ) / ((den * Nat.pow 2 q.toNat : Nat) : ℚ)
      = (num : ℚ) / den / 2 ^ q := by
  have hpow := zpow_eq_div 2 (by decide) q
  rw [Nat.cast_ofNat] at hpow
  rw [hpow, Nat.cast_mul, Nat.cast_mul]
  simp only [Nat.pow_eq]
  field_simp

/-! ## The binary logarithm -/

/-- Between which powers of two a fraction lies, by the logarithms of its parts. -/
theorem between_powers {num den : Nat} (hnum : 0 < num) (hden : 0 < den) :
    (2 : ℚ) ^ ((num.log2 : Int) - den.log2 - 1) ≤ (num : ℚ) / den ∧
      (num : ℚ) / den < 2 ^ ((num.log2 : Int) - den.log2 + 1) := by
  have hnum' : (2 : ℚ) ^ num.log2 ≤ num ∧ (num : ℚ) < 2 ^ (num.log2 + 1) :=
    ⟨by exact_mod_cast Nat.log2_self_le (Nat.pos_iff_ne_zero.1 hnum),
      by exact_mod_cast Nat.lt_log2_self⟩
  have hden' : (2 : ℚ) ^ den.log2 ≤ den ∧ (den : ℚ) < 2 ^ (den.log2 + 1) :=
    ⟨by exact_mod_cast Nat.log2_self_le (Nat.pos_iff_ne_zero.1 hden),
      by exact_mod_cast Nat.lt_log2_self⟩
  have hpos : (0 : ℚ) < den := by exact_mod_cast hden
  have htwo : (2 : ℚ) ≠ 0 := by norm_num
  constructor
  · rw [sub_sub, zpow_sub₀ htwo, ← Nat.cast_succ, zpow_natCast, zpow_natCast]
    exact div_le_div₀ (by positivity) hnum'.1 hpos hden'.2.le
  · rw [sub_add_eq_add_sub, zpow_sub₀ htwo, ← Nat.cast_succ, zpow_natCast, zpow_natCast]
    exact div_lt_div₀ hnum'.2 hden'.1 (by positivity) (by positivity)

theorem floorLog2_eq {num den : Nat} (hnum : 0 < num) (hden : 0 < den) {e : Int}
    (hlow : (2 : ℚ) ^ e ≤ (num : ℚ) / den) (hhigh : (num : ℚ) / den < 2 ^ (e + 1)) :
    floorLog2 num den = e := by
  obtain ⟨hbelow, habove⟩ := between_powers hnum hden
  unfold floorLog2
  dsimp only
  generalize (num.log2 : Int) - den.log2 = guess at *
  have hle : guess ≤ e + 1 := by
    have hpow := hbelow.trans_lt hhigh
    rw [zpow_lt_zpow_iff_right₀ (by norm_num)] at hpow
    omega
  have hge : e ≤ guess := by
    have hpow := hlow.trans_lt habove
    rw [zpow_lt_zpow_iff_right₀ (by norm_num)] at hpow
    omega
  have hpos : (0 : ℚ) < ((den * Nat.pow 2 guess.toNat : Nat) : ℚ) := by
    exact_mod_cast Nat.mul_pos hden (Nat.pow_pos (by decide))
  have hguess : den * Nat.pow 2 guess.toNat ≤ num * Nat.pow 2 (-guess).toNat ↔
      (2 : ℚ) ^ guess ≤ (num : ℚ) / den := by
    rw [← one_le_div₀ (by positivity : (0 : ℚ) < 2 ^ guess), ← scaled_div, one_le_div₀ hpos,
      Nat.cast_le]
  split
  · next hfits =>
    have hpow := (hguess.1 hfits).trans_lt hhigh
    rw [zpow_lt_zpow_iff_right₀ (by norm_num)] at hpow
    omega
  · next hmisses =>
    have hpow := hlow.trans_lt (not_le.1 (mt hguess.2 hmisses))
    rw [zpow_lt_zpow_iff_right₀ (by norm_num)] at hpow
    omega

theorem floorLog2_lt {num den : Nat} (hnum : 0 < num) (hden : 0 < den) {e : Int}
    (h : (num : ℚ) / den < 2 ^ e) : floorLog2 num den < e := by
  have hpos : (0 : ℚ) < num / den := by positivity
  have hlow := Int.zpow_log_le_self (b := 2) (by decide) hpos
  have hhigh := Int.lt_zpow_succ_log_self (b := 2) (by decide) ((num : ℚ) / den)
  rw [floorLog2_eq hnum hden hlow hhigh]
  exact (Int.lt_zpow_iff_log_lt (b := 2) (by decide) hpos).1 h

/-! ## Rounding to patterns -/

theorem leadingBit_eq : leadingBit = 2 ^ 52 := rfl

theorem infinityBits_eq : infinityBits = 2047 * leadingBit := rfl

/-- A pattern is put together from its mantissa and its exponent. -/
theorem mantissa_spec {bits m : Nat} {q : Int} (h : mantissa bits = (m, q)) :
    bits = (q + 1074).toNat * leadingBit + m ∧ -1074 ≤ q ∧ m < 2 * leadingBit ∧
      (q = -1074 ∨ leadingBit ≤ m) ∧ (bits < infinityBits → q ≤ 971) := by
  rw [infinityBits_eq]
  unfold mantissa at h
  unfold leadingBit at *
  split at h
  · cases h
    omega
  · cases h
    omega

theorem mantissa_pos {bits m : Nat} {q : Int} (hbits : bits ≠ 0) (h : mantissa bits = (m, q)) :
    0 < m := by
  obtain ⟨hsum, -, -, hnormal, -⟩ := mantissa_spec h
  rcases hnormal with rfl | hle
  · refine Nat.pos_of_ne_zero fun hzero => hbits ?_
    rw [hsum, hzero]
    rfl
  · exact lt_of_lt_of_le (by decide) hle

/-- A rational number lies in the interval. -/
structure Interval.Contains (i : Interval) (v : ℚ) : Prop where
  low_le : (i.low : ℚ) ≤ v / 2 ^ i.exponent
  le_high : v / 2 ^ i.exponent ≤ i.high
  inside : i.closed = false →
    (i.low : ℚ) < v / 2 ^ i.exponent ∧ v / 2 ^ i.exponent < i.high

/-- A number lies within a half of an integer, and closer than that if the integer is odd. -/
structure RoundsTo (w : ℚ) (r : Nat) : Prop where
  low : 2 * (r : ℚ) - 1 ≤ 2 * w
  high : 2 * w ≤ 2 * r + 1
  odd : r % 2 = 1 → 2 * (r : ℚ) - 1 < 2 * w ∧ 2 * w < 2 * r + 1

theorem RoundsTo.roundHalfEven_eq {num den r : Nat} (hden : 0 < den)
    (h : RoundsTo ((num : ℚ) / den) r) : roundHalfEven num den = r := by
  have hpos : (0 : ℚ) < den := by exact_mod_cast hden
  obtain ⟨hlow, hhigh, hodd⟩ := h
  rw [mul_div_assoc', le_div_iff₀ hpos] at hlow
  rw [mul_div_assoc', div_le_iff₀ hpos] at hhigh
  rw [mul_div_assoc', lt_div_iff₀ hpos, div_lt_iff₀ hpos] at hodd
  refine Decimal.roundHalfEven_eq ?_ ?_ ?_ hden
  · have hlow' : (2 * (r * den) : ℚ) ≤ 2 * num + den := by linarith
    exact_mod_cast hlow'
  · have hhigh' : (2 * num : ℚ) ≤ 2 * (r * den) + den := by linarith
    exact_mod_cast hhigh'
  · intro hr
    obtain ⟨hlow', hhigh'⟩ := hodd hr
    have hlow'' : (2 * (r * den) : ℚ) < 2 * num + den := by linarith
    have hhigh'' : (2 * num : ℚ) < 2 * (r * den) + den := by linarith
    exact ⟨by exact_mod_cast hlow'', by exact_mod_cast hhigh''⟩

/-- A fraction is rounded to a pattern if its exponent is that of its binade and the mantissa is
what it is rounded to there. -/
theorem nearest_eq_of_scaled {num den r : Nat} {q : Int} (hden : 0 < den)
    (hexponent : max (floorLog2 num den - 52) (-1074) = q)
    (h : RoundsTo ((num : ℚ) / den / 2 ^ q) r)
    (hfinite : (q + 1074).toNat * leadingBit + r ≤ infinityBits) :
    nearest num den = (q + 1074).toNat * leadingBit + r := by
  have hpos : 0 < den * Nat.pow 2 q.toNat := Nat.mul_pos hden (Nat.pow_pos (by decide))
  rw [← scaled_div] at h
  unfold nearest
  rw [hexponent]
  dsimp only
  rw [h.roundHalfEven_eq hpos]
  exact min_eq_left hfinite

/-- A number of the interval in units of the last place. -/
theorem Interval.Contains.bounds {bits m : Nat} {q : Int} {v : ℚ}
    (h : (Interval.ofBits bits).Contains v) (hbits : mantissa bits = (m, q)) (hm : 0 < m) :
    RoundsTo (v / 2 ^ q) m ∧
      (m = leadingBit → q ≠ -1074 → 4 * (m : ℚ) - 1 ≤ 4 * (v / 2 ^ q)) := by
  obtain ⟨hlow, hhigh, hinside⟩ := h
  have hexponent : (Interval.ofBits bits).exponent = q - 2 := by
    unfold ofBits
    rw [hbits]
  have hscale : v / 2 ^ (q - 2) = 4 * (v / 2 ^ q) := by
    rw [zpow_sub₀ (by norm_num)]
    field_simp
    norm_num
  have hhigh_eq : (Interval.ofBits bits).high = 4 * m + 2 := by
    unfold ofBits
    rw [hbits]
  have hclosed : (Interval.ofBits bits).closed = decide (m % 2 = 0) := by
    unfold ofBits
    rw [hbits]
  have hlow_eq : (Interval.ofBits bits).low =
      4 * m - if m = leadingBit ∧ q ≠ -1074 then 1 else 2 := by
    unfold ofBits
    rw [hbits]
    simp
  have hwide : 4 * (m : ℚ) - 2 ≤ (Interval.ofBits bits).low := by
    rw [hlow_eq, Nat.cast_sub (by split <;> omega)]
    push_cast
    split <;> linarith
  rw [hexponent, hscale] at hlow hhigh hinside
  rw [hhigh_eq] at hhigh hinside
  push_cast at hhigh hinside
  refine ⟨⟨by linarith, by linarith, ?_⟩, ?_⟩
  · intro hodd
    obtain ⟨hlow', hhigh'⟩ := hinside (by rw [hclosed, hodd]; rfl)
    exact ⟨by linarith, by linarith⟩
  · intro hleast hq
    rw [hlow_eq, if_pos ⟨hleast, hq⟩, Nat.cast_sub (by omega)] at hlow
    push_cast at hlow
    exact hlow

section Binade

variable {num den : Nat} {q : Int} (hnum : 0 < num) (hden : 0 < den)

include hnum hden

/-- The exponent of a fraction is that of its binade, or the least one. -/
theorem max_floorLog2_eq (hq : -1074 ≤ q) (hbelow : (num : ℚ) / den / 2 ^ q < 2 ^ 53)
    (hbinade : q = -1074 ∨ (2 : ℚ) ^ 52 ≤ (num : ℚ) / den / 2 ^ q) :
    max (floorLog2 num den - 52) (-1074) = q := by
  have hunit : (0 : ℚ) < 2 ^ q := by positivity
  have hpower (k : Nat) : (2 : ℚ) ^ (q + k) = 2 ^ k * 2 ^ q := by
    rw [add_comm, zpow_add₀ (by norm_num), zpow_natCast]
  have hbelow' : (num : ℚ) / den < 2 ^ (q + (53 : Nat)) := by
    rwa [hpower, ← div_lt_iff₀ hunit]
  rcases hbinade with rfl | habove
  · have hlog := floorLog2_lt hnum hden hbelow'
    omega
  · have habove' : (2 : ℚ) ^ (q + (52 : Nat)) ≤ (num : ℚ) / den := by
      rwa [hpower, ← le_div_iff₀ hunit]
    have hlog := floorLog2_eq hnum hden habove' (by rwa [add_assoc])
    omega

/-- A fraction just below a binade, in units of the binade, is rounded to its least mantissa. -/
theorem nearest_eq_of_below (hq : -1074 < q)
    (hquarter : 4 * (leadingBit : ℚ) - 1 ≤ 4 * ((num : ℚ) / den / 2 ^ q))
    (hbelow : (num : ℚ) / den / 2 ^ q < leadingBit)
    (hfinite : (q + 1074).toNat * leadingBit + leadingBit ≤ infinityBits) :
    nearest num den = (q + 1074).toNat * leadingBit + leadingBit := by
  have hhalf : (num : ℚ) / den / 2 ^ (q - 1) = 2 * ((num : ℚ) / den / 2 ^ q) := by
    rw [zpow_sub₀ (by norm_num)]
    field_simp
  have hsum : (q + 1074).toNat * leadingBit + leadingBit
      = (q - 1 + 1074).toNat * leadingBit + 2 * leadingBit := by
    have hnext : (q + 1074).toNat = (q - 1 + 1074).toNat + 1 := by omega
    rw [hnext, Nat.add_mul]
    omega
  have hlead : (leadingBit : ℚ) = 2 ^ 52 := by
    rw [leadingBit_eq]
    norm_num
  rw [hlead] at hquarter hbelow
  rw [hsum] at hfinite ⊢
  refine nearest_eq_of_scaled hden (max_floorLog2_eq hnum hden (by omega) ?_ (.inr ?_)) ?_ hfinite
  · rw [hhalf]
    linarith
  · rw [hhalf]
    linarith
  · rw [hhalf]
    refine ⟨?_, ?_, fun hodd => ?_⟩
    · push_cast
      rw [hlead]
      linarith
    · push_cast
      rw [hlead]
      linarith
    · rw [Nat.mul_mod_right] at hodd
      cases hodd

end Binade

/-- A fraction in the interval of a pattern is rounded to the pattern. -/
theorem nearest_eq {bits num den : Nat} (hbits : bits ≠ 0) (hfinite : bits < infinityBits)
    (hnum : 0 < num) (hden : 0 < den)
    (h : (Interval.ofBits bits).Contains ((num : ℚ) / den)) : nearest num den = bits := by
  obtain ⟨⟨m, q⟩, hmantissa⟩ : ∃ parts, mantissa bits = parts := ⟨_, rfl⟩
  obtain ⟨hsum, hq, hm, hnormal, -⟩ := mantissa_spec hmantissa
  obtain ⟨hrounds, hleast⟩ := h.bounds hmantissa (mantissa_pos hbits hmantissa)
  rw [hsum] at hfinite ⊢
  by_cases hbinade : q = -1074 ∨ (2 : ℚ) ^ 52 ≤ (num : ℚ) / den / 2 ^ q
  · refine nearest_eq_of_scaled hden (max_floorLog2_eq hnum hden hq ?_ hbinade) hrounds hfinite.le
    have hm' : (m : ℚ) + 1 ≤ 2 ^ 53 := by exact_mod_cast hm
    have hhigh := hrounds.high
    linarith
  · -- a number below the least mantissa of a binade belongs to the binade before it
    obtain ⟨hq', hbelow⟩ := not_or.1 hbinade
    rw [not_le] at hbelow
    have hlow := hrounds.low
    obtain rfl : m = leadingBit := by
      refine le_antisymm (Nat.not_lt.1 fun hlt => ?_) (hnormal.resolve_left hq')
      have hlt' : (2 : ℚ) ^ 52 + 1 ≤ m := by exact_mod_cast hlt
      linarith
    refine nearest_eq_of_below hnum hden (by omega) (hleast rfl hq') ?_ hfinite.le
    rw [leadingBit_eq]
    exact_mod_cast hbelow

end SequenceChart.Decimal
