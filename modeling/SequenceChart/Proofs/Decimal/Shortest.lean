import SequenceChart.Proofs.Decimal.Rounding
set_option autoImplicit false

/-!
# The chosen decimal number

The walk over decimal grids always finds one with a point in the interval, so the decimal number
that it chooses for a pattern lies in the interval of the pattern.
-/

namespace SequenceChart.Decimal

namespace Interval

variable {i : Interval} {k : Int} {d : Nat}

theorem factor_pos : 0 < i.factor k :=
  Nat.mul_pos (Nat.pow_pos (by decide)) (Nat.pow_pos (by decide))

/-- The two factors of a comparison differ by the step of the grid in units of the interval. -/
theorem gridFactor_div_factor :
    (i.gridFactor k : ℚ) / i.factor k = 10 ^ k / 2 ^ i.exponent := by
  have hten := zpow_eq_div 10 (by decide) k
  have htwo := zpow_eq_div 2 (by decide) i.exponent
  rw [Nat.cast_ofNat] at hten htwo
  rw [hten, htwo, gridFactor, factor, Nat.cast_mul, Nat.cast_mul]
  simp only [Nat.pow_eq]
  field_simp

/-- The number of a point of the grid in units of the interval. -/
theorem point_div (d : Nat) :
    ((d * i.gridFactor k : Nat) : ℚ) / i.factor k = d * 10 ^ k / 2 ^ i.exponent := by
  rw [Nat.cast_mul, mul_div_assoc, gridFactor_div_factor, mul_div_assoc]

theorem contains_of_holds (h : i.holds k d = true) : i.Contains (d * 10 ^ k) := by
  have hpos : (0 : ℚ) < i.factor k := by exact_mod_cast factor_pos
  unfold holds at h
  dsimp only at h
  refine ⟨?_, ?_, ?_⟩
  · rw [← point_div, le_div_iff₀ hpos]
    have hlow : i.low * i.factor k ≤ d * i.gridFactor k := by
      split at h <;> simp only [Bool.and_eq_true, decide_eq_true_eq] at h <;> omega
    exact_mod_cast hlow
  · rw [← point_div, div_le_iff₀ hpos]
    have hhigh : d * i.gridFactor k ≤ i.high * i.factor k := by
      split at h <;> simp only [Bool.and_eq_true, decide_eq_true_eq] at h <;> omega
    exact_mod_cast hhigh
  · intro hopen
    rw [hopen] at h
    simp only [Bool.false_eq_true, if_false, Bool.and_eq_true, decide_eq_true_eq] at h
    rw [← point_div, lt_div_iff₀ hpos, div_lt_iff₀ hpos]
    exact_mod_cast h

/-- A chosen point lies in the interval. -/
theorem holds_of_point? (h : i.point? k = some d) : i.holds k d = true := by
  unfold point? at h
  dsimp only at h
  split at h
  · next hbelow habove =>
    split at h
    · cases h
      exact hbelow
    · split at h
      · cases h
        exact habove
      · cases h
        rcases Nat.mod_two_eq_zero_or_one (i.mid * i.factor k / i.gridFactor k) with heven | hodd
        · rw [heven]
          exact hbelow
        · rw [hodd]
          exact habove
  · next hbelow _ =>
    cases h
    exact hbelow
  · next _ habove =>
    cases h
    exact habove
  · cases h

/-- A grid that is finer than the distance to the upper end has a point in the interval. -/
theorem exists_point? (hlow : i.low ≤ i.mid) (hhigh : i.mid + 2 ≤ i.high)
    (hfine : i.gridFactor k < 2 * i.factor k) : ∃ d, i.point? k = some d := by
  have hstep : 0 < i.gridFactor k :=
    Nat.mul_pos (Nat.pow_pos (by decide)) (Nat.pow_pos (by decide))
  have hnext : i.holds k (i.mid * i.factor k / i.gridFactor k + 1) = true := by
    have hbelow := Nat.div_mul_le_self (i.mid * i.factor k) (i.gridFactor k)
    have habove := Nat.lt_div_mul_add (a := i.mid * i.factor k) hstep
    have hlow' := Nat.mul_le_mul_right (i.factor k) hlow
    have hhigh' := Nat.mul_le_mul_right (i.factor k) hhigh
    rw [Nat.add_mul] at hhigh'
    unfold holds
    dsimp only
    rw [Nat.add_mul, Nat.one_mul]
    split <;> simp only [Bool.and_eq_true, decide_eq_true_eq] <;> omega
  unfold point?
  dsimp only
  rw [hnext]
  split <;> first | exact ⟨_, rfl⟩ | skip
  · split
    · exact ⟨_, rfl⟩
    · split <;> exact ⟨_, rfl⟩
  · next hnone => cases hnone

/-- The walk stops at a point of the interval if a grid on its way has one. -/
theorem holds_search {fuel n : Nat} (hn : n < fuel) (hfound : ∃ d, i.point? (k - n) = some d) :
    i.holds (i.search fuel k).2 (i.search fuel k).1 = true := by
  induction fuel generalizing k n with
  | zero => omega
  | succ fuel ih =>
    unfold search
    split
    · next d hd => exact holds_of_point? hd
    · next hnone =>
      cases n with
      | zero =>
        obtain ⟨d, hd⟩ := hfound
        rw [Nat.cast_zero, sub_zero, hnone] at hd
        cases hd
      | succ n =>
        refine ih (Nat.lt_of_succ_lt_succ hn) ?_
        rw [Nat.cast_succ, ← sub_sub, sub_right_comm] at hfound
        exact hfound

end Interval

/-! ## Fine grids -/

/-- Powers of ten below powers of two, by the rational bounds `196 / 59` and `93 / 28` of the binary
logarithm of ten. -/
theorem ten_zpow_lt {c p : Int} (hneg : c < 0 → 93 * c < 28 * p) (hpos : 0 ≤ c → 196 * c < 59 * p) :
    (10 : ℚ) ^ c < 2 ^ p := by
  have htwo : (0 : ℚ) < 2 ^ p := by positivity
  have hpower (n : Nat) : ((2 : ℚ) ^ p) ^ n = 2 ^ (n * p) := by
    rw [← zpow_natCast, ← zpow_mul, mul_comm]
  rcases lt_or_ge c 0 with hc | hc
  · obtain ⟨n, rfl⟩ : ∃ n : Nat, c = -n := ⟨(-c).toNat, by omega⟩
    refine lt_of_pow_lt_pow_left₀ 28 htwo.le ?_
    calc ((10 : ℚ) ^ (-(n : Int))) ^ 28 = ((10 ^ 28) ^ n)⁻¹ := by
          rw [zpow_neg, zpow_natCast, inv_pow, ← pow_mul, ← pow_mul, mul_comm]
      _ ≤ ((2 ^ 93) ^ n)⁻¹ :=
          inv_anti₀ (by positivity) (pow_le_pow_left₀ (by positivity) (by norm_num) n)
      _ = 2 ^ (-((93 * n : Nat) : Int)) := by rw [zpow_neg, zpow_natCast, pow_mul]
      _ < (2 ^ p) ^ 28 := by
          rw [hpower, zpow_lt_zpow_iff_right₀ (by norm_num)]
          have hlt := hneg hc
          push_cast
          omega
  · obtain ⟨n, rfl⟩ := Int.eq_ofNat_of_zero_le hc
    refine lt_of_pow_lt_pow_left₀ 59 htwo.le ?_
    calc ((10 : ℚ) ^ (n : Int)) ^ 59 = (10 ^ 59) ^ n := by
          rw [zpow_natCast, ← pow_mul, ← pow_mul, mul_comm]
      _ ≤ (2 ^ 196) ^ n := pow_le_pow_left₀ (by positivity) (by norm_num) n
      _ = 2 ^ ((196 * n : Nat) : Int) := by rw [zpow_natCast, pow_mul]
      _ < (2 ^ p) ^ 59 := by
          rw [hpower, zpow_lt_zpow_iff_right₀ (by norm_num)]
          have hlt := hpos hc
          push_cast
          omega

theorem stripZeros_value (fuel d : Nat) (k : Int) :
    ((stripZeros fuel d k).1 : ℚ) * 10 ^ (stripZeros fuel d k).2 = d * 10 ^ k := by
  induction fuel generalizing d k with
  | zero => rfl
  | succ fuel ih =>
    unfold stripZeros
    split
    · next hzero =>
      simp only [Bool.and_eq_true, decide_eq_true_eq] at hzero
      have hdiv : d = 10 * (d / 10) := by omega
      rw [ih, zpow_add_one₀ (by norm_num), ← mul_assoc, mul_right_comm, mul_comm _ (10 : ℚ)]
      congr 1
      exact_mod_cast hdiv.symm
    · rfl

variable {bits : Nat}

/-- The last grid of the walk is fine enough. -/
theorem fine_exponentBound (hbits : bits ≠ 0) (hfinite : bits < infinityBits) :
    (Interval.ofBits bits).gridFactor (exponentBound bits - 23)
      < 2 * (Interval.ofBits bits).factor (exponentBound bits - 23) := by
  obtain ⟨⟨m, q⟩, hmantissa⟩ : ∃ parts, mantissa bits = parts := ⟨_, rfl⟩
  obtain ⟨-, hq, hm, -, hq'⟩ := mantissa_spec hmantissa
  have hlog : m.log2 ≤ 52 := by
    have hlt : m.log2 < 53 := (Nat.log2_lt (mantissa_pos hbits hmantissa).ne').2 hm
    omega
  have hbound : exponentBound bits = ((m.log2 : Int) + 1 + q) * 30103 / 100000 + 1 := by
    unfold exponentBound
    rw [hmantissa]
  have hexponent : (Interval.ofBits bits).exponent = q - 2 := by
    unfold Interval.ofBits
    rw [hmantissa]
  have hpower : (10 : ℚ) ^ (exponentBound bits - 23) < 2 ^ (q - 1) := by
    have hq'' := hq' hfinite
    rw [hbound]
    exact ten_zpow_lt (by omega) (by omega)
  have hpos : (0 : ℚ) < (Interval.ofBits bits).factor (exponentBound bits - 23) := by
    exact_mod_cast Interval.factor_pos
  have hstep : ((Interval.ofBits bits).gridFactor (exponentBound bits - 23) : ℚ)
      / (Interval.ofBits bits).factor (exponentBound bits - 23) < 2 := by
    rw [Interval.gridFactor_div_factor, hexponent, div_lt_iff₀ (by positivity), ← zpow_one_add₀
      (by norm_num)]
    rwa [show 1 + (q - 2) = q - 1 by ring]
  rw [div_lt_iff₀ hpos] at hstep
  exact_mod_cast hstep

/-- The chosen decimal number lies in the interval of the pattern. -/
theorem contains_shortest (hbits : bits ≠ 0) (hfinite : bits < infinityBits) :
    (Interval.ofBits bits).Contains ((shortest bits).1 * 10 ^ (shortest bits).2) := by
  unfold shortest
  dsimp only
  rw [stripZeros_value]
  refine Interval.contains_of_holds (Interval.holds_search (n := 23) (by decide) ?_)
  refine Interval.exists_point? ?_ ?_ (fine_exponentBound hbits hfinite)
  · unfold Interval.ofBits
    exact Nat.sub_le _ _
  · unfold Interval.ofBits
    exact le_rfl

end SequenceChart.Decimal
