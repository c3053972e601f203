import Mathlib.Algebra.Group.Nat.Defs
import SequenceChart.Decimal.Numeral
set_option autoImplicit false

/-!
# Rows of decimal digits

Writing a natural number in digits and taking the value of a row of digits are inverse to each
other.  A number other than zero has no leading zero, and the length of its row tells between which
powers of ten it lies.
-/

namespace SequenceChart.Decimal

theorem natOfDigits_eq (cs : List Char) : natOfDigits cs = Nat.ofDigitChars 10 cs 0 := rfl

@[simp] theorem natOfDigits_natDigits (n : Nat) : natOfDigits (natDigits n) = n :=
  Nat.ofDigitChars_ten_toDigits

theorem natOfDigits_append (cs ds : List Char) :
    natOfDigits (cs ++ ds) = 10 ^ ds.length * natOfDigits cs + natOfDigits ds := by
  rw [natOfDigits_eq, natOfDigits_eq, natOfDigits_eq, Nat.ofDigitChars_append,
    Nat.ofDigitChars_eq_ofDigitChars_zero]

@[simp] theorem natOfDigits_zeros (n : Nat) : natOfDigits (List.replicate n '0') = 0 :=
  Nat.ofDigitChars_replicate_zero

@[simp] theorem natOfDigits_zero_cons (cs : List Char) : natOfDigits ('0' :: cs) = natOfDigits cs :=
  rfl

/-- Zeros before a row of digits do not count. -/
theorem natOfDigits_zeros_append (n : Nat) (cs : List Char) :
    natOfDigits (List.replicate n '0' ++ cs) = natOfDigits cs := by
  rw [natOfDigits_append, natOfDigits_zeros, Nat.mul_zero, Nat.zero_add]

/-- Zeros after a row of digits multiply its value by a power of ten. -/
theorem natOfDigits_append_zeros (cs : List Char) (n : Nat) :
    natOfDigits (cs ++ List.replicate n '0') = 10 ^ n * natOfDigits cs := by
  rw [natOfDigits_append, natOfDigits_zeros, List.length_replicate, Nat.add_zero]

theorem natDigits_ne_nil (n : Nat) : natDigits n ≠ [] := Nat.toDigits_ne_nil

theorem isDigit_natDigits (n : Nat) : ∀ c ∈ natDigits n, c.isDigit = true :=
  fun _ hc => Nat.isDigit_of_mem_toDigits (by decide) (by decide) hc

theorem natDigits_zero : natDigits 0 = ['0'] := Nat.toDigits_zero 10

/-- A number other than zero has no leading zero. -/
theorem natDigits_eq_cons {n : Nat} (h : n ≠ 0) : ∃ c rest, natDigits n = c :: rest ∧ c ≠ '0' := by
  induction n using Nat.strongRecOn with
  | ind n ih =>
    rw [natDigits, Nat.toDigits_eq_if (by decide)]
    split
    · next hlt =>
      refine ⟨n.digitChar, [], rfl, ?_⟩
      match n, h, hlt with
      | 1, _, _ | 2, _, _ | 3, _, _ | 4, _, _ | 5, _, _ | 6, _, _ | 7, _, _ | 8, _, _ | 9, _, _ =>
        decide
    · next hge =>
      obtain ⟨c, rest, hrest, hc⟩ := ih (n / 10) (by omega) (by omega)
      exact ⟨c, rest ++ [(n % 10).digitChar], by rw [← natDigits, hrest]; rfl, hc⟩

theorem length_natDigits_pos (n : Nat) : 0 < (natDigits n).length :=
  List.length_pos_iff.2 (natDigits_ne_nil n)

theorem lt_pow_length_natDigits (n : Nat) : n < 10 ^ (natDigits n).length :=
  (Nat.length_toDigits_le_iff (by decide) (length_natDigits_pos n)).1 (Nat.le_refl _)

theorem pow_length_natDigits_le {n : Nat} (h : n ≠ 0) : 10 ^ ((natDigits n).length - 1) ≤ n := by
  by_cases hone : (natDigits n).length = 1
  · rw [hone]
    exact Nat.pos_of_ne_zero h
  · have hpos := length_natDigits_pos n
    refine Nat.not_lt.1 fun hlt => ?_
    have hshort : (natDigits n).length ≤ (natDigits n).length - 1 :=
      (Nat.length_toDigits_le_iff (by decide) (by omega)).2 hlt
    omega

/-- The number that the text of an integer writes, its sign aside. -/
@[simp] theorem intOfDigits_natDigits (n : Int) :
    intOfDigits (decide (n < 0)) (natDigits n.natAbs) = n := by
  unfold intOfDigits
  rw [natOfDigits_natDigits]
  simp only [decide_eq_true_eq]
  split <;> omega

theorem natOfDigits_cons (c : Char) (cs : List Char) :
    natOfDigits (c :: cs) = 10 ^ cs.length * (c.toNat - 48) + natOfDigits cs := by
  have hfirst : natOfDigits [c] = c.toNat - 48 := by simp [natOfDigits]
  rw [← hfirst]
  exact natOfDigits_append [c] cs

/-- A row of digits writes a number that needs no more places than there are digits. -/
theorem natOfDigits_lt {cs : List Char} (h : ∀ c ∈ cs, c.isDigit = true) :
    natOfDigits cs < 10 ^ cs.length := by
  induction cs with
  | nil => exact Nat.one_pos
  | cons c cs ih =>
    obtain ⟨hc, hcs⟩ := List.forall_mem_cons.1 h
    have hnine : c.toNat ≤ 57 := (Char.isDigit_iff_toNat.1 hc).2
    have hhead : 10 ^ cs.length * (c.toNat - 48) ≤ 10 ^ cs.length * 9 :=
      Nat.mul_le_mul_left _ (by omega)
    have htail := ih hcs
    rw [natOfDigits_cons, List.length_cons, Nat.pow_succ]
    omega

/-- A number that is read from a row of digits is written with no more of them. -/
theorem length_natDigits_natOfDigits_le {cs : List Char} (hne : cs ≠ [])
    (h : ∀ c ∈ cs, c.isDigit = true) : (natDigits (natOfDigits cs)).length ≤ cs.length :=
  (Nat.length_toDigits_le_iff (by decide) (List.length_pos_iff.2 hne)).2 (natOfDigits_lt h)

theorem natAbs_intOfDigits (negative : Bool) (cs : List Char) :
    (intOfDigits negative cs).natAbs = natOfDigits cs := by
  unfold intOfDigits
  split
  · rw [Int.natAbs_neg, Int.natAbs_natCast]
  · exact Int.natAbs_natCast _

end SequenceChart.Decimal
