import SequenceChart.Json.Reader
import SequenceChart.Json.Writer
import SequenceChart.Proofs.Decimal.Double
import SequenceChart.Proofs.Decimal.Numeral
set_option autoImplicit false

/-!
# Numbers in JSON text

A number is read up to its end, which is told by what may follow a value.  Main statements: the
text of an integer within the limit of digits, and that of every finite double, reads back.
-/

namespace SequenceChart.Json

open Decimal (Numeral natDigits natOfDigits)

/-- What may follow a value: nothing, a comma or a closing bracket. -/
def Closes (rest : List Char) : Prop := ∀ c ∈ rest.head?, c = ',' ∨ c = ']' ∨ c = '}'

/-- The text does not go on with a digit. -/
def NoDigit (rest : List Char) : Prop := ∀ c ∈ rest.head?, c.isDigit = false

theorem noDigit_cons {c : Char} (h : c.isDigit = false) (rest : List Char) :
    NoDigit (c :: rest) := by
  intro c' hc'
  cases hc'
  exact h

theorem Closes.noDigit {rest : List Char} (h : Closes rest) : NoDigit rest := by
  intro c hc
  rcases h c hc with rfl | rfl | rfl <;> rfl

section Digits

variable {cs rest : List Char} (hcs : ∀ c ∈ cs, c.isDigit = true) (hrest : NoDigit rest)

include hcs hrest

theorem takeWhile_digits : (cs ++ rest).takeWhile Char.isDigit = cs := by
  rw [List.takeWhile_append_of_pos hcs]
  cases rest with
  | nil => simp
  | cons c rest => simp [hrest c rfl]

theorem dropWhile_digits : (cs ++ rest).dropWhile Char.isDigit = rest := by
  rw [List.dropWhile_append_of_pos hcs]
  cases rest with
  | nil => rfl
  | cons c rest => simp [hrest c rfl]

theorem readInteger_append (h : cs = ['0'] ∨ ∃ c tail, cs = c :: tail ∧ c ≠ '0') :
    readInteger (cs ++ rest) = (cs, rest) := by
  rcases h with rfl | ⟨c, tail, rfl, hc⟩
  · rfl
  · unfold readInteger
    split
    · next heq =>
      cases heq
      exact absurd rfl hc
    · rw [takeWhile_digits hcs hrest, dropWhile_digits hcs hrest]

theorem readFraction_append (hne : cs ≠ []) :
    readFraction ('.' :: (cs ++ rest)) = some (cs, rest) := by
  simp [readFraction, takeWhile_digits hcs hrest, dropWhile_digits hcs hrest, hne]

end Digits

/-- An exponent reads back. -/
theorem readExponent_append (e : Int) {rest : List Char} (hrest : NoDigit rest) :
    readExponent (Decimal.exponentText e ++ rest) = some (e, rest) := by
  have htake := takeWhile_digits (Decimal.isDigit_exponentDigits e) hrest
  have hdrop := dropWhile_digits (Decimal.isDigit_exponentDigits e) hrest
  have hvalue := Decimal.intOfDigits_exponentDigits e
  by_cases hneg : e < 0 <;>
    simp [readExponent, Decimal.exponentText, hneg, htake, hdrop, Decimal.exponentDigits_ne_nil]
      at hvalue ⊢ <;> exact hvalue

theorem noDigit_exponentText (e : Int) (rest : List Char) :
    NoDigit (Decimal.exponentText e ++ rest) := noDigit_cons (c := 'e') rfl _

theorem readFraction_eq_none {rest : List Char} (h : ∀ c ∈ rest.head?, c ≠ '.') :
    readFraction rest = none := by
  unfold readFraction
  split
  · exact absurd rfl (h '.' rfl)
  · rfl

theorem readExponent_eq_none {rest : List Char} (h : ∀ c ∈ rest.head?, c ≠ 'e' ∧ c ≠ 'E') :
    readExponent rest = none := by
  unfold readExponent
  cases rest with
  | nil => rfl
  | cons c rest => simp [h c rfl]

theorem Closes.readFraction {rest : List Char} (h : Closes rest) : readFraction rest = none :=
  readFraction_eq_none fun c hc => by rcases h c hc with rfl | rfl | rfl <;> decide

theorem Closes.readExponent {rest : List Char} (h : Closes rest) : readExponent rest = none :=
  readExponent_eq_none fun c hc => by rcases h c hc with rfl | rfl | rfl <;> decide

/-! ## Numerals -/

section Numeral

variable (rule : DigitRule) (start : List Char) (negative : Bool) {rest : List Char}

/-- The text of an integer reads back. -/
theorem readUnsigned_natDigits {n : Nat} (hn : (natDigits n).length ≤ Decimal.digitLimit)
    (hrest : Closes rest) :
    readUnsigned rule start negative (natDigits n ++ rest)
      = .ok (int (Decimal.intOfDigits negative (natDigits n)), rest) := by
  have hleading : natDigits n = ['0'] ∨ ∃ c tail, natDigits n = c :: tail ∧ c ≠ '0' := by
    by_cases hzero : n = 0
    · rw [hzero]
      exact .inl Decimal.natDigits_zero
    · exact .inr (Decimal.natDigits_eq_cons hzero)
  have hinteger := readInteger_append (Decimal.isDigit_natDigits n)
    hrest.noDigit hleading
  simp [readUnsigned, hinteger, hrest.readFraction, hrest.readExponent,
    Decimal.natDigits_ne_nil, Nat.not_lt.2 hn]

/-- A numeral reads as the double nearest to its value. -/
theorem readUnsigned_numeral (n : Numeral) (hn : n.whole.length ≤ Decimal.digitLimit)
    (hrest : Closes rest) :
    readUnsigned rule start negative (n.text ++ rest)
      = .ok (float (Decimal.ofDecimal negative n.digits n.power), rest) := by
  have hlimit : ¬ Decimal.digitLimit < n.whole.length := Nat.not_lt.2 hn
  have hwhole : n.whole ≠ [] := by
    rcases n.leading with h | ⟨c, tail, h, -⟩ <;> rw [h] <;> nofun
  rw [Numeral.text, List.append_assoc, List.append_assoc, Numeral.digits, Numeral.power]
  by_cases hfraction : n.fraction = []
  · obtain ⟨e, he⟩ := Option.isSome_iff_exists.1 (n.isReal.resolve_left (not_not.2 hfraction))
    have hinteger := readInteger_append n.isDigit_whole (noDigit_exponentText e rest) n.leading
    have hnone : readFraction (Decimal.exponentText e ++ rest) = none := by
      refine readFraction_eq_none fun c hc => ?_
      cases hc
      decide
    simp [readUnsigned, hfraction, he, hinteger, hwhole, hlimit, hnone,
      readExponent_append e hrest.noDigit]
  · cases he : n.exponent with
    | none =>
      have hinteger := readInteger_append n.isDigit_whole
        (noDigit_cons (c := '.') rfl (n.fraction ++ rest)) n.leading
      simp [readUnsigned, hfraction, hinteger, hwhole, hlimit,
        readFraction_append n.isDigit_fraction hrest.noDigit hfraction, hrest.readExponent]
    | some e =>
      have hinteger := readInteger_append n.isDigit_whole
        (noDigit_cons (c := '.') rfl (n.fraction ++ (Decimal.exponentText e ++ rest))) n.leading
      simp [readUnsigned, hfraction, hinteger, hwhole, hlimit,
        readFraction_append n.isDigit_fraction (noDigit_exponentText e rest) hfraction,
        readExponent_append e hrest.noDigit]

end Numeral

/-! ## Signs -/

/-- Digits behind a sign. -/
def signed (negative : Bool) (body : List Char) : List Char :=
  if negative then '-' :: body else body

theorem intDigits_eq_signed (n : Int) :
    Decimal.intDigits n = signed (decide (n < 0)) (natDigits n.natAbs) := by
  simp [Decimal.intDigits, signed]

theorem natDigits_eq_cons (n : Nat) : ∃ c tail, natDigits n = c :: tail ∧ c.isDigit = true := by
  obtain ⟨c, tail, hdigits⟩ := List.exists_cons_of_ne_nil (Decimal.natDigits_ne_nil n)
  refine ⟨c, tail, hdigits, Decimal.isDigit_natDigits n c ?_⟩
  rw [hdigits]
  exact List.mem_cons_self

/-- A value that starts like a number is read as one. -/
theorem readValue_signed (rule : DigitRule) (fuel : Nat) (negative : Bool) {body : List Char}
    (hbody : ∃ c tail, body = c :: tail ∧ c.isDigit = true) (rest : List Char) :
    readValue rule (fuel + 1) (signed negative body ++ rest)
      = readUnsigned rule (signed negative body ++ rest) negative (body ++ rest) := by
  obtain ⟨c, tail, rfl, hc⟩ := hbody
  cases negative with
  | false =>
    simp only [signed, Bool.false_eq_true, if_false, List.cons_append]
    unfold readValue
    split
    case h_1 heq | h_2 heq | h_3 heq | h_4 heq | h_5 heq | h_6 heq | h_7 heq | h_8 heq
      | h_9 heq =>
      obtain rfl := (List.cons.inj heq).1
      exact absurd hc (by decide)
    case h_10 =>
      unfold readNumber
      split
      · next heq =>
        obtain rfl := (List.cons.inj heq).1
        exact absurd hc (by decide)
      · rfl
  | true =>
    simp only [signed, if_true, List.cons_append]
    unfold readValue
    split
    case h_1 heq | h_2 heq | h_3 heq | h_4 heq | h_5 heq | h_6 heq | h_7 heq | h_8 heq =>
      exact absurd (List.cons.inj heq).1 (by decide)
    case h_9 heq =>
      obtain rfl := (List.cons.inj (List.cons.inj heq).2).1
      exact absurd hc (by decide)
    case h_10 => rfl

section Values

variable (rule : DigitRule) (fuel : Nat) {rest : List Char} (hrest : Closes rest)

include hrest

/-- The text of an integer within the limit of digits reads back. -/
theorem readValue_int {n : Int} (hn : (natDigits n.natAbs).length ≤ Decimal.digitLimit) :
    readValue rule (fuel + 1) (Decimal.intDigits n ++ rest) = .ok (int n, rest) := by
  rw [intDigits_eq_signed, readValue_signed rule fuel _ (natDigits_eq_cons n.natAbs),
    readUnsigned_natDigits rule _ _ hn hrest, Decimal.intOfDigits_natDigits]

/-- The text of a double reads back. -/
theorem readValue_float (x : Float) :
    readValue rule (fuel + 1) (Decimal.write words x ++ rest) = .ok (float x, rest) := by
  unfold Decimal.write
  split
  · next hnan =>
    rw [Decimal.eq_notANumber hnan]
    rfl
  · next hnumber =>
    show readValue rule (fuel + 1) (signed (Decimal.isSigned x) _ ++ rest) = _
    by_cases hinfinite : Decimal.magnitude x = Decimal.infinityBits
    · have hx : Decimal.infinity (Decimal.isSigned x) = x := by
        rw [Decimal.infinity, ← hinfinite, Decimal.ofMagnitude_magnitude]
      rw [if_pos hinfinite]
      cases hsign : Decimal.isSigned x <;> rw [hsign] at hx
      · exact congrArg (fun y => Except.ok (float y, rest)) hx
      · exact congrArg (fun y => Except.ok (float y, rest)) hx
    · obtain ⟨n, htext, hwhole, hvalue⟩ :=
        Decimal.exists_magnitudeText (lt_of_le_of_ne (not_lt.1 hnumber) hinfinite)
      rw [if_neg hinfinite, ← htext, readValue_signed rule fuel _ n.text_eq_cons,
        readUnsigned_numeral rule _ _ n (hwhole.trans (by decide)) hrest, Decimal.ofDecimal, hvalue,
        Decimal.ofMagnitude_magnitude]

end Values

end SequenceChart.Json
