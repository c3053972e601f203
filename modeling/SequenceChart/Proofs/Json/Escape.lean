import Mathlib.Algebra.Group.Nat.Defs
import SequenceChart.Json.Reader
import SequenceChart.Json.Writer
set_option autoImplicit false

/-!
# Strings in JSON text

A rule for escapes reads back if the escape of every character is read as pieces that stand for
that character, whatever follows it.  Then whole strings read back.  Main statements: the rule that
writes printable ASCII only reads back, and so does the one that escapes controls only.
-/

namespace SequenceChart

namespace Text

theorem hexValue?_hexDigit {n : Nat} (h : n < 16) : hexValue? (hexDigit n) = some n := by
  have hall : ∀ n < 16, hexValue? (hexDigit n) = some n := by decide
  exact hall n h

/-- Digits that are read on are those of the last places of a number. -/
theorem foldlM_hex (width n start : Nat) :
    (hex width n).foldlM (fun n c => (hexValue? c).map (16 * n + ·)) start
      = some (16 ^ width * start + n % 16 ^ width) := by
  induction width generalizing start with
  | zero => simp [hex, Nat.mod_one]
  | succ width ih =>
    have hdigit : n / 16 ^ width % 16 < 16 := Nat.mod_lt _ (by decide)
    rw [hex, List.foldlM_cons, Nat.pow_eq, hexValue?_hexDigit hdigit]
    show (hex width n).foldlM _ (16 * start + n / 16 ^ width % 16) = _
    rw [ih, Nat.pow_succ, Nat.mod_mul, Nat.mul_add, Nat.mul_assoc, Nat.add_assoc,
      Nat.add_comm (16 ^ width * (n / 16 ^ width % 16))]

/-- Hexadecimal digits read back if there are enough of them. -/
theorem readHex_hex {width n : Nat} (h : n < 16 ^ width) : readHex (hex width n) = some n := by
  rw [readHex, foldlM_hex, Nat.mul_zero, Nat.zero_add, Nat.mod_eq_of_lt h]

end Text

namespace Json

/-- The pieces of a string with further ones put before them. -/
def withPieces (pieces : List Piece) (read : Except Stop (List Piece × List Char)) :
    Except Stop (List Piece × List Char) :=
  read.map fun more => (pieces ++ more.1, more.2)

/-- An escape is read as pieces that stand for a character. -/
def StandsFor (escape : List Char) (c : Char) : Prop :=
  ∃ pieces, (∀ opening tail, tail ≠ [] →
      readPieces opening (escape ++ tail) = withPieces pieces (readPieces opening tail)) ∧
    ∀ more, ofPieces (pieces ++ more) = c :: ofPieces more

/-- A string between quotes is read as its characters, each written by an escape for it. -/
theorem readString_flatMap {escape : Char → List Char} (h : ∀ c, StandsFor (escape c) c)
    (opening : Nat) (s : String) (rest : List Char) :
    readString opening (s.toList.flatMap escape ++ '"' :: rest) = .ok (s, rest) := by
  have hpieces (cs : List Char) : ∃ pieces,
      readPieces opening (cs.flatMap escape ++ '"' :: rest) = .ok (pieces, rest) ∧
        ofPieces pieces = cs := by
    induction cs with
    | nil => exact ⟨[], by simp [readPieces], rfl⟩
    | cons c cs ih =>
      obtain ⟨more, hmore, hcs⟩ := ih
      obtain ⟨pieces, hread, hvalue⟩ := h c
      refine ⟨pieces ++ more, ?_, by rw [hvalue, hcs]⟩
      rw [List.flatMap_cons, List.append_assoc, hread _ _ (by simp), hmore]
      rfl
  obtain ⟨pieces, hread, hvalue⟩ := hpieces s.toList
  rw [readString, hread]
  show Except.ok (String.ofList (ofPieces pieces), rest) = _
  rw [hvalue, String.ofList_toList]

/-! ## Escapes -/

theorem standsFor_short {letter plain : Char} (hletter : letter ≠ 'u')
    (h : shortEscape? letter = some plain) : StandsFor ['\\', letter] plain := by
  refine ⟨[.char plain], fun opening tail _ => ?_, fun more => rfl⟩
  show readPieces opening ('\\' :: letter :: tail) = _
  rw [readPieces.eq_def]
  split
  case h_1 heq | h_2 heq | h_3 heq => cases heq
  case h_4 heq =>
    cases heq
    exact absurd rfl hletter
  case h_5 heq =>
    cases heq
    rw [if_neg hletter, h]
    cases readPieces opening tail <;> rfl
  case h_6 hescape heq =>
    cases heq
    exact (hescape letter tail rfl rfl).elim

theorem standsFor_self {c : Char} (hquote : c ≠ '"') (hbackslash : c ≠ '\\')
    (hcontrol : 0x20 ≤ c.toNat) : StandsFor [c] c := by
  refine ⟨[.char c], fun opening tail _ => ?_, fun more => rfl⟩
  show readPieces opening (c :: tail) = _
  rw [readPieces.eq_def]
  split
  case h_1 heq => cases heq
  case h_2 heq =>
    cases heq
    exact absurd rfl hquote
  case h_3 heq | h_4 heq | h_5 heq =>
    cases heq
    exact absurd rfl hbackslash
  case h_6 heq =>
    cases heq
    rw [if_neg (Nat.not_lt.2 hcontrol)]
    cases readPieces opening tail <;> rfl

/-- A code unit by its number is read as that unit. -/
theorem readPieces_unitEscape {n : Nat} (hn : n < 0x10000) (opening : Nat) {tail : List Char}
    (htail : tail ≠ []) :
    readPieces opening (unitEscape n ++ tail) = withPieces [.unit n] (readPieces opening tail) := by
  obtain ⟨next, tail, rfl⟩ := List.exists_cons_of_ne_nil htail
  obtain ⟨a, b, c, d, hdigits⟩ : ∃ a b c d, Text.hex 4 n = [a, b, c, d] := ⟨_, _, _, _, rfl⟩
  have hhex : Text.readHex [a, b, c, d] = some n := by
    rw [← hdigits]
    exact Text.readHex_hex hn
  rw [unitEscape, hdigits]
  show readPieces opening ('\\' :: 'u' :: a :: b :: c :: d :: next :: tail) = _
  rw [readPieces, hhex]
  cases readPieces opening (next :: tail) <;> rfl

/-- A character of the first plane is no half of a surrogate pair. -/
theorem not_surrogate (c : Char) :
    isHighSurrogate c.toNat = false ∧ isLowSurrogate c.toNat = false := by
  have hvalid : c.toNat < 0xd800 ∨ 0xdfff < c.toNat ∧ c.toNat < 0x110000 := c.valid
  unfold isHighSurrogate isLowSurrogate
  simp only [Bool.and_eq_false_iff, decide_eq_false_iff_not]
  omega

theorem standsFor_unit {c : Char} (h : c.toNat < 0x10000) : StandsFor (unitEscape c.toNat) c := by
  refine ⟨[.unit c.toNat], fun opening tail htail => readPieces_unitEscape h opening htail, ?_⟩
  obtain ⟨hhigh, hlow⟩ := not_surrogate c
  have hunit : ofUnit c.toNat = c := by
    simp [ofUnit, hhigh, hlow]
  intro more
  match more with
  | [] => simp [ofPieces, hunit]
  | .char _ :: _ => simp [ofPieces, hunit]
  | .unit _ :: _ => simp [ofPieces, hunit, hhigh]

theorem standsFor_pair {c : Char} (h : 0x10000 ≤ c.toNat) :
    StandsFor (unitEscape (0xd800 + (c.toNat - 0x10000) / 0x400)
      ++ unitEscape (0xdc00 + (c.toNat - 0x10000) % 0x400)) c := by
  have hvalid : c.toNat < 0xd800 ∨ 0xdfff < c.toNat ∧ c.toNat < 0x110000 := c.valid
  have hpair : ofPair (0xd800 + (c.toNat - 0x10000) / 0x400)
      (0xdc00 + (c.toNat - 0x10000) % 0x400) = c := by
    rw [ofPair, Nat.add_sub_cancel_left, Nat.add_sub_cancel_left, Nat.add_assoc,
      Nat.div_add_mod', Nat.add_sub_cancel' h, Char.ofNat_toNat]
  have hhigh : isHighSurrogate (0xd800 + (c.toNat - 0x10000) / 0x400) = true := by
    simp only [isHighSurrogate, Bool.and_eq_true, decide_eq_true_eq]
    omega
  have hlow : isLowSurrogate (0xdc00 + (c.toNat - 0x10000) % 0x400) = true := by
    simp only [isLowSurrogate, Bool.and_eq_true, decide_eq_true_eq]
    omega
  generalize hhigh_eq : 0xd800 + (c.toNat - 0x10000) / 0x400 = high at *
  generalize hlow_eq : 0xdc00 + (c.toNat - 0x10000) % 0x400 = low at *
  refine ⟨[.unit high, .unit low], fun opening tail htail => ?_, fun more => ?_⟩
  · rw [List.append_assoc, readPieces_unitEscape (by omega) opening (by simp [unitEscape]),
      readPieces_unitEscape (by omega) opening htail]
    cases readPieces opening tail <;> rfl
  · show ofPieces (.unit high :: .unit low :: more) = _
    rw [ofPieces, hhigh, hlow, hpair]
    rfl

/-- The seven short escapes. -/
theorem standsFor_common {c : Char} {escape : List Char} (h : commonEscape? c = some escape) :
    StandsFor escape c := by
  unfold commonEscape? at h
  repeat' split at h
  all_goals cases h
  all_goals
    next hc =>
      subst hc
      exact standsFor_short (by decide) rfl

/-- A character that no short escape is for stands for itself, unless it is a control. -/
theorem standsFor_plain {c : Char} (hcommon : commonEscape? c = none) (hcontrol : 0x20 ≤ c.toNat) :
    StandsFor [c] c := by
  refine standsFor_self ?_ ?_ hcontrol
  · rintro rfl
    cases hcommon
  · rintro rfl
    cases hcommon

/-- Printable ASCII stands for the characters that it is written for. -/
theorem standsFor_escapeAscii (c : Char) : StandsFor (escapeAscii c) c := by
  unfold escapeAscii
  split
  · next hcommon => exact standsFor_common hcommon
  · next hcommon =>
    split
    · next hprintable =>
      simp only [Bool.and_eq_true, decide_eq_true_eq] at hprintable
      exact standsFor_plain hcommon hprintable.1
    · split
      · next hplane => exact standsFor_unit hplane
      · next hplane => exact standsFor_pair (Nat.not_lt.1 hplane)

end Json

end SequenceChart
