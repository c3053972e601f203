import SequenceChart.Proofs.Decimal.Numeral
import SequenceChart.Json.Writer
set_option autoImplicit false

/-!
# Characters of JSON text

Main statement: if the escapes of all characters are printable ASCII, then so is the text of every
value, whatever its names, its strings and its numbers are.  The rule that writes printable ASCII
only has such escapes, for the controls and for the characters of every plane.
-/

namespace SequenceChart

namespace Text

/-- Every character is printable ASCII. -/
def Plain (cs : List Char) : Prop := ∀ c ∈ cs, 0x20 ≤ c.toNat ∧ c.toNat ≤ 0x7e

instance (cs : List Char) : Decidable (Plain cs) :=
  decidable_of_iff (cs.all fun c => 0x20 ≤ c.toNat && c.toNat ≤ 0x7e) (by simp [Plain])

theorem plain_nil : Plain [] := nofun

theorem plain_cons {c : Char} {cs : List Char} :
    Plain (c :: cs) ↔ (0x20 ≤ c.toNat ∧ c.toNat ≤ 0x7e) ∧ Plain cs := List.forall_mem_cons

theorem plain_append {first second : List Char} :
    Plain (first ++ second) ↔ Plain first ∧ Plain second := List.forall_mem_append

theorem Plain.cons {c : Char} {cs : List Char} (h : Plain cs)
    (hc : 0x20 ≤ c.toNat ∧ c.toNat ≤ 0x7e := by decide) : Plain (c :: cs) :=
  plain_cons.2 ⟨hc, h⟩

theorem Plain.append {first second : List Char} (h : Plain first) (h' : Plain second) :
    Plain (first ++ second) := plain_append.2 ⟨h, h'⟩

theorem plain_flatMap {cs : List Char} {f : Char → List Char} (h : ∀ c ∈ cs, Plain (f c)) :
    Plain (cs.flatMap f) := by
  intro c hc
  obtain ⟨d, hd, hmem⟩ := List.mem_flatMap.1 hc
  exact h d hd c hmem

theorem plain_of_isDigit {cs : List Char} (h : ∀ c ∈ cs, c.isDigit = true) : Plain cs := by
  intro c hc
  have hdigit := h c hc
  simp only [Char.isDigit, Bool.and_eq_true, decide_eq_true_eq, ge_iff_le,
    UInt32.le_iff_toNat_le] at hdigit
  exact ⟨Nat.le_trans (by decide) hdigit.1, Nat.le_trans hdigit.2 (by decide)⟩

theorem plain_hex (width n : Nat) : Plain (hex width n) := by
  have hdigit : ∀ d < 16, 0x20 ≤ (hexDigit d).toNat ∧ (hexDigit d).toNat ≤ 0x7e := by decide
  induction width with
  | zero => exact plain_nil
  | succ width ih => exact ih.cons (hdigit _ (Nat.mod_lt _ (by decide)))

end Text

namespace Decimal

open Text

theorem plain_natDigits (n : Nat) : Plain (natDigits n) :=
  plain_of_isDigit (isDigit_natDigits n)

theorem plain_intDigits (n : Int) : Plain (intDigits n) := by
  unfold intDigits
  split
  · exact (plain_natDigits _).cons
  · exact plain_natDigits _

theorem plain_exponentText (e : Int) : Plain (exponentText e) := by
  have hdigits := plain_of_isDigit (isDigit_exponentDigits e)
  unfold exponentText
  split
  · exact hdigits.cons.cons
  · exact hdigits.cons.cons

theorem Numeral.plain_text (n : Numeral) : Plain n.text := by
  refine (plain_of_isDigit n.isDigit_whole).append (Plain.append ?_ ?_)
  · split
    · exact plain_nil
    · exact (plain_of_isDigit n.isDigit_fraction).cons
  · cases n.exponent with
    | none => exact plain_nil
    | some e => exact plain_exponentText e

/-- A double is written in printable ASCII if the words for it are. -/
theorem plain_write {words : Words} (hnan : Plain words.notANumber.toList)
    (hinfinity : Plain words.infinity.toList) (x : Float) : Plain (write words x) := by
  unfold write
  split
  · exact hnan
  · next hnumber =>
    have hbody : Plain (if magnitude x = infinityBits then words.infinity.toList
        else magnitudeText (magnitude x)) := by
      split
      · exact hinfinity
      · next hfinite =>
        obtain ⟨n, htext, -⟩ := exists_magnitudeText (lt_of_le_of_ne (not_lt.1 hnumber) hfinite)
        rw [← htext]
        exact n.plain_text
    dsimp only
    split
    · exact hbody.cons
    · exact hbody

end Decimal

namespace Json

open Text

/-! ## Escapes -/

theorem plain_unitEscape (n : Nat) : Plain (unitEscape n) := (plain_hex 4 n).cons.cons

theorem plain_of_commonEscape? {c : Char} {escape : List Char}
    (h : commonEscape? c = some escape) : Plain escape := by
  unfold commonEscape? at h
  repeat' split at h
  all_goals
    cases h
    try decide

/-- Every character is escaped in printable ASCII. -/
theorem plain_escapeAscii (c : Char) : Plain (escapeAscii c) := by
  unfold escapeAscii
  split
  · next hcommon => exact plain_of_commonEscape? hcommon
  · split
    · next hprintable =>
      simp only [Bool.and_eq_true, decide_eq_true_eq] at hprintable
      exact plain_nil.cons hprintable
    · split
      · exact plain_unitEscape _
      · exact (plain_unitEscape _).append (plain_unitEscape _)

/-! ## Values -/

variable {escape : Char → List Char}

theorem plain_writeString (hescape : ∀ c, Plain (escape c)) (s : String) :
    Plain (writeString escape s) :=
  ((plain_flatMap fun c _ => hescape c).append (by decide)).cons

mutual

/-- The text of a value is printable ASCII if the escapes are. -/
theorem plain_write (hescape : ∀ c, Plain (escape c)) : ∀ v : Json, Plain (v.write escape)
  | null => show Plain ['n', 'u', 'l', 'l'] by decide
  | bool b => by
    cases b with
    | true => exact show Plain ['t', 'r', 'u', 'e'] by decide
    | false => exact show Plain ['f', 'a', 'l', 's', 'e'] by decide
  | int n => Decimal.plain_intDigits n
  | float x => Decimal.plain_write (by decide) (by decide) x
  | string s => plain_writeString hescape s
  | array [] => plain_nil.cons.cons
  | array (item :: rest) =>
    ((plain_write hescape item).append (plain_writeItems hescape rest)).cons
  | object [] => plain_nil.cons.cons
  | object ((name, value) :: rest) =>
    ((plain_writeString hescape name).append
      ((plain_write hescape value).append (plain_writeMembers hescape rest)).cons).cons

theorem plain_writeItems (hescape : ∀ c, Plain (escape c)) :
    ∀ items : List Json, Plain (writeItems escape items)
  | [] => plain_nil.cons
  | item :: rest => ((plain_write hescape item).append (plain_writeItems hescape rest)).cons

theorem plain_writeMembers (hescape : ∀ c, Plain (escape c)) :
    ∀ members : List (String × Json), Plain (writeMembers escape members)
  | [] => plain_nil.cons
  | (name, value) :: rest =>
    ((plain_writeString hescape name).append
      ((plain_write hescape value).append (plain_writeMembers hescape rest)).cons).cons

end

end Json

end SequenceChart
