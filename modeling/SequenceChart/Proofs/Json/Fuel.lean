import SequenceChart.Proofs.Json.Legible
set_option autoImplicit false

/-!
# Enough fuel

Reading a value moves on in the text, and each bracket costs two calls.  Main statement: the fuel
that the reader starts with never runs out, whatever the text is, so that it reads and refuses texts
of any depth as with any more fuel.
-/

namespace SequenceChart

namespace Json

/-! ## Reading moves on -/

theorem length_skipSpace_le (cs : List Char) : (skipSpace cs).length ≤ cs.length :=
  (List.dropWhile_sublist isSpace).length_le

/-- Behind a character that is not skipped there is less text. -/
theorem length_lt_of_skipSpace {cs rest : List Char} {c : Char} (h : skipSpace cs = c :: rest) :
    rest.length < cs.length := by
  have hle := length_skipSpace_le cs
  rw [h] at hle
  exact hle

section Tokens

variable {opening : Nat} {rule : DigitRule} {negative : Bool} {start cs rest : List Char} {v : Json}

theorem length_readPieces {pieces : List Piece} (h : readPieces opening cs = .ok (pieces, rest)) :
    rest.length < cs.length := by
  fun_induction readPieces opening cs generalizing pieces with
  | case2 =>
    cases h
    exact Nat.lt_succ_self _
  | case5 a b c d next tail n hn ih =>
    obtain ⟨⟨more, after⟩, hmore, h⟩ := bind_eq_ok.1 h
    cases h
    have hlt := ih hmore
    simp only [List.length_cons] at hlt ⊢
    omega
  | case8 c tail _ _ _ _ ih =>
    obtain ⟨⟨more, after⟩, hmore, h⟩ := bind_eq_ok.1 h
    cases h
    exact Nat.lt_succ_of_lt (Nat.lt_succ_of_lt (ih hmore))
  | case10 c tail _ _ _ _ _ ih =>
    obtain ⟨⟨more, after⟩, hmore, h⟩ := bind_eq_ok.1 h
    cases h
    exact Nat.lt_succ_of_lt (ih hmore)
  -- the text is refused
  | _ => cases h

theorem length_readString {s : String} (h : readString opening cs = .ok (s, rest)) :
    rest.length < cs.length := by
  obtain ⟨⟨pieces, after⟩, hpieces, h⟩ := bind_eq_ok.1 h
  cases h
  exact length_readPieces hpieces

theorem length_readInteger (cs : List Char) :
    (readInteger cs).1.length + (readInteger cs).2.length = cs.length := by
  unfold readInteger
  split
  · exact Nat.add_comm 1 _
  · rw [← List.length_append, List.takeWhile_append_dropWhile]

theorem length_readFraction {fraction : List Char}
    (h : readFraction cs = some (fraction, rest)) : rest.length ≤ cs.length := by
  unfold readFraction at h
  split at h
  · split at h
    · cases h
    · cases h
      exact Nat.le_succ_of_le (List.dropWhile_sublist Char.isDigit).length_le
  · cases h

theorem length_readExponent {e : Int} (h : readExponent cs = some (e, rest)) :
    rest.length ≤ cs.length := by
  have hdigits {negative : Bool} {tail : List Char}
      (h : (if (tail.takeWhile Char.isDigit).isEmpty then none
        else some (Decimal.intOfDigits negative (tail.takeWhile Char.isDigit),
          tail.dropWhile Char.isDigit)) = some (e, rest)) : rest.length ≤ tail.length := by
    split at h
    · cases h
    · cases h
      exact (List.dropWhile_sublist Char.isDigit).length_le
  unfold readExponent at h
  dsimp only at h
  split at h
  · split at h
    · split at h
      · exact Nat.le_succ_of_le (Nat.le_succ_of_le (hdigits h))
      · exact Nat.le_succ_of_le (Nat.le_succ_of_le (hdigits h))
      · exact Nat.le_succ_of_le (hdigits h)
    · cases h
  · cases h

theorem length_readUnsigned (h : readUnsigned rule start negative cs = .ok (v, rest)) :
    rest.length < cs.length := by
  have hlength := length_readInteger cs
  unfold readUnsigned at h
  generalize readInteger cs = parts at h hlength
  obtain ⟨digits, after⟩ := parts
  dsimp only at h hlength
  split at h
  · cases h
  next hne =>
  have hdigits : 0 < digits.length := List.length_pos_iff.2 (by simpa using hne)
  split at h
  · cases h
  split at h
  · split at h
    · cases h
    · cases h
      omega
  · next hfraction hexponent =>
    rw [hfraction] at hexponent
    have hle := length_readExponent hexponent
    cases h
    simp only [Option.elim_none] at hle
    omega
  · next hfraction _ =>
    have hle := length_readFraction hfraction
    cases h
    omega
  · next hfraction hexponent =>
    rw [hfraction] at hexponent
    have hle := length_readExponent hexponent
    have hle' := length_readFraction hfraction
    cases h
    simp only [Option.elim_some] at hle
    omega

theorem length_readNumber (h : readNumber rule cs = .ok (v, rest)) : rest.length < cs.length := by
  unfold readNumber at h
  split at h
  · exact Nat.lt_succ_of_lt (length_readUnsigned h)
  · exact length_readUnsigned h

end Tokens

/-- What is read with so much fuel leaves less text than there was. -/
structure MovesOn (rule : DigitRule) (fuel : Nat) : Prop where
  value : ∀ {cs v rest}, readValue rule fuel cs = .ok (v, rest) → rest.length < cs.length
  items : ∀ {cs items rest}, readItems rule fuel cs = .ok (items, rest) → rest.length < cs.length
  members : ∀ {cs members rest}, readMembers rule fuel cs = .ok (members, rest) →
    rest.length < cs.length

section Progress

variable {rule : DigitRule} {fuel : Nat} (h : MovesOn rule fuel) {cs rest : List Char}

include h

theorem length_readValue {v : Json} (hread : readValue rule (fuel + 1) cs = .ok (v, rest)) :
    rest.length < cs.length := by
  unfold readValue at hread
  split at hread
  case h_1 =>
    obtain ⟨⟨s, after⟩, hstring, hread⟩ := bind_eq_ok.1 hread
    cases hread
    exact Nat.lt_succ_of_lt (length_readString hstring)
  case h_2 tail =>
    split at hread
    · next hempty =>
      cases hread
      exact Nat.lt_succ_of_lt (length_lt_of_skipSpace hempty)
    · obtain ⟨⟨members, after⟩, hmembers, hread⟩ := bind_eq_ok.1 hread
      cases hread
      have hlt := h.members hmembers
      have hle := length_skipSpace_le tail
      rw [List.length_cons]
      omega
  case h_3 tail =>
    split at hread
    · next hempty =>
      cases hread
      exact Nat.lt_succ_of_lt (length_lt_of_skipSpace hempty)
    · obtain ⟨⟨items, after⟩, hitems, hread⟩ := bind_eq_ok.1 hread
      cases hread
      have hlt := h.items hitems
      have hle := length_skipSpace_le tail
      rw [List.length_cons]
      omega
  case h_10 => exact length_readNumber hread
  -- the words for null, the truth values and the doubles that are no numbers
  all_goals
    cases hread
    simp only [List.length_cons]
    omega

theorem length_readItems {items : List Json}
    (hread : readItems rule (fuel + 1) cs = .ok (items, rest)) : rest.length < cs.length := by
  rw [readItems] at hread
  obtain ⟨⟨item, after⟩, hitem, hread⟩ := bind_eq_ok.1 hread
  have hfirst := h.value hitem
  dsimp only at hread
  split at hread
  · next hclose =>
    cases hread
    exact Nat.lt_trans (length_lt_of_skipSpace hclose) hfirst
  · next more hcomma =>
    obtain ⟨⟨others, last⟩, hothers, hread⟩ := bind_eq_ok.1 hread
    cases hread
    have hlt := length_lt_of_skipSpace hcomma
    have hle := length_skipSpace_le more
    have hrest := h.items hothers
    dsimp only
    omega
  · cases hread

theorem length_readMembers {members : List (String × Json)}
    (hread : readMembers rule (fuel + 1) cs = .ok (members, rest)) : rest.length < cs.length := by
  unfold readMembers at hread
  split at hread
  · obtain ⟨⟨name, after⟩, hname, hread⟩ := bind_eq_ok.1 hread
    have hshort := length_readString hname
    dsimp only at hread
    rw [List.length_cons]
    split at hread
    · next tail hcolon =>
      obtain ⟨⟨value, behind⟩, hvalue, hread⟩ := bind_eq_ok.1 hread
      have hlt := length_lt_of_skipSpace hcolon
      have hle := length_skipSpace_le tail
      have hfirst := h.value hvalue
      dsimp only at hread
      split at hread
      · next hclose =>
        cases hread
        have hlast := length_lt_of_skipSpace hclose
        omega
      · next more hcomma =>
        obtain ⟨⟨others, last⟩, hothers, hread⟩ := bind_eq_ok.1 hread
        cases hread
        have hlt' := length_lt_of_skipSpace hcomma
        have hle' := length_skipSpace_le more
        have hrest := h.members hothers
        dsimp only
        omega
      · cases hread
    · cases hread
  · cases hread

end Progress

theorem movesOn (rule : DigitRule) (fuel : Nat) : MovesOn rule fuel := by
  induction fuel with
  | zero => exact ⟨nofun, nofun, nofun⟩
  | succ fuel ih => exact ⟨length_readValue ih, length_readItems ih, length_readMembers ih⟩

/-! ## More fuel -/

theorem bind_congr_ok {ε α β : Type} {x : Except ε α} {f g : α → Except ε β}
    (h : ∀ a, x = .ok a → f a = g a) : x >>= f = x >>= g := by
  cases x with
  | error why => rfl
  | ok a => exact h a rfl

/-- With so much fuel, more of it makes no difference to texts that it is enough for: a value needs
two calls for each character and one more, and what is behind a bracket needs one more than that. -/
structure FuelSuffices (rule : DigitRule) (fuel : Nat) : Prop where
  value : ∀ {cs : List Char} {more : Nat}, 2 * cs.length + 1 ≤ fuel → fuel ≤ more →
    readValue rule more cs = readValue rule fuel cs
  items : ∀ {cs : List Char} {more : Nat}, 2 * cs.length + 2 ≤ fuel → fuel ≤ more →
    readItems rule more cs = readItems rule fuel cs
  members : ∀ {cs : List Char} {more : Nat}, 2 * cs.length + 2 ≤ fuel → fuel ≤ more →
    readMembers rule more cs = readMembers rule fuel cs

section Step

variable {rule : DigitRule} {fuel more : Nat} (h : FuelSuffices rule fuel) (hmore : fuel ≤ more)
  {cs : List Char}

include h hmore

theorem readValue_more_fuel (hcs : 2 * cs.length + 1 ≤ fuel + 1) :
    readValue rule (more + 1) cs = readValue rule (fuel + 1) cs := by
  unfold readValue
  split
  case h_2 tail =>
    have hle := length_skipSpace_le tail
    rw [List.length_cons] at hcs
    split
    · rfl
    · rw [h.members (by omega) hmore]
  case h_3 tail =>
    have hle := length_skipSpace_le tail
    rw [List.length_cons] at hcs
    split
    · rfl
    · rw [h.items (by omega) hmore]
  all_goals rfl

theorem readItems_more_fuel (hcs : 2 * cs.length + 2 ≤ fuel + 1) :
    readItems rule (more + 1) cs = readItems rule (fuel + 1) cs := by
  rw [readItems, readItems, h.value (by omega) hmore]
  refine bind_congr_ok ?_
  rintro ⟨item, rest⟩ hitem
  have hfirst := (movesOn rule fuel).value hitem
  dsimp only
  split
  · rfl
  · next tail hcomma =>
    have hlt := length_lt_of_skipSpace hcomma
    have hle := length_skipSpace_le tail
    rw [h.items (by omega) hmore]
  · rfl

theorem readMembers_more_fuel (hcs : 2 * cs.length + 2 ≤ fuel + 1) :
    readMembers rule (more + 1) cs = readMembers rule (fuel + 1) cs := by
  unfold readMembers
  split
  · next after =>
    rw [List.length_cons] at hcs
    refine bind_congr_ok ?_
    rintro ⟨name, rest⟩ hname
    have hshort := length_readString hname
    dsimp only
    split
    · next tail hcolon =>
      have hlt := length_lt_of_skipSpace hcolon
      have hle := length_skipSpace_le tail
      rw [h.value (by omega) hmore]
      refine bind_congr_ok ?_
      rintro ⟨value, behind⟩ hvalue
      have hfirst := (movesOn rule fuel).value hvalue
      dsimp only
      split
      · rfl
      · next others hcomma =>
        have hlt' := length_lt_of_skipSpace hcomma
        have hle' := length_skipSpace_le others
        rw [h.members (by omega) hmore]
      · rfl
    · rfl
  · rfl

end Step

theorem fuelSuffices (rule : DigitRule) (fuel : Nat) : FuelSuffices rule fuel := by
  induction fuel with
  | zero => exact ⟨fun h => absurd h (by omega), fun h => absurd h (by omega),
      fun h => absurd h (by omega)⟩
  | succ fuel ih =>
    refine ⟨fun hcs hmore => ?_, fun hcs hmore => ?_, fun hcs hmore => ?_⟩
    all_goals obtain ⟨more, rfl⟩ := Nat.exists_eq_add_of_lt hmore
    · exact readValue_more_fuel ih (by omega) hcs
    · exact readItems_more_fuel ih (by omega) hcs
    · exact readMembers_more_fuel ih (by omega) hcs

/-- The fuel for a whole text is enough: with any more, its value is the same, or it is refused for
the same reason at the same place. -/
theorem readValue_skipSpace_of_le {rule : DigitRule} {cs : List Char} {fuel : Nat}
    (h : 2 * cs.length + 1 ≤ fuel) :
    readValue rule fuel (skipSpace cs) = readValue rule (2 * cs.length + 1) (skipSpace cs) := by
  have hle := length_skipSpace_le cs
  exact (fuelSuffices rule (2 * cs.length + 1)).value (by omega) h

/-- Brackets that are not closed are refused behind the last of them. -/
example : ofText .integers ['[', '[', '[', '['] = .error (.syntax_ .expectingValue 1 5 4) := rfl

end Json

end SequenceChart
