import SequenceChart.Proofs.Json.Distinct
import SequenceChart.Proofs.Json.RoundTrip
set_option autoImplicit false

/-!
# Legible values

An integer is read only within the limit of digits, and a number that was read from digits has no
more of them.  Main statements: every value that is read is legible, and it stays so when repeated
names in it are settled.
-/

namespace SequenceChart

namespace Json

/-! ## Parts of a legible value -/

theorem mem_of_legibleItems {items : List Json} (h : LegibleItems items) :
    ∀ item ∈ items, item.Legible := by
  induction items with
  | nil => nofun
  | cons item items ih => exact List.forall_mem_cons.2 ⟨h.1, ih h.2⟩

theorem mem_of_legibleMembers {members : List (String × Json)} (h : LegibleMembers members) :
    ∀ member ∈ members, member.2.Legible := by
  induction members with
  | nil => nofun
  | cons member members ih => exact List.forall_mem_cons.2 ⟨h.1, ih h.2⟩

mutual

/-- A legible value stays legible when repeated names in it are settled. -/
theorem Legible.distinct : ∀ {v : Json}, v.Legible → v.distinct.Legible
  | null, _ | bool _, _ | float _, _ | string _, _ => trivial
  | int _, h => h
  | array items, h => legibleItems_distinctItems items h
  | object members, h => by
    refine legible_object fun member hmember => ?_
    have hall := legibleMembers_distinctMembers members h
    exact mem_of_legibleMembers hall member (mem_of_mem_mergeMembers hmember)

theorem legibleItems_distinctItems :
    ∀ items, LegibleItems items → LegibleItems (distinctItems items)
  | [], _ => trivial
  | _ :: items, h => ⟨h.1.distinct, legibleItems_distinctItems items h.2⟩

theorem legibleMembers_distinctMembers :
    ∀ members, LegibleMembers members → LegibleMembers (distinctMembers members)
  | [], _ => trivial
  | _ :: members, h => ⟨h.1.distinct, legibleMembers_distinctMembers members h.2⟩

end

/-! ## Reading -/

theorem bind_eq_ok {ε α β : Type} {x : Except ε α} {f : α → Except ε β} {b : β} :
    (x >>= f) = .ok b ↔ ∃ a, x = .ok a ∧ f a = .ok b := by
  cases x <;> simp [Bind.bind, Except.bind]

theorem isDigit_readInteger (cs : List Char) : ∀ c ∈ (readInteger cs).1, c.isDigit = true := by
  unfold readInteger
  split
  · exact List.forall_mem_singleton.2 rfl
  · exact List.all_eq_true.1 List.all_takeWhile

section Number

variable {rule : DigitRule} {start cs rest : List Char} {negative : Bool} {v : Json}

theorem legible_of_readUnsigned (h : readUnsigned rule start negative cs = .ok (v, rest)) :
    v.Legible := by
  have hdigits := isDigit_readInteger cs
  unfold readUnsigned at h
  generalize readInteger cs = parts at h hdigits
  dsimp only at h
  split at h
  · cases h
  next hne =>
  split at h
  · cases h
  split at h
  · split at h
    · cases h
    next hlimit =>
    cases h
    have hread := Decimal.length_natDigits_natOfDigits_le (by simpa using hne) hdigits
    rw [← Decimal.natAbs_intOfDigits negative] at hread
    exact hread.trans (Nat.not_lt.1 hlimit)
  -- a number with a fraction or an exponent is a double
  all_goals
    cases h
    trivial

theorem legible_of_readNumber (h : readNumber rule cs = .ok (v, rest)) : v.Legible := by
  unfold readNumber at h
  split at h
  · exact legible_of_readUnsigned h
  · exact legible_of_readUnsigned h

end Number

/-- What is read with so much fuel is legible. -/
structure ReadsLegible (rule : DigitRule) (fuel : Nat) : Prop where
  value : ∀ cs v rest, readValue rule fuel cs = .ok (v, rest) → v.Legible
  items : ∀ cs items rest, readItems rule fuel cs = .ok (items, rest) → LegibleItems items
  members : ∀ cs members rest, readMembers rule fuel cs = .ok (members, rest) →
    LegibleMembers members

section Step

variable {rule : DigitRule} {fuel : Nat} (h : ReadsLegible rule fuel) {cs rest : List Char}

include h

theorem legible_of_readValue {v : Json} (hread : readValue rule (fuel + 1) cs = .ok (v, rest)) :
    v.Legible := by
  unfold readValue at hread
  split at hread
  case h_1 =>
    obtain ⟨_, -, hv⟩ := bind_eq_ok.1 hread
    cases hv
    trivial
  case h_2 =>
    split at hread
    · cases hread
      trivial
    · obtain ⟨_, hmembers, hv⟩ := bind_eq_ok.1 hread
      cases hv
      exact h.members _ _ _ hmembers
  case h_3 =>
    split at hread
    · cases hread
      trivial
    · obtain ⟨_, hitems, hv⟩ := bind_eq_ok.1 hread
      cases hv
      exact h.items _ _ _ hitems
  case h_10 => exact legible_of_readNumber hread
  -- the words for null, the truth values and the doubles that are no numbers
  all_goals
    cases hread
    trivial

theorem legibleItems_of_readItems {items : List Json}
    (hread : readItems rule (fuel + 1) cs = .ok (items, rest)) : LegibleItems items := by
  rw [readItems] at hread
  obtain ⟨⟨item, after⟩, hitem, hread⟩ := bind_eq_ok.1 hread
  have hfirst := h.value _ _ _ hitem
  dsimp only at hread
  split at hread
  · cases hread
    exact ⟨hfirst, trivial⟩
  · obtain ⟨_, hmore, hall⟩ := bind_eq_ok.1 hread
    cases hall
    exact ⟨hfirst, h.items _ _ _ hmore⟩
  · cases hread

theorem legibleMembers_of_readMembers {members : List (String × Json)}
    (hread : readMembers rule (fuel + 1) cs = .ok (members, rest)) : LegibleMembers members := by
  unfold readMembers at hread
  split at hread
  · obtain ⟨⟨name, after⟩, -, hread⟩ := bind_eq_ok.1 hread
    dsimp only at hread
    split at hread
    · obtain ⟨⟨value, after⟩, hvalue, hread⟩ := bind_eq_ok.1 hread
      have hfirst := h.value _ _ _ hvalue
      dsimp only at hread
      split at hread
      · cases hread
        exact ⟨hfirst, trivial⟩
      · obtain ⟨_, hmore, hall⟩ := bind_eq_ok.1 hread
        cases hall
        exact ⟨hfirst, h.members _ _ _ hmore⟩
      · cases hread
    · cases hread
  · cases hread

end Step

theorem readsLegible (rule : DigitRule) (fuel : Nat) : ReadsLegible rule fuel := by
  induction fuel with
  | zero => exact ⟨nofun, nofun, nofun⟩
  | succ fuel ih =>
    exact ⟨fun _ _ _ => legible_of_readValue ih, fun _ _ _ => legibleItems_of_readItems ih,
      fun _ _ _ => legibleMembers_of_readMembers ih⟩

/-- The value of a text is legible. -/
theorem legible_of_ofText {rule : DigitRule} {cs : List Char} {v : Json}
    (h : ofText rule cs = .ok v) : v.Legible := by
  unfold ofText at h
  split at h
  · next hread =>
    cases h
    unfold readText at hread
    split at hread
    · cases hread
    · obtain ⟨_, hvalue, hread⟩ := bind_eq_ok.1 hread
      dsimp only at hread
      split at hread
      · cases hread
        exact (readsLegible rule _).value _ _ _ hvalue
      · cases hread
  · cases h

end Json

end SequenceChart
