import SequenceChart.Proofs.Json.Escape
import SequenceChart.Proofs.Json.Number
set_option autoImplicit false

/-!
# Reading back what was written

Main statement: the text of a JSON value reads as that value, whatever its strings and its doubles
are, as long as its integers are within the limit of digits.  The rule for strings may be any one
whose escapes stand for the characters that they are written for.
-/

namespace SequenceChart.Json

mutual

/-- Every integer in the value is within the limit of digits. -/
def Legible : Json → Prop
  | int n => (Decimal.natDigits n.natAbs).length ≤ Decimal.digitLimit
  | array items => LegibleItems items
  | object members => LegibleMembers members
  | _ => True

/-- Every integer in the items is within the limit of digits. -/
def LegibleItems : List Json → Prop
  | [] => True
  | item :: rest => item.Legible ∧ LegibleItems rest

/-- Every integer in the members is within the limit of digits. -/
def LegibleMembers : List (String × Json) → Prop
  | [] => True
  | (_, value) :: rest => value.Legible ∧ LegibleMembers rest

end

theorem legible_array {items : List Json} (h : ∀ item ∈ items, item.Legible) :
    (array items).Legible := by
  show LegibleItems items
  induction items with
  | nil => trivial
  | cons item items ih =>
    obtain ⟨hitem, hrest⟩ := List.forall_mem_cons.1 h
    exact ⟨hitem, ih hrest⟩

theorem legible_object {members : List (String × Json)} (h : ∀ member ∈ members, member.2.Legible) :
    (object members).Legible := by
  show LegibleMembers members
  induction members with
  | nil => trivial
  | cons member members ih =>
    obtain ⟨hmember, hrest⟩ := List.forall_mem_cons.1 h
    exact ⟨hmember, ih hrest⟩

mutual

/-- The values that have a text are those whose integers are within the limit of digits. -/
theorem isWritable_iff : ∀ {v : Json}, v.isWritable ↔ v.Legible
  | null | bool _ | float _ | string _ => by simp [isWritable, Legible]
  | int n => by simp [isWritable, Legible, Decimal.shownInt?]
  | array items => areWritable_iff items
  | object members => membersWritable_iff members

theorem areWritable_iff : ∀ items : List Json, areWritable items ↔ LegibleItems items
  | [] => by simp [areWritable, LegibleItems]
  | item :: rest => by
    rw [areWritable, LegibleItems, Bool.and_eq_true, isWritable_iff, areWritable_iff rest]

theorem membersWritable_iff :
    ∀ members : List (String × Json), membersWritable members ↔ LegibleMembers members
  | [] => by simp [membersWritable, LegibleMembers]
  | (_, value) :: rest => by
    rw [membersWritable, LegibleMembers, Bool.and_eq_true, isWritable_iff, membersWritable_iff rest]

end

theorem dump_of_legible {v : Json} (h : v.Legible) (escape : Char → List Char) :
    v.dump escape = .ok (v.write escape) :=
  if_pos (isWritable_iff.2 h)

theorem legible_of_dump {v : Json} {escape : Char → List Char} {text : List Char}
    (h : v.dump escape = .ok text) : v.Legible ∧ text = v.write escape := by
  unfold dump at h
  split at h
  · next hv =>
    cases h
    exact ⟨isWritable_iff.1 hv, rfl⟩
  · cases h

/-! ## The start of a value -/

/-- A character that may start a value: no white space, no closing bracket and no byte order mark. -/
def Opens (c : Char) : Prop := isSpace c = false ∧ c ≠ ']' ∧ c ≠ '}' ∧ c ≠ '\ufeff'

instance : DecidablePred Opens := fun _ => inferInstanceAs (Decidable (_ ∧ _ ∧ _ ∧ _))

theorem opens_of_isDigit {c : Char} (h : c.isDigit = true) : Opens c := by
  have hne (d : Char) (hd : d.isDigit = false) : c ≠ d := by
    rintro rfl
    rw [h] at hd
    cases hd
  refine ⟨?_, hne _ rfl, hne _ rfl, hne _ rfl⟩
  simp [isSpace, hne ' ' rfl, hne '\t' rfl, hne '\n' rfl, hne '\r' rfl]

/-- The text starts like a value. -/
def StartsValue (cs : List Char) : Prop := ∃ c tail, cs = c :: tail ∧ Opens c

theorem StartsValue.append {cs : List Char} (h : StartsValue cs) (rest : List Char) :
    StartsValue (cs ++ rest) := by
  obtain ⟨c, tail, rfl, hc⟩ := h
  exact ⟨c, tail ++ rest, rfl, hc⟩

theorem StartsValue.skipSpace {cs : List Char} (h : StartsValue cs) : skipSpace cs = cs := by
  obtain ⟨c, tail, rfl, hspace, -⟩ := h
  simp [Json.skipSpace, hspace]

theorem startsValue_signed (negative : Bool) {body : List Char} (h : StartsValue body) :
    StartsValue (signed negative body) := by
  cases negative with
  | false => exact h
  | true => exact ⟨'-', body, rfl, by decide⟩

theorem startsValue_digits {cs : List Char} (h : ∃ c tail, cs = c :: tail ∧ c.isDigit = true) :
    StartsValue cs := by
  obtain ⟨c, tail, rfl, hc⟩ := h
  exact ⟨c, tail, rfl, opens_of_isDigit hc⟩

theorem startsValue_float (x : Float) : StartsValue (Decimal.write words x) := by
  unfold Decimal.write
  split
  · exact ⟨'N', _, rfl, by decide⟩
  · next hnumber =>
    refine startsValue_signed (Decimal.isSigned x) ?_
    by_cases hinfinite : Decimal.magnitude x = Decimal.infinityBits
    · rw [if_pos hinfinite]
      exact ⟨'I', _, rfl, by decide⟩
    · obtain ⟨n, htext, -⟩ :=
        Decimal.exists_magnitudeText (lt_of_le_of_ne (not_lt.1 hnumber) hinfinite)
      rw [if_neg hinfinite, ← htext]
      exact startsValue_digits n.text_eq_cons

/-- Every written value starts like one. -/
theorem startsValue_write (escape : Char → List Char) (v : Json) :
    StartsValue (v.write escape) := by
  match v with
  | null => exact ⟨'n', _, rfl, by decide⟩
  | bool true => exact ⟨'t', _, rfl, by decide⟩
  | bool false => exact ⟨'f', _, rfl, by decide⟩
  | int n =>
    show StartsValue (Decimal.intDigits n)
    rw [intDigits_eq_signed]
    exact startsValue_signed _ (startsValue_digits (natDigits_eq_cons n.natAbs))
  | float x => exact startsValue_float x
  | string s => exact ⟨'"', _, rfl, by decide⟩
  | array [] => exact ⟨'[', _, rfl, by decide⟩
  | array (item :: items) => exact ⟨'[', _, rfl, by decide⟩
  | object [] => exact ⟨'\x7b', _, rfl, by decide⟩
  | object ((name, value) :: members) => exact ⟨'\x7b', _, rfl, by decide⟩

/-! ## One step of the reader -/

section Reader

variable {rule : DigitRule} {fuel : Nat} {cs more rest : List Char}

theorem readValue_string {s : String} (h : readString (cs.length + 1) cs = .ok (s, rest)) :
    readValue rule (fuel + 1) ('"' :: cs) = .ok (string s, rest) := by
  rw [readValue, List.length_cons, h]
  rfl

theorem readValue_array {items : List Json} (hcs : StartsValue cs)
    (h : readItems rule fuel cs = .ok (items, rest)) :
    readValue rule (fuel + 1) ('[' :: cs) = .ok (array items, rest) := by
  obtain ⟨c, tail, rfl, hc⟩ := hcs
  rw [readValue, StartsValue.skipSpace ⟨c, tail, rfl, hc⟩]
  split
  · next heq =>
    cases heq
    exact absurd rfl hc.2.1
  · rw [h]
    rfl

theorem readValue_object {members : List (String × Json)} (hcs : StartsValue cs)
    (h : readMembers rule fuel cs = .ok (members, rest)) :
    readValue rule (fuel + 1) ('\x7b' :: cs) = .ok (object members, rest) := by
  obtain ⟨c, tail, rfl, hc⟩ := hcs
  rw [readValue, StartsValue.skipSpace ⟨c, tail, rfl, hc⟩]
  split
  · next heq =>
    cases heq
    exact absurd rfl hc.2.2.1
  · rw [h]
    rfl

theorem readItems_last {item : Json} (h : readValue rule fuel cs = .ok (item, ']' :: rest)) :
    readItems rule (fuel + 1) cs = .ok ([item], rest) := by
  rw [readItems, h]
  rfl

theorem readItems_more {item : Json} {items : List Json}
    (h : readValue rule fuel cs = .ok (item, ',' :: more)) (hmore : StartsValue more)
    (hitems : readItems rule fuel more = .ok (items, rest)) :
    readItems rule (fuel + 1) cs = .ok (item :: items, rest) := by
  rw [readItems, h]
  show ((readItems rule fuel (skipSpace more)).bind fun r => .ok (item :: r.1, r.2)) = _
  rw [hmore.skipSpace, hitems]
  rfl

section Member

variable {name : String} {value : Json} {after : List Char}
  (hname : readString (cs.length + 1) cs = .ok (name, ':' :: after)) (hafter : StartsValue after)

include hname hafter

theorem readMembers_last (h : readValue rule fuel after = .ok (value, '\x7d' :: rest)) :
    readMembers rule (fuel + 1) ('"' :: cs) = .ok ([(name, value)], rest) := by
  rw [readMembers, List.length_cons, hname]
  show ((readValue rule fuel (skipSpace after)).bind _) = _
  rw [hafter.skipSpace, h]
  rfl

theorem readMembers_more {members : List (String × Json)}
    (h : readValue rule fuel after = .ok (value, ',' :: more)) (hmore : StartsValue more)
    (hmembers : readMembers rule fuel more = .ok (members, rest)) :
    readMembers rule (fuel + 1) ('"' :: cs) = .ok ((name, value) :: members, rest) := by
  rw [readMembers, List.length_cons, hname]
  show ((readValue rule fuel (skipSpace after)).bind _) = _
  rw [hafter.skipSpace, h]
  show ((readMembers rule fuel (skipSpace more)).bind fun r => .ok ((name, value) :: r.1, r.2)) = _
  rw [hmore.skipSpace, hmembers]
  rfl

end Member

end Reader

/-! ## One level of nesting -/

section Step

variable (escape : Char → List Char) (rule : DigitRule)

/-- Texts of values that are shorter than the fuel read back. -/
def ReadsValues (fuel : Nat) : Prop :=
  ∀ (v : Json) (rest : List Char), v.Legible → (v.write escape).length < fuel → Closes rest →
    readValue rule fuel (v.write escape ++ rest) = .ok (v, rest)

/-- Texts of items that are shorter than the fuel read back. -/
def ReadsItems (fuel : Nat) : Prop :=
  ∀ (item : Json) (items : List Json) (rest : List Char), LegibleItems (item :: items) →
    (item.write escape ++ writeItems escape items).length < fuel →
    readItems rule fuel (item.write escape ++ (writeItems escape items ++ rest))
      = .ok (item :: items, rest)

/-- Texts of members that are shorter than the fuel read back. -/
def ReadsMembers (fuel : Nat) : Prop :=
  ∀ (name : String) (value : Json) (members : List (String × Json)) (rest : List Char),
    LegibleMembers ((name, value) :: members) →
    (writeString escape name ++ ':' :: (value.write escape
      ++ writeMembers escape members)).length < fuel →
    readMembers rule fuel (writeString escape name ++ ':' :: (value.write escape
      ++ (writeMembers escape members ++ rest))) = .ok ((name, value) :: members, rest)

variable {escape rule} {fuel : Nat} (hescape : ∀ c, StandsFor (escape c) c)

include hescape

theorem readString_writeString (s : String) (rest : List Char) :
    ∃ cs, writeString escape s ++ rest = '"' :: cs ∧
      readString (cs.length + 1) cs = .ok (s, rest) := by
  refine ⟨s.toList.flatMap escape ++ '"' :: rest, by simp [writeString], ?_⟩
  exact readString_flatMap hescape _ s rest

theorem readsValues_succ (hitems : ReadsItems escape rule fuel)
    (hmembers : ReadsMembers escape rule fuel) : ReadsValues escape rule (fuel + 1) := by
  intro v rest hv hfuel hrest
  match v with
  | null => rfl
  | bool true => rfl
  | bool false => rfl
  | int n => exact readValue_int rule fuel hrest hv
  | float x => exact readValue_float rule fuel hrest x
  | string s =>
    obtain ⟨cs, htext, hread⟩ := readString_writeString hescape s rest
    show readValue rule (fuel + 1) (writeString escape s ++ rest) = _
    rw [htext, readValue_string hread]
  | array [] => rfl
  | array (item :: items) =>
    rw [write, List.length_cons] at hfuel
    rw [write, List.cons_append, List.append_assoc]
    exact readValue_array ((startsValue_write escape item).append _)
      (hitems item items rest hv (Nat.lt_of_succ_lt_succ hfuel))
  | object [] => rfl
  | object ((name, value) :: members) =>
    rw [write, List.length_cons] at hfuel
    rw [write, List.cons_append, List.append_assoc, List.cons_append, List.append_assoc]
    exact readValue_object ((startsValue_write escape (.string name)).append _)
      (hmembers name value members rest hv (Nat.lt_of_succ_lt_succ hfuel))

omit hescape in
theorem readsItems_succ (hvalues : ReadsValues escape rule fuel)
    (hitems : ReadsItems escape rule fuel) : ReadsItems escape rule (fuel + 1) := by
  intro item items rest hlegible hfuel
  rw [List.length_append] at hfuel
  cases items with
  | nil =>
    rw [writeItems, List.length_singleton] at hfuel
    refine readItems_last (hvalues item _ hlegible.1 (by omega) ?_)
    intro c hc
    cases hc
    exact .inr (.inl rfl)
  | cons next items =>
    rw [writeItems, List.length_cons] at hfuel
    rw [writeItems, List.cons_append, List.append_assoc]
    refine readItems_more (hvalues item _ hlegible.1 (by omega) ?_)
      ((startsValue_write escape next).append _) (hitems next items rest hlegible.2 (by omega))
    intro c hc
    cases hc
    exact .inl rfl

theorem readsMembers_succ (hvalues : ReadsValues escape rule fuel)
    (hmembers : ReadsMembers escape rule fuel) : ReadsMembers escape rule (fuel + 1) := by
  intro name value members rest hlegible hfuel
  rw [List.length_append, List.length_cons, List.length_append] at hfuel
  cases members with
  | nil =>
    rw [writeMembers, List.length_singleton] at hfuel
    obtain ⟨cs, htext, hname⟩ := readString_writeString hescape name
      (':' :: (value.write escape ++ (writeMembers escape [] ++ rest)))
    rw [htext]
    refine readMembers_last hname ((startsValue_write escape value).append _)
      (hvalues value _ hlegible.1 (by omega) ?_)
    intro c hc
    cases hc
    exact .inr (.inr rfl)
  | cons next members =>
    obtain ⟨name₂, value₂⟩ := next
    rw [writeMembers, List.length_cons] at hfuel
    rw [writeMembers, List.cons_append, List.append_assoc, List.cons_append, List.append_assoc]
    obtain ⟨cs, htext, hname⟩ := readString_writeString hescape name
      (':' :: (value.write escape ++ ',' :: (writeString escape name₂ ++
        ':' :: (value₂.write escape ++ (writeMembers escape members ++ rest)))))
    rw [htext]
    refine readMembers_more hname ((startsValue_write escape value).append _)
      (hvalues value _ hlegible.1 (by omega) ?_)
      ((startsValue_write escape (.string name₂)).append _)
      (hmembers name₂ value₂ members rest hlegible.2 (by omega))
    intro c hc
    cases hc
    exact .inl rfl

end Step

variable {escape : Char → List Char} (hescape : ∀ c, StandsFor (escape c) c) (rule : DigitRule)

include hescape

theorem reads (fuel : Nat) : ReadsValues escape rule fuel ∧ ReadsItems escape rule fuel ∧
    ReadsMembers escape rule fuel := by
  induction fuel with
  | zero =>
    refine ⟨?_, ?_, ?_⟩
    · intro _ _ _ hfuel
      exact absurd hfuel (Nat.not_lt_zero _)
    · intro _ _ _ _ hfuel
      exact absurd hfuel (Nat.not_lt_zero _)
    · intro _ _ _ _ _ hfuel
      exact absurd hfuel (Nat.not_lt_zero _)
  | succ fuel ih =>
    obtain ⟨hvalues, hitems, hmembers⟩ := ih
    exact ⟨readsValues_succ hescape hitems hmembers, readsItems_succ hvalues hitems,
      readsMembers_succ hescape hvalues hmembers⟩

/-- The text of a value reads as the value. -/
theorem ofText_write {v : Json} (hv : v.Legible) : ofText rule (v.write escape) = .ok v := by
  have hread := (reads hescape rule (2 * (v.write escape).length + 1)).1 v [] hv (by omega) nofun
  rw [List.append_nil] at hread
  obtain ⟨c, tail, htext, hc⟩ := startsValue_write escape v
  have hskip : skipSpace (v.write escape) = v.write escape := (startsValue_write escape v).skipSpace
  have hwhole : readText rule (v.write escape) = .ok v := by
    unfold readText
    split
    · next heq =>
      rw [htext] at heq
      cases heq
      exact absurd rfl hc.2.2.2
    · rw [hskip, hread]
      rfl
  rw [ofText, hwhole]

end SequenceChart.Json
