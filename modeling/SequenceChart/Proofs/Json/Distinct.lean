import SequenceChart.Json.Value
set_option autoImplicit false

/-!
# Values without repeated names

Settling repeated names changes nothing where no object has any.  Main statement: once they are
settled there is nothing left to settle.
-/

namespace SequenceChart.Json

theorem putMember_append {name : String} {value : Json} {done : List (String × Json)}
    (h : name ∉ done.map Prod.fst) : putMember name value done = done ++ [(name, value)] := by
  induction done with
  | nil => rfl
  | cons member done ih =>
    rw [List.map_cons, List.mem_cons, not_or] at h
    rw [putMember, if_neg (Ne.symm h.1), ih h.2, List.cons_append]

/-- Members with different names are left as they are. -/
theorem mergeMembers_eq {members : List (String × Json)} (h : (members.map Prod.fst).Nodup) :
    mergeMembers members = members := by
  have hfold (done : List (String × Json)) (hall : ((done ++ members).map Prod.fst).Nodup) :
      members.foldl (fun done member => putMember member.1 member.2 done) done
        = done ++ members := by
    clear h
    induction members generalizing done with
    | nil => exact (List.append_nil done).symm
    | cons member members ih =>
      have hnew : member.1 ∉ done.map Prod.fst := by
        rw [List.map_append, List.map_cons] at hall
        intro hmem
        exact (List.nodup_append.1 hall).2.2 _ hmem _ List.mem_cons_self rfl
      have happend : done ++ member :: members = (done ++ [member]) ++ members := by simp
      rw [List.foldl_cons, putMember_append hnew, happend]
      exact ih _ (happend ▸ hall)
  exact hfold [] h

/-- An array is left as it is if its items are. -/
theorem distinct_array {items : List Json} (h : ∀ item ∈ items, item.distinct = item) :
    (array items).distinct = array items := by
  have hitems : distinctItems items = items := by
    induction items with
    | nil => rfl
    | cons item items ih =>
      obtain ⟨hitem, hrest⟩ := List.forall_mem_cons.1 h
      rw [distinctItems, hitem, ih hrest]
  rw [distinct, hitems]

/-- An object is left as it is if its names differ and its values are left. -/
theorem distinct_object {members : List (String × Json)} (hnames : (members.map Prod.fst).Nodup)
    (h : ∀ member ∈ members, member.2.distinct = member.2) :
    (object members).distinct = object members := by
  have hmembers : distinctMembers members = members := by
    clear hnames
    induction members with
    | nil => rfl
    | cons member members ih =>
      obtain ⟨hmember, hrest⟩ := List.forall_mem_cons.1 h
      rw [distinctMembers, hmember, ih hrest]
  rw [distinct, hmembers, mergeMembers_eq hnames]

/-! ## Settled values -/

/-- A member is the one that was put last or an older one. -/
theorem mem_putMember {name : String} {value : Json} {done : List (String × Json)}
    {member : String × Json} (h : member ∈ putMember name value done) :
    member = (name, value) ∨ member ∈ done := by
  induction done with
  | nil => exact Or.inl (List.mem_singleton.1 h)
  | cons first done ih =>
    unfold putMember at h
    split at h
    · rcases List.mem_cons.1 h with rfl | hrest
      · exact Or.inl rfl
      · exact Or.inr (List.mem_cons_of_mem first hrest)
    · rcases List.mem_cons.1 h with rfl | hrest
      · exact Or.inr List.mem_cons_self
      · exact (ih hrest).imp id (List.mem_cons_of_mem first)

theorem nodup_putMember {name : String} {value : Json} {done : List (String × Json)}
    (h : (done.map Prod.fst).Nodup) : ((putMember name value done).map Prod.fst).Nodup := by
  induction done with
  | nil => exact List.nodup_cons.2 ⟨List.not_mem_nil, List.nodup_nil⟩
  | cons first done ih =>
    obtain ⟨hnew, hdone⟩ := List.nodup_cons.1 h
    unfold putMember
    split
    · next hname => exact List.nodup_cons.2 ⟨hname ▸ hnew, hdone⟩
    · next hname =>
      refine List.nodup_cons.2 ⟨fun hmem => ?_, ih hdone⟩
      obtain ⟨member, hmember, heq⟩ := List.mem_map.1 hmem
      rcases mem_putMember hmember with rfl | hold
      · exact hname heq.symm
      · exact hnew (List.mem_map.2 ⟨member, hold, heq⟩)

/-- Settled members have different names, and all of them were there before. -/
theorem mergeMembers_spec (members : List (String × Json)) :
    ((mergeMembers members).map Prod.fst).Nodup ∧
      ∀ member ∈ mergeMembers members, member ∈ members := by
  have hfold (done : List (String × Json)) (hdone : (done.map Prod.fst).Nodup) :
      ((members.foldl (fun done member => putMember member.1 member.2 done) done).map
        Prod.fst).Nodup ∧
      ∀ member ∈ members.foldl (fun done member => putMember member.1 member.2 done) done,
        member ∈ done ∨ member ∈ members := by
    induction members generalizing done with
    | nil => exact ⟨hdone, fun _ hmember => Or.inl hmember⟩
    | cons first members ih =>
      obtain ⟨hnames, hmembers⟩ := ih (putMember first.1 first.2 done) (nodup_putMember hdone)
      refine ⟨hnames, fun member hmember => ?_⟩
      rcases hmembers member hmember with hput | hmore
      · rcases mem_putMember hput with rfl | hold
        · exact Or.inr List.mem_cons_self
        · exact Or.inl hold
      · exact Or.inr (List.mem_cons_of_mem first hmore)
  obtain ⟨hnames, hmembers⟩ := hfold [] List.nodup_nil
  exact ⟨hnames, fun member hmember => (hmembers member hmember).resolve_left List.not_mem_nil⟩

theorem nodup_mergeMembers (members : List (String × Json)) :
    ((mergeMembers members).map Prod.fst).Nodup := (mergeMembers_spec members).1

theorem mem_of_mem_mergeMembers {members : List (String × Json)} {member : String × Json}
    (h : member ∈ mergeMembers members) : member ∈ members := (mergeMembers_spec members).2 member h

mutual

/-- Once repeated names are settled there is nothing left to settle. -/
theorem distinct_distinct : ∀ v : Json, v.distinct.distinct = v.distinct
  | null | bool _ | int _ | float _ | string _ => rfl
  | array items => distinct_array (distinct_of_mem_distinctItems items)
  | object members => distinct_object (nodup_mergeMembers _) fun member hmember =>
      distinct_of_mem_distinctMembers members member (mem_of_mem_mergeMembers hmember)

theorem distinct_of_mem_distinctItems :
    ∀ items, ∀ item ∈ distinctItems items, item.distinct = item
  | [] => nofun
  | item :: items => List.forall_mem_cons.2
      ⟨distinct_distinct item, distinct_of_mem_distinctItems items⟩

theorem distinct_of_mem_distinctMembers :
    ∀ members, ∀ member ∈ distinctMembers members, member.2.distinct = member.2
  | [] => nofun
  | (_, value) :: members => List.forall_mem_cons.2
      ⟨distinct_distinct value, distinct_of_mem_distinctMembers members⟩

end

end SequenceChart.Json
