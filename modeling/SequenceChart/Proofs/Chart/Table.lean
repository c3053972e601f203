import SequenceChart.Chart.Table
set_option autoImplicit false

/-!
# What stands under a key of a table

Entering a text under a key changes what stands there and nothing else; a key is contained exactly
when some text stands under it.  Entering the entries of a table again, in their order, makes the
table again; entering them into another table updates that one.
-/

namespace SequenceChart.Table

theorem find?_put (key value k : String) (entries : List (String × String)) :
    (put key value entries).find? (fun entry => entry.1 = k)
      = if k = key then some (key, value) else entries.find? fun entry => entry.1 = k := by
  induction entries with
  | nil => by_cases h : key = k <;> simp [put, h, eq_comm]
  | cons entry rest ih =>
    unfold put
    by_cases hentry : entry.1 = key
    · by_cases h : k = key
      · simp [hentry, h]
      · have hne : ¬key = k := fun he => h he.symm
        simp [hentry, h, hne]
    · rw [if_neg hentry]
      by_cases h : entry.1 = k
      · have hne : k ≠ key := fun he => hentry (h.trans he)
        simp [h, hne]
      · simp only [List.find?_cons, h, decide_false]
        exact ih

/-- Only the text under the entered key changes. -/
theorem get?_insert (t : Table) (key value k : String) :
    (t.insert key value).get? k = if k = key then some value else t.get? k := by
  simp only [get?, insert, find?_put]
  split <;> rfl

theorem contains_eq_isSome (t : Table) (k : String) : t.contains k = (t.get? k).isSome := by
  rw [get?, contains, Option.isSome_map, List.isSome_find?]

theorem contains_insert (t : Table) (key value k : String) :
    (t.insert key value).contains k = (k = key || t.contains k) := by
  rw [contains_eq_isSome, get?_insert, contains_eq_isSome]
  by_cases h : k = key <;> simp [h]

/-- An entry is what stands under its key. -/
theorem get?_of_mem {t : Table} {entry : String × String} (h : entry ∈ t.entries) :
    t.get? entry.1 = some entry.2 := by
  obtain ⟨entries, hdistinct⟩ := t
  simp only [get?] at *
  induction entries with
  | nil => simp at h
  | cons first rest ih =>
    rw [List.map_cons, List.nodup_cons] at hdistinct
    rcases List.mem_cons.1 h with rfl | hrest
    · simp
    · have hne : first.1 ≠ entry.1 := fun he =>
        hdistinct.1 (he ▸ List.mem_map_of_mem hrest)
      simpa [List.find?_cons, hne] using ih hdistinct.2 hrest

/-- What stands under a key is an entry. -/
theorem mem_of_get? {t : Table} {key value : String} (h : t.get? key = some value) :
    (key, value) ∈ t.entries := by
  obtain ⟨entry, hfind, rfl⟩ := Option.map_eq_some_iff.1 h
  have hkey := List.find?_some hfind
  rw [← of_decide_eq_true hkey]
  exact List.mem_of_find?_eq_some hfind

/-- An entry is the one that was entered last or an older one. -/
theorem mem_put {key value : String} {entries : List (String × String)} {entry : String × String}
    (h : entry ∈ put key value entries) : entry = (key, value) ∨ entry ∈ entries := by
  induction entries with
  | nil => exact Or.inl (List.mem_singleton.1 h)
  | cons first rest ih =>
    unfold put at h
    split at h
    · rcases List.mem_cons.1 h with rfl | hrest
      · exact Or.inl rfl
      · exact Or.inr (List.mem_cons_of_mem first hrest)
    · rcases List.mem_cons.1 h with rfl | hrest
      · exact Or.inr List.mem_cons_self
      · exact (ih hrest).imp id (List.mem_cons_of_mem first)

/-! ## Tables made of their entries -/

/-- A new key is entered at the end. -/
theorem put_of_not_mem {key value : String} {entries : List (String × String)}
    (h : key ∉ entries.map Prod.fst) : put key value entries = entries ++ [(key, value)] := by
  induction entries with
  | nil => rfl
  | cons entry rest ih =>
    rw [List.map_cons, List.mem_cons, not_or] at h
    rw [put, if_neg (Ne.symm h.1), ih h.2, List.cons_append]

theorem entries_foldl_insert {rest : List (String × String)} {t : Table}
    (h : ((t.entries ++ rest).map Prod.fst).Nodup) :
    (rest.foldl (fun t pair => t.insert pair.1 pair.2) t).entries = t.entries ++ rest := by
  induction rest generalizing t with
  | nil => exact (List.append_nil _).symm
  | cons entry rest ih =>
    have hnew : entry.1 ∉ t.entries.map Prod.fst := by
      rw [List.map_append, List.map_cons] at h
      intro hmem
      exact (List.nodup_append.1 h).2.2 _ hmem _ List.mem_cons_self rfl
    have hinsert : (t.insert entry.1 entry.2).entries = t.entries ++ [entry] := put_of_not_mem hnew
    have happend : t.entries ++ entry :: rest = (t.insert entry.1 entry.2).entries ++ rest := by
      rw [hinsert, List.append_assoc, List.singleton_append]
    rw [happend] at h ⊢
    exact ih h

/-- A table of pairs under distinct keys has them as its entries. -/
theorem entries_ofList {pairs : List (String × String)} (h : (pairs.map Prod.fst).Nodup) :
    (ofList pairs).entries = pairs := entries_foldl_insert h

theorem keys_insert (t : Table) (key value : String) :
    (t.insert key value).keys = if key ∈ t.keys then t.keys else t.keys ++ [key] := by
  obtain ⟨entries, hdistinct⟩ := t
  show (put key value entries).map Prod.fst
    = if key ∈ entries.map Prod.fst then entries.map Prod.fst else entries.map Prod.fst ++ [key]
  clear hdistinct
  induction entries with
  | nil => rfl
  | cons entry rest ih =>
    unfold put
    by_cases hentry : entry.1 = key
    · simp [hentry]
    · have hne : ¬key = entry.1 := fun he => hentry he.symm
      simp only [if_neg hentry, List.map_cons, ih, List.mem_cons, hne, false_or]
      split <;> rfl

theorem mem_keys_iff (t : Table) (key : String) : key ∈ t.keys ↔ (t.get? key).isSome := by
  simp [keys, get?]

/-- The entries are the keys with what stands under them. -/
theorem entries_eq (t : Table) :
    t.entries = t.keys.map fun key => (key, (t.get? key).getD "") := by
  rw [keys, List.map_map]
  refine (List.map_id _).symm.trans (List.map_congr_left fun entry hentry => ?_)
  show entry = (entry.1, (t.get? entry.1).getD "")
  rw [get?_of_mem hentry]
  rfl

/-- Tables with the same keys in the same order and the same texts under them are one. -/
theorem eq_of_keys_of_get? {t u : Table} (hkeys : t.keys = u.keys)
    (hget : ∀ key, t.get? key = u.get? key) : t = u := by
  have hentries : t.entries = u.entries := by
    rw [t.entries_eq, u.entries_eq, hkeys]
    exact List.map_congr_left fun key _ => by rw [hget]
  cases t
  cases u
  cases hentries
  rfl

/-- What stands under its key already is entered without effect. -/
theorem insert_eq_self {t : Table} {key value : String} (h : t.get? key = some value) :
    t.insert key value = t := by
  refine eq_of_keys_of_get? ?_ fun k => ?_
  · rw [keys_insert, if_pos ((t.mem_keys_iff key).2 (by rw [h]; rfl))]
  · rw [get?_insert]
    split
    · next hk => rw [hk, h]
    · rfl

/-! ## Tables updated with tables -/

/-- The table with the entries of another one entered in their order: where both have a text under
a key, that of the other one counts, at the old place. -/
def update (t u : Table) : Table := u.entries.foldl (fun t pair => t.insert pair.1 pair.2) t

@[simp] theorem update_empty (t : Table) : t.update empty = t := rfl

theorem get?_foldl_insert {entries : List (String × String)} (h : (entries.map Prod.fst).Nodup)
    (t : Table) (key : String) :
    (entries.foldl (fun t pair => t.insert pair.1 pair.2) t).get? key
      = ((entries.find? fun entry => entry.1 = key).map Prod.snd).or (t.get? key) := by
  induction entries generalizing t with
  | nil => rfl
  | cons entry rest ih =>
    rw [List.map_cons, List.nodup_cons] at h
    rw [List.foldl_cons, ih h.2, get?_insert, List.find?_cons]
    by_cases hkey : entry.1 = key
    · have hnone : rest.find? (fun entry => entry.1 = key) = none := by
        rw [List.find?_eq_none]
        intro other hother he
        exact h.1 (hkey ▸ of_decide_eq_true he ▸ List.mem_map_of_mem hother)
      simp [hkey, hnone]
    · have hne : ¬key = entry.1 := fun he => hkey he.symm
      simp [hkey, hne]

theorem keys_foldl_insert {entries : List (String × String)} (h : (entries.map Prod.fst).Nodup)
    (t : Table) :
    (entries.foldl (fun t pair => t.insert pair.1 pair.2) t).keys
      = t.keys ++ (entries.map Prod.fst).filter (· ∉ t.keys) := by
  induction entries generalizing t with
  | nil => exact (List.append_nil _).symm
  | cons entry rest ih =>
    rw [List.map_cons, List.nodup_cons] at h
    rw [List.foldl_cons, ih h.2, keys_insert, List.map_cons, List.filter_cons]
    by_cases hkey : entry.1 ∈ t.keys
    · simp [hkey]
    · have hrest : (rest.map Prod.fst).filter (· ∉ t.keys ++ [entry.1])
          = (rest.map Prod.fst).filter (· ∉ t.keys) := by
        refine List.filter_congr fun key hmem => ?_
        have hne : key ≠ entry.1 := fun he => h.1 (he ▸ hmem)
        simp [hne]
      simp only [hkey, if_false, hrest, not_false_eq_true, decide_true, if_true,
        List.append_assoc, List.singleton_append]

/-- Under a key stands what the updating table has there, and otherwise what stood there. -/
theorem get?_update (t u : Table) (key : String) :
    (t.update u).get? key = (u.get? key).or (t.get? key) :=
  get?_foldl_insert u.distinct t key

/-- The old keys keep their places, and the new ones follow in their order. -/
theorem keys_update (t u : Table) : (t.update u).keys = t.keys ++ u.keys.filter (· ∉ t.keys) :=
  keys_foldl_insert u.distinct t

/-- One more entry of the updating table is one more entry at the end. -/
theorem update_insert (t u : Table) (key value : String) :
    t.update (u.insert key value) = (t.update u).insert key value := by
  refine eq_of_keys_of_get? ?_ fun k => ?_
  · rw [keys_update, keys_insert, keys_insert, keys_update]
    by_cases hu : key ∈ u.keys <;> by_cases ht : key ∈ t.keys <;> simp [hu, ht]
  · rw [get?_update, get?_insert, get?_insert, get?_update]
    split <;> rfl

end SequenceChart.Table
