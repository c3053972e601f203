set_option autoImplicit false

/-!
# Tables in order of first entry

A table holds at most one text under a key and lists its keys in the order in which they were first
entered: entering a key again replaces its text and leaves its place.
-/

namespace SequenceChart

namespace Table

/-- Enters a text under a key of an entry list. -/
def put (key value : String) : List (String × String) → List (String × String)
  | [] => [(key, value)]
  | entry :: rest =>
    if entry.1 = key then (key, value) :: rest else entry :: put key value rest

theorem mem_keys_put {key value k : String} {entries : List (String × String)} :
    k ∈ (put key value entries).map Prod.fst ↔ k = key ∨ k ∈ entries.map Prod.fst := by
  induction entries with
  | nil => simp [put]
  | cons entry rest ih =>
    unfold put
    split
    · next h => simp [← h]
    · simp only [List.map_cons, List.mem_cons, ih]
      constructor
      · rintro (h | h | h)
        · exact Or.inr (Or.inl h)
        · exact Or.inl h
        · exact Or.inr (Or.inr h)
      · rintro (h | h | h)
        · exact Or.inr (Or.inl h)
        · exact Or.inl h
        · exact Or.inr (Or.inr h)

theorem nodup_put {key value : String} {entries : List (String × String)}
    (h : (entries.map Prod.fst).Nodup) : ((put key value entries).map Prod.fst).Nodup := by
  induction entries with
  | nil => simp [put]
  | cons entry rest ih =>
    rw [List.map_cons, List.nodup_cons] at h
    unfold put
    split
    · next hk => simpa [← hk] using h
    · next hk =>
      rw [List.map_cons, List.nodup_cons]
      refine ⟨fun hm => ?_, ih h.2⟩
      rcases mem_keys_put.1 hm with he | he
      · exact hk he
      · exact h.1 he

end Table

/-- A table of texts under distinct keys. -/
structure Table where
  entries : List (String × String)
  distinct : (entries.map Prod.fst).Nodup
  deriving DecidableEq, Repr

namespace Table

/-- The table without entries. -/
def empty : Table := ⟨[], .nil⟩

instance : Inhabited Table := ⟨empty⟩

/-- Enters a text under a key. -/
def insert (t : Table) (key value : String) : Table :=
  ⟨put key value t.entries, nodup_put t.distinct⟩

/-- The text under a key. -/
def get? (t : Table) (key : String) : Option String :=
  (t.entries.find? fun entry => entry.1 = key).map Prod.snd

/-- Some text stands under the key. -/
def contains (t : Table) (key : String) : Bool := t.entries.any fun entry => entry.1 = key

/-- The keys in the order of their first entry. -/
def keys (t : Table) : List String := t.entries.map Prod.fst

/-- Enters pairs from left to right. -/
def ofList (pairs : List (String × String)) : Table :=
  pairs.foldl (fun t pair => t.insert pair.1 pair.2) empty

end Table

end SequenceChart
