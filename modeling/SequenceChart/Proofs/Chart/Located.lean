import Mathlib.Data.List.Basic
import SequenceChart.Chart.Audit
set_option autoImplicit false

/-!
# Where names are written

A path leads from a row of statements to a written name: places in rows, and at a signal 0 for its
source or 1 for its target.  Main statement: the ends of the signals of statements, one after the
other, are the names at the paths in lexicographic order.  So going through a tree with its signals
in order is going through it in document order, and nothing is left out.
-/

namespace SequenceChart

/-- In a row the first step of a path is a place of the row. -/
def RowNames {β : Type} (names : β → List Nat → String → Prop) (row : List β) :
    List Nat → String → Prop
  | [], _ => False
  | i :: path, name => ∃ member, row[i]? = some member ∧ names member path name

/-- At a path below a statement a name is written. -/
inductive Statement.Names : Statement → List Nat → String → Prop
  | source (s : Signal) : (Statement.signal s).Names [0] s.source
  | target (s : Signal) : (Statement.signal s).Names [1] s.target
  | block {b : Block} {i : Nat} {inner : Statement} {path : List Nat} {name : String}
    (at_ : b.body[i]? = some inner) (below : inner.Names path name) :
    (Statement.block b).Names (i :: path) name
  | group {branches : List Block} {i j : Nat} {b : Block} {inner : Statement} {path : List Nat}
    {name : String} (branch : branches[i]? = some b) (at_ : b.body[j]? = some inner)
    (below : inner.Names path name) : (Statement.group branches).Names (i :: j :: path) name

/-- At a path below a block a name is written. -/
def Block.Names (b : Block) : List Nat → String → Prop := RowNames Statement.Names b.body

theorem Statement.names_signal_iff {s : Signal} {path : List Nat} {name : String} :
    (Statement.signal s).Names path name ↔
      path = [0] ∧ name = s.source ∨ path = [1] ∧ name = s.target := by
  constructor
  · intro h
    cases h with
    | source => exact Or.inl ⟨rfl, rfl⟩
    | target => exact Or.inr ⟨rfl, rfl⟩
  · rintro (⟨rfl, rfl⟩ | ⟨rfl, rfl⟩)
    · exact .source s
    · exact .target s

theorem Statement.names_block_iff {b : Block} {path : List Nat} {name : String} :
    (Statement.block b).Names path name ↔ b.Names path name := by
  constructor
  · intro h
    cases h with
    | block at_ below => exact ⟨_, at_, below⟩
  · intro h
    cases path with
    | nil => exact h.elim
    | cons i path =>
      obtain ⟨inner, at_, below⟩ := h
      exact .block at_ below

theorem Statement.names_group_iff {branches : List Block} {path : List Nat} {name : String} :
    (Statement.group branches).Names path name ↔ RowNames Block.Names branches path name := by
  constructor
  · intro h
    cases h with
    | group branch at_ below => exact ⟨_, branch, _, at_, below⟩
  · intro h
    cases path with
    | nil => exact h.elim
    | cons i path =>
      obtain ⟨b, branch, h⟩ := h
      cases path with
      | nil => exact h.elim
      | cons j path =>
        obtain ⟨inner, at_, below⟩ := h
        exact .group branch at_ below

/-! ## Lists of names with their paths -/

/-- The names are those at the paths, each with its path and in the order of the paths. -/
structure Lists (located : List (List Nat × String)) (names : List String)
    (at_ : List Nat → String → Prop) : Prop where
  names : located.map Prod.snd = names
  ordered : located.Pairwise fun a b => a.1 < b.1
  mem_iff : ∀ path name, (path, name) ∈ located ↔ at_ path name

/-- The names that the ends of signals write. -/
def writtenEnds (signals : List Signal) : List String :=
  signals.flatMap fun s => [s.source, s.target]

theorem writtenEnds_append (signals more : List Signal) :
    writtenEnds (signals ++ more) = writtenEnds signals ++ writtenEnds more :=
  List.flatMap_append

namespace Lists

theorem congr {located : List (List Nat × String)} {names : List String}
    {at_ at' : List Nat → String → Prop} (h : Lists located names at_)
    (hiff : ∀ path name, at' path name ↔ at_ path name) : Lists located names at' :=
  ⟨h.names, h.ordered, fun path name => (h.mem_iff path name).trans (hiff path name).symm⟩

/-- The two ends of a signal, its source first. -/
theorem signal (s : Signal) :
    Lists [([0], s.source), ([1], s.target)] [s.source, s.target] (Statement.signal s).Names where
  names := rfl
  ordered := by
    rw [List.pairwise_pair]
    exact List.cons_lt_cons_iff.2 (Or.inl Nat.zero_lt_one)
  mem_iff path name := by
    rw [Statement.names_signal_iff]
    simp

section Rows

variable {β : Type} {at_ : β → List Nat → String → Prop}

/-- A place in a row is one further on behind another member. -/
def behind : List Nat × String → List Nat × String
  | (i :: path, name) => ((i + 1) :: path, name)
  | ([], name) => ([], name)

theorem mem_map_behind_iff {located : List (List Nat × String)} {row : List β}
    (h : ∀ path name, (path, name) ∈ located ↔ RowNames at_ row path name) {path : List Nat}
    {name : String} : (path, name) ∈ located.map behind ↔
      ∃ i rest, path = (i + 1) :: rest ∧ RowNames at_ row (i :: rest) name := by
  rw [List.mem_map]
  constructor
  · rintro ⟨⟨old, name'⟩, hmem, heq⟩
    have hrow := (h old name').1 hmem
    cases old with
    | nil => exact hrow.elim
    | cons i rest =>
      cases heq
      exact ⟨i, rest, rfl, hrow⟩
  · rintro ⟨i, rest, rfl, hrow⟩
    exact ⟨(i :: rest, name), (h _ _).2 hrow, rfl⟩

/-- A member in front of a row: its paths come before those of the row. -/
theorem cons {member : β} {row : List β} {first others : List (List Nat × String)}
    {names more : List String} (hfirst : Lists first names (at_ member))
    (hothers : Lists others more (RowNames at_ row)) :
    Lists (first.map (fun e => (0 :: e.1, e.2)) ++ others.map behind) (names ++ more)
      (RowNames at_ (member :: row)) where
  names := by
    rw [List.map_append, List.map_map, List.map_map, ← hfirst.names, ← hothers.names]
    congr 1
    refine List.map_congr_left ?_
    rintro ⟨path, name⟩ -
    cases path <;> rfl
  ordered := by
    rw [List.pairwise_append, List.pairwise_map, List.pairwise_map]
    refine ⟨?_, ?_, ?_⟩
    · exact hfirst.ordered.imp fun hlt => List.cons_lt_cons_iff.2 (Or.inr ⟨rfl, hlt⟩)
    · refine hothers.ordered.imp_of_mem ?_
      rintro ⟨p, n⟩ ⟨q, m⟩ hp hq hlt
      have hp := (hothers.mem_iff p n).1 hp
      have hq := (hothers.mem_iff q m).1 hq
      cases p with
      | nil => exact hp.elim
      | cons i p =>
        cases q with
        | nil => exact hq.elim
        | cons j q =>
          rcases List.cons_lt_cons_iff.1 hlt with hij | ⟨rfl, hpq⟩
          · exact List.cons_lt_cons_iff.2 (Or.inl (Nat.succ_lt_succ hij))
          · exact List.cons_lt_cons_iff.2 (Or.inr ⟨rfl, hpq⟩)
    · intro a ha b hb
      obtain ⟨e, -, rfl⟩ := List.mem_map.1 ha
      obtain ⟨i, rest, hpath, -⟩ := (mem_map_behind_iff hothers.mem_iff).1 hb
      rw [hpath]
      exact List.cons_lt_cons_iff.2 (Or.inl (Nat.succ_pos i))
  mem_iff path name := by
    rw [List.mem_append, mem_map_behind_iff hothers.mem_iff, List.mem_map]
    constructor
    · rintro (⟨⟨p, n⟩, hmem, heq⟩ | ⟨i, rest, rfl, hrow⟩)
      · cases heq
        exact ⟨member, rfl, (hfirst.mem_iff p n).1 hmem⟩
      · exact hrow
    · intro h
      match path, h with
      | 0 :: path, ⟨found, hfound, hat⟩ =>
        cases hfound
        exact Or.inl ⟨(path, name), (hfirst.mem_iff path name).2 hat, rfl⟩
      | (i + 1) :: path, h => exact Or.inr ⟨i, path, rfl, h⟩

/-- The names of a row are those of its members, one after the other. -/
theorem exists_row {ends : β → List String} {row : List β}
    (h : ∀ member ∈ row, ∃ located, Lists located (ends member) (at_ member)) :
    ∃ located, Lists located (row.flatMap ends) (RowNames at_ row) := by
  induction row with
  | nil => exact ⟨[], rfl, .nil, fun path name => by cases path <;> simp [RowNames]⟩
  | cons member row ih =>
    obtain ⟨hmember, hrow⟩ := List.forall_mem_cons.1 h
    obtain ⟨first, hfirst⟩ := hmember
    obtain ⟨others, hothers⟩ := ih hrow
    exact ⟨_, hfirst.cons hothers⟩

end Rows

end Lists

/-! ## The signals of a tree -/

theorem writtenEnds_allSignals (statements : List Statement) :
    writtenEnds (Statement.allSignals statements)
      = statements.flatMap fun s => writtenEnds s.signals := by
  induction statements with
  | nil => rfl
  | cons s rest ih => rw [Statement.allSignals, writtenEnds_append, ih, List.flatMap_cons]

theorem writtenEnds_branches (branches : List Block) :
    writtenEnds (Block.allSignals branches) = branches.flatMap fun b => writtenEnds b.signals := by
  induction branches with
  | nil => rfl
  | cons b rest ih => rw [Block.allSignals, writtenEnds_append, ih, List.flatMap_cons]

mutual

/-- The ends of the signals of a statement are the names below it in the order of their paths. -/
theorem Statement.exists_lists :
    (s : Statement) → ∃ located, Lists located (writtenEnds s.signals) s.Names
  | .signal s => ⟨_, Lists.signal s⟩
  | .block b => by
    obtain ⟨located, h⟩ := Block.exists_lists b
    exact ⟨located, h.congr fun path name => Statement.names_block_iff⟩
  | .group branches => by
    obtain ⟨located, h⟩ := Lists.exists_row (Block.exists_lists_of_mem branches)
    refine ⟨located, ?_⟩
    rw [Statement.signals, writtenEnds_branches]
    exact h.congr fun path name => Statement.names_group_iff

/-- The same for a block. -/
theorem Block.exists_lists : (b : Block) → ∃ located, Lists located (writtenEnds b.signals) b.Names
  | ⟨_, _, body⟩ => by
    obtain ⟨located, h⟩ := Lists.exists_row (Statement.exists_lists_of_mem body)
    refine ⟨located, ?_⟩
    rw [Block.signals, writtenEnds_allSignals]
    exact h

theorem Statement.exists_lists_of_mem : (row : List Statement) →
    ∀ s ∈ row, ∃ located, Lists located (writtenEnds s.signals) s.Names
  | [], s, hs => by cases hs
  | first :: rest, s, hs => by
    rcases List.mem_cons.1 hs with h | hrest
    · rw [h]
      exact Statement.exists_lists first
    · exact Statement.exists_lists_of_mem rest s hrest

theorem Block.exists_lists_of_mem : (row : List Block) →
    ∀ b ∈ row, ∃ located, Lists located (writtenEnds b.signals) b.Names
  | [], b, hb => by cases hb
  | first :: rest, b, hb => by
    rcases List.mem_cons.1 hb with h | hrest
    · rw [h]
      exact Block.exists_lists first
    · exact Block.exists_lists_of_mem rest b hrest

end

/-- The ends of all signals of some statements are the names in them in the order of their paths. -/
theorem exists_lists_statements (statements : List Statement) :
    ∃ located, Lists located (writtenEnds (Statement.allSignals statements))
      (RowNames Statement.Names statements) := by
  rw [writtenEnds_allSignals]
  exact Lists.exists_row (Statement.exists_lists_of_mem statements)

end SequenceChart
