import Mathlib.Data.List.Lex
import SequenceChart.Proofs.Chart.Consistent
import SequenceChart.Proofs.Chart.Located
import SequenceChart.Proofs.Geometry.Replay
set_option autoImplicit false

/-!
# What an audit finds wrong

Main statement: the faults of a chart are first, in the order of the alias table, the aliases whose
target is neither an alias nor a participant, and then the names at the ends of signals, at any
depth, that are no participant's, each once and in the order of the places where they first stand.
A single pass that remembers the names it has reported finds the same.  So a chart has no fault
exactly if every alias has a target and every end of a signal a participant, and then every lifeline
of its layout is a participant's.
-/

namespace SequenceChart

namespace Chart

/-- The name that stands, under the aliases, at a path in the tree of a chart. -/
def EndAt (c : Chart) (path : List Nat) (name : String) : Prop :=
  ∃ written, RowNames Statement.Names c.statements path written ∧ name = c.resolve written

/-- Neither an alias nor a participant is called like the target of an alias. -/
def isDangling (c : Chart) (entry : String × String) : Bool :=
  !c.aliases.contains entry.2 && !c.isParticipant entry.2

/-- The first place of a name comes before every place of another. -/
def FirstBefore (c : Chart) (name other : String) : Prop :=
  ∃ path, c.EndAt path name ∧ ∀ path', c.EndAt path' other → path < path'

/-- The names at ends of signals that are no participant's: each of them once, in the order of their
first places. -/
structure Unregistered (c : Chart) (names : List String) : Prop where
  distinct : names.Nodup
  mem_iff : ∀ name, name ∈ names ↔ c.isParticipant name = false ∧ ∃ path, c.EndAt path name
  ordered : names.Pairwise c.FirstBefore

theorem FirstBefore.asymm {c : Chart} {name other : String} (h : c.FirstBefore name other) :
    ¬c.FirstBefore other name := by
  rintro ⟨path', hother, hall'⟩
  obtain ⟨path, hname, hall⟩ := h
  exact lt_asymm (hall path' hother) (hall' path hname)

/-- There is one list of the unregistered names. -/
theorem Unregistered.unique {c : Chart} {names others : List String} (h : c.Unregistered names)
    (h' : c.Unregistered others) : names = others := by
  have hperm : names.Perm others :=
    (List.perm_ext_iff_of_nodup h.distinct h'.distinct).2 fun name =>
      (h.mem_iff name).trans (h'.mem_iff name).symm
  exact hperm.eq_of_pairwise (fun a b _ _ hab hba => absurd hba hab.asymm) h.ordered h'.ordered

end Chart

/-! ## First occurrences -/

namespace Audit

theorem nodup_firstOccurrences (names : List String) : (firstOccurrences names).Nodup := by
  induction names with
  | nil => exact List.nodup_nil
  | cons name rest ih =>
    rw [firstOccurrences, List.nodup_cons]
    refine ⟨?_, ih.filter _⟩
    intro hmem
    simpa using (List.mem_filter.1 hmem).2

/-- Up to the first occurrence of a name there is none of a name that first occurs later. -/
theorem pairwise_firstOccurrences (names : List String) :
    (firstOccurrences names).Pairwise fun a b =>
      ∃ before after, names = before ++ a :: after ∧ b ∉ before ∧ b ≠ a := by
  induction names with
  | nil => exact .nil
  | cons name rest ih =>
    rw [firstOccurrences, List.pairwise_cons]
    have hne {other : String} (h : other ∈ (firstOccurrences rest).filter (· ≠ name)) :
        other ≠ name := by
      simpa using (List.mem_filter.1 h).2
    refine ⟨?_, ?_⟩
    · intro other hmem
      exact ⟨[], rest, rfl, List.not_mem_nil, hne hmem⟩
    · refine (ih.filter _).imp_of_mem ?_
      rintro a b - hb ⟨before, after, rfl, hbefore, hba⟩
      refine ⟨name :: before, after, rfl, ?_, hba⟩
      rw [List.mem_cons, not_or]
      exact ⟨hne hb, hbefore⟩

end Audit

namespace Lists

variable {located : List (List Nat × String)} {names : List String} {at_ : List Nat → String → Prop}

/-- Names are replaced by what they stand for. -/
theorem map (h : Lists located names at_) (f : String → String) :
    Lists (located.map fun e => (e.1, f e.2)) (names.map f)
      (fun path name => ∃ written, at_ path written ∧ name = f written) where
  names := by
    rw [← h.names, List.map_map, List.map_map]
    rfl
  ordered := List.pairwise_map.2 h.ordered
  mem_iff path name := by
    rw [List.mem_map]
    constructor
    · rintro ⟨⟨p, written⟩, hmem, heq⟩
      cases heq
      exact ⟨written, (h.mem_iff p written).1 hmem, rfl⟩
    · rintro ⟨written, hat, rfl⟩
      exact ⟨(path, written), (h.mem_iff path written).2 hat, rfl⟩

/-- Some of the names are left out. -/
theorem filter (h : Lists located names at_) (keeps : String → Bool) :
    Lists (located.filter fun e => keeps e.2) (names.filter keeps)
      (fun path name => at_ path name ∧ keeps name = true) where
  names := by
    rw [← h.names, List.filter_map]
    rfl
  ordered := h.ordered.filter _
  mem_iff path name := by rw [List.mem_filter, h.mem_iff]

theorem mem_iff_exists (h : Lists located names at_) (name : String) :
    name ∈ names ↔ ∃ path, at_ path name := by
  rw [← h.names, List.mem_map]
  constructor
  · rintro ⟨⟨path, name⟩, hmem, rfl⟩
    exact ⟨path, (h.mem_iff path name).1 hmem⟩
  · rintro ⟨path, hat⟩
    exact ⟨(path, name), (h.mem_iff path name).2 hat, rfl⟩

/-- A name stands first at a path before all paths of the names that first occur later. -/
theorem pairwise_first (h : Lists located names at_) :
    (Audit.firstOccurrences names).Pairwise fun a b =>
      ∃ path, at_ path a ∧ ∀ path', at_ path' b → path < path' := by
  refine (Audit.pairwise_firstOccurrences names).imp ?_
  rintro a b ⟨before, after, hnames, hbefore, hba⟩
  rw [← h.names, List.map_eq_append_iff] at hnames
  obtain ⟨first, more, rfl, hfirst, hmore⟩ := hnames
  obtain ⟨⟨path, name⟩, rest, rfl, rfl, -⟩ := List.map_eq_cons_iff.1 hmore
  refine ⟨path, (h.mem_iff path name).1 (List.mem_append_right _ List.mem_cons_self), ?_⟩
  intro path' hat
  have hordered := (List.pairwise_append.1 h.ordered).2.1
  rcases List.mem_append.1 ((h.mem_iff path' b).2 hat) with hmem | hmem
  · exact absurd (hfirst ▸ List.mem_map_of_mem hmem) hbefore
  · rcases List.mem_cons.1 hmem with heq | hmem
    · cases heq
      exact absurd rfl hba
    · exact (List.pairwise_cons.1 hordered).1 _ hmem

end Lists

/-! ## The faults -/

namespace Audit

theorem endpoints_eq (c : Chart) :
    endpoints c = (writtenEnds (Statement.allSignals c.statements)).map c.resolve := by
  rw [endpoints, writtenEnds, List.map_flatMap]
  rfl

/-- The ends of the signals of a chart are the names in its tree in document order. -/
theorem exists_lists_endpoints (c : Chart) : ∃ located, Lists located (endpoints c) c.EndAt := by
  obtain ⟨located, h⟩ := exists_lists_statements c.statements
  rw [endpoints_eq]
  exact ⟨_, h.map c.resolve⟩

/-- The names that are no participant's. -/
def unregistered (c : Chart) : List String :=
  firstOccurrences ((endpoints c).filter fun name => !c.isParticipant name)

theorem unregistered_spec (c : Chart) : c.Unregistered (unregistered c) := by
  obtain ⟨located, h⟩ := exists_lists_endpoints c
  have hfiltered := h.filter fun name => !c.isParticipant name
  refine ⟨nodup_firstOccurrences _, ?_, ?_⟩
  · intro name
    rw [unregistered, Replay.mem_firstOccurrences, hfiltered.mem_iff_exists, Bool.not_eq_true']
    constructor
    · rintro ⟨path, hat, hnone⟩
      exact ⟨hnone, path, hat⟩
    · rintro ⟨hnone, path, hat⟩
      exact ⟨path, hat, hnone⟩
  · have hunregistered {name : String} (h : name ∈ unregistered c) :
        c.isParticipant name = false := by
      have hmem := (List.mem_filter.1 (Replay.mem_firstOccurrences.1 h)).2
      simpa using hmem
    refine hfiltered.pairwise_first.imp_of_mem ?_
    rintro a b - hb ⟨path, ⟨hat, -⟩, hall⟩
    refine ⟨path, hat, ?_⟩
    intro path' hat'
    refine hall path' ⟨hat', ?_⟩
    rw [hunregistered hb]
    rfl

theorem flatMap_aliasFaults (c : Chart) (entries : List (String × String)) :
    entries.flatMap (aliasFaults c)
      = (entries.filter c.isDangling).map fun e => Fault.danglingAlias e.1 e.2 := by
  induction entries with
  | nil => rfl
  | cons e rest ih =>
    rw [List.flatMap_cons, ih, List.filter_cons, aliasFaults, Chart.isDangling]
    cases c.aliases.contains e.2 <;> cases c.isParticipant e.2 <;> rfl

theorem faults_eq (c : Chart) : (ofChart c).faults
    = ((c.aliases.entries.filter c.isDangling).map fun e => Fault.danglingAlias e.1 e.2)
      ++ (unregistered c).map Fault.unknownParticipant := by
  rw [← flatMap_aliasFaults]
  rfl

theorem hasFaults_eq_false_iff (c : Chart) : (ofChart c).hasFaults = false ↔
    (∀ entry ∈ c.aliases.entries, c.isDangling entry = false) ∧
      ∀ path name, c.EndAt path name → c.isParticipant name := by
  have hnone : unregistered c = [] ↔ ∀ path name, c.EndAt path name → c.isParticipant name := by
    rw [List.eq_nil_iff_forall_not_mem]
    constructor
    · intro h path name hat
      rw [← Bool.not_eq_false]
      intro hnot
      exact h name (((unregistered_spec c).mem_iff name).2 ⟨hnot, path, hat⟩)
    · intro h name hmem
      obtain ⟨hnot, path, hat⟩ := ((unregistered_spec c).mem_iff name).1 hmem
      rw [h path name hat] at hnot
      cases hnot
  rw [hasFaults, Bool.not_eq_false', List.isEmpty_iff, faults_eq, List.append_eq_nil_iff,
    List.map_eq_nil_iff, List.map_eq_nil_iff, List.filter_eq_nil_iff, hnone]
  simp only [Bool.not_eq_true]

/-! ## One pass that remembers what it reported -/

/-- The names that a pass has reported and the faults it has found. -/
structure Sweep where
  reported : List String
  faults : List Fault

namespace Sweep

/-- Looks at a written name, and reports what it stands for if that is neither a participant nor
reported already. -/
def visit (c : Chart) (x : Sweep) (written : String) : Sweep :=
  let name := c.resolve written
  if c.isParticipant name || x.reported.contains name then x
  else ⟨name :: x.reported, x.faults ++ [.unknownParticipant name]⟩

mutual

/-- Goes through a statement. -/
def statement (c : Chart) (x : Sweep) : Statement → Sweep
  | .signal s => (x.visit c s.source).visit c s.target
  | .block b => x.block c b
  | .group branches => x.blocks c branches

/-- Goes through a block. -/
def block (c : Chart) (x : Sweep) : Block → Sweep
  | ⟨_, _, body⟩ => x.statements c body

/-- Goes through statements. -/
def statements (c : Chart) (x : Sweep) : List Statement → Sweep
  | [] => x
  | s :: rest => (x.statement c s).statements c rest

/-- Goes through blocks. -/
def blocks (c : Chart) (x : Sweep) : List Block → Sweep
  | [] => x
  | b :: rest => (x.block c b).blocks c rest

end

mutual

/-- Going through a statement is looking at the ends of its signals. -/
theorem statement_eq (c : Chart) :
    (x : Sweep) → (s : Statement) → x.statement c s = (writtenEnds s.signals).foldl (visit c) x
  | _, .signal _ => rfl
  | x, .block b => block_eq c x b
  | x, .group branches => blocks_eq c x branches

theorem block_eq (c : Chart) :
    (x : Sweep) → (b : Block) → x.block c b = (writtenEnds b.signals).foldl (visit c) x
  | x, ⟨_, _, body⟩ => statements_eq c x body

theorem statements_eq (c : Chart) : (x : Sweep) → (row : List Statement) →
    x.statements c row = (writtenEnds (Statement.allSignals row)).foldl (visit c) x
  | _, [] => rfl
  | x, s :: rest => by
    rw [statements, Statement.allSignals, writtenEnds_append, List.foldl_append,
      ← statement_eq c x s]
    exact statements_eq c _ rest

theorem blocks_eq (c : Chart) : (x : Sweep) → (row : List Block) →
    x.blocks c row = (writtenEnds (Block.allSignals row)).foldl (visit c) x
  | _, [] => rfl
  | x, b :: rest => by
    rw [blocks, Block.allSignals, writtenEnds_append, List.foldl_append, ← block_eq c x b]
    exact blocks_eq c _ rest

end

/-- First occurrences among names of which some are left out: the first name is one, unless it is
left out, and then it is left out of the rest. -/
theorem filter_firstOccurrences_cons (reported : List String) (name : String)
    (others : List String) :
    (firstOccurrences (name :: others)).filter (fun n => !reported.contains n)
      = if reported.contains name then
          (firstOccurrences others).filter fun n => !reported.contains n
        else name :: (firstOccurrences others).filter fun n => !(name :: reported).contains n := by
  rw [firstOccurrences, List.filter_cons, List.filter_filter]
  cases hname : reported.contains name with
  | true =>
    refine List.filter_congr ?_
    intro n _
    by_cases hn : n = name
    · simp only [hn, hname, Bool.not_true, Bool.false_and]
    · simp [hn]
  | false =>
    have hrest : (firstOccurrences others).filter (fun n => !reported.contains n && n ≠ name)
        = (firstOccurrences others).filter fun n => !(name :: reported).contains n := by
      refine List.filter_congr ?_
      intro n _
      by_cases hn : n = name
      · simp [hn]
      · simp [hn]
    rw [hrest]
    rfl

/-- A pass adds the unregistered names that it has not reported, each at its first occurrence. -/
theorem faults_foldl_visit (c : Chart) (written : List String) (x : Sweep) :
    (written.foldl (visit c) x).faults = x.faults ++
      ((firstOccurrences ((written.map c.resolve).filter fun name => !c.isParticipant name)).filter
        fun name => !x.reported.contains name).map Fault.unknownParticipant := by
  induction written generalizing x with
  | nil => exact (List.append_nil _).symm
  | cons first rest ih =>
    rw [List.foldl_cons, ih, List.map_cons, List.filter_cons, visit]
    cases c.isParticipant (c.resolve first) with
    | true => rfl
    | false =>
      rw [Bool.false_or, Bool.not_false, if_pos rfl, filter_firstOccurrences_cons]
      cases x.reported.contains (c.resolve first) with
      | true => rfl
      | false =>
        rw [if_neg Bool.false_ne_true, if_neg Bool.false_ne_true, List.map_cons]
        exact List.append_assoc _ _ _

/-- Looks at an alias. -/
def visitAlias (c : Chart) (faults : List Fault) (e : String × String) : List Fault :=
  if c.aliases.contains e.2 then faults
  else if c.isParticipant e.2 then faults
  else faults ++ [.danglingAlias e.1 e.2]

/-- Goes through the alias table and then through the tree. -/
def ofChart (c : Chart) : Sweep :=
  (Sweep.mk [] (c.aliases.entries.foldl (visitAlias c) [])).statements c c.statements

theorem foldl_visitAlias (c : Chart) (entries : List (String × String)) (faults : List Fault) :
    entries.foldl (visitAlias c) faults
      = faults ++ (entries.filter c.isDangling).map fun e => Fault.danglingAlias e.1 e.2 := by
  induction entries generalizing faults with
  | nil => exact (List.append_nil _).symm
  | cons e rest ih =>
    rw [List.foldl_cons, ih, List.filter_cons, visitAlias, Chart.isDangling]
    cases c.aliases.contains e.2 with
    | true => rfl
    | false =>
      cases c.isParticipant e.2 with
      | true => rfl
      | false => exact List.append_assoc _ _ _

theorem faults_ofChart (c : Chart) : (ofChart c).faults = (Audit.ofChart c).faults := by
  have hnone (names : List String) : names.filter (fun name => !([] : List String).contains name)
      = names := by
    rw [List.filter_eq_self]
    intro name _
    rfl
  rw [faults_eq, ofChart, statements_eq, faults_foldl_visit, foldl_visitAlias, unregistered,
    endpoints_eq, hnone]
  rfl

end Sweep

/-- The faults of an audit are those of the chart. -/
structure Faithful (c : Chart) (a : Audit) : Prop where
  /-- first the dangling aliases in the order of the table, then the unregistered names -/
  exact : ∃ names, c.Unregistered names ∧ (∀ others, c.Unregistered others → others = names) ∧
    a.faults = ((c.aliases.entries.filter c.isDangling).map fun e => .danglingAlias e.1 e.2)
      ++ names.map Fault.unknownParticipant ∧
    a.faults.map Fault.message
      = ((c.aliases.entries.filter c.isDangling).map fun e =>
          "Alias '" ++ e.1 ++ "' refers to unknown participant '" ++ e.2 ++ "'")
        ++ names.map fun name => "Signal refers to unknown participant '" ++ name ++ "'"
  /-- one pass that remembers what it reported finds the same -/
  swept : (Sweep.ofChart c).faults = a.faults
  /-- there is none exactly if aliases are bound to aliases or participants, and all ends of signals
  stand for participants -/
  hasFaults_iff : a.hasFaults = false ↔
    (∀ entry ∈ c.aliases.entries, c.isParticipant entry.2 ∨ c.aliases.contains entry.2) ∧
      ∀ path name, c.EndAt path name → c.isParticipant name
  /-- where there is none, every lifeline that a layout draws, finished or not, is a participant's -/
  lifelines : a.hasFaults = false → ∀ (α : Type) [Measure α] (settings : Settings α),
    ∀ line ∈ (Halted.reached (Layout.ofChart settings c)).lifelines, c.isParticipant line.name

/-- A lifeline is named by an end of a signal in the tree. -/
theorem exists_endAt_of_lifeline {α : Type} [Measure α] (settings : Settings α) {c : Chart}
    {line : Lifeline α}
    (h : line ∈ (Halted.reached (Layout.ofChart settings c)).lifelines) :
    ∃ path, c.EndAt path line.name := by
  obtain ⟨located, hlists⟩ := exists_lists_endpoints c
  rw [← hlists.mem_iff_exists, endpoints, List.mem_flatMap]
  obtain ⟨s, hs, hend⟩ := Layout.names_ofChart settings c line.name (List.mem_map_of_mem h)
  refine ⟨s, Chart.mem_allSignals_of_mem_topSignals hs, ?_⟩
  rcases hend with hsource | htarget
  · rw [hsource]
    exact List.mem_cons_self
  · rw [htarget]
    exact List.mem_cons_of_mem _ List.mem_cons_self

/-- The faults of an audit of a chart are those of the chart. -/
theorem faithful_ofChart (c : Chart) : Faithful c (ofChart c) := by
  have hiff : (ofChart c).hasFaults = false ↔
      (∀ entry ∈ c.aliases.entries, c.isParticipant entry.2 ∨ c.aliases.contains entry.2) ∧
        ∀ path name, c.EndAt path name → c.isParticipant name := by
    rw [hasFaults_eq_false_iff]
    refine and_congr_left' (forall₂_congr ?_)
    intro entry _
    rw [Chart.isDangling]
    cases c.isParticipant entry.2 <;> cases c.aliases.contains entry.2 <;> simp
  have hunregistered := unregistered_spec c
  refine ⟨⟨unregistered c, hunregistered, ?_, faults_eq c, ?_⟩, Sweep.faults_ofChart c, hiff, ?_⟩
  · intro others hothers
    exact hothers.unique hunregistered
  · rw [faults_eq, List.map_append, List.map_map, List.map_map]
    rfl
  · intro hnone α _ settings line hline
    obtain ⟨path, hend⟩ := exists_endAt_of_lifeline settings hline
    exact (hiff.1 hnone).2 path line.name hend

/-- An alias of an alias is no fault, a name that is met twice is one fault, and a name in a branch
of a group comes where the branch stands. -/
example :
    let signal (source target : String) : Statement :=
      .signal { source, target, head := some .closed }
    let c : Chart :=
      { statements :=
          [.group [⟨.alt, none, [signal "x" "a"]⟩], signal "c" "b", signal "a" "y"]
        participants := Table.empty.insert "c" Chart.defaultRole
        aliases := ((Table.empty.insert "x" "y").insert "y" "z").insert "u" "c" }
    (ofChart c).faults =
      [.danglingAlias "y" "z", .unknownParticipant "y", .unknownParticipant "a",
        .unknownParticipant "b", .unknownParticipant "z"] := by
  decide

end Audit

end SequenceChart
