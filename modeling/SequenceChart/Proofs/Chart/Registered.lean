import SequenceChart.Chart.Audit
import SequenceChart.Proofs.Chart.Items
import SequenceChart.Proofs.Chart.Table
set_option autoImplicit false

/-!
# Every name of a chart of items is registered

Whatever the order of the items, each alias is bound to a participant and each end of a signal
stands for one.  Both are kept by every item under the aliases known then, and a later binding
redirects a name only to a participant again, so they hold under the final aliases as well.
-/

namespace SequenceChart

theorem Statement.allSignals_append (ss ts : List Statement) :
    allSignals (ss ++ ts) = allSignals ss ++ allSignals ts := by
  induction ss with
  | nil => rfl
  | cons s ss ih =>
    rw [List.cons_append, allSignals, allSignals, ih, List.append_assoc]

namespace Chart

theorem mem_allSignals_of_mem {s : Signal} {statements : List Statement}
    (h : Statement.signal s ∈ statements) : s ∈ Statement.allSignals statements := by
  induction statements with
  | nil => cases h
  | cons first rest ih =>
    rw [Statement.allSignals, List.mem_append]
    rcases List.mem_cons.1 h with rfl | hrest
    · exact Or.inl (List.mem_singleton.2 rfl)
    · exact Or.inr (ih hrest)

theorem mem_allSignals_of_mem_topSignals {c : Chart} {s : Signal} (h : s ∈ c.topSignals) :
    s ∈ Statement.allSignals c.statements := by
  obtain ⟨statement, hmem, htop⟩ := List.mem_filterMap.1 h
  cases statement with
  | signal s' =>
    cases htop
    exact mem_allSignals_of_mem hmem
  | block b => cases htop
  | group branches => cases htop

/-- The name, as written, stands for a participant. -/
def Known (c : Chart) (name : String) : Prop := c.isParticipant (c.resolve name)

/-- Every alias is bound to a participant and every end of a signal stands for one. -/
structure Registered (c : Chart) : Prop where
  targets : ∀ name target, c.alias? name = some target → c.isParticipant target
  ends : ∀ s ∈ Statement.allSignals c.statements, c.Known s.source ∧ c.Known s.target

theorem isParticipant_addParticipant (c : Chart) (name other : String) :
    (c.addParticipant name).isParticipant other = (other = name || c.isParticipant other) :=
  Table.contains_insert c.participants name defaultRole other

theorem isParticipant_addParticipant_self (c : Chart) (name : String) :
    (c.addParticipant name).isParticipant name := by
  rw [isParticipant_addParticipant, decide_eq_true rfl, Bool.true_or]

/-- Registering a participant keeps the others. -/
theorem isParticipant_addParticipant_of {c : Chart} {other : String} (h : c.isParticipant other)
    (name : String) : (c.addParticipant name).isParticipant other := by
  rw [isParticipant_addParticipant, h, Bool.or_true]

theorem resolve_addAlias (c : Chart) (short name other : String) :
    (c.addAlias short name).resolve other = if other = short then name else c.resolve other := by
  simp only [resolve, alias?, addAlias, Table.get?_insert]
  split <;> rfl

theorem Known.addParticipant {c : Chart} {other : String} (h : c.Known other) (name : String) :
    (c.addParticipant name).Known other := isParticipant_addParticipant_of h name

/-- Binding an alias to a participant leaves the known names known. -/
theorem Known.addAlias {c : Chart} {other : String} (h : c.Known other) (short : String)
    {name : String} (hname : c.isParticipant name) : (c.addAlias short name).Known other := by
  rw [Known, resolve_addAlias]
  split
  · exact hname
  · exact h

theorem Known.mention {c : Chart} {other : String} (h : c.Known other) (name : String) :
    (c.mention name).Known other := by
  unfold Chart.mention
  split
  · exact h
  · exact h.addParticipant _

theorem known_mention (c : Chart) (name : String) : (c.mention name).Known name := by
  unfold mention
  split
  · next h => exact h
  · exact isParticipant_addParticipant_self c (c.resolve name)

theorem Known.foldl_mentionEnds {c : Chart} {other : String} (h : c.Known other)
    (signals : List Signal) : (signals.foldl mentionEnds c).Known other := by
  induction signals generalizing c with
  | nil => exact h
  | cons s signals ih => exact ih ((h.mention s.source).mention s.target)

/-- After the ends of signals have been mentioned, all of them are known. -/
theorem known_foldl_mentionEnds (signals : List Signal) (c : Chart) :
    ∀ s ∈ signals, (signals.foldl mentionEnds c).Known s.source
      ∧ (signals.foldl mentionEnds c).Known s.target := by
  induction signals generalizing c with
  | nil => simp
  | cons first signals ih =>
    intro s hs
    rw [List.foldl_cons]
    rcases List.mem_cons.1 hs with rfl | hs
    · exact ⟨((known_mention c s.source).mention s.target).foldl_mentionEnds signals,
        (known_mention (c.mention s.source) s.target).foldl_mentionEnds signals⟩
    · exact ih (c.mentionEnds first) s hs

theorem isParticipant_mention {c : Chart} {other : String} (h : c.isParticipant other)
    (name : String) : (c.mention name).isParticipant other := by
  unfold mention
  split
  · exact h
  · exact isParticipant_addParticipant_of h (c.resolve name)

theorem isParticipant_foldl_mentionEnds {c : Chart} {other : String} (h : c.isParticipant other)
    (signals : List Signal) : (signals.foldl mentionEnds c).isParticipant other := by
  induction signals generalizing c with
  | nil => exact h
  | cons s signals ih => exact ih (isParticipant_mention (isParticipant_mention h _) _)

/-! ## Every item keeps the names registered -/

theorem registered_empty : Registered {} :=
  ⟨fun _ _ h => (by cases h), fun _ hs => (by cases hs)⟩

theorem Registered.addParticipant {c : Chart} (h : c.Registered) (name : String) :
    (c.addParticipant name).Registered where
  targets short target hbound :=
    isParticipant_addParticipant_of (h.targets short target hbound) name
  ends s hs := ⟨(h.ends s hs).1.addParticipant name, (h.ends s hs).2.addParticipant name⟩

theorem Registered.addAlias {c : Chart} (h : c.Registered) (short : String) {name : String}
    (hname : c.isParticipant name) : (c.addAlias short name).Registered where
  targets other target hbound := by
    have hget : (if other = short then some name else c.alias? other) = some target := by
      rw [← hbound]
      exact (Table.get?_insert c.aliases short name other).symm
    split at hget
    · cases hget
      exact hname
    · exact h.targets other target hget
  ends s hs := ⟨(h.ends s hs).1.addAlias short hname, (h.ends s hs).2.addAlias short hname⟩

theorem Registered.add {c : Chart} (h : c.Registered) (item : Item) : (c.add item).Registered := by
  cases item with
  | title text => exact ⟨h.targets, h.ends⟩
  | participant name alias? =>
    cases alias? with
    | none => exact h.addParticipant name
    | some short =>
      exact (h.addParticipant name).addAlias short (isParticipant_addParticipant_self c name)
  | statement s =>
    refine ⟨?_, ?_⟩
    · intro short target hbound
      have hold : c.alias? short = some target := by
        rw [← alias?_foldl_mentionEnds s.signals]
        exact hbound
      exact isParticipant_foldl_mentionEnds (h.targets short target hold) s.signals
    · intro signal hsignal
      have hmem : signal ∈ Statement.allSignals c.statements ∨ signal ∈ s.signals := by
        have hall : signal ∈ Statement.allSignals (c.statements ++ [s]) := hsignal
        rw [Statement.allSignals_append, List.mem_append] at hall
        simpa [Statement.allSignals] using hall
      rcases hmem with hold | hnew
      · exact ⟨(h.ends signal hold).1.foldl_mentionEnds s.signals,
          (h.ends signal hold).2.foldl_mentionEnds s.signals⟩
      · exact known_foldl_mentionEnds s.signals c signal hnew

/-- The names of every chart of items are registered. -/
theorem registered_ofItems (items : List Item) : (ofItems items).Registered := by
  have hfold (c : Chart) (h : c.Registered) : (items.foldl Chart.add c).Registered := by
    induction items generalizing c with
    | nil => exact h
    | cons item items ih => exact ih (c.add item) (h.add item)
  exact hfold {} registered_empty

/-! ## What an audit says of registered names -/

/-- An audit of registered names finds no fault. -/
theorem Registered.faults_eq_nil {c : Chart} (h : c.Registered) :
    (Audit.ofChart c).faults = [] := by
  have haliases : c.aliases.entries.flatMap (Audit.aliasFaults c) = [] := by
    rw [List.flatMap_eq_nil_iff]
    intro entry hentry
    have htarget := h.targets entry.1 entry.2 (Table.get?_of_mem hentry)
    simp [Audit.aliasFaults, htarget]
  have hends : Audit.endpointFaults c = [] := by
    have hnone : (Audit.endpoints c).filter (fun name => !c.isParticipant name) = [] := by
      rw [List.filter_eq_nil_iff]
      intro name hname
      obtain ⟨s, hs, hend⟩ := List.mem_flatMap.1 hname
      have hboth := h.ends s hs
      simp only [List.mem_cons, List.not_mem_nil, or_false] at hend
      rcases hend with rfl | rfl
      · simp [show c.isParticipant (c.resolve s.source) = true from hboth.1]
      · simp [show c.isParticipant (c.resolve s.target) = true from hboth.2]
    rw [Audit.endpointFaults, hnone]
    rfl
  show c.aliases.entries.flatMap (Audit.aliasFaults c) ++ Audit.endpointFaults c = []
  rw [haliases, hends]
  rfl

end Chart

end SequenceChart
