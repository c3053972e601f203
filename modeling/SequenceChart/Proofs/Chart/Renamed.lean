import Mathlib.Data.List.Nodup
import Mathlib.Data.Set.Function
import SequenceChart.Proofs.Chart.Registered
set_option autoImplicit false

/-!
# Renaming the participants of a chart

A renaming puts another name in the place of every participant, every alias, every name behind an
alias and every end of a signal.  If it keeps the names of a chart apart, looking up an alias and
renaming may change places, and the two ends of a signal are written alike as they were before.
-/

namespace SequenceChart

/-- The table with its keys and its texts renamed. -/
def Table.rename (f g : String → String) (t : Table) : Table :=
  .ofList (t.entries.map fun entry => (f entry.1, g entry.2))

/-- The signal between renamed ends. -/
def Signal.rename (f : String → String) (s : Signal) : Signal :=
  { s with source := f s.source, target := f s.target }

mutual

/-- The statement with its signals renamed at every depth. -/
def Statement.rename (f : String → String) : Statement → Statement
  | .signal s => .signal (s.rename f)
  | .block b => .block (b.rename f)
  | .group branches => .group (Block.renameAll f branches)

/-- The block with its signals renamed. -/
def Block.rename (f : String → String) : Block → Block
  | ⟨label, condition, body⟩ => ⟨label, condition, Statement.renameAll f body⟩

/-- The statements with their signals renamed. -/
def Statement.renameAll (f : String → String) : List Statement → List Statement
  | [] => []
  | s :: rest => s.rename f :: Statement.renameAll f rest

/-- The blocks with their signals renamed. -/
def Block.renameAll (f : String → String) : List Block → List Block
  | [] => []
  | b :: rest => b.rename f :: Block.renameAll f rest

end

namespace Table

variable {f g : String → String} {t : Table}

/-- If the keys stay apart, the entries stay in their order. -/
theorem entries_rename (hf : Set.InjOn f {k | k ∈ t.keys}) :
    (t.rename f g).entries = t.entries.map fun entry => (f entry.1, g entry.2) := by
  have hdistinct := (List.nodup_map_iff_inj_on t.distinct).2 fun k hk k' hk' he => hf hk hk' he
  refine entries_ofList ?_
  rw [List.map_map] at hdistinct ⊢
  exact hdistinct

/-- Under a renamed key stands the renamed text that stood under the key. -/
theorem get?_rename {name : String} (hf : Set.InjOn f {k | k = name ∨ k ∈ t.keys}) :
    (t.rename f g).get? (f name) = (t.get? name).map g := by
  have hfind : ∀ entries ⊆ t.entries,
      ((entries.map fun entry => (f entry.1, g entry.2)).find? fun entry => entry.1 = f name)
        = (entries.find? fun entry => entry.1 = name).map fun entry => (f entry.1, g entry.2) := by
    intro entries hentries
    induction entries with
    | nil => rfl
    | cons first rest ih =>
      obtain ⟨hfirst, hrest⟩ := List.cons_subset.1 hentries
      rw [List.map_cons, List.find?_cons, List.find?_cons, ih hrest]
      by_cases hname : first.1 = name
      · simp [hname]
      · have hne : ¬f first.1 = f name := fun he =>
          hname (hf (.inr (List.mem_map_of_mem hfirst)) (.inl rfl) he)
        simp [hname, hne]
  rw [get?, get?, entries_rename (hf.mono fun _ => Or.inr), hfind _ (List.Subset.refl _),
    Option.map_map, Option.map_map]
  rfl

end Table

namespace Chart

/-- The chart with its participants, its aliases and the ends of its signals renamed. -/
def rename (f : String → String) (c : Chart) : Chart where
  title := c.title
  statements := Statement.renameAll f c.statements
  participants := c.participants.rename f id
  aliases := c.aliases.rename f f

/-- The names of a chart: of its participants, of its aliases and behind them, and at the ends of
its signals at every depth. -/
def names (c : Chart) : List String :=
  c.participants.keys ++ c.aliases.entries.flatMap (fun entry => [entry.1, entry.2])
    ++ (Statement.allSignals c.statements).flatMap fun s => [s.source, s.target]

/-- The names of the chart stay apart under the renaming. -/
def KeptApart (c : Chart) (f : String → String) : Prop := Set.InjOn f {name | name ∈ c.names}

/-! ## Which names a chart has -/

theorem mem_names_of_alias {c : Chart} {entry : String × String} (h : entry ∈ c.aliases.entries) :
    entry.1 ∈ c.names ∧ entry.2 ∈ c.names := by
  have hmem : ∀ name ∈ [entry.1, entry.2], name ∈ c.names := fun name hname =>
    List.mem_append_left _ (List.mem_append_right _ (List.mem_flatMap.2 ⟨entry, h, hname⟩))
  exact ⟨hmem _ (by simp), hmem _ (by simp)⟩

theorem mem_names_of_topSignals {c : Chart} {s : Signal} (h : s ∈ c.topSignals) :
    s.source ∈ c.names ∧ s.target ∈ c.names := by
  have hmem : ∀ name ∈ [s.source, s.target], name ∈ c.names := fun name hname =>
    List.mem_append_right _
      (List.mem_flatMap.2 ⟨s, mem_allSignals_of_mem_topSignals h, hname⟩)
  exact ⟨hmem _ (by simp), hmem _ (by simp)⟩

/-- What a name of a chart stands for is a name of the chart. -/
theorem resolve_mem_names {c : Chart} {name : String} (h : name ∈ c.names) :
    c.resolve name ∈ c.names := by
  unfold resolve
  cases hname : c.alias? name with
  | none => exact h
  | some target => exact (mem_names_of_alias (Table.mem_of_get? hname)).2

/-! ## Renaming -/

theorem topSignals_rename (f : String → String) (c : Chart) :
    (c.rename f).topSignals = c.topSignals.map (Signal.rename f) := by
  rw [topSignals, topSignals, rename]
  dsimp only
  induction c.statements with
  | nil => rfl
  | cons first rest ih =>
    cases first with
    | signal s => exact congrArg (s.rename f :: ·) ih
    | block _ => exact ih
    | group _ => exact ih

variable {c : Chart} {f : String → String} (h : c.KeptApart f)

include h

theorem KeptApart.alias?_rename {name : String} (hname : name ∈ c.names) :
    (c.rename f).alias? (f name) = (c.alias? name).map f := by
  refine Table.get?_rename (h.mono ?_)
  rintro k (rfl | hk)
  · exact hname
  · obtain ⟨entry, hentry, rfl⟩ := List.mem_map.1 hk
    exact (mem_names_of_alias hentry).1

theorem KeptApart.resolve_rename {name : String} (hname : name ∈ c.names) :
    (c.rename f).resolve (f name) = f (c.resolve name) := by
  rw [resolve, resolve, h.alias?_rename hname]
  cases c.alias? name <;> rfl

end Chart

end SequenceChart
