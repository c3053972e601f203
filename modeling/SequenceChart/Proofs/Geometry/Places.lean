import SequenceChart.Proofs.Geometry.Names
set_option autoImplicit false

/-!
# Lifelines found in a table

A pass may keep a table of the places of its lifelines instead of looking for their names: a name is
entered when its lifeline is added, and a place never changes.  Main statement: such a pass makes
the same layout as looking for the names, and its table says where every lifeline stands.
-/

namespace SequenceChart

/-- A layout, and the places of its lifelines by name. -/
structure Indexed (α : Type) where
  layout : Layout α
  places : List (String × Nat) := []

namespace Indexed

variable {α : Type}

/-- The table gives the place of every lifeline, and of no other name. -/
def Consistent (x : Indexed α) : Prop :=
  ∀ name, x.places.lookup name = x.layout.lifelineIndex? name

/-- The place of the lifeline of a name, which is added and entered if the table has none. -/
def lifelineFor (x : Indexed α) (name : String) : Nat × Indexed α :=
  match x.places.lookup name with
  | some i => (i, x)
  | none =>
    let i := x.layout.lifelines.length
    (i,
      { layout := { x.layout with lifelines := x.layout.lifelines ++ [{ name }] }
        places := x.places ++ [(name, i)] })

/-- Looking up a name in the table is looking for the lifeline, and the table stays as it should. -/
theorem Consistent.lifelineFor {x : Indexed α} (h : x.Consistent) (name : String) :
    x.layout.lifelineFor name = ((x.lifelineFor name).1, (x.lifelineFor name).2.layout) ∧
      (x.lifelineFor name).2.Consistent := by
  unfold Indexed.lifelineFor Layout.lifelineFor
  rw [← h name]
  cases hplace : x.places.lookup name with
  | some i => exact ⟨rfl, h⟩
  | none =>
    refine ⟨rfl, ?_⟩
    intro other
    have hold := h other
    rw [Layout.lifelineIndex?] at hold
    simp only [Layout.lifelineIndex?, List.lookup_append, List.findIdx?_append, hold]
    by_cases hother : other = name
    · simp [hother]
    · have hne : (other == name) = false := beq_eq_false_iff_ne.2 hother
      have hne' : ¬name = other := fun he => hother he.symm
      simp [List.lookup_cons, hne, hne']

/-- The table says which lifeline is found by its name. -/
theorem Consistent.lifeline?_eq {x : Indexed α} (h : x.Consistent) (name : String) :
    x.layout.lifeline? name = (x.places.lookup name).bind fun i => x.layout.lifelines[i]? := by
  rw [h name, Layout.lifelineIndex?, Layout.lifeline?]
  induction x.layout.lifelines with
  | nil => rfl
  | cons line rest ih =>
    rw [List.find?_cons, List.findIdx?_cons]
    by_cases hline : line.name = name
    · simp [hline]
    · simp only [hline, decide_false, ih, Option.bind_map, Bool.false_eq_true, if_false]
      rfl

variable [Measure α] {settings : Settings α} {resolve : String → String}

/-- Lays out one more signal, its ends looked up in the table. -/
def place (settings : Settings α) (resolve : String → String) (x : Indexed α) (s : Signal) :
    Except (Halted (Shrinking α) (Layout α)) (Indexed α) :=
  let source := x.lifelineFor (resolve s.source)
  let target := source.2.lifelineFor (resolve s.target)
  (Layout.draw settings s source.1 target.1 target.2.layout).map fun layout =>
    { target.2 with layout }

/-- The layout of a chart made with a table, and the table. -/
def ofChart (settings : Settings α) (c : Chart) :
    Except (Halted (Shrinking α) (Layout α)) (Indexed α) :=
  c.topSignals.foldlM (place settings c.resolve) { layout := Layout.empty }

theorem consistent_empty : ({ layout := Layout.empty } : Indexed α).Consistent :=
  fun _ => rfl

/-- A signal is placed with the table as it is without, and the table stays as it should. -/
theorem Consistent.place {x : Indexed α} (h : x.Consistent) {s : Signal} {l : Layout α}
    (hplace : Layout.place settings resolve x.layout s = .ok l) :
    ∃ places, x.place settings resolve s = .ok ⟨l, places⟩ ∧ Consistent ⟨l, places⟩ := by
  obtain ⟨hsource, h₁⟩ := h.lifelineFor (resolve s.source)
  generalize hfound₁ : x.lifelineFor (resolve s.source) = source at hsource h₁
  obtain ⟨htarget, h₂⟩ := h₁.lifelineFor (resolve s.target)
  generalize hfound₂ : source.2.lifelineFor (resolve s.target) = target at htarget h₂
  have hdraw : Layout.draw settings s source.1 target.1 target.2.layout = .ok l := by
    rw [Layout.place_eq_draw, hsource] at hplace
    dsimp only at hplace
    rwa [htarget] at hplace
  refine ⟨target.2.places, ?_, ?_⟩
  · simp only [Indexed.place, hfound₁, hfound₂, hdraw]
    rfl
  · intro name
    have hnames := Layout.names_draw settings s source.1 target.1 target.2.layout
    rw [hdraw] at hnames
    show target.2.places.lookup name = l.lifelineIndex? name
    rw [h₂ name, Layout.lifelineIndex?_eq_findIdx?, Layout.lifelineIndex?_eq_findIdx?]
    exact congrArg _ hnames.symm

/-- A pass that goes through goes through with a table, which gives the places in the end. -/
theorem Consistent.run {x : Indexed α} (h : x.Consistent) {signals : List Signal} {l : Layout α}
    (hrun : signals.foldlM (Layout.place settings resolve) x.layout = .ok l) :
    ∃ places, signals.foldlM (Indexed.place settings resolve) x = .ok ⟨l, places⟩ ∧
      Consistent ⟨l, places⟩ := by
  induction signals generalizing x with
  | nil =>
    cases hrun
    exact ⟨x.places, rfl, h⟩
  | cons s signals ih =>
    rw [List.foldlM_cons] at hrun ⊢
    obtain ⟨next, hplace, hrest⟩ := Halted.bind_eq_ok hrun
    obtain ⟨places, hindexed, hnext⟩ := h.place hplace
    rw [hindexed]
    exact ih hnext hrest

/-- The layout of a chart is the one that is made with a table. -/
theorem exists_ofChart {c : Chart} {l : Layout α} (h : Layout.ofChart settings c = .ok l) :
    ∃ places, ofChart settings c = .ok ⟨l, places⟩ ∧ Consistent ⟨l, places⟩ :=
  consistent_empty.run h

end Indexed

end SequenceChart
