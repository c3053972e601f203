import SequenceChart.Proofs.Chart.Renamed
import SequenceChart.Proofs.Geometry.Names
set_option autoImplicit false

/-!
# Layouts of renamed charts

A layout asks of names only whether they are equal.  Main statement: if a renaming keeps the names
of a chart apart, then the layout of the renamed chart is the layout of the chart with its lifelines
renamed, and it halts where that one halts and for the same cause.
-/

namespace SequenceChart

/-- A run with the state that it reaches, or in which it halts, changed. -/
def Halted.mapState {ε σ τ : Type} (f : σ → τ) : Except (Halted ε σ) σ → Except (Halted ε τ) τ
  | .ok s => .ok (f s)
  | .error halt => .error ⟨halt.cause, f halt.left⟩

/-- If each step of a run may be taken before or after a change of the state, so may the run. -/
theorem Halted.mapState_bind {ε σ τ : Type} {f : σ → τ} {x : Except (Halted ε σ) σ}
    {g : σ → Except (Halted ε σ) σ} {g' : τ → Except (Halted ε τ) τ}
    (h : ∀ s, x = .ok s → g' (f s) = mapState f (g s)) :
    mapState f x >>= g' = mapState f (x >>= g) := by
  cases x with
  | error halt => rfl
  | ok s => exact h s rfl

/-- The lifeline under another name. -/
def Lifeline.rename {α : Type} (f : String → String) (line : Lifeline α) : Lifeline α :=
  { line with name := f line.name }

namespace Layout

open Halted

/-- The layout with its lifelines under other names. -/
def rename {α : Type} (f : String → String) (l : Layout α) : Layout α :=
  { l with lifelines := l.lifelines.map (Lifeline.rename f) }

variable {α : Type} {f : String → String} {l : Layout α}

theorem names_rename (l : Layout α) : (l.rename f).names = l.names.map f := by
  rw [names, names, rename, List.map_map, List.map_map]
  rfl

/-- The first place of a name is that of its other name. -/
theorem findIdx?_map {names : List String} {name : String}
    (hf : Set.InjOn f {n | n = name ∨ n ∈ names}) :
    (names.map f).findIdx? (fun other => other = f name)
      = names.findIdx? fun other => other = name := by
  induction names with
  | nil => rfl
  | cons first rest ih =>
    have hrest := ih (hf.mono fun n hn => hn.imp_right (List.mem_cons_of_mem first))
    rw [List.map_cons, List.findIdx?_cons, List.findIdx?_cons, hrest]
    by_cases hname : first = name
    · simp [hname]
    · have hne : ¬f first = f name := fun he => hname (hf (.inr List.mem_cons_self) (.inl rfl) he)
      simp [hname, hne]

/-- A lifeline is looked up, or added, alike under its other name. -/
theorem lifelineFor_rename {name : String} (hf : Set.InjOn f {n | n = name ∨ n ∈ l.names}) :
    (l.rename f).lifelineFor (f name)
      = ((l.lifelineFor name).1, (l.lifelineFor name).2.rename f) := by
  have hindex : (l.rename f).lifelineIndex? (f name) = l.lifelineIndex? name := by
    rw [lifelineIndex?_eq_findIdx?, lifelineIndex?_eq_findIdx?, names_rename]
    exact findIdx?_map hf
  unfold lifelineFor
  rw [hindex]
  cases l.lifelineIndex? name with
  | some i => rfl
  | none => simp [rename, Lifeline.rename]

theorem modifyLifeline_rename (i : Nat) {g : Lifeline α → Lifeline α}
    (hg : ∀ line, g (line.rename f) = (g line).rename f) :
    (l.rename f).modifyLifeline i g = (l.modifyLifeline i g).rename f := by
  have hlines : (l.lifelines.map (Lifeline.rename f)).modify i g
      = (l.lifelines.modify i g).map (Lifeline.rename f) := by
    apply List.ext_getElem?
    intro j
    simp only [List.getElem?_modify, List.getElem?_map]
    cases l.lifelines[j]? with
    | none => rfl
    | some line => split <;> simp [hg]
  rw [modifyLifeline, modifyLifeline, rename, hlines]
  rfl

theorem deactivateIf_rename (closes : Bool) (i : Nat) :
    (l.rename f).deactivateIf closes i = (l.deactivateIf closes i).rename f := by
  cases closes with
  | false => rfl
  | true => exact modifyLifeline_rename i fun line => rfl

theorem anchorAt_rename (i : Nat) : (l.rename f).anchorAt i = l.anchorAt i := by
  have hbox : (l.rename f).activeBox i = l.activeBox i := by
    rw [activeBox, activeBox, rename, List.getElem?_map]
    cases l.lifelines[i]? <;> rfl
  rw [anchorAt, anchorAt, hbox]
  rfl

variable [Measure α]

theorem activateIf_rename (settings : Settings α) (opens : Bool) (i : Nat) :
    (l.rename f).activateIf settings opens i = (l.activateIf settings opens i).rename f := by
  cases opens with
  | false => rfl
  | true => exact modifyLifeline_rename i fun line => rfl

theorem growLifelines_rename (amount : α) (lines : List (Lifeline α)) :
    growLifelines amount (lines.map (Lifeline.rename f))
      = mapState (List.map (Lifeline.rename f)) (growLifelines amount lines) := by
  induction lines with
  | nil => rfl
  | cons line rest ih =>
    have hline : (line.rename f).grow amount = mapState (Lifeline.rename f) (line.grow amount) := by
      unfold Lifeline.grow
      rw [show (line.rename f).openBoxes = line.openBoxes from rfl]
      rw [show (line.rename f).boxes = line.boxes from rfl]
      cases Lifeline.growBoxes amount line.openBoxes line.boxes <;> rfl
    rw [List.map_cons, growLifelines, growLifelines, hline, ih]
    cases line.grow amount with
    | error halt => rfl
    | ok line => cases growLifelines amount rest <;> rfl

theorem grow_rename (amount : α) :
    (l.rename f).grow amount = mapState (rename f) (l.grow amount) := by
  rw [grow, grow, rename, growLifelines_rename]
  cases Measure.isZero amount with
  | true => rfl
  | false => cases growLifelines amount l.lifelines <;> rfl

/-- A signal between renamed ends is drawn alike, if its ends are written alike as before. -/
theorem draw_rename (settings : Settings α) {s : Signal}
    (hself : (s.rename f).isSelfSignal = s.isSelfSignal) (source target : Nat) :
    draw settings (s.rename f) source target (l.rename f)
      = mapState (rename f) (draw settings s source target l) := by
  have hloop : loop settings (s.rename f) = loop settings s := by rw [loop, loop, hself]
  unfold draw
  rw [grow_rename, hloop]
  refine mapState_bind fun l₁ _ => ?_
  dsimp only
  rw [show (s.rename f).deactivates = s.deactivates from rfl, deactivateIf_rename, grow_rename]
  refine mapState_bind fun l₂ _ => ?_
  rw [show (s.rename f).activates = s.activates from rfl, activateIf_rename, grow_rename]
  refine mapState_bind fun l₃ _ => ?_
  rw [anchorAt_rename, anchorAt_rename]
  rfl

section Chart

variable {c : Chart} (h : c.KeptApart f) (settings : Settings α)

include h

/-- One signal: both ends are looked up under their other names. -/
theorem place_rename {s : Signal} (hs : s ∈ c.topSignals) (hl : ∀ name ∈ l.names, name ∈ c.names) :
    place settings (c.rename f).resolve (l.rename f) (s.rename f)
      = mapState (rename f) (place settings c.resolve l s) := by
  obtain ⟨hsource, htarget⟩ := Chart.mem_names_of_topSignals hs
  have hkept {l : Layout α} (hl : ∀ name ∈ l.names, name ∈ c.names) {name : String}
      (hname : name ∈ c.names) : Set.InjOn f {n | n = name ∨ n ∈ l.names} := by
    refine h.mono ?_
    rintro n (rfl | hn)
    · exact hname
    · exact hl n hn
  have hfound : ∀ name ∈ (l.lifelineFor (c.resolve s.source)).2.names, name ∈ c.names := by
    intro name hname
    rw [names_lifelineFor, mem_noted] at hname
    rcases hname with hold | rfl
    · exact hl name hold
    · exact Chart.resolve_mem_names hsource
  have hself : (s.rename f).isSelfSignal = s.isSelfSignal :=
    decide_eq_decide.2 ⟨fun he => h hsource htarget he, congrArg f⟩
  rw [place_eq_draw, place_eq_draw]
  dsimp only [Signal.rename]
  rw [h.resolve_rename hsource, h.resolve_rename htarget,
    lifelineFor_rename (hkept hl (Chart.resolve_mem_names hsource))]
  dsimp only
  rw [lifelineFor_rename (hkept hfound (Chart.resolve_mem_names htarget))]
  exact draw_rename settings hself _ _

theorem run_rename {signals : List Signal} (hs : ∀ s ∈ signals, s ∈ c.topSignals)
    (hl : ∀ name ∈ l.names, name ∈ c.names) :
    (signals.map (Signal.rename f)).foldlM (place settings (c.rename f).resolve) (l.rename f)
      = mapState (rename f) (signals.foldlM (place settings c.resolve) l) := by
  induction signals generalizing l with
  | nil => rfl
  | cons s rest ih =>
    obtain ⟨hfirst, hrest⟩ := List.forall_mem_cons.1 hs
    rw [List.map_cons, List.foldlM_cons, List.foldlM_cons, place_rename h settings hfirst hl]
    refine mapState_bind fun next hnext => ih hrest ?_
    -- The lifelines after a signal are named as those before it and as its ends.
    have hnames := names_place settings c.resolve l s
    rw [hnext] at hnames
    intro name hname
    rw [show next.names = _ from hnames, mem_noted, mem_noted] at hname
    obtain ⟨hsource, htarget⟩ := Chart.mem_names_of_topSignals hfirst
    rcases hname with (hold | rfl) | rfl
    · exact hl name hold
    · exact Chart.resolve_mem_names hsource
    · exact Chart.resolve_mem_names htarget

end Chart

end Layout

/-- The layout of a chart renamed without making two of its names one is the layout of the chart
with its lifelines renamed; where that one halts, this one does, for the same cause. -/
theorem ofChart_rename {α : Type} [Measure α] {c : Chart} {f : String → String}
    (h : c.KeptApart f) (settings : Settings α) :
    Layout.ofChart settings (c.rename f)
      = Halted.mapState (Layout.rename f) (Layout.ofChart settings c) := by
  rw [Layout.ofChart, Chart.topSignals_rename]
  have hnone : ∀ name ∈ (Layout.empty : Layout α).names, name ∈ c.names :=
    fun name hname => by cases hname
  exact Layout.run_rename h settings (fun _ hs => hs) hnone

/-- The renaming exchanges an alias, which is also the name of a participant, with the name behind
it, and keeps apart only the names of the chart. -/
theorem ofChart_rename_exchanged :
    ∃ (c : Chart) (f : String → String), c.KeptApart f ∧ f "x" = f "y" ∧
      Layout.ofChart (α := Rat) ⟨16, 32, 8⟩ (c.rename f)
        = Halted.mapState (Layout.rename f) (Layout.ofChart ⟨16, 32, 8⟩ c) ∧
      ((Layout.ofChart (α := Rat) ⟨16, 32, 8⟩ c).toOption.map Layout.lifelines) =
        some [⟨"b", [⟨36, 32, 16, 0⟩], [0]⟩] ∧
      ((Layout.ofChart (α := Rat) ⟨16, 32, 8⟩ (c.rename f)).toOption.map Layout.lifelines) =
        some [⟨"a", [⟨36, 32, 16, 0⟩], [0]⟩] := by
  let inner : Signal := { source := "c", target := "a", head := some .open_ }
  let self : Signal := { source := "a", target := "a", head := some .closed, activates := true }
  let c : Chart :=
    { statements := [.block ⟨.opt, none, [.signal inner]⟩, .signal self]
      participants := (Table.empty.insert "a" "entity").insert "b" "entity"
      aliases := Table.empty.insert "a" "b" }
  let f (name : String) : String := if name = "a" then "b" else if name = "b" then "a" else "c"
  have hapart : ∀ x ∈ c.names, ∀ y ∈ c.names, f x = f y → x = y := by decide +kernel
  have hkept : c.KeptApart f := fun x hx y hy he => hapart x hx y hy he
  exact ⟨c, f, hkept, by decide +kernel, ofChart_rename hkept ⟨16, 32, 8⟩, by decide +kernel,
    by decide +kernel⟩

end SequenceChart
