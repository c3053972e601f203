import SequenceChart.Geometry.Layout
set_option autoImplicit false

/-!
# The names of the lifelines

Only looking up a lifeline may add one.  Growing, opening and closing boxes keep the names, also in
a step that halts, so every run, halted or not, names its lifelines by the ends of the signals.
-/

namespace SequenceChart

namespace Halted

variable {ε σ α : Type}

/-- The state that a run reached, whether it halted there or not. -/
def reached : Except (Halted ε σ) σ → σ
  | .ok s => s
  | .error halt => halt.left

theorem bind_eq_ok {x : Except (Halted ε σ) σ} {f : σ → Except (Halted ε σ) σ} {b : σ}
    (h : x >>= f = .ok b) : ∃ a, x = .ok a ∧ f a = .ok b := by
  cases x with
  | error halt => cases h
  | ok a => exact ⟨a, rfl, h⟩

theorem reached_bind {P : σ → Prop} {x : Except (Halted ε σ) σ} {f : σ → Except (Halted ε σ) σ}
    (hx : P (reached x)) (hf : ∀ s, P s → P (reached (f s))) : P (reached (x >>= f)) := by
  cases x with
  | error halt => exact hx
  | ok s => exact hf s hx

/-- What every step keeps, halted or not, holds at the end of a run. -/
theorem reached_foldlM {P : σ → Prop} {f : σ → α → Except (Halted ε σ) σ} {xs : List α}
    (hf : ∀ s, ∀ x ∈ xs, P s → P (reached (f s x))) {s : σ} (hs : P s) :
    P (reached (xs.foldlM f s)) := by
  induction xs generalizing s with
  | nil => exact hs
  | cons x xs ih =>
    rw [List.foldlM_cons]
    refine reached_bind (hf s x List.mem_cons_self hs) ?_
    intro s' hs'
    exact ih (fun t y hy => hf t y (List.mem_cons_of_mem x hy)) hs'

end Halted

namespace Layout

open Halted

variable {α : Type}

/-- Closes the innermost open box of a lifeline, or leaves it open. -/
def deactivateIf (l : Layout α) (closes : Bool) (i : Nat) : Layout α :=
  if closes then l.modifyLifeline i Lifeline.deactivate else l

/-- The names of the lifelines in the order of their first signal. -/
def names (l : Layout α) : List String := l.lifelines.map Lifeline.name

/-- Some names with another one at the end, unless it is among them. -/
def noted (names : List String) (name : String) : List String :=
  if name ∈ names then names else names ++ [name]

theorem mem_noted {names : List String} {name other : String} :
    other ∈ noted names name ↔ other ∈ names ∨ other = name := by
  unfold noted
  split
  · next h =>
    constructor
    · exact Or.inl
    · rintro (hold | rfl)
      · exact hold
      · exact h
  · rw [List.mem_append, List.mem_singleton]

theorem lifelineIndex?_eq_findIdx? (l : Layout α) (name : String) :
    l.lifelineIndex? name = l.names.findIdx? fun other => other = name := by
  rw [names, List.findIdx?_map]
  rfl

theorem lifelineFor_of_mem {l : Layout α} {name : String} (h : name ∈ l.names) :
    l.lifelineFor name = (l.names.idxOf name, l) := by
  have hindex : l.lifelineIndex? name = some (l.names.idxOf name) := by
    rw [lifelineIndex?_eq_findIdx?, List.findIdx?_eq_some_iff_findIdx_eq]
    exact ⟨List.idxOf_lt_length_of_mem h, rfl⟩
  rw [lifelineFor, hindex]

theorem lifelineFor_of_not_mem {l : Layout α} {name : String} (h : name ∉ l.names) :
    l.lifelineFor name
      = (l.names.length, { l with lifelines := l.lifelines ++ [{ name }] }) := by
  have hindex : l.lifelineIndex? name = none := by
    rw [lifelineIndex?_eq_findIdx?, List.findIdx?_eq_none_iff]
    intro other hother
    exact decide_eq_false fun he => h (he ▸ hother)
  rw [lifelineFor, hindex, names, List.length_map]

theorem names_lifelineFor (l : Layout α) (name : String) :
    (l.lifelineFor name).2.names = noted l.names name := by
  unfold noted
  split
  · next h => rw [lifelineFor_of_mem h]
  · next h =>
    rw [lifelineFor_of_not_mem h]
    exact List.map_append

theorem nodup_noted {names : List String} (h : names.Nodup) (name : String) :
    (noted names name).Nodup := by
  unfold noted
  split
  · exact h
  · next hnot =>
    rw [List.nodup_append]
    refine ⟨h, List.nodup_cons.2 ⟨List.not_mem_nil, List.nodup_nil⟩, ?_⟩
    intro a ha b hb hab
    rw [List.mem_singleton.1 hb] at hab
    exact hnot (hab ▸ ha)

theorem idxOf_noted {names : List String} {name : String} (h : name ∈ names) (other : String) :
    (noted names other).idxOf name = names.idxOf name := by
  unfold noted
  split
  · rfl
  · rw [List.idxOf_append, if_pos h]

theorem lifelineFor_fst (l : Layout α) (name : String) :
    (l.lifelineFor name).1 = (l.lifelineFor name).2.names.idxOf name := by
  by_cases h : name ∈ l.names
  · rw [lifelineFor_of_mem h]
  · rw [names_lifelineFor, noted, if_neg h, lifelineFor_of_not_mem h, List.idxOf_append, if_neg h]
    simp

theorem modify_idxOf {lines : List (Lifeline α)} (h : (lines.map Lifeline.name).Nodup)
    (name : String) (f : Lifeline α → Lifeline α) :
    lines.modify ((lines.map Lifeline.name).idxOf name) f
      = lines.map fun line => if line.name = name then f line else line := by
  induction lines with
  | nil => rfl
  | cons line rest ih =>
    obtain ⟨hline, hrest⟩ := List.nodup_cons.1 h
    rw [List.map_cons, List.map_cons, List.idxOf_cons]
    by_cases heq : line.name = name
    · have hothers : rest.map (fun line => if line.name = name then f line else line) = rest := by
        refine (List.map_congr_left ?_).trans (List.map_id rest)
        intro other hother
        have hne : other.name ≠ name := fun he =>
          hline (heq.trans he.symm ▸ List.mem_map_of_mem hother)
        rw [if_neg hne, id]
      simp [heq, hothers]
    · have hne : (line.name == name) = false := beq_eq_false_iff_ne.2 heq
      rw [hne, cond_false, List.modify_succ_cons, ih hrest, if_neg heq]

theorem names_modifyLifeline (l : Layout α) (i : Nat) {f : Lifeline α → Lifeline α}
    (hf : ∀ line, (f line).name = line.name) : (l.modifyLifeline i f).names = l.names := by
  have hmap : (l.lifelines.modify i f).map Lifeline.name = l.lifelines.map Lifeline.name := by
    apply List.ext_getElem?
    intro j
    rw [List.getElem?_map, List.getElem?_map, List.getElem?_modify]
    cases l.lifelines[j]? with
    | none => rfl
    | some line =>
      by_cases hij : i = j
      · simp [hij, hf]
      · simp [hij]
  exact hmap

theorem names_deactivateIf (l : Layout α) (closes : Bool) (i : Nat) :
    (l.deactivateIf closes i).names = l.names := by
  cases closes with
  | false => rfl
  | true => exact names_modifyLifeline l i fun line => rfl

variable [Measure α]

/-- Opens a box of a lifeline at the cursor, or opens none. -/
def activateIf (settings : Settings α) (l : Layout α) (opens : Bool) (i : Nat) : Layout α :=
  if opens then
    l.modifyLifeline i fun line => line.activate l.height settings.boxWidth settings.boxInset
  else l

/-- The height of the loop of a signal, if it has one. -/
def loop (settings : Settings α) (s : Signal) : α :=
  if s.isSelfSignal then settings.loopHeight else Measure.zero

/-- Draws a signal between the lifelines at two places: three growths stand around the two changes
of the open boxes. -/
def draw (settings : Settings α) (s : Signal) (source target : Nat) (l : Layout α) :
    Except (Halted (Shrinking α) (Layout α)) (Layout α) :=
  l.grow settings.topMargin >>= fun l₁ =>
  (l₁.deactivateIf s.deactivates source).grow (loop settings s) >>= fun l₂ =>
  let l₂ := l₂.activateIf settings s.activates target
  l₂.grow settings.bottomMargin >>= fun l₃ =>
  .ok { l₃ with
    arrows := l₃.arrows ++ [⟨l₁.anchorAt source, l₂.anchorAt target, s.message, s.dotted⟩] }

/-- A signal is placed by looking up its ends and drawing it between them. -/
theorem place_eq_draw (settings : Settings α) (resolve : String → String) (l : Layout α)
    (s : Signal) :
    place settings resolve l s =
      let source := l.lifelineFor (resolve s.source)
      let target := source.2.lifelineFor (resolve s.target)
      draw settings s source.1 target.1 target.2 :=
  rfl

/-- Placing a signal in its steps: the ends are looked up, then three growths stand around the two
changes of the open boxes. -/
theorem place_eq (settings : Settings α) (resolve : String → String) (l : Layout α) (s : Signal) :
    place settings resolve l s =
      let source := l.lifelineFor (resolve s.source)
      let target := source.2.lifelineFor (resolve s.target)
      target.2.grow settings.topMargin >>= fun l₁ =>
      (l₁.deactivateIf s.deactivates source.1).grow (loop settings s) >>= fun l₂ =>
      let l₂ := l₂.activateIf settings s.activates target.1
      l₂.grow settings.bottomMargin >>= fun l₃ =>
      .ok { l₃ with
        arrows := l₃.arrows
          ++ [⟨l₁.anchorAt source.1, l₂.anchorAt target.1, s.message, s.dotted⟩] } :=
  rfl

theorem name_grow (line : Lifeline α) (amount : α) :
    (reached (line.grow amount)).name = line.name := by
  unfold Lifeline.grow
  split <;> rfl

theorem names_growLifelines (amount : α) (lines : List (Lifeline α)) :
    (reached (growLifelines amount lines)).map Lifeline.name = lines.map Lifeline.name := by
  induction lines with
  | nil => rfl
  | cons line rest ih =>
    have hname := name_grow line amount
    unfold growLifelines
    cases hline : line.grow amount with
    | error halt =>
      rw [hline] at hname
      exact congrArg (· :: rest.map Lifeline.name) hname
    | ok grown =>
      rw [hline] at hname
      cases hrest : growLifelines amount rest with
      | error halt =>
        rw [hrest] at ih
        exact List.cons_eq_cons.2 ⟨hname, ih⟩
      | ok lines =>
        rw [hrest] at ih
        exact List.cons_eq_cons.2 ⟨hname, ih⟩

theorem names_grow (l : Layout α) (amount : α) : (reached (l.grow amount)).names = l.names := by
  unfold grow
  split
  · rfl
  · have hlines := names_growLifelines amount l.lifelines
    cases h : growLifelines amount l.lifelines with
    | error halt => rwa [h] at hlines
    | ok lines => rwa [h] at hlines

theorem names_activateIf (settings : Settings α) (l : Layout α) (opens : Bool) (i : Nat) :
    (l.activateIf settings opens i).names = l.names := by
  cases opens with
  | false => rfl
  | true => exact names_modifyLifeline l i fun line => rfl

/-- Drawing a signal keeps the names, whether or not it halts. -/
theorem names_draw (settings : Settings α) (s : Signal) (source target : Nat) (l : Layout α) :
    (reached (draw settings s source target l)).names = l.names := by
  let Kept : Layout α → Prop := fun l' => l'.names = l.names
  refine reached_bind (P := Kept) (names_grow _ _) fun l₁ (h₁ : l₁.names = _) => ?_
  refine reached_bind (P := Kept) ?_ fun l₂ (h₂ : l₂.names = _) => ?_
  · exact (names_grow _ _).trans ((names_deactivateIf _ _ _).trans h₁)
  refine reached_bind (P := Kept) ?_ fun l₃ h₃ => h₃
  exact (names_grow _ _).trans ((names_activateIf _ _ _ _).trans h₂)

/-- Placing a signal notes its ends, whether or not it halts. -/
theorem names_place (settings : Settings α) (resolve : String → String) (l : Layout α)
    (s : Signal) :
    (reached (place settings resolve l s)).names
      = noted (noted l.names (resolve s.source)) (resolve s.target) := by
  rw [place_eq_draw, ← names_lifelineFor, ← names_lifelineFor]
  exact names_draw settings s _ _ _

/-- Every lifeline of a run, halted or not, is named by an end of one of the signals. -/
theorem names_ofChart (settings : Settings α) (c : Chart) :
    ∀ name ∈ (reached (ofChart settings c)).names,
      ∃ s ∈ c.topSignals, name = c.resolve s.source ∨ name = c.resolve s.target := by
  let Ends : Layout α → Prop := fun l => ∀ name ∈ l.names,
    ∃ s ∈ c.topSignals, name = c.resolve s.source ∨ name = c.resolve s.target
  have hempty : Ends Layout.empty := fun name hname => by cases hname
  refine reached_foldlM (P := Ends) ?_ hempty
  intro l s hs hl name hname
  rw [names_place, mem_noted, mem_noted] at hname
  rcases hname with (hold | hsource) | htarget
  · exact hl name hold
  · exact ⟨s, hs, .inl hsource⟩
  · exact ⟨s, hs, .inr htarget⟩

end Layout

end SequenceChart
