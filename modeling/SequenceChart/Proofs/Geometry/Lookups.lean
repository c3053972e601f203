import SequenceChart.Proofs.Geometry.Names
set_option autoImplicit false

/-!
# Places that are looked up

A pass may look up every lifeline and every box by its place and stop where there is none.  Main
statement: no such place is missing, so the pass makes the same layout and stops only where a box
would shrink.  Growing, opening and closing boxes keep the open places within the boxes, and looking
for a name gives a place within the lifelines.
-/

namespace SequenceChart

namespace Lookup

/-- Why a pass that looks up places stops. -/
inductive Fault (α : Type) where
  | shrinking (why : Shrinking α)
  | noLifeline (place : Nat)
  | noBox (place : Nat)
  deriving DecidableEq, Repr

section Lookups

variable {α : Type}

/-- The box at a place. -/
def box (boxes : List (Box α)) (i : Nat) : Except (Fault α) (Box α) :=
  match boxes[i]? with
  | some box => .ok box
  | none => .error (.noBox i)

/-- The lifeline at a place. -/
def lifeline (l : Layout α) (i : Nat) : Except (Fault α) (Lifeline α) :=
  match l.lifelines[i]? with
  | some line => .ok line
  | none => .error (.noLifeline i)

/-- Puts a changed lifeline at its place. -/
def put (l : Layout α) (i : Nat) (line : Lifeline α) : Layout α :=
  { l with lifelines := l.lifelines.set i line }

end Lookups

variable {α : Type} [Measure α]

/-- Lengthens the boxes at some places, each of which is looked up. -/
def growBoxes (amount : α) : List Nat → List (Box α) → Except (Fault α) (List (Box α))
  | [], boxes => .ok boxes
  | i :: rest, boxes => do
    let box ← box boxes i
    let box ← (box.grow amount).mapError .shrinking
    growBoxes amount rest (boxes.set i box)

/-- Lengthens the open boxes of lifelines. -/
def growLifelines (amount : α) : List (Lifeline α) → Except (Fault α) (List (Lifeline α))
  | [] => .ok []
  | line :: rest => do
    let boxes ← growBoxes amount line.openBoxes line.boxes
    let rest ← growLifelines amount rest
    return { line with boxes } :: rest

/-- Moves the cursor on. -/
def grow (l : Layout α) (amount : α) : Except (Fault α) (Layout α) :=
  if Measure.isZero amount then .ok l
  else do
    let lifelines ← growLifelines amount l.lifelines
    return { l with lifelines, height := Measure.add l.height amount }

/-- Draws a signal between the lifelines at two places, which are looked up whenever they are
read or changed. -/
def draw (settings : Settings α) (s : Signal) (source target : Nat) (l : Layout α) :
    Except (Fault α) (Layout α) := do
  let l ← grow l settings.topMargin
  let line ← lifeline l source
  let start : Anchor α := ⟨source, line.activeBox, l.height⟩
  let l := if s.deactivates then put l source line.deactivate else l
  let l ← grow l (Layout.loop settings s)
  let line ← lifeline l target
  let l :=
    if s.activates then
      put l target (line.activate l.height settings.boxWidth settings.boxInset)
    else l
  let line ← lifeline l target
  let finish : Anchor α := ⟨target, line.activeBox, l.height⟩
  let l ← grow l settings.bottomMargin
  return { l with arrows := l.arrows ++ [⟨start, finish, s.message, s.dotted⟩] }

/-- Lays out one more signal. -/
def place (settings : Settings α) (resolve : String → String) (l : Layout α) (s : Signal) :
    Except (Fault α) (Layout α) :=
  let source := l.lifelineFor (resolve s.source)
  let target := source.2.lifelineFor (resolve s.target)
  draw settings s source.1 target.1 target.2

/-- The layout of a chart, every place in it looked up. -/
def ofChart (settings : Settings α) (c : Chart) : Except (Fault α) (Layout α) :=
  c.topSignals.foldlM (place settings c.resolve) Layout.empty

end Lookup

/-! ## Open places stay within the boxes -/

namespace Lifeline

variable {α : Type} {line : Lifeline α}

/-- Every open place has a box. -/
def OpenWithin (line : Lifeline α) : Prop := ∀ i ∈ line.openStack, i < line.boxes.length

theorem OpenWithin.deactivate (h : line.OpenWithin) : line.deactivate.OpenWithin :=
  fun i hi => h i (List.mem_of_mem_tail hi)

theorem OpenWithin.activate [Measure α] (h : line.OpenWithin) (start width unit : α) :
    (line.activate start width unit).OpenWithin := by
  intro i hi
  show i < (line.boxes ++ [_]).length
  rw [List.length_append]
  rcases List.mem_cons.1 hi with rfl | hi
  · exact Nat.lt_succ_self _
  · exact Nat.lt_succ_of_lt (h i hi)

end Lifeline

namespace Layout

variable {α : Type} {l : Layout α}

/-- Every open place of every lifeline has a box. -/
def OpenWithin (l : Layout α) : Prop := ∀ line ∈ l.lifelines, line.OpenWithin

theorem openWithin_empty [Measure α] : (empty : Layout α).OpenWithin := nofun

theorem OpenWithin.lifelineFor (h : l.OpenWithin) (name : String) :
    (l.lifelineFor name).2.OpenWithin ∧
      (l.lifelineFor name).1 < (l.lifelineFor name).2.lifelines.length ∧
      l.lifelines.length ≤ (l.lifelineFor name).2.lifelines.length := by
  by_cases hname : name ∈ l.names
  · rw [lifelineFor_of_mem hname]
    have hlt := List.idxOf_lt_length_of_mem hname
    rw [names, List.length_map] at hlt
    exact ⟨h, hlt, Nat.le_refl _⟩
  · rw [lifelineFor_of_not_mem hname, names, List.length_map]
    refine ⟨?_, ?_, ?_⟩
    · intro line hline
      rcases List.mem_append.1 hline with hline | hline
      · exact h line hline
      · rw [List.mem_singleton.1 hline]
        intro i hi
        cases hi
    · rw [List.length_append]
      exact Nat.lt_succ_self _
    · rw [List.length_append]
      exact Nat.le_succ _

theorem OpenWithin.modifyLifeline (h : l.OpenWithin) (i : Nat) {f : Lifeline α → Lifeline α}
    (hf : ∀ line, line.OpenWithin → (f line).OpenWithin) : (l.modifyLifeline i f).OpenWithin := by
  intro line hline
  obtain ⟨j, hj⟩ := List.mem_iff_getElem?.1 hline
  rw [Layout.modifyLifeline, List.getElem?_modify, Option.map_eq_map,
    Option.map_eq_some_iff] at hj
  obtain ⟨old, hold, rfl⟩ := hj
  have hold := h old (List.mem_of_getElem? hold)
  split
  · exact hf old hold
  · exact hold

theorem OpenWithin.deactivateIf (h : l.OpenWithin) (closes : Bool) (i : Nat) :
    (l.deactivateIf closes i).OpenWithin := by
  unfold Layout.deactivateIf
  split
  · exact h.modifyLifeline i fun _ hline => hline.deactivate
  · exact h

theorem OpenWithin.activateIf [Measure α] (h : l.OpenWithin) (settings : Settings α) (opens : Bool)
    (i : Nat) : (l.activateIf settings opens i).OpenWithin := by
  unfold Layout.activateIf
  split
  · exact h.modifyLifeline i fun _ hline => hline.activate _ _ _
  · exact h

theorem length_deactivateIf (l : Layout α) (closes : Bool) (i : Nat) :
    (l.deactivateIf closes i).lifelines.length = l.lifelines.length := by
  unfold deactivateIf
  split
  · exact List.length_modify ..
  · rfl

theorem length_activateIf [Measure α] (settings : Settings α) (l : Layout α) (opens : Bool)
    (i : Nat) : (l.activateIf settings opens i).lifelines.length = l.lifelines.length := by
  unfold activateIf
  split
  · exact List.length_modify ..
  · rfl

end Layout

/-! ## Growing -/

section Growing

variable {α : Type} [Measure α] {amount : α}

namespace Lifeline

theorem length_growBoxes {places : List Nat} {boxes boxes' : List (Box α)}
    (h : growBoxes amount places boxes = .ok boxes') :
    boxes'.length = boxes.length := by
  induction places generalizing boxes with
  | nil =>
    cases h
    rfl
  | cons i places ih =>
    rw [growBoxes] at h
    split at h
    · exact ih h
    · split at h
      · cases h
      · exact (ih h).trans List.length_set

/-- Growing keeps the number of boxes and which of them are open. -/
theorem OpenWithin.grow {line line' : Lifeline α} (h : line.OpenWithin)
    (hgrow : line.grow amount = .ok line') : line'.OpenWithin := by
  rw [Lifeline.grow] at hgrow
  split at hgrow
  · cases hgrow
  · next boxes hboxes =>
    cases hgrow
    intro i hi
    show i < boxes.length
    rw [length_growBoxes hboxes]
    exact h i hi

end Lifeline

namespace Layout

theorem growLifelines_openWithin {lines lines' : List (Lifeline α)}
    (h : ∀ line ∈ lines, line.OpenWithin) (hgrow : growLifelines amount lines = .ok lines') :
    lines'.length = lines.length ∧ ∀ line ∈ lines', line.OpenWithin := by
  induction lines generalizing lines' with
  | nil =>
    cases hgrow
    exact ⟨rfl, nofun⟩
  | cons line rest ih =>
    obtain ⟨hline, hrest⟩ := List.forall_mem_cons.1 h
    rw [growLifelines] at hgrow
    split at hgrow
    · cases hgrow
    · next grown hgrown =>
      split at hgrow
      · cases hgrow
      · next more hmore =>
        cases hgrow
        obtain ⟨hlength, hmem⟩ := ih hrest hmore
        exact ⟨congrArg Nat.succ hlength, List.forall_mem_cons.2 ⟨hline.grow hgrown, hmem⟩⟩

theorem OpenWithin.grow {l l' : Layout α} (h : l.OpenWithin) (hgrow : l.grow amount = .ok l') :
    l'.OpenWithin ∧ l'.lifelines.length = l.lifelines.length := by
  rw [Layout.grow] at hgrow
  split at hgrow
  · cases hgrow
    exact ⟨h, rfl⟩
  · split at hgrow
    · cases hgrow
    · next lines hlines =>
      cases hgrow
      obtain ⟨hlength, hmem⟩ := growLifelines_openWithin h hlines
      exact ⟨hmem, hlength⟩

/-- A signal that is drawn leaves the open places within the boxes. -/
theorem OpenWithin.draw {settings : Settings α} {s : Signal} {source target : Nat}
    {l l' : Layout α} (h : l.OpenWithin) (hdraw : draw settings s source target l = .ok l') :
    l'.OpenWithin := by
  obtain ⟨l₁, h₁, hdraw⟩ := Halted.bind_eq_ok hdraw
  obtain ⟨l₂, h₂, hdraw⟩ := Halted.bind_eq_ok hdraw
  obtain ⟨l₃, h₃, hdraw⟩ := Halted.bind_eq_ok hdraw
  cases hdraw
  have hclosed := (h.grow h₁).1.deactivateIf s.deactivates source
  have hopened := (hclosed.grow h₂).1.activateIf settings s.activates target
  exact (hopened.grow h₃).1

theorem OpenWithin.place {settings : Settings α} {resolve : String → String} {s : Signal}
    {l l' : Layout α} (h : l.OpenWithin) (hplace : place settings resolve l s = .ok l') :
    l'.OpenWithin :=
  ((h.lifelineFor _).1.lifelineFor _).1.draw hplace

end Layout

end Growing

namespace Lookup

variable {α β σ τ : Type}

/-- A pass that halts stops where a box would shrink. -/
def stopped (halt : Halted (Shrinking α) σ) : Fault α := .shrinking halt.cause

/-- A pass and one that looks places up go on alike if each of their steps does. -/
theorem bind_eq_mapError {x : Except (Fault α) β} {y : Except (Halted (Shrinking α) σ) β}
    {f : β → Except (Fault α) τ} {g : β → Except (Halted (Shrinking α) σ) τ}
    (hx : x = y.mapError stopped) (hf : ∀ b, y = .ok b → f b = (g b).mapError stopped) :
    x >>= f = (y >>= g).mapError stopped := by
  subst hx
  cases y with
  | error halt => rfl
  | ok b => exact hf b rfl

variable [Measure α] {amount : α}

/-- Boxes at places within them are all found. -/
theorem growBoxes_eq {places : List Nat} {boxes : List (Box α)}
    (h : ∀ i ∈ places, i < boxes.length) :
    growBoxes amount places boxes = (Lifeline.growBoxes amount places boxes).mapError stopped := by
  induction places generalizing boxes with
  | nil => rfl
  | cons i places ih =>
    obtain ⟨hi, hplaces⟩ := List.forall_mem_cons.1 h
    have hbox : box boxes i = .ok boxes[i] := by rw [box, List.getElem?_eq_getElem hi]
    rw [growBoxes, Lifeline.growBoxes, hbox, List.getElem?_eq_getElem hi]
    show (boxes[i].grow amount).mapError Fault.shrinking >>= (fun box =>
      growBoxes amount places (boxes.set i box)) = _
    dsimp only
    cases hgrow : boxes[i].grow amount with
    | error cause => rfl
    | ok grown =>
      refine ih fun j hj => ?_
      rw [List.length_set]
      exact hplaces j hj

theorem growLifelines_eq {lines : List (Lifeline α)} (h : ∀ line ∈ lines, line.OpenWithin) :
    growLifelines amount lines = (Layout.growLifelines amount lines).mapError stopped := by
  induction lines with
  | nil => rfl
  | cons line rest ih =>
    obtain ⟨hline, hrest⟩ := List.forall_mem_cons.1 h
    have hopen : ∀ i ∈ line.openBoxes, i < line.boxes.length := fun i hi =>
      hline i (List.mem_reverse.1 hi)
    rw [growLifelines, Layout.growLifelines, Lifeline.grow, growBoxes_eq hopen, ih hrest]
    cases Lifeline.growBoxes amount line.openBoxes line.boxes with
    | error halt => rfl
    | ok boxes => cases Layout.growLifelines amount rest <;> rfl

theorem grow_eq {l : Layout α} (h : l.OpenWithin) (amount : α) :
    grow l amount = (l.grow amount).mapError stopped := by
  rw [grow, Layout.grow, growLifelines_eq h]
  cases Measure.isZero amount with
  | true => rfl
  | false => cases Layout.growLifelines amount l.lifelines <;> rfl

/-! ## Signals -/

section Places

variable {α : Type} {l : Layout α} {i : Nat} (h : i < l.lifelines.length)

include h

theorem lifeline_eq : lifeline l i = .ok l.lifelines[i] := by
  rw [lifeline, List.getElem?_eq_getElem h]

theorem put_eq (f : Lifeline α → Lifeline α) :
    put l i (f l.lifelines[i]) = l.modifyLifeline i f := by
  have hset : l.lifelines.set i (f l.lifelines[i]) = l.lifelines.modify i f := by
    rw [List.modify_eq_take_cons_drop h, List.set_eq_take_append_cons_drop, if_pos h]
  rw [put, hset]
  rfl

theorem anchorAt_eq : l.anchorAt i = ⟨i, l.lifelines[i].activeBox, l.height⟩ := by
  rw [Layout.anchorAt, Layout.activeBox, List.getElem?_eq_getElem h]
  rfl

theorem closed_eq (closes : Bool) :
    (if closes then put l i l.lifelines[i].deactivate else l) = l.deactivateIf closes i := by
  rw [Layout.deactivateIf, ← put_eq h]

theorem opened_eq [Measure α] (settings : Settings α) (opens : Bool) :
    (if opens then
        put l i (l.lifelines[i].activate l.height settings.boxWidth settings.boxInset)
      else l) = l.activateIf settings opens i := by
  rw [Layout.activateIf, ← put_eq h]

end Places

/-- The lifelines between which a signal is drawn are found whenever they are looked up. -/
theorem draw_eq {settings : Settings α} {s : Signal} {source target : Nat} {l : Layout α}
    (h : l.OpenWithin) (hsource : source < l.lifelines.length)
    (htarget : target < l.lifelines.length) :
    draw settings s source target l
      = (Layout.draw settings s source target l).mapError stopped := by
  refine bind_eq_mapError (grow_eq h _) fun l₁ h₁ => ?_
  obtain ⟨hopen₁, hlength₁⟩ := h.grow h₁
  rw [← hlength₁] at hsource htarget
  rw [lifeline_eq hsource]
  show grow (if s.deactivates then put l₁ source l₁.lifelines[source].deactivate else l₁) _ >>= _
    = _
  rw [closed_eq hsource]
  have hclosed := hopen₁.deactivateIf s.deactivates source
  refine bind_eq_mapError (grow_eq hclosed _) fun l₂ h₂ => ?_
  obtain ⟨hopen₂, hlength₂⟩ := hclosed.grow h₂
  rw [← Layout.length_deactivateIf l₁ s.deactivates source, ← hlength₂] at htarget
  rw [lifeline_eq htarget]
  show lifeline (if s.activates then put l₂ target _ else l₂) target >>= _ = _
  rw [opened_eq htarget]
  have hopened := hopen₂.activateIf settings s.activates target
  rw [← Layout.length_activateIf settings l₂ s.activates target] at htarget
  rw [lifeline_eq htarget]
  refine bind_eq_mapError (grow_eq hopened _) fun l₃ h₃ => ?_
  rw [anchorAt_eq hsource, anchorAt_eq htarget]
  rfl

theorem place_eq {settings : Settings α} {resolve : String → String} {l : Layout α}
    (h : l.OpenWithin) (s : Signal) :
    place settings resolve l s = (Layout.place settings resolve l s).mapError stopped := by
  obtain ⟨hopen, hsource, -⟩ := h.lifelineFor (resolve s.source)
  obtain ⟨hopen, htarget, hlength⟩ := hopen.lifelineFor (resolve s.target)
  exact draw_eq hopen (Nat.lt_of_lt_of_le hsource hlength) htarget

theorem run_eq {settings : Settings α} {resolve : String → String} {l : Layout α}
    (h : l.OpenWithin) (signals : List Signal) :
    signals.foldlM (place settings resolve) l
      = (signals.foldlM (Layout.place settings resolve) l).mapError stopped := by
  induction signals generalizing l with
  | nil => rfl
  | cons s signals ih =>
    rw [List.foldlM_cons, List.foldlM_cons]
    exact bind_eq_mapError (place_eq h s) fun next hnext => ih (h.place hnext)

/-- Every place that a pass over a chart looks up is found, whatever the settings are. -/
theorem ofChart_eq (settings : Settings α) (c : Chart) :
    ofChart settings c = (Layout.ofChart settings c).mapError stopped :=
  run_eq Layout.openWithin_empty c.topSignals

end Lookup

end SequenceChart
