import SequenceChart.Proofs.Geometry.Lookups
import SequenceChart.Proofs.Settings.Growing
set_option autoImplicit false

/-!
# When a pass halts

Main statement: a pass in double precision halts exactly if the font size is below zero and a signal
at the top level opens a box.  It halts in the last growth of the first such signal, because that
would shrink the box just opened: before it no box is open, so growths pass it by, whatever their
amount is.  A growth that halts leaves everything as it was.
-/

namespace SequenceChart

open Halted

variable {α : Type} [Measure α]

/-! ## Growths by a negative amount -/

section Negative

variable {amount : α} (h : Measure.isNegative amount = true)

include h

/-- A negative amount lengthens no box, whether or not it meets one. -/
theorem reached_growBoxes (places : List Nat) (boxes : List (Box α)) :
    reached (Lifeline.growBoxes amount places boxes) = boxes := by
  induction places with
  | nil => rfl
  | cons place places ih =>
    rw [Lifeline.growBoxes]
    cases boxes[place]? with
    | none => exact ih
    | some box =>
      have hbox : box.grow amount = .error ⟨amount⟩ := by rw [Box.grow, if_pos h]
      simp only [hbox]
      rfl

theorem reached_growLifeline (line : Lifeline α) : reached (line.grow amount) = line := by
  have hboxes := reached_growBoxes h line.openBoxes line.boxes
  rw [Lifeline.grow]
  cases hgrow : Lifeline.growBoxes amount line.openBoxes line.boxes with
  | error halt =>
    rw [hgrow] at hboxes
    exact congrArg (fun boxes => { line with boxes }) hboxes
  | ok boxes =>
    rw [hgrow] at hboxes
    exact congrArg (fun boxes => { line with boxes }) hboxes

theorem reached_growLifelines (lines : List (Lifeline α)) :
    reached (Layout.growLifelines amount lines) = lines := by
  induction lines with
  | nil => rfl
  | cons line rest ih =>
    have hline := reached_growLifeline h line
    rw [Layout.growLifelines]
    cases hgrow : line.grow amount with
    | error halt =>
      rw [hgrow] at hline
      exact congrArg (· :: rest) hline
    | ok grown =>
      rw [hgrow] at hline
      cases hrest : Layout.growLifelines amount rest with
      | error halt =>
        rw [hrest] at ih
        exact List.cons_eq_cons.2 ⟨hline, ih⟩
      | ok lines =>
        rw [hrest] at ih
        exact List.cons_eq_cons.2 ⟨hline, ih⟩

end Negative

/-! ## Growths that halt -/

section Halts

variable {amount : α}

theorem cause_growBoxes {places : List Nat} {boxes : List (Box α)}
    {halt : Halted (Shrinking α) (List (Box α))}
    (h : Lifeline.growBoxes amount places boxes = .error halt) : halt.cause = ⟨amount⟩ := by
  induction places generalizing boxes with
  | nil => cases h
  | cons place places ih =>
    rw [Lifeline.growBoxes] at h
    split at h
    · exact ih h
    · next box _ =>
      rw [Box.grow] at h
      split at h
      · next cause hcause =>
        cases h
        split at hcause
        · cases hcause
          rfl
        · cases hcause
      · exact ih h

theorem cause_growLifelines {lines : List (Lifeline α)}
    {halt : Halted (Shrinking α) (List (Lifeline α))}
    (h : Layout.growLifelines amount lines = .error halt) : halt.cause = ⟨amount⟩ := by
  induction lines generalizing halt with
  | nil => cases h
  | cons line rest ih =>
    rw [Layout.growLifelines] at h
    split at h
    · next halted hline =>
      cases h
      rw [Lifeline.grow] at hline
      split at hline
      · next hboxes =>
        cases hline
        exact cause_growBoxes hboxes
      · cases hline
    · split at h
      · next hrest =>
        cases h
        have hcause := ih hrest
        exact hcause
      · cases h

/-- A growth halts only because its amount is negative, and it leaves the layout as it was. -/
theorem Layout.eq_of_grow_eq_error {l : Layout α} {halt : Halted (Shrinking α) (Layout α)}
    (h : l.grow amount = .error halt) :
    Measure.isNegative amount = true ∧ halt = ⟨⟨amount⟩, l⟩ := by
  have hnegative : Measure.isNegative amount = true := by
    cases hnegative : Measure.isNegative amount with
    | true => rfl
    | false =>
      obtain ⟨grown, hgrown⟩ := exists_grow hnegative l
      rw [hgrown] at h
      cases h
  refine ⟨hnegative, ?_⟩
  have hlines := reached_growLifelines hnegative l.lifelines
  rw [Layout.grow] at h
  split at h
  · cases h
  · split at h
    · next halted hgrow =>
      cases h
      rw [hgrow] at hlines
      have hleft : { l with lifelines := halted.left } = l :=
        congrArg (fun lifelines => { l with lifelines }) hlines
      rw [hleft, cause_growLifelines hgrow]
    · cases h

/-- Where a box is open, a growth by a negative amount halts. -/
theorem Layout.grow_eq_error {l : Layout α} (hzero : Measure.isZero amount = false)
    (hnegative : Measure.isNegative amount = true) {line : Lifeline α} (hline : line ∈ l.lifelines)
    {i : Nat} (hi : i ∈ line.openStack) (hlt : i < line.boxes.length) :
    l.grow amount = .error ⟨⟨amount⟩, l⟩ := by
  cases hgrow : l.grow amount with
  | error halt => rw [(eq_of_grow_eq_error hgrow).2]
  | ok grown =>
    rw [Layout.grow, hzero] at hgrow
    cases hlines : growLifelines amount l.lifelines with
    | error halt =>
      rw [hlines] at hgrow
      cases hgrow
    | ok lines =>
      rw [isNegative_of_growLifelines hlines hline hi hlt] at hnegative
      cases hnegative

end Halts

/-! ## Layouts without open boxes -/

namespace Layout

/-- No box is open. -/
def AllClosed (l : Layout α) : Prop := ∀ line ∈ l.lifelines, line.openStack = []

omit [Measure α] in
theorem AllClosed.lifelineFor {l : Layout α} (h : l.AllClosed) (name : String) :
    (l.lifelineFor name).2.AllClosed := by
  by_cases hname : name ∈ l.names
  · rw [lifelineFor_of_mem hname]
    exact h
  · rw [lifelineFor_of_not_mem hname]
    intro line hline
    rcases List.mem_append.1 hline with hold | hnew
    · exact h line hold
    · rw [List.mem_singleton.1 hnew]

omit [Measure α] in
theorem AllClosed.deactivateIf {l : Layout α} (h : l.AllClosed) (closes : Bool) (i : Nat) :
    (l.deactivateIf closes i).AllClosed := by
  cases closes with
  | false => exact h
  | true =>
    intro line hline
    obtain ⟨j, hj⟩ := List.mem_iff_getElem?.1 hline
    rw [Layout.deactivateIf, if_pos rfl, modifyLifeline, List.getElem?_modify,
      Option.map_eq_map, Option.map_eq_some_iff] at hj
    obtain ⟨old, hold, rfl⟩ := hj
    have hstack := h old (List.mem_of_getElem? hold)
    split
    · rw [Lifeline.deactivate, hstack]
      rfl
    · exact hstack

theorem growLifelines_of_allClosed {lines : List (Lifeline α)}
    (h : ∀ line ∈ lines, line.openStack = []) (amount : α) :
    growLifelines amount lines = .ok lines := by
  induction lines with
  | nil => rfl
  | cons line rest ih =>
    obtain ⟨hline, hrest⟩ := List.forall_mem_cons.1 h
    have hgrow : line.grow amount = .ok line := by
      obtain ⟨name, boxes, openStack⟩ := line
      cases hline
      rfl
    rw [growLifelines, hgrow, ih hrest]

/-- Where no box is open, every amount goes through and only the cursor moves. -/
theorem AllClosed.grow {l : Layout α} (h : l.AllClosed) (amount : α) :
    ∃ l', l.grow amount = .ok l' ∧ l'.lifelines = l.lifelines := by
  rw [Layout.grow]
  split
  · exact ⟨l, rfl, rfl⟩
  · rw [growLifelines_of_allClosed h]
    exact ⟨_, rfl, rfl⟩

/-- Where no box is open, a signal goes through up to its last growth, after it may have opened a
box, and what that growth does decides about the signal. -/
theorem AllClosed.exists_opened {l : Layout α} (h : l.AllClosed) (settings : Settings α)
    (s : Signal) (source target : Nat) :
    ∃ l₂ : Layout α, l₂.AllClosed ∧ l₂.lifelines.length = l.lifelines.length ∧
      (∀ l₃, (l₂.activateIf settings s.activates target).grow settings.bottomMargin = .ok l₃ →
        ∃ l', draw settings s source target l = .ok l' ∧ l'.lifelines = l₃.lifelines) ∧
      ∀ halt, (l₂.activateIf settings s.activates target).grow settings.bottomMargin = .error halt →
        draw settings s source target l = .error halt := by
  obtain ⟨l₁, h₁, hlines₁⟩ := h.grow settings.topMargin
  have hclosed : (l₁.deactivateIf s.deactivates source).AllClosed := by
    refine AllClosed.deactivateIf ?_ s.deactivates source
    rw [AllClosed, hlines₁]
    exact h
  obtain ⟨l₂, h₂, hlines₂⟩ := hclosed.grow (loop settings s)
  have hdraw : draw settings s source target l
      = (l₂.activateIf settings s.activates target).grow settings.bottomMargin >>= fun l₃ =>
        .ok { l₃ with
          arrows := l₃.arrows
            ++ [⟨l₁.anchorAt source, (l₂.activateIf settings s.activates target).anchorAt target,
              s.message, s.dotted⟩] } := by
    rw [draw, h₁]
    show (l₁.deactivateIf s.deactivates source).grow (loop settings s) >>= _ = _
    rw [h₂]
    rfl
  refine ⟨l₂, ?_, ?_, ?_, ?_⟩
  · rw [AllClosed, hlines₂]
    exact hclosed
  · rw [hlines₂, length_deactivateIf, hlines₁]
  · intro l₃ h₃
    rw [hdraw, h₃]
    exact ⟨_, rfl, rfl⟩
  · intro halt hhalt
    rw [hdraw, hhalt]
    rfl

/-- A signal that opens no box goes through where no box is open, and leaves none open. -/
theorem AllClosed.place {l : Layout α} (h : l.AllClosed) (settings : Settings α)
    (resolve : String → String) {s : Signal} (hs : s.activates = false) :
    ∃ l', Layout.place settings resolve l s = .ok l' ∧ l'.AllClosed := by
  have hfound := (h.lifelineFor (resolve s.source)).lifelineFor (resolve s.target)
  obtain ⟨l₂, hclosed, -, hok, -⟩ := hfound.exists_opened settings s
    (l.lifelineFor (resolve s.source)).1
    ((l.lifelineFor (resolve s.source)).2.lifelineFor (resolve s.target)).1
  obtain ⟨l₃, h₃, hlines₃⟩ := hclosed.grow settings.bottomMargin
  rw [hs] at hok
  obtain ⟨l', hdraw, hlines⟩ := hok l₃ h₃
  refine ⟨l', hdraw, ?_⟩
  rw [AllClosed, hlines, hlines₃]
  exact hclosed

/-- Signals that open no box go through. -/
theorem AllClosed.run {l : Layout α} (h : l.AllClosed) (settings : Settings α)
    (resolve : String → String) {signals : List Signal}
    (hnone : ∀ s ∈ signals, s.activates = false) :
    ∃ l', signals.foldlM (Layout.place settings resolve) l = .ok l' ∧ l'.AllClosed := by
  induction signals generalizing l with
  | nil => exact ⟨l, rfl, h⟩
  | cons s rest ih =>
    obtain ⟨hs, hrest⟩ := List.forall_mem_cons.1 hnone
    obtain ⟨next, hplace, hnext⟩ := h.place settings resolve hs
    rw [List.foldlM_cons, hplace]
    exact ih hnext hrest

omit [Measure α] in
theorem AllClosed.openWithin {l : Layout α} (h : l.AllClosed) : l.OpenWithin := by
  intro line hline i hi
  rw [h line hline] at hi
  cases hi

variable {settings : Settings α}

/-- A signal that opens a box where none is open halts in its last growth, if that is negative. -/
theorem AllClosed.place_halts {l : Layout α} (h : l.AllClosed) (resolve : String → String)
    (hzero : Measure.isZero settings.bottomMargin = false)
    (hnegative : Measure.isNegative settings.bottomMargin = true) {s : Signal}
    (hs : s.activates = true) :
    ∃ halt, Layout.place settings resolve l s = .error halt ∧
      halt.left.grow settings.bottomMargin = .error halt := by
  have hsource := h.lifelineFor (resolve s.source)
  have hlt := (hsource.openWithin.lifelineFor (resolve s.target)).2.1
  generalize htarget : (l.lifelineFor (resolve s.source)).2.lifelineFor (resolve s.target) = target
    at hlt
  have hfound : target.2.AllClosed := htarget ▸ hsource.lifelineFor (resolve s.target)
  obtain ⟨l₂, -, hlength, -, herror⟩ := hfound.exists_opened settings s
    (l.lifelineFor (resolve s.source)).1 target.1
  rw [hs] at herror
  rw [← hlength] at hlt
  have hline : l₂.lifelines[target.1].activate l₂.height settings.boxWidth settings.boxInset
      ∈ (l₂.activateIf settings true target.1).lifelines := by
    refine List.mem_of_getElem? (i := target.1) ?_
    rw [activateIf, if_pos rfl, modifyLifeline, List.getElem?_modify_eq,
      List.getElem?_eq_getElem hlt]
    rfl
  have hgrow := grow_eq_error hzero hnegative hline List.mem_cons_self (by
    show _ < (_ ++ [_]).length
    rw [List.length_append]
    exact Nat.lt_succ_self _)
  refine ⟨⟨⟨settings.bottomMargin⟩, l₂.activateIf settings true target.1⟩, ?_, hgrow⟩
  rw [place_eq_draw]
  dsimp only
  rw [htarget]
  exact herror _ hgrow

theorem allClosed_empty : (Layout.empty : Layout α).AllClosed := nofun

/-- A pass halted in the first signal that opens a box, in the last growth of that signal. -/
def HaltedAtOpening (settings : Settings α) (c : Chart)
    (halt : Halted (Shrinking α) (Layout α)) : Prop :=
  ∃ (before : List Signal) (s : Signal) (after : List Signal) (l : Layout α),
    c.topSignals = before ++ s :: after ∧ (∀ s' ∈ before, s'.activates = false) ∧
    s.activates = true ∧ before.foldlM (Layout.place settings c.resolve) empty = .ok l ∧
    Layout.place settings c.resolve l s = .error halt ∧
    halt.left.grow settings.bottomMargin = .error halt

/-- A pass in which the last growth of a signal would be negative halts in the first signal that
opens a box. -/
theorem exists_haltedAtOpening {c : Chart} (hzero : Measure.isZero settings.bottomMargin = false)
    (hnegative : Measure.isNegative settings.bottomMargin = true)
    (hopens : ∃ s ∈ c.topSignals, s.activates = true) :
    ∃ halt, ofChart settings c = .error halt ∧ HaltedAtOpening settings c halt := by
  obtain ⟨s, hfind⟩ := Option.isSome_iff_exists.1 (List.find?_isSome.2 hopens)
  obtain ⟨hs, before, after, hsignals, hbefore⟩ := List.find?_eq_some_iff_append.1 hfind
  have hnone : ∀ s' ∈ before, s'.activates = false := by
    intro s' hs'
    simpa using hbefore s' hs'
  obtain ⟨l, hrun, hclosed⟩ :=
    allClosed_empty.run settings c.resolve hnone
  obtain ⟨halt, hplace, hgrow⟩ := hclosed.place_halts c.resolve hzero hnegative hs
  refine ⟨halt, ?_, before, s, after, l, hsignals, hnone, hs, hrun, hplace, hgrow⟩
  rw [ofChart, hsignals, List.foldlM_append, hrun]
  show List.foldlM (Layout.place settings c.resolve) l (s :: after) = _
  rw [List.foldlM_cons, hplace]
  rfl

/-- A pass that halts has met a signal that opens a box. -/
theorem exists_activates_of_error {c : Chart} {halt : Halted (Shrinking α) (Layout α)}
    (h : ofChart settings c = .error halt) : ∃ s ∈ c.topSignals, s.activates = true := by
  apply Classical.byContradiction
  intro hnone
  have hall : ∀ s ∈ c.topSignals, s.activates = false := by
    intro s hs
    rw [Bool.eq_false_iff]
    intro htrue
    exact hnone ⟨s, hs, htrue⟩
  obtain ⟨l, hl, -⟩ := allClosed_empty.run settings c.resolve hall
  rw [ofChart, hl] at h
  cases h

end Layout

/-! ## Double precision -/

section Double

variable {settings : Settings Float} {c : Chart} {halt : Halted (Shrinking Float) (Layout Float)}

theorem Layout.grow_eq_error_double {l : Layout Float} {amount : Float}
    (h : l.grow amount = .error halt) : amount < 0 ∧ halt = ⟨⟨amount⟩, l⟩ := by
  obtain ⟨hnegative, hhalt⟩ := Layout.eq_of_grow_eq_error h
  exact ⟨of_decide_eq_true hnegative, hhalt⟩

theorem Settings.fontSize_lt_zero_of_error (h : Layout.ofChart settings c = .error halt) :
    settings.fontSize < 0 := by
  apply Classical.byContradiction
  intro hsize
  obtain ⟨l, hl⟩ := exists_run (Settings.growing_of_not_lt hsize) c.resolve c.topSignals
    Layout.empty
  rw [Layout.ofChart, hl] at h
  cases h

theorem Layout.exists_error_of_lt_zero (hsize : settings.fontSize < 0)
    (hopens : ∃ s ∈ c.topSignals, s.activates = true) :
    ∃ halt, Layout.ofChart settings c = .error halt ∧ HaltedAtOpening settings c halt :=
  exists_haltedAtOpening (Decimal.beq_zero_of_lt_zero hsize) (decide_eq_true hsize) hopens

theorem Layout.haltedAtOpening_of_error (h : Layout.ofChart settings c = .error halt) :
    halt.cause = ⟨settings.fontSize⟩ ∧ HaltedAtOpening settings c halt := by
  obtain ⟨other, hother, hopening⟩ :=
    exists_error_of_lt_zero (Settings.fontSize_lt_zero_of_error h) (exists_activates_of_error h)
  cases h.symm.trans hother
  refine ⟨?_, hopening⟩
  obtain ⟨_, _, _, _, -, -, -, -, -, hgrow⟩ := hopening
  rw [(grow_eq_error_double hgrow).2]
  rfl

end Double

/-- When and how a pass in double precision halts. -/
structure HaltsAtOpening (settings : Settings Float) (c : Chart) : Prop where
  /-- it halts exactly if the font size is below zero and a signal opens a box -/
  iff : (∃ halt, Layout.ofChart settings c = .error halt) ↔
    settings.fontSize < 0 ∧ ∃ s ∈ c.topSignals, s.activates = true
  /-- the font size would shrink the box that the first such signal has just opened -/
  first : ∀ halt, Layout.ofChart settings c = .error halt →
    halt.cause = ⟨settings.fontSize⟩ ∧ Layout.HaltedAtOpening settings c halt
  /-- looking up places gives no other reason to halt -/
  only : ∀ fault, Lookup.ofChart settings c = .error fault ↔
    fault = .shrinking ⟨settings.fontSize⟩ ∧ ∃ halt, Layout.ofChart settings c = .error halt
  /-- a growth that halts, wherever it does, has lengthened no box and not moved the cursor -/
  growth : ∀ (l : Layout Float) (amount : Float) (halt : Halted (Shrinking Float) (Layout Float)),
    l.grow amount = .error halt → amount < 0 ∧ halt = ⟨⟨amount⟩, l⟩

/-- A pass in double precision halts at the first signal that opens a box, if the font size is below
zero, and nowhere else. -/
theorem haltsAtOpening (settings : Settings Float) (c : Chart) : HaltsAtOpening settings c where
  iff := by
    constructor
    · rintro ⟨halt, h⟩
      exact ⟨Settings.fontSize_lt_zero_of_error h, Layout.exists_activates_of_error h⟩
    · rintro ⟨hsize, hopens⟩
      obtain ⟨halt, h, -⟩ := Layout.exists_error_of_lt_zero hsize hopens
      exact ⟨halt, h⟩
  first := by
    intro halt h
    exact Layout.haltedAtOpening_of_error h
  only := by
    intro fault
    rw [Lookup.ofChart_eq]
    cases hrun : Layout.ofChart settings c with
    | ok l =>
      constructor
      · intro h
        cases h
      · rintro ⟨-, halt, h⟩
        cases h
    | error halt =>
      obtain ⟨cause, left⟩ := halt
      obtain ⟨hcause, -⟩ := Layout.haltedAtOpening_of_error hrun
      cases hcause
      constructor
      · intro h
        cases h
        exact ⟨rfl, _, rfl⟩
      · rintro ⟨rfl, -⟩
        rfl
  growth := by
    intro l amount halt h
    exact Layout.grow_eq_error_double h

end SequenceChart
