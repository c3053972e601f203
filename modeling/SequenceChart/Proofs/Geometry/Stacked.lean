import SequenceChart.Proofs.Geometry.Halting
set_option autoImplicit false

/-!
# Boxes that are opened and closed like a stack

A lifeline is called in any order: to open a box, to close the innermost one and to lengthen those
that are open, by any amount.  Main statement: what is open is what was opened and has not been
closed since, in the order of opening, and closing takes the last of it; boxes are only added, and
of a box nothing but its height changes, and that only while it is open; and a growth that is
refused leaves no trace.
-/

namespace SequenceChart

/-- What a box keeps for good: its start, its width and its inset. -/
def Box.outline {α : Type} (b : Box α) : α × α × α := (b.start, b.width, b.inset)

namespace Lifeline

variable {α : Type}

/-- A call of a lifeline. -/
inductive Call (α : Type) where
  | activate (start width insetUnit : α)
  | deactivate
  | grow (amount : α)
  deriving DecidableEq, Repr

/-- What a call is answered with. -/
inductive Reply (α : Type) where
  | opened (place : Nat)
  | closed (place : Option Nat)
  | grown
  | refused (why : Shrinking α)
  deriving DecidableEq, Repr

namespace Reply

/-- The box that was opened. -/
def opened? : Reply α → Option Nat
  | opened place => some place
  | _ => none

/-- The box that was closed. -/
def closed? : Reply α → Option Nat
  | closed place => place
  | _ => none

end Reply

/-- The boxes that were opened, in order. -/
def opened (replies : List (Reply α)) : List Nat := replies.filterMap Reply.opened?

/-- The boxes that were closed, in order. -/
def closed (replies : List (Reply α)) : List Nat := replies.filterMap Reply.closed?

/-- The boxes that were opened and have not been closed since, in the order of opening. -/
def pending (replies : List (Reply α)) : List Nat :=
  (opened replies).filter fun i => i ∉ closed replies

section Calls

variable [Measure α]

/-- Makes a call. -/
def call (l : Lifeline α) : Call α → Reply α × Lifeline α
  | .activate start width insetUnit =>
    (.opened l.boxes.length, l.activate start width insetUnit)
  | .deactivate => (.closed l.activeBox, l.deactivate)
  | .grow amount =>
    match l.grow amount with
    | .ok l => (.grown, l)
    | .error halt => (.refused halt.cause, halt.left)

/-- The replies to calls that are made one after the other. -/
def replies (l : Lifeline α) : List (Call α) → List (Reply α)
  | [] => []
  | c :: calls => (l.call c).1 :: (l.call c).2.replies calls

/-- The lifeline after calls. -/
def after (l : Lifeline α) (calls : List (Call α)) : Lifeline α :=
  calls.foldl (fun l c => (l.call c).2) l

/-- How a lifeline answers calls. -/
structure Stacked (l : Lifeline α) (calls : List (Call α)) : Prop where
  /-- The places of the open boxes rise, -/
  rising : (l.after calls).openBoxes.Pairwise (· < ·)
  /-- and each of them has a box. -/
  within : ∀ i ∈ (l.after calls).openBoxes, i < (l.after calls).boxes.length
  /-- Every opening adds the next box, and nothing else adds one. -/
  opened_eq : opened (l.replies calls) = List.range (l.after calls).boxes.length
  /-- The open boxes are those that were opened and not closed since, in the order of opening, -/
  openBoxes_eq : (l.after calls).openBoxes = pending (l.replies calls)
  /-- and the active box is the last of them. -/
  activeBox_eq : (l.after calls).activeBox = (pending (l.replies calls)).getLast?
  /-- Closing is answered with the last of them, and with none exactly if none is open. -/
  closes : ∀ before rest, calls = before ++ .deactivate :: rest → ∃ place,
    ((l.after before).call .deactivate).1 = .closed place ∧
      place = (pending (l.replies before)).getLast? ∧
      (place = none ↔ (l.after before).openBoxes = [])
  /-- Closing again and again is answered with the open boxes in the reverse order of opening, and
  then with none. -/
  unwinds : ∀ n, (l.after calls).replies (List.replicate n .deactivate)
    = (List.range n).map fun k => .closed (pending (l.replies calls)).reverse[k]?
  /-- No box is closed twice. -/
  closedOnce : (closed (l.replies calls)).Nodup
  /-- Boxes are only added behind the others, and keep their starts, widths and insets. -/
  outlines : ∀ before rest, calls = before ++ rest →
    (l.after before).boxes.map Box.outline <+: (l.after calls).boxes.map Box.outline
  /-- A call changes a box only if the box is open. -/
  heights : ∀ before c rest, calls = before ++ c :: rest → ∀ i b b',
    (l.after before).boxes[i]? = some b → (l.after (before ++ [c])).boxes[i]? = some b' →
    b' ≠ b → i ∈ (l.after before).openBoxes
  /-- A growth is refused exactly if its amount is negative and a box is open. -/
  refuses : ∀ before amount rest, calls = before ++ .grow amount :: rest →
    ((∃ why, ((l.after before).call (.grow amount)).1 = .refused why) ↔
      Measure.isNegative amount = true ∧ (l.after before).openBoxes ≠ [])
  /-- A call that is refused changes nothing. -/
  refused : ∀ before c rest why, calls = before ++ c :: rest →
    ((l.after before).call c).1 = .refused why → l.after (before ++ [c]) = l.after before

end Calls

/-! ## The open boxes and the history -/

theorem opened_append (past more : List (Reply α)) :
    opened (past ++ more) = opened past ++ opened more := List.filterMap_append

theorem closed_append (past more : List (Reply α)) :
    closed (past ++ more) = closed past ++ closed more := List.filterMap_append

/-- The boxes of a lifeline and the answers that it has given fit together. -/
structure Sound (l : Lifeline α) (past : List (Reply α)) : Prop where
  opened_eq : opened past = List.range l.boxes.length
  openBoxes_eq : l.openBoxes = pending past
  closed_lt : ∀ i ∈ closed past, i < l.boxes.length
  closedOnce : (closed past).Nodup

namespace Sound

theorem new (name : String) : Sound ({ name } : Lifeline α) [] where
  opened_eq := rfl
  openBoxes_eq := rfl
  closed_lt := nofun
  closedOnce := List.nodup_nil

variable {l : Lifeline α} {past : List (Reply α)} (h : l.Sound past)

include h

/-- The open boxes are those of all boxes that have not been closed. -/
theorem openBoxes_eq_filter :
    l.openBoxes = (List.range l.boxes.length).filter fun i => i ∉ closed past := by
  rw [h.openBoxes_eq, pending, h.opened_eq]

theorem mem_openBoxes_iff (i : Nat) : i ∈ l.openBoxes ↔ i < l.boxes.length ∧ i ∉ closed past := by
  rw [h.openBoxes_eq_filter, List.mem_filter, List.mem_range, decide_eq_true_eq]

theorem rising : l.openBoxes.Pairwise (· < ·) := by
  rw [h.openBoxes_eq_filter]
  exact List.pairwise_lt_range.filter _

theorem nodup : l.openStack.Nodup :=
  List.nodup_reverse.1 (h.rising.imp fun hlt => Nat.ne_of_lt hlt)

theorem activeBox_eq : l.activeBox = (pending past).getLast? := by
  rw [← h.openBoxes_eq, openBoxes, List.getLast?_reverse, activeBox]

/-- An answer that names no box goes with a call that opens and closes none. -/
theorem same {l' : Lifeline α} (reply : Reply α) (hopened : reply.opened? = none)
    (hclosed : reply.closed? = none) (hlength : l'.boxes.length = l.boxes.length)
    (hopen : l'.openStack = l.openStack) : l'.Sound (past ++ [reply]) := by
  have hopened : opened (past ++ [reply]) = opened past := by
    simp [opened, hopened]
  have hclosed : closed (past ++ [reply]) = closed past := by
    simp [closed, hclosed]
  refine ⟨?_, ?_, ?_, ?_⟩
  · rw [hopened, hlength, h.opened_eq]
  · rw [openBoxes, hopen, pending, hopened, hclosed, ← pending, ← h.openBoxes_eq, openBoxes]
  · rw [hclosed, hlength]
    exact h.closed_lt
  · rw [hclosed]
    exact h.closedOnce

/-- A new box is open, behind those that are open already. -/
theorem activate [Measure α] (start width insetUnit : α) :
    (l.activate start width insetUnit).Sound (past ++ [.opened l.boxes.length]) := by
  have hnew : l.boxes.length ∉ closed past := fun hmem => Nat.lt_irrefl _ (h.closed_lt _ hmem)
  have hlength : (l.activate start width insetUnit).boxes.length = l.boxes.length + 1 :=
    List.length_append
  have hopened : opened (past ++ [Reply.opened (α := α) l.boxes.length])
      = opened past ++ [l.boxes.length] := opened_append past _
  have hclosed : closed (past ++ [Reply.opened (α := α) l.boxes.length]) = closed past := by
    rw [closed_append]
    exact List.append_nil _
  refine ⟨?_, ?_, ?_, ?_⟩
  · rw [hopened, hlength, List.range_succ, h.opened_eq]
  · rw [pending, hopened, hclosed, List.filter_append]
    show (l.boxes.length :: l.openStack).reverse = _
    rw [List.reverse_cons]
    exact congrArg₂ (· ++ ·) h.openBoxes_eq (by simp [hnew])
  · rw [hclosed, hlength]
    exact fun i hi => Nat.lt_succ_of_lt (h.closed_lt i hi)
  · rw [hclosed]
    exact h.closedOnce

/-- Closing takes the last of the open boxes. -/
theorem deactivate : l.deactivate.Sound (past ++ [.closed l.activeBox]) := by
  cases hstack : l.openStack with
  | nil =>
    refine h.same (.closed l.activeBox) rfl ?_ rfl ?_
    · rw [activeBox, hstack]
      rfl
    · rw [Lifeline.deactivate, hstack]
      rfl
  | cons top rest =>
    have hopened : opened (past ++ [Reply.closed (α := α) l.activeBox]) = opened past := by
      rw [opened_append]
      exact List.append_nil _
    have hclosed : closed (past ++ [Reply.closed (α := α) l.activeBox]) = closed past ++ [top] := by
      rw [closed_append, activeBox, hstack]
      rfl
    have hopen : l.openBoxes = rest.reverse ++ [top] := by
      rw [openBoxes, hstack, List.reverse_cons]
    obtain ⟨hlt, hnew⟩ := (h.mem_openBoxes_iff top).1 (by simp [hopen])
    have htop : top ∉ rest := (List.nodup_cons.1 (hstack ▸ h.nodup)).1
    refine ⟨hopened.trans h.opened_eq, ?_, ?_, ?_⟩
    · have hpending : pending (past ++ [Reply.closed (α := α) l.activeBox])
          = (pending past).filter fun i => i ≠ top := by
        rw [pending, hopened, hclosed, pending, List.filter_filter]
        refine List.filter_congr fun i _ => ?_
        simp [and_comm]
      have hrest : rest.reverse.filter (fun i => i ≠ top) = rest.reverse := by
        refine List.filter_eq_self.2 fun i hi => decide_eq_true ?_
        rintro rfl
        exact htop (List.mem_reverse.1 hi)
      rw [hpending, ← h.openBoxes_eq, hopen, List.filter_append, hrest, openBoxes,
        Lifeline.deactivate, hstack]
      simp
    · rw [hclosed]
      exact List.forall_mem_append.2 ⟨h.closed_lt, List.forall_mem_singleton.2 hlt⟩
    · rw [hclosed]
      exact List.nodup_append.2 ⟨h.closedOnce, List.nodup_singleton top, by
        rintro i hi _ hj rfl
        exact hnew (List.mem_singleton.1 hj ▸ hi)⟩

end Sound

/-! ## One call -/

variable [Measure α]

section Call

variable {l : Lifeline α} {past : List (Reply α)} (h : l.Sound past)

include h

/-- A growth lengthens the open boxes, or is refused because its amount is negative and a box is
open, and then changes nothing. -/
theorem Sound.call_grow (amount : α) :
    (l.call (.grow amount) = (.grown, l.grown amount) ∧
      ¬(Measure.isNegative amount = true ∧ l.openBoxes ≠ [])) ∨
    (∃ why, l.call (.grow amount) = (.refused why, l) ∧
      Measure.isNegative amount = true ∧ l.openBoxes ≠ []) := by
  rw [call]
  cases hgrow : l.grow amount with
  | ok grown =>
    refine .inl ⟨by rw [grow_eq_grown h.nodup hgrow], ?_⟩
    rintro ⟨hnegative, hopen⟩
    obtain ⟨i, hi⟩ := List.exists_mem_of_ne_nil _ hopen
    rw [Lifeline.grow] at hgrow
    split at hgrow
    · cases hgrow
    · next hboxes =>
      rw [isNegative_of_growBoxes hboxes hi ((h.mem_openBoxes_iff i).1 hi).1] at hnegative
      cases hnegative
  | error halt =>
    have hnegative : Measure.isNegative amount = true := by
      refine eq_true_of_ne_false fun hnegative => ?_
      obtain ⟨grown, hgrown⟩ := exists_growLifeline hnegative l
      rw [hgrow] at hgrown
      cases hgrown
    have hleft := reached_growLifeline hnegative l
    rw [hgrow] at hleft
    refine .inr ⟨halt.cause, Prod.ext rfl hleft, hnegative, fun hopen => ?_⟩
    rw [Lifeline.grow, hopen] at hgrow
    cases hgrow

/-- A call keeps the boxes and the answers in step. -/
theorem Sound.call (c : Call α) : (l.call c).2.Sound (past ++ [(l.call c).1]) := by
  cases c with
  | activate start width insetUnit => exact h.activate start width insetUnit
  | deactivate => exact h.deactivate
  | grow amount =>
    rcases h.call_grow amount with ⟨hcall, -⟩ | ⟨why, hcall, -⟩
    · rw [hcall]
      exact h.same .grown rfl rfl List.length_mapIdx rfl
    · rw [hcall]
      exact h.same (.refused why) rfl rfl rfl rfl

/-- A call adds boxes behind the others at most, and keeps their starts, widths and insets. -/
theorem Sound.outline_call (c : Call α) :
    l.boxes.map Box.outline <+: (l.call c).2.boxes.map Box.outline := by
  cases c with
  | activate start width insetUnit =>
    rw [Lifeline.call, Lifeline.activate, List.map_append]
    exact List.prefix_append _ _
  | deactivate => exact List.prefix_rfl
  | grow amount =>
    rcases h.call_grow amount with ⟨hcall, -⟩ | ⟨why, hcall, -⟩
    · have houtline : (l.grown amount).boxes.map Box.outline = l.boxes.map Box.outline := by
        apply List.ext_getElem?
        intro i
        rw [grown, List.getElem?_map, List.getElem?_map, List.getElem?_mapIdx, Option.map_map]
        refine congrArg (Option.map · _) (funext fun b => ?_)
        show Box.outline (if i ∈ l.openStack then b.grown amount else b) = b.outline
        split <;> rfl
      rw [hcall, houtline]
    · rw [hcall]

/-- A call changes no box that is not open. -/
theorem Sound.mem_openBoxes_of_call (c : Call α) {i : Nat} {b b' : Box α}
    (hb : l.boxes[i]? = some b) (hb' : (l.call c).2.boxes[i]? = some b') (hne : b' ≠ b) :
    i ∈ l.openBoxes := by
  by_contra hclosed
  refine hne (Option.some.inj (hb'.symm.trans ?_))
  cases c with
  | activate start width insetUnit =>
    have hlt := (List.getElem?_eq_some_iff.1 hb).1
    show (l.boxes ++ [_])[i]? = some b
    rw [List.getElem?_append_left hlt, hb]
  | deactivate => exact hb
  | grow amount =>
    rcases h.call_grow amount with ⟨hcall, -⟩ | ⟨why, hcall, -⟩
    · rw [hcall, grown, List.getElem?_mapIdx, hb, Option.map_some,
        if_neg fun hi => hclosed (List.mem_reverse.2 hi)]
    · rw [hcall, hb]

end Call

/-! ## Calls in a row -/

theorem after_append (l : Lifeline α) (calls more : List (Call α)) :
    l.after (calls ++ more) = (l.after calls).after more := List.foldl_append

section Run

variable {l : Lifeline α} {past : List (Reply α)} (h : l.Sound past) (calls : List (Call α))

include h

theorem Sound.after : (l.after calls).Sound (past ++ l.replies calls) := by
  induction calls generalizing l past with
  | nil =>
    rw [replies, List.append_nil]
    exact h
  | cons c calls ih =>
    have hrest := ih (h.call c)
    rw [List.append_assoc] at hrest
    exact hrest

theorem Sound.outline_after :
    l.boxes.map Box.outline <+: (l.after calls).boxes.map Box.outline := by
  induction calls generalizing l past with
  | nil => exact List.prefix_rfl
  | cons c calls ih => exact (h.outline_call c).trans (ih (h.call c))

end Run

/-- Closing again and again takes the open boxes from the innermost one on. -/
theorem replies_deactivate (l : Lifeline α) (n : Nat) :
    l.replies (List.replicate n .deactivate)
      = (List.range n).map fun k => .closed l.openStack[k]? := by
  induction n generalizing l with
  | zero => rfl
  | succ n ih =>
    have hnext (k : Nat) : l.deactivate.openStack[k]? = l.openStack[k + 1]? := List.getElem?_tail
    rw [List.replicate_succ, replies, List.range_succ_eq_map, List.map_cons, List.map_map,
      ← List.head?_eq_getElem?]
    refine congrArg (_ :: ·) ((ih l.deactivate).trans ?_)
    exact List.map_congr_left fun k _ => congrArg Reply.closed (hnext k)

/-- However a new lifeline is called, its boxes are opened and closed like a stack. -/
theorem stacked (name : String) (calls : List (Call α)) :
    Stacked ({ name } : Lifeline α) calls := by
  have hsound (calls : List (Call α)) :
      (({ name } : Lifeline α).after calls).Sound (({ name } : Lifeline α).replies calls) :=
    (Sound.new name).after calls
  have h := hsound calls
  have hnext (before : List (Call α)) (c : Call α) : ({ name } : Lifeline α).after (before ++ [c])
      = ((({ name } : Lifeline α).after before).call c).2 := after_append _ before [c]
  refine ⟨h.rising, fun i hi => ((h.mem_openBoxes_iff i).1 hi).1, h.opened_eq, h.openBoxes_eq,
    h.activeBox_eq, ?_, ?_, h.closedOnce, ?_, ?_, ?_, ?_⟩
  · intro before rest _
    refine ⟨_, rfl, (hsound before).activeBox_eq, ?_⟩
    rw [activeBox, openBoxes, List.head?_eq_none_iff, List.reverse_eq_nil_iff]
  · intro n
    rw [replies_deactivate, ← h.openBoxes_eq, openBoxes, List.reverse_reverse]
  · rintro before rest rfl
    rw [after_append]
    exact (hsound before).outline_after rest
  · intro before c rest _ i b b' hb hb' hne
    rw [hnext] at hb'
    exact (hsound before).mem_openBoxes_of_call c hb hb' hne
  · intro before amount rest _
    rcases (hsound before).call_grow amount with ⟨hcall, hnone⟩ | ⟨why, hcall, hsome⟩
    · rw [hcall]
      exact ⟨nofun, fun hsome => absurd hsome hnone⟩
    · rw [hcall]
      exact ⟨fun _ => hsome, fun _ => ⟨why, rfl⟩⟩
  · intro before c rest why _ hrefused
    rw [hnext]
    cases c with
    | activate start width insetUnit => cases hrefused
    | deactivate => cases hrefused
    | grow amount =>
      rcases (hsound before).call_grow amount with ⟨hcall, -⟩ | ⟨why, hcall, -⟩
      · rw [hcall] at hrefused
        cases hrefused
      · rw [hcall]

/-- A closed box is not lengthened; a refused growth and a closing of none change nothing. -/
example : (({ name := "A" } : Lifeline Rat).replies
      [.activate 1 4 2, .activate 3 4 2, .grow 5, .deactivate, .grow 1, .grow (-1), .deactivate,
        .deactivate]
    = [.opened 0, .opened 1, .grown, .closed (some 1), .grown, .refused ⟨-1⟩, .closed (some 0),
      .closed none]) := by
  decide +kernel

end Lifeline

end SequenceChart
