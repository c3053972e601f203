import SequenceChart.Proofs.Reading.Settled
import SequenceChart.Proofs.Scanning.Piece
set_option autoImplicit false

/-!
# Tokens that are moved

How tokens are read depends on what they say; where they stand is only kept to tell where a fault
is.  Main statement: the same tokens elsewhere, read behind items that are finished, lead to the
same reading behind these items, or to the same fault elsewhere.
-/

namespace SequenceChart

/-- Moves tokens: what they say stays, and where they stand may change. -/
structure Token.Moves (f : Token → Token) : Prop where
  kind : ∀ t, (f t).kind = t.kind
  content : ∀ t, (f t).content = t.content

/-- The problem with its tokens moved. -/
def SyntaxProblem.moved (f : Token → Token) : SyntaxProblem → SyntaxProblem
  | .expected kinds got => .expected kinds (f got)
  | .noStatement got => .noStatement (f got)
  | .endless => .endless

/-- The fault with its tokens moved. -/
def SyntaxFault.moved (f : Token → Token) (e : SyntaxFault) : SyntaxFault :=
  ⟨e.problem.moved f, f e.token⟩

/-- The construct in progress with its tokens moved. -/
def Progress.moved (f : Token → Token) : Progress → Progress
  | .shaft s at_ => .shaft s (f at_)
  | progress => progress

namespace Reading

/-- The reading of moved tokens, behind items that are finished. -/
def moved (items : List Item) (f : Token → Token) (r : Reading) : Reading :=
  ⟨items ++ r.items, r.blocks, r.progress.moved f⟩

/-- The answer to moved tokens, behind items that are finished. -/
def movedAnswer (items : List Item) (f : Token → Token) :
    Except SyntaxFault Reading → Except SyntaxFault Reading
  | .ok r => .ok (r.moved items f)
  | .error e => .error (e.moved f)

section Parts

variable {items : List Item} {f : Token → Token} (r : Reading)

@[simp] theorem progress_moved : (r.moved items f).progress = r.progress.moved f := rfl

@[simp] theorem movedAnswer_ok : movedAnswer items f (.ok r) = .ok (r.moved items f) := rfl

@[simp] theorem movedAnswer_error (e : SyntaxFault) :
    movedAnswer items f (.error e) = .error (e.moved f) := rfl

@[simp] theorem addItem_moved (item : Item) :
    (r.moved items f).addItem item = (r.addItem item).moved items f := by
  simp [addItem, moved, Progress.moved]

@[simp] theorem addStatement_moved (s : Statement) :
    (r.moved items f).addStatement s = (r.addStatement s).moved items f := by
  obtain ⟨done, blocks, progress⟩ := r
  cases blocks with
  | nil => exact addItem_moved ⟨done, [], progress⟩ (.statement s)
  | cons inner outer => rfl

@[simp] theorem openBlock_moved (condition : Option String) :
    (r.moved items f).openBlock condition = (r.openBlock condition).moved items f := rfl

theorem settled?_moved : (r.moved items f).settled? = r.settled?.map (moved items f) := by
  obtain ⟨done, blocks, progress⟩ := r
  cases progress with
  | declared name => exact congrArg some (addItem_moved _ _)
  | targeted s => exact congrArg some (addStatement_moved _ _)
  | _ => rfl

end Parts

/-! ## Reading moved tokens -/

section Push

variable {items : List Item} {f : Token → Token} (hf : Token.Moves f) (r : Reading) (t : Token)

include hf

theorem begin_moved :
    (r.moved items f).begin_ (f t) = movedAnswer items f (r.begin_ t) := by
  obtain ⟨done, blocks, progress⟩ := r
  unfold begin_
  rw [hf.kind, hf.content]
  dsimp only [moved]
  split
  case h_5 inner outer _ => exact congrArg Except.ok (addStatement_moved ⟨done, outer, progress⟩ _)
  all_goals rfl

theorem pushBranchDone_moved (done : List Block) :
    (r.moved items f).pushBranchDone done (f t)
      = movedAnswer items f (r.pushBranchDone done t) := by
  unfold pushBranchDone
  rw [hf.kind]
  split
  case h_2 => exact congrArg Except.ok (addStatement_moved r _)
  all_goals rfl

theorem pushTarget_moved (s : Signal) :
    (r.moved items f).pushTarget s (f t) = movedAnswer items f (r.pushTarget s t) := by
  unfold pushTarget
  rw [hf.kind, hf.content]
  split <;> rfl

theorem pushMark_moved (s : Signal) :
    (r.moved items f).pushMark s (f t) = movedAnswer items f (r.pushMark s t) := by
  unfold pushMark
  rw [hf.kind]
  split
  case h_3 => exact pushTarget_moved hf r t s
  all_goals rfl

theorem pushShaft_moved (s : Signal) :
    (r.moved items f).pushShaft s (f t) = movedAnswer items f (r.pushShaft s t) := by
  unfold pushShaft
  rw [hf.kind]
  split <;> rfl

/-- A token that is moved is read as where it was. -/
theorem push_moved : (r.moved items f).push (f t) = movedAnswer items f (r.push t) := by
  have hkind := hf.kind t
  have hcontent := hf.content t
  -- The parts of a construct that is finished or gone on with behind the same construct.
  have hbegin (r : Reading) : (r.moved items f).begin_ (f t) = _ := begin_moved hf r t
  have hbranch (r : Reading) done : (r.moved items f).pushBranchDone done (f t) = _ :=
    pushBranchDone_moved hf r t done
  have hshaft (r : Reading) s : (r.moved items f).pushShaft s (f t) = _ := pushShaft_moved hf r t s
  have hmark (r : Reading) s : (r.moved items f).pushMark s (f t) = _ := pushMark_moved hf r t s
  have htarget (r : Reading) s : (r.moved items f).pushTarget s (f t) = _ :=
    pushTarget_moved hf r t s
  fun_cases push r t <;> simp_all [push, Progress.moved] <;> rfl

theorem pushAll_moved (ts : List Token) :
    (r.moved items f).pushAll (ts.map f) = movedAnswer items f (r.pushAll ts) := by
  induction ts generalizing r with
  | nil => rfl
  | cons t ts ih =>
    rw [List.map_cons, pushAll_cons, pushAll_cons, push_moved hf]
    cases r.push t with
    | error e => rfl
    | ok q => exact ih q

end Push

theorem Reads.moved {r q : Reading} {ts : List Token} (h : Reads r ts q) {f : Token → Token}
    (hf : Token.Moves f) (items : List Item) :
    Reads (r.moved items f) (ts.map f) (q.moved items f) := by
  rw [Reads, pushAll_moved hf, show r.pushAll ts = .ok q from h]
  rfl

end Reading

/-! ## Tokens that say the same -/

/-- The token at the first place of a source. -/
def Token.unplaced (t : Token) : Token := ⟨t.kind, some t.content, 1, 1⟩

theorem Token.moves_unplaced : Token.Moves Token.unplaced := ⟨fun _ => rfl, fun _ => rfl⟩

theorem map_unplaced {ts us : List Token} (h : us.map Token.piece = ts.map Token.piece) :
    us.map Token.unplaced = ts.map Token.unplaced := by
  have hmap (ts : List Token) :
      ts.map Token.unplaced = (ts.map Token.piece).map fun p => ⟨p.1, some p.2, 1, 1⟩ := by
    rw [List.map_map]
    rfl
  rw [hmap, hmap, h]

namespace Reading

/-- Tokens that say the same are read alike; only where they stand may differ. -/
theorem Reads.of_pieces {q : Reading} {ts us : List Token} (h : Reads {} ts q)
    (hus : us.map Token.piece = ts.map Token.piece) :
    ∃ q', Reads {} us q' ∧ q'.moved [] Token.unplaced = q.moved [] Token.unplaced := by
  have hts : Reads {} (ts.map Token.unplaced) (q.moved [] Token.unplaced) :=
    h.moved Token.moves_unplaced []
  have hmoved : (({} : Reading).moved [] Token.unplaced).pushAll (us.map Token.unplaced) = _ :=
    pushAll_moved Token.moves_unplaced {} us
  rw [map_unplaced hus] at hmoved
  cases hread : ({} : Reading).pushAll us with
  | error e =>
    rw [hread] at hmoved
    cases hmoved.symm.trans hts
  | ok q' =>
    rw [hread] at hmoved
    exact ⟨q', hread, Except.ok.inj (hmoved.symm.trans hts)⟩

end Reading

end SequenceChart
