import SequenceChart.Pipeline
import SequenceChart.Proofs.Grammar.Phrase
set_option autoImplicit false

/-!
# Readings between two constructs

A reading is settled when the construct in progress may end where it stands.  The next token then
either goes on with that construct or starts the next one, as if the construct were finished
already: what is left to show about a settled reading is what `begin_` does.
-/

namespace SequenceChart

namespace Reading

/-- The reading with another construct in progress. -/
def going (r : Reading) (progress : Progress) : Reading := { r with progress }

@[simp] theorem progress_going (r : Reading) (p : Progress) : (r.going p).progress = p := rfl

@[simp] theorem going_going (r : Reading) (p p' : Progress) :
    (r.going p).going p' = r.going p' := rfl

@[simp] theorem move_eq_going (r : Reading) (p : Progress) : r.move p = .ok (r.going p) := rfl

@[simp] theorem addItem_going (r : Reading) (p : Progress) (item : Item) :
    (r.going p).addItem item = r.addItem item := rfl

@[simp] theorem openBlock_going (r : Reading) (p : Progress) (condition : Option String) :
    (r.going p).openBlock condition = r.openBlock condition := rfl

@[simp] theorem addStatement_going (r : Reading) (p : Progress) (s : Statement) :
    (r.going p).addStatement s = r.addStatement s := by
  obtain ⟨items, blocks, _⟩ := r
  cases blocks <;> rfl

@[simp] theorem progress_addStatement (r : Reading) (s : Statement) :
    (r.addStatement s).progress = .idle := by
  unfold addStatement
  split <;> rfl

/-! ## Rows of tokens -/

/-- The row of tokens takes one reading to another. -/
def Reads (r : Reading) (ts : List Token) (r' : Reading) : Prop := r.pushAll ts = .ok r'

theorem Reads.refl (r : Reading) : Reads r [] r := rfl

theorem pushAll_cons (r : Reading) (t : Token) (ts : List Token) :
    r.pushAll (t :: ts) = (r.push t).bind fun q => q.pushAll ts := rfl

theorem pushAll_append (r : Reading) (ts us : List Token) :
    r.pushAll (ts ++ us) = (r.pushAll ts).bind fun q => q.pushAll us := by
  induction ts generalizing r with
  | nil => rfl
  | cons t ts ih =>
    rw [List.cons_append, pushAll_cons, pushAll_cons]
    cases r.push t with
    | error e => rfl
    | ok q => exact ih q

theorem Reads.single {r r' : Reading} {t : Token} (h : r.push t = .ok r') : Reads r [t] r' := by
  rw [Reads, pushAll_cons, h]
  rfl

theorem Reads.append {r r' r'' : Reading} {ts us : List Token} (h : Reads r ts r')
    (h' : Reads r' us r'') : Reads r (ts ++ us) r'' := by
  rw [Reads, pushAll_append, h]
  exact h'

theorem Reads.uncons {r r'' : Reading} {t : Token} {ts : List Token} (h : Reads r (t :: ts) r'') :
    ∃ r', r.push t = .ok r' ∧ Reads r' ts r'' := by
  rw [Reads, pushAll_cons] at h
  cases ht : r.push t with
  | error e =>
    rw [ht] at h
    cases h
  | ok r' =>
    rw [ht] at h
    exact ⟨r', rfl, h⟩

theorem Reads.of_append {r r'' : Reading} {ts us : List Token} (h : Reads r (ts ++ us) r'') :
    ∃ r', Reads r ts r' ∧ Reads r' us r'' := by
  rw [Reads, pushAll_append] at h
  cases hts : r.pushAll ts with
  | error e =>
    rw [hts] at h
    cases h
  | ok r' =>
    rw [hts] at h
    exact ⟨r', hts, h⟩

/-- The tokens are read up to the first end of the input, and then some token for the end. -/
theorem run_eq_pushAll (ts : List Token) (r : Reading) (line column : Int) :
    ∃ last : Token, last.kind = .endOfInput ∧
      r.run line column ts = (r.pushAll (beforeEnd ts)).bind fun q => q.push last := by
  induction ts generalizing r line column with
  | nil => exact ⟨endAt line column, rfl, rfl⟩
  | cons t ts ih =>
    by_cases ht : t.kind = .endOfInput
    · refine ⟨t, ht, ?_⟩
      simp only [run, beforeEnd, List.takeWhile_cons, ht]
      rfl
    · have hbefore : beforeEnd (t :: ts) = t :: beforeEnd ts := by
        simp [beforeEnd, ht]
      rw [hbefore, pushAll_cons, run, if_neg ht]
      cases r.push t with
      | error e => exact ⟨endAt line column, rfl, rfl⟩
      | ok q => exact ih q t.line t.column

/-! ## Parts that may be left out -/

/-- Without a condition, the token after the start of a branch ends the branch. -/
theorem push_branch_of_ne_text {r : Reading} {done : List Block} {label : BlockLabel} {t : Token}
    (hr : r.progress = .branch done label) (ht : t.kind ≠ .text) :
    r.push t = r.pushBranchDone (done ++ [⟨label, none, []⟩]) t := by
  unfold push
  split <;> simp_all

/-- Without a tail, the token after the source is the shaft. -/
theorem push_source_of_ne_tail {r : Reading} {s : Signal} {t : Token}
    (hr : r.progress = .source s) (ht : ∀ shape, t.kind ≠ .tail shape) :
    r.push t = r.pushShaft s t := by
  unfold push
  split <;> simp_all

/-- Without a head, the arrow is finished if it has a tail. -/
theorem push_shaft_of_ne_head {r : Reading} {s : Signal} {at_ t : Token}
    (hr : r.progress = .shaft s at_) (ht : ∀ shape, t.kind ≠ .head shape) :
    r.push t = if s.tail.isNone then .error ⟨.endless, at_⟩ else r.pushMark s t := by
  unfold push
  split <;> simp_all

/-! ## Settled readings -/

/-- The reading with the construct in progress finished, if it may end here. -/
def settled? (r : Reading) : Option Reading :=
  match r.progress with
  | .idle => some r
  | .declared name => some (r.addItem (.participant name none))
  | .opt => some (r.openBlock none)
  | .targeted s => some (r.addStatement (.signal s))
  | _ => none

/-- The kinds that go on with a construct that may end. -/
def continuations : List TokenKind := [.text, .colon, .keyword .as_]

/-- A token that does not go on with the construct in progress starts the next one. -/
theorem push_of_settled {r q : Reading} {t : Token} (h : r.settled? = some q)
    (ht : t.kind ∉ continuations) : r.push t = q.begin_ t := by
  simp only [continuations, List.mem_cons, List.not_mem_nil, or_false, not_or] at ht
  obtain ⟨items, blocks, progress⟩ := r
  cases progress with
  | idle =>
    simp only [settled?, Option.some.injEq] at h
    rw [← h]
    rfl
  | declared name =>
    simp only [settled?, Option.some.injEq] at h
    rw [← h]
    unfold push
    split <;> simp_all
  | opt =>
    simp only [settled?, Option.some.injEq] at h
    rw [← h]
    unfold push
    split <;> simp_all
  | targeted s =>
    simp only [settled?, Option.some.injEq] at h
    rw [← h]
    unfold push
    split <;> simp_all
  | _ => simp [settled?] at h

/-! ## The word that no construct has -/

theorem begin_note {r : Reading} {t : Token} (h : t.kind = .keyword .note) :
    r.begin_ t = .error ⟨.noStatement t, t⟩ := by
  unfold begin_
  rw [h]

/-- The word `note` is a keyword of the scanner, but no construct starts or goes on with it. -/
theorem push_note {r q : Reading} {t : Token} (h : r.push t = .ok q) :
    t.kind ≠ .keyword .note := by
  intro hnote
  cases hq : r.settled? with
  | some q' =>
    rw [push_of_settled hq (by rw [hnote]; decide), begin_note hnote] at h
    cases h
  | none =>
    obtain ⟨items, blocks, progress⟩ := r
    cases progress <;> simp [settled?] at hq <;>
      simp [push, pushBranchDone, pushShaft, pushMark, pushTarget, refuse, hnote] at h
    split at h <;> cases h

theorem Reads.ne_note {r q : Reading} {ts : List Token} (h : Reads r ts q) :
    ∀ t ∈ ts, t.kind ≠ .keyword .note := by
  induction ts generalizing r with
  | nil => nofun
  | cons t ts ih =>
    obtain ⟨r', hpush, hrest⟩ := h.uncons
    exact List.forall_mem_cons.2 ⟨push_note hpush, ih hrest⟩

theorem settled?_of_idle {r : Reading} (h : r.progress = .idle) : r.settled? = some r := by
  rw [settled?, h]

theorem progress_of_settled {r q' : Reading} (h : r.settled? = some q') :
    q'.progress = .idle := by
  obtain ⟨done, blocks, progress⟩ := r
  cases progress <;> simp only [settled?, Option.some.injEq, reduceCtorEq] at h <;> subst h
  case targeted s => exact progress_addStatement _ _
  all_goals rfl

end Reading

end SequenceChart
