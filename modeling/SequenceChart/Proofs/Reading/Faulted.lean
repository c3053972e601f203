import SequenceChart.Proofs.Reading.Settled
set_option autoImplicit false

/-!
# Where a syntax fault is found

Reading stops at the token that is refused.  The fault is found at that token, with one exception:
an arrow that is not finished because it has neither end is reported at its shaft.
-/

namespace SequenceChart

namespace Reading

/-- The reading of a row of tokens stops at a token: the tokens before it are read, and it is
refused. -/
def StopsAt (ts : List Token) (t : Token) (why : SyntaxFault) : Prop :=
  ∃ before after r, ts = before ++ t :: after ∧ ({} : Reading).pushAll before = .ok r ∧
    r.push t = .error why

theorem StopsAt.append {ts : List Token} {t : Token} {why : SyntaxFault} (h : StopsAt ts t why)
    (us : List Token) : StopsAt (ts ++ us) t why := by
  obtain ⟨before, after, r, rfl, hread, hrefused⟩ := h
  exact ⟨before, after ++ us, r, List.append_assoc before (t :: after) us, hread, hrefused⟩

/-- Reading that fails stops at one of the tokens that had still to be read. -/
theorem exists_stopsAt {ts us : List Token} {q : Reading} {why : SyntaxFault}
    (hread : ({} : Reading).pushAll ts = .ok q) (h : q.pushAll us = .error why) :
    ∃ t ∈ us, StopsAt (ts ++ us) t why := by
  induction us generalizing ts q with
  | nil => cases h
  | cons t us ih =>
    rw [pushAll_cons] at h
    cases ht : q.push t with
    | error fault =>
      rw [ht] at h
      cases h
      exact ⟨t, List.mem_cons_self, ts, us, q, rfl, hread, ht⟩
    | ok q' =>
      rw [ht] at h
      have hread' : ({} : Reading).pushAll (ts ++ [t]) = .ok q' := by
        rw [pushAll_append, hread, ← ht]
        show (q.push t).bind _ = _
        cases q.push t <;> rfl
      obtain ⟨u, hu, hstop⟩ := ih hread' h
      rw [List.append_assoc, List.singleton_append] at hstop
      exact ⟨u, List.mem_cons_of_mem t hu, hstop⟩

/-- A step at a token finds its fault there, which is not that of an arrow without ends, and
remembers no token but a shaft that it is at. -/
def Local (t : Token) : Except SyntaxFault Reading → Prop
  | .error why => why.token = t ∧ why.problem ≠ .endless
  | .ok r => ∀ s at_, r.progress = .shaft s at_ → at_ = t ∧ ∃ dotted, t.kind = .shaft dotted

section Local

variable {r : Reading} {t : Token}

theorem local_ok (h : ∀ s at_, r.progress ≠ .shaft s at_) : Local t (.ok r) :=
  fun s at_ hr => absurd hr (h s at_)

theorem local_move {p : Progress} (h : ∀ s at_, p ≠ .shaft s at_) : Local t (r.move p) :=
  local_ok h

theorem local_addItem (item : Item) : Local t (.ok (r.addItem item)) :=
  local_ok (by simp [addItem])

theorem local_addStatement (s : Statement) : Local t (.ok (r.addStatement s)) :=
  local_ok (by simp [progress_addStatement])

theorem local_openBlock (condition : Option String) : Local t (.ok (r.openBlock condition)) :=
  local_ok (by simp [openBlock])

theorem local_refuse (kinds : List TokenKind) : Local t (refuse kinds t) :=
  ⟨rfl, SyntaxProblem.noConfusion⟩

theorem local_begin_ : Local t (r.begin_ t) := by
  unfold begin_
  split
  case h_1 => exact local_ok (by simp)
  case h_2 | h_3 | h_6 | h_7 | h_8 => exact local_move (by simp)
  case h_4 => exact local_refuse _
  case h_5 => exact local_addStatement _
  case h_9 => exact ⟨rfl, SyntaxProblem.noConfusion⟩

theorem local_pushBranchDone (done : List Block) : Local t (r.pushBranchDone done t) := by
  unfold pushBranchDone
  split
  case h_1 => exact local_move (by simp)
  case h_2 => exact local_addStatement _
  case h_3 => exact local_refuse _

theorem local_pushTarget (s : Signal) : Local t (r.pushTarget s t) := by
  unfold pushTarget
  split
  case h_1 => exact local_move (by simp)
  case h_2 => exact local_refuse _

theorem local_pushMark (s : Signal) : Local t (r.pushMark s t) := by
  unfold pushMark
  split
  case h_1 | h_2 => exact local_move (by simp)
  case h_3 => exact local_pushTarget s

theorem local_pushShaft (s : Signal) : Local t (r.pushShaft s t) := by
  unfold pushShaft
  split
  case h_1 dotted hkind =>
    intro s' at_ h
    cases h
    exact ⟨rfl, dotted, hkind⟩
  case h_2 => exact local_refuse _

/-- Only the step after the shaft of an arrow can find its fault elsewhere: at that shaft. -/
theorem local_push (r : Reading) (t : Token) :
    Local t (r.push t) ∨ ∃ s at_, r.progress = .shaft s at_ ∧ r.push t = .error ⟨.endless, at_⟩ := by
  unfold push
  split
  case h_1 | h_7 | h_11 | h_23 => exact .inl local_begin_
  case h_2 | h_8 => exact .inl (local_addItem _)
  case h_3 | h_5 | h_9 | h_25 => exact .inl (local_refuse _)
  case h_4 | h_6 | h_12 | h_15 | h_18 | h_22 => exact .inl (local_move (by simp))
  case h_10 => exact .inl (local_openBlock _)
  case h_13 | h_14 => exact .inl (local_pushBranchDone _)
  case h_16 | h_17 => exact .inl (local_pushShaft _)
  case h_20 => exact .inl (local_pushMark _)
  case h_21 => exact .inl (local_pushTarget _)
  case h_24 => exact .inl (local_addStatement _)
  case h_19 s at_ hprogress _ =>
    split
    · exact .inr ⟨s, at_, hprogress, rfl⟩
    · exact .inl (local_pushMark s)

end Local

/-- The shaft that is remembered is the token read last. -/
theorem Reads.getLast?_of_shaft {ts : List Token} {r : Reading} (h : Reads {} ts r) {s : Signal}
    {at_ : Token} (hr : r.progress = .shaft s at_) :
    ts.getLast? = some at_ ∧ ∃ dotted, at_.kind = .shaft dotted := by
  rcases List.eq_nil_or_concat ts with rfl | ⟨before, t, rfl⟩
  · cases h
    cases hr
  · rw [List.concat_eq_append] at h ⊢
    obtain ⟨q, -, hlast⟩ := h.of_append
    obtain ⟨r', hpush, hdone⟩ := hlast.uncons
    cases hdone
    rcases local_push q t with hlocal | ⟨_, _, -, hendless⟩
    · rw [hpush] at hlocal
      obtain ⟨rfl, hkind⟩ := hlocal s at_ hr
      exact ⟨List.getLast?_concat, hkind⟩
    · rw [hpush] at hendless
      cases hendless

/-- A fault is found at a token that has been read, or at the shaft that was read before. -/
theorem token_of_pushAll_eq_error {P : Token → Prop} {ts : List Token} {r : Reading}
    {why : SyntaxFault} (hr : ∀ s at_, r.progress = .shaft s at_ → P at_) (hts : ∀ t ∈ ts, P t)
    (h : r.pushAll ts = .error why) : P why.token := by
  induction ts generalizing r with
  | nil => cases h
  | cons t ts ih =>
    obtain ⟨ht, hts⟩ := List.forall_mem_cons.1 hts
    rw [pushAll_cons] at h
    rcases local_push r t with hlocal | ⟨s, at_, hprogress, hendless⟩
    · cases hpush : r.push t with
      | error fault =>
        rw [hpush] at h hlocal
        cases h
        exact (show why.token = t from hlocal.1) ▸ ht
      | ok q =>
        rw [hpush] at h hlocal
        exact ih (fun s at_ hq => (hlocal s at_ hq).1 ▸ ht) hts h
    · rw [hendless] at h
      cases h
      exact hr s at_ hprogress

/-- A fault of a whole row of tokens is found at one of them. -/
theorem token_mem_of_pushAll_eq_error {ts : List Token} {why : SyntaxFault}
    (h : ({} : Reading).pushAll ts = .error why) : why.token ∈ ts := by
  refine token_of_pushAll_eq_error (P := fun t => t ∈ ts) ?_ (fun _ ht => ht) h
  intro s at_ hidle
  cases hidle

end Reading

end SequenceChart
