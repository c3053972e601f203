import SequenceChart.Proofs.Reading.Completed
import SequenceChart.Proofs.Reading.Faulted
set_option autoImplicit false

/-!
# The place where a row of tokens breaks

A row of tokens that is no document breaks at one place: some document starts with the tokens
before it and none with the token there, or all the tokens start a document and something is
missing behind them.  Main statement: reading stops at that place, takes no token behind it, and
finds its fault at the token there; only an arrow with neither end is reported at its shaft, the
token before.
-/

namespace SequenceChart

namespace SyntaxProblem

theorem head?_text (p : SyntaxProblem) :
    p.text.toList.head? = match p with
      | expected .. => some 'E'
      | noStatement _ => some 'U'
      | endless => some 'A' := by
  have happend {c : Char} (s t : String) (hs : s.toList.head? = some c) :
      (s ++ t).toList.head? = some c := by
    rw [String.toList_append, List.head?_append, hs]
    rfl
  cases p with
  | expected kinds got =>
    unfold text
    apply happend
    apply happend
    apply happend
    decide
  | noStatement got =>
    unfold text
    apply happend
    decide
  | endless => decide

/-- The first letter of its text tells an arrow with neither end from the other problems. -/
theorem text_eq_endless_iff (p : SyntaxProblem) :
    p.text = "Arrow has neither head nor tail" ↔ p = .endless := by
  constructor
  · intro h
    have hfirst := p.head?_text
    rw [h] at hfirst
    cases p with
    | expected kinds got => cases hfirst
    | noStatement got => cases hfirst
    | endless => rfl
  · rintro rfl
    rfl

end SyntaxProblem

namespace Reading

/-- The end of the input behind tokens that run out without one; `line` and `column` are those of
the token before them. -/
def endAfter (line column : Int) (ts : List Token) : Token :=
  ts.getLast?.elim (endAt line column) fun t => endAt t.line t.column

theorem endAfter_cons (line column : Int) (t : Token) (ts : List Token) :
    endAfter line column (t :: ts) = endAfter t.line t.column ts := by
  cases ts with
  | nil => rfl
  | cons u us =>
    rw [endAfter, endAfter, List.getLast?_cons_cons, List.getLast?_cons]
    rfl

/-- The token at a place in a row; behind the last one that is the end of the input. -/
def tokenAt (line column : Int) (ts : List Token) (k : Nat) : Token :=
  ts[k]?.getD (endAfter line column ts)

theorem tokenAt_cons_succ (line column : Int) (t : Token) (ts : List Token) (k : Nat) :
    tokenAt line column (t :: ts) (k + 1) = tokenAt t.line t.column ts k := by
  rw [tokenAt, tokenAt, List.getElem?_cons_succ, endAfter_cons]

/-- Reads tokens up to the first end of the input, and hands back the tokens not taken. -/
def takeTokens (r : Reading) (line column : Int) :
    List Token → Except SyntaxFault Reading × List Token
  | [] => (r.push (endAt line column), [])
  | t :: rest =>
    if t.kind = .endOfInput then (r.push t, rest)
    else match r.push t with
      | .error why => (.error why, rest)
      | .ok r => r.takeTokens t.line t.column rest

theorem fst_takeTokens (r : Reading) (line column : Int) (ts : List Token) :
    (r.takeTokens line column ts).1 = r.run line column ts := by
  induction ts generalizing r line column with
  | nil => rfl
  | cons t ts ih =>
    rw [takeTokens, run]
    split
    · rfl
    · cases r.push t with
      | error why => rfl
      | ok q => exact ih q t.line t.column

/-- Reading that fails has read the tokens before some place, is refused the token there and has
taken none behind it. -/
theorem exists_refused {ts : List Token} (hts : ∀ t ∈ ts, t.kind ≠ .endOfInput) {r : Reading}
    {line column : Int} {why : SyntaxFault} (h : r.run line column ts = .error why) :
    ∃ k q, k ≤ ts.length ∧ Reads r (ts.take k) q ∧ q.push (tokenAt line column ts k) = .error why ∧
      (r.takeTokens line column ts).2 = ts.drop (k + 1) := by
  induction ts generalizing r line column with
  | nil => exact ⟨0, r, Nat.le_refl 0, Reads.refl r, h, rfl⟩
  | cons t ts ih =>
    obtain ⟨ht, hts⟩ := List.forall_mem_cons.1 hts
    rw [run, if_neg ht] at h
    cases hpush : r.push t with
    | error fault =>
      rw [hpush] at h
      cases h
      refine ⟨0, r, Nat.zero_le _, Reads.refl r, hpush, ?_⟩
      rw [takeTokens, if_neg ht, hpush]
      rfl
    | ok r' =>
      rw [hpush] at h
      obtain ⟨k, q, hk, hread, hrefused, htaken⟩ := ih hts h
      refine ⟨k + 1, q, Nat.succ_le_succ hk, (Reads.single hpush).append hread, ?_, ?_⟩
      · rw [tokenAt_cons_succ]
        exact hrefused
      · rw [takeTokens, if_neg ht, hpush]
        exact htaken

/-- A row of tokens is refused at a token that is refused. -/
theorem pushAll_concat_of_refused {ts : List Token} {r q : Reading} {t : Token} {why : SyntaxFault}
    (hread : Reads r ts q) (h : q.push t = .error why) :
    r.pushAll (ts ++ [t]) = .error why := by
  rw [pushAll_append, show r.pushAll ts = .ok q from hread]
  show (q.push t).bind _ = _
  rw [h]
  rfl

/-- A refused token is blamed itself, or else the shaft read just before it. -/
theorem blamed_of_refused {ts : List Token} {q : Reading} {t : Token} {why : SyntaxFault}
    (hread : Reads {} ts q) (h : q.push t = .error why) :
    (why.problem ≠ .endless ∧ why.token = t) ∨
      why.problem = .endless ∧ ts.getLast? = some why.token ∧
        ∃ dotted, why.token.kind = .shaft dotted := by
  rcases local_push q t with hlocal | ⟨s, at_, hprogress, hendless⟩
  · rw [h] at hlocal
    exact .inl ⟨hlocal.2, hlocal.1⟩
  · rw [h] at hendless
    cases hendless
    exact .inr ⟨rfl, hread.getLast?_of_shaft hprogress⟩

end Reading

namespace Chart

/-- Some document starts with these tokens. -/
def Viable (ts : List Token) : Prop := ∃ rest c, ofTokens (ts ++ rest) = .ok c

theorem Viable.of_append {ts us : List Token} (h : Viable (ts ++ us)) : Viable ts := by
  obtain ⟨rest, c, hc⟩ := h
  exact ⟨us ++ rest, c, by rwa [← List.append_assoc]⟩

theorem Viable.take {ts : List Token} {j k : Nat} (h : Viable (ts.take k)) (hjk : j ≤ k) :
    Viable (ts.take j) := by
  obtain ⟨n, rfl⟩ := Nat.exists_eq_add_of_le hjk
  rw [List.take_add] at h
  exact h.of_append

/-- A row of tokens breaks at a place. -/
structure BreaksAt (ts : List Token) (k : Nat) : Prop where
  le : k ≤ ts.length
  /-- Some document starts with the tokens before it. -/
  viable : Viable (ts.take k)
  /-- If a token stands there, no document starts with the tokens up to it. -/
  stuck : k < ts.length → ¬Viable (ts.take (k + 1))
  /-- If no token stands there, something is missing. -/
  incomplete : k = ts.length → ∀ c, ofTokens ts ≠ .ok c

/-- A row of tokens breaks at one place. -/
theorem BreaksAt.eq {ts : List Token} {j k : Nat} (hj : BreaksAt ts j) (hk : BreaksAt ts k) :
    j = k := by
  rcases Nat.lt_trichotomy j k with hlt | heq | hlt
  · exact absurd (hk.viable.take hlt) (hj.stuck (Nat.lt_of_lt_of_le hlt hk.le))
  · exact heq
  · exact absurd (hj.viable.take hlt) (hk.stuck (Nat.lt_of_lt_of_le hlt hj.le))

/-- The fault of a row of tokens is that of reading them. -/
theorem run_eq_error {ts : List Token} {why : SyntaxFault} (h : ofTokens ts = .error why) :
    ({} : Reading).run 1 1 ts = .error why := by
  rw [ofTokens] at h
  cases hrun : ({} : Reading).run 1 1 ts with
  | ok r =>
    rw [hrun] at h
    cases h
  | error fault =>
    rw [hrun] at h
    cases h
    rfl

/-- What follows tokens that are refused does not change the fault. -/
theorem ofTokens_append_of_refused {ts : List Token} (hts : ∀ t ∈ ts, t.kind ≠ .endOfInput)
    {why : SyntaxFault} (h : ({} : Reading).pushAll ts = .error why) (rest : List Token) :
    ofTokens (ts ++ rest) = .error why := by
  obtain ⟨last, -, hrun⟩ := Reading.run_eq_pushAll (ts ++ rest) {} 1 1
  rw [ofTokens, hrun, Reading.beforeEnd_append hts, Reading.pushAll_append, h]
  rfl

/-- The last of the first tokens stands just before the place where they end. -/
theorem exists_getElem?_of_getLast?_take {ts : List Token} {k : Nat} {t : Token}
    (hk : k ≤ ts.length) (h : (ts.take k).getLast? = some t) :
    ∃ j, k = j + 1 ∧ ts[j]? = some t := by
  cases k with
  | zero => cases h
  | succ j =>
    refine ⟨j, rfl, ?_⟩
    rw [List.getLast?_take, if_neg (Nat.succ_ne_zero j), Nat.add_sub_cancel,
      List.getElem?_eq_getElem hk] at h
    rw [List.getElem?_eq_getElem hk]
    exact h

/-- How the fault of a row of tokens that breaks at a place is found. -/
structure FoundAt (ts : List Token) (k : Nat) (why : SyntaxFault) : Prop where
  /-- No token behind the place is taken. -/
  taken : ({} : Reading).takeTokens 1 1 ts = (.error why, ts.drop (k + 1))
  /-- With anything else behind the place, the fault is the same. -/
  settled : k < ts.length → ∀ rest, ofTokens (ts.take (k + 1) ++ rest) = .error why
  /-- The fault is found at the token at the place. -/
  there : why.text ≠ "Arrow has neither head nor tail" →
    why.token = Reading.tokenAt 1 1 ts k
  /-- An arrow with neither end is found at its shaft, the token before the place. -/
  shaft : why.text = "Arrow has neither head nor tail" →
    ∃ j dotted, k = j + 1 ∧ ts[j]? = some why.token ∧ why.token.kind = .shaft dotted

/-- A syntax fault is found at the earliest place: the one place at which the tokens break. -/
theorem ofTokens_fault_earliest {ts : List Token} (hts : ∀ t ∈ ts, t.kind ≠ .endOfInput)
    {why : SyntaxFault} (h : ofTokens ts = .error why) :
    ∃ k, BreaksAt ts k ∧ (∀ j, BreaksAt ts j → j = k) ∧ FoundAt ts k why := by
  have hrun := run_eq_error h
  obtain ⟨k, q, hk, hread, hrefused, hrest⟩ := Reading.exists_refused hts hrun
  have htaken : ({} : Reading).takeTokens 1 1 ts = (.error why, ts.drop (k + 1)) :=
    Prod.ext ((Reading.fst_takeTokens {} 1 1 ts).trans hrun) hrest
  have hbefore : ∀ j, ∀ t ∈ ts.take j, t.kind ≠ .endOfInput :=
    fun j t ht => hts t (List.mem_of_mem_take ht)
  have hsettled : k < ts.length → ∀ rest, ofTokens (ts.take (k + 1) ++ rest) = .error why := by
    intro hlt
    apply ofTokens_append_of_refused (hbefore (k + 1))
    rw [Reading.tokenAt, List.getElem?_eq_getElem hlt] at hrefused
    rw [List.take_succ_eq_append_getElem hlt]
    exact Reading.pushAll_concat_of_refused hread hrefused
  have hbreaks : BreaksAt ts k := by
    refine ⟨hk, (exists_ofTokens_append_iff (hbefore k)).2 ⟨q, hread⟩, ?_, ?_⟩
    · rintro hlt ⟨rest, c, hc⟩
      rw [hsettled hlt rest] at hc
      cases hc
    · intro _ c hc
      rw [h] at hc
      cases hc
  refine ⟨k, hbreaks, fun j hj => hj.eq hbreaks, htaken, hsettled, ?_, ?_⟩
  · intro htext
    rcases Reading.blamed_of_refused hread hrefused with ⟨-, hthere⟩ | ⟨hendless, -⟩
    · exact hthere
    · exact absurd ((SyntaxProblem.text_eq_endless_iff _).2 hendless) htext
  · intro htext
    rcases Reading.blamed_of_refused hread hrefused with ⟨hne, -⟩ | ⟨-, hlast, dotted, hkind⟩
    · exact absurd ((SyntaxProblem.text_eq_endless_iff _).1 htext) hne
    · obtain ⟨j, hj, hshaft⟩ := exists_getElem?_of_getLast?_take hk hlast
      exact ⟨j, dotted, hj, hshaft, hkind⟩

/-- Inside an open block an arrow has neither end: the name behind it shows that, and what follows
the name is not taken. -/
theorem ofTokens_fault_earliest_bare :
    ∃ ts why, ts = [⟨.keyword .opt, some "opt", 1, 1⟩, ⟨.identifier, some "A", 2, 1⟩,
        ⟨.shaft false, some "-", 2, 2⟩, ⟨.identifier, some "B", 2, 3⟩, ⟨.colon, some ":", 2, 4⟩] ∧
      (∀ t ∈ ts, t.kind ≠ .endOfInput) ∧ ofTokens ts = .error why ∧
      why.message = "Line 2, column 2: Arrow has neither head nor tail" ∧
      BreaksAt ts 3 ∧ FoundAt ts 3 why := by
  obtain ⟨ts, hts⟩ : ∃ ts : List Token, ts = [⟨.keyword .opt, some "opt", 1, 1⟩,
    ⟨.identifier, some "A", 2, 1⟩, ⟨.shaft false, some "-", 2, 2⟩, ⟨.identifier, some "B", 2, 3⟩,
    ⟨.colon, some ":", 2, 4⟩] := ⟨_, rfl⟩
  have hend : ∀ t ∈ ts, t.kind ≠ .endOfInput := by
    rw [hts]
    decide
  have hfault : ofTokens ts = .error ⟨.endless, ⟨.shaft false, some "-", 2, 2⟩⟩ := by
    rw [hts]
    rfl
  obtain ⟨k, hbreaks, -, hfound⟩ := ofTokens_fault_earliest hend hfault
  have hleft := congrArg (fun taken => taken.2.length) hfound.taken
  rw [hts] at hleft
  have hk : 3 = k := by
    have hone : 1 = 5 - (k + 1) := hleft.trans (List.length_drop ..)
    omega
  subst hk
  exact ⟨ts, _, hts, hend, hfault, by decide, hbreaks, hfound⟩

end Chart

end SequenceChart
