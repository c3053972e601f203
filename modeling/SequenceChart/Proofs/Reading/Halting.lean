import SequenceChart.Proofs.Reading.Followed
set_option autoImplicit false

/-!
# The end of a descent

Main statement: a round of a loop consumes a token, leaves the loop or is refused, and a call for a
statement consumes a token or is refused.  Hence no descent is cut off whose limit is above the
number of tokens; it gives what reading token by token gives.  Its tokens are pulled in their
order, each once, one at a time and at most one ahead of those consumed.
-/

namespace SequenceChart

namespace Descent

variable {α β σ : Type} {r r' : Reading} {k : α → Reading} {c c' : Lookahead}
  {res : EStateM.Result Stop Lookahead α}

/-! ## Loops -/

/-- A routine that follows reading and, if it is done, has consumed a token. -/
structure Takes (r : Reading) (k : α → Reading) (c : Lookahead)
    (res : EStateM.Result Stop Lookahead α) : Prop where
  follows : Follows r k c res
  further : ∀ a c', res = .ok a c' → c.Further c'

theorem Takes.step (hne : c.current.kind ≠ .endOfInput) (hpush : r.push c.current = .ok r')
    (h : Follows r' k c.advance res) : Takes r k c res where
  follows := h.step hne hpush
  further := fun _ _ hres => .of_advance hne (h.onward hres)

theorem Takes.map {m : Descent α} {g : α → β} {k' : β → Reading}
    (h : Takes r (fun a => k' (g a)) c (m c')) :
    Takes r k' c ((do return g (← m) : Descent β) c') where
  follows := h.follows.map
  further := by
    intro b c'' hres
    obtain ⟨a, ha, -⟩ := exists_of_map hres
    exact h.further a c'' ha

/-- A round of a loop that follows reading: if the loop goes on, a token was consumed, and it is
left only at places of some kind. -/
structure Turns (F : σ → Reading) (k : α → Reading) (Q : Lookahead → Prop) (s : σ) (c : Lookahead)
    (res : EStateM.Result Stop Lookahead (σ ⊕ α)) : Prop where
  follows : Follows (F s) (Sum.elim F k) c res
  further : ∀ s' c', res = .ok (.inl s') c' → c.Further c'
  left_at : ∀ a c', res = .ok (.inr a) c' → Q c'

section Loop

variable {F : σ → Reading} {Q : Lookahead → Prop} {limit : Nat} {s : σ}

theorem Turns.leaves {a : α} (hQ : Q c) (h : F s = k a) : Turns F k Q s c (.ok (.inr a) c) where
  follows := .done h
  further := by rintro _ _ ⟨⟩
  left_at := by
    rintro _ _ ⟨⟩
    exact hQ

/-- A round in which the loop goes on with what a routine gives. -/
theorem Takes.turns {m : Descent β} {g : β → σ} (h : Takes (F s) (fun b => F (g b)) c (m c')) :
    Turns F k Q s c ((do return .inl (g (← m)) : Descent (σ ⊕ α)) c') where
  follows := Follows.map (g := fun b => Sum.inl (g b)) h.follows
  further := by
    intro s' c'' hres
    obtain ⟨b, hb, -⟩ := exists_of_map hres
    exact h.further b c'' hb
  left_at := by
    intro a c'' hres
    obtain ⟨b, -, hb⟩ := exists_of_map hres
    cases hb

/-- A loop with a limit above the number of tokens is left or refused before it is cut off. -/
theorem follows_rounds {round : σ → Descent (σ ⊕ α)}
    (hround : ∀ s c, c.left < limit → Turns F k Q s c (round s c)) {n : Nat} (hn : n ≤ limit)
    (s : σ) (c : Lookahead) (hc : c.left < n) :
    Follows (F s) k c (rounds round n s c) ∧
      ∀ a c', rounds round n s c = .ok a c' → Q c' := by
  -- by induction on the rounds that remain: a round after which the loop goes on leaves fewer
  -- tokens, so the rounds that remain are still more than the tokens left
  induction n generalizing s c with
  | zero => exact absurd hc (Nat.not_lt_zero _)
  | succ n ih =>
    obtain ⟨hfollows, hfurther, hleft⟩ := hround s c (Nat.lt_of_lt_of_le hc hn)
    rw [rounds]
    cases hres : round s c with
    | error why c' =>
      rw [hres] at hfollows
      rw [bind_of_error hres]
      refine ⟨?_, by rintro _ _ ⟨⟩⟩
      cases why <;> exact hfollows
    | ok next c' =>
      rw [hres] at hfollows
      rw [bind_of_ok hres]
      cases next with
      | inl s' =>
        have hlt := (hfurther s' c' hres).left_lt
        obtain ⟨hrest, hrestLeft⟩ := ih (Nat.le_of_succ_le hn) s' c' (by omega)
        exact ⟨hrest.after hfollows.1 hfollows.2, hrestLeft⟩
      | inr a =>
        refine ⟨hfollows, ?_⟩
        rintro _ _ ⟨⟩
        exact hleft a c' hres

end Loop

/-! ## The routines of blocks -/

theorem follows_branch (r : Reading) (done : List Block) (label : BlockLabel) (c : Lookahead) :
    Follows (r.going (.branch done label))
      (fun condition => r.going (.branchDone (done ++ [⟨label, condition, []⟩]))) c
      (acceptText c) := by
  refine Follows.acceptText (fun h => ?_) fun h => ?_
  · simp [Reading.push, h]
  · rw [Reading.push_branchDone]
    exact Reading.push_branch_of_ne_text rfl h

theorem turns_altRound (r : Reading) (s : List Block × Block) (c : Lookahead) :
    Turns (fun s => r.going (.branchDone (s.1 ++ [s.2]))) (fun done => r.addStatement (.group done))
      (fun _ => True) s c (altRound s c) := by
  obtain ⟨done, begun⟩ := s
  by_cases helse : c.current.kind = .keyword .else_
  · have hpush : (r.going (.branchDone (done ++ [begun]))).push c.current
        = .ok (r.going (.branch (done ++ [begun]) .else_)) := by
      rw [Reading.push_branchDone, Reading.pushBranchDone, helse]
      rfl
    rw [altRound, bind_of_ok (accept_of_eq helse)]
    exact Takes.turns (g := fun condition => (done ++ [begun], (⟨.else_, condition, []⟩ : Block)))
      (.step (by simp [helse]) hpush (follows_branch r (done ++ [begun]) .else_ c.advance))
  · rw [altRound, bind_of_ok (accept_of_ne helse)]
    have hends : Follows (r.going (.branchDone (done ++ [begun])))
        (fun _ => r.addStatement (.group (done ++ [begun]))) c
        (expect [.keyword .else_, .keyword .end_] c) := by
      refine Follows.expect (by decide) (fun h => ?_) fun h => ?_
      · rw [Reading.push_branchDone, Reading.pushBranchDone]
        simp_all
      · rw [Reading.push_branchDone, Reading.pushBranchDone]
        split <;> simp_all
    refine ⟨.map hends, fun s' c' hres => ?_, fun _ _ _ => trivial⟩
    obtain ⟨t, -, ht⟩ := exists_of_map hres
    cases ht

theorem follows_alt (r : Reading) {limit : Nat} (c : Lookahead) (hc : c.left < limit) :
    Follows (r.going (.branch [] .alt)) (fun done => r.addStatement (.group done)) c
      (alt limit c) := by
  refine (follows_branch r [] .alt c).bind fun condition c' _ honward => ?_
  exact (follows_rounds (fun s c _ => turns_altRound r s c) (Nat.le_refl limit)
    ([], ⟨.alt, condition, []⟩) c' (Nat.lt_of_le_of_lt honward.left_le hc)).1

/-- The reading in an `opt` block. -/
def inside (r : Reading) (condition : Option String) (body : List Statement) : Reading :=
  { r with blocks := ⟨condition, body⟩ :: r.blocks, progress := .idle }

/-- The kinds that start a statement. -/
def starts : List TokenKind := [.keyword .opt, .keyword .alt, .identifier]

/-- A token that starts no statement is refused as one, unless something else starts or ends
there. -/
theorem begin_noStatement {t : Token} (h : t.kind ∉ starts)
    (houter : r.blocks = [] →
      t.kind ∉ [.endOfInput, .keyword .title, .keyword .participant])
    (hinner : r.blocks ≠ [] → t.kind ∉ [.keyword .end_, .endOfInput]) :
    r.begin_ t = .error ⟨.noStatement t, t⟩ := by
  unfold Reading.begin_
  split <;> simp_all [starts]

theorem addStatement_inside (r : Reading) (condition : Option String) (body : List Statement)
    (s : Statement) :
    { inside r condition body with blocks := r.blocks }.addStatement s = r.addStatement s := by
  obtain ⟨items, blocks, progress⟩ := r
  cases blocks <;> rfl

/-- A routine reads statements if, where fewer tokens are left than the limit, it follows reading
and consumes a token; a token that starts no statement must be refused as one by reading. -/
def ReadsStatements (limit : Nat) (st : Descent Statement) : Prop :=
  ∀ (r : Reading) (c : Lookahead), r.progress = .idle → c.left < limit →
    (c.current.kind ∉ starts → r.push c.current = .error ⟨.noStatement c.current, c.current⟩) →
    Takes r (fun s => r.addStatement s) c (st c)

theorem push_inside (r : Reading) (condition : Option String) (body : List Statement) (t : Token) :
    (inside r condition body).push t = (inside r condition body).begin_ t := rfl

theorem turns_optRound {limit : Nat} {st : Descent Statement} (hst : ReadsStatements limit st)
    (r : Reading) (condition : Option String) (body : List Statement) (c : Lookahead)
    (hc : c.left < limit) :
    Turns (inside r condition) (inside r condition)
      (fun c => c.current.kind ∈ [.keyword .end_, .endOfInput]) body c (optRound st body c) := by
  by_cases hends : c.current.kind ∈ [.keyword .end_, .endOfInput]
  · rw [optRound, bind_of_ok (check_of_mem hends)]
    exact .leaves hends rfl
  · rw [optRound, bind_of_ok (check_of_not_mem hends)]
    refine Takes.turns (g := fun s => body ++ [s])
      (hst (inside r condition body) c rfl hc fun hstarts => ?_)
    rw [push_inside]
    exact begin_noStatement hstarts (by simp [inside]) (fun _ => hends)

theorem follows_opt {limit : Nat} {st : Descent Statement} (hst : ReadsStatements limit st)
    (r : Reading) (c : Lookahead) (hc : c.left < limit) :
    Follows (r.going .opt) (fun b => r.addStatement (.block b)) c (opt st limit c) := by
  refine Follows.bind (k := fun condition => inside r condition [])
    (.acceptText (fun h => ?_) fun h => ?_) fun condition c₁ _ honward => ?_
  · simp [Reading.push, h, inside, Reading.openBlock, Reading.going]
  · exact Reading.push_of_ne_continuation rfl fun heq => h (Option.some.inj heq).symm
  obtain ⟨hfollows, hleft⟩ := follows_rounds (turns_optRound hst r condition) (Nat.le_refl limit)
    [] c₁ (Nat.lt_of_le_of_lt honward.left_le hc)
  refine hfollows.bind fun body c₂ hbody _ => ?_
  have hends := hleft body c₂ hbody
  refine Follows.map (m := expect [.keyword .end_])
    (g := fun _ => (⟨.opt, condition, body⟩ : Block)) (.expect (by decide) (fun h => ?_) fun h => ?_)
  · rw [push_inside, Reading.begin_, List.mem_singleton.1 h]
    exact congrArg Except.ok (addStatement_inside r condition body _)
  · have hend : c₂.current.kind = .endOfInput := by simp_all
    rw [push_inside, Reading.begin_, hend]
    rfl

/-! ## Statements -/

theorem statement_refused {limit : Nat} (h : c.current.kind ∉ starts) :
    statement (limit + 1) c
      = .error (.fault ⟨.noStatement c.current, c.current⟩) c := by
  simp only [starts, List.mem_cons, List.not_mem_nil, or_false, not_or] at h
  rw [statement, bind_of_ok (accept_of_ne h.1)]
  show (accept _ >>= _) c = _
  rw [bind_of_ok (accept_of_ne h.2.1)]
  show (check _ >>= _) c = _
  rw [bind_of_ok (check_of_not_mem (mt List.mem_singleton.1 h.2.2))]
  rfl

theorem readsStatements_statement (limit : Nat) : ReadsStatements limit (statement limit) := by
  induction limit with
  | zero => exact fun r c _ hc => absurd hc (Nat.not_lt_zero _)
  | succ limit ih =>
    intro r c hidle hc hother
    have hbegin : r.push c.current = r.begin_ c.current := Reading.push_of_idle hidle
    by_cases hstarts : c.current.kind ∈ starts
    case neg =>
      rw [statement_refused hstarts]
      exact ⟨.refused (hother hstarts), by rintro _ _ ⟨⟩⟩
    have hne : c.current.kind ≠ .endOfInput := by
      intro hend
      rw [hend] at hstarts
      exact absurd hstarts (by decide)
    -- the routines of the parts start behind the current token, where fewer tokens are left
    have hleft : c.advance.left < limit := by
      have hlt := Lookahead.left_advance_lt hne
      omega
    by_cases hopt : c.current.kind = .keyword .opt
    · have hpush : r.push c.current = .ok (r.going .opt) := by
        rw [hbegin, Reading.begin_, hopt]
        cases r.blocks <;> rfl
      rw [statement, bind_of_ok (accept_of_eq hopt)]
      exact Takes.map (g := Statement.block) (.step hne hpush (follows_opt ih r _ hleft))
    rw [statement, bind_of_ok (accept_of_ne hopt)]
    show Takes r _ c ((accept _ >>= _) c)
    by_cases halt : c.current.kind = .keyword .alt
    · have hpush : r.push c.current = .ok (r.going (.branch [] .alt)) := by
        rw [hbegin, Reading.begin_, halt]
        cases r.blocks <;> rfl
      rw [bind_of_ok (accept_of_eq halt)]
      exact Takes.map (g := Statement.group) (.step hne hpush (follows_alt r _ hleft))
    rw [bind_of_ok (accept_of_ne halt)]
    show Takes r _ c ((check _ >>= _) c)
    have hname : c.current.kind = .identifier := by simp_all [starts]
    have hpush : r.push c.current
        = .ok (r.going (.source { source := c.current.content, target := "" })) := by
      rw [hbegin, Reading.begin_, hname]
      cases r.blocks <;> rfl
    rw [bind_of_ok (check_of_mem (List.mem_singleton.2 hname))]
    refine Takes.map (g := Statement.signal) ?_
    rw [signal_of_identifier hname]
    exact .step hne hpush (follows_signalFrom r _ _)

/-! ## The routines of a document -/

/-- Without an alias the declaration is finished. -/
theorem follows_participant (r : Reading) (c : Lookahead) :
    Follows (r.going .participant) (fun item => r.addItem item) c (participant c) := by
  refine Follows.bind (k := fun name => r.going (.declared name))
    (.read (by decide) (fun h => ?_) (Reading.push_of_ne_required rfl)) fun name c₁ _ _ => ?_
  · simp [Reading.push, h]
  refine Follows.accept (by decide) (fun h => ⟨r.going (.alias name), ?_, ?_⟩) fun h => ?_
  · simp [Reading.push, h]
  · refine Follows.map (g := fun short => Item.participant name (some short))
      (.read (by decide) (fun hname => ?_) (Reading.push_of_ne_required rfl))
    simp [Reading.push, hname]
  · refine Follows.congr (.done rfl) (Reading.push_of_ne_continuation rfl ?_)
    exact fun heq => h (Option.some.inj heq).symm

theorem turns_documentRound {limit : Nat} (items : List Item) (c : Lookahead)
    (hc : c.left < limit) :
    Turns (fun items => ({ items } : Reading)) (fun items => { items })
      (fun c => c.current.kind = .endOfInput) items c (documentRound limit items c) := by
  by_cases hend : c.current.kind = .endOfInput
  · rw [documentRound, bind_of_ok (check_of_mem (List.mem_singleton.2 hend))]
    exact .leaves hend rfl
  rw [documentRound, bind_of_ok (check_of_not_mem (mt List.mem_singleton.1 hend))]
  show Turns _ _ _ _ c ((accept _ >>= _) c)
  by_cases htitle : c.current.kind = .keyword .title
  · rw [bind_of_ok (accept_of_eq htitle)]
    have hpush : ({ items } : Reading).push c.current
        = .ok (({ items } : Reading).going .title) := by
      simp [Reading.push, Reading.begin_, htitle]
    refine Takes.turns (g := fun text => items ++ [Item.title text])
      (.step hend hpush (.read (by decide) (fun h => ?_) (Reading.push_of_ne_required rfl)))
    simp [Reading.push, h]
    rfl
  rw [bind_of_ok (accept_of_ne htitle)]
  show Turns _ _ _ _ c ((accept _ >>= _) c)
  by_cases hparticipant : c.current.kind = .keyword .participant
  · rw [bind_of_ok (accept_of_eq hparticipant)]
    have hpush : ({ items } : Reading).push c.current
        = .ok (({ items } : Reading).going .participant) := by
      simp [Reading.push, Reading.begin_, hparticipant]
    exact Takes.turns (g := fun item => items ++ [item])
      (.step hend hpush (follows_participant _ _))
  rw [bind_of_ok (accept_of_ne hparticipant)]
  refine Takes.turns (g := fun s => items ++ [Item.statement s])
    (readsStatements_statement limit { items } c rfl hc fun hstarts => ?_)
  exact begin_noStatement hstarts (fun _ => by simp [hend, htitle, hparticipant])
    fun hblocks => absurd rfl hblocks

/-! ## Main statement -/

/-- What came of reading, as a result of a routine that stops at a place. -/
def outcome (answer : Except SyntaxFault α) (stop : Lookahead) :
    EStateM.Result Stop Lookahead α :=
  match answer with
  | .ok a => .ok a stop
  | .error why => .error (.fault why) stop

/-- A round of a loop, where fewer tokens are left than the limit: it consumes a token, or leaves
the loop, or is refused. -/
def Progresses (limit : Nat) (round : Descent (σ ⊕ α)) : Prop :=
  ∀ c : Lookahead, c.left < limit →
    (∃ s c', round c = .ok (.inl s) c' ∧ c.Further c') ∨
    (∃ a c', round c = .ok (.inr a) c' ∧ c.Onward c') ∨
    ∃ why c', round c = .error (.fault why) c' ∧ c.Onward c'

/-- How the descent through a row of tokens ends. -/
structure Halts (ts : List Token) : Prop where
  /-- Each call for a statement consumes a token or is refused. -/
  statements : ∀ (limit : Nat) (c : Lookahead), c.left < limit →
    (∃ s c', statement limit c = .ok s c' ∧ c.Further c') ∨
    ∃ why c', statement limit c = .error (.fault why) c' ∧ c.Onward c'
  /-- Each round of the loop over the items consumes a token, leaves the loop or is refused, -/
  items : ∀ limit items, Progresses limit (documentRound limit items)
  /-- each round of the loop over the statements of a block -/
  bodies : ∀ limit body, Progresses limit (optRound (statement limit) body)
  /-- and each round of the loop over branches. -/
  branches : ∀ limit branches, Progresses limit (altRound branches)
  /-- Any limit above the number of tokens is enough: the descent is not cut off, and it ends at
  one place with what reading token by token gives. -/
  ends : ∃ stop, (Lookahead.start ts).Onward stop ∧ ∀ limit, ts.length < limit →
    chart limit (Lookahead.start ts) = outcome (Chart.ofTokens ts) stop
  /-- On the way the tokens are pulled in their order, each once, -/
  inOrder : ∀ c, (Lookahead.start ts).Onward c → c.pulled ++ c.source = ts
  /-- one at a time, -/
  oneByOne : ∀ c, (Lookahead.start ts).Onward c → ∃ next : Option Token,
    c.advance.pulled = c.pulled ++ next.toList ∧ c.source = next.toList ++ c.advance.source
  /-- and at most one more than are consumed. -/
  ahead : ∀ c, (Lookahead.start ts).Onward c →
    c.consumed <+: c.pulled ∧ c.pulled.length ≤ c.consumed.length + 1

theorem Turns.progresses {F : σ → Reading} {Q : Lookahead → Prop} {limit : Nat} {s : σ}
    {round : Descent (σ ⊕ α)} (h : ∀ c, c.left < limit → Turns F k Q s c (round c)) :
    Progresses limit round := by
  intro c hc
  have hturn := h c hc
  have hfollows := hturn.follows
  cases hres : round c with
  | ok next c' =>
    cases next with
    | inl s' => exact .inl ⟨s', c', rfl, hturn.further s' c' hres⟩
    | inr a => exact .inr (.inl ⟨a, c', rfl, hfollows.onward hres⟩)
  | error why c' =>
    rw [hres] at hfollows
    cases why with
    | fault why => exact .inr (.inr ⟨why, c', rfl, hfollows.1⟩)
    | cut => exact hfollows.elim

theorem statement_progresses {limit : Nat} (c : Lookahead) (hc : c.left < limit) :
    (∃ s c', statement limit c = .ok s c' ∧ c.Further c') ∨
    ∃ why c', statement limit c = .error (.fault why) c' ∧ c.Onward c' := by
  by_cases hstarts : c.current.kind ∈ starts
  · have htakes := readsStatements_statement limit {} c rfl hc fun h => absurd hstarts h
    have hfollows := htakes.follows
    cases hres : statement limit c with
    | ok s c' => exact .inl ⟨s, c', rfl, htakes.further s c' hres⟩
    | error why c' =>
      rw [hres] at hfollows
      cases why with
      | fault why => exact .inr ⟨why, c', rfl, hfollows.1⟩
      | cut => exact hfollows.elim
  · cases limit with
    | zero => exact absurd hc (Nat.not_lt_zero _)
    | succ limit => exact .inr ⟨_, c, statement_refused hstarts, .refl c⟩

/-- With a limit above the number of tokens, the descent ends where reading stops, with what it
gives. -/
theorem chart_eq_outcome {limit : Nat} {ts : List Token} (h : ts.length < limit) :
    (Lookahead.start ts).Onward (({} : Reading).resume (.start ts)).2 ∧
      chart limit (.start ts)
        = outcome (Chart.ofTokens ts) (({} : Reading).resume (.start ts)).2 := by
  have hround (items : List Item) (c : Lookahead) (hc : c.left < limit) :=
    turns_documentRound items c hc
  obtain ⟨hfollows, hleft⟩ := follows_rounds hround (Nat.le_refl limit) [] (.start ts)
    (Nat.lt_of_le_of_lt (Lookahead.left_start_le ts) h)
  rw [chart, Chart.ofTokens, ← Reading.fst_resume_start]
  cases hres : rounds (documentRound limit) limit [] (.start ts) with
  | ok items stop =>
    rw [hres] at hfollows
    -- the loop is left at an end of the input, where reading ends as well
    have hend := hleft items stop hres
    have hpush : ({ items } : Reading).push stop.current = .ok { items } := by
      rw [Reading.push_of_idle rfl, Reading.begin_, hend]
    have hstop : ({} : Reading).resume (.start ts) = (.ok { items }, stop) := by
      rw [show ({} : Reading).resume (.start ts) = _ from hfollows.2, Reading.resume_of_end hend,
        hpush]
    rw [bind_of_ok hres, hstop]
    exact ⟨hfollows.1, rfl⟩
  | error why stop =>
    rw [hres] at hfollows
    cases why with
    | fault why =>
      rw [bind_of_error hres, show ({} : Reading).resume (.start ts) = _ from hfollows.2]
      exact ⟨hfollows.1, rfl⟩
    | cut => exact hfollows.elim

/-- The descent through any row of tokens ends: its loops and calls consume tokens, which it pulls
one by one. -/
theorem halts (ts : List Token) : Halts ts where
  statements := fun _ c => statement_progresses c
  items := fun _ items => Turns.progresses fun c => turns_documentRound items c
  bodies := fun limit body => Turns.progresses fun c =>
    turns_optRound (readsStatements_statement limit) {} none body c
  branches := fun _ branches => Turns.progresses fun c _ => turns_altRound {} branches c
  ends := ⟨_, (chart_eq_outcome (Nat.lt_succ_self ts.length)).1, fun _ h => (chart_eq_outcome h).2⟩
  inOrder := fun _ hc => (hc.within (Lookahead.within_start ts)).pulled_append
  oneByOne := fun c _ => c.pulled_advance
  ahead := by
    intro c hc
    have hwithin := hc.within (Lookahead.within_start ts)
    exact ⟨hwithin.consumed_prefix, hwithin.length_pulled_le⟩

end Descent

end SequenceChart
