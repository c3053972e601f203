import SequenceChart.Proofs.Reading.Settled
set_option autoImplicit false

/-!
# Every document of the grammar is read

The leaves of a phrase take a settled reading to the reading with what the phrase writes added to
it.  The induction is on the phrase; for the body of an `opt` block it runs along the body, inside
the open block.
-/

namespace SequenceChart

namespace Reading

/-! ## Signals -/

/-- The arrow up to its shaft. -/
theorem reads_shaft (q : Reading) (source : Terminal .identifier)
    (tail : Option (Leaf TokenKind.tail)) (shaft : Leaf TokenKind.shaft) :
    Reads (q.going (.source (SignalSketch.signal { source })))
      (optionally Leaf.tokens tail ++ shaft.tokens)
      (q.going
        (.shaft (SignalSketch.signal { source, tail, shaft := some shaft }) shaft.token)) := by
  cases tail with
  | none =>
    refine Reads.single ?_
    simp [push, pushShaft, shaft.kind_eq, SignalSketch.signal]
  | some l =>
    have htail : Reads (q.going (.source (SignalSketch.signal { source }))) l.tokens
        (q.going (.tailed (SignalSketch.signal { source, tail := some l }))) :=
      Reads.single (by simp [push, l.kind_eq, SignalSketch.signal])
    refine htail.append (Reads.single ?_)
    simp [push, pushShaft, shaft.kind_eq, SignalSketch.signal]

/-- Where a tail has been read, the head may be left out. -/
theorem push_shaft_eq_push_headed (q : Reading) {s : Signal} (at_ : Token) {t : Token}
    (hs : s.tail.isSome) (ht : ∀ shape, t.kind ≠ .head shape) :
    push (q.going (.shaft s at_)) t = push (q.going (.headed s)) t := by
  rw [push_shaft_of_ne_head rfl ht, if_neg (by simpa [Option.isSome_iff_ne_none] using hs)]
  simp only [push, progress_going, pushMark, pushTarget, move_eq_going, going_going, refuse]

/-- The mark after a finished arrow, and the target. -/
theorem reads_target (q : Reading) (k : SignalSketch) (hk : k.mark = none)
    (mark : Option (Leaf markKind)) (target : Terminal .identifier) :
    Reads (q.going (.headed k.signal)) (optionally Leaf.tokens mark ++ target.tokens)
      (q.going (.targeted (SignalSketch.signal { k with mark, target := some target }))) := by
  cases mark with
  | none =>
    refine Reads.single ?_
    simp [push, pushMark, pushTarget, target.kind_eq, SignalSketch.signal, hk, Leaf.content]
  | some m =>
    have hmark : Reads (q.going (.headed k.signal)) m.tokens
        (q.going (.marked (SignalSketch.signal { k with mark := some m }))) := by
      refine Reads.single ?_
      obtain ⟨activates, token, hkind⟩ := m
      cases activates <;> simp [push, pushMark, hkind, markKind, SignalSketch.signal, hk]
    refine hmark.append (Reads.single ?_)
    simp [push, pushTarget, target.kind_eq, SignalSketch.signal, Leaf.content]

/-- Behind its shaft, an arrow that has a tail or a head goes on to its target. -/
theorem reads_head (q : Reading) (p : SignalPhrase) :
    Reads (q.going (.shaft (SignalSketch.signal
          { source := p.source, tail := p.tail, shaft := some p.shaft }) p.shaft.token))
      (optionally Leaf.tokens p.head ++ (optionally Leaf.tokens p.mark ++ p.target.tokens))
      (q.going (.targeted p.sketch.signal)) := by
  cases hhead : p.head with
  | none =>
    have htail : p.tail.isSome := by simpa [hhead] using p.pointed
    have htarget := reads_target q { source := p.source, tail := p.tail, shaft := some p.shaft }
      rfl p.mark p.target
    obtain ⟨first, rest, hfirst, hkind⟩ : ∃ first rest,
        optionally Leaf.tokens p.mark ++ p.target.tokens = first :: rest
          ∧ ∀ shape, first.kind ≠ .head shape := by
      cases p.mark with
      | none => exact ⟨_, _, rfl, by simp [p.target.kind_eq]⟩
      | some m => exact ⟨_, _, rfl, by cases h : m.choice <;> simp [m.kind_eq, markKind, h]⟩
    rw [optionally_none, List.nil_append]
    rw [hfirst] at htarget ⊢
    rw [Reads, pushAll_cons] at htarget ⊢
    rw [push_shaft_eq_push_headed q _ (by simpa [SignalSketch.signal] using htail) hkind]
    rw [SignalPhrase.sketch, hhead]
    exact htarget
  | some l =>
    have hl : Reads
        (q.going (.shaft (SignalSketch.signal
          { source := p.source, tail := p.tail, shaft := some p.shaft }) p.shaft.token)) l.tokens
        (q.going (.headed (SignalSketch.signal
          { source := p.source, tail := p.tail, shaft := some p.shaft, head := some l }))) :=
      Reads.single (by simp [push, l.kind_eq, SignalSketch.signal])
    rw [SignalPhrase.sketch, hhead]
    exact hl.append (reads_target q _ rfl p.mark p.target)

/-- A signal is read to its end or, without a message, to where a message may follow. -/
theorem reads_signal {r q : Reading} (p : SignalPhrase)
    (h : Reads r p.source.tokens
      (q.going (.source (SignalSketch.signal { source := p.source })))) :
    ∃ r', Reads r p.tokens r' ∧ r'.settled? = some (q.addStatement (.signal p.signal)) := by
  have hsketch : Reads r p.sketch.tokens (q.going (.targeted p.sketch.signal)) := by
    simpa [SignalPhrase.sketch, SignalSketch.tokens] using
      h.append ((reads_shaft q p.source p.tail p.shaft).append (reads_head q p))
  rw [p.tokens_eq_sketch, p.signal_eq_sketch]
  cases p.message with
  | none => exact ⟨_, hsketch.append (Reads.refl _), rfl⟩
  | some m =>
    refine ⟨q.addStatement (.signal { p.sketch.signal with message := some m.text.content }), ?_,
      settled?_of_idle (progress_addStatement _ _)⟩
    have hcolon : Reads (q.going (.targeted p.sketch.signal)) m.colon.tokens
        (q.going (.message p.sketch.signal)) :=
      Reads.single (by simp [push, m.colon.kind_eq])
    have htext : Reads (q.going (.message p.sketch.signal)) m.text.tokens
        (q.addStatement (.signal { p.sketch.signal with message := some m.text.content })) :=
      Reads.single (by simp [push, m.text.kind_eq, Leaf.content])
    exact hsketch.append (hcolon.append htext)

/-! ## Blocks and groups -/

/-- After `opt` a condition may follow: with it or without it, the block is open. -/
theorem reads_condition (q : Reading) (condition : Option (Terminal .text)) :
    ∃ r', Reads (q.going .opt) (optionally Leaf.tokens condition) r'
      ∧ r'.settled? = some (q.openBlock (condition.map Leaf.content)) := by
  cases condition with
  | none => exact ⟨q.going .opt, Reads.refl _, rfl⟩
  | some l =>
    refine ⟨q.openBlock (some l.content), Reads.single ?_, rfl⟩
    simp [push, l.kind_eq, Leaf.content]

/-- Statements that are added inside an open block go to its body. -/
theorem foldl_addStatement_openBlock (q : Reading) (condition : Option String)
    (body : List Statement) :
    body.foldl addStatement (q.openBlock condition)
      = { q with blocks := ⟨condition, body⟩ :: q.blocks, progress := .idle } := by
  have hacc (done : List Statement) :
      body.foldl addStatement
          { q with blocks := ⟨condition, done⟩ :: q.blocks, progress := .idle }
        = { q with blocks := ⟨condition, done ++ body⟩ :: q.blocks, progress := .idle } := by
    induction body generalizing done with
    | nil => simp
    | cons s body ih =>
      rw [List.foldl_cons]
      refine (ih (done ++ [s])).trans ?_
      simp
  exact hacc []

/-- After the start of a branch a condition may follow; the token behind it ends the branch. -/
theorem reads_branch {q r : Reading} (done : List Block) (label : BlockLabel)
    (condition : Option (Terminal .text)) {t : Token} (ht : t.kind ≠ .text)
    (h : q.pushBranchDone (done ++ [⟨label, condition.map Leaf.content, []⟩]) t = .ok r) :
    Reads (q.going (.branch done label)) (optionally Leaf.tokens condition ++ [t]) r := by
  have hgoing (p : Progress) (done : List Block) :
      (q.going p).pushBranchDone done t = q.pushBranchDone done t := by
    simp [pushBranchDone, refuse]
  cases condition with
  | none =>
    refine Reads.single ?_
    rw [push_branch_of_ne_text rfl ht, hgoing]
    exact h
  | some l =>
    have hl : Reads (q.going (.branch done label)) l.tokens
        (q.going (.branchDone (done ++ [⟨label, some l.content, []⟩]))) :=
      Reads.single (by simp [push, l.kind_eq, Leaf.content])
    refine hl.append (Reads.single ?_)
    simp only [push, progress_going, hgoing]
    exact h

/-- The branches of a group are read up to its `end`. -/
theorem reads_branches (q : Reading) (more : List ElsePhrase) (stop : Terminal (.keyword .end_))
    (done : List Block) (label : BlockLabel) (condition : Option (Terminal .text)) :
    Reads (q.going (.branch done label))
      (optionally Leaf.tokens condition ++ (more.flatMap ElsePhrase.tokens ++ stop.tokens))
      (q.addStatement (.group
        (done ++ ⟨label, condition.map Leaf.content, []⟩ :: more.map ElsePhrase.block))) := by
  induction more generalizing done label condition with
  | nil =>
    refine reads_branch done label condition (by simp [stop.kind_eq]) ?_
    simp [pushBranchDone, stop.kind_eq]
  | cons p more ih =>
    have hword : Reads (q.going (.branch done label))
        (optionally Leaf.tokens condition ++ p.word.tokens)
        (q.going (.branch (done ++ [⟨label, condition.map Leaf.content, []⟩]) .else_)) := by
      refine reads_branch done label condition (by simp [p.word.kind_eq]) ?_
      simp [pushBranchDone, p.word.kind_eq]
    have hmore := ih (done ++ [⟨label, condition.map Leaf.content, []⟩]) .else_ p.condition
    simpa [ElsePhrase.tokens, ElsePhrase.block] using hword.append hmore

/-! ## Statements -/

mutual

/-- The leaves of a statement add the statement to a settled reading. -/
theorem reads_statement : ∀ (p : StatementPhrase) (r q : Reading), r.settled? = some q →
    ∃ r', Reads r p.tokens r' ∧ r'.settled? = some (q.addStatement p.statement)
  | .opt word condition body stop, r, q, h => by
    have hword : Reads r word.tokens (q.going .opt) := by
      refine Reads.single ?_
      rw [push_of_settled h (by simp [continuations, word.kind_eq])]
      simp [begin_, word.kind_eq]
    obtain ⟨r₁, hcondition, h₁⟩ := reads_condition q condition
    obtain ⟨r₂, hbody, h₂⟩ := reads_statements body r₁ _ h₁
    rw [foldl_addStatement_openBlock] at h₂
    refine ⟨q.addStatement (.block ⟨.opt, condition.map Leaf.content,
      StatementPhrase.statements body⟩), ?_, ?_⟩
    · have hstop : Reads r₂ stop.tokens (q.addStatement (.block ⟨.opt, condition.map Leaf.content,
          StatementPhrase.statements body⟩)) := by
        refine Reads.single ?_
        rw [push_of_settled h₂ (by simp [continuations, stop.kind_eq])]
        simp only [begin_, stop.kind_eq]
        exact congrArg Except.ok (addStatement_going q .idle _)
      exact hword.append (hcondition.append (hbody.append hstop))
    · exact settled?_of_idle (progress_addStatement _ _)
  | .alt word condition more stop, r, q, h => by
    have hword : Reads r word.tokens (q.going (.branch [] .alt)) := by
      refine Reads.single ?_
      rw [push_of_settled h (by simp [continuations, word.kind_eq])]
      simp [begin_, word.kind_eq]
    exact ⟨_, hword.append (reads_branches q more stop [] .alt condition),
      settled?_of_idle (progress_addStatement _ _)⟩
  | .signal p, r, q, h => by
    have hsource : Reads r p.source.tokens
        (q.going (.source (SignalSketch.signal { source := p.source }))) := by
      refine Reads.single ?_
      rw [push_of_settled h (by simp [continuations, p.source.kind_eq])]
      simp [begin_, p.source.kind_eq, SignalSketch.signal, Leaf.content]
    exact reads_signal p hsource

theorem reads_statements : ∀ (ps : List StatementPhrase) (r q : Reading), r.settled? = some q →
    ∃ r', Reads r (StatementPhrase.allTokens ps) r'
      ∧ r'.settled? = some ((StatementPhrase.statements ps).foldl addStatement q)
  | [], r, q, h => ⟨r, Reads.refl r, h⟩
  | p :: ps, r, q, h => by
    obtain ⟨r₁, hp, h₁⟩ := reads_statement p r q h
    obtain ⟨r₂, hps, h₂⟩ := reads_statements ps r₁ _ h₁
    exact ⟨r₂, hp.append hps, h₂⟩

end

/-! ## Documents -/

/-- A reading at the top level: nothing is open, and these are the items so far. -/
def AtTop (r : Reading) (items : List Item) : Prop :=
  ∃ q, r.settled? = some q ∧ q.blocks = [] ∧ q.items = items

/-- The leaves of a top-level construct add its item. -/
theorem reads_phrase (p : Phrase) {r : Reading} {items : List Item} (h : r.AtTop items) :
    ∃ r', Reads r p.tokens r' ∧ r'.AtTop (items ++ [p.item]) := by
  obtain ⟨q, hq, hblocks, rfl⟩ := h
  cases p with
  | title word text =>
    have hword : Reads r word.tokens (q.going .title) := by
      refine Reads.single ?_
      rw [push_of_settled hq (by simp [continuations, word.kind_eq])]
      simp [begin_, word.kind_eq, hblocks]
    refine ⟨q.addItem (.title text.content), hword.append (Reads.single ?_), _, rfl, hblocks, rfl⟩
    simp [push, text.kind_eq, Leaf.content]
  | participant word name alias? =>
    have hword : Reads r word.tokens (q.going .participant) := by
      refine Reads.single ?_
      rw [push_of_settled hq (by simp [continuations, word.kind_eq])]
      simp [begin_, word.kind_eq, hblocks]
    have hname : Reads (q.going .participant) name.tokens (q.going (.declared name.content)) :=
      Reads.single (by simp [push, name.kind_eq, Leaf.content])
    cases alias? with
    | none =>
      exact ⟨_, hword.append (hname.append (Reads.refl _)), _, rfl, hblocks, rfl⟩
    | some a =>
      have has : Reads (q.going (.declared name.content)) a.word.tokens
          (q.going (.alias name.content)) :=
        Reads.single (by simp [push, a.word.kind_eq])
      have halias : Reads (q.going (.alias name.content)) a.name.tokens
          (q.addItem (.participant name.content (some a.name.content))) :=
        Reads.single (by simp [push, a.name.kind_eq, Leaf.content])
      exact ⟨_, hword.append (hname.append (has.append halias)), _, rfl, hblocks, rfl⟩
  | statement p =>
    obtain ⟨r', hp, h'⟩ := reads_statement p r q hq
    refine ⟨r', hp, _, h', ?_⟩
    simp [addStatement, hblocks, addItem, Phrase.item]

theorem reads_phrases (ps : List Phrase) {r : Reading} {items : List Item} (h : r.AtTop items) :
    ∃ r', Reads r (ps.flatMap Phrase.tokens) r' ∧ r'.AtTop (items ++ ps.map Phrase.item) := by
  induction ps generalizing r items with
  | nil => exact ⟨r, Reads.refl r, by simpa using h⟩
  | cons p ps ih =>
    obtain ⟨r₁, hp, h₁⟩ := reads_phrase p h
    obtain ⟨r₂, hps, h₂⟩ := ih h₁
    exact ⟨r₂, hp.append hps, by simpa using h₂⟩

/-- The end of the input is read at the top level. -/
theorem push_end_of_atTop {r : Reading} {items : List Item} (h : r.AtTop items) {last : Token}
    (hlast : last.kind = .endOfInput) : ∃ r', r.push last = .ok r' ∧ r'.items = items := by
  obtain ⟨q, hq, hblocks, rfl⟩ := h
  refine ⟨q.going .idle, ?_, rfl⟩
  rw [push_of_settled hq (by simp [continuations, hlast])]
  simp [begin_, hlast, hblocks, going]

end Reading

/-- A row of tokens with a derivation is read, and gives the chart of what the derivation
writes. -/
theorem ofTokens_of_derives {ps : List Phrase} {ts : List Token} (h : Derives ps ts) :
    Chart.ofTokens ts = .ok (Chart.ofItems (ps.map Phrase.item)) := by
  have hstart : Reading.AtTop {} [] := ⟨{}, rfl, rfl, rfl⟩
  obtain ⟨r, hread, htop⟩ := Reading.reads_phrases ps hstart
  obtain ⟨last, hlast, hrun⟩ := Reading.run_eq_pushAll ts {} 1 1
  obtain ⟨r', hpush, hitems⟩ := Reading.push_end_of_atTop htop hlast
  rw [← h, hread] at hrun
  rw [Chart.ofTokens, hrun]
  show Except.map _ (r.push last) = _
  rw [hpush, Except.map, hitems]
  rfl

end SequenceChart
