import SequenceChart.Proofs.Reading.Settled
set_option autoImplicit false

/-!
# Every reading is a document of the grammar in part

The tokens that lead to a reading are the leaves of finished phrases, then of the `opt` blocks that
are open, from the outermost to the innermost, then of the construct in progress.  A token that is
not refused extends this explanation by itself, so a reading that has come to the end of the input
with nothing open is explained by finished phrases alone.
-/

namespace SequenceChart

/-- An `opt` block as far as it is written. -/
structure OpenPhrase where
  word : Terminal (.keyword .opt)
  condition : Option (Terminal .text)
  body : List StatementPhrase

namespace OpenPhrase

/-- The leaves of an open block. -/
def tokens (p : OpenPhrase) : List Token :=
  p.word.tokens ++ (optionally Leaf.tokens p.condition ++ StatementPhrase.allTokens p.body)

/-- The open block that is written. -/
def block (p : OpenPhrase) : OpenBlock :=
  ⟨p.condition.map Leaf.content, StatementPhrase.statements p.body⟩

end OpenPhrase

/-- A group of branches before its `end`. -/
structure GroupSketch where
  word : Terminal (.keyword .alt)
  condition : Option (Terminal .text)
  more : List ElsePhrase

namespace GroupSketch

/-- The leaves of the branches. -/
def tokens (g : GroupSketch) : List Token :=
  g.word.tokens ++ (optionally Leaf.tokens g.condition ++ g.more.flatMap ElsePhrase.tokens)

/-- The branches that are written. -/
def blocks (g : GroupSketch) : List Block :=
  ⟨.alt, g.condition.map Leaf.content, []⟩ :: g.more.map ElsePhrase.block

end GroupSketch

namespace Reading

/-- The tokens of the construct in progress. -/
inductive Explains : Progress → List Token → Prop where
  | idle : Explains .idle []
  | title (word : Terminal (.keyword .title)) : Explains .title word.tokens
  | participant (word : Terminal (.keyword .participant)) : Explains .participant word.tokens
  | declared (word : Terminal (.keyword .participant)) (name : Terminal .identifier) :
      Explains (.declared name.content) (word.tokens ++ name.tokens)
  | aliased (word : Terminal (.keyword .participant)) (name : Terminal .identifier)
      (as_ : Terminal (.keyword .as_)) :
      Explains (.alias name.content) (word.tokens ++ (name.tokens ++ as_.tokens))
  | opt (word : Terminal (.keyword .opt)) : Explains .opt word.tokens
  | firstBranch (word : Terminal (.keyword .alt)) : Explains (.branch [] .alt) word.tokens
  | nextBranch (g : GroupSketch) (word : Terminal (.keyword .else_)) :
      Explains (.branch g.blocks .else_) (g.tokens ++ word.tokens)
  | branchDone (g : GroupSketch) : Explains (.branchDone g.blocks) g.tokens
  | source (source : Terminal .identifier) :
      Explains (.source (SignalSketch.signal { source })) (SignalSketch.tokens { source })
  | tailed (source : Terminal .identifier) (tail : Leaf TokenKind.tail) :
      Explains (.tailed (SignalSketch.signal { source, tail := some tail }))
        (SignalSketch.tokens { source, tail := some tail })
  | shaft (source : Terminal .identifier) (tail : Option (Leaf TokenKind.tail))
      (shaft : Leaf TokenKind.shaft) :
      Explains (.shaft (SignalSketch.signal { source, tail, shaft := some shaft }) shaft.token)
        (SignalSketch.tokens { source, tail, shaft := some shaft })
  | headed (source : Terminal .identifier) (tail : Option (Leaf TokenKind.tail))
      (shaft : Leaf TokenKind.shaft) (head : Leaf TokenKind.head) :
      Explains
        (.headed (SignalSketch.signal { source, tail, shaft := some shaft, head := some head }))
        (SignalSketch.tokens { source, tail, shaft := some shaft, head := some head })
  | marked (source : Terminal .identifier) (tail : Option (Leaf TokenKind.tail))
      (shaft : Leaf TokenKind.shaft) (head : Option (Leaf TokenKind.head)) (mark : Leaf markKind)
      (pointed : tail.isSome ∨ head.isSome) :
      Explains
        (.marked
          (SignalSketch.signal { source, tail, shaft := some shaft, head, mark := some mark }))
        (SignalSketch.tokens { source, tail, shaft := some shaft, head, mark := some mark })
  | targeted (p : SignalPhrase) (h : p.message = none) :
      Explains (.targeted p.sketch.signal) p.sketch.tokens
  | message (p : SignalPhrase) (h : p.message = none) (colon : Terminal .colon) :
      Explains (.message p.sketch.signal) (p.sketch.tokens ++ colon.tokens)

/-- These tokens lead to the finished items and the open blocks of the reading. -/
def Framed (r : Reading) (ts : List Token) : Prop :=
  ∃ (phrases : List Phrase) (blocks : List OpenPhrase),
    r.items = phrases.map Phrase.item ∧ r.blocks = blocks.map OpenPhrase.block ∧
      ts = phrases.flatMap Phrase.tokens ++ blocks.reverse.flatMap OpenPhrase.tokens

/-- The construct stands at the top level only. -/
def topOnly : Progress → Bool
  | .title | .participant | .declared _ | .alias _ => true
  | _ => false

/-- These tokens lead to the reading. -/
def Explained (r : Reading) (ts : List Token) : Prop :=
  ∃ outer inner : List Token, Framed r outer ∧ Explains r.progress inner ∧ ts = outer ++ inner ∧
    (topOnly r.progress → r.blocks = [])

/-! ## Finished constructs -/

theorem framed_empty : Framed {} [] := ⟨[], [], rfl, rfl, rfl⟩

theorem statements_append (ps qs : List StatementPhrase) :
    StatementPhrase.statements (ps ++ qs)
      = StatementPhrase.statements ps ++ StatementPhrase.statements qs := by
  induction ps with
  | nil => rfl
  | cons p ps ih => rw [List.cons_append, StatementPhrase.statements, ih]; rfl

theorem allTokens_append (ps qs : List StatementPhrase) :
    StatementPhrase.allTokens (ps ++ qs)
      = StatementPhrase.allTokens ps ++ StatementPhrase.allTokens qs := by
  induction ps with
  | nil => rfl
  | cons p ps ih =>
    rw [List.cons_append, StatementPhrase.allTokens, ih, StatementPhrase.allTokens,
      List.append_assoc]

theorem Framed.addItem {r : Reading} {ts : List Token} (h : Framed r ts) (hblocks : r.blocks = [])
    (p : Phrase) : Framed (r.addItem p.item) (ts ++ p.tokens) := by
  obtain ⟨phrases, blocks, hitems, hopen, rfl⟩ := h
  have hnone : blocks = [] := List.map_eq_nil_iff.1 (hopen.symm.trans hblocks)
  subst hnone
  exact ⟨phrases ++ [p], [], by simp [Reading.addItem, hitems], hblocks, by simp⟩

/-- A finished statement goes to the innermost open block, or to the document. -/
theorem Framed.addStatement {r : Reading} {ts : List Token} (h : Framed r ts)
    (p : StatementPhrase) : Framed (r.addStatement p.statement) (ts ++ p.tokens) := by
  cases hblocks : r.blocks with
  | nil =>
    have hitem := h.addItem hblocks (.statement p)
    simpa [Reading.addStatement, hblocks, Phrase.item, Phrase.tokens] using hitem
  | cons inner outer =>
    obtain ⟨phrases, blocks, hitems, hopen, rfl⟩ := h
    rw [hblocks] at hopen
    obtain ⟨b, bs, rfl, rfl, rfl⟩ := List.map_eq_cons_iff.1 hopen.symm
    refine ⟨phrases, ⟨b.word, b.condition, b.body ++ [p]⟩ :: bs, ?_, ?_, ?_⟩
    · simp [Reading.addStatement, hblocks, hitems]
    · simp [Reading.addStatement, hblocks, OpenPhrase.block, statements_append,
        StatementPhrase.statements]
    · simp [OpenPhrase.tokens, allTokens_append, StatementPhrase.allTokens]

theorem Framed.openBlock {r : Reading} {ts : List Token} (h : Framed r ts)
    (word : Terminal (.keyword .opt)) (condition : Option (Terminal .text)) :
    Framed (r.openBlock (condition.map Leaf.content))
      (ts ++ (word.tokens ++ optionally Leaf.tokens condition)) := by
  obtain ⟨phrases, blocks, hitems, hopen, rfl⟩ := h
  refine ⟨phrases, ⟨word, condition, []⟩ :: blocks, hitems, ?_, ?_⟩
  · simp [Reading.openBlock, hopen, OpenPhrase.block, StatementPhrase.statements]
  · simp [OpenPhrase.tokens, StatementPhrase.allTokens]

/-- An `end` makes a statement of the innermost open block. -/
theorem Framed.closeBlock {r : Reading} {ts : List Token} {inner : OpenBlock}
    {outer : List OpenBlock} (h : Framed r ts) (hblocks : r.blocks = inner :: outer)
    (stop : Terminal (.keyword .end_)) :
    Framed (Reading.addStatement { r with blocks := outer }
      (.block ⟨.opt, inner.condition, inner.body⟩)) (ts ++ stop.tokens) := by
  obtain ⟨phrases, blocks, hitems, hopen, rfl⟩ := h
  rw [hblocks] at hopen
  obtain ⟨b, bs, rfl, rfl, rfl⟩ := List.map_eq_cons_iff.1 hopen.symm
  have houter : Framed { r with blocks := bs.map OpenPhrase.block }
      (phrases.flatMap Phrase.tokens ++ bs.reverse.flatMap OpenPhrase.tokens) :=
    ⟨phrases, bs, hitems, rfl, rfl⟩
  have hstatement := houter.addStatement (.opt b.word b.condition b.body stop)
  simpa [StatementPhrase.statement, StatementPhrase.tokens, OpenPhrase.block,
    OpenPhrase.tokens] using hstatement

theorem Framed.explained {r : Reading} {ts : List Token} (h : Framed r ts)
    (hidle : r.progress = .idle) : Explained r ts :=
  ⟨ts, [], h, by rw [hidle]; exact .idle, by simp, by simp [hidle, topOnly]⟩

/-- A construct in progress extends the explanation of what is finished. -/
theorem Framed.explained_going {r r' : Reading} {outer inner ts : List Token} {p : Progress}
    (h : Framed r outer) (hp : Explains p inner) (htop : topOnly p → r.blocks = [])
    (hr : r.going p = r') (hts : outer ++ inner = ts) : Explained r' ts := by
  subst hr hts
  exact ⟨outer, inner, h, hp, rfl, htop⟩

/-! ## Settled readings -/

/-- Finishing the construct in progress keeps the tokens explained. -/
theorem Explained.framed_settled {r q : Reading} {ts : List Token} (h : Explained r ts)
    (hq : r.settled? = some q) : Framed q ts := by
  obtain ⟨outer, inner, hframe, hprogress, rfl, htop⟩ := h
  obtain ⟨items, blocks, progress⟩ := r
  cases hprogress <;> simp only [settled?, Option.some.injEq, reduceCtorEq] at hq
  case idle =>
    subst hq
    simpa using hframe
  case declared word name =>
    subst hq
    have hitem := hframe.addItem (htop rfl) (.participant word name none)
    simpa [Phrase.tokens, Phrase.item] using hitem
  case opt word =>
    subst hq
    simpa using hframe.openBlock word none
  case targeted p hmessage =>
    subst hq
    have hsignal : p.signal = p.sketch.signal := by
      rw [p.signal_eq_sketch, hmessage]
      rfl
    have hstatement := hframe.addStatement (.signal p)
    simpa [StatementPhrase.statement, StatementPhrase.tokens, p.tokens_eq_sketch, hsignal,
      hmessage] using hstatement

/-- A token that starts a construct or ends an open block is explained. -/
theorem Framed.begin_ {q r' : Reading} {ts : List Token} {t : Token} (h : Framed q ts)
    (ht : t.kind ≠ .endOfInput) (hpush : q.begin_ t = .ok r') : Explained r' (ts ++ [t]) := by
  unfold Reading.begin_ at hpush
  split at hpush
  case h_1 hkind _ => exact absurd hkind ht
  case h_2 hkind hblocks =>
    cases hpush
    exact h.explained_going (.title ⟨(), t, hkind⟩) (fun _ => hblocks) rfl rfl
  case h_3 hkind hblocks =>
    cases hpush
    exact h.explained_going (.participant ⟨(), t, hkind⟩) (fun _ => hblocks) rfl rfl
  case h_4 => cases hpush
  case h_5 inner outer hkind hblocks =>
    cases hpush
    exact (h.closeBlock hblocks ⟨(), t, hkind⟩).explained (progress_addStatement _ _)
  case h_6 hkind =>
    cases hpush
    exact h.explained_going (.opt ⟨(), t, hkind⟩) (by simp [topOnly]) rfl rfl
  case h_7 hkind =>
    cases hpush
    exact h.explained_going (.firstBranch ⟨(), t, hkind⟩) (by simp [topOnly]) rfl rfl
  case h_8 hkind =>
    cases hpush
    exact h.explained_going (.source ⟨(), t, hkind⟩) (by simp [topOnly]) rfl rfl
  case h_9 => cases hpush

/-! ## One more token -/

/-- A token after a finished branch is explained. -/
theorem Framed.pushBranchDone {q r' : Reading} {outer : List Token} {t : Token}
    (h : Framed q outer) (g : GroupSketch) (hpush : q.pushBranchDone g.blocks t = .ok r') :
    Explained r' (outer ++ g.tokens ++ [t]) := by
  unfold Reading.pushBranchDone at hpush
  split at hpush
  case h_1 hkind =>
    cases hpush
    exact h.explained_going (.nextBranch g ⟨(), t, hkind⟩) (by simp [topOnly]) rfl
      (by simp [Leaf.tokens])
  case h_2 hkind =>
    cases hpush
    have hgroup := h.addStatement (.alt g.word g.condition g.more ⟨(), t, hkind⟩)
    have hexplained := hgroup.explained (progress_addStatement _ _)
    simpa [StatementPhrase.tokens, StatementPhrase.statement, GroupSketch.tokens,
      GroupSketch.blocks, Leaf.tokens] using hexplained
  case h_3 => cases hpush

/-- A token where a target must stand is explained. -/
theorem Framed.pushTarget {q r' : Reading} {outer : List Token} {t : Token} (h : Framed q outer)
    (source : Terminal .identifier) (tail : Option (Leaf TokenKind.tail))
    (shaft : Leaf TokenKind.shaft) (head : Option (Leaf TokenKind.head))
    (mark : Option (Leaf markKind)) (pointed : tail.isSome ∨ head.isSome)
    (hpush : q.pushTarget
      (SignalSketch.signal { source, tail, shaft := some shaft, head, mark }) t = .ok r') :
    Explained r'
      (outer ++ SignalSketch.tokens { source, tail, shaft := some shaft, head, mark } ++ [t]) := by
  unfold Reading.pushTarget at hpush
  split at hpush
  case h_1 hkind =>
    cases hpush
    exact h.explained_going
      (.targeted ⟨source, tail, shaft, head, mark, ⟨(), t, hkind⟩, none, pointed⟩ rfl)
      (by simp [topOnly]) rfl (by simp [SignalPhrase.sketch, SignalSketch.tokens, Leaf.tokens])
  case h_2 => cases hpush

/-- A token after a finished arrow is explained. -/
theorem Framed.pushMark {q r' : Reading} {outer : List Token} {t : Token} (h : Framed q outer)
    (source : Terminal .identifier) (tail : Option (Leaf TokenKind.tail))
    (shaft : Leaf TokenKind.shaft) (head : Option (Leaf TokenKind.head))
    (pointed : tail.isSome ∨ head.isSome)
    (hpush : q.pushMark
      (SignalSketch.signal { source, tail, shaft := some shaft, head }) t = .ok r') :
    Explained r'
      (outer ++ SignalSketch.tokens { source, tail, shaft := some shaft, head } ++ [t]) := by
  unfold Reading.pushMark at hpush
  split at hpush
  case h_1 hkind =>
    cases hpush
    exact h.explained_going (.marked source tail shaft head ⟨true, t, hkind⟩ pointed)
      (by simp [topOnly]) rfl (by simp [SignalSketch.tokens, Leaf.tokens])
  case h_2 hkind =>
    cases hpush
    exact h.explained_going (.marked source tail shaft head ⟨false, t, hkind⟩ pointed)
      (by simp [topOnly]) rfl (by simp [SignalSketch.tokens, Leaf.tokens])
  case h_3 => exact h.pushTarget source tail shaft head none pointed hpush

/-- A token where a shaft must stand is explained. -/
theorem Framed.pushShaft {q r' : Reading} {outer : List Token} {t : Token} (h : Framed q outer)
    (source : Terminal .identifier) (tail : Option (Leaf TokenKind.tail))
    (hpush : q.pushShaft (SignalSketch.signal { source, tail }) t = .ok r') :
    Explained r' (outer ++ SignalSketch.tokens { source, tail } ++ [t]) := by
  unfold Reading.pushShaft at hpush
  split at hpush
  case h_1 dotted hkind =>
    cases hpush
    exact h.explained_going (.shaft source tail ⟨dotted, t, hkind⟩) (by simp [topOnly]) rfl
      (by simp [SignalSketch.tokens, Leaf.tokens])
  case h_2 => cases hpush

/-- A token that goes on with a construct that may end is explained. -/
theorem Explained.push_settled {r q r' : Reading} {ts : List Token} {t : Token}
    (h : Explained r ts) (hq : r.settled? = some q) (hnext : t.kind ∈ continuations)
    (hpush : r.push t = .ok r') : Explained r' (ts ++ [t]) := by
  obtain ⟨outer, inner, hframe, hprogress, rfl, htop⟩ := h
  obtain ⟨items, blocks, progress⟩ := r
  simp only [continuations, List.mem_cons, List.not_mem_nil, or_false] at hnext
  cases hprogress
  case idle => rcases hnext with hk | hk | hk <;> simp [Reading.push, begin_, hk] at hpush
  case declared word name =>
    rcases hnext with hk | hk | hk <;> simp [Reading.push, begin_, hk] at hpush
    subst hpush
    exact hframe.explained_going (.aliased word name ⟨(), t, hk⟩) htop rfl (by simp [Leaf.tokens])
  case opt word =>
    rcases hnext with hk | hk | hk <;> simp [Reading.push, begin_, hk] at hpush
    subst hpush
    have hopen := (hframe.openBlock word (some ⟨(), t, hk⟩)).explained rfl
    simpa [Leaf.tokens, Leaf.content] using hopen
  case targeted p hmessage =>
    rcases hnext with hk | hk | hk <;> simp [Reading.push, begin_, hk] at hpush
    subst hpush
    exact hframe.explained_going (.message p hmessage ⟨(), t, hk⟩) htop rfl (by simp [Leaf.tokens])
  all_goals simp [settled?] at hq

/-- A token that goes on with a construct that may not end is explained. -/
theorem Explained.push_unsettled {r r' : Reading} {ts : List Token} {t : Token}
    (h : Explained r ts) (hq : r.settled? = none) (hpush : r.push t = .ok r') :
    Explained r' (ts ++ [t]) := by
  obtain ⟨outer, inner, hframe, hprogress, rfl, htop⟩ := h
  obtain ⟨items, blocks, progress⟩ := r
  cases hprogress
  case title word =>
    cases hk : t.kind <;> simp [Reading.push, refuse, hk] at hpush
    subst hpush
    have hitem := (hframe.addItem (htop rfl) (.title word ⟨(), t, hk⟩)).explained rfl
    simpa [Phrase.tokens, Phrase.item, Leaf.tokens, Leaf.content] using hitem
  case participant word =>
    cases hk : t.kind <;> simp [Reading.push, refuse, hk] at hpush
    subst hpush
    exact hframe.explained_going (.declared word ⟨(), t, hk⟩) htop rfl (by simp [Leaf.tokens])
  case aliased word name as_ =>
    cases hk : t.kind <;> simp [Reading.push, refuse, hk] at hpush
    subst hpush
    have hitem := (hframe.addItem (htop rfl)
      (.participant word name (some ⟨as_, ⟨(), t, hk⟩⟩))).explained rfl
    simpa [Phrase.tokens, Phrase.item, AliasPhrase.tokens, Leaf.tokens, Leaf.content] using hitem
  case firstBranch word =>
    by_cases hk : t.kind = .text
    · simp [Reading.push, hk] at hpush
      subst hpush
      exact hframe.explained_going (.branchDone ⟨word, some ⟨(), t, hk⟩, []⟩) (by simp [topOnly])
        rfl (by simp [GroupSketch.tokens, Leaf.tokens])
    · rw [push_branch_of_ne_text rfl hk] at hpush
      simpa [GroupSketch.tokens] using hframe.pushBranchDone ⟨word, none, []⟩ hpush
  case nextBranch g word =>
    by_cases hk : t.kind = .text
    · simp [Reading.push, hk] at hpush
      subst hpush
      exact hframe.explained_going
        (.branchDone ⟨g.word, g.condition, g.more ++ [⟨word, some ⟨(), t, hk⟩⟩]⟩)
        (by simp [topOnly])
        (by simp [Reading.going, GroupSketch.blocks, ElsePhrase.block, Leaf.content])
        (by simp [GroupSketch.tokens, ElsePhrase.tokens, Leaf.tokens])
    · have hblocks : g.blocks ++ [⟨.else_, none, []⟩]
          = GroupSketch.blocks ⟨g.word, g.condition, g.more ++ [⟨word, none⟩]⟩ := by
        simp [GroupSketch.blocks, ElsePhrase.block]
      rw [push_branch_of_ne_text rfl hk, hblocks] at hpush
      have hdone := hframe.pushBranchDone _ hpush
      simpa [GroupSketch.tokens, List.flatMap_append, ElsePhrase.tokens] using hdone
  case branchDone g =>
    simp only [Reading.push] at hpush
    exact hframe.pushBranchDone g hpush
  case source source =>
    by_cases hk : ∃ shape, t.kind = .tail shape
    · obtain ⟨shape, hk⟩ := hk
      simp [Reading.push, hk] at hpush
      subst hpush
      exact hframe.explained_going (.tailed source ⟨shape, t, hk⟩) (by simp [topOnly]) rfl
        (by simp [SignalSketch.tokens, Leaf.tokens])
    · rw [push_source_of_ne_tail rfl (fun shape h => hk ⟨shape, h⟩)] at hpush
      exact hframe.pushShaft source none hpush
  case tailed source tail =>
    simp only [Reading.push] at hpush
    exact hframe.pushShaft source (some tail) hpush
  case shaft source tail shaft =>
    by_cases hk : ∃ shape, t.kind = .head shape
    · obtain ⟨shape, hk⟩ := hk
      simp [Reading.push, hk] at hpush
      subst hpush
      exact hframe.explained_going (.headed source tail shaft ⟨shape, t, hk⟩) (by simp [topOnly])
        rfl (by simp [SignalSketch.tokens, Leaf.tokens])
    · rw [push_shaft_of_ne_head rfl (fun shape h => hk ⟨shape, h⟩)] at hpush
      cases tail with
      | none => simp [SignalSketch.signal] at hpush
      | some l => exact hframe.pushMark source (some l) shaft none (Or.inl rfl) hpush
  case headed source tail shaft head =>
    simp only [Reading.push] at hpush
    exact hframe.pushMark source tail shaft (some head) (Or.inr rfl) hpush
  case marked source tail shaft head mark pointed =>
    simp only [Reading.push] at hpush
    exact hframe.pushTarget source tail shaft head (some mark) pointed hpush
  case message p hmessage colon =>
    cases hk : t.kind <;> simp [Reading.push, refuse, hk] at hpush
    subst hpush
    have hstatement := (hframe.addStatement (.signal
      { p with message := some ⟨colon, ⟨(), t, hk⟩⟩ })).explained (progress_addStatement _ _)
    simpa [StatementPhrase.statement, StatementPhrase.tokens, SignalPhrase.tokens_eq_sketch,
      SignalPhrase.signal_eq_sketch, SignalPhrase.sketch, MessagePhrase.tokens, Leaf.tokens,
      Leaf.content] using hstatement
  all_goals simp [settled?] at hq

/-- Reading a token extends the explanation by the token. -/
theorem Explained.push {r r' : Reading} {ts : List Token} {t : Token} (h : Explained r ts)
    (ht : t.kind ≠ .endOfInput) (hpush : r.push t = .ok r') : Explained r' (ts ++ [t]) := by
  cases hq : r.settled? with
  | none => exact h.push_unsettled hq hpush
  | some q =>
    by_cases hnext : t.kind ∈ continuations
    · exact h.push_settled hq hnext hpush
    · rw [push_of_settled hq hnext] at hpush
      exact (h.framed_settled hq).begin_ ht hpush

/-- A row without an end of the input extends the explanation by the row. -/
theorem Explained.reads {r r' : Reading} {ts us : List Token} (h : Explained r ts)
    (hus : ∀ t ∈ us, t.kind ≠ .endOfInput) (hreads : Reads r us r') :
    Explained r' (ts ++ us) := by
  induction us generalizing r ts with
  | nil =>
    cases hreads
    simpa using h
  | cons t us ih =>
    obtain ⟨q, hpush, hrest⟩ := hreads.uncons
    have hq := h.push (hus t (by simp)) hpush
    simpa using ih hq (fun u hu => hus u (by simp [hu])) hrest

/-- The end of the input is read only where nothing is open and the construct in progress may
end. -/
theorem settled_of_push_end {r r' : Reading} {last : Token} (hlast : last.kind = .endOfInput)
    (hpush : r.push last = .ok r') :
    ∃ q, r.settled? = some q ∧ q.blocks = [] ∧ r'.items = q.items := by
  cases hq : r.settled? with
  | none =>
    obtain ⟨items, blocks, progress⟩ := r
    cases progress <;> simp [settled?] at hq <;>
      simp [push, pushBranchDone, pushShaft, pushMark, pushTarget, refuse, hlast] at hpush
    split at hpush <;> simp at hpush
  | some q =>
    rw [push_of_settled hq (by simp [continuations, hlast])] at hpush
    refine ⟨q, rfl, ?_⟩
    cases hblocks : q.blocks with
    | nil =>
      simp [begin_, hlast, hblocks] at hpush
      exact ⟨rfl, by rw [← hpush]⟩
    | cons inner outer => simp [begin_, hlast, hblocks, refuse] at hpush

end Reading

theorem ne_endOfInput_of_mem_beforeEnd {ts : List Token} {t : Token} (h : t ∈ beforeEnd ts) :
    t.kind ≠ .endOfInput := by
  simpa using List.all_eq_true.1 List.all_takeWhile t h

/-- A row of tokens that is read has a derivation, and the chart is that of what it writes. -/
theorem derives_of_ofTokens {ts : List Token} {c : Chart} (h : Chart.ofTokens ts = .ok c) :
    ∃ ps, Derives ps ts ∧ c = Chart.ofItems (ps.map Phrase.item) := by
  obtain ⟨last, hlast, hrun⟩ := Reading.run_eq_pushAll ts {} 1 1
  rw [Chart.ofTokens, hrun] at h
  cases hread : Reading.pushAll {} (beforeEnd ts) with
  | error e =>
    rw [hread] at h
    cases h
  | ok r =>
    cases hpush : r.push last with
    | error e =>
      rw [hread] at h
      simp [Except.bind, hpush, bind] at h
    | ok r' =>
      rw [hread] at h
      simp [Except.bind, hpush, bind, pure, Except.pure] at h
      have hstart : Reading.Explained {} [] := Reading.framed_empty.explained rfl
      have hexplained := hstart.reads (fun t ht => ne_endOfInput_of_mem_beforeEnd ht) hread
      obtain ⟨q, hq, hblocks, hitems⟩ := Reading.settled_of_push_end hlast hpush
      obtain ⟨phrases, blocks, hphrases, hopen, htokens⟩ := hexplained.framed_settled hq
      have hnone : blocks = [] := List.map_eq_nil_iff.1 (hopen.symm.trans hblocks)
      subst hnone
      refine ⟨phrases, by simpa [Derives] using htokens.symm, ?_⟩
      rw [← hphrases, ← hitems, h]

/-- A source that is read has a derivation of the items of its chart. -/
theorem Chart.derives_of_ofSource {source : String} {c : Chart} (h : Chart.ofSource source = .ok c) :
    ∃ tokens phrases, tokenize source = .ok tokens ∧ Derives phrases tokens ∧
      c = Chart.ofItems (phrases.map Phrase.item) := by
  unfold Chart.ofSource at h
  split at h
  · cases h
  · next tokens htokens =>
    split at h
    · cases h
    · next chart hchart =>
      cases h
      obtain ⟨phrases, hderives, hitems⟩ := derives_of_ofTokens hchart
      exact ⟨tokens, phrases, htokens, hderives, hitems⟩

end SequenceChart
