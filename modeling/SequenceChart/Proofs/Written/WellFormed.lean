import SequenceChart.Proofs.Chart.Items
import SequenceChart.Proofs.Chart.Table
import SequenceChart.Proofs.Reading.Completed
import SequenceChart.Proofs.Reading.Explains
import SequenceChart.Proofs.Scanning.Spelled
import SequenceChart.Proofs.Written.Tokens
set_option autoImplicit false

/-!
# Charts of sources are well formed

Main statement: the chart of every source is well formed at every depth.  What a phrase writes can
be written if its leaves are spelled as they should be, which the scanner sees to: it puts a mark
nowhere but after an arrowhead and makes no text token that is blank or broken.  The grammar sees to
the rest, and the items of a document pass it on to the name tables.
-/

namespace SequenceChart

/-! ## Phrases of tokens that are spelled as they should be -/

theorem Spelled.left {ts us : List Token} (h : Spelled (ts ++ us)) : Spelled ts :=
  h.of_infix (List.prefix_append ts us).isInfix

theorem Spelled.right {ts us : List Token} (h : Spelled (ts ++ us)) : Spelled us :=
  h.of_infix (List.suffix_append ts us).isInfix

theorem Leaf.isName (l : Terminal .identifier) (h : Spelled l.tokens) :
    SequenceChart.isName l.content :=
  (h.tokens l.token (List.mem_singleton.2 rfl)).name l.kind_eq

theorem Leaf.isInlineText (l : Terminal .text) (h : Spelled l.tokens) :
    SequenceChart.isInlineText l.content :=
  (h.tokens l.token (List.mem_singleton.2 rfl)).text l.kind_eq

/-- A condition fits on its line. -/
theorem all_isInlineText_condition {condition : Option (Terminal .text)}
    (h : Spelled (optionally Leaf.tokens condition)) :
    (condition.map Leaf.content).all isInlineText := by
  cases condition with
  | none => rfl
  | some text => exact text.isInlineText h

theorem isMark_markKind (activates : Bool) : (markKind activates).isMark := by
  cases activates <;> rfl

/-- A mark directly after a shaft would not stand after an arrowhead. -/
theorem isSome_head_of_mark {shaft : Leaf TokenKind.shaft} {head : Option (Leaf TokenKind.head)}
    {mark : Leaf markKind} {rest : List Token}
    (h : Spelled (shaft.tokens ++ (optionally Leaf.tokens head ++ (mark.tokens ++ rest)))) :
    head.isSome := by
  cases head with
  | some head => rfl
  | none =>
    have hmarks : (shaft.token :: mark.token :: rest).IsChain MarkAfter := h.marks
    have hafter := (List.isChain_cons_cons.1 hmarks).1
    rw [MarkAfter, mark.kind_eq, shaft.kind_eq] at hafter
    cases hafter (isMark_markKind mark.choice)

theorem all_isInlineText_message {message : Option MessagePhrase}
    (h : Spelled (optionally MessagePhrase.tokens message)) :
    (message.map fun m => m.text.content).all isInlineText := by
  cases message with
  | none => rfl
  | some m => exact m.text.isInlineText h.right

/-- A signal may be written: its ends are names, its message fits on its line, it has a tail or a
head, and its mark has a head. -/
theorem SignalPhrase.isWritable_signal (p : SignalPhrase) (h : Spelled p.tokens) :
    p.signal.isWritable := by
  have hshaft := h.right.right
  have htarget := hshaft.right.right.right
  have hsource : isName p.source.content := p.source.isName h.left
  have htarget' : isName p.target.content := p.target.isName htarget.left
  have hmessage := all_isInlineText_message htarget.right
  have hpointed : ((p.tail.map Leaf.choice).isSome || (p.head.map Leaf.choice).isSome) = true := by
    simpa using p.pointed
  have hhead : ∀ m, p.mark = some m → p.head.isSome := fun m hm => by
    rw [hm] at hshaft
    exact isSome_head_of_mark hshaft
  simp only [Signal.isWritable, SignalPhrase.signal, hsource, htarget', hmessage, hpointed,
    Bool.true_and]
  cases hmark : p.mark with
  | none => rfl
  | some m =>
    have hsome : (p.head.map Leaf.choice).isSome = true := by simpa using hhead m hmark
    rw [hsome]
    simp only [Option.any_some]
    cases m.choice <;> rfl

theorem ElsePhrase.isBranch_block (p : ElsePhrase) (h : Spelled p.tokens) :
    p.block.isBranch .else_ := by
  simp [ElsePhrase.block, Block.isBranch, all_isInlineText_condition h.right]

theorem all_isBranch_blocks {more : List ElsePhrase}
    (h : Spelled (more.flatMap ElsePhrase.tokens)) :
    (more.map ElsePhrase.block).all (Block.isBranch .else_) := by
  induction more with
  | nil => rfl
  | cons p more ih =>
    rw [List.flatMap_cons] at h
    rw [List.map_cons, List.all_cons, p.isBranch_block h.left, ih h.right]
    rfl

mutual

/-- A statement whose leaves are spelled as they should be can be written. -/
theorem StatementPhrase.isWritable_statement :
    (p : StatementPhrase) → Spelled p.tokens → p.statement.isWritable
  | .opt _ condition body _, h => by
    rw [StatementPhrase.tokens] at h
    have hcondition := all_isInlineText_condition h.right.left
    have hbody := StatementPhrase.allWritable_statements body h.right.right.left
    simp [StatementPhrase.statement, Statement.isWritable, Block.isWritable, hcondition, hbody]
  | .alt _ condition more _, h => by
    rw [StatementPhrase.tokens] at h
    have hcondition := all_isInlineText_condition h.right.left
    have hmore := all_isBranch_blocks h.right.right.left
    simp only [StatementPhrase.statement, Statement.isWritable, Block.areBranches, Block.isBranch,
      hcondition, hmore]
    rfl
  | .signal p, h => by
    rw [StatementPhrase.tokens] at h
    rw [StatementPhrase.statement, Statement.isWritable]
    exact p.isWritable_signal h

/-- The same of a row of statements. -/
theorem StatementPhrase.allWritable_statements :
    (ps : List StatementPhrase) → Spelled (StatementPhrase.allTokens ps) →
      Statement.allWritable (StatementPhrase.statements ps)
  | [], _ => rfl
  | p :: ps, h => by
    rw [StatementPhrase.allTokens] at h
    rw [StatementPhrase.statements, Statement.allWritable,
      StatementPhrase.isWritable_statement p h.left,
      StatementPhrase.allWritable_statements ps h.right]
    rfl

end

/-- An item whose leaves are spelled as they should be can be written. -/
theorem Phrase.isWritable_item (p : Phrase) (h : Spelled p.tokens) : p.item.isWritable := by
  cases p with
  | title word text => exact text.isInlineText h.right
  | participant word name alias? =>
    have hname : isName name.content := name.isName h.right.left
    cases alias? with
    | none => simp [Phrase.item, Item.isWritable, hname]
    | some short =>
      have hshort : isName short.name.content := short.name.isName h.right.right.right
      simp [Phrase.item, Item.isWritable, hname, hshort]
  | statement p => exact p.isWritable_statement h

theorem all_isWritable_items {phrases : List Phrase}
    (h : Spelled (phrases.flatMap Phrase.tokens)) :
    ∀ item ∈ phrases.map Phrase.item, item.isWritable := by
  induction phrases with
  | nil => nofun
  | cons p phrases ih =>
    rw [List.flatMap_cons] at h
    exact List.forall_mem_cons.2 ⟨p.isWritable_item h.left, ih h.right⟩

/-! ## Charts of items -/

theorem Block.allSignals_branches {label : BlockLabel} {branches : List Block}
    (h : branches.all (isBranch label)) : allSignals branches = [] := by
  induction branches with
  | nil => rfl
  | cons b branches ih =>
    obtain ⟨hb, hbranches⟩ := Bool.and_eq_true_iff.1 h
    obtain ⟨condition, -, rfl⟩ := eq_of_isBranch hb
    exact ih hbranches

mutual

/-- The ends of the signals of a statement that can be written are names. -/
theorem Statement.isName_ends : (s : Statement) → s.isWritable →
    ∀ signal ∈ s.signals, isName signal.source ∧ isName signal.target
  | .signal s, h => by
    intro signal hsignal
    rw [List.mem_singleton.1 hsignal]
    simp only [isWritable, Signal.isWritable, Bool.and_eq_true] at h
    exact h.1.1.1.1
  | .block ⟨_, _, body⟩, h => by
    simp only [isWritable, Block.isWritable, Bool.and_eq_true] at h
    exact Statement.isName_allEnds body h.2
  | .group branches, h => by
    cases branches with
    | nil => cases h
    | cons first more =>
      obtain ⟨hfirst, hmore⟩ := Bool.and_eq_true_iff.1 h
      obtain ⟨condition, -, rfl⟩ := Block.eq_of_isBranch hfirst
      intro signal hsignal
      have hsignal : signal ∈ Block.allSignals more := hsignal
      rw [Block.allSignals_branches hmore] at hsignal
      cases hsignal

theorem Statement.isName_allEnds : (ss : List Statement) → Statement.allWritable ss →
    ∀ signal ∈ Statement.allSignals ss, isName signal.source ∧ isName signal.target
  | [], _ => nofun
  | s :: ss, h => by
    obtain ⟨hs, hss⟩ := Bool.and_eq_true_iff.1 h
    exact List.forall_mem_append.2 ⟨Statement.isName_ends s hs, Statement.isName_allEnds ss hss⟩

end

namespace Chart

/-- A chart that is well formed at every depth. -/
structure WellFormed (c : Chart) : Prop where
  /-- The title, if there is one, fits on its line. -/
  title : c.title.all isInlineText
  /-- Every signal has a tail or a head, at most one mark and that only with a head, names at its
  ends and a message that fits on its line; every block among the statements is an `opt` block;
  every group has one `alt` branch and `else` branches after it, all of them without statements; and
  every condition fits on its line. -/
  statements : Statement.allWritable c.statements
  /-- Every participant has a name. -/
  participants : ∀ entry ∈ c.participants.entries, isName entry.1
  /-- Every alias is a name and is bound to one. -/
  aliases : ∀ entry ∈ c.aliases.entries, isName entry.1 ∧ isName entry.2

variable {c : Chart}

theorem wellFormed_empty : WellFormed {} := ⟨rfl, rfl, nofun, nofun⟩

theorem WellFormed.addParticipant (h : c.WellFormed) {name : String} (hname : isName name) :
    (c.addParticipant name).WellFormed :=
  { h with
    participants := fun entry hentry => by
      rcases Table.mem_put hentry with rfl | hold
      · exact hname
      · exact h.participants entry hold }

theorem WellFormed.addAlias (h : c.WellFormed) {short name : String} (hshort : isName short)
    (hname : isName name) : (c.addAlias short name).WellFormed :=
  { h with
    aliases := fun entry hentry => by
      rcases Table.mem_put hentry with rfl | hold
      · exact ⟨hshort, hname⟩
      · exact h.aliases entry hold }

theorem WellFormed.isName_resolve (h : c.WellFormed) {name : String} (hname : isName name) :
    isName (c.resolve name) := by
  unfold resolve
  cases hbound : c.alias? name with
  | none => exact hname
  | some target => exact (h.aliases _ (Table.mem_of_get? hbound)).2

theorem WellFormed.mention (h : c.WellFormed) {name : String} (hname : isName name) :
    (c.mention name).WellFormed := by
  unfold Chart.mention
  split
  · exact h
  · exact h.addParticipant (h.isName_resolve hname)

theorem WellFormed.foldl_mentionEnds (h : c.WellFormed) {signals : List Signal}
    (hsignals : ∀ s ∈ signals, isName s.source ∧ isName s.target) :
    (signals.foldl mentionEnds c).WellFormed := by
  induction signals generalizing c with
  | nil => exact h
  | cons s signals ih =>
    obtain ⟨⟨hsource, htarget⟩, hrest⟩ := List.forall_mem_cons.1 hsignals
    exact ih ((h.mention hsource).mention htarget) hrest

theorem allWritable_append (ss ts : List Statement) :
    Statement.allWritable (ss ++ ts) = (Statement.allWritable ss && Statement.allWritable ts) := by
  induction ss with
  | nil => rfl
  | cons s ss ih =>
    rw [List.cons_append, Statement.allWritable, ih, Statement.allWritable, Bool.and_assoc]

/-- An item that can be written keeps a chart well formed. -/
theorem WellFormed.add (h : c.WellFormed) {item : Item} (hitem : item.isWritable) :
    (c.add item).WellFormed := by
  cases item with
  | title text => exact { h with title := hitem }
  | participant name alias? =>
    obtain ⟨hname, hshort⟩ := Bool.and_eq_true_iff.1 hitem
    cases alias? with
    | none => exact h.addParticipant hname
    | some short => exact (h.addParticipant hname).addAlias hshort hname
  | statement s =>
    have hstatements : Statement.allWritable (c.statements ++ [s]) := by
      have hs : Statement.isWritable s := hitem
      simp [allWritable_append, h.statements, Statement.allWritable, hs]
    exact { h.foldl_mentionEnds (s.isName_ends hitem) with statements := hstatements }

theorem wellFormed_ofItems {items : List Item} (h : ∀ item ∈ items, item.isWritable) :
    (ofItems items).WellFormed := by
  have hfold (c : Chart) (hc : c.WellFormed) : (items.foldl Chart.add c).WellFormed := by
    induction items generalizing c with
    | nil => exact hc
    | cons item items ih =>
      obtain ⟨hitem, hrest⟩ := List.forall_mem_cons.1 h
      exact ih hrest (c.add item) (hc.add hitem)
  exact hfold {} wellFormed_empty

/-- The chart of every source that is read is well formed. -/
theorem wellFormed_of_ofSource {source : String} {c : Chart} (h : ofSource source = .ok c) :
    c.WellFormed := by
  obtain ⟨tokens, phrases, htokens, hderives, rfl⟩ := derives_of_ofSource h
  obtain ⟨ts, s', last, hfeeds, hlast, rfl⟩ := Scanner.feeds_of_tokens htokens
  have hends : ∀ t ∈ ts, t.kind ≠ .endOfInput := fun t ht => (hfeeds.mem t ht).2
  obtain ⟨r, hread⟩ :=
    (exists_ofTokens_append_iff hends).1 ⟨[last], _, ofTokens_of_derives hderives⟩
  have hunbroken := Text.unbroken_lines source.toList
  obtain ⟨hspelled, -⟩ := hfeeds.spelled rfl hunbroken (Reading.Reads.ne_note hread)
  have htokens : phrases.flatMap Phrase.tokens = ts := by
    rw [hderives, Reading.beforeEnd_append hends, beforeEnd, List.takeWhile_cons, hlast]
    exact List.append_nil ts
  exact wellFormed_ofItems (all_isWritable_items (htokens ▸ hspelled))

/-- A source with an alias, a mark, and a group in a block in a block. -/
theorem wellFormed_of_ofSource_nested :
    ∃ source c,
      source = "participant A as X\nX ->+ B: go\nopt\nopt x\nalt y\nelse\nend\nend\nend" ∧
        ofSource source = .ok c ∧ c.WellFormed := by
  obtain ⟨source, hsource⟩ : ∃ source,
      source = "participant A as X\nX ->+ B: go\nopt\nopt x\nalt y\nelse\nend\nend\nend" :=
    ⟨_, rfl⟩
  have hread : (ofSource source).isOk := by
    rw [hsource]
    decide +kernel
  cases hchart : ofSource source with
  | error why =>
    rw [hchart] at hread
    cases hread
  | ok c => exact ⟨source, c, hsource, hchart, wellFormed_of_ofSource hchart⟩

end Chart

end SequenceChart
