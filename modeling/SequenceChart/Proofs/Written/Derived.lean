import SequenceChart.Proofs.Chart.Items
import SequenceChart.Proofs.Reading.Accepts
import SequenceChart.Proofs.Written.Tokens
set_option autoImplicit false

/-!
# Reading what was written

Tokens that say the pieces of a document have a derivation that writes the document, so its text is
read as the document again.
-/

namespace SequenceChart

open Scanner

/-! ## Leaves from tokens -/

section Leaves

variable {ts : List Token} {rest : List Piece}

/-- The first of some tokens is a leaf of what it says. -/
theorem exists_leaf {γ : Type} (kind : γ → TokenKind) (choice : γ) {text : String}
    (h : ts.map Token.piece = (kind choice, text) :: rest) :
    ∃ (leaf : Leaf kind) (more : List Token), ts = leaf.tokens ++ more ∧ leaf.choice = choice ∧
      leaf.content = text ∧ more.map Token.piece = rest := by
  obtain ⟨t, more, rfl, hpiece, hmore⟩ := List.map_eq_cons_iff.1 h
  obtain ⟨hkind, htext⟩ := Prod.mk.inj hpiece
  exact ⟨⟨choice, t, hkind⟩, more, rfl, rfl, htext, hmore⟩

theorem exists_terminal {k : TokenKind} {text : String}
    (h : ts.map Token.piece = (k, text) :: rest) :
    ∃ (leaf : Terminal k) (more : List Token), ts = leaf.tokens ++ more ∧ leaf.content = text ∧
      more.map Token.piece = rest := by
  obtain ⟨leaf, more, hts, -, htext, hmore⟩ := exists_leaf (fun _ : Unit => k) () h
  exact ⟨leaf, more, hts, htext, hmore⟩

/-- A symbol that may be absent is a leaf that may be absent. -/
theorem exists_symbol {γ : Type} (kind : γ → TokenKind) {choice? : Option γ}
    (h : ts.map Token.piece = (choice?.map kind).toList.map symbolPiece ++ rest) :
    ∃ (leaf? : Option (Leaf kind)) (more : List Token), ts = optionally Leaf.tokens leaf? ++ more ∧
      leaf?.map Leaf.choice = choice? ∧ more.map Token.piece = rest := by
  cases choice? with
  | none => exact ⟨none, ts, rfl, rfl, h⟩
  | some choice =>
    obtain ⟨leaf, more, hts, hchoice, -, hmore⟩ := exists_leaf kind choice h
    exact ⟨some leaf, more, hts, congrArg some hchoice, hmore⟩

theorem exists_condition {condition : Option String}
    (h : ts.map Token.piece = condition.toList.map (fun text => (.text, text)) ++ rest) :
    ∃ (leaf? : Option (Terminal .text)) (more : List Token),
      ts = optionally Leaf.tokens leaf? ++ more ∧ leaf?.map Leaf.content = condition ∧
      more.map Token.piece = rest := by
  cases condition with
  | none => exact ⟨none, ts, rfl, rfl, h⟩
  | some text =>
    obtain ⟨leaf, more, hts, htext, hmore⟩ := exists_terminal h
    exact ⟨some leaf, more, hts, congrArg some htext, hmore⟩

theorem eq_nil_of_pieces (h : ts.map Token.piece = []) : ts = [] := List.map_eq_nil_iff.1 h

end Leaves

/-! ## Signals -/

/-- The mark of a signal as a choice: to activate the target or to deactivate the source. -/
def Signal.markChoice? (s : Signal) : Option Bool :=
  if s.activates then some true else if s.deactivates then some false else none

theorem Signal.mark?_eq (s : Signal) : s.mark? = s.markChoice?.map markKind := by
  unfold mark? markChoice?
  split
  · rfl
  · split <;> rfl

theorem Signal.any_markChoice? {s : Signal} (h : s.activates = false ∨ s.deactivates = false) :
    s.markChoice?.any (fun b => b) = s.activates ∧
      s.markChoice?.any (fun b => !b) = s.deactivates := by
  unfold markChoice?
  cases hactivates : s.activates with
  | false => cases s.deactivates <;> exact ⟨rfl, rfl⟩
  | true =>
    rcases h with hoff | hoff
    · rw [hactivates] at hoff
      cases hoff
    · rw [hoff]
      exact ⟨rfl, rfl⟩

theorem exists_messagePhrase {s : Signal} {ts : List Token}
    (h : ts.map Token.piece = s.messagePieces) :
    ∃ message : Option MessagePhrase, ts = optionally MessagePhrase.tokens message ∧
      message.map (fun m => m.text.content) = s.message := by
  unfold Signal.messagePieces at h
  cases hmessage : s.message with
  | none =>
    rw [hmessage] at h
    exact ⟨none, eq_nil_of_pieces h, rfl⟩
  | some message =>
    rw [hmessage] at h
    obtain ⟨colon, more, rfl, -, hmore⟩ := exists_terminal h
    obtain ⟨text, none, rfl, rfl, hnone⟩ := exists_terminal hmore
    cases eq_nil_of_pieces hnone
    exact ⟨some ⟨colon, text⟩, rfl, rfl⟩

theorem exists_signalPhrase {s : Signal} (hs : s.isWritable) {ts : List Token}
    (h : ts.map Token.piece = s.pieces) :
    ∃ p : SignalPhrase, p.tokens = ts ∧ p.signal = s := by
  obtain ⟨-, -, -, hpointed, -, hone⟩ := Signal.parts_of_isWritable hs
  rw [Signal.pieces, Signal.mark?_eq] at h
  obtain ⟨source, ts₁, rfl, hsource, h₁⟩ := exists_terminal h
  obtain ⟨tail, ts₂, rfl, htail, h₂⟩ := exists_symbol TokenKind.tail h₁
  obtain ⟨shaft, ts₃, rfl, hshaft, -, h₃⟩ := exists_leaf TokenKind.shaft s.dotted h₂
  obtain ⟨head, ts₄, rfl, hhead, h₄⟩ := exists_symbol TokenKind.head h₃
  obtain ⟨mark, ts₅, rfl, hmark, h₅⟩ := exists_symbol markKind h₄
  obtain ⟨target, ts₆, rfl, htarget, h₆⟩ := exists_terminal h₅
  obtain ⟨message, rfl, hmessage⟩ := exists_messagePhrase h₆
  have hpointed : tail.isSome ∨ head.isSome := by
    rw [← htail, ← hhead, Option.isSome_map, Option.isSome_map] at hpointed
    exact hpointed
  refine ⟨⟨source, tail, shaft, head, mark, target, message, hpointed⟩, rfl, ?_⟩
  obtain ⟨hplus, hminus⟩ := Signal.any_markChoice? hone
  have hactivates : (mark.any fun m => m.choice) = s.activates := by
    rw [← hplus, ← hmark, Option.any_map]
  have hdeactivates : (mark.any fun m => !m.choice) = s.deactivates := by
    rw [← hminus, ← hmark, Option.any_map]
  rw [SignalPhrase.signal, hsource, htarget, htail, hhead, hshaft, hmessage, hactivates,
    hdeactivates]

/-! ## Statements -/

/-- The pieces of some lines. -/
def linePieces (lines : List Line) : List Piece := lines.flatMap Line.pieces

theorem linePieces_cons (line : Line) (lines : List Line) :
    linePieces (line :: lines) = line.pieces ++ linePieces lines := List.flatMap_cons

theorem linePieces_append (first second : List Line) :
    linePieces (first ++ second) = linePieces first ++ linePieces second := List.flatMap_append

theorem linePieces_block (label : BlockLabel) (condition : Option String) (body : List Statement) :
    linePieces (Block.lines ⟨label, condition, body⟩)
      = keywordPiece label.keyword :: (condition.toList.map (fun text => (.text, text))
          ++ linePieces (Statement.allLines body)) := by
  rw [Block.lines, linePieces_cons]
  rfl

/-- The first line of a block is its keyword and its condition. -/
theorem exists_opening {label : BlockLabel} {condition : Option String} {body : List Statement}
    {ts : List Token} {rest : List Piece}
    (h : ts.map Token.piece = linePieces (Block.lines ⟨label, condition, body⟩) ++ rest) :
    ∃ (word : Terminal (.keyword label.keyword)) (text : Option (Terminal .text))
      (more : List Token), ts = word.tokens ++ (optionally Leaf.tokens text ++ more) ∧
        text.map Leaf.content = condition ∧
        more.map Token.piece = linePieces (Statement.allLines body) ++ rest := by
  rw [linePieces_block, List.cons_append, List.append_assoc] at h
  obtain ⟨word, ts₁, rfl, -, h₁⟩ := exists_terminal h
  obtain ⟨text, ts₂, rfl, htext, h₂⟩ := exists_condition h₁
  exact ⟨word, text, ts₂, rfl, htext, h₂⟩

/-- The last line of a block or of a group is its end. -/
theorem exists_stop {ts : List Token} (h : ts.map Token.piece = linePieces [.end_]) :
    ∃ stop : Terminal (.keyword .end_), ts = stop.tokens := by
  obtain ⟨stop, none, rfl, -, hnone⟩ := exists_terminal h
  cases eq_nil_of_pieces hnone
  exact ⟨stop, rfl⟩

theorem exists_elsePhrases {branches : List Block} (hb : branches.all (Block.isBranch .else_))
    {ts : List Token} (h : ts.map Token.piece = linePieces (Block.allLines branches)) :
    ∃ ps : List ElsePhrase, ps.flatMap ElsePhrase.tokens = ts ∧
      ps.map ElsePhrase.block = branches := by
  induction branches generalizing ts with
  | nil => exact ⟨[], (eq_nil_of_pieces h).symm, rfl⟩
  | cons b branches ih =>
    obtain ⟨hfirst, hbranches⟩ := Bool.and_eq_true_iff.1 hb
    obtain ⟨condition, -, rfl⟩ := Block.eq_of_isBranch hfirst
    rw [Block.allLines, linePieces_append] at h
    obtain ⟨word, text, more, rfl, rfl, hmore⟩ := exists_opening h
    obtain ⟨ps, rfl, rfl⟩ := ih hbranches hmore
    refine ⟨⟨word, text⟩ :: ps, ?_, rfl⟩
    rw [List.flatMap_cons, ElsePhrase.tokens, List.append_assoc]
    rfl

mutual

theorem exists_statementPhrase : (s : Statement) → s.isWritable → (ts : List Token) →
    ts.map Token.piece = linePieces s.lines →
    ∃ p : StatementPhrase, p.tokens = ts ∧ p.statement = s
  | .signal s, hs, ts, h => by
    have hpieces : ts.map Token.piece = s.pieces := h.trans (List.append_nil _)
    obtain ⟨p, rfl, rfl⟩ := exists_signalPhrase hs hpieces
    exact ⟨.signal p, rfl, rfl⟩
  | .block ⟨label, condition, body⟩, hs, ts, h => by
    simp only [Statement.isWritable, Block.isWritable, Bool.and_eq_true, decide_eq_true_eq] at hs
    obtain ⟨⟨rfl, -⟩, hbody⟩ := hs
    rw [Statement.lines, linePieces_append] at h
    obtain ⟨word, text, more, rfl, rfl, hmore⟩ := exists_opening h
    obtain ⟨inner, last, rfl, hinner, hlast⟩ := List.map_eq_append_iff.1 hmore
    obtain ⟨ps, rfl, rfl⟩ := exists_statementPhrases body hbody inner hinner
    obtain ⟨stop, rfl⟩ := exists_stop hlast
    exact ⟨.opt word text ps stop, rfl, rfl⟩
  | .group [], hs, ts, h => by cases hs
  | .group (first :: more), hs, ts, h => by
    obtain ⟨hfirst, helse⟩ := Bool.and_eq_true_iff.1 hs
    obtain ⟨condition, -, rfl⟩ := Block.eq_of_isBranch hfirst
    rw [Statement.lines, Block.allLines, List.append_assoc, linePieces_append] at h
    obtain ⟨word, text, rest, rfl, rfl, hrest⟩ := exists_opening h
    have hbranches : rest.map Token.piece = linePieces (Block.allLines more ++ [.end_]) := hrest
    rw [linePieces_append] at hbranches
    obtain ⟨inner, last, rfl, hinner, hlast⟩ := List.map_eq_append_iff.1 hbranches
    obtain ⟨ps, rfl, rfl⟩ := exists_elsePhrases helse hinner
    obtain ⟨stop, rfl⟩ := exists_stop hlast
    exact ⟨.alt word text ps stop, rfl, rfl⟩

theorem exists_statementPhrases : (ss : List Statement) → Statement.allWritable ss →
    (ts : List Token) → ts.map Token.piece = linePieces (Statement.allLines ss) →
    ∃ ps : List StatementPhrase,
      StatementPhrase.allTokens ps = ts ∧ StatementPhrase.statements ps = ss
  | [], _, ts, h => ⟨[], (eq_nil_of_pieces h).symm, rfl⟩
  | s :: ss, hs, ts, h => by
    obtain ⟨hfirst, hrest⟩ := Bool.and_eq_true_iff.1 hs
    rw [Statement.allLines, linePieces_append] at h
    obtain ⟨first, rest, rfl, h₁, h₂⟩ := List.map_eq_append_iff.1 h
    obtain ⟨p, rfl, rfl⟩ := exists_statementPhrase s hfirst first h₁
    obtain ⟨ps, rfl, rfl⟩ := exists_statementPhrases ss hrest rest h₂
    exact ⟨p :: ps, rfl, rfl⟩

end

/-! ## Documents -/

theorem exists_phrase {item : Item} (hitem : item.isWritable) {ts : List Token}
    (h : ts.map Token.piece = linePieces item.lines) :
    ∃ p : Phrase, p.tokens = ts ∧ p.item = item := by
  cases item with
  | title text =>
    obtain ⟨word, ts₁, rfl, -, h₁⟩ := exists_terminal h
    obtain ⟨text, ts₂, rfl, rfl, h₂⟩ := exists_terminal h₁
    cases eq_nil_of_pieces h₂
    exact ⟨.title word text, rfl, rfl⟩
  | participant name alias? =>
    cases alias? with
    | none =>
      obtain ⟨word, ts₁, rfl, -, h₁⟩ := exists_terminal h
      obtain ⟨name, ts₂, rfl, rfl, h₂⟩ := exists_terminal h₁
      cases eq_nil_of_pieces h₂
      exact ⟨.participant word name none, rfl, rfl⟩
    | some short =>
      obtain ⟨word, ts₁, rfl, -, h₁⟩ := exists_terminal h
      obtain ⟨name, ts₂, rfl, rfl, h₂⟩ := exists_terminal h₁
      obtain ⟨as_, ts₃, rfl, -, h₃⟩ := exists_terminal h₂
      obtain ⟨short, ts₄, rfl, rfl, h₄⟩ := exists_terminal h₃
      cases eq_nil_of_pieces h₄
      exact ⟨.participant word name (some ⟨as_, short⟩), rfl, rfl⟩
  | statement s =>
    obtain ⟨p, rfl, rfl⟩ := exists_statementPhrase s hitem ts h
    exact ⟨.statement p, rfl, rfl⟩

/-- Tokens that say the pieces of a document are derived by phrases that write it. -/
theorem exists_phrases {items : List Item} (hitems : items.all Item.isWritable) {ts : List Token}
    (h : ts.map Token.piece = linePieces (Document.lines items)) :
    ∃ ps : List Phrase, ps.flatMap Phrase.tokens = ts ∧ ps.map Phrase.item = items := by
  induction items generalizing ts with
  | nil => exact ⟨[], (eq_nil_of_pieces h).symm, rfl⟩
  | cons item items ih =>
    obtain ⟨hitem, hrest⟩ := Bool.and_eq_true_iff.1 hitems
    rw [Document.lines, List.flatMap_cons, linePieces_append] at h
    obtain ⟨first, rest, rfl, h₁, h₂⟩ := List.map_eq_append_iff.1 h
    obtain ⟨p, rfl, rfl⟩ := exists_phrase hitem h₁
    obtain ⟨ps, rfl, rfl⟩ := ih hrest h₂
    exact ⟨p :: ps, rfl, rfl⟩

theorem ne_endOfInput_of_mem_symbols {kind? : Option TokenKind}
    (h : kind? ≠ some .endOfInput) : ∀ p ∈ kind?.toList.map symbolPiece, p.1 ≠ .endOfInput := by
  intro p hp he
  obtain ⟨kind, hkind, rfl⟩ := List.mem_map.1 hp
  exact h (Option.mem_toList.1 hkind ▸ congrArg some he)

theorem ne_endOfInput_of_mem_pieces (line : Line) : ∀ p ∈ line.pieces, p.1 ≠ .endOfInput := by
  cases line with
  | title text => simp [Line.pieces, keywordPiece]
  | participant name alias? => cases alias? <;> simp [Line.pieces, keywordPiece]
  | block label condition => cases condition <;> simp [Line.pieces, keywordPiece]
  | end_ => simp [Line.pieces, keywordPiece]
  | signal s =>
    have htail : s.tail.map TokenKind.tail ≠ some .endOfInput := by simp
    have hhead : s.head.map TokenKind.head ≠ some .endOfInput := by simp
    have hmark : s.mark? ≠ some .endOfInput := by
      rcases mark?_cases s with h | h | h <;> simp [h]
    have hmessage : ∀ p ∈ s.messagePieces, p.1 ≠ .endOfInput := by
      unfold Signal.messagePieces
      cases s.message <;> simp [symbolPiece]
    intro p hp
    rcases List.mem_cons.1 hp with rfl | hp
    · simp
    rcases List.mem_append.1 hp with hp | hp
    · exact ne_endOfInput_of_mem_symbols htail p hp
    rcases List.mem_cons.1 hp with rfl | hp
    · simp [symbolPiece]
    rcases List.mem_append.1 hp with hp | hp
    · exact ne_endOfInput_of_mem_symbols hhead p hp
    rcases List.mem_append.1 hp with hp | hp
    · exact ne_endOfInput_of_mem_symbols hmark p hp
    rcases List.mem_cons.1 hp with rfl | hp
    · simp
    · exact hmessage p hp

theorem beforeEnd_of_pieces {ts : List Token} {lines : List Line} {last : Token}
    (h : ts.map Token.piece = linePieces lines) (hlast : last.kind = .endOfInput) :
    beforeEnd (ts ++ [last]) = ts := by
  have hts : ∀ t ∈ ts, decide (t.kind ≠ .endOfInput) = true := by
    intro t ht
    have hpiece : t.piece ∈ linePieces lines := h ▸ List.mem_map_of_mem ht
    obtain ⟨line, -, hmem⟩ := List.mem_flatMap.1 hpiece
    exact decide_eq_true (ne_endOfInput_of_mem_pieces line t.piece hmem)
  rw [beforeEnd, List.takeWhile_append_of_pos hts]
  simp [hlast]

/-- The text of a document that can be written has a derivation of its items, whatever gaps stand on
its lines. -/
theorem exists_derives_text {items : List Item} (h : items.all Item.isWritable)
    (spacing : Nat → Spacing) {ending : String} (hending : ending = "" ∨ ending = "\n") :
    ∃ tokens ps, tokenize (Document.text spacing items ++ ending) = .ok tokens ∧
      Derives ps tokens ∧ ps.map Phrase.item = items := by
  obtain ⟨ts, last, htokens, hlast, hpieces⟩ := tokenize_text h spacing hending
  obtain ⟨ps, hps, hitems⟩ := exists_phrases h hpieces
  exact ⟨ts ++ [last], ps, htokens, hps.trans (beforeEnd_of_pieces hpieces hlast).symm, hitems⟩

/-- A source whose tokens have a derivation is read as the chart of its items. -/
theorem ofSource_of_derives {source : String} {tokens : List Token} {ps : List Phrase}
    (htokens : tokenize source = .ok tokens) (h : Derives ps tokens) :
    Chart.ofSource source = .ok (Chart.ofItems (ps.map Phrase.item)) := by
  simp only [Chart.ofSource, htokens, ofTokens_of_derives h]

/-- A document that can be written is read again from its text, whatever gaps stand on its lines:
the chart is that of its items, with the last title and all statements in order. -/
theorem ofSource_text {items : List Item} (h : items.all Item.isWritable)
    (spacing : Nat → Spacing) {ending : String} (hending : ending = "" ∨ ending = "\n") :
    ∃ c, Chart.ofSource (Document.text spacing items ++ ending) = .ok c ∧
      c.title = Document.title? items ∧ c.statements = Document.statements items := by
  obtain ⟨tokens, ps, htokens, hderives, hitems⟩ := exists_derives_text h spacing hending
  have hread := ofSource_of_derives htokens hderives
  rw [hitems] at hread
  exact ⟨_, hread, Chart.title_ofItems items, Chart.statements_ofItems items⟩

/-- A document with a group inside a block and a signal with every part, written without gaps. -/
theorem ofSource_text_tight :
    let block : Statement :=
      .block ⟨.opt, some "x",
        [.group [⟨.alt, none, []⟩, ⟨.else_, some "y", []⟩],
          .signal ⟨"a", "b", some .closed, some .open_, true, some "m", true, false⟩]⟩
    ∃ c, Chart.ofSource "title s\ntitle t\nopt x\nalt\nelse y\nend\na<-->>+b:m\nend\n" = .ok c ∧
      c.title = some "t" ∧ c.statements = [block] := by
  intro block
  let items : List Item := [.title "s", .title "t", .statement block]
  let tight : Spacing := ⟨fun _ => "", fun _ c hc => nomatch hc⟩
  have hwritable : items.all Item.isWritable := by decide
  have htext : Document.text (fun _ => tight) items ++ "\n"
      = "title s\ntitle t\nopt x\nalt\nelse y\nend\na<-->>+b:m\nend\n" := by decide +kernel
  rw [← htext]
  exact ofSource_text hwritable (fun _ => tight) (Or.inr rfl)

end SequenceChart
