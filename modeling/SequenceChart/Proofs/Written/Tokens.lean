import SequenceChart.Proofs.Written.Scanned
set_option autoImplicit false

/-!
# The tokens of a written document

The text of a document is cut into the lines that were written, and its tokens say their pieces,
line after line.
-/

namespace SequenceChart

open Scanner Text

/-! ## Lines stay whole -/

theorem isLineBoundary_of_isGap {c : Char} (h : isGap c) : isLineBoundary c = false := by
  rcases eq_of_isGap h with rfl | rfl <;> rfl

theorem isLineBoundary_of_isWordRest {c : Char} (h : isWordRest c) : isLineBoundary c = false := by
  cases hboundary : isLineBoundary c with
  | false => rfl
  | true =>
    simp only [isLineBoundary, Bool.or_eq_true, decide_eq_true_eq] at hboundary
    rcases hboundary with
      ((((((((rfl | rfl) | rfl) | rfl) | rfl) | rfl) | rfl) | rfl) | rfl) | rfl <;> cases h

theorem isWordRest_of_isWordStart {c : Char} (h : isWordStart c) : isWordRest c := by
  have halpha : c.isAlpha = true := h
  simp [isWordRest, Char.isAlphanum, halpha]

theorem unbroken_gap (g : Spacing) (i : Nat) : Unbroken (g.gap i).toList :=
  fun c hc => isLineBoundary_of_isGap (g.blank i c hc)

theorem unbroken_between (g : Spacing) (i : Nat) : Unbroken (g.between i).toList :=
  fun c hc => isLineBoundary_of_isGap (g.blank_between i c hc)

theorem unbroken_word {s : String} (h : isWord s) : Unbroken s.toList := by
  unfold isWord at h
  intro c hc
  refine isLineBoundary_of_isWordRest ?_
  cases hchars : s.toList with
  | nil =>
    rw [hchars] at hc
    cases hc
  | cons first rest =>
    rw [hchars] at h hc
    obtain ⟨hstart, hrest⟩ := Bool.and_eq_true_iff.1 h
    rcases List.mem_cons.1 hc with rfl | hmem
    · exact isWordRest_of_isWordStart hstart
    · exact List.all_eq_true.1 hrest c hmem

theorem unbroken_inlineText {s : String} (h : isInlineText s) : Unbroken s.toList := by
  unfold isInlineText at h
  cases hchars : s.toList with
  | nil => exact fun c hc => by cases hc
  | cons first rest =>
    rw [hchars] at h
    intro c hc
    have hall := List.all_eq_true.1 (Bool.and_eq_true_iff.1 h).2 c hc
    simpa using hall

theorem unbroken_symbol (kind : TokenKind) : Unbroken (symbol kind).toList := by
  cases kind with
  | shaft dotted => cases dotted <;> decide
  | tail shape => cases shape <;> decide
  | head shape => cases shape <;> decide
  | keyword word => exact fun c hc => by cases hc
  | _ => decide

theorem unbroken_symbolText (kind? : Option TokenKind) : Unbroken (symbolText kind?).toList := by
  cases kind? with
  | none => exact fun c hc => by cases hc
  | some kind => exact unbroken_symbol kind

theorem unbroken_keyword (word : Keyword) : Unbroken word.text.toList :=
  unbroken_word (isWord_keyword word)

theorem unbroken_messageText (g : Spacing) {s : Signal} (h : s.message.all isInlineText) :
    Unbroken (s.messageText g).toList := by
  unfold Signal.messageText
  cases hmessage : s.message with
  | none => exact fun c hc => by cases hc
  | some message =>
    rw [hmessage] at h
    simp only [String.toList_append, unbroken_append]
    exact ⟨⟨unbroken_symbol .colon, unbroken_gap g 7⟩, unbroken_inlineText h⟩

theorem unbroken_signal (g : Spacing) {s : Signal} (h : s.isWritable) :
    Unbroken (s.text g).toList := by
  obtain ⟨hsource, htarget, hmessage, -⟩ := Signal.parts_of_isWritable h
  simp only [Signal.text, String.toList_append, unbroken_append, unbroken_gap, unbroken_symbolText,
    unbroken_word (isWord_of_isName hsource), unbroken_word (isWord_of_isName htarget),
    unbroken_messageText g hmessage, and_self]

theorem unbroken_line (g : Spacing) {line : Line} (h : line.isWritable) :
    Unbroken (line.text g).toList := by
  cases line with
  | title text =>
    have hword : Unbroken "title".toList := unbroken_keyword .title
    simp only [Line.text, String.toList_append, unbroken_append, unbroken_gap, unbroken_between,
      hword, unbroken_inlineText h, and_self]
  | participant name alias? =>
    obtain ⟨hname, halias⟩ := Bool.and_eq_true_iff.1 h
    have hword : Unbroken "participant".toList := unbroken_keyword .participant
    have hname := unbroken_word (isWord_of_isName hname)
    cases alias? with
    | none =>
      simp only [Line.text, String.toList_append, unbroken_append, unbroken_gap, unbroken_between,
        hword, hname, and_self]
    | some short =>
      have has : Unbroken "as".toList := unbroken_keyword .as_
      have hshort : Unbroken short.toList := unbroken_word (isWord_of_isName halias)
      simp only [Line.text, String.toList_append, unbroken_append, unbroken_gap, unbroken_between,
        hword, hname, has, hshort, and_self]
  | block label condition =>
    have hword : Unbroken label.text.toList := by cases label <;> decide
    cases condition with
    | none =>
      simp only [Line.text, String.toList_append, unbroken_append, unbroken_gap, hword, and_self]
    | some condition =>
      have hcondition : Unbroken condition.toList := unbroken_inlineText h
      simp only [Line.text, String.toList_append, unbroken_append, unbroken_gap, unbroken_between,
        hword, hcondition, and_self]
  | end_ =>
    have hword : Unbroken "end".toList := unbroken_keyword .end_
    simp only [Line.text, String.toList_append, unbroken_append, unbroken_gap, hword, and_self]
  | signal s => exact unbroken_signal g h

/-! ## Lines as rows of pieces -/

theorem pieces_ne_nil (line : Line) : line.pieces ≠ [] := by
  cases line with
  | participant name alias? => cases alias? <;> exact List.cons_ne_nil _ _
  | _ => exact List.cons_ne_nil _ _

/-- No line that is written opens a block of free text. -/
theorem staysPlain_pieces (line : Line) : StaysPlain line.pieces := by
  intro p hp
  cases line with
  | participant name alias? => cases alias? <;> cases hp <;> rfl
  | block label condition =>
    cases hp
    cases label <;> rfl
  | title text => cases hp; rfl
  | end_ => cases hp; rfl
  | signal s => cases hp; rfl

theorem line_ne_nil (g : Spacing) {line : Line} (h : line.isWritable) :
    (line.text g).toList ≠ [] := by
  intro hnil
  obtain ⟨ts, hts, hpieces⟩ := scans_line g h 1 1
  rw [hnil, statementTokens] at hts
  cases hts
  exact pieces_ne_nil line hpieces.symm

/-! ## The lines of a document can be written -/

theorem Block.eq_of_isBranch {label : BlockLabel} {b : Block} (h : b.isBranch label) :
    ∃ condition : Option String, condition.all isInlineText ∧ b = ⟨label, condition, []⟩ := by
  obtain ⟨l, condition, body⟩ := b
  simp only [isBranch, Bool.and_eq_true, decide_eq_true_eq, List.isEmpty_iff] at h
  obtain ⟨⟨rfl, hcondition⟩, rfl⟩ := h
  exact ⟨condition, hcondition, rfl⟩

/-- Branches have no lines but their first ones. -/
theorem Block.isWritable_branches {label : BlockLabel} {branches : List Block}
    (h : branches.all (isBranch label)) : ∀ line ∈ allLines branches, line.isWritable := by
  induction branches with
  | nil =>
    intro line hline
    cases hline
  | cons b branches ih =>
    obtain ⟨hb, hbranches⟩ := Bool.and_eq_true_iff.1 h
    obtain ⟨condition, hcondition, rfl⟩ := eq_of_isBranch hb
    intro line hline
    rcases List.mem_cons.1 hline with rfl | hmore
    · exact hcondition
    · exact ih hbranches line hmore

mutual

theorem Statement.isWritable_lines :
    (s : Statement) → s.isWritable → ∀ line ∈ s.lines, line.isWritable
  | .signal s, h => by
    intro line hline
    rw [List.mem_singleton.1 hline]
    exact h
  | .block b, h => by
    intro line hline
    rcases List.mem_append.1 hline with hblock | hend
    · exact Block.isWritable_lines b h line hblock
    · rw [List.mem_singleton.1 hend]
      rfl
  | .group [], h => by cases h
  | .group (first :: more), h => by
    intro line hline
    obtain ⟨hfirst, hmore⟩ := Bool.and_eq_true_iff.1 h
    have hone : [first].all (Block.isBranch .alt) := by simpa using hfirst
    have hlines : line ∈ first.lines ++ Block.allLines more ++ [.end_] := hline
    rcases List.mem_append.1 hlines with hbranches | hend
    · rcases List.mem_append.1 hbranches with halt | helse
      · exact Block.isWritable_branches hone line (List.mem_append_left _ halt)
      · exact Block.isWritable_branches hmore line helse
    · rw [List.mem_singleton.1 hend]
      rfl

theorem Block.isWritable_lines : (b : Block) → b.isWritable → ∀ line ∈ b.lines, line.isWritable
  | ⟨label, condition, body⟩, h => by
    intro line hline
    simp only [Block.isWritable, Bool.and_eq_true] at h
    obtain ⟨⟨-, hcondition⟩, hbody⟩ := h
    rcases List.mem_cons.1 hline with rfl | hmem
    · exact hcondition
    · exact Statement.allWritable_lines body hbody line hmem

theorem Statement.allWritable_lines :
    (ss : List Statement) → Statement.allWritable ss →
      ∀ line ∈ Statement.allLines ss, line.isWritable
  | [], _ => fun line hline => by cases hline
  | s :: ss, h => by
    intro line hline
    obtain ⟨hs, hss⟩ := Bool.and_eq_true_iff.1 h
    rcases List.mem_append.1 hline with hfirst | hrest
    · exact Statement.isWritable_lines s hs line hfirst
    · exact Statement.allWritable_lines ss hss line hrest

end

theorem Document.isWritable_lines {items : List Item} (h : items.all Item.isWritable) :
    ∀ line ∈ lines items, line.isWritable := by
  intro line hline
  obtain ⟨item, hitem, hmem⟩ := List.mem_flatMap.1 hline
  have hitem := List.all_eq_true.1 h item hitem
  cases item with
  | title text =>
    rw [List.mem_singleton.1 hmem]
    exact hitem
  | participant name alias? =>
    rw [List.mem_singleton.1 hmem]
    exact hitem
  | statement s => exact Statement.isWritable_lines s hitem line hmem

namespace Document

/-- The rows of a document: each line with its gaps, and the pieces that it says. -/
def rows (spacing : Nat → Spacing) (items : List Item) : List (List Char × List Piece) :=
  (lines items).mapIdx fun i line => ((line.text (spacing i)).toList, line.pieces)

variable {items : List Item} (spacing : Nat → Spacing)

theorem scans_rows (h : items.all Item.isWritable) :
    ∀ row ∈ rows spacing items,
      Unbroken row.1 ∧ row.1 ≠ [] ∧ Scans .plain true row.1 row.2 ∧ StaysPlain row.2 := by
  intro row hrow
  obtain ⟨i, hi, rfl⟩ := List.mem_mapIdx.1 hrow
  have hline := isWritable_lines h _ (List.getElem_mem hi)
  exact ⟨unbroken_line _ hline, line_ne_nil _ hline, scans_line _ hline, staysPlain_pieces _⟩

theorem toList_text (items : List Item) :
    (text spacing items).toList = ['\n'].intercalate ((rows spacing items).map Prod.fst) := by
  have hlines : ((lines items).mapIdx fun i line => line.text (spacing i)).map String.toList
      = (rows spacing items).map Prod.fst := by
    apply List.ext_getElem?
    intro i
    simp only [rows, List.getElem?_map, List.getElem?_mapIdx, Option.map_map]
    rfl
  rw [text, String.toList_intercalate, hlines]
  rfl

theorem flatMap_rows (items : List Item) :
    (rows spacing items).flatMap Prod.snd = (lines items).flatMap Line.pieces := by
  have hpieces : (rows spacing items).map Prod.snd = (lines items).map Line.pieces := by
    apply List.ext_getElem?
    intro i
    simp only [rows, List.getElem?_map, List.getElem?_mapIdx, Option.map_map]
    rfl
  rw [List.flatMap_def, List.flatMap_def, hpieces]

end Document

/-- The tokens of a written document, before the end of the input, say the pieces of its lines. -/
theorem tokenize_text {items : List Item} (h : items.all Item.isWritable) (spacing : Nat → Spacing)
    {ending : String} (hending : ending = "" ∨ ending = "\n") :
    ∃ ts last, tokenize (Document.text spacing items ++ ending) = .ok (ts ++ [last]) ∧
      last.kind = .endOfInput ∧
      ts.map Token.piece = (Document.lines items).flatMap Line.pieces := by
  have hrows := Document.scans_rows spacing h
  have hending : ending.toList = [] ∨ ending.toList = ['\n'] := by
    rcases hending with rfl | rfl
    · exact Or.inl rfl
    · exact Or.inr rfl
  have hwritten : ∀ line ∈ (Document.rows spacing items).map Prod.fst,
      Unbroken line ∧ line ≠ [] := by
    intro line hline
    obtain ⟨row, hrow, rfl⟩ := List.mem_map.1 hline
    exact ⟨(hrows row hrow).1, (hrows row hrow).2.1⟩
  have hlast : ∀ last ∈ ((Document.rows spacing items).map Prod.fst).getLast?, last ≠ [] :=
    fun last h => (hwritten last (List.mem_of_getLast? h)).2
  obtain ⟨n, hlines, -⟩ := lines_intercalate (.inr ⟨'\n', rfl, rfl⟩)
    (fun line hline => (hwritten line hline).1) hlast hending
  -- The line feed after the last line may leave an empty line, which has no pieces.
  have hall : ∀ row ∈ Document.rows spacing items ++ List.replicate n ([], []),
      Unbroken row.1 ∧ Scans .plain true row.1 row.2 ∧ StaysPlain row.2 := by
    intro row hrow
    rcases List.mem_append.1 hrow with hwritten | hempty
    · obtain ⟨hunbroken, -, hscans⟩ := hrows row hwritten
      exact ⟨hunbroken, hscans⟩
    · rw [List.eq_of_mem_replicate hempty]
      exact ⟨fun c hc => (nomatch hc), Scans.nil .plain true, fun p hp => (nomatch hp)⟩
  have hmode : ({} : Scanner).mode = .statement := rfl
  obtain ⟨ts, last, hts, hlast, hpieces⟩ := tokens_of_scans hmode hall
  refine ⟨ts, last, ?_, hlast, ?_⟩
  · rw [tokenize, String.toList_append, Document.toList_text, hlines, ← hts, List.map_append,
      List.map_replicate]
  · rw [hpieces, List.flatMap_append, Document.flatMap_rows]
    simp

end SequenceChart
