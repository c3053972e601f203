import SequenceChart.Proofs.Scanning.Spelled
import SequenceChart.Proofs.Scanning.Tiled
set_option autoImplicit false

/-!
# The division of a line into tokens

Which rows of tokens divide a line is said without scanning it: the tokens tile the line, and each of
them fits between the tokens before it and the text after it.  Main statement: there is at most one
division, a scanner that reads the line as a statement answers with it, and it finds a stray
character exactly if there is none.
-/

namespace SequenceChart

/-- The kind of a name or of a keyword. -/
def TokenKind.isWord : TokenKind → Bool
  | .identifier | .keyword _ => true
  | _ => false

/-- Two kinds of words that are the same keyword, or both none. -/
theorem TokenKind.eq_of_isWord {kind kind' : TokenKind} (h : kind.isWord) (h' : kind'.isWord)
    (hsame : ∀ k, kind = .keyword k ↔ kind' = .keyword k) : kind = kind' := by
  cases kind with
  | keyword k => exact ((hsame k).1 rfl).symm
  | identifier =>
    cases kind' with
    | identifier => rfl
    | keyword k => exact (hsame k).2 rfl
    | _ => cases h'
  | _ => cases h

namespace Scanner

/-! ## What fits where -/

/-- After a token, a text may come exactly if the token announces one. -/
theorem after_eq_text_iff {kind : TokenKind} {isFirst : Bool} :
    Slot.after kind isFirst = .text ↔ kind = .colon ∨ isFirst = true ∧ kind.opensTextLine := by
  unfold Slot.after
  split
  · next hcolon => simp [hcolon]
  next hcolon =>
  split
  · next hhead => cases kind <;> simp_all [TokenKind.isHead, TokenKind.opensTextLine]
  · simp [hcolon]

theorem isWord_wordKind (word : List Char) : (wordKind word).isWord := by
  unfold wordKind
  split <;> rfl

/-- Behind these tokens of a line the rest of it is text: a colon or a first word has announced
one. -/
def AnnouncesText (before : List Token) : Prop :=
  (∃ t ∈ before, t.kind = .colon) ∨ ∃ t ∈ before.head?, t.kind.opensTextLine

/-- Behind these tokens of a line a plus or a minus is a mark: the last of them is an arrowhead. -/
def AwaitsMark (before : List Token) : Prop := ∃ t ∈ before.getLast?, t.kind.isHead

/-- The characters start with a plus or a minus. -/
def StartsWithSign (word : List Char) : Prop := ∃ c ∈ word.head?, c = '+' ∨ c = '-'

/-- A token of a kind, with these characters, fits behind some tokens of a line and before a text. -/
structure Fits (before : List Token) (kind : TokenKind) (word after : List Char) : Prop where
  /-- a text stands where one is announced, and nowhere else -/
  announced : kind = .text ↔ AnnouncesText before
  /-- it starts with no gap and takes the rest of the line -/
  text : kind = .text → word ≠ [] ∧ Stops Text.isGap word ∧ after = []
  /-- a plus or a minus is a mark right behind an arrowhead, and nowhere else -/
  mark : kind.isMark ↔ AwaitsMark before ∧ StartsWithSign word
  /-- a name or a keyword is a word, and no longer one goes on in the text after it -/
  wholeWord : kind.isWord → isWord (String.ofList word) ∧ Stops isWordRest after
  /-- a word is a keyword exactly if it is spelled as one -/
  keyword : kind.isWord → ∀ k, kind = .keyword k ↔ String.ofList word = k.text
  /-- any other token is a symbol, and no longer one goes on in the text after it -/
  wholeSymbol : kind ≠ .text → kind.isWord = false →
    symbol kind ≠ "" ∧ word = (symbol kind).toList ∧ Stops (symbolGoesOn kind) after

/-- A text that starts at a column of a line, behind some tokens, is divided into tokens with gaps
between them. -/
structure Divides (before : List Token) (number column : Nat) (cs : List Char) (ts : List Token) :
    Prop where
  numbered : ∀ t ∈ ts, t.line = number
  tiles : Tiles column cs ts
  fits : ∀ earlier (t : Token) later front word after, ts = earlier ++ t :: later →
    cs = front ++ word ++ after → t.text = some (String.ofList word) →
    t.column = (column + front.length : Nat) → Fits (before ++ earlier) t.kind word after

/-- What a scanner keeps in mind of the tokens behind it. -/
structure Recalls (slot : Slot) (isFirst : Bool) (before : List Token) : Prop where
  first : isFirst = true ↔ before = []
  text : slot = .text ↔ AnnouncesText before
  mark : slot = .mark ↔ AwaitsMark before

namespace Recalls

variable {slot : Slot} {isFirst : Bool} {before : List Token}

theorem start : Recalls .plain true [] where
  first := by simp
  text := by simp [AnnouncesText]
  mark := by simp [AwaitsMark]

/-- A token that is no text leads from one slot to the next. -/
theorem concat (h : Recalls slot isFirst before) (hslot : slot ≠ .text) (t : Token) :
    Recalls (Slot.after t.kind isFirst) false (before ++ [t]) := by
  have hnone : ¬AnnouncesText before := fun htext => hslot (h.text.2 htext)
  have htext : AnnouncesText (before ++ [t]) ↔
      t.kind = .colon ∨ isFirst = true ∧ t.kind.opensTextLine := by
    rw [AnnouncesText, not_or] at hnone
    rw [h.first]
    cases before with
    | nil => simp [AnnouncesText]
    | cons u before => simp_all [AnnouncesText]
  have hmark : AwaitsMark (before ++ [t]) ↔ t.kind.isHead := by
    simp [AwaitsMark]
  refine ⟨by simp, ?_, ?_⟩
  · rw [htext]
    exact after_eq_text_iff
  · rw [hmark]
    exact after_eq_mark_iff

end Recalls

/-! ## One token -/

theorem isMark_iff_of_symbol {kind : TokenKind} (hsymbol : symbol kind ≠ "")
    (hadmits : admits .mark kind) :
    kind.isMark ↔ StartsWithSign (symbol kind).toList := by
  cases kind with
  | shaft dotted => cases hadmits
  | tail shape | head shape =>
    cases shape <;> exact iff_of_false nofun (by simp [StartsWithSign, symbol])
  | activateMark => exact iff_of_true rfl ⟨'+', rfl, .inl rfl⟩
  | deactivateMark => exact iff_of_true rfl ⟨'-', rfl, .inr rfl⟩
  | createMark | colon | comma => exact iff_of_false nofun (by simp [StartsWithSign, symbol])
  | identifier | text | keyword word | endOfInput => exact absurd rfl hsymbol

theorem not_startsWithSign_of_isWord {word : List Char} (h : isWord (String.ofList word)) :
    ¬StartsWithSign word := by
  rintro ⟨c, hc, hsign⟩
  obtain ⟨more, rfl⟩ := List.head?_eq_some_iff.1 hc
  rw [isWord, String.toList_ofList] at h
  have hstart : isWordStart c := (Bool.and_eq_true_iff.1 h).1
  rcases hsign with rfl | rfl <;> cases hstart

namespace Fits

variable {before : List Token} {kind : TokenKind} {word after : List Char}

/-- A symbol that fits may come next in the slot of a scanner. -/
theorem admits_eq (h : Fits before kind (Scanner.symbol kind).toList after) {slot : Slot}
    (hmark : slot = .mark ↔ AwaitsMark before) : admits slot kind := by
  cases kind with
  | shaft dotted =>
    refine decide_eq_true fun hslot => ?_
    have hawaits : AwaitsMark before := hmark.1 hslot
    cases dotted <;> exact nomatch h.mark.2 ⟨hawaits, '-', rfl, .inr rfl⟩
  | activateMark | deactivateMark =>
    obtain ⟨hawaits, -⟩ := h.mark.1 rfl
    exact decide_eq_true (hmark.2 hawaits)
  | _ => rfl

/-- A token that is no text is the lexeme that is found where the token fits. -/
theorem lexeme?_eq (h : Fits before kind word after) {slot : Slot}
    (hmark : slot = .mark ↔ AwaitsMark before) (htext : kind ≠ .text) :
    lexeme? slot (word ++ after) = some (kind, word, after) := by
  cases hword : kind.isWord with
  | true =>
    obtain ⟨hspelled, hstops⟩ := h.wholeWord hword
    have hkind : wordKind word = kind := by
      apply TokenKind.eq_of_isWord (isWord_wordKind word) hword
      intro k
      rw [wordKind_eq_keyword_iff, h.keyword hword k]
    have hlexeme : lexeme? slot ((String.ofList word).toList ++ after) = _ :=
      lexeme?_word hspelled hstops
    rwa [String.toList_ofList, hkind] at hlexeme
  | false =>
    obtain ⟨hsymbol, rfl, hstops⟩ := h.wholeSymbol htext hword
    exact lexeme?_symbol hsymbol (h.admits_eq hmark) hstops

/-- A token that fits starts with a character that is no gap. -/
theorem starts (h : Fits before kind word after) :
    ∃ c more, word = c :: more ∧ Text.isGap c = false := by
  by_cases htext : kind = .text
  · obtain ⟨hne, hgap, -⟩ := h.text htext
    obtain ⟨c, more, rfl⟩ := List.exists_cons_of_ne_nil hne
    exact ⟨c, more, rfl, stops_cons.1 hgap⟩
  · obtain ⟨slot, hslot⟩ : ∃ slot : Slot, slot = .mark ↔ AwaitsMark before := by
      by_cases hawaits : AwaitsMark before
      · exact ⟨.mark, iff_of_true rfl hawaits⟩
      · exact ⟨.plain, iff_of_false nofun hawaits⟩
    have hlexeme := h.lexeme?_eq hslot htext
    obtain ⟨c, more, rfl⟩ := List.exists_cons_of_ne_nil (lexeme?_append hlexeme).1
    refine ⟨c, more, rfl, eq_false_of_ne_true fun hgap => ?_⟩
    rw [List.cons_append, lexeme?_of_isGap hgap] at hlexeme
    cases hlexeme

/-- The lexeme that a scanner finds fits behind what it recalls. -/
theorem of_lexeme? {slot : Slot} {isFirst : Bool} (hrecalls : Recalls slot isFirst before)
    (hslot : slot ≠ .text) {cs : List Char} (h : lexeme? slot cs = some (kind, word, after)) :
    Fits before kind word after := by
  obtain ⟨hmark, htext, -⟩ := lexeme?_spelled h
  have hannounced : kind = .text ↔ AnnouncesText before :=
    iff_of_false htext fun hannounces => hslot (hrecalls.text.2 hannounces)
  rcases lexeme?_cases h with ⟨hsymbol, rfl, hadmits, hstops⟩ | ⟨hword, rfl, hstops⟩
  · have hnone : ¬kind.isWord := by
      intro hkind
      cases kind <;> first | exact hsymbol rfl | cases hkind
    refine ⟨hannounced, fun h => absurd h htext, ?_, fun h => absurd h hnone,
      fun h => absurd h hnone, fun _ _ => ⟨hsymbol, rfl, hstops⟩⟩
    rw [← hrecalls.mark]
    constructor
    · intro hkind
      obtain rfl : slot = .mark := hmark hkind
      exact ⟨rfl, (isMark_iff_of_symbol hsymbol hadmits).1 hkind⟩
    · rintro ⟨rfl, hsign⟩
      exact (isMark_iff_of_symbol hsymbol hadmits).2 hsign
  · refine ⟨hannounced, fun h => absurd h htext, ?_, fun _ => ⟨hword, hstops⟩,
      fun _ _ => wordKind_eq_keyword_iff, fun _ hnone => ?_⟩
    · refine iff_of_false ?_ fun hsign => not_startsWithSign_of_isWord hword hsign.2
      rw [(wordKind_spelled hword).1]
      exact Bool.false_ne_true
    · rw [isWord_wordKind] at hnone
      cases hnone

/-- A text fits where one is announced, if it takes the rest of the line. -/
theorem of_text {slot : Slot} {isFirst : Bool} (hrecalls : Recalls slot isFirst before)
    (hslot : slot = .text) {c : Char} {rest : List Char} (hgap : Text.isGap c = false) :
    Fits before .text (c :: rest) [] := by
  refine ⟨iff_of_true rfl (hrecalls.text.1 hslot), fun _ => ?_, iff_of_false nofun ?_, nofun, nofun,
    fun htext => absurd rfl htext⟩
  · exact ⟨List.cons_ne_nil c rest, stops_cons.2 hgap, rfl⟩
  · rintro ⟨hawaits, -⟩
    cases hslot.symm.trans (hrecalls.mark.2 hawaits)

end Fits

/-! ## A row of tokens -/

namespace Divides

variable {before : List Token} {number column : Nat} {cs : List Char} {t : Token} {ts : List Token}

/-- Where a token of a division stands, and that it fits there. -/
theorem exists_fits (h : Divides before number column cs ts) (ht : t ∈ ts) :
    ∃ earlier front word after, cs = front ++ word ++ after ∧ t.text = some (String.ofList word) ∧
      t.column = (column + front.length : Nat) ∧ Fits (before ++ earlier) t.kind word after := by
  obtain ⟨front, word, after, hcs, htext, hcolumn⟩ := h.tiles.stands t ht
  obtain ⟨earlier, later, hts⟩ := List.append_of_mem ht
  exact ⟨earlier, front, word, after, hcs, htext, hcolumn,
    h.fits earlier t later front word after hts hcs htext hcolumn⟩

theorem length_content_pos (h : Divides before number column cs ts) (ht : t ∈ ts) :
    0 < t.content.length := by
  obtain ⟨earlier, front, word, after, -, htext, -, hfits⟩ := h.exists_fits ht
  obtain ⟨c, more, rfl, -⟩ := hfits.starts
  rw [Token.length_content htext]
  exact Nat.zero_lt_succ _

/-- No token starts with a gap. -/
theorem column_ne (h : Divides before number column cs ts) {c : Char} {rest : List Char}
    (hcs : cs = c :: rest) (hgap : Text.isGap c) (ht : t ∈ ts) : t.column ≠ column := by
  intro hcolumn
  obtain ⟨earlier, front, word, after, hline, -, hfront, hfits⟩ := h.exists_fits ht
  obtain ⟨d, more, rfl, hd⟩ := hfits.starts
  obtain rfl : front = [] := List.eq_nil_of_length_eq_zero (by omega)
  obtain rfl : c = d := (List.cons.inj (hcs.symm.trans hline)).1
  rw [hgap] at hd
  cases hd

theorem nil_iff : Divides before number column [] ts ↔ ts = [] := by
  constructor
  · intro h
    refine List.eq_nil_iff_forall_not_mem.2 fun t ht => ?_
    obtain ⟨earlier, front, word, after, hcs, -, -, hfits⟩ := h.exists_fits ht
    obtain ⟨c, more, rfl, -⟩ := hfits.starts
    simp at hcs
  · rintro rfl
    refine ⟨nofun, .nil column, fun earlier t later _ _ _ hts => ?_⟩
    simp at hts

/-- A gap is divided into nothing. -/
theorem gap_iff {c : Char} {rest : List Char} (hgap : Text.isGap c) :
    Divides before number column (c :: rest) ts ↔ Divides before number (column + 1) rest ts := by
  constructor
  · intro h
    refine ⟨h.numbered, h.tiles.of_gap_cons fun t ht => h.column_ne rfl hgap ht, ?_⟩
    intro earlier t later front word after hts hcs htext hcolumn
    refine h.fits earlier t later (c :: front) word after hts (congrArg (c :: ·) hcs) htext ?_
    rw [hcolumn, List.length_cons]
    omega
  · intro h
    refine ⟨h.numbered, h.tiles.gap_cons hgap, ?_⟩
    intro earlier t later front word after hts hcs htext hcolumn
    have hlow : ((column + 1 : Nat) : Int) ≤ t.column := h.tiles.le_column (by rw [hts]; simp)
    cases front with
    | nil =>
      rw [List.length_nil] at hcolumn
      omega
    | cons d front =>
      refine h.fits earlier t later front word after hts (List.cons.inj hcs).2 htext ?_
      rw [hcolumn, List.length_cons]
      omega

/-- A token that fits at the start of a text, and the division of what follows it. -/
theorem cons {kind : TokenKind} {word after : List Char} (hfits : Fits before kind word after)
    (h : Divides (before ++ [⟨kind, some (String.ofList word), number, column⟩]) number
      (column + word.length) after ts) :
    Divides before number column (word ++ after)
      (⟨kind, some (String.ofList word), number, column⟩ :: ts) := by
  refine ⟨List.forall_mem_cons.2 ⟨rfl, h.numbered⟩, .cons rfl rfl h.tiles, ?_⟩
  intro earlier t later front text rest hts hcs htext hcolumn
  cases earlier with
  | nil =>
    obtain ⟨rfl, rfl⟩ := List.cons.inj hts
    obtain rfl : front = [] := List.eq_nil_of_length_eq_zero (by dsimp only at hcolumn; omega)
    obtain rfl : word = text := String.ofList_injective (Option.some.inj htext)
    rw [List.append_cancel_left hcs.symm, List.append_nil]
    exact hfits
  | cons u earlier =>
    obtain ⟨rfl, rfl⟩ := List.cons.inj hts
    have hlow := h.tiles.le_column (t := t) (by simp)
    rw [List.append_assoc] at hcs
    obtain ⟨more, rfl, rfl⟩ := exists_between hcs (by omega)
    rw [List.append_cons]
    refine h.fits earlier t later more text rest rfl (List.append_assoc ..).symm htext ?_
    rw [hcolumn, List.length_append, Nat.add_assoc]

/-- What is left of a division behind its first token. -/
theorem of_cons {word after : List Char} (h : Divides before number column (word ++ after) (t :: ts))
    (htext : t.text = some (String.ofList word)) (hcolumn : t.column = column) :
    Divides (before ++ [t]) number (column + word.length) after ts := by
  refine ⟨(List.forall_mem_cons.1 h.numbered).2, h.tiles.of_cons htext hcolumn, ?_⟩
  intro earlier u later front text rest hts hcs hutext hucolumn
  rw [← List.append_cons]
  refine h.fits (t :: earlier) u later (word ++ front) text rest (congrArg (t :: ·) hts) ?_ hutext ?_
  · rw [hcs, List.append_assoc, List.append_assoc, List.append_assoc]
  · rw [hucolumn, List.length_append, Nat.add_assoc]

/-- A character that is no gap starts the first token of a division. -/
theorem exists_first {c : Char} {rest : List Char} (hgap : Text.isGap c = false)
    (h : Divides before number column (c :: rest) ts) :
    ∃ kind word after more, c :: rest = word ++ after ∧
      ts = ⟨kind, some (String.ofList word), number, column⟩ :: more ∧ Fits before kind word after ∧
      Divides (before ++ [⟨kind, some (String.ofList word), number, column⟩]) number
        (column + word.length) after more := by
  obtain ⟨t, ht, hcovers⟩ : ∃ t ∈ ts, t.Covers column := by
    by_contra hnone
    have hblank := h.tiles.blank [] c rest rfl fun t ht hcovers => hnone ⟨t, ht, hcovers⟩
    rw [hgap] at hblank
    cases hblank
  have hlow := h.tiles.le_column ht
  obtain ⟨first, more, rfl⟩ := List.exists_cons_of_ne_nil (List.ne_nil_of_mem ht)
  -- a later token would start behind the first one, which is not empty
  obtain rfl : t = first := by
    refine (List.mem_cons.1 ht).resolve_right fun hlater => ?_
    have hapart := (List.pairwise_cons.1 h.tiles.apart).1 t hlater
    have hpos := h.length_content_pos List.mem_cons_self
    have hfirst := h.tiles.le_column List.mem_cons_self
    have hle := hcovers.1
    omega
  have hcolumn : t.column = column := Int.le_antisymm hcovers.1 hlow
  obtain ⟨front, word, after, hcs, htext, hfront⟩ := h.tiles.stands t ht
  obtain rfl : front = [] := List.eq_nil_of_length_eq_zero (by omega)
  have hline := h.numbered t ht
  have hfits := h.fits [] t more [] word after rfl hcs htext hfront
  rw [List.append_nil] at hfits
  rw [List.nil_append] at hcs
  rw [hcs] at h
  have hrest := h.of_cons htext hcolumn
  obtain ⟨kind, text, line, place⟩ := t
  dsimp only at htext hcolumn hline hfits hrest
  subst htext hcolumn hline
  exact ⟨kind, word, after, more, hcs, rfl, hfits, hrest⟩

/-- Where no text is announced, the first token of a division is the lexeme that a scanner finds. -/
theorem exists_lexeme {slot : Slot} {isFirst : Bool} (hrecalls : Recalls slot isFirst before)
    (hslot : slot ≠ .text) {c : Char} {rest : List Char} (hgap : Text.isGap c = false)
    (h : Divides before number column (c :: rest) ts) :
    ∃ kind word after more, lexeme? slot (c :: rest) = some (kind, word, after) ∧
      ts = ⟨kind, some (String.ofList word), number, column⟩ :: more ∧
      Divides (before ++ [⟨kind, some (String.ofList word), number, column⟩]) number
        (column + word.length) after more := by
  obtain ⟨kind, word, after, more, hcs, hts, hfits, hrest⟩ := h.exists_first hgap
  have htext : kind ≠ .text := by
    intro hkind
    exact hslot (hrecalls.text.2 (hfits.announced.1 hkind))
  refine ⟨kind, word, after, more, ?_, hts, hrest⟩
  rw [hcs]
  exact hfits.lexeme?_eq hrecalls.mark htext

end Divides

/-! ## The scanner -/

/-- From any place of a line on, the scanner answers with the tokens that divide the rest of it. -/
theorem statementTokens_eq_ok_iff {number column : Nat} {slot : Slot} {isFirst : Bool}
    {before : List Token} (h : Recalls slot isFirst before) {cs : List Char} {ts : List Token} :
    statementTokens number slot isFirst column cs = .ok ts ↔ Divides before number column cs ts := by
  fun_induction statementTokens number slot isFirst column cs generalizing before ts with
  | case1 slot isFirst column =>
    rw [Divides.nil_iff, Except.ok.injEq]
    exact eq_comm
  | case2 slot isFirst column c rest hgap ih => rw [Divides.gap_iff hgap, ih h]
  | case3 isFirst column c rest hgap =>
    have hgap : Text.isGap c = false := eq_false_of_ne_true hgap
    constructor
    · intro hok
      cases hok
      have hfits : Fits before .text (c :: rest) [] := .of_text h rfl hgap
      have hdivides : Divides before number column (c :: rest ++ []) _ :=
        .cons hfits (Divides.nil_iff.2 rfl)
      rwa [List.append_nil] at hdivides
    · intro hdivides
      obtain ⟨kind, word, after, more, hcs, rfl, hfits, hrest⟩ := hdivides.exists_first hgap
      obtain rfl : kind = .text := hfits.announced.2 (h.text.1 rfl)
      obtain ⟨-, -, rfl⟩ := hfits.text rfl
      rw [Divides.nil_iff] at hrest
      rw [hrest, hcs, List.append_nil]
  | case4 slot isFirst column c rest hgap htext hlex =>
    constructor
    · intro hok
      cases hok
    · intro hdivides
      obtain ⟨kind, word, after, more, hsome, -, -⟩ :=
        hdivides.exists_lexeme h htext (eq_false_of_ne_true hgap)
      cases hlex.symm.trans hsome
  | case5 slot isFirst column c rest hgap htext kind word after hlex ih =>
    have hrecalls := h.concat htext ⟨kind, some (String.ofList word), number, column⟩
    constructor
    · intro hok
      obtain ⟨more, hmore, rfl⟩ := exists_more_of_ok hok
      rw [← (lexeme?_append hlex).2]
      exact .cons (.of_lexeme? h htext hlex) ((ih hrecalls).1 hmore)
    · intro hdivides
      obtain ⟨kind', word', after', more, hsome, rfl, hrest⟩ :=
        hdivides.exists_lexeme h htext (eq_false_of_ne_true hgap)
      cases hlex.symm.trans hsome
      rw [(ih hrecalls).2 hrest]
      rfl

theorem feedStatement_eq_ok_iff {s : Scanner} {line : List Char} {ts : List Token} :
    (s.feedStatement line).1 = .ok ts ↔ Divides [] (s.lineNumber + 1) 1 line ts := by
  rw [← statementTokens_eq_ok_iff .start, feedStatement]
  split
  · next hok => rw [hok, Except.ok.injEq, Except.ok.injEq]
  · next herror =>
    rw [herror]
    constructor
    · intro hok
      cases hok
    · intro hok
      cases hok

/-- A line has at most one division into tokens.  A scanner that reads it as a statement answers
with this division, and if there is none it finds a stray character. -/
theorem divided_once (s : Scanner) (line : List Char) (h : s.ReadsStatement line) :
    (∀ ts us, Divides [] (s.lineNumber + 1) 1 line ts → Divides [] (s.lineNumber + 1) 1 line us →
      ts = us) ∧
    (∀ ts, (s.feed line).1 = .ok ts ↔ Divides [] (s.lineNumber + 1) 1 line ts) ∧
    ((∃ at_, (s.feed line).1 = .error (.stray at_)) ↔
      ¬∃ ts, Divides [] (s.lineNumber + 1) 1 line ts) := by
  have hok (ts : List Token) :
      (s.feed line).1 = .ok ts ↔ Divides [] (s.lineNumber + 1) 1 line ts := by
    rw [h.feed_eq]
    exact feedStatement_eq_ok_iff
  refine ⟨fun ts us hts hus => ?_, hok, ?_⟩
  · exact Except.ok.inj (((hok ts).2 hts).symm.trans ((hok us).2 hus))
  · constructor
    · rintro ⟨at_, hstray⟩ ⟨ts, hts⟩
      cases hstray.symm.trans ((hok ts).2 hts)
    · intro hnone
      cases hfeed : (s.feed line).1 with
      | ok ts => exact absurd ⟨ts, (hok ts).1 hfeed⟩ hnone
      | error why =>
        obtain ⟨at_, rfl, -⟩ := feed_error h.isOver_eq h.oneLine hfeed
        exact ⟨at_, rfl⟩

/-- Behind an arrowhead a minus is a mark, and the next one is a shaft; a second plus is stray. -/
theorem divided_once_marks :
    Divides [] 1 1 "a>>--:note".toList [⟨.identifier, some "a", 1, 1⟩,
      ⟨.head .open_, some ">>", 1, 2⟩, ⟨.deactivateMark, some "-", 1, 4⟩,
      ⟨.shaft false, some "-", 1, 5⟩, ⟨.colon, some ":", 1, 6⟩, ⟨.text, some "note", 1, 7⟩] ∧
    ¬∃ ts, Divides [] 1 1 "a> ++b".toList ts := by
  have hmarks := divided_once {} "a>>--:note".toList ⟨⟨by decide, by decide⟩, .inl rfl⟩
  have hstray := divided_once {} "a> ++b".toList ⟨⟨by decide, by decide⟩, .inl rfl⟩
  refine ⟨(hmarks.2.1 _).1 (eq_ok_of_toOption (by decide +kernel)), ?_⟩
  rintro ⟨ts, hts⟩
  have hnone : (({} : Scanner).feed "a> ++b".toList).1.toOption = none := by decide +kernel
  rw [(hstray.2.1 ts).2 hts] at hnone
  cases hnone

end Scanner

end SequenceChart
