import SequenceChart.Proofs.Scanning.Lines
import SequenceChart.Proofs.Written.Document
set_option autoImplicit false

/-!
# Scanning what was written

Every line of a document that can be written scans to the pieces that it is made of, whatever its
gaps are: no two of its symbols run together, a mark comes right after its arrowhead, and a text
comes right after the piece that announces one.
-/

namespace SequenceChart

open Scanner

/-- The piece of a symbol. -/
def symbolPiece (kind : TokenKind) : Piece := (kind, symbol kind)

/-- The piece of a keyword. -/
def keywordPiece (word : Keyword) : Piece := (.keyword word, word.text)

/-- The keyword of a label. -/
def BlockLabel.keyword : BlockLabel → Keyword
  | .opt => .opt
  | .alt => .alt
  | .else_ => .else_

/-- The pieces of a message. -/
def Signal.messagePieces (s : Signal) : List Piece :=
  match s.message with
  | none => []
  | some message => [symbolPiece .colon, (.text, message)]

/-- The pieces of a signal. -/
def Signal.pieces (s : Signal) : List Piece :=
  (.identifier, s.source) :: ((s.tail.map .tail).toList.map symbolPiece
    ++ symbolPiece (.shaft s.dotted) :: ((s.head.map .head).toList.map symbolPiece
    ++ (s.mark?.toList.map symbolPiece ++ (.identifier, s.target) :: s.messagePieces)))

/-- The pieces of a line. -/
def Line.pieces : Line → List Piece
  | title text => [keywordPiece .title, (.text, text)]
  | participant name none => [keywordPiece .participant, (.identifier, name)]
  | participant name (some short) =>
    [keywordPiece .participant, (.identifier, name), keywordPiece .as_, (.identifier, short)]
  | block label condition =>
    keywordPiece label.keyword :: condition.toList.map fun text => (.text, text)
  | end_ => [keywordPiece .end_]
  | signal s => s.pieces

/-- A line of a document that can be written. -/
def Line.isWritable : Line → Bool
  | title text => isInlineText text
  | participant name alias? => isName name && alias?.all isName
  | block _ condition => condition.all isInlineText
  | end_ => true
  | signal s => s.isWritable

/-! ## What a piece stops before -/

theorem symbolGoesOn_of_isGap {c : Char} (h : Text.isGap c) (kind : TokenKind) :
    symbolGoesOn kind c = false := by
  rcases eq_of_isGap h with rfl | rfl
  all_goals
    cases kind with
    | shaft dotted => cases dotted <;> rfl
    | tail shape => cases shape <;> rfl
    | head shape => cases shape <;> rfl
    | _ => rfl

theorem symbolGoesOn_of_isWordStart {c : Char} (h : isWordStart c) (kind : TokenKind) :
    symbolGoesOn kind c = false := by
  have hne (d : Char) (hd : isWordStart d = false) : decide (c = d) = false := by
    refine decide_eq_false ?_
    intro he
    rw [he, hd] at h
    cases h
  cases kind with
  | shaft dotted =>
    cases dotted
    · exact hne '-' rfl
    · rfl
  | tail shape =>
    cases shape
    · exact hne '<' rfl
    · rfl
  | head shape =>
    cases shape
    · exact hne '>' rfl
    · rfl
  | _ => rfl

theorem stops_word {p : Char → Bool} (hp : ∀ c, isWordStart c → p c = false) {s : String}
    (hs : isWord s) (rest : List Char) : Stops p (s.toList ++ rest) := by
  unfold isWord at hs
  cases hchars : s.toList with
  | nil =>
    rw [hchars] at hs
    cases hs
  | cons c cs =>
    rw [hchars] at hs
    exact stops_cons.2 (hp c (Bool.and_eq_true_iff.1 hs).1)

/-! ## Words and texts of a line -/

theorem isWord_of_isName {s : String} (h : isName s) : isWord s := (Bool.and_eq_true_iff.1 h).1

theorem isWord_keyword (word : Keyword) : isWord word.text := by
  cases word <;> rfl

theorem wordKind_of_isName {s : String} (h : isName s) : wordKind s.toList = .identifier := by
  have hnone : Keyword.ofText? s = none := Option.isNone_iff_eq_none.1 (Bool.and_eq_true_iff.1 h).2
  rw [wordKind, String.ofList_toList, hnone]

namespace Spacing

variable (g : Spacing) (i : Nat)

theorem stops_gap {p : Char → Bool} (hp : ∀ c, Text.isGap c → p c = false) :
    Stops p (g.gap i).toList := stops_of_forall fun c hc => hp c (g.blank i c hc)

theorem stopsWord_gap : Stops isWordRest (g.gap i).toList :=
  g.stops_gap i fun _ => isWordRest_of_isGap

theorem blank_between : ∀ c ∈ (g.between i).toList, Text.isGap c := by
  unfold between
  split
  · intro c hc
    rw [List.mem_singleton.1 hc]
    rfl
  · exact g.blank i

/-- No word goes on behind the gap between two words. -/
theorem stops_between (rest : List Char) : Stops isWordRest ((g.between i).toList ++ rest) := by
  cases hchars : (g.between i).toList with
  | nil =>
    have hempty : g.between i = "" := String.toList_eq_nil_iff.1 hchars
    unfold between at hempty
    split at hempty
    · exact absurd hempty (by decide)
    · next hne => exact absurd hempty hne
  | cons c cs =>
    refine stops_cons.2 (isWordRest_of_isGap (g.blank_between i c ?_))
    rw [hchars]
    exact List.mem_cons_self

end Spacing

namespace Scanner.Scans

variable {slot : Slot} {isFirst : Bool} {rest : List Char} {pieces : List Piece}

theorem name {s : String} (hname : isName s) (hslot : slot ≠ .text) (hstops : Stops isWordRest rest)
    (hrest : Scans .plain false rest pieces) :
    Scans slot isFirst (s.toList ++ rest) ((.identifier, s) :: pieces) := by
  have hkind := wordKind_of_isName hname
  have hafter : Slot.after (wordKind s.toList) isFirst = .plain := by
    rw [hkind]
    cases isFirst <;> rfl
  have hword := word (isWord_of_isName hname) hslot hstops (hafter ▸ hrest)
  rwa [hkind] at hword

theorem keyword (k : Keyword) (hstops : Stops isWordRest rest)
    (hrest : Scans (Slot.after (.keyword k) isFirst) false rest pieces) :
    Scans .plain isFirst (k.text.toList ++ rest) (keywordPiece k :: pieces) := by
  have hkind := wordKind_keyword k
  have hword := word (isWord_keyword k) Slot.plain_ne_text hstops (hkind.symm ▸ hrest)
  rwa [hkind] at hword

theorem inlineText {s : String} (h : isInlineText s) :
    Scans .text isFirst s.toList [(.text, s)] := by
  unfold isInlineText at h
  cases hchars : s.toList with
  | nil =>
    rw [hchars] at h
    cases h
  | cons c cs =>
    rw [hchars] at h
    have hgap : Text.isGap c = false := by
      simpa using (Bool.and_eq_true_iff.1 h).1
    have hne : s ≠ "" := fun he => by
      rw [he] at hchars
      cases hchars
    rw [← hchars]
    exact text hne (hchars ▸ stops_cons.2 hgap)

theorem blank {gap : List Char} (hgap : ∀ c ∈ gap, Text.isGap c) : Scans slot isFirst gap [] := by
  have h := gap_append hgap (nil slot isFirst)
  rwa [List.append_nil] at h

end Scanner.Scans

/-! ## Lines -/

section Lines

variable (g : Spacing)

theorem scans_title {text : String} (h : isInlineText text) :
    Scans .plain true ((Line.title text).text g).toList (Line.title text).pieces := by
  simp only [Line.text, String.toList_append, List.append_assoc]
  refine Scans.gap_append (g.blank 0) ?_
  refine Scans.keyword .title (g.stops_between 1 _) ?_
  exact Scans.gap_append (g.blank_between 1) (Scans.inlineText h)

theorem scans_participant {name : String} {alias? : Option String} (hname : isName name)
    (halias : alias?.all isName) :
    Scans .plain true ((Line.participant name alias?).text g).toList
      (Line.participant name alias?).pieces := by
  cases alias? with
  | none =>
    simp only [Line.text, String.toList_append, List.append_assoc]
    refine Scans.gap_append (g.blank 0) ?_
    refine Scans.keyword .participant (g.stops_between 1 _) ?_
    refine Scans.gap_append (g.blank_between 1) ?_
    exact Scans.name hname Slot.plain_ne_text (g.stopsWord_gap 2) (Scans.blank (g.blank 2))
  | some short =>
    simp only [Line.text, String.toList_append, List.append_assoc]
    refine Scans.gap_append (g.blank 0) ?_
    refine Scans.keyword .participant (g.stops_between 1 _) ?_
    refine Scans.gap_append (g.blank_between 1) ?_
    refine Scans.name hname Slot.plain_ne_text (g.stops_between 2 _) ?_
    refine Scans.gap_append (g.blank_between 2) ?_
    refine Scans.keyword .as_ (g.stops_between 3 _) ?_
    refine Scans.gap_append (g.blank_between 3) ?_
    exact Scans.name halias Slot.plain_ne_text (g.stopsWord_gap 4) (Scans.blank (g.blank 4))

theorem scans_block (label : BlockLabel) {condition : Option String}
    (h : condition.all isInlineText) :
    Scans .plain true ((Line.block label condition).text g).toList
      (Line.block label condition).pieces := by
  have hword : label.text.toList = label.keyword.text.toList := by cases label <;> rfl
  have hafter : Slot.after (.keyword label.keyword) true = .text := by cases label <;> rfl
  cases condition with
  | none =>
    simp only [Line.text, String.toList_append, List.append_assoc, hword]
    refine Scans.gap_append (g.blank 0) ?_
    exact Scans.keyword label.keyword (g.stopsWord_gap 1) (Scans.blank (g.blank 1))
  | some condition =>
    simp only [Line.text, String.toList_append, List.append_assoc, hword]
    refine Scans.gap_append (g.blank 0) ?_
    refine Scans.keyword label.keyword (g.stops_between 1 _) ?_
    rw [hafter]
    exact Scans.gap_append (g.blank_between 1) (Scans.inlineText h)

theorem scans_end : Scans .plain true (Line.end_.text g).toList Line.end_.pieces := by
  simp only [Line.text, String.toList_append, List.append_assoc]
  refine Scans.gap_append (g.blank 0) ?_
  exact Scans.keyword .end_ (g.stopsWord_gap 1) (Scans.blank (g.blank 1))

theorem scans_symbolText {slot : Slot} {kind? : Option TokenKind} {rest : List Char}
    {pieces : List Piece} (hslot : slot ≠ .text)
    (hsome : ∀ kind ∈ kind?, symbol kind ≠ "" ∧ admits slot kind ∧
      Stops (symbolGoesOn kind) rest ∧ Scans (Slot.after kind false) false rest pieces)
    (hnone : kind? = none → Scans slot false rest pieces) :
    Scans slot false ((symbolText kind?).toList ++ rest)
      (kind?.toList.map symbolPiece ++ pieces) := by
  cases kind? with
  | none => exact hnone rfl
  | some kind =>
    obtain ⟨hne, hadmits, hstops, hrest⟩ := hsome kind rfl
    exact Scans.symbol hne hslot hadmits hstops hrest

variable {s : Signal}

theorem scans_message (h : s.message.all isInlineText) :
    Scans .plain false ((g.gap 6).toList ++ (s.messageText g).toList) s.messagePieces := by
  refine Scans.gap_append (g.blank 6) ?_
  unfold Signal.messageText Signal.messagePieces
  cases hmessage : s.message with
  | none => exact Scans.nil .plain false
  | some message =>
    rw [hmessage] at h
    simp only [String.toList_append, List.append_assoc]
    have hcolon : symbol .colon ≠ "" := by decide
    refine Scans.symbol hcolon Slot.plain_ne_text rfl (fun c _ => rfl) ?_
    exact Scans.gap_append (g.blank 7) (Scans.inlineText h)

theorem stops_message :
    Stops isWordRest ((g.gap 6).toList ++ (s.messageText g).toList) := by
  refine (g.stopsWord_gap 6).append ?_
  unfold Signal.messageText
  cases s.message with
  | none => exact stops_nil isWordRest
  | some message =>
    simp only [String.toList_append, List.append_assoc]
    exact stops_cons.2 rfl

/-- The target of a signal and what follows it. -/
def targetText (g : Spacing) (s : Signal) : List Char :=
  (g.gap 5).toList ++ (s.target.toList ++ ((g.gap 6).toList ++ (s.messageText g).toList))

theorem scans_target {slot : Slot} (hslot : slot ≠ .text) (htarget : isName s.target)
    (hmessage : s.message.all isInlineText) :
    Scans slot false (targetText g s) ((.identifier, s.target) :: s.messagePieces) := by
  refine Scans.gap_append (g.blank 5) ?_
  exact Scans.name htarget hslot (stops_message g) (scans_message g hmessage)

theorem stops_target (kind : TokenKind) (htarget : isName s.target) :
    Stops (symbolGoesOn kind) (targetText g s) :=
  (g.stops_gap 5 fun _ hc => symbolGoesOn_of_isGap hc kind).append
    (stops_word (fun _ hc => symbolGoesOn_of_isWordStart hc kind) (isWord_of_isName htarget) _)

/-- The mark of a signal and what follows it. -/
def markedText (g : Spacing) (s : Signal) : List Char :=
  (g.gap 4).toList ++ ((symbolText s.mark?).toList ++ targetText g s)

theorem mark?_cases (s : Signal) :
    s.mark? = none ∨ s.mark? = some .activateMark ∨ s.mark? = some .deactivateMark := by
  unfold Signal.mark?
  split
  · exact Or.inr (Or.inl rfl)
  · split
    · exact Or.inr (Or.inr rfl)
    · exact Or.inl rfl

/-- A mark is scanned in the slot after an arrowhead; without one, any slot will do. -/
theorem scans_marked {slot : Slot} (hslot : slot ≠ .text) (hmark : s.mark? ≠ none → slot = .mark)
    (htarget : isName s.target) (hmessage : s.message.all isInlineText) :
    Scans slot false (markedText g s)
      (s.mark?.toList.map symbolPiece ++ (.identifier, s.target) :: s.messagePieces) := by
  refine Scans.gap_append (g.blank 4) ?_
  refine scans_symbolText hslot ?_ fun _ =>
    scans_target g hslot htarget hmessage
  intro kind hkind
  have hslot : slot = .mark := hmark fun hnone => by
    rw [hnone] at hkind
    cases hkind
  have htarget := scans_target g Slot.plain_ne_text htarget hmessage
  rcases mark?_cases s with hnone | hsome | hsome
  · rw [hnone] at hkind
    cases hkind
  · rw [hsome] at hkind
    cases hkind
    exact ⟨by decide, by rw [hslot]; rfl, fun _ _ => rfl, htarget⟩
  · rw [hsome] at hkind
    cases hkind
    exact ⟨by decide, by rw [hslot]; rfl, fun _ _ => rfl, htarget⟩

theorem stops_marked (shape : ArrowEnd) (htarget : isName s.target) :
    Stops (symbolGoesOn (.head shape)) (markedText g s) := by
  refine (g.stops_gap 4 fun _ hc => symbolGoesOn_of_isGap hc _).append ?_
  refine Stops.append ?_ (stops_target g _ htarget)
  rcases mark?_cases s with hmark | hmark | hmark
  all_goals
    rw [hmark]
    cases shape
    all_goals first | exact stops_nil _ | exact stops_cons.2 rfl

/-- The head of a signal and what follows it. -/
def headedText (g : Spacing) (s : Signal) : List Char :=
  (g.gap 3).toList ++ ((symbolText (s.head.map .head)).toList ++ markedText g s)

theorem scans_headed (hmark : s.mark? ≠ none → s.head ≠ none) (htarget : isName s.target)
    (hmessage : s.message.all isInlineText) :
    Scans .plain false (headedText g s)
      ((s.head.map .head).toList.map symbolPiece ++ (s.mark?.toList.map symbolPiece
        ++ (.identifier, s.target) :: s.messagePieces)) := by
  refine Scans.gap_append (g.blank 3) ?_
  refine scans_symbolText Slot.plain_ne_text ?_ ?_
  · intro kind hkind
    obtain ⟨shape, hshape, rfl⟩ := Option.map_eq_some_iff.1 hkind
    refine ⟨by cases shape <;> decide, rfl, stops_marked g shape htarget, ?_⟩
    exact scans_marked g (by cases shape <;> decide) (fun _ => rfl) htarget hmessage
  · intro hnone
    refine scans_marked g Slot.plain_ne_text ?_ htarget hmessage
    intro hsome
    exact absurd (Option.map_eq_none_iff.1 hnone) (hmark hsome)

theorem stops_headed (dotted : Bool) (hmark : s.mark? ≠ none → s.head ≠ none)
    (htarget : isName s.target) :
    Stops (symbolGoesOn (.shaft dotted)) (headedText g s) := by
  refine (g.stops_gap 3 fun _ hc => symbolGoesOn_of_isGap hc _).append ?_
  cases hhead : s.head with
  | some shape =>
    cases shape <;> cases dotted <;> exact stops_cons.2 rfl
  | none =>
    have hnone : s.mark? = none := by
      cases hmark? : s.mark? with
      | none => rfl
      | some kind => exact absurd hhead (hmark (by simp [hmark?]))
    show Stops _ (markedText g s)
    rw [markedText, hnone]
    exact (g.stops_gap 4 fun _ hc => symbolGoesOn_of_isGap hc _).append (stops_target g _ htarget)

/-- The shaft of a signal and what follows it. -/
def shaftText (g : Spacing) (s : Signal) : List Char :=
  (g.gap 2).toList ++ ((symbolText (some (.shaft s.dotted))).toList ++ headedText g s)

theorem scans_shaft (hmark : s.mark? ≠ none → s.head ≠ none) (htarget : isName s.target)
    (hmessage : s.message.all isInlineText) :
    Scans .plain false (shaftText g s)
      (symbolPiece (.shaft s.dotted) :: ((s.head.map .head).toList.map symbolPiece
        ++ (s.mark?.toList.map symbolPiece ++ (.identifier, s.target) :: s.messagePieces))) := by
  refine Scans.gap_append (g.blank 2) ?_
  refine Scans.symbol ?_ Slot.plain_ne_text rfl (stops_headed g s.dotted hmark htarget)
    (scans_headed g hmark htarget hmessage)
  cases s.dotted <;> decide

/-- A signal behind its source. -/
def tailText (g : Spacing) (s : Signal) : List Char :=
  (g.gap 1).toList ++ ((symbolText (s.tail.map .tail)).toList ++ shaftText g s)

theorem stops_shaft {p : Char → Bool} (hp : ∀ c, Text.isGap c → p c = false)
    (hshaft : p '-' = false) : Stops p (shaftText g s) := by
  refine (g.stops_gap 2 hp).append ?_
  cases s.dotted <;> exact stops_cons.2 hshaft

theorem scans_tail (hmark : s.mark? ≠ none → s.head ≠ none) (htarget : isName s.target)
    (hmessage : s.message.all isInlineText) :
    Scans .plain false (tailText g s)
      ((s.tail.map .tail).toList.map symbolPiece
        ++ symbolPiece (.shaft s.dotted) :: ((s.head.map .head).toList.map symbolPiece
        ++ (s.mark?.toList.map symbolPiece ++ (.identifier, s.target) :: s.messagePieces))) := by
  have hshaft := scans_shaft g hmark htarget hmessage
  refine Scans.gap_append (g.blank 1) ?_
  refine scans_symbolText Slot.plain_ne_text ?_ fun _ => hshaft
  intro kind hkind
  obtain ⟨shape, hshape, rfl⟩ := Option.map_eq_some_iff.1 hkind
  refine ⟨by cases shape <;> decide, rfl, ?_, hshaft⟩
  exact stops_shaft g (fun _ hc => symbolGoesOn_of_isGap hc _) (by cases shape <;> rfl)

theorem stops_tail : Stops isWordRest (tailText g s) := by
  refine (g.stopsWord_gap 1).append ?_
  cases s.tail with
  | none => exact stops_shaft g (fun _ => isWordRest_of_isGap) rfl
  | some shape => cases shape <;> exact stops_cons.2 rfl

/-- What a signal that can be written is made of. -/
theorem Signal.parts_of_isWritable (h : s.isWritable) :
    isName s.source ∧ isName s.target ∧ s.message.all isInlineText ∧
      (s.tail.isSome ∨ s.head.isSome) ∧ (s.mark? ≠ none → s.head ≠ none) ∧
      (s.activates = false ∨ s.deactivates = false) := by
  simp only [Signal.isWritable, Bool.and_eq_true, Bool.or_eq_true] at h
  obtain ⟨⟨⟨⟨⟨hsource, htarget⟩, hmessage⟩, hpointed⟩, hmark⟩, hone⟩ := h
  refine ⟨hsource, htarget, hmessage, hpointed, ?_, by simpa using hone⟩
  intro hmarked hnone
  rw [hnone] at hmark
  simp only [Option.isSome_none, Bool.false_eq_true, or_false, Bool.not_eq_true',
    Bool.or_eq_false_iff] at hmark
  simp [Signal.mark?, hmark] at hmarked

theorem scans_signal (h : s.isWritable) :
    Scans .plain true ((Line.signal s).text g).toList (Line.signal s).pieces := by
  obtain ⟨hsource, htarget, hmessage, -, hmark, -⟩ := Signal.parts_of_isWritable h
  simp only [Line.text, Signal.text, String.toList_append, List.append_assoc]
  refine Scans.gap_append (g.blank 0) ?_
  exact Scans.name hsource Slot.plain_ne_text (stops_tail g) (scans_tail g hmark htarget hmessage)

/-- Every line that can be written scans to its pieces, with any gaps. -/
theorem scans_line {line : Line} (h : line.isWritable) :
    Scans .plain true (line.text g).toList line.pieces := by
  cases line with
  | title text => exact scans_title g h
  | participant name alias? =>
    obtain ⟨hname, halias⟩ := Bool.and_eq_true_iff.1 h
    exact scans_participant g hname halias
  | block label condition => exact scans_block g label h
  | end_ => exact scans_end g
  | signal s => exact scans_signal g h

end Lines

end SequenceChart
