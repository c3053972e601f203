import Mathlib.Data.List.Chain
import SequenceChart.Proofs.Scanning.Feeds
import SequenceChart.Proofs.Scanning.Lines
import SequenceChart.Proofs.Written.Document
set_option autoImplicit false

/-!
# How the tokens of statement lines are spelled

Main statement: in a row of tokens without the word `note`, every identifier is a name, every text
token fits on its line, and every mark follows an arrowhead at once.  No such row opens a block of
free text, so all of its lines are scanned as statements; and a mark never stands first on a line.
-/

namespace SequenceChart

/-- The kind of a mark that may follow an arrowhead. -/
def TokenKind.isMark : TokenKind → Bool
  | .activateMark | .deactivateMark => true
  | _ => false

/-- A token is spelled as its kind asks. -/
structure Token.Spelled (t : Token) : Prop where
  name : t.kind = .identifier → isName t.content
  text : t.kind = .text → isInlineText t.content

/-- A mark stands after an arrowhead. -/
def MarkAfter (first second : Token) : Prop := second.kind.isMark → first.kind.isHead

/-- Every token of a row is spelled as its kind asks, and its marks stand after arrowheads. -/
structure Spelled (ts : List Token) : Prop where
  tokens : ∀ t ∈ ts, t.Spelled
  marks : ts.IsChain MarkAfter

/-- A part of such a row is such a row. -/
theorem Spelled.of_infix {ts us : List Token} (h : Spelled ts) (hus : us <:+: ts) : Spelled us :=
  ⟨fun t ht => h.tokens t (hus.subset ht), h.marks.infix hus⟩

theorem Spelled.nil : Spelled [] := ⟨nofun, .nil⟩

/-- Rows that are spelled as they should be may be put together where the second starts with no
mark. -/
theorem Spelled.append {ts us : List Token} (hts : Spelled ts) (hus : Spelled us)
    (hfirst : ∀ t ∈ us.head?, t.kind.isMark = false) : Spelled (ts ++ us) := by
  refine ⟨List.forall_mem_append.2 ⟨hts.tokens, hus.tokens⟩, ?_⟩
  refine List.isChain_append.2 ⟨hts.marks, hus.marks, fun s _ t ht hmark => ?_⟩
  rw [hfirst t ht] at hmark
  cases hmark

namespace Scanner

/-- A word is a keyword or a name. -/
theorem wordKind_spelled {word : List Char} (hword : isWord (String.ofList word)) :
    (wordKind word).isMark = false ∧ wordKind word ≠ .text ∧
      (wordKind word = .identifier → isName (String.ofList word)) := by
  unfold wordKind isName
  cases hkeyword : Keyword.ofText? (String.ofList word) with
  | some keyword => exact ⟨rfl, nofun, nofun⟩
  | none => exact ⟨rfl, nofun, fun _ => by simp [hword]⟩

/-- The first token of a text is no text token; it is a mark only in the slot for one, and a word
that is no keyword is a name. -/
theorem lexeme?_spelled {slot : Slot} {cs word rest : List Char} {kind : TokenKind}
    (h : lexeme? slot cs = some (kind, word, rest)) :
    (kind.isMark → slot = .mark) ∧ kind ≠ .text ∧
      (kind = .identifier → isName (String.ofList word)) := by
  rcases lexeme?_cases h with ⟨hsymbol, -, hadmits, -⟩ | ⟨hword, rfl, -⟩
  · refine ⟨fun hmark => ?_, ?_, ?_⟩
    · cases kind <;> first | exact of_decide_eq_true hadmits | cases hmark
    · rintro rfl
      exact hsymbol rfl
    · rintro rfl
      exact absurd rfl hsymbol
  · obtain ⟨hmark, hspelled⟩ := wordKind_spelled hword
    exact ⟨fun h => absurd h (by rw [hmark]; nofun), hspelled⟩

/-- After a token, a mark may come exactly if the token is an arrowhead. -/
theorem after_eq_mark_iff {kind : TokenKind} {isFirst : Bool} :
    Slot.after kind isFirst = .mark ↔ kind.isHead := by
  unfold Slot.after
  split
  · next hcolon => simp [hcolon, TokenKind.isHead]
  split
  · next hhead => simp [hhead]
  · next hhead => split <;> simp [hhead]

theorem isInlineText_ofList {c : Char} {rest : List Char} (hgap : Text.isGap c = false)
    (hline : Text.Unbroken (c :: rest)) : isInlineText (String.ofList (c :: rest)) := by
  rw [isInlineText, String.toList_ofList]
  simp only [hgap, Bool.not_false, Bool.true_and, List.all_eq_true, Bool.not_eq_true']
  exact hline

/-- The tokens of a statement line are spelled as they should be, and a mark comes first only in the
slot for one. -/
theorem spelled_statementTokens {line column : Nat} {slot : Slot} {isFirst : Bool} {cs : List Char}
    {ts : List Token} (hline : Text.Unbroken cs)
    (h : statementTokens line slot isFirst column cs = .ok ts) :
    Spelled ts ∧ ∀ t ∈ ts.head?, t.kind.isMark → slot = .mark := by
  fun_induction statementTokens line slot isFirst column cs generalizing ts with
  | case1 =>
    cases h
    exact ⟨.nil, fun t ht => by cases ht⟩
  | case2 _ _ _ c rest _ ih => exact ih (List.forall_mem_cons.1 hline).2 h
  | case3 _ _ c rest hgap =>
    cases h
    refine ⟨⟨List.forall_mem_singleton.2 ⟨fun h => (by cases h), fun _ => ?_⟩, .singleton _⟩, ?_⟩
    · exact isInlineText_ofList (eq_false_of_ne_true hgap) hline
    · intro t ht hkind
      cases ht
      cases hkind
  | case4 => cases h
  | case5 slot isFirst column c rest _ _ kind word after hlex ih =>
    obtain ⟨more, hmore, rfl⟩ := exists_more_of_ok h
    obtain ⟨hmark, htext, hname⟩ := lexeme?_spelled hlex
    have hafter : Text.Unbroken after := by
      rw [← (lexeme?_append hlex).2] at hline
      exact (Text.unbroken_append.1 hline).2
    obtain ⟨hspelled, hfirst⟩ := ih hafter hmore
    refine ⟨⟨List.forall_mem_cons.2 ⟨⟨hname, fun h => absurd h htext⟩, hspelled.tokens⟩, ?_⟩, ?_⟩
    · refine List.isChain_cons.2 ⟨fun t ht hkind => ?_, hspelled.marks⟩
      exact after_eq_mark_iff.1 (hfirst t ht hkind)
    · intro t ht
      cases ht
      exact hmark

/-- The tokens of lines without the word `note` are spelled as they should be, and none of them
starts with a mark. -/
theorem Feeds.spelled {s s' : Scanner} {lines : List (List Char)} {ts : List Token}
    (h : Feeds s lines ts s') (hmode : s.mode = .statement)
    (hlines : ∀ line ∈ lines, Text.Unbroken line)
    (hnote : ∀ t ∈ ts, t.kind ≠ .keyword .note) :
    Spelled ts ∧ ∀ t ∈ ts.head?, t.kind.isMark = false := by
  induction h with
  | nil => exact ⟨.nil, nofun⟩
  | @cons s s₁ s' line lines ts us first _ ih =>
    obtain ⟨hline, hmore⟩ := List.forall_mem_cons.1 hlines
    obtain ⟨hfirstNote, hrestNote⟩ := List.forall_mem_append.1 hnote
    obtain ⟨htokens, rfl⟩ := statementTokens_of_feed hmode first
    obtain ⟨hspelled, hstart⟩ := spelled_statementTokens hline htokens
    obtain ⟨hrest, hrestStart⟩ := ih (afterStatement_of_no_note hfirstNote) hmore hrestNote
    refine ⟨hspelled.append hrest hrestStart, fun t ht => ?_⟩
    rw [List.head?_append] at ht
    cases hhead : ts.head? with
    | none =>
      rw [hhead] at ht
      exact hrestStart t ht
    | some u =>
      rw [hhead] at ht
      cases ht
      exact eq_false_of_ne_true fun hmark => (nomatch hstart _ hhead hmark)

end Scanner

end SequenceChart
