import SequenceChart.Source.Token
import SequenceChart.Text.Basic
import SequenceChart.Text.Word
set_option autoImplicit false

/-!
# Scanning a source line by line

A `Scanner` is fed one line at a time and answers with the tokens of the line.  Between two lines
it carries a mode: a `note` line without a colon opens a block of free text, in which every line is
one text token until a line starts with the word `end`.  A character that starts no token stops the
scanner for good.

Within a statement line a `Slot` says what may come next: after an arrowhead to the right a `+` or
a `-` is a mark, and after the first colon, or after a first keyword that takes a text, the rest of
the line is one text token.
-/

namespace SequenceChart

/-- What the next token of a statement line may be. -/
inductive Slot where
  | plain
  | mark
  | text
  deriving DecidableEq, Repr, Inhabited

namespace Slot

/-- The slot after a token. -/
def after (kind : TokenKind) (isFirst : Bool) : Slot :=
  if kind = .colon then .text
  else if kind.isHead then .mark
  else if isFirst && kind.opensTextLine then .text
  else .plain

end Slot

namespace Scanner

/-- The characters that start a name or a keyword. -/
def isWordStart (c : Char) : Bool := c.isAlpha

/-- The characters that continue a name or a keyword. -/
def isWordRest (c : Char) : Bool := c.isAlphanum || c = '_'

/-- The kind of a word. -/
def wordKind (word : List Char) : TokenKind :=
  match Keyword.ofText? (String.ofList word) with
  | some keyword => .keyword keyword
  | none => .identifier

/-- The first token of a text that starts with no gap: its kind, its characters and what follows.
No token starts where there is no answer. -/
def lexeme? (slot : Slot) : List Char → Option (TokenKind × List Char × List Char)
  | [] => none
  | '<' :: '<' :: rest => some (.tail .open_, ['<', '<'], rest)
  | '<' :: rest => some (.tail .closed, ['<'], rest)
  | '>' :: '>' :: rest => some (.head .open_, ['>', '>'], rest)
  | '>' :: rest => some (.head .closed, ['>'], rest)
  | '-' :: rest =>
    if slot = .mark then some (.deactivateMark, ['-'], rest)
    else match rest with
      | '-' :: rest => some (.shaft true, ['-', '-'], rest)
      | rest => some (.shaft false, ['-'], rest)
  | '*' :: rest => some (.createMark, ['*'], rest)
  | ':' :: rest => some (.colon, [':'], rest)
  | ',' :: rest => some (.comma, [','], rest)
  | c :: rest =>
    if c = '+' && slot = .mark then some (.activateMark, ['+'], rest)
    else if isWordStart c then
      some (wordKind (c :: rest.takeWhile isWordRest), c :: rest.takeWhile isWordRest,
        rest.dropWhile isWordRest)
    else none

/-- A token's characters and what follows them are the text, and they are not empty. -/
theorem lexeme?_append {slot : Slot} {cs word rest : List Char} {kind : TokenKind}
    (h : lexeme? slot cs = some (kind, word, rest)) : word ≠ [] ∧ word ++ rest = cs := by
  unfold lexeme? at h
  split at h <;> (try split at h) <;> (try split at h) <;> simp_all
  all_goals (obtain ⟨-, rfl, rfl⟩ := h; simp [List.takeWhile_append_dropWhile])

theorem lexeme?_rest_lt {slot : Slot} {cs word rest : List Char} {kind : TokenKind}
    (h : lexeme? slot cs = some (kind, word, rest)) : rest.length < cs.length := by
  obtain ⟨hne, rfl⟩ := lexeme?_append h
  have := List.length_pos_iff.2 hne
  simp
  omega

/-- The tokens of a statement line, or the character that starts no token and its column. -/
def statementTokens (line : Nat) (slot : Slot) (isFirst : Bool) (column : Nat) :
    List Char → Except (Char × Nat) (List Token)
  | [] => .ok []
  | c :: rest =>
    if Text.isGap c then statementTokens line slot isFirst (column + 1) rest
    else if slot = .text then .ok [⟨.text, some (String.ofList (c :: rest)), line, column⟩]
    else match _h : lexeme? slot (c :: rest) with
      | none => .error (c, column)
      | some (kind, word, after) => do
        let more ←
          statementTokens line (Slot.after kind isFirst) false (column + word.length) after
        return ⟨kind, some (String.ofList word), line, column⟩ :: more
termination_by cs => cs.length
decreasing_by
  · simp
  · exact lexeme?_rest_lt _h

/-- The line ends a block of free text: after any white space it starts with the word `end`, in
letters of either case. -/
def isBlockEnd (line : List Char) : Bool :=
  match line.dropWhile Text.isWhiteSpace with
  | e :: n :: d :: rest =>
    e.toLower = 'e' && n.toLower = 'n' && d.toLower = 'd' && Text.atWordEnd rest
  | _ => false

/-- What a scanner carries from one line to the next. -/
inductive Mode where
  | statement
  | textBlock
  | failed
  | closed
  deriving DecidableEq, Repr, Inhabited

namespace Mode

/-- The name of a mode in a message. -/
def name : Mode → String
  | statement => "normal"
  | textBlock => "multiline-text"
  | failed => "error"
  | closed => "done"

/-- A scanner in this mode takes no more lines. -/
def isOver (mode : Mode) : Bool := mode = failed || mode = closed

/-- The mode after the tokens of a statement line: a first token that opens a block of free text
does so unless a colon on its line announced the text there. -/
def afterStatement : List Token → Mode
  | [] => statement
  | first :: rest =>
    if first.kind.opensTextBlock && !(first :: rest).any (·.kind = .colon) then textBlock
    else statement

end Mode

/-- A character that starts no token, and where it stands. -/
structure Stray where
  char : Char
  lineText : List Char
  line : Nat
  column : Nat
  deriving DecidableEq, Repr, Inhabited

namespace Stray

/-- What is wrong: a plus is an operator that stands in a wrong place, the rest is unknown. -/
def text (s : Stray) : String :=
  (if s.char = '+' then "Unexpected operator: " else "Unexpected character: ")
    ++ Text.quoted (String.singleton s.char)

def message (s : Stray) : String := complaintAt s.line s.column s.text

/-- The line, and under it a caret below the column. -/
def excerpt (s : Stray) : String :=
  String.ofList (s.lineText ++ '\n' :: (List.replicate (s.column - 1) ' ' ++ ['^']))

end Stray

/-- Why a scanner refused a call. -/
inductive Refusal where
  | stray (at_ : Stray)
  | lineOver (mode : Mode)
  | closeOver (mode : Mode)
  | lineBreak
  deriving DecidableEq, Repr, Inhabited

namespace Refusal

def message : Refusal → String
  | stray at_ => at_.message
  | lineOver mode => "Lexer cannot accept input in " ++ mode.name ++ " mode"
  | closeOver mode => "Lexer cannot be closed in " ++ mode.name ++ " mode"
  | lineBreak => "Source lines must not contain line terminators"

end Refusal

end Scanner

/-- A scanner between two lines: its mode, the number of lines that it has taken and the length of
the last of them. -/
structure Scanner where
  mode : Scanner.Mode := .statement
  lineNumber : Nat := 0
  width : Nat := 0
  deriving DecidableEq, Repr, Inhabited

namespace Scanner

/-- Scans a line as a statement, whatever the mode is. -/
def feedStatement (s : Scanner) (line : List Char) : Except Refusal (List Token) × Scanner :=
  let number := s.lineNumber + 1
  match statementTokens number .plain true 1 line with
  | .ok tokens => (.ok tokens, ⟨Mode.afterStatement tokens, number, line.length⟩)
  | .error (c, column) =>
    (.error (.stray ⟨c, line, number, column⟩), ⟨.failed, number, line.length⟩)

/-- Takes the next line and answers with its tokens. -/
def feed (s : Scanner) (line : List Char) : Except Refusal (List Token) × Scanner :=
  if s.mode.isOver then (.error (.lineOver s.mode), s)
  else if line.any fun c => c = '\n' || c = '\r' then (.error .lineBreak, s)
  else if s.mode = .textBlock && !isBlockEnd line then
    let number := s.lineNumber + 1
    (.ok [⟨.text, some (String.ofList line), number, 1⟩], ⟨.textBlock, number, line.length⟩)
  else s.feedStatement line

/-- Ends the input and answers with the token for it, which stands after the last line. -/
def close (s : Scanner) : Except Refusal Token × Scanner :=
  if s.mode.isOver then (.error (.closeOver s.mode), s)
  else
    (.ok ⟨.endOfInput, none, (max s.lineNumber 1 : Nat), (s.width + 1 : Nat)⟩,
      { s with mode := .closed })

/-- The tokens of all lines and of the end after them. -/
def tokens (s : Scanner) : List (List Char) → Except Refusal (List Token)
  | [] => do
    let last ← s.close.1
    return [last]
  | line :: rest => do
    let first ← (s.feed line).1
    let more ← (s.feed line).2.tokens rest
    return first ++ more

end Scanner

/-- The tokens of a source text. -/
def tokenize (source : String) : Except Scanner.Refusal (List Token) :=
  ({} : Scanner).tokens (Text.lines source.toList)

end SequenceChart
