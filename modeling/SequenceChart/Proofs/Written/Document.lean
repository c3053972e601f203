import SequenceChart.Proofs.Grammar.Phrase
import SequenceChart.Proofs.Scanning.Piece
set_option autoImplicit false

/-!
# Writing a document

A document is written one construct to a line.  Gaps of any length may stand around the pieces of a
line, none at all where two pieces do not run together.  Not every document can be written: names
have to be words and no keywords, a text has to fit on its line, a mark needs an arrowhead, and only
the blocks that the grammar knows have a concrete syntax.
-/

namespace SequenceChart

/-- The gaps of one line, counted from the left; spaces and tabs, any number of them. -/
structure Spacing where
  gap : Nat → String
  blank : ∀ i, ∀ c ∈ (gap i).toList, Text.isGap c

/-- A gap between two words: a space where the spacing has none. -/
def Spacing.between (g : Spacing) (i : Nat) : String := if g.gap i = "" then " " else g.gap i

/-- The spelling of a symbol, or nothing. -/
def symbolText (kind? : Option TokenKind) : String := (kind?.map Scanner.symbol).getD ""

/-- A construct that stands on one line. -/
inductive Line where
  | title (text : String)
  | participant (name : String) (alias? : Option String)
  | block (label : BlockLabel) (condition : Option String)
  | end_
  | signal (s : Signal)

namespace Signal

/-- The mark of a signal. -/
def mark? (s : Signal) : Option TokenKind :=
  if s.activates then some .activateMark
  else if s.deactivates then some .deactivateMark
  else none

/-- The message of a signal after a colon, or nothing. -/
def messageText (g : Spacing) (s : Signal) : String :=
  match s.message with
  | none => ""
  | some message => ":" ++ g.gap 7 ++ message

/-- The concrete syntax of a signal. -/
def text (g : Spacing) (s : Signal) : String :=
  g.gap 0 ++ s.source ++ g.gap 1 ++ symbolText (s.tail.map .tail)
    ++ g.gap 2 ++ symbolText (some (.shaft s.dotted)) ++ g.gap 3 ++ symbolText (s.head.map .head)
    ++ g.gap 4 ++ symbolText s.mark? ++ g.gap 5 ++ s.target ++ g.gap 6 ++ s.messageText g

end Signal

namespace Line

/-- The concrete syntax of a line. -/
def text (g : Spacing) : Line → String
  | title text => g.gap 0 ++ "title" ++ g.between 1 ++ text
  | participant name none => g.gap 0 ++ "participant" ++ g.between 1 ++ name ++ g.gap 2
  | participant name (some short) =>
    g.gap 0 ++ "participant" ++ g.between 1 ++ name ++ g.between 2 ++ "as" ++ g.between 3 ++ short
      ++ g.gap 4
  | block label none => g.gap 0 ++ label.text ++ g.gap 1
  | block label (some condition) => g.gap 0 ++ label.text ++ g.between 1 ++ condition
  | end_ => g.gap 0 ++ "end" ++ g.gap 1
  | signal s => s.text g

end Line

mutual

/-- The lines of a statement: a block and a group end with a line of their own. -/
def Statement.lines : Statement → List Line
  | .signal s => [.signal s]
  | .block b => b.lines ++ [.end_]
  | .group branches => Block.allLines branches ++ [.end_]

/-- The lines of a block, without its end. -/
def Block.lines : Block → List Line
  | ⟨label, condition, body⟩ => .block label condition :: Statement.allLines body

/-- The lines of a list of statements. -/
def Statement.allLines : List Statement → List Line
  | [] => []
  | s :: rest => s.lines ++ Statement.allLines rest

/-- The lines of a list of blocks. -/
def Block.allLines : List Block → List Line
  | [] => []
  | b :: rest => b.lines ++ Block.allLines rest

end

/-- The lines of an item. -/
def Item.lines : Item → List Line
  | .title text => [.title text]
  | .participant name alias? => [.participant name alias?]
  | .statement s => s.lines

namespace Document

/-- The lines of a document. -/
def lines (items : List Item) : List Line := items.flatMap Item.lines

/-- The source text of a document, each line with gaps of its own. -/
def text (spacing : Nat → Spacing) (items : List Item) : String :=
  "\n".intercalate ((lines items).mapIdx fun i line => line.text (spacing i))

end Document

/-! ## What can be written -/

/-- A name: a word that is no keyword. -/
def isName (s : String) : Bool := Scanner.isWord s && (Keyword.ofText? s).isNone

/-- A text that fits on its line: there is a first character, which is no gap, and no line
boundary. -/
def isInlineText (s : String) : Bool :=
  match s.toList with
  | [] => false
  | c :: rest => !Text.isGap c && (c :: rest).all fun d => !Text.isLineBoundary d

/-- A signal with names at both ends, a head or a tail, and at most one mark, which needs a head. -/
def Signal.isWritable (s : Signal) : Bool :=
  isName s.source && isName s.target && s.message.all isInlineText
    && (s.tail.isSome || s.head.isSome)
    && (!(s.activates || s.deactivates) || s.head.isSome)
    && !(s.activates && s.deactivates)

/-- A branch of a group; its body is empty. -/
def Block.isBranch (label : BlockLabel) : Block → Bool
  | ⟨l, condition, body⟩ => l = label && condition.all isInlineText && body.isEmpty

/-- The branches of a group: one `alt` and any number of `else` after it. -/
def Block.areBranches : List Block → Bool
  | [] => false
  | first :: more => first.isBranch .alt && more.all (isBranch .else_)

mutual

/-- A statement of the concrete syntax: a signal, an `opt` block or a group of branches. -/
def Statement.isWritable : Statement → Bool
  | .signal s => s.isWritable
  | .block b => b.isWritable
  | .group branches => Block.areBranches branches

/-- An `opt` block of such statements. -/
def Block.isWritable : Block → Bool
  | ⟨label, condition, body⟩ =>
    label = .opt && condition.all isInlineText && Statement.allWritable body

/-- Statements of the concrete syntax. -/
def Statement.allWritable : List Statement → Bool
  | [] => true
  | s :: rest => s.isWritable && Statement.allWritable rest

end

/-- An item of the concrete syntax. -/
def Item.isWritable : Item → Bool
  | .title text => isInlineText text
  | .participant name alias? => isName name && alias?.all isName
  | .statement s => s.isWritable

end SequenceChart
