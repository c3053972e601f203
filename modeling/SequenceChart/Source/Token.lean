import SequenceChart.Text.Quoted
set_option autoImplicit false

/-!
# Tokens of a chart source

A source line is a row of tokens: names, keywords, the pieces of an arrow, punctuation and free
text.  A token keeps its text and the place where it starts.
-/

namespace SequenceChart

/-- The words that are no names. -/
inductive Keyword where
  | title | participant | as_ | note | over_ | left | right | of_ | opt | alt | else_ | end_
  | activate | deactivate | destroy
  deriving DecidableEq, Repr, Inhabited

namespace Keyword

/-- Every keyword, in the order of the codes. -/
def all : List Keyword :=
  [title, participant, as_, note, over_, left, right, of_, opt, alt, else_, end_, activate,
    deactivate, destroy]

/-- The spelling of a keyword; capital letters do not spell it. -/
def text : Keyword → String
  | title => "title"
  | participant => "participant"
  | as_ => "as"
  | note => "note"
  | over_ => "over"
  | left => "left"
  | right => "right"
  | of_ => "of"
  | opt => "opt"
  | alt => "alt"
  | else_ => "else"
  | end_ => "end"
  | activate => "activate"
  | deactivate => "deactivate"
  | destroy => "destroy"

/-- The keyword that a word spells, if it spells one. -/
def ofText? (word : String) : Option Keyword := all.find? fun k => k.text = word

/-- The place of a keyword in `all`. -/
def index : Keyword → Nat
  | title => 0
  | participant => 1
  | as_ => 2
  | note => 3
  | over_ => 4
  | left => 5
  | right => 6
  | of_ => 7
  | opt => 8
  | alt => 9
  | else_ => 10
  | end_ => 11
  | activate => 12
  | deactivate => 13
  | destroy => 14

end Keyword

/-- The shape of an arrow's end: one arrowhead character or two. -/
inductive ArrowEnd where
  | closed
  | open_
  deriving DecidableEq, Repr, Inhabited

/-- What a token is. -/
inductive TokenKind where
  | identifier
  | text
  | colon
  | comma
  | keyword (word : Keyword)
  | shaft (dotted : Bool)
  | tail (shape : ArrowEnd)
  | head (shape : ArrowEnd)
  | activateMark
  | deactivateMark
  | createMark
  | endOfInput
  deriving DecidableEq, Repr, Inhabited

namespace TokenKind

/-- The number of a kind: the keywords follow 100, the pieces of an arrow and the marks 200. -/
def code : TokenKind → Nat
  | identifier => 1
  | text => 3
  | colon => 4
  | comma => 5
  | keyword word => 100 + word.index
  | shaft false => 200
  | shaft true => 201
  | tail .closed => 210
  | tail .open_ => 211
  | head .closed => 220
  | head .open_ => 221
  | activateMark => 230
  | deactivateMark => 231
  | createMark => 232
  | endOfInput => 1000

/-- The name of a kind in a message. -/
def describe : TokenKind → String
  | identifier => "identifier"
  | text => "text"
  | colon => "colon"
  | comma => "comma"
  | keyword word => Text.quoted word.text
  | shaft false => "arrowbody"
  | shaft true => "arrowbodydotted"
  | tail .closed => "arrowleft"
  | tail .open_ => "arrowleftopen"
  | head .closed => "arrowright"
  | head .open_ => "arrowrightopen"
  | activateMark => "activation marker"
  | deactivateMark => "deactivation marker"
  | createMark => "create marker"
  | endOfInput => "end of input"

/-- The kind is a keyword. -/
def isKeyword : TokenKind → Bool
  | keyword _ => true
  | _ => false

/-- The kind is a piece of an arrow or a mark. -/
def isOperator : TokenKind → Bool
  | shaft _ | tail _ | head _ | activateMark | deactivateMark | createMark => true
  | _ => false

/-- The kind is an arrowhead that points to the right; a mark may follow it. -/
def isHead : TokenKind → Bool
  | head _ => true
  | _ => false

/-- A line that starts with this kind may open a block of free text lines. -/
def opensTextBlock (kind : TokenKind) : Bool := kind = keyword .note

/-- After this kind at the start of a line, the rest of the line is free text. -/
def opensTextLine : TokenKind → Bool
  | keyword .title | keyword .opt | keyword .alt | keyword .else_ => true
  | _ => false

end TokenKind

/-- A token with the line and the column where it starts, both counted from 1.  Only the end of the
input has no text. -/
structure Token where
  kind : TokenKind
  text : Option String
  line : Int
  column : Int
  deriving DecidableEq, Repr, Inhabited

namespace Token

/-- A token in a message: its kind and its quoted text. -/
def describe (t : Token) : String :=
  match t.text with
  | none => t.kind.describe
  | some text => t.kind.describe ++ "(" ++ Text.quoted text ++ ")"

/-- The text of a token; a token without text counts as empty. -/
def content (t : Token) : String := t.text.getD ""

end Token

/-- A complaint about a place in the source. -/
def complaintAt (line column : Int) (text : String) : String :=
  "Line " ++ toString line ++ ", column " ++ toString column ++ ": " ++ text

end SequenceChart
