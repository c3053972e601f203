import SequenceChart.Source.Document
set_option autoImplicit false

/-!
# Reading a document token by token

A `Reading` is what a row of tokens read so far amounts to: the finished items, the `opt` blocks
that are still open, and the construct in progress.  Each token either moves the reading on or is
refused, so a syntax error is found at the first token with which no document can go on.  A
construct whose last part is optional is finished by the token after it, which is then read as the
start of the next one.  Blocks nest to any depth: the limit that an interpreter sets to the depth of
its calls is left out.

* document: (`title` text | `participant` name (`as` name)? | statement)*
* statement: `opt` text? statement* `end` | `alt` text? (`else` text?)* `end` | signal
* signal: name tail? shaft head? mark? name (`:` text)?, with a tail or a head
-/

namespace SequenceChart

/-- Why a document ends in a syntax error. -/
inductive SyntaxProblem where
  | expected (kinds : List TokenKind) (got : Token)
  | noStatement (got : Token)
  | endless
  deriving DecidableEq, Repr, Inhabited

namespace SyntaxProblem

def text : SyntaxProblem → String
  | expected kinds got =>
    "Expected " ++ " or ".intercalate (kinds.map TokenKind.describe) ++ ", got " ++ got.describe
  | noStatement got => "Unexpected token in statement: " ++ got.describe
  | endless => "Arrow has neither head nor tail"

end SyntaxProblem

/-- A syntax error and the token it is found at. -/
structure SyntaxFault where
  problem : SyntaxProblem
  token : Token
  deriving DecidableEq, Repr, Inhabited

namespace SyntaxFault

/-- A text about a token, or about no place in the source. -/
def placed (token : Option Token) (text : String) : String :=
  match token with
  | none => text
  | some t => complaintAt t.line t.column text

def text (e : SyntaxFault) : String := e.problem.text

def message (e : SyntaxFault) : String := placed (some e.token) e.text

end SyntaxFault

/-- An `opt` block that has not ended. -/
structure OpenBlock where
  condition : Option String
  body : List Statement := []

/-- The construct in progress.  A signal in progress has the parts read so far; its other parts
have their defaults. -/
inductive Progress where
  /-- between two constructs -/
  | idle
  /-- after `title` -/
  | title
  /-- after `participant` -/
  | participant
  /-- after a declared name, which `as` may follow -/
  | declared (name : String)
  /-- after `as` -/
  | alias (name : String)
  /-- after `opt`, which a condition may follow -/
  | opt
  /-- after `alt` or `else`, which a condition may follow; the finished branches before it -/
  | branch (done : List Block) (label : BlockLabel)
  /-- after a finished branch -/
  | branchDone (done : List Block)
  /-- after the source of a signal -/
  | source (s : Signal)
  /-- after the tail of an arrow -/
  | tailed (s : Signal)
  /-- after the shaft of an arrow, which is this token -/
  | shaft (s : Signal) (at_ : Token)
  /-- after the head of an arrow -/
  | headed (s : Signal)
  /-- after the mark of an arrow -/
  | marked (s : Signal)
  /-- after the target of a signal, which a message may follow -/
  | targeted (s : Signal)
  /-- after the colon of a message -/
  | message (s : Signal)

/-- What the tokens read so far amount to; the innermost open block comes first. -/
structure Reading where
  items : List Item := []
  blocks : List OpenBlock := []
  progress : Progress := .idle

namespace Reading

instance : Inhabited Reading := ⟨{}⟩

/-- A refusal at a token that is none of the expected kinds. -/
def refuse {α : Type} (kinds : List TokenKind) (t : Token) : Except SyntaxFault α :=
  .error ⟨.expected kinds t, t⟩

/-- Adds a finished top-level item. -/
def addItem (r : Reading) (item : Item) : Reading :=
  { r with items := r.items ++ [item], progress := .idle }

/-- Adds a finished statement to the innermost open block, or to the document. -/
def addStatement (r : Reading) (s : Statement) : Reading :=
  match r.blocks with
  | [] => r.addItem (.statement s)
  | inner :: outer =>
    { r with blocks := { inner with body := inner.body ++ [s] } :: outer, progress := .idle }

/-- Opens an `opt` block. -/
def openBlock (r : Reading) (condition : Option String) : Reading :=
  { r with blocks := ⟨condition, []⟩ :: r.blocks, progress := .idle }

/-- Goes on with the construct in progress. -/
def move (r : Reading) (progress : Progress) : Except SyntaxFault Reading :=
  .ok { r with progress }

/-- Reads a token that starts a construct, ends the innermost open block or ends the input. -/
def begin_ (r : Reading) (t : Token) : Except SyntaxFault Reading :=
  match t.kind, r.blocks with
  | .endOfInput, [] => .ok { r with progress := .idle }
  | .keyword .title, [] => r.move .title
  | .keyword .participant, [] => r.move .participant
  | .endOfInput, _ :: _ => refuse [.keyword .end_] t
  | .keyword .end_, inner :: outer =>
    .ok ({ r with blocks := outer }.addStatement (.block ⟨.opt, inner.condition, inner.body⟩))
  | .keyword .opt, _ => r.move .opt
  | .keyword .alt, _ => r.move (.branch [] .alt)
  | .identifier, _ => r.move (.source { source := t.content, target := "" })
  | _, _ => .error ⟨.noStatement t, t⟩

/-- Reads a token after a finished branch. -/
def pushBranchDone (r : Reading) (done : List Block) (t : Token) : Except SyntaxFault Reading :=
  match t.kind with
  | .keyword .else_ => r.move (.branch done .else_)
  | .keyword .end_ => .ok (r.addStatement (.group done))
  | _ => refuse [.keyword .else_, .keyword .end_] t

/-- Reads a token where the target of a signal must stand. -/
def pushTarget (r : Reading) (s : Signal) (t : Token) : Except SyntaxFault Reading :=
  match t.kind with
  | .identifier => r.move (.targeted { s with target := t.content })
  | _ => refuse [.identifier] t

/-- Reads a token after a finished arrow, where a mark may stand. -/
def pushMark (r : Reading) (s : Signal) (t : Token) : Except SyntaxFault Reading :=
  match t.kind with
  | .activateMark => r.move (.marked { s with activates := true })
  | .deactivateMark => r.move (.marked { s with deactivates := true })
  | _ => r.pushTarget s t

/-- Reads a token where the shaft of an arrow must stand. -/
def pushShaft (r : Reading) (s : Signal) (t : Token) : Except SyntaxFault Reading :=
  match t.kind with
  | .shaft dotted => r.move (.shaft { s with dotted } t)
  | _ => refuse [.shaft false] t

/-- Reads the next token. -/
def push (r : Reading) (t : Token) : Except SyntaxFault Reading :=
  match r.progress, t.kind with
  | .idle, _ => r.begin_ t
  | .title, .text => .ok (r.addItem (.title t.content))
  | .title, _ => refuse [.text] t
  | .participant, .identifier => r.move (.declared t.content)
  | .participant, _ => refuse [.identifier] t
  | .declared name, .keyword .as_ => r.move (.alias name)
  | .declared name, _ => (r.addItem (.participant name none)).begin_ t
  | .alias name, .identifier => .ok (r.addItem (.participant name (some t.content)))
  | .alias _, _ => refuse [.identifier] t
  | .opt, .text => .ok (r.openBlock (some t.content))
  | .opt, _ => (r.openBlock none).begin_ t
  | .branch done label, .text => r.move (.branchDone (done ++ [⟨label, some t.content, []⟩]))
  | .branch done label, _ => r.pushBranchDone (done ++ [⟨label, none, []⟩]) t
  | .branchDone done, _ => r.pushBranchDone done t
  | .source s, .tail shape => r.move (.tailed { s with tail := some shape })
  | .source s, _ => r.pushShaft s t
  | .tailed s, _ => r.pushShaft s t
  | .shaft s _, .head shape => r.move (.headed { s with head := some shape })
  | .shaft s at_, _ => if s.tail.isNone then .error ⟨.endless, at_⟩ else r.pushMark s t
  | .headed s, _ => r.pushMark s t
  | .marked s, _ => r.pushTarget s t
  | .targeted s, .colon => r.move (.message s)
  | .targeted s, _ => (r.addStatement (.signal s)).begin_ t
  | .message s, .text => .ok (r.addStatement (.signal { s with message := some t.content }))
  | .message _, _ => refuse [.text] t

/-- The end of the input where the tokens run out without one: it stands at the last token. -/
def endAt (line column : Int) : Token := ⟨.endOfInput, none, line, column⟩

/-- Reads tokens up to the first end of the input; `line` and `column` are those of the token
before them. -/
def run (r : Reading) (line column : Int) : List Token → Except SyntaxFault Reading
  | [] => r.push (endAt line column)
  | t :: rest =>
    if t.kind = .endOfInput then r.push t
    else do
      let r ← r.push t
      r.run t.line t.column rest

end Reading

namespace Chart

/-- The chart that a row of tokens writes.  What follows the first end of the input is not read. -/
def ofTokens (tokens : List Token) : Except SyntaxFault Chart := do
  let r ← ({} : Reading).run 1 1 tokens
  return ofItems r.items

end Chart

end SequenceChart
