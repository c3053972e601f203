import SequenceChart.Yaml.Fault
set_option autoImplicit false

/-!
# A place in a YAML text

A cursor holds the text from a place on and counts the characters before it, in all and on its
line.  Line breaks are the line feed, the next line and the two separators of Unicode; the text
holds no carriage return.  A byte order mark takes no column.
-/

namespace SequenceChart.Yaml

/-- The character ends a line. -/
def isBreak (c : Char) : Bool := c = '\n' || c = '\x85' || c = '\u2028' || c = '\u2029'

/-- The character is a space or a tab. -/
def isBlank (c : Char) : Bool := c = ' ' || c = '\t'

/-- The character is a space, a tab or the end of a line. -/
def isSeparator (c : Char) : Bool := isBlank c || isBreak c

/-- The character may stand in a name. -/
def isNameChar (c : Char) : Bool := c.isAlphanum || c = '-' || c = '_'

/-- The character may stand in a text. -/
def isAllowed (c : Char) : Bool :=
  let n := c.toNat
  n = 0x9 || n = 0xa || n = 0xd || (0x20 ≤ n && n ≤ 0x7e) || n = 0x85
    || (0xa0 ≤ n && n ≤ 0xd7ff) || (0xe000 ≤ n && n ≤ 0xfffd) || 0x10000 ≤ n

/-- A place in a text. -/
structure Cursor where
  rest : List Char
  index : Nat := 0
  line : Nat := 0
  column : Nat := 0
  deriving DecidableEq, Repr, Inhabited

namespace Cursor

/-- The character so many places ahead. -/
def ahead (c : Cursor) (places : Nat) : Option Char := c.rest[places]?

/-- The next character. -/
def peek (c : Cursor) : Option Char := c.rest.head?

/-- The end of the text, or a character of a class, is so many places ahead. -/
def endsAt (c : Cursor) (places : Nat) (p : Char → Bool) : Bool := (c.ahead places).all p

/-- The text ends here. -/
def isOver (c : Cursor) : Bool := c.rest.isEmpty

/-- The next character is of a class. -/
def sees (c : Cursor) (p : Char → Bool) : Bool := c.peek.any p

/-- The place after the next character. -/
def next (c : Cursor) : Cursor :=
  match c.rest with
  | [] => c
  | x :: rest =>
    if isBreak x then ⟨rest, c.index + 1, c.line + 1, 0⟩
    else ⟨rest, c.index + 1, c.line, if x = '\ufeff' then c.column else c.column + 1⟩

/-- The place so many characters on. -/
def skip : Nat → Cursor → Cursor
  | 0, c => c
  | places + 1, c => skip places c.next

/-- The characters of a class that come next, and the place after them. -/
def span (c : Cursor) (p : Char → Bool) : List Char × Cursor :=
  let run := c.rest.takeWhile p
  (run, c.skip run.length)

/-- The place after the characters of a class that come next. -/
def skipWhile (c : Cursor) (p : Char → Bool) : Cursor := (c.span p).2

/-- The rest of the line, and the place at its end. -/
def restOfLine (c : Cursor) : List Char × Cursor := c.span fun x => !isBreak x

/-- The end of a line as it counts in a scalar, if one comes next: the next line counts as a line
feed. -/
def lineBreak (c : Cursor) : List Char × Cursor :=
  match c.peek with
  | some x =>
    if isBreak x then ([if x = '\x85' then '\n' else x], c.next) else ([], c)
  | none => ([], c)

/-- Three equal marks come next and stand alone. -/
def seesMarks (c : Cursor) (mark : Char) : Bool :=
  c.rest.take 3 = [mark, mark, mark] && c.endsAt 3 isSeparator

/-- A mark between documents comes next. -/
def seesDocumentMark (c : Cursor) : Bool := c.seesMarks '-' || c.seesMarks '.'

/-- The place after spaces and a comment, at the end of the line.  No other text may follow. -/
def toLineEnd (c : Cursor) : Except Fault Cursor :=
  let c := c.skipWhile (· = ' ')
  let c := if c.peek = some '#' then c.restOfLine.2 else c
  if c.endsAt 0 isBreak then .ok c.lineBreak.2 else .error .malformed

end Cursor

end SequenceChart.Yaml
