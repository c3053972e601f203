import SequenceChart.Yaml.Name
set_option autoImplicit false

/-!
# Directives

A line that starts with a percent sign tells the version of YAML or gives a tag handle its text.
Directives of other names are allowed and say nothing.
-/

namespace SequenceChart.Yaml

/-- What a directive says. -/
inductive Directive where
  | version (major : Nat)
  | handle (name : List Char) (text : List Char)
  | unknown
  deriving DecidableEq, Repr, Inhabited

namespace Directive

/-- A part of a version number. -/
def versionPart (c : Cursor) : Except Fault (Nat × Cursor) :=
  let (digits, c) := c.span Char.isDigit
  if digits.isEmpty then .error .malformed
  else if Decimal.digitLimit < digits.length then .error (.longNumeral digits.length)
  else .ok (Decimal.natOfDigits digits, c)

/-- A version: two numbers with a point between them. -/
def ofVersion (c : Cursor) : Except Fault (Directive × Cursor) := do
  let (major, c) ← versionPart c
  if c.peek ≠ some '.' then throw .malformed
  let (_, c) ← versionPart c.next
  if c.endsAt 0 isSpaceOrBreak then return (version major, c) else throw .malformed

/-- A handle and the text that it stands for. -/
def ofHandle (c : Cursor) : Except Fault (Directive × Cursor) := do
  let (name, c) ← tagHandle c
  if c.peek ≠ some ' ' then throw .malformed
  let (text, c) ← uri (c.skipWhile (· = ' '))
  if c.endsAt 0 isSpaceOrBreak then return (handle name text, c) else throw .malformed

/-- A directive from its percent sign on, to the end of its line. -/
def read (c : Cursor) : Except Fault (Directive × Cursor) := do
  let (name, c) := c.next.span isNameChar
  if name.isEmpty || !c.endsAt 0 isSpaceOrBreak then throw .malformed
  let (directive, c) ←
    if name = ['Y', 'A', 'M', 'L'] then ofVersion (c.skipWhile (· = ' '))
    else if name = ['T', 'A', 'G'] then ofHandle (c.skipWhile (· = ' '))
    else pure (unknown, c.restOfLine.2)
  return (directive, ← c.toLineEnd)

end Directive

end SequenceChart.Yaml
