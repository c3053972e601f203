import SequenceChart.Text.Basic
import SequenceChart.Text.Printable
set_option autoImplicit false

/-!
# Quoted texts in messages

A message shows a text between single quotes, or between double quotes where the text itself holds
a single quote and no double one.  The enclosing quote and the backslash are escaped, tab and the
two line breaks have short escapes, and every other character that is not printable is written by
its code point with two, four or eight hexadecimal digits.  Bytes are shown in the same way with a
`b` in front, and there only ASCII is printable.
-/

namespace SequenceChart.Text

/-- The quote that encloses a text. -/
def enclosingQuote (cs : List Char) : Char :=
  if cs.contains '\'' && !cs.contains '"' then '"' else '\''

/-- One character of a text enclosed in `quote`. -/
def escapeQuoted (quote c : Char) : List Char :=
  if c = quote || c = '\\' then ['\\', c]
  else if c = '\t' then ['\\', 't']
  else if c = '\n' then ['\\', 'n']
  else if c = '\r' then ['\\', 'r']
  else if isPrintable c then [c]
  else if c.toNat < 0x100 then '\\' :: 'x' :: hex 2 c.toNat
  else if c.toNat < 0x10000 then '\\' :: 'u' :: hex 4 c.toNat
  else '\\' :: 'U' :: hex 8 c.toNat

/-- The quoted form of a text. -/
def quotedChars (cs : List Char) : List Char :=
  let quote := enclosingQuote cs
  quote :: cs.flatMap (escapeQuoted quote) ++ [quote]

/-- The quoted form of a text. -/
def quoted (s : String) : String := String.ofList (quotedChars s.toList)

/-- The quoted form of bytes. -/
def quotedBytes (bytes : List UInt8) : List Char :=
  let cs := bytes.map fun b => Char.ofNat b.toNat
  let quote := enclosingQuote cs
  let escape (c : Char) : List Char :=
    if 0x7f ≤ c.toNat then '\\' :: 'x' :: hex 2 c.toNat else escapeQuoted quote c
  'b' :: quote :: cs.flatMap escape ++ [quote]

end SequenceChart.Text
