set_option autoImplicit false

/-!
# Characters and lines

What the other modules ask of a single character, and how a text falls into lines.  A property of
characters that has no shorter rule is a list of inclusive code point ranges.
-/

namespace SequenceChart.Text

/-! ## Sets of characters -/

/-- Inclusive ranges of code points, in increasing order. -/
abbrev Ranges := List (Nat × Nat)

/-- Membership; the ranges beyond the code point are not looked at. -/
def inRanges (n : Nat) : Ranges → Bool
  | [] => false
  | (low, high) :: rest => low ≤ n && (n ≤ high || inRanges n rest)

/-! ## Blanks

Between the tokens of a line only the space and the tab are skipped, while the line that ends a note
may be indented with any white space of Unicode. -/

/-- The blanks that may stand between two tokens of a line. -/
def isGap (c : Char) : Bool := c = ' ' || c = '\t'

/-- The code points of white space in Unicode, the four information separators included. -/
def whiteSpaceRanges : Ranges := [
  (0x9, 0xd), (0x1c, 0x20), (0x85, 0x85), (0xa0, 0xa0), (0x1680, 0x1680), (0x2000, 0x200a),
  (0x2028, 0x2029), (0x202f, 0x202f), (0x205f, 0x205f), (0x3000, 0x3000)]

/-- The character is white space. -/
def isWhiteSpace (c : Char) : Bool := inRanges c.toNat whiteSpaceRanges

/-! ## Decimal digits

Unicode 14 has many sets of ten decimal digits; the digits of a set follow each other from its zero.
-/

/-- The code points of the zeros. -/
def digitZeros : List Nat := [
  0x30, 0x660, 0x6f0, 0x7c0, 0x966, 0x9e6, 0xa66, 0xae6, 0xb66, 0xbe6, 0xc66, 0xce6, 0xd66, 0xde6,
  0xe50, 0xed0, 0xf20, 0x1040, 0x1090, 0x17e0, 0x1810, 0x1946, 0x19d0, 0x1a80, 0x1a90, 0x1b50,
  0x1bb0, 0x1c40, 0x1c50, 0xa620, 0xa8d0, 0xa900, 0xa9d0, 0xa9f0, 0xaa50, 0xabf0, 0xff10, 0x104a0,
  0x10d30, 0x11066, 0x110f0, 0x11136, 0x111d0, 0x112f0, 0x11450, 0x114d0, 0x11650, 0x116c0,
  0x11730, 0x118e0, 0x11950, 0x11c50, 0x11d50, 0x11da0, 0x16a60, 0x16ac0, 0x16b50, 0x1d7ce,
  0x1d7d8, 0x1d7e2, 0x1d7ec, 0x1d7f6, 0x1e140, 0x1e2f0, 0x1e950, 0x1fbf0]

/-- The value of a decimal digit of any set. -/
def digitValue? (c : Char) : Option Nat :=
  (digitZeros.find? fun start => start ≤ c.toNat && c.toNat < start + 10).map (c.toNat - ·)

/-! ## Hexadecimal digits

Numbers are written with lower-case digits and a fixed width, and read with digits of either case.
-/

/-- The lower-case digit of a value below sixteen. -/
def hexDigit (n : Nat) : Char :=
  if n < 10 then Char.ofNat (0x30 + n) else Char.ofNat (0x57 + n)

/-- The last `width` hexadecimal digits of a number, the most significant first. -/
def hex : Nat → Nat → List Char
  | 0, _ => []
  | width + 1, n => hexDigit (n / Nat.pow 16 width % 16) :: hex width n

/-- The value of a hexadecimal digit of either case. -/
def hexValue? (c : Char) : Option Nat :=
  let n := c.toNat
  if 0x30 ≤ n && n ≤ 0x39 then some (n - 0x30)
  else if 0x41 ≤ n && n ≤ 0x46 then some (n - 0x37)
  else if 0x61 ≤ n && n ≤ 0x66 then some (n - 0x57)
  else none

/-- The number that a run of hexadecimal digits writes, if all of them are digits. -/
def readHex (cs : List Char) : Option Nat :=
  cs.foldlM (fun n c => (hexValue? c).map (16 * n + ·)) 0

/-! ## Lines

A source text is cut into lines at every line boundary that Unicode knows; a carriage return and
the line feed after it are one boundary.  The last line needs no boundary after it.  A file is read
with a narrower rule: there only `\r\n` and a lone `\r` count, and both become `\n`. -/

/-- The characters that end a line of source text. -/
def isLineBoundary (c : Char) : Bool :=
  c = '\n' || c = '\r' || c = '\x0b' || c = '\x0c' || c = '\x1c' || c = '\x1d' || c = '\x1e'
    || c = '\x85' || c = '\u2028' || c = '\u2029'

/-- Puts a character in front of the first line. -/
def extendFirst (c : Char) : List (List Char) → List (List Char)
  | [] => [[c]]
  | line :: rest => (c :: line) :: rest

/-- The lines of a text, without their boundaries. -/
def lines : List Char → List (List Char)
  | [] => []
  | '\r' :: '\n' :: rest => [] :: lines rest
  | c :: rest => if isLineBoundary c then [] :: lines rest else extendFirst c (lines rest)

/-- A file's text with every `\r\n` and every lone `\r` read as `\n`. -/
def normalizeBreaks : List Char → List Char
  | [] => []
  | '\r' :: '\n' :: rest => '\n' :: normalizeBreaks rest
  | c :: rest => (if c = '\r' then '\n' else c) :: normalizeBreaks rest

end SequenceChart.Text
