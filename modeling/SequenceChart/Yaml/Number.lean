import SequenceChart.Text.Basic
import SequenceChart.Text.Lower
import SequenceChart.Yaml.Fault
import SequenceChart.Yaml.Pattern
set_option autoImplicit false

/-!
# The values of numbers

The value of a scalar that is tagged as a number.  A tag that is written out may stand on any text,
so more is read here than a plain scalar may write: white space on either side, a second sign, the
decimal digits of every script, a second mark of the base.
-/

namespace SequenceChart.Yaml

namespace Number

/-- A character in a numeral: white space, a digit, or a character as it is.  Beyond ASCII the white
space and the digits of all scripts count. -/
def plainChar (c : Char) : Char :=
  if c.toNat < 0x7f then c
  else if Text.isWhiteSpace c then ' '
  else match Text.digitValue? c with
    | some n => Text.hexDigit n
    | none => '?'

/-- White space in ASCII, separators of information excepted. -/
def isSpace (c : Char) : Bool := c = ' ' || (0x9 ≤ c.toNat && c.toNat ≤ 0xd)

/-- The text without white space on either side. -/
def trim (cs : List Char) : List Char :=
  ((cs.dropWhile isSpace).reverse.dropWhile isSpace).reverse

/-- A sign that a text may start with, and the rest. -/
def splitSign : List Char → Bool × List Char
  | '-' :: rest => (true, rest)
  | '+' :: rest => (false, rest)
  | cs => (false, cs)

/-- The value of a digit in a base. -/
def digitIn? (base : Nat) (c : Char) : Option Nat := (Text.hexValue? c).filter (· < base)

/-- The letters that mark a base after a zero. -/
def baseMarks (base : Nat) : List Char :=
  match base with
  | 2 => ['b', 'B']
  | 8 => ['o', 'O']
  | 16 => ['x', 'X']
  | _ => []

/-- The text after the mark of a base that it may start with. -/
def afterBaseMark (base : Nat) : List Char → List Char
  | '0' :: mark :: rest => if (baseMarks base).contains mark then rest else '0' :: mark :: rest
  | cs => cs

/-- The integer that a text writes in a base: white space, a sign, the mark of the base and digits.
In base ten the number of digits is limited. -/
def readInt (base : Nat) (text : List Char) : Except Fault Int :=
  let (negative, cs) := splitSign ((text.map plainChar).dropWhile isSpace)
  let cs := afterBaseMark base cs
  let digits := cs.takeWhile fun c => (digitIn? base c).isSome
  if base = 10 && Decimal.digitLimit < digits.length then .error (.longNumeral digits.length)
  else if digits.isEmpty || !(cs.dropWhile fun c => (digitIn? base c).isSome).all isSpace then
    .error (.noInteger base text)
  else
    let n := digits.foldl (fun n c => base * n + (digitIn? base c).getD 0) 0
    .ok (if negative then -(n : Int) else n)

/-- The digits of a decimal numeral as a number times a power of ten, if it is one. -/
def decimal? (cs : List Char) : Option (Nat × Int) := do
  let whole := cs.takeWhile Char.isDigit
  let rest := cs.dropWhile Char.isDigit
  let (decimals, rest) := match rest with
    | '.' :: rest => (rest.takeWhile Char.isDigit, rest.dropWhile Char.isDigit)
    | rest => ([], rest)
  guard (!(whole ++ decimals).isEmpty)
  let exponent ← match rest with
    | [] => some 0
    | e :: rest =>
      let (negative, digits) := splitSign rest
      if (e = 'e' || e = 'E') && !digits.isEmpty && digits.all Char.isDigit then
        some (Decimal.intOfDigits negative digits)
      else none
  return (Decimal.natOfDigits (whole ++ decimals), exponent - decimals.length)

/-- The double that a text in small letters writes, words for infinity and for no number
included. -/
def readFloat (text : List Char) : Except Fault Float :=
  let (negative, cs) := splitSign (trim (text.map plainChar))
  if cs = ['i', 'n', 'f'] || cs = ['i', 'n', 'f', 'i', 'n', 'i', 't', 'y'] then
    .ok (Decimal.infinity negative)
  else if cs = ['n', 'a', 'n'] then .ok Decimal.notANumber
  else match decimal? cs with
    | some (d, k) => .ok (Decimal.ofDecimal negative d k)
    | none => .error (.noFloat text)

/-- The parts of a text between its colons. -/
def atColons : List Char → List (List Char)
  | [] => [[]]
  | ':' :: rest => [] :: atColons rest
  | c :: rest =>
    match atColons rest with
    | [] => [[c]]
    | part :: parts => (c :: part) :: parts

/-- The value of a scalar tagged as an integer: with the mark of base two or sixteen, in base eight
after a leading zero, in groups of sixty between colons, otherwise in base ten. -/
def intOf (text : List Char) : Except Fault Int := do
  let cs := text.filter (· ≠ '_')
  if cs.isEmpty then throw .emptyNumeral
  let (negative, cs) := splitSign cs
  let n ← match cs with
    | [] => throw .emptyNumeral
    | '0' :: 'b' :: rest => readInt 2 rest
    | '0' :: 'x' :: rest => readInt 16 rest
    | '0' :: rest => readInt 8 ('0' :: rest)
    | cs =>
      if cs.contains ':' then do
        let parts ← (atColons cs).mapM (readInt 10)
        pure (parts.foldl (fun n part => 60 * n + part) 0)
      else readInt 10 cs
  return if negative then -n else n

/-- Groups of sixty, the last first, added up in double precision.  Each is taken times its power of
sixty, which must be in range. -/
def sixtieths (scale : Nat) (sum : Float) : List Float → Except Fault Float
  | [] => .ok sum
  | part :: parts =>
    match Decimal.ofInt? scale with
    | none => .error .largeScale
    | some factor => sixtieths (60 * scale) (sum + part * factor) parts

/-- The text is the word for no number. -/
def isNaNWord (text : List Char) : Bool :=
  (splitSign (Text.lower (text.filter (· ≠ '_')))).2 = ['.', 'n', 'a', 'n']

/-- The value of a scalar tagged as a double: the words for infinity and no number, groups of sixty
between colons, or a decimal numeral. -/
def floatOf (text : List Char) : Except Fault Float := do
  let cs := Text.lower (text.filter (· ≠ '_'))
  if cs.isEmpty then throw .emptyNumeral
  let (negative, cs) := splitSign cs
  if cs = ['.', 'n', 'a', 'n'] then return Decimal.notANumber
  let x ←
    if cs = ['.', 'i', 'n', 'f'] then pure (Decimal.infinity false)
    else if cs.contains ':' then do
      let parts ← (atColons cs).mapM readFloat
      sixtieths 1 0.0 parts.reverse
    else readFloat cs
  return if negative then -x else x

end Number

end SequenceChart.Yaml
