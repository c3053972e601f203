import SequenceChart.Json.Value
import SequenceChart.Text.Basic
set_option autoImplicit false

/-!
# Reading JSON text

The reader works on the characters of a text and hands back what it has not read.  A fault is
placed by the number of characters from its place to the end, from which line and column are
counted.  Beyond the standard it reads `NaN`, `Infinity` and `-Infinity`.  An integer with
too many digits is refused; a number with a point or an exponent is held to that limit before the
point only where a `DigitRule` says so.
-/

namespace SequenceChart

namespace Json

/-- What is wrong with a text. -/
inductive Problem where
  | byteOrderMark
  | expectingValue
  | expectingName
  | expectingColon
  | expectingComma
  | unterminatedString
  | controlCharacter
  | badEscape
  | badUnicodeEscape
  | extraData
  deriving DecidableEq, Repr, Inhabited

/-- The wording of a problem. -/
def Problem.text : Problem → String
  | byteOrderMark => "Unexpected UTF-8 BOM (decode using utf-8-sig)"
  | expectingValue => "Expecting value"
  | expectingName => "Expecting property name enclosed in double quotes"
  | expectingColon => "Expecting ':' delimiter"
  | expectingComma => "Expecting ',' delimiter"
  | unterminatedString => "Unterminated string starting at"
  | controlCharacter => "Invalid control character at"
  | badEscape => "Invalid \\escape"
  | badUnicodeEscape => "Invalid \\uXXXX escape"
  | extraData => "Extra data"

/-- Where reading stops: a problem so many characters before the end, or an integer with too many
digits. -/
inductive Stop where
  | problem (what : Problem) (left : Nat)
  | longInteger (digits : Nat)
  deriving DecidableEq, Repr, Inhabited

/-- A problem at the start of the remaining text. -/
def stopAt {α : Type} (what : Problem) (rest : List Char) : Except Stop α :=
  .error (.problem what rest.length)

/-- The white space of JSON. -/
def isSpace (c : Char) : Bool := c = ' ' || c = '\t' || c = '\n' || c = '\r'

/-- The text after white space. -/
def skipSpace (cs : List Char) : List Char := cs.dropWhile isSpace

/-- The character that a one-letter escape stands for. -/
def shortEscape? (c : Char) : Option Char :=
  match c with
  | '"' => some '"'
  | '\\' => some '\\'
  | '/' => some '/'
  | 'b' => some '\x08'
  | 'f' => some '\x0c'
  | 'n' => some '\n'
  | 'r' => some '\r'
  | 't' => some '\t'
  | _ => none

/-- The code unit is the first of a surrogate pair. -/
def isHighSurrogate (n : Nat) : Bool := 0xd800 ≤ n && n ≤ 0xdbff

/-- The code unit is the second of a surrogate pair. -/
def isLowSurrogate (n : Nat) : Bool := 0xdc00 ≤ n && n ≤ 0xdfff

/-- The character of a code unit that is part of no pair; half a pair is no character and reads as
the replacement character. -/
def ofUnit (n : Nat) : Char :=
  if isHighSurrogate n || isLowSurrogate n then '\ufffd' else Char.ofNat n

/-- The character of a surrogate pair. -/
def ofPair (high low : Nat) : Char :=
  Char.ofNat (0x10000 + (high - 0xd800) * 0x400 + (low - 0xdc00))

/-- A part of a string: a character, or a code unit written by its number. -/
inductive Piece where
  | char (c : Char)
  | unit (n : Nat)
  deriving DecidableEq, Repr, Inhabited

/-- The characters of pieces; two units next to each other may be one character. -/
def ofPieces : List Piece → List Char
  | [] => []
  | .char c :: rest => c :: ofPieces rest
  | [.unit n] => [ofUnit n]
  | .unit n :: .char c :: rest => ofUnit n :: c :: ofPieces rest
  | .unit n :: .unit m :: rest =>
    if isHighSurrogate n && isLowSurrogate m then ofPair n m :: ofPieces rest
    else ofUnit n :: ofPieces (.unit m :: rest)

/-- The rest of a string after its opening quote, which stands `opening` characters before the
end.  After the four digits of a code unit some character must follow. -/
def readPieces (opening : Nat) : List Char → Except Stop (List Piece × List Char)
  | [] => .error (.problem .unterminatedString opening)
  | '"' :: rest => .ok ([], rest)
  | ['\\'] => .error (.problem .unterminatedString opening)
  | '\\' :: 'u' :: a :: b :: c :: d :: next :: rest =>
    match Text.readHex [a, b, c, d] with
    | none => stopAt .badUnicodeEscape ('u' :: a :: b :: c :: d :: next :: rest)
    | some n => do
      let (more, rest) ← readPieces opening (next :: rest)
      return (.unit n :: more, rest)
  | '\\' :: c :: rest =>
    if c = 'u' then stopAt .badUnicodeEscape (c :: rest)
    else match shortEscape? c with
      | none => stopAt .badEscape ('\\' :: c :: rest)
      | some plain => do
        let (more, rest) ← readPieces opening rest
        return (.char plain :: more, rest)
  | c :: rest =>
    if c.toNat < 0x20 then stopAt .controlCharacter (c :: rest)
    else do
      let (more, rest) ← readPieces opening rest
      return (.char c :: more, rest)

/-- A string after its opening quote. -/
def readString (opening : Nat) (cs : List Char) : Except Stop (String × List Char) := do
  let (pieces, rest) ← readPieces opening cs
  return (String.ofList (ofPieces pieces), rest)

/-- The digits of an integer part: a zero alone, or digits that start with another one. -/
def readInteger (cs : List Char) : List Char × List Char :=
  match cs with
  | '0' :: rest => (['0'], rest)
  | cs => (cs.takeWhile Char.isDigit, cs.dropWhile Char.isDigit)

/-- The digits of a fraction, which has at least one. -/
def readFraction (cs : List Char) : Option (List Char × List Char) :=
  match cs with
  | '.' :: rest =>
    if (rest.takeWhile Char.isDigit).isEmpty then none
    else some (rest.takeWhile Char.isDigit, rest.dropWhile Char.isDigit)
  | _ => none

/-- An exponent, which has at least one digit. -/
def readExponent (cs : List Char) : Option (Int × List Char) :=
  let digits (negative : Bool) (rest : List Char) : Option (Int × List Char) :=
    if (rest.takeWhile Char.isDigit).isEmpty then none
    else some (Decimal.intOfDigits negative (rest.takeWhile Char.isDigit),
      rest.dropWhile Char.isDigit)
  match cs with
  | c :: rest =>
    if c = 'e' || c = 'E' then
      match rest with
      | '-' :: rest => digits true rest
      | '+' :: rest => digits false rest
      | rest => digits false rest
    else none
  | [] => none

/-- Which numbers the limit of digits holds for: integers alone, or every number for its digits
before the point. -/
inductive DigitRule where
  | integers
  | numbers
  deriving DecidableEq, Repr, Inhabited

/-- A number without its sign; `start` is the text at the sign. -/
def readUnsigned (rule : DigitRule) (start : List Char) (negative : Bool) (cs : List Char) :
    Except Stop (Json × List Char) :=
  let (digits, rest) := readInteger cs
  if digits.isEmpty then stopAt .expectingValue start
  else if rule = .numbers && Decimal.digitLimit < digits.length then
    .error (.longInteger digits.length)
  else
    match readFraction rest, readExponent ((readFraction rest).elim rest Prod.snd) with
    | none, none =>
      if Decimal.digitLimit < digits.length then .error (.longInteger digits.length)
      else .ok (int (Decimal.intOfDigits negative digits), rest)
    | none, some (e, rest) =>
      .ok (float (Decimal.ofDecimal negative (Decimal.natOfDigits digits) e), rest)
    | some (fraction, rest), none =>
      .ok (float (Decimal.ofDecimal negative (Decimal.natOfDigits (digits ++ fraction))
        (-fraction.length)), rest)
    | some (fraction, _), some (e, rest) =>
      .ok (float (Decimal.ofDecimal negative (Decimal.natOfDigits (digits ++ fraction))
        (e - fraction.length)), rest)

/-- A number. -/
def readNumber (rule : DigitRule) (cs : List Char) : Except Stop (Json × List Char) :=
  match cs with
  | '-' :: rest => readUnsigned rule cs true rest
  | cs => readUnsigned rule cs false cs

mutual

/-- A value at the start of a text.  The fuel bounds the number of nested calls: each bracket takes
two, one for the value that it starts and one for the first item or member behind it. -/
def readValue (rule : DigitRule) : Nat → List Char → Except Stop (Json × List Char)
  | 0, cs => stopAt .expectingValue cs
  | fuel + 1, cs =>
    match cs with
    | '"' :: rest => do
      let (s, rest) ← readString cs.length rest
      return (string s, rest)
    | '{' :: rest =>
      match skipSpace rest with
      | '}' :: rest => .ok (object [], rest)
      | rest => do
        let (members, rest) ← readMembers rule fuel rest
        return (object members, rest)
    | '[' :: rest =>
      match skipSpace rest with
      | ']' :: rest => .ok (array [], rest)
      | rest => do
        let (items, rest) ← readItems rule fuel rest
        return (array items, rest)
    | 'n' :: 'u' :: 'l' :: 'l' :: rest => .ok (null, rest)
    | 't' :: 'r' :: 'u' :: 'e' :: rest => .ok (bool true, rest)
    | 'f' :: 'a' :: 'l' :: 's' :: 'e' :: rest => .ok (bool false, rest)
    | 'N' :: 'a' :: 'N' :: rest => .ok (float Decimal.notANumber, rest)
    | 'I' :: 'n' :: 'f' :: 'i' :: 'n' :: 'i' :: 't' :: 'y' :: rest =>
      .ok (float (Decimal.infinity false), rest)
    | '-' :: 'I' :: 'n' :: 'f' :: 'i' :: 'n' :: 'i' :: 't' :: 'y' :: rest =>
      .ok (float (Decimal.infinity true), rest)
    | cs => readNumber rule cs

/-- The items of an array that is not empty, and its closing bracket. -/
def readItems (rule : DigitRule) : Nat → List Char → Except Stop (List Json × List Char)
  | 0, cs => stopAt .expectingValue cs
  | fuel + 1, cs => do
    let (item, rest) ← readValue rule fuel cs
    match skipSpace rest with
    | ']' :: rest => return ([item], rest)
    | ',' :: rest =>
      let (more, rest) ← readItems rule fuel (skipSpace rest)
      return (item :: more, rest)
    | rest => stopAt .expectingComma rest

/-- The members of an object that is not empty, and its closing brace. -/
def readMembers (rule : DigitRule) :
    Nat → List Char → Except Stop (List (String × Json) × List Char)
  | 0, cs => stopAt .expectingName cs
  | fuel + 1, cs =>
    match cs with
    | '"' :: rest => do
      let (name, rest) ← readString cs.length rest
      match skipSpace rest with
      | ':' :: rest =>
        let (value, rest) ← readValue rule fuel (skipSpace rest)
        let member := (name, value)
        match skipSpace rest with
        | '}' :: rest => return ([member], rest)
        | ',' :: rest =>
          let (more, rest) ← readMembers rule fuel (skipSpace rest)
          return (member :: more, rest)
        | rest => stopAt .expectingComma rest
      | rest => stopAt .expectingColon rest
    | cs => stopAt .expectingName cs

end

/-- The value of a whole text. -/
def readText (rule : DigitRule) (cs : List Char) : Except Stop Json :=
  match cs with
  | '\ufeff' :: _ => stopAt .byteOrderMark cs
  | cs => do
    let (value, rest) ← readValue rule (2 * cs.length + 1) (skipSpace cs)
    match skipSpace rest with
    | [] => return value
    | rest => stopAt .extraData rest

/-- A fault in a text. -/
inductive Fault where
  | syntax_ (what : Problem) (line column position : Nat)
  | longInteger (digits : Nat)
  deriving DecidableEq, Repr, Inhabited

namespace Fault

/-- The place of a stop in the text. -/
def ofStop (cs : List Char) : Stop → Fault
  | .longInteger digits => longInteger digits
  | .problem what left =>
    let position := cs.length - left
    let before := cs.take position
    let onLine := before.reverse.takeWhile (· ≠ '\n')
    syntax_ what (before.count '\n' + 1) (onLine.length + 1) position

def message : Fault → String
  | syntax_ what line column position =>
    what.text ++ ": line " ++ toString line ++ " column " ++ toString column ++ " (char "
      ++ toString position ++ ")"
  | longInteger digits => Decimal.unreadText digits

end Fault

/-- The value of a text, or the fault in it. -/
def ofText (rule : DigitRule) (cs : List Char) : Except Fault Json :=
  match readText rule cs with
  | .ok value => .ok value
  | .error stop => .error (Fault.ofStop cs stop)

end Json

end SequenceChart
