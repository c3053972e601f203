import SequenceChart.Json.Value
import SequenceChart.Text.Quoted
set_option autoImplicit false

/-!
# Writing JSON text

Values are written without white space.  Two rules for strings are in use: one writes printable
ASCII only, every other character by its UTF-16 units, and the other leaves every character but the
quote, the backslash and the controls as it is.  `write` gives the characters of any value, and
`dump` refuses a value with an integer that has too many digits to be shown.
-/

namespace SequenceChart

namespace Json

/-- A code unit as a `\u` escape. -/
def unitEscape (n : Nat) : List Char := '\\' :: 'u' :: Text.hex 4 n

/-- The escapes that both rules share: the quote, the backslash and five controls. -/
def commonEscape? (c : Char) : Option (List Char) :=
  if c = '"' then some ['\\', '"']
  else if c = '\\' then some ['\\', '\\']
  else if c = '\n' then some ['\\', 'n']
  else if c = '\r' then some ['\\', 'r']
  else if c = '\t' then some ['\\', 't']
  else if c = '\x08' then some ['\\', 'b']
  else if c = '\x0c' then some ['\\', 'f']
  else none

/-- A character in printable ASCII; beyond the first plane it is a surrogate pair. -/
def escapeAscii (c : Char) : List Char :=
  match commonEscape? c with
  | some escape => escape
  | none =>
    if 0x20 ≤ c.toNat && c.toNat ≤ 0x7e then [c]
    else if c.toNat < 0x10000 then unitEscape c.toNat
    else unitEscape (0xd800 + (c.toNat - 0x10000) / 0x400)
      ++ unitEscape (0xdc00 + (c.toNat - 0x10000) % 0x400)

/-- A character as it is, unless it is a control. -/
def escapeControls (c : Char) : List Char :=
  match commonEscape? c with
  | some escape => escape
  | none => if c.toNat < 0x20 then unitEscape c.toNat else [c]

/-- The words for the doubles that are no JSON numbers. -/
def words : Decimal.Words := ⟨"NaN", "Infinity"⟩

/-- A string between quotes. -/
def writeString (escape : Char → List Char) (s : String) : List Char :=
  '"' :: s.toList.flatMap escape ++ ['"']

mutual

/-- A value as text. -/
def write (escape : Char → List Char) : Json → List Char
  | null => ['n', 'u', 'l', 'l']
  | bool true => ['t', 'r', 'u', 'e']
  | bool false => ['f', 'a', 'l', 's', 'e']
  | int n => Decimal.intDigits n
  | float x => Decimal.write words x
  | string s => writeString escape s
  | array [] => ['[', ']']
  | array (item :: rest) => '[' :: (item.write escape ++ writeItems escape rest)
  | object [] => ['{', '}']
  | object ((name, value) :: rest) =>
    '{' :: (writeString escape name ++ ':' :: (value.write escape ++ writeMembers escape rest))

/-- The further items of an array and its closing bracket. -/
def writeItems (escape : Char → List Char) : List Json → List Char
  | [] => [']']
  | item :: rest => ',' :: (item.write escape ++ writeItems escape rest)

/-- The further members of an object and its closing brace. -/
def writeMembers (escape : Char → List Char) : List (String × Json) → List Char
  | [] => ['}']
  | (name, value) :: rest =>
    ',' :: (writeString escape name ++ ':' :: (value.write escape ++ writeMembers escape rest))

end

mutual

/-- Every integer in the value has few enough digits to be written. -/
def isWritable : Json → Bool
  | int n => (Decimal.shownInt? n).isSome
  | array items => areWritable items
  | object members => membersWritable members
  | _ => true

/-- Every integer in the items has few enough digits to be written. -/
def areWritable : List Json → Bool
  | [] => true
  | item :: rest => item.isWritable && areWritable rest

/-- Every integer in the members has few enough digits to be written. -/
def membersWritable : List (String × Json) → Bool
  | [] => true
  | (_, value) :: rest => value.isWritable && membersWritable rest

end

/-- Why a value has no text. -/
inductive Unwritable where
  | longInteger
  deriving DecidableEq, Repr, Inhabited

def Unwritable.message : Unwritable → String
  | longInteger => Decimal.unshownText

/-- A value as text, unless an integer in it has too many digits. -/
def dump (escape : Char → List Char) (v : Json) : Except Unwritable (List Char) :=
  if v.isWritable then .ok (v.write escape) else .error .longInteger

mutual

/-- A value in a message: words for null and the truth values, quoted strings, and a space after
every comma and colon. -/
def display : Json → List Char
  | null => "None".toList
  | bool true => "True".toList
  | bool false => "False".toList
  | int n => Decimal.intDigits n
  | float x => Decimal.write Decimal.plainWords x
  | string s => Text.quotedChars s.toList
  | array [] => ['[', ']']
  | array (item :: rest) => '[' :: (item.display ++ displayItems rest)
  | object [] => ['{', '}']
  | object ((name, value) :: rest) =>
    '{' :: (Text.quotedChars name.toList ++ ':' :: ' ' :: (value.display ++ displayMembers rest))

/-- The further items of an array in a message and its closing bracket. -/
def displayItems : List Json → List Char
  | [] => [']']
  | item :: rest => ',' :: ' ' :: (item.display ++ displayItems rest)

/-- The further members of an object in a message and its closing brace. -/
def displayMembers : List (String × Json) → List Char
  | [] => ['}']
  | (name, value) :: rest =>
    ',' :: ' ' :: (Text.quotedChars name.toList ++ ':' :: ' ' ::
      (value.display ++ displayMembers rest))

end

/-- A value in a message. -/
def describe (v : Json) : String := String.ofList v.display

end Json

end SequenceChart
