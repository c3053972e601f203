set_option autoImplicit false

/-!
# Reading base 64

Four characters of the alphabet carry three bytes.  Other characters are skipped; an equals sign
closes a group in which two or three characters have been read, and what follows the closing one is
not looked at.
-/

namespace SequenceChart.Text

/-- The six bits that a character of the alphabet stands for. -/
def sixBits? (c : Char) : Option Nat :=
  if c.isUpper then some (c.toNat - 65)
  else if c.isLower then some (c.toNat - 71)
  else if c.isDigit then some (c.toNat + 4)
  else if c = '+' then some 62
  else if c = '/' then some 63
  else none

/-- The byte that is complete once a group has one more value: `taken` values of it have been read
before, and `left` holds their bits that belong to no byte yet. -/
def completeByte (taken left value : Nat) : List UInt8 :=
  match taken with
  | 1 => [UInt8.ofNat (left * 4 + value / 16)]
  | 2 => [UInt8.ofNat (left * 16 + value / 4)]
  | 3 => [UInt8.ofNat (left * 64 + value)]
  | _ => []

/-- The bits of a group that belong to no byte yet, once it has one more value. -/
def leftBits (taken value : Nat) : Nat :=
  match taken with
  | 0 => value
  | 1 => value % 16
  | 2 => value % 4
  | _ => 0

/-- The bytes of the rest of a text: `taken` values of a group have been read, then `pads` equals
signs.  A text that ends inside a group carries no bytes. -/
def base64From (taken left pads : Nat) : List Char → Option (List UInt8)
  | [] => if taken = 0 then some [] else none
  | '=' :: rest =>
    if 2 ≤ taken then
      if 4 ≤ taken + pads + 1 then some [] else base64From taken left (pads + 1) rest
    else base64From taken left pads rest
  | c :: rest =>
    match sixBits? c with
    | none => base64From taken left pads rest
    | some value => do
      let more ← base64From ((taken + 1) % 4) (leftBits taken value) 0 rest
      return completeByte taken left value ++ more

/-- The bytes that a text carries. -/
def decodeBase64 (cs : List Char) : Option (List UInt8) := base64From 0 0 0 cs

end SequenceChart.Text
