import SequenceChart.Text.Basic
set_option autoImplicit false

/-!
# UTF-8

A text is written as the bytes of its characters.  Bytes are read one at a time.  The first byte of
a character says how many bytes follow and, with the narrower bounds of the first of them, rules out
overlong forms, surrogates and code points that do not exist.  A fault covers the bytes of the
character read before it was found.
-/

namespace SequenceChart.Text

/-- What is wrong with the bytes. -/
inductive Utf8Problem where
  | badStart
  | badContinuation
  | endOfData
  deriving DecidableEq, Repr, Inhabited

/-- The wording of a problem. -/
def Utf8Problem.text : Utf8Problem → String
  | badStart => "invalid start byte"
  | badContinuation => "invalid continuation byte"
  | endOfData => "unexpected end of data"

/-- Bytes that are no UTF-8: where they start, how many they are and the first of them. -/
structure Utf8Fault where
  position : Nat
  length : Nat
  byte : UInt8
  problem : Utf8Problem
  deriving DecidableEq, Repr, Inhabited

namespace Utf8Fault

def message (f : Utf8Fault) : String :=
  let place :=
    if f.length = 1 then
      "byte 0x" ++ String.ofList (hex 2 f.byte.toNat) ++ " in position " ++ toString f.position
    else
      "bytes in position " ++ toString f.position ++ "-" ++ toString (f.position + f.length - 1)
  "'utf-8' codec can't decode " ++ place ++ ": " ++ f.problem.text

end Utf8Fault

namespace Utf8

/-- A character in progress: where it started and with which byte, how many of its bytes are read
and how many are missing, the bounds of the next byte and the code point's bits so far. -/
structure Partial where
  start : Nat
  lead : UInt8
  taken : Nat
  missing : Nat
  low : Nat
  high : Nat
  bits : Nat
  deriving DecidableEq, Repr, Inhabited

/-- What a first byte begins, if it begins a character of several bytes. -/
def begin_ (position : Nat) (b : UInt8) : Option Partial :=
  let n := b.toNat
  if 0xc2 ≤ n && n ≤ 0xdf then some ⟨position, b, 1, 1, 0x80, 0xbf, n - 0xc0⟩
  else if n = 0xe0 then some ⟨position, b, 1, 2, 0xa0, 0xbf, 0⟩
  else if n = 0xed then some ⟨position, b, 1, 2, 0x80, 0x9f, 0xd⟩
  else if 0xe1 ≤ n && n ≤ 0xef then some ⟨position, b, 1, 2, 0x80, 0xbf, n - 0xe0⟩
  else if n = 0xf0 then some ⟨position, b, 1, 3, 0x90, 0xbf, 0⟩
  else if 0xf1 ≤ n && n ≤ 0xf3 then some ⟨position, b, 1, 3, 0x80, 0xbf, n - 0xf0⟩
  else if n = 0xf4 then some ⟨position, b, 1, 3, 0x80, 0x8f, 4⟩
  else none

/-- Reads bytes from a position on, after the bytes of a character in progress. -/
def decodeFrom (position : Nat) (progress : Option Partial) :
    List UInt8 → Except Utf8Fault (List Char)
  | [] =>
    match progress with
    | none => .ok []
    | some p => .error ⟨p.start, p.taken, p.lead, .endOfData⟩
  | b :: rest =>
    match progress with
    | none =>
      if b.toNat < 0x80 then do
        let more ← decodeFrom (position + 1) none rest
        return Char.ofNat b.toNat :: more
      else match begin_ position b with
        | none => .error ⟨position, 1, b, .badStart⟩
        | some p => decodeFrom (position + 1) (some p) rest
    | some p =>
      if p.low ≤ b.toNat && b.toNat ≤ p.high then
        let bits := p.bits * 64 + b.toNat % 64
        if p.missing ≤ 1 then do
          let more ← decodeFrom (position + 1) none rest
          return Char.ofNat bits :: more
        else
          decodeFrom (position + 1)
            (some ⟨p.start, p.lead, p.taken + 1, p.missing - 1, 0x80, 0xbf, bits⟩) rest
      else .error ⟨p.start, p.taken, p.lead, .badContinuation⟩

end Utf8

/-- The bytes that encode a text. -/
def encodeUtf8 (cs : List Char) : List UInt8 := (String.ofList cs).toUTF8.toList

/-- The text that bytes encode. -/
def decodeUtf8 (bytes : List UInt8) : Except Utf8Fault (List Char) := Utf8.decodeFrom 0 none bytes

end SequenceChart.Text
