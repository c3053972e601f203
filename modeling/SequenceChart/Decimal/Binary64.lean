set_option autoImplicit false

/-!
# Double precision numbers by their bits

A finite double is `m * 2 ^ q` with `m < 2 ^ 53` and `-1074 ≤ q`.  Without its sign bit, the bit
pattern of a double is a natural number that grows with the number; `nearest` finds the pattern of
the double closest to a positive fraction, where a tie goes to the even mantissa.
-/

namespace SequenceChart.Decimal

/-- Two doubles are one if their bits are. -/
instance instDecidableEqFloat : DecidableEq Float := fun a b =>
  if h : a.toBits = b.toBits then
    .isTrue (by
      cases a with | ofModel x
      cases b with | ofModel y
      cases x with | mk m _
      cases y with | mk n _
      have e : m = n := h
      subst e
      rfl)
  else .isFalse fun e => h (congrArg Float.toBits e)

/-- The bit pattern of infinity, sign aside; the patterns below it are finite. -/
def infinityBits : Nat := 0x7ff0000000000000

/-- The bit pattern of a sign and nothing else. -/
def signBit : Nat := 0x8000000000000000

/-- The lowest pattern that leaves out the leading bit of its mantissa, and that bit itself. -/
def leadingBit : Nat := 0x10000000000000

/-- The sign bit of a double. -/
def isSigned (x : Float) : Bool := signBit ≤ x.toBits.toNat

/-- The bit pattern of a double without its sign bit. -/
def magnitude (x : Float) : Nat := x.toBits.toNat % signBit

/-- The double with the given sign and the given pattern of the rest. -/
def ofMagnitude (signed : Bool) (bits : Nat) : Float :=
  Float.ofBits (UInt64.ofNat ((if signed then signBit else 0) + bits))

/-- The double that is no number. -/
def notANumber : Float := Float.ofBits 0x7ff8000000000000

/-- Infinity of either sign. -/
def infinity (negative : Bool) : Float := ofMagnitude negative infinityBits

/-- Mantissa and binary exponent of a finite pattern. -/
def mantissa (bits : Nat) : Nat × Int :=
  if bits < leadingBit then (bits, -1074)
  else (leadingBit + bits % leadingBit, (bits / leadingBit : Nat) - 1075)

/-- Signed mantissa and binary exponent of a finite double. -/
def dyadic (x : Float) : Int × Int :=
  let (m, q) := mantissa (magnitude x)
  (if isSigned x then -(m : Int) else m, q)

/-- The order of an integer and a double that is a number, by their exact values. -/
def compareInt (n : Int) (x : Float) : Ordering :=
  if magnitude x = infinityBits then
    if isSigned x then .gt else .lt
  else
    let (m, q) := dyadic x
    compare (n * Nat.pow 2 (-q).toNat) (m * Nat.pow 2 q.toNat)

/-- A quotient rounded to the nearest integer, a half to the even neighbour. -/
def roundHalfEven (num den : Nat) : Nat :=
  let low := num / den
  if 2 * (num % den) < den then low
  else if den < 2 * (num % den) then low + 1
  else low + low % 2

/-- The integer part of the binary logarithm of a positive fraction. -/
def floorLog2 (num den : Nat) : Int :=
  let e : Int := (num.log2 : Int) - (den.log2 : Int)
  if den * Nat.pow 2 e.toNat ≤ num * Nat.pow 2 (-e).toNat then e else e - 1

/-- The pattern of the double nearest to a positive fraction; a fraction that rounds past the
largest finite double gives infinity. -/
def nearest (num den : Nat) : Nat :=
  let q : Int := max (floorLog2 num den - 52) (-1074)
  let m := roundHalfEven (num * Nat.pow 2 (-q).toNat) (den * Nat.pow 2 q.toNat)
  min ((q + 1074).toNat * leadingBit + m) infinityBits

end SequenceChart.Decimal
