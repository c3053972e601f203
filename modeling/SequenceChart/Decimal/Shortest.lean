import SequenceChart.Decimal.Binary64
set_option autoImplicit false

/-!
# The fewest digits that read back

Every double stands for the interval of real numbers that round to it; the interval has its ends
where the mantissa is even.  `shortest` walks from coarse decimal grids to fine ones and stops at
the first grid with a point in the interval.  Only the two neighbours of the number on a grid need
a test; if both lie in the interval the nearer one is taken, and of two equally near ones the even
one.
-/

namespace SequenceChart.Decimal

/-- The interval of a positive finite double in units of a quarter of its last place: its lower
end, the number itself, its upper end, the binary exponent of the unit, and whether the ends
belong to it. -/
structure Interval where
  low : Nat
  mid : Nat
  high : Nat
  exponent : Int
  closed : Bool
  deriving DecidableEq, Repr, Inhabited

namespace Interval

/-- The interval of a finite pattern.  Below a power of two the doubles lie twice as close. -/
def ofBits (bits : Nat) : Interval :=
  let (m, q) := mantissa bits
  let gap := if m = leadingBit && q ≠ -1074 then 1 else 2
  ⟨4 * m - gap, 4 * m, 4 * m + 2, q - 2, m % 2 = 0⟩

/-- The factor of the interval's numbers when they are compared with points of the grid of
`10 ^ k`. -/
def factor (i : Interval) (k : Int) : Nat :=
  Nat.pow 2 i.exponent.toNat * Nat.pow 10 (-k).toNat

/-- The factor of a point of the grid of `10 ^ k` in the same comparison. -/
def gridFactor (i : Interval) (k : Int) : Nat :=
  Nat.pow 2 (-i.exponent).toNat * Nat.pow 10 k.toNat

/-- The point `d * 10 ^ k` lies in the interval. -/
def holds (i : Interval) (k : Int) (d : Nat) : Bool :=
  let point := d * i.gridFactor k
  if i.closed then i.low * i.factor k ≤ point && point ≤ i.high * i.factor k
  else i.low * i.factor k < point && point < i.high * i.factor k

/-- The point of the grid of `10 ^ k` that is chosen for the interval's number. -/
def point? (i : Interval) (k : Int) : Option Nat :=
  let number := i.mid * i.factor k
  let step := i.gridFactor k
  let d := number / step
  match i.holds k d, i.holds k (d + 1) with
  | true, true =>
    let below := number % step
    if 2 * below < step then some d
    else if step < 2 * below then some (d + 1)
    else some (d + d % 2)
  | true, false => some d
  | false, true => some (d + 1)
  | false, false => none

/-- The first grid with a point, of the given one and the finer ones after it. -/
def search (i : Interval) : Nat → Int → Nat × Int
  | 0, k => (i.mid, k)
  | fuel + 1, k =>
    match i.point? k with
    | some d => (d, k)
    | none => i.search fuel (k - 1)

end Interval

/-- Takes trailing zeros off a number and counts them in the exponent. -/
def stripZeros : Nat → Nat → Int → Nat × Int
  | 0, d, k => (d, k)
  | fuel + 1, d, k => if d % 10 = 0 && d ≠ 0 then stripZeros fuel (d / 10) (k + 1) else (d, k)

/-- A decimal exponent that no double of the pattern reaches. -/
def exponentBound (bits : Nat) : Int :=
  let (m, q) := mantissa bits
  ((m.log2 : Int) + 1 + q) * 30103 / 100000 + 1

/-- The decimal number `d * 10 ^ k` with the fewest digits that reads back as the double of a
positive finite pattern. -/
def shortest (bits : Nat) : Nat × Int :=
  let (d, k) := (Interval.ofBits bits).search 24 (exponentBound bits)
  stripZeros 20 d k

end SequenceChart.Decimal
