set_option autoImplicit false

/-!
# Lengths

A layout adds lengths, scales a unit by a nesting depth and enlarges a font size by a quarter; it
compares lengths only with each other.  Layouts are computed in double precision; the same
definitions read over the rationals give the exact geometry.
-/

namespace SequenceChart

/-- What a layout asks of lengths. -/
class Measure (α : Type) where
  zero : α
  add : α → α → α
  /-- so many times a unit -/
  times : Nat → α → α
  /-- a length and a quarter of it -/
  quarterMore : α → α
  /-- the length is no length at all -/
  isZero : α → Bool
  less : α → α → Bool

namespace Measure

variable {α : Type} [Measure α]

/-- The length is negative. -/
def isNegative (x : α) : Bool := less x zero

/-- The greatest of some lengths: the first stays unless a later one exceeds it. -/
def greatest : List α → α
  | [] => zero
  | x :: rest => rest.foldl (fun best y => if less best y then y else best) x

end Measure

instance : Measure Float where
  zero := 0.0
  add := Float.add
  times n unit := Float.ofNat n * unit
  quarterMore x := x * 1.25
  isZero x := x == 0.0
  less x y := x < y

instance : Measure Rat where
  zero := 0
  add x y := x + y
  times n unit := n * unit
  quarterMore x := x * (5 / 4)
  isZero x := x = 0
  less x y := x < y

end SequenceChart
