set_option autoImplicit false

/-!
# Positions counted from either end

A position that is not negative counts from the start of a list, a negative one from its end.  A
position beyond 64 bits names no place of any list.
-/

namespace SequenceChart

/-- Why a position names no place: there is none, or there cannot be any. -/
inductive NoPlace where
  | outOfRange
  | tooLarge
  deriving DecidableEq, Repr, Inhabited

/-- The wording of a position without a place. -/
def NoPlace.message : NoPlace → String
  | outOfRange => "list index out of range"
  | tooLarge => "cannot fit 'int' into an index-sized integer"

/-- The member of a list at a position. -/
def memberAt {α : Type} (members : List α) (position : Int) : Except NoPlace (Nat × α) :=
  if position < -9223372036854775808 || 9223372036854775808 ≤ position then .error .tooLarge
  else
    let place := if position < 0 then position + members.length else position
    if place < 0 then .error .outOfRange
    else match members[place.toNat]? with
      | some member => .ok (place.toNat, member)
      | none => .error .outOfRange

end SequenceChart
