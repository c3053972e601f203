import SequenceChart.Json.Value
set_option autoImplicit false

/-!
# Comparing and adding JSON values

Numbers are compared by their exact value, whether they are integers or doubles, and truth values
count as zero and one.  Strings and arrays are compared item by item, objects by their members.  A
double that is no number equals nothing, except another one as an item or as a member.
-/

namespace SequenceChart

namespace Json

/-- The integer of a value that counts as one. -/
def asInt? : Json → Option Int
  | int n => some n
  | bool b => some (if b then 1 else 0)
  | _ => none

/-- The order of two numbers; a double that is no number has none. -/
def compareNumbers : Json → Json → Option Ordering
  | float x, float y =>
    if x < y then some .lt else if x == y then some .eq else if y < x then some .gt else none
  | float x, other => do
    let n ← other.asInt?
    if x == x then some (Decimal.compareInt n x).swap else none
  | other, float y => do
    let n ← other.asInt?
    if y == y then some (Decimal.compareInt n y) else none
  | v, w => do return compare (← v.asInt?) (← w.asInt?)

/-- The value is a double that is no number. -/
def isNaN : Json → Bool
  | float x => !(x == x)
  | _ => false

mutual

/-- The values are equal. -/
def equal : Json → Json → Bool
  | null, null => true
  | string s, string t => s = t
  | array items, array items₂ => equalItems items items₂
  | object members, object members₂ =>
    members.length = members₂.length && equalMembers members members₂
  | v, w => compareNumbers v w = some .eq

/-- The items are equal one by one. -/
def equalItems : List Json → List Json → Bool
  | [], [] => true
  | item :: rest, item₂ :: rest₂ =>
    (item.equal item₂ || (item.isNaN && item₂.isNaN)) && equalItems rest rest₂
  | _, _ => false

/-- Every member has an equal value under its name among the others. -/
def equalMembers : List (String × Json) → List (String × Json) → Bool
  | [], _ => true
  | (name, value) :: rest, members₂ =>
    (match lookup? name members₂ with
      | some value₂ => value.equal value₂ || (value.isNaN && value₂.isNaN)
      | none => false) && equalMembers rest members₂

end

/-- Why values cannot be added or compared: their kinds do not go together, or an integer is too
large for a double. -/
inductive Mismatch where
  | kinds
  | largeInteger
  deriving DecidableEq, Repr, Inhabited

/-- The wording of a mismatch. -/
def Mismatch.message : Mismatch → String
  | kinds => "values of different kinds"
  | largeInteger => "int too large to convert to float"

/-- The value as a double. -/
def asFloat : Json → Except Mismatch Float
  | float x => .ok x
  | other =>
    match other.asInt? with
    | none => .error .kinds
    | some n =>
      match Decimal.ofInt? n with
      | some x => .ok x
      | none => .error .largeInteger

/-- The sum of two numbers, which is an integer if both are; strings and arrays are joined. -/
def add : Json → Json → Except Mismatch Json
  | string s, string t => .ok (string (s ++ t))
  | array items, array items₂ => .ok (array (items ++ items₂))
  | v, w =>
    match v.asInt?, w.asInt? with
    | some n, some m => .ok (int (n + m))
    | _, _ => do
      if (v matches float _) || (w matches float _) then
        let x ← v.asFloat
        let y ← w.asFloat
        return float (x + y)
      else throw .kinds

/-- The value counts as a number. -/
def isNumber : Json → Bool
  | float _ => true
  | other => other.asInt?.isSome

mutual

/-- The first value comes after the second one. -/
def exceeds : Json → Json → Except Mismatch Bool
  | string s, string t => .ok (t < s)
  | array items, array items₂ => exceedsItems items items₂
  | v, w =>
    if v.isNumber && w.isNumber then .ok (compareNumbers v w = some .gt) else .error .kinds

/-- The first items come after the second ones. -/
def exceedsItems : List Json → List Json → Except Mismatch Bool
  | [], _ => .ok false
  | _ :: _, [] => .ok true
  | item :: rest, item₂ :: rest₂ =>
    if item.equal item₂ || (item.isNaN && item₂.isNaN) then exceedsItems rest rest₂
    else item.exceeds item₂

end

end Json

end SequenceChart
