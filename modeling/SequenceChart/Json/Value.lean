import SequenceChart.Decimal.Numeral
set_option autoImplicit false

/-!
# JSON values

A value keeps what its text says: integers of any size apart from doubles, and the members of an
object in order, repeated names included.  `distinct` settles repetitions: the last value counts
and stands at the first place.
-/

namespace SequenceChart

/-- A JSON value. -/
inductive Json where
  | null
  | bool (b : Bool)
  | int (n : Int)
  | float (x : Float)
  | string (s : String)
  | array (items : List Json)
  | object (members : List (String × Json))

namespace Json

instance : Inhabited Json := ⟨null⟩

/-- The last value under a name among members. -/
def lookup? (name : String) (members : List (String × Json)) : Option Json :=
  (members.reverse.find? fun member => member.1 = name).map Prod.snd

/-- Gives a name a value: at its first place if it has one, otherwise at the end. -/
def putMember (name : String) (value : Json) : List (String × Json) → List (String × Json)
  | [] => [(name, value)]
  | member :: rest =>
    if member.1 = name then (name, value) :: rest else member :: putMember name value rest

/-- Members with one value for each name. -/
def mergeMembers (members : List (String × Json)) : List (String × Json) :=
  members.foldl (fun done member => putMember member.1 member.2 done) []

mutual

/-- The value with one value for each name in every object. -/
def distinct : Json → Json
  | array items => array (distinctItems items)
  | object members => object (mergeMembers (distinctMembers members))
  | other => other

/-- Items with one value for each name in every object. -/
def distinctItems : List Json → List Json
  | [] => []
  | item :: rest => item.distinct :: distinctItems rest

/-- Members whose values have one value for each name in every object. -/
def distinctMembers : List (String × Json) → List (String × Json)
  | [] => []
  | (name, value) :: rest => (name, value.distinct) :: distinctMembers rest

end

/-- The value counts as true where a truth value is wanted: it is not empty and not zero. -/
def isTruthy : Json → Bool
  | null => false
  | bool b => b
  | int n => n ≠ 0
  | float x => !(x == 0.0)
  | string s => s ≠ ""
  | array items => !items.isEmpty
  | object members => !members.isEmpty

end Json

end SequenceChart
