import SequenceChart.Yaml.Moment
import SequenceChart.Yaml.Pattern
set_option autoImplicit false

/-!
# Tags

The tag of a node says what kind of value it has.  A plain scalar without a tag that is written like
a truth value, a number, a time or nothing at all has that tag, and every other one is a text.
-/

namespace SequenceChart.Yaml

/-- The tags that are known.  A merge key takes in the entries of other mappings, and a value key
gives a mapping the value of a scalar. -/
inductive Tag where
  | null
  | bool
  | int
  | float
  | binary
  | timestamp
  | omap
  | pairs
  | set
  | str
  | seq
  | map
  | merge
  | value
  | unknown
  deriving DecidableEq, Repr, Inhabited

namespace Tag

/-- What the texts of the known tags have in front of their names. -/
def stem : String := "tag:yaml.org,2002:"

/-- The names of the known tags. -/
def names : List (String × Tag) := [
  ("null", null), ("bool", bool), ("int", int), ("float", float), ("binary", binary),
  ("timestamp", timestamp), ("omap", omap), ("pairs", pairs), ("set", set), ("str", str),
  ("seq", seq), ("map", map), ("merge", merge), ("value", value)]

/-- The tag that a text names. -/
def ofText (cs : List Char) : Tag :=
  ((names.find? fun entry => (stem ++ entry.1).toList = cs).map Prod.snd).getD unknown

/-- The words for truth values. -/
def boolWords : List String := [
  "yes", "Yes", "YES", "no", "No", "NO", "true", "True", "TRUE", "false", "False", "FALSE",
  "on", "On", "ON", "off", "Off", "OFF"]

/-- The words for no value. -/
def nullWords : List String := ["~", "null", "Null", "NULL"]

/-- The text without one line feed at its end, which does no harm after a word or a number. -/
def trimBreak (cs : List Char) : List Char := if cs.getLast? = some '\n' then cs.dropLast else cs

/-- The tag of a plain scalar without a tag. -/
def ofPlain (text : List Char) : Tag :=
  let cs := trimBreak text
  let word := String.ofList cs
  if boolWords.contains word then bool
  else if Pattern.isFloat cs then float
  else if Pattern.isInt cs then int
  else if word = "<<" then merge
  else if text.isEmpty || nullWords.contains word then null
  else if Stamp.isPlain cs then timestamp
  else if word = "=" then value
  else if ["!", "&", "*"].contains word then unknown
  else str

end Tag

end SequenceChart.Yaml
