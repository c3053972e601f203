import SequenceChart.Chart.Basic
import SequenceChart.Json.Value
set_option autoImplicit false

/-!
# Charts as JSON values

A chart has every field in its value, absent ones as null, in the order of their declaration; each
statement names its kind first.
-/

namespace SequenceChart

namespace ArrowEnd

/-- The word for the shape of an arrow's end. -/
def text : ArrowEnd → String
  | closed => "closed"
  | open_ => "open"

/-- The shape that a word names. -/
def ofText? (word : String) : Option ArrowEnd :=
  if word = "closed" then some closed else if word = "open" then some open_ else none

end ArrowEnd

namespace BlockLabel

/-- The label that a word names. -/
def ofText? (word : String) : Option BlockLabel :=
  if word = "opt" then some opt
  else if word = "alt" then some alt
  else if word = "else" then some else_
  else none

end BlockLabel

/-- A text or null. -/
def Json.ofOption (text : Option String) : Json := text.elim .null .string

/-- A table as an object. -/
def Table.toJson (t : Table) : Json := .object (t.entries.map fun e => (e.1, .string e.2))

def Signal.toJson (s : Signal) : Json :=
  .object [("kind", .string "signal"), ("source", .string s.source), ("target", .string s.target),
    ("tail", Json.ofOption (s.tail.map ArrowEnd.text)),
    ("head", Json.ofOption (s.head.map ArrowEnd.text)), ("dotted", .bool s.dotted),
    ("message", Json.ofOption s.message), ("activates", .bool s.activates),
    ("deactivates", .bool s.deactivates)]

mutual

def Statement.toJson : Statement → Json
  | .signal s => s.toJson
  | .block b => b.toJson
  | .group branches =>
    .object [("kind", .string "alt_group"), ("blocks", .array (Block.listToJson branches))]

def Block.toJson : Block → Json
  | ⟨label, condition, body⟩ =>
    .object [("kind", .string "block"), ("label", .string label.text),
      ("condition", Json.ofOption condition), ("statements", .array (Statement.listToJson body))]

def Statement.listToJson : List Statement → List Json
  | [] => []
  | s :: rest => s.toJson :: Statement.listToJson rest

def Block.listToJson : List Block → List Json
  | [] => []
  | b :: rest => b.toJson :: Block.listToJson rest

end

namespace Chart

def toJson (c : Chart) : Json :=
  .object [("title", Json.ofOption c.title),
    ("statements", .array (Statement.listToJson c.statements)),
    ("participants", c.participants.toJson), ("aliases", c.aliases.toJson)]

end Chart

end SequenceChart
