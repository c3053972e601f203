import SequenceChart.Artifact.Basic
import SequenceChart.Json.Reader
import SequenceChart.Json.Writer
import SequenceChart.Text.Basic
import SequenceChart.Text.Utf8
set_option autoImplicit false

/-!
# The text of a stored layout

A stored layout is one line of printable ASCII: a JSON object with its version, its height, its
lifelines and its arrows.  What is empty or absent is left out: a lifeline without open boxes, an
anchor without a box, an arrow without a label or with an unbroken line.  A stored layout with an
integer that has too many digits to be shown has no text.  Reading takes what it finds under the
names it knows and demands only the names that writing always writes.
-/

namespace SequenceChart

namespace Artifact

/-- The version that is written and the only one that is read. -/
def formatVersion : String := "1"

/-! ## Writing -/

def Box.toJson (b : Box) : Json :=
  .object [("start", b.start), ("width", b.width), ("height", b.height), ("inset", b.inset)]

def Lifeline.toJson (l : Lifeline) : Json :=
  .object ([("name", l.name), ("boxes", .array (l.boxes.map Box.toJson))]
    ++ if l.openBoxes.isEmpty then [] else [("open", .array l.openBoxes)])

def Anchor.toJson (a : Anchor) : Json :=
  .object ([("lifeline", a.lifeline), ("y", a.y)] ++ (a.box.toList.map fun box => ("box", box)))

def Arrow.toJson (a : Arrow) : Json :=
  .object ([("start", a.start.toJson), ("end", a.finish.toJson)]
    ++ (a.label.toList.map fun label => ("label", label))
    ++ if a.dotted then [("dotted", .bool true)] else [])

def toJson (a : Artifact) : Json :=
  .object [("v", .string formatVersion), ("height", a.height),
    ("lifelines", .array (a.lifelines.map Lifeline.toJson)),
    ("arrows", .array (a.arrows.map Arrow.toJson))]

/-- The characters of a stored layout, integers of any length included. -/
def encode (a : Artifact) : List Char := a.toJson.write Json.escapeAscii

/-- The text of a stored layout: its characters, unless an integer in it has too many digits. -/
def serialize (a : Artifact) : Except Json.Unwritable (List Char) :=
  a.toJson.dump Json.escapeAscii

/-! ## Reading -/

/-- Why a text is no stored layout.  A demanded name can be missing, or be demanded of a value
that has no names; an allowed name can be looked for in such a value; and a value can stand where a
list is wanted and be none. -/
inductive Fault where
  | text (why : Json.Fault)
  | version (found : Json)
  | missing (name : String)
  | noNames
  | noOptionalNames
  | noList

namespace Fault

def message : Fault → String
  | text why => why.message
  | version found => "Unsupported artifact format version: " ++ found.describe
  | missing name => Text.quoted name
  | noNames => "a value without names where a name is demanded"
  | noOptionalNames => "a value without names where a name is looked for"
  | noList => "a value that is no list"

end Fault

/-- The value under a name that must be there. -/
def demand (name : String) : Json → Except Fault Json
  | .object members =>
    match Json.lookup? name members with
    | some value => .ok value
    | none => .error (.missing name)
  | _ => .error .noNames

/-- The value under a name that may be there. -/
def allow (name : String) : Json → Except Fault (Option Json)
  | .object members => .ok (Json.lookup? name members)
  | _ => .error .noOptionalNames

/-- The elements of a value where a list is wanted: the characters of a string and the names of an
object count as its elements. -/
def elements : Json → Except Fault (List Json)
  | .array items => .ok items
  | .string s => .ok (s.toList.map fun c => .string (String.singleton c))
  | .object members => .ok (members.map fun member => .string member.1)
  | _ => .error .noList

/-- The elements under a name; none if the name is absent. -/
def elementsAt (name : String) (v : Json) : Except Fault (List Json) := do
  match ← allow name v with
  | none => return []
  | some value => elements value

/-- A value that counts as absent when it is null. -/
def present : Option Json → Option Json
  | some .null => none
  | other => other

def Box.ofJson (v : Json) : Except Fault Box := do
  return ⟨← demand "start" v, ← demand "width" v, ← demand "height" v, ← demand "inset" v⟩

def Lifeline.ofJson (v : Json) : Except Fault Lifeline := do
  let name ← demand "name" v
  let boxes ← (← elementsAt "boxes" v).mapM Box.ofJson
  return ⟨name, boxes, ← elementsAt "open" v⟩

def Anchor.ofJson (v : Json) : Except Fault Anchor := do
  let lifeline ← demand "lifeline" v
  let box ← allow "box" v
  return ⟨lifeline, present box, ← demand "y" v⟩

def Arrow.ofJson (v : Json) : Except Fault Arrow := do
  let start ← Anchor.ofJson (← demand "start" v)
  let finish ← Anchor.ofJson (← demand "end" v)
  let label ← allow "label" v
  let dotted ← allow "dotted" v
  return ⟨start, finish, present label, dotted.any Json.isTruthy⟩

def ofJson (v : Json) : Except Fault Artifact := do
  match ← allow "v" v with
  | some (.string version) =>
    if version ≠ formatVersion then throw (.version (.string version))
  | other => throw (.version (other.getD .null))
  let lifelines ← (← elementsAt "lifelines" v).mapM Lifeline.ofJson
  let arrows ← (← elementsAt "arrows" v).mapM Arrow.ofJson
  return ⟨lifelines, arrows, (← allow "height" v).getD (.float 0.0)⟩

/-- The stored layout that a text writes. -/
def decode (cs : List Char) : Except Fault Artifact :=
  match Json.ofText .integers cs with
  | .error why => .error (.text why)
  | .ok v => ofJson v.distinct

/-- Why a file holds no stored layout. -/
inductive FileFault where
  | encoding (why : Text.Utf8Fault)
  | content (why : Fault)

/-- The stored layout in a file of the given bytes. -/
def ofBytes (bytes : List UInt8) : Except FileFault Artifact :=
  match Text.decodeUtf8 bytes with
  | .error why => .error (.encoding why)
  | .ok cs =>
    match decode (Text.normalizeBreaks cs) with
    | .error why => .error (.content why)
    | .ok a => .ok a

/-- The bytes of the characters of a stored layout. -/
def toBytes (a : Artifact) : List UInt8 := Text.encodeUtf8 a.encode

/-- The bytes of a file that a stored layout is written to, if it has a text. -/
def fileBytes (a : Artifact) : Except Json.Unwritable (List UInt8) :=
  a.serialize.map Text.encodeUtf8

end Artifact

end SequenceChart
