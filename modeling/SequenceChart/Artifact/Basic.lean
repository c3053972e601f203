import SequenceChart.Geometry.Layout
import SequenceChart.Json.Value
set_option autoImplicit false

/-!
# Layouts as they are stored

A stored layout has the shape of a layout, but its fields are taken as they come: a number, a name
or a label may be any JSON value, and the places of open boxes any list of values.  Writing it back
therefore keeps what was read.
-/

namespace SequenceChart

namespace Artifact

/-- A stored box. -/
structure Box where
  start : Json
  width : Json
  height : Json
  inset : Json

/-- A stored lifeline; the innermost open box comes last. -/
structure Lifeline where
  name : Json
  boxes : List Box
  openBoxes : List Json

/-- A stored end of an arrow; its box may be absent. -/
structure Anchor where
  lifeline : Json
  box : Option Json
  y : Json

/-- A stored arrow; its label may be absent. -/
structure Arrow where
  start : Anchor
  finish : Anchor
  label : Option Json
  dotted : Bool

end Artifact

/-- A stored layout. -/
structure Artifact where
  lifelines : List Artifact.Lifeline
  arrows : List Artifact.Arrow
  height : Json

namespace Artifact

/-- A box to be stored. -/
def ofBox (b : SequenceChart.Box Float) : Box :=
  ⟨.float b.start, .float b.width, .float b.height, .float b.inset⟩

/-- A lifeline to be stored. -/
def ofLifeline (l : SequenceChart.Lifeline Float) : Lifeline :=
  ⟨.string l.name, l.boxes.map ofBox, l.openBoxes.map fun i : Nat => .int i⟩

/-- An end of an arrow to be stored. -/
def ofAnchor (a : SequenceChart.Anchor Float) : Anchor :=
  ⟨.int a.lifeline, a.box.map fun i : Nat => .int i, .float a.y⟩

/-- An arrow to be stored. -/
def ofArrow (a : SequenceChart.Arrow Float) : Arrow :=
  ⟨ofAnchor a.start, ofAnchor a.finish, a.label.map .string, a.dotted⟩

/-- A layout to be stored. -/
def ofLayout (l : Layout Float) : Artifact :=
  ⟨l.lifelines.map ofLifeline, l.arrows.map ofArrow, .float l.height⟩

end Artifact

end SequenceChart
