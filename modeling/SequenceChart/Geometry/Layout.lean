import SequenceChart.Chart.Basic
import SequenceChart.Geometry.Lifeline
set_option autoImplicit false

/-!
# Laying out a chart

A layout is built from the signals at the top level of a chart, in document order.  One cursor, the
height, is shared by all lifelines: whenever it moves on, every open box of every lifeline grows by
the same amount.  A signal moves it by a margin, then by the height of a loop if it is a self
signal, then by another margin; it closes a box of its source before the loop and opens a box of
its target after it.
-/

namespace SequenceChart

/-- The sizes that a layout is scaled by. -/
structure Settings (α : Type) where
  fontSize : α
  boxWidth : α
  boxInset : α
  deriving DecidableEq, Repr, Inhabited

namespace Settings

variable {α : Type} [Measure α]

/-- The space above a signal. -/
def topMargin (s : Settings α) : α := Measure.quarterMore s.fontSize

/-- The height of the loop of a self signal. -/
def loopHeight (s : Settings α) : α := s.fontSize

/-- The space below a signal. -/
def bottomMargin (s : Settings α) : α := s.fontSize

/-- The sizes where none are given. -/
def default : Settings Float := ⟨16.0, 32.0, 8.0⟩

end Settings

/-- One end of an arrow: a lifeline, a box of it if one is open there, and a height. -/
structure Anchor (α : Type) where
  lifeline : Nat
  box : Option Nat
  y : α
  deriving DecidableEq, Repr, Inhabited

/-- A drawn signal. -/
structure Arrow (α : Type) where
  start : Anchor α
  finish : Anchor α
  label : Option String
  dotted : Bool
  deriving DecidableEq, Repr, Inhabited

/-- The geometry of a chart: its lifelines in the order of their first signal, its arrows in
document order and the height reached. -/
structure Layout (α : Type) where
  lifelines : List (Lifeline α)
  arrows : List (Arrow α)
  height : α
  deriving DecidableEq, Repr, Inhabited

namespace Layout

/-- The place of the lifeline of a name. -/
def lifelineIndex? {α : Type} (l : Layout α) (name : String) : Option Nat :=
  l.lifelines.findIdx? fun line => line.name = name

/-- The lifeline of a name. -/
def lifeline? {α : Type} (l : Layout α) (name : String) : Option (Lifeline α) :=
  l.lifelines.find? fun line => line.name = name

/-- The box that an anchor stands at. -/
def anchorBox? {α : Type} (l : Layout α) (a : Anchor α) : Option (Box α) := do
  let line ← l.lifelines[a.lifeline]?
  line.boxes[← a.box]?

/-- The place of the lifeline of a name, which is added if there is none. -/
def lifelineFor {α : Type} (l : Layout α) (name : String) : Nat × Layout α :=
  match l.lifelineIndex? name with
  | some i => (i, l)
  | none => (l.lifelines.length, { l with lifelines := l.lifelines ++ [{ name }] })

/-- Changes one lifeline. -/
def modifyLifeline {α : Type} (l : Layout α) (i : Nat) (f : Lifeline α → Lifeline α) : Layout α :=
  { l with lifelines := l.lifelines.modify i f }

/-- The innermost open box of a lifeline. -/
def activeBox {α : Type} (l : Layout α) (i : Nat) : Option Nat :=
  l.lifelines[i]?.bind Lifeline.activeBox

variable {α : Type} [Measure α]

/-- The layout of no signals. -/
def empty : Layout α := ⟨[], [], Measure.zero⟩

/-- Lengthens the open boxes of lifelines, one lifeline after the other. -/
def growLifelines (amount : α) : List (Lifeline α) →
    Except (Halted (Shrinking α) (List (Lifeline α))) (List (Lifeline α))
  | [] => .ok []
  | line :: rest =>
    match line.grow amount with
    | .error halt => .error ⟨halt.cause, halt.left :: rest⟩
    | .ok line =>
      match growLifelines amount rest with
      | .error halt => .error ⟨halt.cause, line :: halt.left⟩
      | .ok rest => .ok (line :: rest)

/-- Moves the cursor on. -/
def grow (l : Layout α) (amount : α) : Except (Halted (Shrinking α) (Layout α)) (Layout α) :=
  if Measure.isZero amount then .ok l
  else
    match growLifelines amount l.lifelines with
    | .error halt => .error ⟨halt.cause, { l with lifelines := halt.left }⟩
    | .ok lifelines => .ok { l with lifelines, height := Measure.add l.height amount }

/-- An end of an arrow at the cursor. -/
def anchorAt (l : Layout α) (i : Nat) : Anchor α := ⟨i, l.activeBox i, l.height⟩

/-- Lays out one more signal; `resolve` gives the participants behind its two written names. -/
def place (settings : Settings α) (resolve : String → String) (l : Layout α) (s : Signal) :
    Except (Halted (Shrinking α) (Layout α)) (Layout α) := do
  let (source, l) := l.lifelineFor (resolve s.source)
  let (target, l) := l.lifelineFor (resolve s.target)
  let l ← l.grow settings.topMargin
  let start := l.anchorAt source
  let l := if s.deactivates then l.modifyLifeline source Lifeline.deactivate else l
  let l ← l.grow (if s.isSelfSignal then settings.loopHeight else Measure.zero)
  let l :=
    if s.activates then
      l.modifyLifeline target fun line =>
        line.activate l.height settings.boxWidth settings.boxInset
    else l
  let finish := l.anchorAt target
  let l ← l.grow settings.bottomMargin
  return { l with arrows := l.arrows ++ [⟨start, finish, s.message, s.dotted⟩] }

/-- The layout of a chart, or the layout reached when a step halted. -/
def ofChart (settings : Settings α) (c : Chart) :
    Except (Halted (Shrinking α) (Layout α)) (Layout α) :=
  c.topSignals.foldlM (place settings c.resolve) empty

end Layout

end SequenceChart
