import SequenceChart.Geometry.Measure
import SequenceChart.Geometry.SignedIndex
set_option autoImplicit false

/-!
# Lifelines and activation boxes

A lifeline has activation boxes in the order of their creation; some of them are open, nested in
each other.  Growing a lifeline lengthens every open box.  A box never shrinks: a step that would
shrink one stops there and leaves what it has changed so far.
-/

namespace SequenceChart

/-- A step that stopped: why it did, and the state in which it left things. -/
structure Halted (ε σ : Type) where
  cause : ε
  left : σ
  deriving DecidableEq, Repr

/-- The refusal to lengthen a box by a negative amount. -/
structure Shrinking (α : Type) where
  amount : α
  deriving DecidableEq, Repr

/-- A span of activity: where it starts, how wide and how long it is, and how far it stands in. -/
structure Box (α : Type) where
  start : α
  width : α
  height : α
  inset : α
  deriving DecidableEq, Repr, Inhabited

namespace Box

variable {α : Type} [Measure α]

/-- The lower end of a box. -/
def bottom (b : Box α) : α := Measure.add b.start b.height

/-- Lengthens a box. -/
def grow (b : Box α) (amount : α) : Except (Shrinking α) (Box α) :=
  if Measure.isNegative amount then .error ⟨amount⟩
  else .ok { b with height := Measure.add b.height amount }

end Box

/-- The timeline of one participant.  `openStack` holds the places of the open boxes, the innermost
first. -/
structure Lifeline (α : Type) where
  name : String
  boxes : List (Box α) := []
  openStack : List Nat := []
  deriving DecidableEq, Repr, Inhabited

namespace Lifeline

/-- The places of the open boxes, the innermost last. -/
def openBoxes {α : Type} (l : Lifeline α) : List Nat := l.openStack.reverse

/-- The place of the innermost open box. -/
def activeBox {α : Type} (l : Lifeline α) : Option Nat := l.openStack.head?

/-- Closes the innermost open box. -/
def deactivate {α : Type} (l : Lifeline α) : Lifeline α := { l with openStack := l.openStack.tail }

/-- Adds a box that is not open. -/
def addBox {α : Type} (l : Lifeline α) (b : Box α) : Lifeline α :=
  { l with boxes := l.boxes ++ [b] }

variable {α : Type} [Measure α]

/-- The lowest point that any box reaches. -/
def extent (l : Lifeline α) : α := Measure.greatest (l.boxes.map Box.bottom)

/-- Opens a box of no height inside the boxes that are open already. -/
def activate (l : Lifeline α) (start width insetUnit : α) : Lifeline α :=
  { l with
    boxes := l.boxes ++
      [⟨start, width, Measure.zero, Measure.times l.openStack.length insetUnit⟩]
    openStack := l.boxes.length :: l.openStack }

/-- Lengthens the boxes at some places, one after the other. -/
def growBoxes (amount : α) :
    List Nat → List (Box α) → Except (Halted (Shrinking α) (List (Box α))) (List (Box α))
  | [], boxes => .ok boxes
  | i :: rest, boxes =>
    match boxes[i]? with
    | none => growBoxes amount rest boxes
    | some box =>
      match box.grow amount with
      | .error cause => .error ⟨cause, boxes⟩
      | .ok box => growBoxes amount rest (boxes.set i box)

/-- Lengthens every open box. -/
def grow (l : Lifeline α) (amount : α) :
    Except (Halted (Shrinking α) (Lifeline α)) (Lifeline α) :=
  match growBoxes amount l.openBoxes l.boxes with
  | .error halt => .error ⟨halt.cause, { l with boxes := halt.left }⟩
  | .ok boxes => .ok { l with boxes }

/-- Why one box was not lengthened: there is none at the place, or it would shrink. -/
inductive BoxRefusal (α : Type) where
  | missing (why : NoPlace)
  | shrinking (why : Shrinking α)
  deriving DecidableEq, Repr

/-- Lengthens the box at a position counted from either end. -/
def growBox (l : Lifeline α) (position : Int) (amount : α) :
    Except (BoxRefusal α) (Lifeline α) :=
  match memberAt l.boxes position with
  | .error why => .error (.missing why)
  | .ok (i, box) =>
    match box.grow amount with
    | .error why => .error (.shrinking why)
    | .ok box => .ok { l with boxes := l.boxes.set i box }

end Lifeline

end SequenceChart
