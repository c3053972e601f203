import SequenceChart.Artifact.Basic
import SequenceChart.Json.Compare
import SequenceChart.Json.Writer
set_option autoImplicit false

/-!
# Asking a stored layout

The questions that a layout answers can be asked of a stored one.  Its fields are unchecked, so an
answer can fail: a place may be out of range or no place at all, and lengths may be no numbers.
-/

namespace SequenceChart

namespace Artifact

/-- The place of the first lifeline of a name. -/
def lifelineIndex? (a : Artifact) (name : String) : Option Nat :=
  a.lifelines.findIdx? fun l => l.name.equal (.string name)

/-- The innermost open box of a lifeline. -/
def Lifeline.activeBox (l : Lifeline) : Option Json := l.openBoxes.getLast?

/-- The lower end of a box. -/
def Box.bottom (b : Box) : Except Json.Mismatch Json := b.start.add b.height

/-- The lowest point that a box of the lifeline reaches. -/
def Lifeline.extent (l : Lifeline) : Except Json.Mismatch Json := do
  match l.boxes with
  | [] => return .float 0.0
  | first :: rest =>
    -- the lower ends are asked for one by one, each before it is compared
    let start ← first.bottom
    rest.foldlM (fun best b => do
      let bottom ← b.bottom
      return if ← bottom.exceeds best then bottom else best) start

/-- Why the extent of a lifeline is not told: it has none, or it has too many digits. -/
inductive NoExtent where
  | mismatch (why : Json.Mismatch)
  | tooLong
  deriving DecidableEq, Repr, Inhabited

/-- The wording of an extent that is not told. -/
def NoExtent.message : NoExtent → String
  | mismatch why => why.message
  | tooLong => Decimal.unshownText

/-- The extent of the lifeline in a message. -/
def Lifeline.extentText (l : Lifeline) : Except NoExtent String :=
  match l.extent with
  | .error why => .error (.mismatch why)
  | .ok (.int n) =>
    match Decimal.shownInt? n with
    | some digits => .ok (String.ofList digits)
    | none => .error .tooLong
  | .ok v => .ok v.describe

/-- Why a value names no member of a list: it is no integer, or a position without a place. -/
inductive BadPlace where
  | noInteger
  | noPlace (why : NoPlace)
  deriving DecidableEq, Repr, Inhabited

/-- The wording of a bad place. -/
def BadPlace.message : BadPlace → String
  | noInteger => "a place that is no integer"
  | noPlace why => why.message

/-- The member of a list at the position that a value is. -/
def memberAt {α : Type} (members : List α) (position : Json) : Except BadPlace α :=
  match position.asInt? with
  | none => .error .noInteger
  | some n =>
    match SequenceChart.memberAt members n with
    | .ok (_, member) => .ok member
    | .error why => .error (.noPlace why)

/-- The box that an anchor stands at, if it stands at one. -/
def anchorBox (a : Artifact) (anchor : Anchor) : Except BadPlace (Option Box) :=
  match anchor.box with
  | none => .ok none
  | some place => do
    let line ← memberAt a.lifelines anchor.lifeline
    return some (← memberAt line.boxes place)

/-! ## Equality -/

def Box.equal (b c : Box) : Bool :=
  b.start.equal c.start && b.width.equal c.width && b.height.equal c.height
    && b.inset.equal c.inset

/-- Two lists are equal member by member. -/
def equalLists {α : Type} (eq : α → α → Bool) : List α → List α → Bool
  | [], [] => true
  | x :: xs, y :: ys => eq x y && equalLists eq xs ys
  | _, _ => false

/-- Two optional values are both absent or equal. -/
def equalOptions (v w : Option Json) : Bool :=
  match v, w with
  | none, none => true
  | some v, some w => v.equal w
  | _, _ => false

def Lifeline.equal (l m : Lifeline) : Bool :=
  l.name.equal m.name && equalLists Box.equal l.boxes m.boxes
    && Json.equalItems l.openBoxes m.openBoxes

def Anchor.equal (a b : Anchor) : Bool :=
  a.lifeline.equal b.lifeline && equalOptions a.box b.box && a.y.equal b.y

def Arrow.equal (a b : Arrow) : Bool :=
  a.start.equal b.start && a.finish.equal b.finish && equalOptions a.label b.label
    && a.dotted = b.dotted

/-- The stored layouts are equal; numbers count by their value, so one that is no number equals
nothing. -/
def equal (a b : Artifact) : Bool :=
  equalLists Lifeline.equal a.lifelines b.lifelines
    && equalLists Arrow.equal a.arrows b.arrows && a.height.equal b.height

end Artifact

end SequenceChart
