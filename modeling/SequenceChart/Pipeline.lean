import SequenceChart.Geometry.Layout
import SequenceChart.Source.Reading
import SequenceChart.Source.Scanner
set_option autoImplicit false

/-!
# From source lines to a layout

Lines are taken one at a time: the tokens of a line are read into the document before the next line
is looked at.  So of several faults the first in the source is reported, and what stands behind it
is never taken.  What is logged on the way is no part of the answer and is left out.
-/

namespace SequenceChart

/-- Why a source has no chart. -/
inductive SourceFault where
  | scan (why : Scanner.Refusal)
  | syntax_ (why : SyntaxFault)
  deriving DecidableEq, Repr, Inhabited

namespace Reading

/-- Reads the tokens of one line. -/
def pushAll (r : Reading) (tokens : List Token) : Except SyntaxFault Reading :=
  tokens.foldlM push r

end Reading

namespace Chart

/-- Goes on reading lines, and hands back the lines not taken. -/
def takeLines (s : Scanner) (r : Reading) :
    List (List Char) → Except SourceFault Chart × List (List Char)
  | [] =>
    match s.close.1 with
    | .error why => (.error (.scan why), [])
    | .ok t =>
      match r.push t with
      | .error why => (.error (.syntax_ why), [])
      | .ok r => (.ok (ofItems r.items), [])
  | line :: rest =>
    match s.feed line with
    | (.error why, _) => (.error (.scan why), rest)
    | (.ok tokens, s) =>
      match r.pushAll tokens with
      | .error why => (.error (.syntax_ why), rest)
      | .ok r => takeLines s r rest

/-- The chart of source lines, and the lines that were not needed to tell that there is none. -/
def ofLines (lines : List (List Char)) : Except SourceFault Chart × List (List Char) :=
  takeLines {} {} lines

/-- The chart of a source that is scanned as a whole before it is read. -/
def ofSource (source : String) : Except SourceFault Chart :=
  match tokenize source with
  | .error why => .error (.scan why)
  | .ok tokens =>
    match ofTokens tokens with
    | .error why => .error (.syntax_ why)
    | .ok chart => .ok chart

end Chart

/-- Why a source has no layout. -/
inductive BuildFault (α : Type) where
  | source (why : SourceFault)
  | halted (why : Shrinking α)
  deriving DecidableEq, Repr

namespace Layout

variable {α : Type} [Measure α]

/-- The layout of source lines, and the lines not taken. -/
def ofLines (settings : Settings α) (lines : List (List Char)) :
    Except (BuildFault α) (Layout α) × List (List Char) :=
  match Chart.ofLines lines with
  | (.error why, unread) => (.error (.source why), unread)
  | (.ok chart, unread) =>
    match ofChart settings chart with
    | .error halt => (.error (.halted halt.cause), unread)
    | .ok layout => (.ok layout, unread)

/-- The layout of a source text. -/
def ofSource (settings : Settings α) (source : String) : Except (BuildFault α) (Layout α) :=
  (ofLines settings (Text.lines source.toList)).1

end Layout

end SequenceChart
