import SequenceChart.Geometry.Layout
import SequenceChart.Text.Basic
import SequenceChart.Yaml.Document
set_option autoImplicit false

/-!
# Reading settings from a file

The file is a YAML mapping from the names of sizes to positive numbers.  A size that it leaves out
has its default, and an empty file leaves out all of them.  Unknown names are refused before any
size is looked at, and the sizes are looked at in the order of the file.  What the text of the file
holds is told by a reader of YAML texts, which is a parameter.
-/

namespace SequenceChart

namespace Settings

/-- The sizes that a file may give. -/
inductive Size where
  | fontSize
  | boxWidth
  | boxInset
  deriving DecidableEq, Repr, Inhabited

namespace Size

/-- All sizes. -/
def all : List Size := [fontSize, boxWidth, boxInset]

/-- The name of a size in a file. -/
def name : Size → String
  | fontSize => "font-size"
  | boxWidth => "box-width"
  | boxInset => "box-inset"

/-- The size of a name. -/
def ofName? (name : String) : Option Size := all.find? fun size => size.name = name

/-- The size that a key of a mapping names. -/
def ofKey? : Yaml.Scalar → Option Size
  | .text name => ofName? name
  | _ => none

end Size

/-- Changes one size. -/
def set {α : Type} (s : Settings α) (size : Size) (x : α) : Settings α :=
  match size with
  | .fontSize => { s with fontSize := x }
  | .boxWidth => { s with boxWidth := x }
  | .boxInset => { s with boxInset := x }

/-- What is wrong with the value of a size. -/
inductive SizeProblem where
  | noNumber
  | notFinite
  | notPositive
  deriving DecidableEq, Repr, Inhabited

/-- The wording of a problem. -/
def SizeProblem.text : SizeProblem → String
  | noNumber => "must be a number"
  | notFinite => "must be finite"
  | notPositive => "must be positive"

/-- Why a file is refused. -/
inductive Refusal where
  | missing
  | directory
  | malformed
  | noMapping
  | unknownNames (names : List String)
  | size (which : Size) (problem : SizeProblem)
  deriving DecidableEq, Repr, Inhabited

/-- The wording of a refusal of the file at a path. -/
def Refusal.message (path : String) : Refusal → String
  | missing => "Layout config file not found: " ++ path
  | directory => "Cannot read layout config file: [Errno 21] Is a directory: '" ++ path ++ "'"
  | malformed => "Invalid YAML in " ++ path
  | noMapping => path ++ ": layout config must be a YAML mapping"
  | unknownNames names => path ++ ": unknown layout setting(s): " ++ ", ".intercalate names
  | size which problem => path ++ ": '" ++ which.name ++ "' " ++ problem.text

/-- Why a file gives no settings: it is refused, its bytes are no text, a scalar in it has no value,
an unknown name cannot be shown, or a size is too large for a double. -/
inductive Fault where
  | refused (why : Refusal)
  | encoding (why : Text.Utf8Fault)
  | scalar (why : Yaml.Fault)
  | longName
  | largeSize
  deriving DecidableEq, Repr, Inhabited

/-- The wording of a fault in the file at a path. -/
def Fault.message (path : String) : Fault → String
  | refused why => why.message path
  | encoding why => why.message
  | scalar why => why.message
  | longName => Decimal.unshownText
  | largeSize => "int too large to convert to float"

/-- The double of a value that is given for a size. -/
def sizeOf (which : Size) : Yaml.Value → Except Fault Float
  | .scalar (.int n) =>
    match Decimal.ofInt? n with
    | none => .error .largeSize
    | some x => if 0 < n then .ok x else .error (.refused (.size which .notPositive))
  | .scalar (.float x) =>
    if Decimal.infinityBits ≤ Decimal.magnitude x then .error (.refused (.size which .notFinite))
    else if 0 < x then .ok x
    else .error (.refused (.size which .notPositive))
  | _ => .error (.refused (.size which .noNumber))

/-- The keys of a mapping that name no size, in the words of a message. -/
def unknownNames (entries : List (Yaml.Scalar × Yaml.Value)) : Except Fault (List String) :=
  (entries.filter fun e => (Size.ofKey? e.1).isNone).mapM fun e =>
    match e.1.shown? with
    | some name => .ok name
    | none => .error .longName

/-- Gives a size the value of an entry that names one. -/
def enter (s : Settings Float) (e : Yaml.Scalar × Yaml.Value) : Except Fault (Settings Float) :=
  match Size.ofKey? e.1 with
  | none => .ok s
  | some which => do return s.set which (← sizeOf which e.2)

/-- The settings that a document holds. -/
def ofDocument : Yaml.Document → Except Fault (Settings Float)
  | .other (.scalar .null) => .ok Settings.default
  | .other _ => .error (.refused .noMapping)
  | .mapping m => do
    let names ← unknownNames m.entries
    if names.isEmpty then m.entries.foldlM enter Settings.default
    else throw (.refused (.unknownNames (names.mergeSort fun a b => a ≤ b)))

/-- What is found at the path of a file. -/
inductive File where
  | missing
  | directory
  | bytes (bs : List UInt8)
  deriving DecidableEq, Repr, Inhabited

/-- The settings in a file whose text is given to a reader. -/
def ofFile (file : File) (read : Yaml.Reader := Yaml.Document.ofText) :
    Except Fault (Settings Float) :=
  match file with
  | .missing => .error (.refused .missing)
  | .directory => .error (.refused .directory)
  | .bytes bs =>
    match Text.decodeUtf8 bs with
    | .error why => .error (.encoding why)
    | .ok cs =>
      match read (Text.normalizeBreaks cs) with
      | .error .malformed => .error (.refused .malformed)
      | .error why => .error (.scalar why)
      | .ok d => ofDocument d

end Settings

end SequenceChart
