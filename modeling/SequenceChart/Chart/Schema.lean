import SequenceChart.Chart.Record
import SequenceChart.Json.Reader
import SequenceChart.Json.Writer
set_option autoImplicit false

/-!
# Charts from JSON text

A chart is read field by field.  A field that is absent has its default, unknown fields are passed
over, and the last of several fields of one name counts.  Every field is checked whatever the
others are, so a text yields either a chart or all of its issues, in the order of the fields.

Charts are stored by a `Chart.Codec`, and what is said of stored charts holds for every codec that
writes all fields and tells statements apart by their kinds.  The reading of this module and the
writing of `Chart/Record` make up the one that the library runs with.
-/

namespace SequenceChart

namespace Schema

/-- A step on the way to a value: a field or a place in a list. -/
inductive Step where
  | field (name : String)
  | item (place : Nat)
  deriving DecidableEq, Repr, Inhabited

/-- What is wrong with a value. -/
inductive Problem where
  | missing
  | noString
  | noBool
  | unclearBool
  | noList
  | noTable
  | noRecord
  | noLabel
  | noBlockKind
  | noArrowEnd
  | noKind
  | unknownKind (kind : String)
  deriving DecidableEq, Repr, Inhabited

namespace Problem

/-- The class of a problem. -/
def code : Problem → String
  | missing => "missing"
  | noString => "string_type"
  | noBool => "bool_type"
  | unclearBool => "bool_parsing"
  | noList => "list_type"
  | noTable => "dict_type"
  | noRecord => "model_type"
  | noLabel => "literal_error"
  | noBlockKind => "literal_error"
  | noArrowEnd => "enum"
  | noKind => "union_tag_not_found"
  | unknownKind _ => "union_tag_invalid"

def message : Problem → String
  | missing => "Field required"
  | noString => "Input should be a valid string"
  | noBool => "Input should be a valid boolean"
  | unclearBool => "Input should be a valid boolean, unable to interpret input"
  | noList => "Input should be a valid array"
  | noTable => "Input should be an object"
  | noRecord => "Input should be an object"
  | noLabel => "Input should be 'opt', 'alt' or 'else'"
  | noBlockKind => "Input should be 'block'"
  | noArrowEnd => "Input should be 'closed' or 'open'"
  | noKind => "Unable to extract tag using discriminator 'kind'"
  | unknownKind kind =>
    "Input tag '" ++ kind ++ "' found using 'kind' does not match any of the expected tags: "
      ++ "'signal', 'block', 'alt_group'"

end Problem

/-- A problem and the way to the value that has it. -/
structure Issue where
  way : List Step
  problem : Problem
  deriving DecidableEq, Repr, Inhabited

/-- A value, or all issues of what it is read from. -/
abbrev Checked (α : Type) := Except (List Issue) α

/-- A single issue. -/
def issue {α : Type} (way : List Step) (problem : Problem) : Checked α := .error [⟨way, problem⟩]

/-- Applies a checked function to a checked value; the issues of both are kept. -/
def apply {α β : Type} (f : Checked (α → β)) (x : Checked α) : Checked β :=
  match f, x with
  | .ok f, .ok x => .ok (f x)
  | .ok _, .error issues => .error issues
  | .error issues, .ok _ => .error issues
  | .error issues, .error more => .error (issues ++ more)

/-- A field that has a default. -/
def optional {α : Type} (way : List Step) (members : List (String × Json)) (name : String)
    (default : α) (check : List Step → Json → Checked α) : Checked α :=
  match Json.lookup? name members with
  | none => .ok default
  | some v => check (way ++ [.field name]) v

/-- A field that must be there. -/
def required {α : Type} (way : List Step) (members : List (String × Json)) (name : String)
    (check : List Step → Json → Checked α) : Checked α :=
  match Json.lookup? name members with
  | none => issue (way ++ [.field name]) .missing
  | some v => check (way ++ [.field name]) v

def string (way : List Step) : Json → Checked String
  | .string s => .ok s
  | _ => issue way .noString

/-- A string or null. -/
def text (way : List Step) : Json → Checked (Option String)
  | .null => .ok none
  | v => (string way v).map some

/-- The words that count as truth values, in letters of either case. -/
def wordAsBool? (word : String) : Option Bool :=
  let word := String.ofList (word.toList.map Char.toLower)
  if word ∈ ["0", "off", "f", "false", "n", "no"] then some false
  else if word ∈ ["1", "on", "t", "true", "y", "yes"] then some true
  else none

/-- The integer is in the signed 64-bit range. -/
def isWordSized (n : Int) : Bool := -9223372036854775808 ≤ n && n < 9223372036854775808

/-- The double is an integer between the ends of the 64-bit range. -/
def isIntegral (x : Float) : Bool :=
  x == x.floor && -9223372036854775808.0 < x && x < 9223372036854775808.0

/-- A truth value, or a number or a word that counts as one. -/
def bool (way : List Step) : Json → Checked Bool
  | .bool b => .ok b
  | .int n =>
    if n = 0 then .ok false
    else if n = 1 then .ok true
    else issue way (if isWordSized n then .unclearBool else .noBool)
  | .float x =>
    if x == 0.0 then .ok false
    else if x == 1.0 then .ok true
    else issue way (if isIntegral x then .unclearBool else .noBool)
  | .string s =>
    match wordAsBool? s with
    | some b => .ok b
    | none => issue way .unclearBool
  | _ => issue way .noBool

/-- The shape of an arrow's end or null. -/
def arrowEnd (way : List Step) : Json → Checked (Option ArrowEnd)
  | .null => .ok none
  | .string s =>
    match ArrowEnd.ofText? s with
    | some shape => .ok (some shape)
    | none => issue way .noArrowEnd
  | _ => issue way .noArrowEnd

def label (way : List Step) : Json → Checked BlockLabel
  | .string s =>
    match BlockLabel.ofText? s with
    | some l => .ok l
    | none => issue way .noLabel
  | _ => issue way .noLabel

/-- The kind of a block, where only blocks can stand. -/
def blockKind (way : List Step) : Json → Checked Unit
  | .string "block" => .ok ()
  | _ => issue way .noBlockKind

/-- The entries of a table. -/
def entries (way : List Step) : List (String × Json) → Checked (List (String × String))
  | [] => .ok []
  | (name, v) :: rest =>
    apply ((string (way ++ [.field name]) v).map fun s more => (name, s) :: more)
      (entries way rest)

def table (way : List Step) : Json → Checked Table
  | .object members => (entries way members).map Table.ofList
  | _ => issue way .noTable

/-- A kind as it is shown where it is none of the known ones. -/
def shownKind : Json → String
  | .string s => s
  | v => v.distinct.describe

def signal (way : List Step) (members : List (String × Json)) : Checked Signal :=
  let start : Checked (String → String → Option ArrowEnd → Option ArrowEnd → Bool →
      Option String → Bool → Bool → Signal) :=
    .ok fun source target tail head dotted message activates deactivates =>
      { source, target, tail, head, dotted, message, activates, deactivates }
  let f := apply start (required way members "source" string)
  let f := apply f (required way members "target" string)
  let f := apply f (optional way members "tail" none arrowEnd)
  let f := apply f (optional way members "head" none arrowEnd)
  let f := apply f (optional way members "dotted" false bool)
  let f := apply f (optional way members "message" none text)
  let f := apply f (optional way members "activates" false bool)
  apply f (optional way members "deactivates" false bool)

/-- A block with the given body. -/
def block (way : List Step) (members : List (String × Json)) (body : Checked (List Statement)) :
    Checked Block :=
  let start : Checked (Unit → BlockLabel → Option String → List Statement → Block) :=
    .ok fun _ label condition body => ⟨label, condition, body⟩
  let f := apply start (optional way members "kind" () blockKind)
  let f := apply f (required way members "label" label)
  let f := apply f (optional way members "condition" none text)
  apply f body

mutual

def statement (way : List Step) : Json → Checked Statement
  | .object members =>
    match Json.lookup? "kind" members with
    | none => issue way .noKind
    | some (.string "signal") => (signal (way ++ [.field "signal"]) members).map .signal
    | some (.string "block") =>
      (block (way ++ [.field "block"]) members
        ((statementsAt (way ++ [.field "block"]) members).getD (.ok []))).map .block
    | some (.string "alt_group") =>
      ((blocksAt (way ++ [.field "alt_group"]) members).getD (.ok [])).map .group
    | some kind => issue way (.unknownKind (shownKind kind))
  | _ => issue way .noTable

/-- The field of statements among members; the last one counts. -/
def statementsAt (way : List Step) :
    List (String × Json) → Option (Checked (List Statement))
  | [] => none
  | (name, v) :: rest =>
    match statementsAt way rest with
    | some found => some found
    | none =>
      if name = "statements" then some (statements (way ++ [.field name]) v) else none

def statements (way : List Step) : Json → Checked (List Statement)
  | .array items => statementItems way 0 items
  | _ => issue way .noList

/-- Statements from a place of a list on. -/
def statementItems (way : List Step) (place : Nat) : List Json → Checked (List Statement)
  | [] => .ok []
  | v :: rest =>
    apply ((statement (way ++ [.item place]) v).map fun s more => s :: more)
      (statementItems way (place + 1) rest)

/-- The field of blocks among members; the last one counts. -/
def blocksAt (way : List Step) : List (String × Json) → Option (Checked (List Block))
  | [] => none
  | (name, v) :: rest =>
    match blocksAt way rest with
    | some found => some found
    | none => if name = "blocks" then some (blocks (way ++ [.field name]) v) else none

def blocks (way : List Step) : Json → Checked (List Block)
  | .array items => blockItems way 0 items
  | _ => issue way .noList

/-- Blocks from a place of a list on. -/
def blockItems (way : List Step) (place : Nat) : List Json → Checked (List Block)
  | [] => .ok []
  | v :: rest =>
    apply ((blockAt (way ++ [.item place]) v).map fun b more => b :: more)
      (blockItems way (place + 1) rest)

/-- A block where nothing else can stand. -/
def blockAt (way : List Step) : Json → Checked Block
  | .object members => block way members ((statementsAt way members).getD (.ok []))
  | _ => issue way .noRecord

end

/-- A whole chart. -/
def chart : Json → Checked Chart
  | .object members =>
    let start : Checked (Option String → List Statement → Table → Table → Chart) :=
      .ok fun title statements participants aliases =>
        { title, statements, participants, aliases }
    let f := apply start (optional [] members "title" none text)
    let f := apply f (optional [] members "statements" [] statements)
    let f := apply f (optional [] members "participants" .empty table)
    apply f (optional [] members "aliases" .empty table)
  | _ => issue [] .noRecord

end Schema

/-- Why a text is no chart. -/
inductive ChartFault where
  | notJson
  | issues (found : List Schema.Issue)
  deriving DecidableEq, Repr, Inhabited

namespace Chart

/-- What writes charts as texts and reads texts as charts. -/
structure Codec where
  dump : Chart → List Char
  load : List Char → Except ChartFault Chart

/-- The codec that the library runs with: a chart is written field by field, and a text is read by
the checks of its fields. -/
def Codec.standard : Codec where
  dump c := c.toJson.write Json.escapeControls
  load cs :=
    match Json.ofText .numbers cs with
    | .error _ => .error .notJson
    | .ok v =>
      match Schema.chart v with
      | .error found => .error (.issues found)
      | .ok c => .ok c

/-- The text of a chart. -/
def encode (c : Chart) (codec : Codec := .standard) : List Char := codec.dump c

/-- The chart that a text writes. -/
def decode (cs : List Char) (codec : Codec := .standard) : Except ChartFault Chart := codec.load cs

end Chart

end SequenceChart
