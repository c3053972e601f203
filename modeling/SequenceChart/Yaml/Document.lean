import SequenceChart.Text.Base64
import SequenceChart.Yaml.Graph
import SequenceChart.Yaml.Number
import SequenceChart.Yaml.Value
set_option autoImplicit false

/-!
# The value of a YAML document

The nodes of a document are given their values from the root on.  A collection has its value at once
and its contents are looked at later, the collections in the order in which they were met; so a
collection may lie inside itself.  A collection that stands as a key is refused before what it holds
is looked at.  Of two faults the one that is met first counts.

`Document.ofText` is the `Reader` with which files of settings are read when the library runs; what
is said of such files holds for any reader.
-/

namespace SequenceChart.Yaml

namespace Document

/-- The value of a node.  Values of one origin are one as keys even if they are no numbers: they
belong to one node, or each of them is written with the word for no number. -/
structure Built where
  origin : Nat
  value : Value
  deriving DecidableEq, Repr, Inhabited

/-- A value under a key of an origin. -/
structure Entry where
  origin : Nat
  key : Scalar
  value : Value
  deriving DecidableEq, Repr, Inhabited

namespace Entry

/-- The entries have one key. -/
def sameKey (e f : Entry) : Bool := e.origin = f.origin || e.key.sameKey f.key

/-- The entry of a key is given a new value, or a new one is added at the end. -/
def put (e : Entry) : List Entry → List Entry
  | [] => [e]
  | f :: rest => if f.sameKey e then { f with value := e.value } :: rest else f :: put e rest

/-- The mapping that entries make up. -/
def toMapping (entries : List Entry) : Mapping :=
  (entries.foldl (fun done e => put e done) []).foldl (fun m e => m.insert e.key e.value) .empty

end Entry

/-- What is known in the course of giving values: the nodes, the values by the places of their
nodes, the places of the collections to be looked at, and the entries of the root. -/
structure State where
  nodes : Array Node
  values : Array (Option Built)
  waiting : List Nat := []
  root : Nat
  entries : List Entry := []
  deriving DecidableEq, Repr, Inhabited

/-- A step of giving values. -/
abbrev Building (α : Type) : Type := StateT State (Except Fault) α

/-- The node at a place. -/
def nodeAt (place : Nat) : Building Node := do
  match (← get).nodes[place]? with
  | some node => return node
  | none => throw .malformed

/-- The entries of a mapping. -/
def entriesAt (place : Nat) : Building (List (Nat × Nat)) := do
  match (← nodeAt place).content with
  | .mapping entries => return entries
  | _ => throw .malformed

/-- The items of a sequence. -/
def itemsAt (place : Nat) : Building (List Nat) := do
  match (← nodeAt place).content with
  | .sequence items => return items
  | _ => throw .malformed

/-- Changes a node. -/
def modifyNode (place : Nat) (f : Node → Node) : Building Unit :=
  modify fun s => { s with nodes := s.nodes.modify place f }

/-- Gives a mapping other entries. -/
def setEntries (place : Nat) (entries : List (Nat × Nat)) : Building Unit :=
  modifyNode place fun node => { node with content := .mapping entries }

/-! ## Merge keys -/

/-- The number of merge keys in the document. -/
def mergeKeys (s : State) : Nat :=
  s.nodes.toList.foldl (fun count node =>
    match node.content with
    | .mapping entries =>
      count + entries.countP fun e => (s.nodes[e.1]?.map Node.tag) = some .merge
    | _ => count) 0

mutual

/-- Takes in what the merge keys of a mapping lead to, from an index on; `taken` are the entries
taken in before.  A value key becomes a text.  At most `merges` merge keys are left in the document,
since each is deleted when it is met, and `left` entries after the index. -/
def mergeFrom (merges left place index : Nat) (taken : List (Nat × Nat)) : Building Unit := do
  match left with
  | 0 => throw .malformed
  | left + 1 =>
    let entries ← entriesAt place
    match entries[index]? with
    | none => unless taken.isEmpty do setEntries place (taken ++ entries)
    | some (key, value) =>
      match (← nodeAt key).tag, merges with
      | .merge, 0 => throw .malformed
      | .merge, merges + 1 =>
        setEntries place (entries.eraseIdx index)
        let sources := match (← nodeAt value).content with
          | .sequence items => items
          | _ => [value]
        let more ← mergeAll merges sources
        let entries ← entriesAt place
        mergeFrom merges (entries.length + 1) place index (taken ++ more.reverse.flatten)
      | .value, merges =>
        modifyNode key fun node => { node with tag := .str }
        mergeFrom merges left place (index + 1) taken
      | _, merges => mergeFrom merges left place (index + 1) taken
termination_by (merges, 0, left)

/-- The entries of mappings whose merge keys have been taken in. -/
def mergeAll (merges : Nat) (places : List Nat) : Building (List (List (Nat × Nat))) := do
  match places with
  | [] => return []
  | place :: rest =>
    let entries ← entriesAt place
    mergeFrom merges (entries.length + 1) place 0 []
    let entries ← entriesAt place
    let more ← mergeAll merges rest
    return entries :: more
termination_by (merges, 1, places.length)

end

/-- The entries of a mapping together with those that its merge keys lead to. -/
def mergedEntries (place : Nat) : Building (List (Nat × Nat)) := do
  let entries ← entriesAt place
  mergeFrom (mergeKeys (← get)) (entries.length + 1) place 0 []
  entriesAt place

/-! ## Scalars -/

/-- The text of a scalar.  A mapping with a value key has the text of the value under it; such a
way is endless if it is longer than there are nodes. -/
def textAt : Nat → Nat → Building (List Char)
  | 0, _ => throw .endless
  | fuel + 1, place => do
    match (← nodeAt place).content with
    | .scalar text => return text
    | .sequence _ => throw .malformed
    | .mapping entries =>
      let s ← get
      match entries.find? fun e => (s.nodes[e.1]?.map Node.tag) = some .value with
      | some (_, value) => textAt fuel value
      | none => throw .malformed

/-- The truth values by their words in small letters. -/
def boolWords : List (String × Bool) :=
  [("yes", true), ("no", false), ("true", true), ("false", false), ("on", true), ("off", false)]

/-- The truth value of a word, with letters of either case. -/
def boolOf (text : List Char) : Except Fault Bool :=
  match boolWords.lookup (String.ofList (Text.lower text)) with
  | some b => .ok b
  | none => .error (.noBool (Text.lower text))

/-- The bytes of a text in base 64. -/
def bytesOf (text : List Char) : Except Fault (List UInt8) :=
  if text.all fun c => c.toNat < 0x80 then
    match Text.decodeBase64 text with
    | some bytes => .ok bytes
    | none => .error .malformed
  else .error .malformed

/-- The date or the moment that a text writes. -/
def stampOf (text : List Char) : Except Fault Scalar :=
  let settle (checked : Except CalendarFault Scalar) : Except Fault Scalar :=
    match checked with
    | .ok v => .ok v
    | .error why => .error (.calendar why)
  match Stamp.read? (Tag.trimBreak text) with
  | none => .error .noMoment
  | some (.date d) => settle (.date <$> d.check)
  | some (.moment m) => settle (.moment <$> m.check)

/-- The value of a node with the tag of a scalar. -/
def scalarAt (place : Nat) (tag : Tag) : Building Built := do
  let text ← textAt ((← get).nodes.size + 1) place
  let built (s : Scalar) : Built := ⟨place + 1, .scalar s⟩
  match tag with
  | .null => return built .null
  | .bool => return built (.bool (← boolOf text))
  | .int => return built (.int (← Number.intOf text))
  | .float =>
    let x ← Number.floatOf text
    return if Number.isNaNWord text then ⟨0, .scalar (.float x)⟩ else built (.float x)
  | .binary => return built (.bytes (← bytesOf text))
  | .timestamp =>
    if (← nodeAt place).content matches .mapping _ then throw .momentOfMapping
    return built (← stampOf text)
  | .str => return built (.text (String.ofList text))
  | _ => throw .malformed

/-! ## Collections -/

/-- The tag is one of a collection. -/
def isCollection (tag : Tag) : Bool := [Tag.omap, .pairs, .set, .seq, .map].contains tag

/-- The value of a node.  A collection waits for a look at what it holds. -/
def build (place : Nat) : Building Built := do
  match (← get).values[place]?.join with
  | some b => return b
  | none =>
    let tag := (← nodeAt place).tag
    let b ←
      if isCollection tag then do
        modify fun s => { s with waiting := s.waiting ++ [place] }
        pure ⟨place + 1, .collection⟩
      else scalarAt place tag
    modify fun s => { s with values := s.values.setIfInBounds place (some b) }
    return b

/-- Looks at what a collection holds. -/
def look (place : Nat) : Building Unit := do
  match (← nodeAt place).tag with
  | .seq =>
    for item in ← itemsAt place do
      discard (build item)
  | .omap | .pairs =>
    for item in ← itemsAt place do
      match ← entriesAt item with
      | [(key, value)] =>
        discard (build key)
        discard (build value)
      | _ => throw .malformed
  | _ =>
    let mut entries : List Entry := []
    for (key, value) in ← mergedEntries place do
      match ← build key with
      | ⟨_, .collection⟩ => throw .malformed
      | ⟨origin, .scalar k⟩ =>
        let v ← build value
        entries := ⟨origin, k, v.value⟩ :: entries
    if (← get).root = place then modify fun s => { s with entries := entries.reverse }

/-- Looks at the collections that wait for it, and at those that come up then.  A collection waits
once, so there are no more rounds than nodes. -/
def lookAll : Nat → Building Unit
  | 0 => throw .malformed
  | rounds + 1 => do
    match (← get).waiting with
    | [] => return
    | place :: rest =>
      modify fun s => { s with waiting := rest }
      look place
      lookAll rounds

/-- The value of the root. -/
def ofRoot (root : Nat) : Building Document := do
  let size := (← get).nodes.size
  let b ← build root
  lookAll (size + 1)
  if (← nodeAt root).tag = .map then return .mapping (Entry.toMapping (← get).entries)
  return .other b.value

/-- The value of the document in a text; a text without a document has no value. -/
def ofText (cs : List Char) : Except Fault Document := do
  match ← Graph.ofText cs with
  | none => return .other (.scalar .null)
  | some g =>
    let (d, _) ← (ofRoot g.root).run
      { nodes := g.nodes, values := Array.replicate g.nodes.size none, root := g.root }
    return d

end Document

end SequenceChart.Yaml
