import SequenceChart.Yaml.Tag
import SequenceChart.Yaml.Token
set_option autoImplicit false

/-!
# The nodes of a YAML document

A document is a graph of nodes: an alias leads to the node of its anchor, also from inside that
node.  Nodes are kept in an array and refer to each other by their places.  The tokens are read one
at a time and only as far as they are needed, since the text may be at fault further on.

* block sequence: start (`-` node?)* end
* block mapping: start (`?` node? (`:` node?)?)* end
* flow sequence: `[` (entry (`,` entry)* `,`?)? `]`, an entry being a node or a single pair
* flow mapping: `{` (pair (`,` pair)* `,`?)? `}`
-/

namespace SequenceChart.Yaml

/-- What a node holds: a text, or the places of other nodes. -/
inductive Content where
  | scalar (text : List Char)
  | sequence (items : List Nat)
  | mapping (entries : List (Nat × Nat))
  deriving DecidableEq, Repr, Inhabited

/-- A node. -/
structure Node where
  tag : Tag
  content : Content
  deriving DecidableEq, Repr, Inhabited

/-- The nodes of a document and the place of its root. -/
structure Graph where
  nodes : Array Node
  root : Nat
  deriving DecidableEq, Repr, Inhabited

namespace Graph

/-- What is known in the course of reading: the tokens to come, the fault that ends them, the texts
of tag handles, the places of anchors and the nodes so far. -/
structure State where
  tokens : List Token
  fault : Fault
  handles : List (List Char × List Char) := []
  anchors : List (List Char × Nat) := []
  nodes : Array Node := #[]
  deriving DecidableEq, Repr, Inhabited

/-- A step of reading. -/
abbrev Reading (α : Type) : Type := StateT State (Except Fault) α

/-- The next token. -/
def peek : Reading Token := do
  match (← get).tokens with
  | [] => throw (← get).fault
  | t :: _ => return t

/-- Takes the next token. -/
def take : Reading Unit := modify fun s => { s with tokens := s.tokens.drop 1 }

/-- The next token is one of the given ones. -/
def sees (kinds : List Token) : Reading Bool := do return kinds.contains (← peek)

/-- Adds a node and answers with its place. -/
def add (node : Node) : Reading Nat := do
  let s ← get
  set { s with nodes := s.nodes.push node }
  return s.nodes.size

/-- Gives a node its content. -/
def fill (place : Nat) (content : Content) : Reading Unit :=
  modify fun s => { s with nodes := s.nodes.modify place fun node => { node with content } }

/-- A node without text or properties. -/
def addEmpty : Reading Nat := add ⟨.null, .scalar []⟩

/-! ## Properties -/

/-- The handles that need no directive. -/
def defaultHandles : List (List Char × List Char) :=
  [(['!'], ['!']), (['!', '!'], Tag.stem.toList)]

/-- The text of a tag. -/
def resolve (t : TagText) : Reading (List Char) := do
  match t.handle with
  | none => return t.suffix
  | some name =>
    match (← get).handles.lookup name with
    | some text => return text ++ t.suffix
    | none => throw .malformed

/-- The anchor and the tag of a node. -/
structure Properties where
  anchor : Option (List Char) := none
  tag : Option (List Char) := none
  deriving DecidableEq, Repr, Inhabited

namespace Properties

/-- A lone exclamation mark leaves the tag open. -/
def ownTag (p : Properties) : Option (List Char) := p.tag.filter (· ≠ ['!'])

/-- The tag of a scalar.  One that is plain or has an exclamation mark is tagged by its look. -/
def scalarTag (p : Properties) (text : List Char) (isPlain : Bool) : Tag :=
  match p.ownTag with
  | some t => Tag.ofText t
  | none => if isPlain || p.tag.isSome then Tag.ofPlain text else .str

/-- The tag of a collection. -/
def collectionTag (p : Properties) (default : Tag) : Tag := p.ownTag.elim default Tag.ofText

/-- There is an anchor or a tag. -/
def isAny (p : Properties) : Bool := p.anchor.isSome || p.tag.isSome

end Properties

/-- The anchor and the tag that come next, in either order. -/
def properties : Reading Properties := do
  match ← peek with
  | .anchor name =>
    take
    match ← peek with
    | .tag t => take; return ⟨some name, some (← resolve t)⟩
    | _ => return ⟨some name, none⟩
  | .tag t =>
    take
    match ← peek with
    | .anchor name => take; return ⟨some name, some (← resolve t)⟩
    | _ => return ⟨none, some (← resolve t)⟩
  | _ => return {}

/-- Adds a node under its anchor, which must be new. -/
def addUnder (anchor : Option (List Char)) (node : Node) : Reading Nat := do
  match anchor with
  | none => add node
  | some name =>
    if ((← get).anchors.lookup name).isSome then throw .malformed
    let place ← add node
    modify fun s => { s with anchors := (name, place) :: s.anchors }
    return place

/-- Adds a scalar. -/
def addScalar (p : Properties) (text : List Char) (isPlain : Bool) : Reading Nat :=
  addUnder p.anchor ⟨p.scalarTag text isPlain, .scalar text⟩

/-! ## Nodes -/

/-- The tokens after which a block mapping has no node for a key or a value. -/
def blockGaps : List Token := [.key, .value, .blockEnd]

mutual

/-- A node.  Block collections count where `inBlock` holds, and a block sequence that is indented no
deeper than its key where `atKey` holds. -/
def node : Nat → Bool → Bool → Reading Nat
  | 0, _, _ => throw .malformed
  | fuel + 1, inBlock, atKey => do
    match ← peek with
    | .alias_ name =>
      take
      match (← get).anchors.lookup name with
      | some place => return place
      | none => throw .malformed
    | _ =>
      let p ← properties
      match ← peek with
      | .blockEntry =>
        if atKey then
          let place ← addUnder p.anchor ⟨p.collectionTag .seq, .sequence []⟩
          fill place (.sequence (← keyItems fuel))
          return place
        else if p.isAny then addScalar p [] p.tag.isNone
        else throw .malformed
      | .scalar text isPlain => take; addScalar p text isPlain
      | .flowSequenceStart =>
        let place ← addUnder p.anchor ⟨p.collectionTag .seq, .sequence []⟩
        take
        fill place (.sequence (← flowItems fuel true))
        return place
      | .flowMappingStart =>
        let place ← addUnder p.anchor ⟨p.collectionTag .map, .mapping []⟩
        take
        fill place (.mapping (← flowPairs fuel true))
        return place
      | t =>
        if inBlock && t = .blockSequenceStart then
          let place ← addUnder p.anchor ⟨p.collectionTag .seq, .sequence []⟩
          take
          fill place (.sequence (← blockItems fuel))
          return place
        else if inBlock && t = .blockMappingStart then
          let place ← addUnder p.anchor ⟨p.collectionTag .map, .mapping []⟩
          take
          fill place (.mapping (← blockPairs fuel))
          return place
        else if p.isAny then addScalar p [] p.tag.isNone
        else throw .malformed

/-- A node, or an empty one before any of the given tokens. -/
def nodeUnless : Nat → List Token → Bool → Bool → Reading Nat
  | 0, _, _, _ => throw .malformed
  | fuel + 1, gaps, inBlock, atKey => do
    if ← sees gaps then addEmpty else node fuel inBlock atKey

/-- The items of a block sequence that is indented no deeper than its key. -/
def keyItems : Nat → Reading (List Nat)
  | 0 => throw .malformed
  | fuel + 1 => do
    if ← sees [.blockEntry] then
      take
      let item ← nodeUnless fuel (.blockEntry :: blockGaps) true false
      return item :: (← keyItems fuel)
    else return []

/-- The items of a block sequence. -/
def blockItems : Nat → Reading (List Nat)
  | 0 => throw .malformed
  | fuel + 1 => do
    match ← peek with
    | .blockEntry =>
      take
      let item ← nodeUnless fuel [.blockEntry, .blockEnd] true false
      return item :: (← blockItems fuel)
    | .blockEnd => take; return []
    | _ => throw .malformed

/-- The entries of a block mapping. -/
def blockPairs : Nat → Reading (List (Nat × Nat))
  | 0 => throw .malformed
  | fuel + 1 => do
    match ← peek with
    | .key =>
      take
      let key ← nodeUnless fuel blockGaps true true
      let value ← pairValue fuel blockGaps true
      return (key, value) :: (← blockPairs fuel)
    | .blockEnd => take; return []
    | _ => throw .malformed

/-- The value of a pair, which may be left out with its mark or after it. -/
def pairValue : Nat → List Token → Bool → Reading Nat
  | 0, _, _ => throw .malformed
  | fuel + 1, gaps, inBlock => do
    if ← sees [.value] then
      take
      nodeUnless fuel gaps inBlock inBlock
    else addEmpty

/-- The items of a flow sequence. -/
def flowItems : Nat → Bool → Reading (List Nat)
  | 0, _ => throw .malformed
  | fuel + 1, isFirst => do
    if ← sees [.flowSequenceEnd] then
      take
      return []
    if !isFirst then
      if ← sees [.flowEntry] then take else throw .malformed
    match ← peek with
    | .flowSequenceEnd => take; return []
    | .key =>
      let place ← add ⟨.map, .mapping []⟩
      take
      let key ← nodeUnless fuel [.value, .flowEntry, .flowSequenceEnd] false false
      let value ← pairValue fuel [.flowEntry, .flowSequenceEnd] false
      fill place (.mapping [(key, value)])
      return place :: (← flowItems fuel false)
    | _ =>
      let item ← node fuel false false
      return item :: (← flowItems fuel false)

/-- The entries of a flow mapping. -/
def flowPairs : Nat → Bool → Reading (List (Nat × Nat))
  | 0, _ => throw .malformed
  | fuel + 1, isFirst => do
    if ← sees [.flowMappingEnd] then
      take
      return []
    if !isFirst then
      if ← sees [.flowEntry] then take else throw .malformed
    match ← peek with
    | .flowMappingEnd => take; return []
    | .key =>
      take
      let key ← nodeUnless fuel [.value, .flowEntry, .flowMappingEnd] false false
      let value ← pairValue fuel [.flowEntry, .flowMappingEnd] false
      return (key, value) :: (← flowPairs fuel false)
    | _ =>
      let key ← node fuel false false
      let value ← addEmpty
      return (key, value) :: (← flowPairs fuel false)

end

/-! ## Documents -/

/-- The directives in front of a document.  The version of YAML must be 1 and is told once, and a
handle is given its text once. -/
def directives : Nat → Bool → Reading Unit
  | 0, _ => throw .malformed
  | fuel + 1, versionTold => do
    match ← peek with
    | .directive content =>
      take
      match content with
      | .version major =>
        if versionTold || major ≠ 1 then throw .malformed
        directives fuel true
      | .handle name text =>
        if ((← get).handles.lookup name).isSome then throw .malformed
        modify fun s => { s with handles := (name, text) :: s.handles }
        directives fuel versionTold
      | .unknown => directives fuel versionTold
    | _ => modify fun s => { s with handles := s.handles ++ defaultHandles }

/-- Skips marks of the end of a document. -/
def skipDocumentEnds : Nat → Reading Unit
  | 0 => throw .malformed
  | fuel + 1 => do
    if ← sees [.documentEnd] then
      take
      skipDocumentEnds fuel

/-- The end of the text after a document; there must be no second one. -/
def textEnd (fuel : Nat) : Reading Unit := do
  skipDocumentEnds fuel
  unless ← sees [.textEnd] do
    modify fun s => { s with handles := [] }
    directives fuel false
    discard peek
    throw .malformed

/-- The root of the only document of a text, if it has one. -/
def document (fuel : Nat) : Reading (Option Nat) := do
  match ← peek with
  | .textEnd => return none
  | t =>
    let root ←
      if (t matches .directive _) || t = .documentStart then do
        directives fuel false
        unless ← sees [.documentStart] do throw .malformed
        take
        match ← peek with
        | .directive _ | .documentStart | .documentEnd | .textEnd => addEmpty
        | _ => node fuel true false
      else do
        modify fun s => { s with handles := defaultHandles }
        node fuel true false
    textEnd fuel
    return some root

/-- The graph of the document in a text, if there is one. -/
def ofText (cs : List Char) : Except Fault (Option Graph) := do
  let (tokens, fault) := tokensOf cs
  let (root, s) ← (document (3 * tokens.length + 4)).run { tokens, fault := fault.getD .malformed }
  return root.map fun place => ⟨s.nodes, place⟩

end Graph

end SequenceChart.Yaml
