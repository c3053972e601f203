import SequenceChart.Yaml.Directive
import SequenceChart.Yaml.Scalar
set_option autoImplicit false

/-!
# Tokens of a YAML text

Indentation opens and closes block collections, and a colon makes a key of what stands before it on
its line; both only show after the fact.  An `Outline` therefore holds the tokens so far together
with the columns of the open block collections and the places where a key may have started: when a
colon follows, the tokens that announce the key are put in at that place.
-/

namespace SequenceChart.Yaml

/-- A token. -/
inductive Token where
  | directive (content : Directive)
  | documentStart
  | documentEnd
  | textEnd
  | blockSequenceStart
  | blockMappingStart
  | blockEnd
  | flowSequenceStart
  | flowSequenceEnd
  | flowMappingStart
  | flowMappingEnd
  | flowEntry
  | blockEntry
  | key
  | value
  | alias_ (name : List Char)
  | anchor (name : List Char)
  | tag (text : TagText)
  | scalar (text : List Char) (isPlain : Bool)
  deriving DecidableEq, Repr, Inhabited

/-- A place where a key may have started: how many brackets are open there, the number of its first
token, and whether the text is wrong if it is no key. -/
structure KeyPlace where
  depth : Nat
  number : Nat
  required : Bool
  index : Nat
  line : Nat
  column : Nat
  deriving DecidableEq, Repr, Inhabited

/-- A key ends on its line and within 1024 characters. -/
def KeyPlace.isStale (k : KeyPlace) (c : Cursor) : Bool :=
  k.line ≠ c.line || k.index + 1024 < c.index

/-- The tokens up to a place in the text. -/
structure Outline where
  cursor : Cursor
  tokens : Array Token := #[]
  columns : List Nat := []
  depth : Nat := 0
  mayStartKey : Bool := true
  keyPlaces : List KeyPlace := []
  isDone : Bool := false
  deriving DecidableEq, Repr, Inhabited

namespace Outline

/-- Adds a token. -/
def push (o : Outline) (t : Token) : Outline := { o with tokens := o.tokens.push t }

/-- Puts a token in before the one of a number. -/
def insert (o : Outline) (number : Nat) (t : Token) : Outline :=
  { o with tokens := o.tokens.extract 0 number ++ #[t] ++ o.tokens.extract number o.tokens.size }

/-- No brackets are open. -/
def inBlock (o : Outline) : Bool := o.depth = 0

/-- The place is indented no deeper than the innermost block collection. -/
def atIndent (o : Outline) : Bool := o.columns.head? = some o.cursor.column

/-- The least column of what belongs to the innermost block collection. -/
def innerColumn (o : Outline) : Nat :=
  match o.columns with
  | [] => 0
  | column :: _ => column + 1

/-- Opens a block collection, unless it lies no deeper than the innermost one.  The token that
starts it is put in before the one of a number. -/
def openBlock (o : Outline) (column number : Nat) (t : Token) : Outline :=
  if o.innerColumn ≤ column then { o.insert number t with columns := column :: o.columns } else o

/-- Closes block collections, all of them or those that lie deeper than a column. -/
def closeBlocks (o : Outline) (column : Option Nat) : Outline :=
  if o.inBlock then
    let closed := o.columns.takeWhile fun x => column.all (· < x)
    { o with
      tokens := o.tokens ++ (closed.map fun _ => Token.blockEnd).toArray
      columns := o.columns.drop closed.length }
  else o

/-- Drops the places of keys that cannot be keys any more. -/
def dropStale (o : Outline) : Except Fault Outline :=
  let (stale, live) := o.keyPlaces.partition (·.isStale o.cursor)
  if stale.any KeyPlace.required then .error .malformed else .ok { o with keyPlaces := live }

/-- Drops the place of a key inside the innermost brackets. -/
def dropKey (o : Outline) : Except Fault Outline :=
  let (here, outer) := o.keyPlaces.partition (·.depth = o.depth)
  if here.any KeyPlace.required then .error .malformed else .ok { o with keyPlaces := outer }

/-- Marks the place as one where a key may start, if one may start here at all. -/
def markKey (o : Outline) : Except Fault Outline := do
  if !o.mayStartKey then return o
  let o ← o.dropKey
  let c := o.cursor
  return { o with keyPlaces := ⟨o.depth, o.tokens.size, o.inBlock && o.atIndent, c.index, c.line,
    c.column⟩ :: o.keyPlaces }

/-- The tokens that are settled: those before the first place where a key may have started. -/
def settled (o : Outline) : List Token :=
  let live := o.keyPlaces.filter fun k => !k.isStale o.cursor
  o.tokens.toList.take (live.foldl (fun n k => min n k.number) o.tokens.size)

/-! ## One token -/

/-- Spaces, comments and ends of lines before the next token.  On a new line outside brackets a key
may start. -/
def skipToToken : Nat → Outline → Outline
  | 0, o => o
  | fuel + 1, o =>
    let c := o.cursor.skipWhile (· = ' ')
    let c := if c.peek = some '#' then c.restOfLine.2 else c
    if c.sees isBreak then
      skipToToken fuel
        { o with cursor := c.lineBreak.2, mayStartKey := o.mayStartKey || o.inBlock }
    else { o with cursor := c }

/-- Goes on at another place. -/
def moveTo (o : Outline) (c : Cursor) : Outline := { o with cursor := c }

/-- Adds a token of one character. -/
def mark (o : Outline) (t : Token) : Outline := (o.moveTo o.cursor.next).push t

/-- The end of the text. -/
def textEnd (o : Outline) : Except Fault Outline := do
  let o ← (o.closeBlocks none).dropKey
  return { o.push .textEnd with mayStartKey := false, keyPlaces := [], isDone := true }

/-- A directive. -/
def directive (o : Outline) : Except Fault Outline := do
  let o ← (o.closeBlocks none).dropKey
  let (content, c) ← Directive.read o.cursor
  return { (o.moveTo c).push (.directive content) with mayStartKey := false }

/-- A mark between documents. -/
def documentMark (o : Outline) (t : Token) : Except Fault Outline := do
  let o ← (o.closeBlocks none).dropKey
  return { (o.moveTo (o.cursor.skip 3)).push t with mayStartKey := false }

/-- An opening bracket, which may be the start of a key. -/
def openFlow (o : Outline) (t : Token) : Except Fault Outline := do
  let o ← o.markKey
  return { o.mark t with depth := o.depth + 1, mayStartKey := true }

/-- A closing bracket. -/
def closeFlow (o : Outline) (t : Token) : Except Fault Outline := do
  let o ← o.dropKey
  if o.depth = 0 then throw .malformed
  return { o.mark t with depth := o.depth - 1, mayStartKey := false }

/-- A comma between brackets. -/
def flowEntry (o : Outline) : Except Fault Outline := do
  let o ← o.dropKey
  return { o.mark .flowEntry with mayStartKey := true }

/-- The mark of an item of a block sequence. -/
def blockEntry (o : Outline) : Except Fault Outline := do
  if o.inBlock && !o.mayStartKey then throw .malformed
  let o :=
    if o.inBlock then o.openBlock o.cursor.column o.tokens.size .blockSequenceStart else o
  let o ← o.dropKey
  return { o.mark .blockEntry with mayStartKey := true }

/-- The mark of a key. -/
def explicitKey (o : Outline) : Except Fault Outline := do
  if o.inBlock && !o.mayStartKey then throw .malformed
  let o := if o.inBlock then o.openBlock o.cursor.column o.tokens.size .blockMappingStart else o
  let o ← o.dropKey
  return { o.mark .key with mayStartKey := o.inBlock }

/-- The mark of a value.  If a key may have started inside the innermost brackets, it has. -/
def value (o : Outline) : Except Fault Outline := do
  match o.keyPlaces.find? (·.depth = o.depth) with
  | some k =>
    let o := { o with keyPlaces := o.keyPlaces.filter (·.depth ≠ o.depth) }
    let o := o.insert k.number .key
    let o := if o.inBlock then o.openBlock k.column k.number .blockMappingStart else o
    return { o.mark .value with mayStartKey := false }
  | none =>
    if o.inBlock && !o.mayStartKey then throw .malformed
    let o := if o.inBlock then o.openBlock o.cursor.column o.tokens.size .blockMappingStart else o
    let o ← o.dropKey
    return { o.mark .value with mayStartKey := o.inBlock }

/-- A token that may be the start of a key. -/
def keyStart (o : Outline) (read : Cursor → Except Fault (Token × Cursor)) :
    Except Fault Outline := do
  let o ← o.markKey
  let (t, c) ← read o.cursor
  return { (o.moveTo c).push t with mayStartKey := false }

/-- An alias, an anchor or a tag. -/
def property (o : Outline) (x : Char) : Except Fault Outline :=
  o.keyStart fun c => do
    if x = '!' then
      let (text, c) ← tagText c
      return (.tag text, c)
    else
      let (name, c) ← anchorName c
      return (if x = '*' then .alias_ name else .anchor name, c)

/-- A block scalar. -/
def block (o : Outline) (folded : Bool) : Except Fault Outline := do
  let o ← o.dropKey
  let (text, c) ← blockScalar folded (max 1 o.innerColumn) o.cursor
  return { (o.moveTo c).push (.scalar text false) with mayStartKey := true }

/-- A quoted scalar. -/
def quoted (o : Outline) (quote : Char) : Except Fault Outline :=
  o.keyStart fun c => do
    let (text, c) ← quotedScalar quote c
    return (.scalar text false, c)

/-- A plain scalar.  On a new line after it a key may start. -/
def plain (o : Outline) : Except Fault Outline := do
  let o ← o.markKey
  let (text, crossed, c) := plainScalar (!o.inBlock) o.innerColumn o.cursor
  return { (o.moveTo c).push (.scalar text true) with mayStartKey := crossed }

/-- The characters that start no plain scalar. -/
def marks : List Char :=
  ['-', '?', ':', ',', '[', ']', '{', '}', '#', '&', '*', '!', '|', '>', '\'', '"', '%', '@', '`']

/-- A plain scalar starts here with the given character.  A hyphen does so too where no blank
follows it, and outside brackets a question mark and a colon. -/
def startsPlain (o : Outline) (x : Char) : Bool :=
  (!isSeparator x && !marks.contains x)
    || (!o.cursor.endsAt 1 isSeparator && (x = '-' || (o.inBlock && (x = '?' || x = ':'))))

/-- The token that starts with a character. -/
def tokenAt (o : Outline) (x : Char) : Except Fault Outline :=
  let c := o.cursor
  let alone := c.endsAt 1 isSeparator
  if x = '%' && c.column = 0 then o.directive
  else if c.column = 0 && c.seesMarks '-' then o.documentMark .documentStart
  else if c.column = 0 && c.seesMarks '.' then o.documentMark .documentEnd
  else if x = '[' then o.openFlow .flowSequenceStart
  else if x = '{' then o.openFlow .flowMappingStart
  else if x = ']' then o.closeFlow .flowSequenceEnd
  else if x = '}' then o.closeFlow .flowMappingEnd
  else if x = ',' then o.flowEntry
  else if x = '-' && alone then o.blockEntry
  else if x = '?' && (!o.inBlock || alone) then o.explicitKey
  else if x = ':' && (!o.inBlock || alone) then o.value
  else if x = '*' || x = '&' || x = '!' then o.property x
  else if x = '|' && o.inBlock then o.block false
  else if x = '>' && o.inBlock then o.block true
  else if x = '\'' || x = '"' then o.quoted x
  else if o.startsPlain x then o.plain
  else .error .malformed

/-- Adds the next token and those that it implies. -/
def step (o : Outline) : Except Fault Outline := do
  let o ← (skipToToken (o.cursor.rest.length + 1) o).dropStale
  let o := o.closeBlocks (some o.cursor.column)
  match o.cursor.peek with
  | none => o.textEnd
  | some x => o.tokenAt x

/-- The settled tokens, and the fault that stops them before the end of the text. -/
def run : Nat → Outline → List Token × Option Fault
  | 0, o => (o.settled, some .malformed)
  | fuel + 1, o =>
    match o.step with
    | .error why => (o.settled, some why)
    | .ok o => if o.isDone then (o.tokens.toList, none) else run fuel o

end Outline

/-- The tokens of a text, and the fault that stops them before its end.  A byte order mark may stand
in front. -/
def tokensOf (cs : List Char) : List Token × Option Fault :=
  if cs.all isAllowed then
    let start : Cursor := { rest := cs }
    Outline.run (cs.length + 2)
      { cursor := if start.peek = some '\ufeff' then start.next else start }
  else ([], some .malformed)

end SequenceChart.Yaml
