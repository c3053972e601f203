import SequenceChart.Text.Basic
import SequenceChart.Yaml.Cursor
set_option autoImplicit false

/-!
# Scalars

The text of a scalar in its four written forms: plain, between single or double quotes, and as a
block of lines.  Inside a scalar a single end of line counts as a space and of several the first is
dropped, except in a literal block and next to an indented line of a folded one.

Recursion that follows a cursor is bounded by the length of the text that is left.
-/

namespace SequenceChart.Yaml

/-! ## Plain scalars -/

/-- The characters that end a plain scalar inside brackets. -/
def flowEnds : List Char := [',', '?', '[', ']', '{', '}']

/-- The characters that end a plain scalar inside brackets when they follow a colon. -/
def flowEndsAfterColon : List Char := [',', '[', ']', '{', '}']

/-- A colon is followed by something that makes it the mark of a value. -/
def endsAtColon (inFlow : Bool) : List Char → Bool
  | [] => true
  | x :: _ => isSeparator x || (inFlow && flowEndsAfterColon.contains x)

/-- The characters of a plain scalar up to the next blank, end of line or mark. -/
def plainRun (inFlow : Bool) : List Char → List Char
  | [] => []
  | x :: rest =>
    if isSeparator x || (x = ':' && endsAtColon inFlow rest) || (inFlow && flowEnds.contains x) then
      []
    else x :: plainRun inFlow rest

/-- The ends of lines among spaces, and the place after them.  None are counted where a mark
between documents follows one of them. -/
def plainBreaks : Nat → Cursor → Option (List Char) × Cursor
  | 0, c => (some [], c)
  | fuel + 1, c =>
    if c.peek = some ' ' then plainBreaks fuel c.next
    else if c.sees isBreak then
      let (x, c) := c.lineBreak
      if c.seesDocumentMark then (none, c)
      else
        let (more, c) := plainBreaks fuel c
        (more.map (x ++ ·), c)
    else (some [], c)

/-- What the gap between two runs of a plain scalar counts as, nothing if the scalar ends here;
whether a line ends in the gap; and the place after it. -/
def plainGap (c : Cursor) : List Char × Bool × Cursor :=
  let (spaces, after) := c.span (· = ' ')
  if after.sees isBreak then
    let (first, c) := after.lineBreak
    if c.seesDocumentMark then ([], true, c)
    else match plainBreaks (c.rest.length + 1) c with
      | (none, c) => ([], true, c)
      | (some more, c) =>
        (if first ≠ ['\n'] then first ++ more else if more.isEmpty then [' '] else more, true, c)
  else (spaces, false, after)

/-- A plain scalar: its text, whether a line ends after its last run, and the place after it.  `gap`
is the gap before the next run and `crossed` tells whether a line ends in it. -/
def plainFrom (inFlow : Bool) (indent : Nat) : Nat → List Char → Bool → Cursor →
    List Char × Bool × Cursor
  | 0, _, crossed, c => ([], crossed, c)
  | fuel + 1, gap, crossed, c =>
    let run := if c.peek = some '#' then [] else plainRun inFlow c.rest
    if run.isEmpty then ([], crossed, c)
    else
      let (next, crossed, c) := plainGap (c.skip run.length)
      if next.isEmpty || c.peek = some '#' || (!inFlow && c.column < indent) then
        (gap ++ run, crossed, c)
      else
        let (more, crossed, c) := plainFrom inFlow indent fuel next crossed c
        (gap ++ run ++ more, crossed, c)

/-- A plain scalar whose later lines are indented by `indent` columns outside brackets. -/
def plainScalar (inFlow : Bool) (indent : Nat) (c : Cursor) : List Char × Bool × Cursor :=
  plainFrom inFlow indent (c.rest.length + 1) [] false c

/-! ## Quoted scalars -/

/-- The character that a one-letter escape stands for. -/
def shortEscape? (c : Char) : Option Char :=
  match c with
  | '0' => some '\x00'
  | 'a' => some '\x07'
  | 'b' => some '\x08'
  | 't' => some '\t'
  | '\t' => some '\t'
  | 'n' => some '\n'
  | 'v' => some '\x0b'
  | 'f' => some '\x0c'
  | 'r' => some '\r'
  | 'e' => some '\x1b'
  | ' ' => some ' '
  | '"' => some '"'
  | '\\' => some '\\'
  | '/' => some '/'
  | 'N' => some '\x85'
  | '_' => some '\xa0'
  | 'L' => some '\u2028'
  | 'P' => some '\u2029'
  | _ => none

/-- The number of hexadecimal digits after the letter of an escape. -/
def escapeWidth? (c : Char) : Option Nat :=
  match c with
  | 'x' => some 2
  | 'u' => some 4
  | 'U' => some 8
  | _ => none

/-- The character of a code point; half a surrogate pair reads as the replacement character. -/
def charOf (code : Nat) : Except Fault Char :=
  if 0x10ffff < code then .error (.codePoint code)
  else if 0xd800 ≤ code && code ≤ 0xdfff then .ok '\ufffd'
  else .ok (Char.ofNat code)

/-- The ends of lines among blanks in a quoted scalar, where no mark between documents may stand. -/
def quotedBreaks : Nat → Cursor → Except Fault (List Char × Cursor)
  | 0, _ => .error .malformed
  | fuel + 1, c =>
    if c.seesDocumentMark then .error .malformed
    else
      let c := c.skipWhile isBlank
      if c.sees isBreak then do
        let (x, c) := c.lineBreak
        let (more, c) ← quotedBreaks fuel c
        return (x ++ more, c)
      else .ok ([], c)

/-- What blanks or the end of a line count as in a quoted scalar. -/
def quotedGap (c : Cursor) : Except Fault (List Char × Cursor) :=
  let (blanks, c) := c.span isBlank
  if c.isOver then .error .malformed
  else if c.sees isBreak then do
    let (first, c) := c.lineBreak
    let (more, c) ← quotedBreaks (c.rest.length + 1) c
    return (if first ≠ ['\n'] then first ++ more else if more.isEmpty then [' '] else more, c)
  else .ok (blanks, c)

/-- What an escape stands for, from the character after its backslash on. -/
def escape (c : Cursor) : Except Fault (List Char × Cursor) :=
  match c.peek with
  | none => .error .malformed
  | some x =>
    match shortEscape? x with
    | some y => .ok ([y], c.next)
    | none =>
      match escapeWidth? x with
      | some width =>
        let digits := c.next.rest.take width
        match Text.readHex digits with
        | none => .error .malformed
        | some code =>
          if digits.length < width then .error .malformed
          else do return ([← charOf code], c.skip (width + 1))
      | none =>
        if isBreak x then quotedBreaks (c.rest.length + 1) c.lineBreak.2 else .error .malformed

/-- The rest of a quoted scalar, with its closing quote. -/
def quotedFrom (quote : Char) : Nat → Cursor → Except Fault (List Char × Cursor)
  | 0, _ => .error .malformed
  | fuel + 1, c =>
    match c.peek with
    | none => .error .malformed
    | some x =>
      if x = quote then
        if quote = '\'' && c.ahead 1 = some '\'' then do
          let (more, c) ← quotedFrom quote fuel (c.skip 2)
          return ('\'' :: more, c)
        else .ok ([], c.next)
      else do
        let (part, c) ←
          if quote = '"' && x = '\\' then escape c.next
          else if isSeparator x then quotedGap c
          else pure ([x], c.next)
        let (more, c) ← quotedFrom quote fuel c
        return (part ++ more, c)

/-- A quoted scalar from its opening quote on. -/
def quotedScalar (quote : Char) (c : Cursor) : Except Fault (List Char × Cursor) :=
  quotedFrom quote (c.rest.length + 1) c.next

/-! ## Block scalars -/

/-- What becomes of the ends of lines after the last text of a block. -/
inductive Chomping where
  | strip
  | clip
  | keep
  deriving DecidableEq, Repr, Inhabited

/-- The header of a block: what becomes of its last ends of lines and how far it is indented, if
that is told. -/
structure BlockHeader where
  chomping : Chomping
  indentation : Option Nat
  deriving DecidableEq, Repr, Inhabited

/-- A chomping mark that may come next. -/
def chompingMark (c : Cursor) : Option Chomping × Cursor :=
  if c.peek = some '+' then (some .keep, c.next)
  else if c.peek = some '-' then (some .strip, c.next)
  else (none, c)

/-- An indentation that may come next; it cannot be zero. -/
def indentationMark (c : Cursor) : Except Fault (Option Nat × Cursor) :=
  match c.peek with
  | some x =>
    if x = '0' then .error .malformed
    else if x.isDigit then .ok (some (x.toNat - 48), c.next)
    else .ok (none, c)
  | none => .ok (none, c)

/-- The header after the mark of a block, to the end of its line.  The chomping and the indentation
may stand in either order. -/
def blockHeader (c : Cursor) : Except Fault (BlockHeader × Cursor) := do
  let (early, c) := chompingMark c
  let (indentation, c) ← indentationMark c
  let (late, c) := if early.isNone && indentation.isSome then chompingMark c else (none, c)
  if !c.endsAt 0 fun x => x = ' ' || isBreak x then throw .malformed
  return (⟨(early.or late).getD .clip, indentation⟩, ← c.toLineEnd)

/-- The ends of lines before the first text of a block, the column of the text or of the longest
line of spaces before it, and the place of the text. -/
def leadingBreaks : Nat → Nat → Cursor → List Char × Nat × Cursor
  | 0, widest, c => ([], widest, c)
  | fuel + 1, widest, c =>
    if c.peek = some ' ' then leadingBreaks fuel (max widest c.next.column) c.next
    else if c.sees isBreak then
      let (x, c) := c.lineBreak
      let (more, widest, c) := leadingBreaks fuel widest c
      (x ++ more, widest, c)
    else ([], widest, c)

/-- The place after spaces, but not beyond a column. -/
def skipIndent (indent : Nat) : Nat → Cursor → Cursor
  | 0, c => c
  | fuel + 1, c =>
    if c.column < indent && c.peek = some ' ' then skipIndent indent fuel c.next else c

/-- The ends of lines before the next text of a block that is indented by `indent` columns. -/
def blockBreaks (indent : Nat) : Nat → Cursor → List Char × Cursor
  | 0, c => ([], c)
  | fuel + 1, c =>
    let c := skipIndent indent indent c
    if c.sees isBreak then
      let (x, c) := c.lineBreak
      let (more, c) := blockBreaks indent fuel c
      (x ++ more, c)
    else ([], c)

/-- The lines of a block: their text, the end of the last of them, the ends of empty lines after it
and the place where the block ends.  `breaks` are the ends of lines before the first of them. -/
def blockLines (folded : Bool) (indent : Nat) : Nat → List Char → Cursor →
    List Char × List Char × List Char × Cursor
  | 0, breaks, c => ([], [], breaks, c)
  | fuel + 1, breaks, c =>
    if c.column ≠ indent || c.isOver then ([], [], breaks, c)
    else
      let indented := c.sees isBlank
      let (line, c) := c.restOfLine
      let (lineEnd, c) := c.lineBreak
      let (more, c) := blockBreaks indent (c.rest.length + 1) c
      if c.column ≠ indent || c.isOver then (breaks ++ line, lineEnd, more, c)
      else
        let joint :=
          if folded && lineEnd = ['\n'] && !indented && !c.sees isBlank then
            if more.isEmpty then [' '] else []
          else lineEnd
        let (text, lastEnd, trailing, c) := blockLines folded indent fuel more c
        (breaks ++ line ++ joint ++ text, lastEnd, trailing, c)

/-- A block scalar from its mark on.  `least` is the least column that its lines may start at. -/
def blockScalar (folded : Bool) (least : Nat) (c : Cursor) : Except Fault (List Char × Cursor) := do
  let (header, c) ← blockHeader c.next
  let (breaks, indent, c) :=
    match header.indentation with
    | none =>
      let (breaks, widest, c) := leadingBreaks (c.rest.length + 1) 0 c
      (breaks, max least widest, c)
    | some n =>
      let (breaks, c) := blockBreaks (least + n - 1) (c.rest.length + 1) c
      (breaks, least + n - 1, c)
  let (text, lastEnd, trailing, c) := blockLines folded indent (c.rest.length + 1) breaks c
  return (text ++ (match header.chomping with
    | .strip => []
    | .clip => lastEnd
    | .keep => lastEnd ++ trailing), c)

end SequenceChart.Yaml
