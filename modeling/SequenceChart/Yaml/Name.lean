import SequenceChart.Text.Basic
import SequenceChart.Text.Utf8
import SequenceChart.Yaml.Cursor
set_option autoImplicit false

/-!
# Names of anchors and tags

An anchor's name is a run of letters, digits, hyphens and low lines.  A tag is a URI between angle
brackets, or a handle and the rest of a URI; a handle is `!`, `!!` or a name between two exclamation
marks.  In a URI a percent sign and two hexadecimal digits stand for a byte.
-/

namespace SequenceChart.Yaml

/-- The characters that may follow an anchor's name apart from blanks and the end of the line. -/
def afterName : List Char := ['?', ':', ',', ']', '}', '%', '@', '`']

/-- The name after the mark of an anchor or an alias. -/
def anchorName (c : Cursor) : Except Fault (List Char × Cursor) :=
  let (name, c) := c.next.span isNameChar
  if name.isEmpty then .error .malformed
  else if c.endsAt 0 fun x => isSeparator x || afterName.contains x then .ok (name, c)
  else .error .malformed

/-- The character may stand in a URI. -/
def isUriChar (c : Char) : Bool :=
  c.isAlphanum || ['-', ';', '/', '?', ':', '@', '&', '=', '+', '$', ',', '_', '.', '!', '~', '*',
    '\'', '(', ')', '[', ']', '%'].contains c

/-- The character is a space or ends a line. -/
def isSpaceOrBreak (c : Char) : Bool := c = ' ' || isBreak c

/-- The characters of a URI, where each byte written with a percent sign is kept apart. -/
def uriPieces : List Char → Except Fault (List (Char ⊕ UInt8))
  | [] => .ok []
  | '%' :: a :: b :: rest =>
    match Text.readHex [a, b] with
    | none => .error .malformed
    | some n => do return .inr (UInt8.ofNat n) :: (← uriPieces rest)
  | '%' :: _ => .error .malformed
  | c :: rest => do return .inl c :: (← uriPieces rest)

/-- The text of a URI; bytes next to each other must be UTF-8 together. -/
def uriText : List UInt8 → List (Char ⊕ UInt8) → Except Fault (List Char)
  | bytes, .inr b :: rest => uriText (bytes ++ [b]) rest
  | bytes, rest =>
    match Text.decodeUtf8 bytes with
    | .error _ => .error .malformed
    | .ok cs =>
      match rest with
      | .inl c :: rest => do return cs ++ c :: (← uriText [] rest)
      | _ => .ok cs

/-- A URI, which must not be empty. -/
def uri (c : Cursor) : Except Fault (List Char × Cursor) := do
  let (run, c) := c.span isUriChar
  if run.isEmpty then throw .malformed
  return (← uriText [] (← uriPieces run), c)

/-- A tag's handle, both exclamation marks included. -/
def tagHandle (c : Cursor) : Except Fault (List Char × Cursor) :=
  if c.peek ≠ some '!' then .error .malformed
  else if c.ahead 1 = some ' ' then .ok (['!'], c.next)
  else
    let (name, c) := c.next.span isNameChar
    if c.peek = some '!' then .ok ('!' :: name ++ ['!'], c.next) else .error .malformed

/-- A tag: its handle, unless it is written in full, and the rest of it. -/
structure TagText where
  handle : Option (List Char)
  suffix : List Char
  deriving DecidableEq, Repr, Inhabited

/-- A tag from its first exclamation mark on.  A second exclamation mark before the next space or
the end of the line ends a handle. -/
def tagText (c : Cursor) : Except Fault (TagText × Cursor) := do
  let (tag, c) ←
    if c.ahead 1 = some '<' then
      let (suffix, c) ← uri (c.skip 2)
      if c.peek ≠ some '>' then throw .malformed
      pure (⟨none, suffix⟩, c.next)
    else if c.endsAt 1 isSeparator then pure (⟨none, ['!']⟩, c.next)
    else if (c.next.span fun x => !isSpaceOrBreak x).1.contains '!' then
      let (handle, c) ← tagHandle c
      let (suffix, c) ← uri c
      pure (⟨some handle, suffix⟩, c)
    else
      let (suffix, c) ← uri c.next
      pure ((⟨some ['!'], suffix⟩ : TagText), c)
  if c.endsAt 0 isSpaceOrBreak then return (tag, c) else throw .malformed

end SequenceChart.Yaml
