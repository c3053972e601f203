import SequenceChart.Source.Scanner
set_option autoImplicit false

/-!
# Tokens on demand

A `TokenStream` delivers the tokens of a list of lines one at a time and takes no line before a
token of it is asked for.  A line is scanned as a whole before its first token is delivered, so a
refused line delivers nothing.  After the last token and after a refusal the stream is over.
-/

namespace SequenceChart

/-- A suspended run over lines: the scanner, tokens that wait for delivery and the lines not yet
taken. -/
structure TokenStream where
  scanner : Scanner := {}
  waiting : List Token := []
  unread : List (List Char)
  ended : Bool := false
  deriving DecidableEq, Repr, Inhabited

namespace TokenStream

/-- The stream of a list of lines, before any of them is taken. -/
def ofLines (lines : List (List Char)) : TokenStream := { unread := lines }

/-- What a stream answers when it is asked for a token. -/
inductive Answer where
  | token (t : Token)
  | refused (why : Scanner.Refusal)
  | ended
  deriving DecidableEq, Repr, Inhabited

/-- Takes lines until one of them has a token. -/
def pull (s : Scanner) : List (List Char) → Answer × TokenStream
  | [] =>
    match s.close with
    | (.ok t, s) => (.token t, ⟨s, [], [], true⟩)
    | (.error why, s) => (.refused why, ⟨s, [], [], true⟩)
  | line :: rest =>
    match s.feed line with
    | (.error why, s) => (.refused why, ⟨s, [], rest, true⟩)
    | (.ok [], s) => pull s rest
    | (.ok (t :: waiting), s) => (.token t, ⟨s, waiting, rest, false⟩)

/-- Asks for the next token. -/
def next (stream : TokenStream) : Answer × TokenStream :=
  if stream.ended then (.ended, stream)
  else match stream.waiting with
    | t :: waiting => (.token t, { stream with waiting })
    | [] => pull stream.scanner stream.unread

end TokenStream

end SequenceChart
