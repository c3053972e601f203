import SequenceChart.Text.Basic
set_option autoImplicit false

/-!
# What numbers look like

A plain scalar is a number if it is written like one.  Numbers may hold low lines, and a colon
between digits separates groups of sixty.
-/

namespace SequenceChart.Yaml

namespace Pattern

/-- The text after a sign that it may start with. -/
def afterSign : List Char → List Char
  | '+' :: rest => rest
  | '-' :: rest => rest
  | cs => cs

/-- A decimal digit or a low line. -/
def isDigitOrLine (c : Char) : Bool := c.isDigit || c = '_'

/-- The text after groups of sixty, each a colon and one or two digits. -/
def afterSixtieths : List Char → List Char
  | ':' :: a :: b :: rest =>
    if '0' ≤ a && a ≤ '5' && b.isDigit then afterSixtieths rest
    else if a.isDigit then afterSixtieths (b :: rest)
    else ':' :: a :: b :: rest
  | [':', a] => if a.isDigit then [] else [':', a]
  | cs => cs

/-- The text is a row of groups of sixty, of which there is at least one. -/
def areSixtieths (cs : List Char) : Bool := !cs.isEmpty && (afterSixtieths cs).isEmpty

/-- The text is empty or an exponent, which has a sign. -/
def isExponent : List Char → Bool
  | [] => true
  | e :: sign :: digits =>
    (e = 'e' || e = 'E') && (sign = '+' || sign = '-') && !digits.isEmpty && digits.all Char.isDigit
  | _ => false

/-- The text writes an integer. -/
def isInt (cs : List Char) : Bool :=
  match afterSign cs with
  | [] => false
  | '0' :: 'b' :: rest => !rest.isEmpty && rest.all fun c => c = '0' || c = '1' || c = '_'
  | '0' :: 'x' :: rest => !rest.isEmpty && rest.all fun c => (Text.hexValue? c).isSome || c = '_'
  | '0' :: rest => rest.all fun c => ('0' ≤ c && c ≤ '7') || c = '_'
  | c :: rest =>
    let after := rest.dropWhile isDigitOrLine
    c.isDigit && (after.isEmpty || areSixtieths after)

/-- The text writes a number with a point. -/
def isFloat (cs : List Char) : Bool :=
  (match afterSign cs with
    | c :: rest =>
      c.isDigit && (match rest.dropWhile isDigitOrLine with
        | '.' :: decimals => isExponent (decimals.dropWhile isDigitOrLine)
        | ':' :: after =>
          match afterSixtieths (':' :: after) with
          | '.' :: decimals => decimals.all isDigitOrLine
          | _ => false
        | _ => false)
    | [] => false)
  || (match cs with
    | '.' :: c :: rest => c.isDigit && isExponent (rest.dropWhile isDigitOrLine)
    | _ => false)
  || [['.', 'i', 'n', 'f'], ['.', 'I', 'n', 'f'], ['.', 'I', 'N', 'F']].contains (afterSign cs)
  || [['.', 'n', 'a', 'n'], ['.', 'N', 'a', 'N'], ['.', 'N', 'A', 'N']].contains cs

end Pattern

end SequenceChart.Yaml
