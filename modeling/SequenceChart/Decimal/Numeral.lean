import SequenceChart.Decimal.Shortest
set_option autoImplicit false

/-!
# Numerals

A double is written with the fewest digits that read back: positionally and with at least one digit
after the point for numbers from `0.0001` to below `10 ^ 16`, otherwise with one digit before the
point and a signed exponent of at least two digits.  Reading a numeral rounds its exact value once.
-/

namespace SequenceChart.Decimal

/-- The decimal digits of a natural number. -/
def natDigits (n : Nat) : List Char := Nat.toDigits 10 n

/-- An integer in decimal. -/
def intDigits (n : Int) : List Char :=
  if n < 0 then '-' :: natDigits n.natAbs else natDigits n.natAbs

/-- The most digits of an integer that is read or shown in decimal. -/
def digitLimit : Nat := 4300

/-- An integer in decimal, unless it has too many digits to be shown. -/
def shownInt? (n : Int) : Option (List Char) :=
  if digitLimit < (natDigits n.natAbs).length then none else some (intDigits n)

/-- The message about an integer with too many digits to be shown. -/
def unshownText : String :=
  "Exceeds the limit (4300 digits) for integer string conversion; "
    ++ "use sys.set_int_max_str_digits() to increase the limit"

/-- The message about a numeral of an integer with too many digits to be read. -/
def unreadText (digits : Nat) : String :=
  "Exceeds the limit (4300 digits) for integer string conversion: value has "
    ++ String.ofList (natDigits digits)
    ++ " digits; use sys.set_int_max_str_digits() to increase the limit"

/-- Digits with a decimal point at `point` places from their start, at least one digit on either
side of it. -/
def positional (digits : List Char) (point : Int) : List Char :=
  if point ≤ 0 then '0' :: '.' :: (List.replicate (-point).toNat '0' ++ digits)
  else if digits.length ≤ point.toNat then
    digits ++ List.replicate (point.toNat - digits.length) '0' ++ ['.', '0']
  else digits.take point.toNat ++ '.' :: digits.drop point.toNat

/-- Digits with the point after the first of them and an exponent. -/
def exponential (digits : List Char) (exponent : Int) : List Char :=
  let size := natDigits exponent.natAbs
  digits.take 1 ++ (if digits.length ≤ 1 then [] else '.' :: digits.drop 1)
    ++ 'e' :: (if exponent < 0 then '-' else '+')
    :: (if size.length < 2 then '0' :: size else size)

/-- The number `d * 10 ^ k` for a positive `d` without trailing zeros. -/
def decimalText (d : Nat) (k : Int) : List Char :=
  let digits := natDigits d
  let point := k + digits.length
  if -4 < point && point ≤ 16 then positional digits point else exponential digits (point - 1)

/-- A finite double by its pattern, sign aside. -/
def magnitudeText (bits : Nat) : List Char :=
  if bits = 0 then ['0', '.', '0'] else decimalText (shortest bits).1 (shortest bits).2

/-- The words for the doubles that no numeral writes. -/
structure Words where
  notANumber : String
  infinity : String

/-- A double as a numeral or one of the given words; only infinity shows a sign among them. -/
def write (words : Words) (x : Float) : List Char :=
  if infinityBits < magnitude x then words.notANumber.toList
  else
    let body :=
      if magnitude x = infinityBits then words.infinity.toList else magnitudeText (magnitude x)
    if isSigned x then '-' :: body else body

/-- In messages and in answers infinity is `inf`. -/
def plainWords : Words := ⟨"nan", "inf"⟩

/-- The text of a double in messages and in answers. -/
def text (x : Float) : String := String.ofList (write plainWords x)

/-- The double nearest to `d * 10 ^ k`.  A number beyond 310 places or below 330 decimals is out of
range whatever its digits are, so its power of ten is never computed. -/
def readMagnitude (d : Nat) (k : Int) : Nat :=
  if d = 0 then 0
  else
    let places := k + (natDigits d).length
    if 310 < places then infinityBits
    else if places < -330 then 0
    else nearest (d * Nat.pow 10 k.toNat) (Nat.pow 10 (-k).toNat)

/-- The double nearest to `± d * 10 ^ k`. -/
def ofDecimal (negative : Bool) (d : Nat) (k : Int) : Float :=
  ofMagnitude negative (readMagnitude d k)

/-- The double nearest to an integer, unless the integer is too large for a finite one. -/
def ofInt? (n : Int) : Option Float :=
  let bits := if n = 0 then 0 else nearest n.natAbs 1
  if bits = infinityBits then none else some (ofMagnitude (n < 0) bits)

/-- The value of a row of decimal digits. -/
def natOfDigits (cs : List Char) : Nat := cs.foldl (fun n c => 10 * n + (c.toNat - 48)) 0

/-- The number that an optional sign and a row of digits write. -/
def intOfDigits (negative : Bool) (cs : List Char) : Int :=
  if negative then -(natOfDigits cs : Int) else natOfDigits cs

end SequenceChart.Decimal
