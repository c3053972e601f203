import SequenceChart.Decimal.Numeral
import SequenceChart.Text.Quoted
set_option autoImplicit false

/-!
# Why a YAML text gives no value

A text can break a rule of YAML, or of the tags and anchors in it; then it is malformed, and no more
is said about it.  A text that keeps these rules can still write a scalar that has no value: a
number, a truth value, a time or a character that does not exist, or a scalar that is its own text.
-/

namespace SequenceChart.Yaml

/-- Why an offset, a date or a time of day does not exist. -/
inductive CalendarFault where
  | year (n : Nat)
  | month
  | day
  | hour
  | minute
  | second
  | offset (minutes : Int)
  deriving DecidableEq, Repr, Inhabited

namespace CalendarFault

/-- A span of time in whole days and in seconds of a day; what is zero is left out. -/
def span (minutes : Int) : String :=
  let days := minutes / 1440
  let seconds := minutes % 1440 * 60
  let part (name : String) (n : Int) : List String :=
    if n = 0 then [] else [name ++ "=" ++ String.ofList (Decimal.intDigits n)]
  "datetime.timedelta(" ++ ", ".intercalate (part "days" days ++ part "seconds" seconds) ++ ")"

def message : CalendarFault → String
  | year n => "year " ++ String.ofList (Decimal.natDigits n) ++ " is out of range"
  | month => "month must be in 1..12"
  | day => "day is out of range for month"
  | hour => "hour must be in 0..23"
  | minute => "minute must be in 0..59"
  | second => "second must be in 0..59"
  | offset minutes =>
    "offset must be a timedelta strictly between -timedelta(hours=24) and timedelta(hours=24), not "
      ++ span minutes ++ "."

end CalendarFault

/-- Why a text gives no value. -/
inductive Fault where
  | malformed
  | endless
  | codePoint (code : Nat)
  | longNumeral (digits : Nat)
  | noInteger (base : Nat) (text : List Char)
  | noFloat (text : List Char)
  | emptyNumeral
  | largeScale
  | noBool (text : List Char)
  | noMoment
  | momentOfMapping
  | calendar (why : CalendarFault)
  deriving DecidableEq, Repr, Inhabited

namespace Fault

/-- The wording of a fault.  An integer's text is cut after 200 characters of its quoted form. -/
def message : Fault → String
  | malformed => "malformed text"
  | endless => "maximum recursion depth exceeded"
  | codePoint code =>
    if code < 0x80000000 then "chr() arg not in range(0x110000)"
    else "Python int too large to convert to C int"
  | longNumeral digits => Decimal.unreadText digits
  | noInteger base text =>
    "invalid literal for int() with base " ++ String.ofList (Decimal.natDigits base) ++ ": "
      ++ String.ofList ((Text.quotedChars text).take 200)
  | noFloat text =>
    "could not convert string to float: " ++ String.ofList (Text.quotedChars text)
  | emptyNumeral => "string index out of range"
  | largeScale => "int too large to convert to float"
  | noBool text => String.ofList (Text.quotedChars text)
  | noMoment => "no date and time"
  | momentOfMapping => "a mapping where a date is wanted"
  | calendar why => why.message

end Fault

end SequenceChart.Yaml
