import SequenceChart.Yaml.Fault
set_option autoImplicit false

/-!
# Dates and moments

A date is written with its year, month and day.  A moment adds a time of day after a `T` or blanks,
with decimals of a second and an offset from universal time where they are wanted.  Dates follow
the Gregorian calendar back to the year 1.
-/

namespace SequenceChart.Yaml

/-- A day. -/
structure Date where
  year : Nat
  month : Nat
  day : Nat
  deriving DecidableEq, Repr, Inhabited

/-- A time of a day; the offset is in minutes ahead of universal time. -/
structure Moment where
  date : Date
  hour : Nat
  minute : Nat
  second : Nat
  micros : Nat
  offset : Option Int
  deriving DecidableEq, Repr, Inhabited

/-- A number with leading zeros up to a width. -/
def padded (width n : Nat) : List Char :=
  let digits := Decimal.natDigits n
  List.replicate (width - digits.length) '0' ++ digits

/-- The year has a 29th of February. -/
def isLeapYear (year : Nat) : Bool := year % 4 = 0 && (year % 100 ≠ 0 || year % 400 = 0)

/-- The days of a month. -/
def daysInMonth (year month : Nat) : Nat :=
  if month = 2 then if isLeapYear year then 29 else 28
  else if [4, 6, 9, 11].contains month then 30
  else 31

namespace Date

/-- The date, if there is one. -/
def check (d : Date) : Except CalendarFault Date :=
  if d.year = 0 || 9999 < d.year then .error (.year d.year)
  else if d.month = 0 || 12 < d.month then .error .month
  else if d.day = 0 || daysInMonth d.year d.month < d.day then .error .day
  else .ok d

/-- Year, month and day with hyphens between them. -/
def text (d : Date) : List Char :=
  padded 4 d.year ++ '-' :: padded 2 d.month ++ '-' :: padded 2 d.day

/-- The days from the first of January of the year 1. -/
def dayNumber (d : Date) : Nat :=
  let past := d.year - 1
  past * 365 + past / 4 - past / 100 + past / 400
    + (List.range (d.month - 1)).foldl (fun days m => days + daysInMonth d.year (m + 1)) 0
    + (d.day - 1)

end Date

namespace Moment

/-- The moment, if there is one. -/
def check (m : Moment) : Except CalendarFault Moment := do
  if let some minutes := m.offset then
    if 1440 ≤ minutes.natAbs then throw (.offset minutes)
  discard m.date.check
  if 24 ≤ m.hour then throw .hour
  if 60 ≤ m.minute then throw .minute
  if 60 ≤ m.second then throw .second
  return m

/-- An offset: a sign, hours and minutes. -/
def offsetText (minutes : Int) : List Char :=
  (if minutes < 0 then '-' else '+')
    :: (padded 2 (minutes.natAbs / 60) ++ ':' :: padded 2 (minutes.natAbs % 60))

/-- The date and the time of day with a space between them; the decimals of a second are left out
when they are zero. -/
def text (m : Moment) : List Char :=
  m.date.text ++ ' ' :: padded 2 m.hour ++ ':' :: padded 2 m.minute ++ ':' :: padded 2 m.second
    ++ (if m.micros = 0 then [] else '.' :: padded 6 m.micros)
    ++ (m.offset.elim [] offsetText)

/-- The microseconds from the start of the year 1 on the clock of universal time, or on the clock
of the moment's place where no offset is told. -/
def instant (m : Moment) : Int :=
  let minutes : Int := (m.date.dayNumber * 1440 + m.hour * 60 + m.minute : Nat)
  (minutes - m.offset.getD 0) * 60000000 + ((m.second * 1000000 + m.micros : Nat) : Int)

/-- Two moments are one instant; with an offset told for one of them alone they never are. -/
def sameInstant (m n : Moment) : Bool :=
  m.offset.isSome = n.offset.isSome && m.instant = n.instant

end Moment

/-! ## Reading -/

/-- A date as it is written, or a moment. -/
inductive Stamp where
  | date (d : Date)
  | moment (m : Moment)
  deriving DecidableEq, Repr, Inhabited

namespace Stamp

/-- A number of one or two digits. -/
def shortNumber : List Char → Option (Nat × List Char)
  | a :: b :: rest =>
    if !a.isDigit then none
    else if b.isDigit then some (Decimal.natOfDigits [a, b], rest)
    else some (Decimal.natOfDigits [a], b :: rest)
  | [a] => if a.isDigit then some (Decimal.natOfDigits [a], []) else none
  | [] => none

/-- A number of exactly two digits. -/
def twoDigits : List Char → Option (Nat × List Char)
  | a :: b :: rest =>
    if a.isDigit && b.isDigit then some (Decimal.natOfDigits [a, b], rest) else none
  | _ => none

/-- The text after a character that it must start with. -/
def after (c : Char) : List Char → Option (List Char)
  | x :: rest => if x = c then some rest else none
  | [] => none

/-- Year, month and day. -/
def readDate (cs : List Char) : Option (Date × List Char) := do
  let digits := cs.take 4
  guard (digits.length = 4 && digits.all Char.isDigit)
  let (month, rest) ← shortNumber (← after '-' (cs.drop 4))
  let (day, rest) ← shortNumber (← after '-' rest)
  return (⟨Decimal.natOfDigits digits, month, day⟩, rest)

/-- An offset in minutes, to the end of the text. -/
def readOffset : List Char → Option (Option Int)
  | [] => some none
  | 'Z' :: rest => if rest.isEmpty then some (some 0) else none
  | sign :: rest => do
    guard (sign = '+' || sign = '-')
    let (hours, rest) ← shortNumber rest
    let (minutes, rest) ← if rest.isEmpty then some (0, []) else do twoDigits (← after ':' rest)
    guard rest.isEmpty
    let total : Int := (hours * 60 + minutes : Nat)
    return some (if sign = '-' then -total else total)

/-- The decimals of a second as microseconds; what is finer is cut off. -/
def readMicros (digits : List Char) : Nat :=
  let digits := digits.take 6
  Decimal.natOfDigits digits * Nat.pow 10 (6 - digits.length)

/-- The time of a day, to the end of the text.  Blanks may stand before an offset only. -/
def readTime (d : Date) (cs : List Char) : Option Moment := do
  let (hour, rest) ← shortNumber cs
  let (minute, rest) ← twoDigits (← after ':' rest)
  let (second, rest) ← twoDigits (← after ':' rest)
  let (micros, rest) := match rest with
    | '.' :: rest => (readMicros (rest.takeWhile Char.isDigit), rest.dropWhile Char.isDigit)
    | rest => (0, rest)
  let offset := rest.dropWhile fun c => c = ' ' || c = '\t'
  guard (rest.isEmpty || !offset.isEmpty)
  return ⟨d, hour, minute, second, micros, ← readOffset offset⟩

/-- The text after the letter or the blanks between a date and a time. -/
def afterDate : List Char → Option (List Char)
  | 'T' :: rest => some rest
  | 't' :: rest => some rest
  | cs =>
    let rest := cs.dropWhile fun c => c = ' ' || c = '\t'
    if rest.length < cs.length then some rest else none

/-- The date or moment that a text writes, whether there is such a one or not. -/
def read? (cs : List Char) : Option Stamp := do
  let (d, rest) ← readDate cs
  if rest.isEmpty then return .date d
  return .moment (← readTime d (← afterDate rest))

/-- The text writes a date or a moment in the form of plain scalars, where month and day of a mere
date have two digits. -/
def isPlain (cs : List Char) : Bool :=
  match read? cs with
  | some (.date _) => cs.length = 10
  | some (.moment _) => true
  | none => false

end Stamp

end SequenceChart.Yaml
