/-! Dates and times, as documents hold them, and their texts. -/
namespace Foundry

/-- A day of the Gregorian calendar. -/
structure Date where
  year : Nat
  month : Nat
  day : Nat
deriving DecidableEq, Repr

structure TimeOfDay where
  hour : Nat
  minute : Nat
  second : Nat
  microsecond : Nat
deriving DecidableEq, Repr

/-- A date, a time, or both with the offset from UTC in minutes if one is given. -/
inductive Moment where
  | date (d : Date)
  | time (t : TimeOfDay)
  | dateTime (d : Date) (t : TimeOfDay) (offset : Option Int)
deriving DecidableEq, Repr

/-- Decimal digits of `n`, at least `width` of them. -/
def padded (width n : Nat) : String :=
  let digits := Nat.toDigits 10 n
  String.ofList (List.replicate (width - digits.length) '0' ++ digits)

namespace Date

def isLeap (year : Nat) : Bool :=
  year % 4 == 0 && (year % 100 != 0 || year % 400 == 0)

def monthLength (year month : Nat) : Nat :=
  if month = 2 then (if isLeap year then 29 else 28)
  else if month = 4 ∨ month = 6 ∨ month = 9 ∨ month = 11 then 30
  else 31

/-- Whether the day exists; the calendar begins with the year 1. -/
def exists? (d : Date) : Bool :=
  1 ≤ d.year && 1 ≤ d.month && d.month ≤ 12 && 1 ≤ d.day && d.day ≤ monthLength d.year d.month

/-- The date as `YYYY-MM-DD`. -/
def text (d : Date) : String := s!"{padded 4 d.year}-{padded 2 d.month}-{padded 2 d.day}"

end Date

namespace TimeOfDay

/-- The time as `HH:MM:SS`, with six more places unless they are zero. -/
def text (t : TimeOfDay) : String :=
  let seconds := s!"{padded 2 t.hour}:{padded 2 t.minute}:{padded 2 t.second}"
  if t.microsecond = 0 then seconds else s!"{seconds}.{padded 6 t.microsecond}"

/-- The fields of a time as arguments; a zero second and microsecond at the end are left out. -/
def arguments (t : TimeOfDay) : List String :=
  [toString t.hour, toString t.minute] ++
    (if t.microsecond = 0 then (if t.second = 0 then [] else [toString t.second])
     else [toString t.second, toString t.microsecond])

end TimeOfDay

def commaSeparated (texts : List String) : String := String.intercalate ", " texts

namespace Moment

/-- An offset as `+HH:MM`. -/
def offsetText (offset : Int) : String :=
  let minutes := offset.natAbs
  let sign := if offset < 0 then "-" else "+"
  s!"{sign}{padded 2 (minutes / 60)}:{padded 2 (minutes % 60)}"

/-- The moment in the notation of ISO 8601, with a blank between date and time. -/
def text : Moment → String
  | .date d => d.text
  | .time t => t.text
  | .dateTime d t offset => s!"{d.text} {t.text}" ++ (offset.map offsetText).getD ""

/-- An offset as the expression that makes it: a number of seconds, counted from a whole number of
days if it is negative. -/
def offsetLiteral (offset : Int) : String :=
  if offset = 0 then "datetime.timezone.utc"
  else
    let days := Int.fdiv offset 1440
    let seconds := (offset - days * 1440) * 60
    let parts := (if days = 0 then [] else [s!"days={days}"]) ++
      (if seconds = 0 then [] else [s!"seconds={seconds}"])
    s!"datetime.timezone(datetime.timedelta({commaSeparated parts}))"

/-- The moment as the expression that makes it. -/
def literal : Moment → String
  | .date d => s!"datetime.date({d.year}, {d.month}, {d.day})"
  | .time t => s!"datetime.time({commaSeparated t.arguments})"
  | .dateTime d t offset =>
    let fields := [toString d.year, toString d.month, toString d.day] ++ t.arguments ++
      (match offset with
       | none => []
       | some o => [s!"tzinfo={offsetLiteral o}"])
    s!"datetime.datetime({commaSeparated fields})"

end Moment

end Foundry
