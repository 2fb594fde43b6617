/-!
# Dates and moments

Days of the Gregorian calendar from the year 1 to the year 9999, and moments of such a day, with
or without a distance from universal time.
-/

namespace FatInstall

/-- A day. -/
structure Date where
  year : Nat
  month : Nat
  day : Nat
  deriving DecidableEq, Repr

namespace Date

/-- Has the year a 29 February? -/
def isLeap (year : Nat) : Bool := year % 4 == 0 && (year % 100 != 0 || year % 400 == 0)

/-- The number of days of a month. -/
def monthLength (year month : Nat) : Nat :=
  if month = 2 then (if isLeap year then 29 else 28)
  else if month = 4 ∨ month = 6 ∨ month = 9 ∨ month = 11 then 30 else 31

/-- The day, if the calendar has it. -/
def of? (year month day : Nat) : Option Date :=
  if 1 ≤ year ∧ year ≤ 9999 ∧ 1 ≤ month ∧ month ≤ 12 ∧ 1 ≤ day ∧ day ≤ monthLength year month then
    some ⟨year, month, day⟩
  else none

/-- The number of days before a day of the same year. -/
def dayOfYear (d : Date) : Nat :=
  ((List.range (d.month - 1)).map fun m => monthLength d.year (m + 1)).foldl (· + ·) 0 + d.day - 1

/-- The number of days from the first day of the year 1. -/
def dayNumber (d : Date) : Nat :=
  let y := d.year - 1
  y * 365 + y / 4 - y / 100 + y / 400 + d.dayOfYear

/-- A number with at least so many digits. -/
def padded (width n : Nat) : String :=
  let s := toString n
  String.ofList (List.replicate (width - s.length) '0') ++ s

/-- The day as year, month and day. -/
def text (d : Date) : String := s!"{padded 4 d.year}-{padded 2 d.month}-{padded 2 d.day}"

end Date

/-- A moment of a day. -/
structure Moment where
  date : Date
  hour : Nat
  minute : Nat
  second : Nat
  microsecond : Nat
  /-- Minutes ahead of universal time, if known. -/
  offset : Option Int
  deriving DecidableEq, Repr

namespace Moment

/-- The moment, if the clock has it and the offset is less than a day. -/
def of? (date : Date) (hour minute second microsecond : Nat) (offset : Option Int) :
    Option Moment :=
  if hour < 24 ∧ minute < 60 ∧ second < 60 ∧ (offset.getD 0).natAbs < 24 * 60 then
    some ⟨date, hour, minute, second, microsecond, offset⟩
  else none

/-- Microseconds on the universal clock, from the start of the year 1. -/
def instant (m : Moment) : Int :=
  let minutes : Int :=
    (m.date.dayNumber * 24 + m.hour) * 60 + m.minute - m.offset.getD 0
  (minutes * 60 + m.second) * 1000000 + m.microsecond

/-- An offset as hours and minutes. -/
def offsetText (minutes : Int) : String :=
  let n := minutes.natAbs
  let sign := if minutes < 0 then "-" else "+"
  s!"{sign}{Date.padded 2 (n / 60)}:{Date.padded 2 (n % 60)}"

/-- The moment as day, time and offset. -/
def text (m : Moment) : String :=
  let fraction := if m.microsecond = 0 then "" else "." ++ Date.padded 6 m.microsecond
  let time := s!"{Date.padded 2 m.hour}:{Date.padded 2 m.minute}:{Date.padded 2 m.second}"
  let zone := (m.offset.map offsetText).getD ""
  s!"{m.date.text} {time}{fraction}{zone}"

end Moment

end FatInstall
