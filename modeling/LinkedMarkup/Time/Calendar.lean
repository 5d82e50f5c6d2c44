/-
  This file defines the days of the Gregorian calendar, before
  and after year one, and how they are counted.

  Key definitions include:
    * `Calendar.isLeap`
    * `Calendar.daysInMonth`
    * `Calendar.Day`
    * `Calendar.Day.next`
    * `Calendar.Day.number`
-/

namespace LinkedMarkup
namespace Calendar

/- Whether a year has a day more. -/
def isLeap
    (year : Int) : Bool :=
  year % 4 == 0 && (year % 100 != 0 || year % 400 == 0)

/-
  The number of days of a month. A month of no particular
  year is taken as one of a year that is not a leap year.
-/
def daysInMonth
    (year : Option Int)
    (month : Nat) : Nat :=
  if month == 2 then
    if year.any isLeap then 29 else 28
  else if month == 4 || month == 6 || month == 9 || month == 11 then
    30
  else
    31

/- A day: its year, its month and its place in that. -/
structure Day where
  year : Int
  month : Nat
  day : Nat
  deriving DecidableEq, Repr

namespace Day

/- Whether a day is one of its month. -/
def isValid
    (d : Day) : Bool :=
  1 ≤ d.day && d.day ≤ daysInMonth (some d.year) d.month

/- The day after a day. -/
def next
    (d : Day) : Day :=
  if d.day < daysInMonth (some d.year) d.month then
    { d with day := d.day + 1 }
  else if d.month < 12 then
    ⟨d.year, d.month + 1, 1⟩
  else
    ⟨d.year + 1, 1, 1⟩

/- The number of days from the first day of year one. -/
def number
    (d : Day) : Int :=
  let past := d.year - 1
  let months := (List.range (d.month - 1)).map (fun m =>
    daysInMonth (some d.year) (m + 1))
  365 * past + past / 4 - past / 100 + past / 400 +
    Int.ofNat (months.foldl (· + ·) 0) + Int.ofNat d.day - 1

end Day
end Calendar
end LinkedMarkup
