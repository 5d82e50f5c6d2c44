import LinkedMarkup.Statement.Term
import LinkedMarkup.Text.Blank
import LinkedMarkup.Text.Digit

/-
  This file defines the written forms of dates, times and
  durations, and the datatype that a text in one of these
  forms has. Numbers may use the digits of any script.

  Key definitions include:
    * `Moment.isDuration`
    * `Moment.isDateTime`
    * `Moment.isDate`
    * `Moment.isTime`
    * `Moment.isYearMonth`
    * `Moment.isYear`
    * `Moment.datatype?`
-/

namespace LinkedMarkup
namespace Moment

------------------------------------------------------------
-- Pieces
------------------------------------------------------------

/- What follows an exact number of digits. -/
def exactly? :
    Nat → List Char → Option (List Char)
  | 0, cs => some cs
  | _ + 1, [] => none
  | n + 1, c :: cs =>
      if Text.isDecimal c then exactly? n cs else none

/- What follows a run of at least so many digits. -/
def atLeast?
    (n : Nat)
    (cs : List Char) : Option (List Char) :=
  if (cs.takeWhile Text.isDecimal).length ≥ n then
    some (cs.dropWhile Text.isDecimal)
  else
    none

/- What follows a given character. -/
def mark?
    (mark : Char)
    (cs : List Char) : Option (List Char) :=
  match cs with
  | [] => none
  | c :: rest => if c == mark then some rest else none

/- What follows an optional minus. -/
def afterSign
    (cs : List Char) : List Char :=
  (mark? '-' cs).getD cs

/- What follows an optional number with its mark. -/
def afterPart
    (mark : Char)
    (cs : List Char) : List Char :=
  ((atLeast? 1 cs).bind (mark? mark)).getD cs

/- What follows an optional fraction of digits. -/
def afterFraction
    (cs : List Char) : List Char :=
  ((mark? '.' cs).bind (atLeast? 1)).getD cs

/- What follows an optional number of seconds, as `4.5S`. -/
def afterSecondsPart
    (cs : List Char) : List Char :=
  ((atLeast? 1 cs).bind (fun r => mark? 'S' (afterFraction r))).getD cs

/- Whether a text is a time zone or empty. -/
def isZone
    (cs : List Char) : Bool :=
  match cs with
  | [] => true
  | ['Z'] => true
  | c :: rest =>
      (c == '+' || c == '-') &&
        ((exactly? 2 rest).bind
          (fun r => exactly? 2 ((mark? ':' r).getD r))) == some []

/- What follows a year of four digits or more. -/
def afterYear?
    (cs : List Char) : Option (List Char) :=
  atLeast? 4 (afterSign cs)

/- What follows a year, a month and a day. -/
def afterDay?
    (cs : List Char) : Option (List Char) := do
  let month ← (← afterYear? cs) |> mark? '-'
  let day ← (← exactly? 2 month) |> mark? '-'
  exactly? 2 day

/- What follows hours, minutes and optional seconds. -/
def afterClock?
    (cs : List Char) : Option (List Char) := do
  let minutes ← (← exactly? 2 cs) |> mark? ':'
  let rest ← exactly? 2 minutes
  return ((mark? ':' rest).bind
    (fun r => (exactly? 2 r).map afterFraction)).getD rest

------------------------------------------------------------
-- Forms
------------------------------------------------------------

/-
  Whether a text is the part of a duration after `T`: hours,
  minutes and seconds, at least one of them.
-/
def isClockDuration
    (cs : List Char) : Bool :=
  !cs.isEmpty &&
    (afterSecondsPart (afterPart 'M' (afterPart 'H' cs))).isEmpty

/-
  Whether a text is a duration: years, months, days and the
  part after `T`, at least one of them, in this order.
-/
def isDuration
    (cs : List Char) : Bool :=
  match mark? 'P' (afterSign cs) with
  | none => false
  | some parts =>
      !parts.isEmpty &&
        match afterPart 'D' (afterPart 'M' (afterPart 'Y' parts)) with
        | [] => true
        | c :: rest => c == 'T' && isClockDuration rest

/- Whether a text is a date and a time. -/
def isDateTime
    (cs : List Char) : Bool :=
  match (afterDay? cs).bind (fun r => (mark? 'T' r).bind afterClock?) with
  | none => false
  | some zone => isZone zone

/- Whether a text is a date. -/
def isDate
    (cs : List Char) : Bool :=
  match afterDay? cs with
  | none => false
  | some zone => isZone zone

/- Whether a text is a time. -/
def isTime
    (cs : List Char) : Bool :=
  match afterClock? cs with
  | none => false
  | some zone => isZone zone

/- Whether a text is a year and a month. -/
def isYearMonth
    (cs : List Char) : Bool :=
  ((afterYear? cs).bind (fun r => (mark? '-' r).bind (exactly? 2))) ==
    some []

/- Whether a text is a year. -/
def isYear
    (cs : List Char) : Bool :=
  afterYear? cs == some []

/- The forms and their datatypes, in the order they are tried. -/
def forms : List ((List Char → Bool) × Iri) :=
  [(isDuration, Xsd.duration), (isDateTime, Xsd.dateTime),
    (isDate, Xsd.date), (isTime, Xsd.time),
    (isYearMonth, Xsd.gYearMonth), (isYear, Xsd.gYear)]

/- The datatype of a text that is in one of the forms. -/
def datatype?
    (value : String) : Option Iri :=
  (forms.find? (fun form => form.1 (Text.trimChars value.toList))).map
    (·.2)

end Moment
end LinkedMarkup
