import LinkedMarkup.Number.Decimal

/-
  This file defines durations: a number of months and a
  number of seconds, how they are read and how they are
  written in normal form.

  Key definitions include:
    * `Duration`
    * `Duration.Parts`
    * `Duration.parts?`
    * `Duration.parse?`
    * `Duration.ofMonths?`
    * `Duration.ofSeconds?`
    * `Duration.written`
-/

namespace LinkedMarkup

/- A duration. Months and seconds have the same sign. -/
structure Duration where
  months : Int
  seconds : Decimal
  deriving DecidableEq, Repr

namespace Duration

------------------------------------------------------------
-- Reading
------------------------------------------------------------

/-
  The months and the seconds of a duration, as far as its
  text gives any.
-/
structure Parts where
  months : Option Int
  seconds : Option Decimal
  deriving DecidableEq, Repr

namespace Parts

/- Add months, if the sum is in a range of 64 bits. -/
def addMonths?
    (p : Parts)
    (n : Int) : Option Parts :=
  let sum := p.months.getD 0 + n
  if SignedRange.holds 64 sum then
    some { p with months := some sum }
  else
    none

/- Add seconds, given in units of decimals, if in range. -/
def addSeconds?
    (p : Parts)
    (units : Int) : Option Parts :=
  match (Decimal.ofUnits? units).bind
      ((p.seconds.getD Decimal.zero).add? ·) with
  | some sum => some { p with seconds := some sum }
  | none => none

end Parts

/- The kinds of parts. -/
inductive Part where
  | months (count : Nat)
  | seconds (count : Nat)
  | exactSeconds
  deriving DecidableEq, Repr

/-
  The parts before the `T` and those after it: their marks,
  and how many months or seconds each counts.
-/
def dayParts : List (Char × Part) :=
  [('Y', .months 12), ('M', .months 1), ('D', .seconds 86400)]

/- The parts of a time of day. -/
def clockParts : List (Char × Part) :=
  [('H', .seconds 3600), ('M', .seconds 60), ('S', .exactSeconds)]

/- Add a part with a number before its mark. -/
def addPart?
    (negative : Bool)
    (part : Part)
    (digits : List Char)
    (p : Parts) : Option Parts :=
  let whole := !digits.contains '.'
  let n := Text.natOfDigits digits
  match part with
  | .months count =>
      if whole then
        p.addMonths? (Decimal.withSign negative (n * count))
      else
        none
  | .seconds count =>
      if whole then
        p.addSeconds?
          (Decimal.withSign negative (n * count * Decimal.one))
      else
        none
  | .exactSeconds =>
      match Decimal.parseMagnitude? digits with
      | some units => p.addSeconds? (Decimal.withSign negative units)
      | none => none

/- A number with at most one point, and what follows it. -/
def cutNumber
    (cs : List Char) : List Char × List Char :=
  let whole := cs.takeWhile Text.isAsciiDigit
  match cs.dropWhile Text.isAsciiDigit with
  | '.' :: rest =>
      (whole ++ '.' :: rest.takeWhile Text.isAsciiDigit,
        rest.dropWhile Text.isAsciiDigit)
  | rest => (whole, rest)

/- Read the parts of a list that are there, in its order. -/
def readParts
    (negative : Bool) :
    List (Char × Part) → Parts → List Char → Parts × List Char
  | [], p, cs => (p, cs)
  | (mark, part) :: more, p, cs =>
      match cutNumber cs with
      | (_ :: _, []) => (p, cs)
      | ([], _) => (p, cs)
      | (d :: digits, c :: rest) =>
          if c == mark then
            match addPart? negative part (d :: digits) p with
            | some next => readParts negative more next rest
            | none => (p, cs)
          else
            readParts negative more p cs

/- The parts of a duration, at least one of them. -/
def parts?
    (cs : List Char) : Option Parts :=
  let negative := cs.head? == some '-'
  match if negative then cs.drop 1 else cs with
  | 'P' :: body =>
      let (days, rest) := readParts negative dayParts ⟨none, none⟩ body
      let (all, rest) :=
        match rest with
        | 'T' :: clock => readParts negative clockParts days clock
        | _ => (days, rest)
      if rest.isEmpty && (all.months.isSome || all.seconds.isSome) then
        some all
      else
        none
  | _ => none

/- The duration that a text writes. -/
def parse?
    (cs : List Char) : Option Duration :=
  (parts? cs).map (fun p =>
    ⟨p.months.getD 0, p.seconds.getD Decimal.zero⟩)

/- The duration of months alone that a text writes. -/
def ofMonths?
    (cs : List Char) : Option Duration :=
  match parts? cs with
  | some ⟨some months, none⟩ => some ⟨months, Decimal.zero⟩
  | _ => none

/- The duration of seconds alone that a text writes. -/
def ofSeconds?
    (cs : List Char) : Option Duration :=
  match parts? cs with
  | some ⟨none, some seconds⟩ => some ⟨0, seconds⟩
  | _ => none

------------------------------------------------------------
-- Writing
------------------------------------------------------------

/- A number with a mark, or nothing for zero. -/
def marked
    (mark : Char)
    (n : Nat) : List Char :=
  if n == 0 then [] else Binary.decimalDigits n ++ [mark]

/- The part of a duration before the `T`. -/
def writtenDays
    (months days : Nat) : List Char :=
  marked 'Y' (months / 12) ++ marked 'M' (months % 12) ++
    marked 'D' days

/- The part of a duration after the `T`, with it. -/
def writtenClock
    (hours minutes units : Nat) : List Char :=
  let seconds :=
    if units == 0 then [] else Decimal.magnitude units ++ ['S']
  match marked 'H' hours ++ marked 'M' minutes ++ seconds with
  | [] => []
  | body => 'T' :: body

/- A duration in its written form. -/
def written
    (d : Duration) : List Char :=
  let sign :=
    if d.months < 0 || d.seconds.units < 0 then ['-'] else []
  let months := d.months.natAbs
  let units := d.seconds.units.natAbs
  let whole := units / Decimal.one
  let body :=
    writtenDays months (whole / 86400) ++
      writtenClock (whole % 86400 / 3600) (whole % 3600 / 60)
        (units % (60 * Decimal.one))
  if body.isEmpty then
    ['P', 'T', '0', 'S']
  else
    sign ++ 'P' :: body

/- A duration of months alone in its written form. -/
def writtenMonths
    (d : Duration) : List Char :=
  if d.months == 0 then ['P', '0', 'M'] else written d

end Duration
end LinkedMarkup
