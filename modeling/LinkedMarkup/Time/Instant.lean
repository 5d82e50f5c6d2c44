import LinkedMarkup.Number.Decimal
import LinkedMarkup.Time.Calendar

/-
  This file defines dates, times of day and the parts of
  dates that recur, each with an optional time zone, how they
  are read and how they are written in normal form.

  Key definitions include:
    * `Instant.Zone`
    * `Instant.Clock`
    * `Instant`
    * `Instant.Form`
    * `Instant.parse?`
    * `Instant.written`
-/

namespace LinkedMarkup

------------------------------------------------------------
-- Values
------------------------------------------------------------

/- A time zone: so many minutes ahead of universal time. -/
structure Instant.Zone where
  minutes : Int
  deriving DecidableEq, Repr

/- A time of day. -/
structure Instant.Clock where
  hour : Nat
  minute : Nat
  second : Decimal
  deriving DecidableEq, Repr

/- A date, a time of day, or a part of a date. -/
inductive Instant where
  | dateTime (day : Calendar.Day) (clock : Instant.Clock)
      (zone : Option Instant.Zone)
  | time (clock : Instant.Clock) (zone : Option Instant.Zone)
  | date (day : Calendar.Day) (zone : Option Instant.Zone)
  | yearMonth (year : Int) (month : Nat) (zone : Option Instant.Zone)
  | year (year : Int) (zone : Option Instant.Zone)
  | monthDay (month day : Nat) (zone : Option Instant.Zone)
  | monthly (day : Nat) (zone : Option Instant.Zone)
  | yearly (month : Nat) (zone : Option Instant.Zone)
  deriving DecidableEq, Repr

namespace Instant

/- The forms that an instant can be written in. -/
inductive Form where
  | dateTime
  | time
  | date
  | yearMonth
  | year
  | monthDay
  | monthly
  | yearly
  deriving DecidableEq, Repr

------------------------------------------------------------
-- Reading pieces
------------------------------------------------------------

/- A number of exactly two digits, at least and at most so much. -/
def twoDigits?
    (low high : Nat)
    (cs : List Char) : Option (Nat × List Char) :=
  let digits := cs.takeWhile Text.isAsciiDigit
  let n := Text.natOfDigits digits
  if digits.length == 2 && low ≤ n && n ≤ high then
    some (n, cs.dropWhile Text.isAsciiDigit)
  else
    none

/- What follows a given character. -/
def after?
    (mark : Char)
    (cs : List Char) : Option (List Char) :=
  match cs with
  | [] => none
  | c :: rest => if c == mark then some rest else none

/-
  A year: four digits, or more if the first is not zero, in
  a range of 64 bits.
-/
def year?
    (cs : List Char) : Option (Int × List Char) :=
  let negative := cs.head? == some '-'
  let rest := if negative then cs.drop 1 else cs
  let digits := rest.takeWhile Text.isAsciiDigit
  let n := Text.natOfDigits digits
  if digits.length < 4 ||
      (digits.length > 4 && digits.head? == some '0') ||
      !SignedRange.holds 64 (Int.ofNat n) then
    none
  else
    some (Decimal.withSign negative n,
      rest.dropWhile Text.isAsciiDigit)

/- A month. -/
def month?
    (cs : List Char) : Option (Nat × List Char) :=
  twoDigits? 1 12 cs

/- The place of a day in a month. -/
def day?
    (cs : List Char) : Option (Nat × List Char) :=
  twoDigits? 1 31 cs

/- A whole day, which must be one of its month. -/
def wholeDay?
    (cs : List Char) : Option (Calendar.Day × List Char) := do
  let (y, cs) ← year? cs
  let (m, cs) ← month? (← after? '-' cs)
  let (d, cs) ← day? (← after? '-' cs)
  let whole : Calendar.Day := ⟨y, m, d⟩
  if whole.isValid then some (whole, cs) else none

/- Seconds: two digits, then an optional fraction. -/
def second?
    (cs : List Char) : Option (Decimal × List Char) :=
  let whole := cs.takeWhile Text.isAsciiDigit
  let rest := cs.dropWhile Text.isAsciiDigit
  let fraction :=
    match rest with
    | '.' :: more => some (more.takeWhile Text.isAsciiDigit)
    | _ => none
  let shown :=
    match fraction with
    | some digits => whole ++ '.' :: digits
    | none => whole
  match Decimal.parse? shown with
  | none => none
  | some d =>
      if whole.length == 2 && fraction != some [] &&
          d.units < 60 * Int.ofNat Decimal.one then
        some (d, cs.drop shown.length)
      else
        none

/-
  A time of day. The hour 24 is read too, but not with both
  minutes and seconds.
-/
def clock?
    (cs : List Char) : Option (Clock × List Char) := do
  let (h, cs) ← twoDigits? 0 24 cs
  let (m, cs) ← twoDigits? 0 59 (← after? ':' cs)
  let (s, cs) ← second? (← after? ':' cs)
  if h == 24 && m != 0 && s != Decimal.zero then
    none
  else
    some (⟨h, m, s⟩, cs)

/- The hours and minutes of a time zone, at most fourteen hours. -/
def offset?
    (cs : List Char) : Option Nat := do
  let (hours, cs) ← twoDigits? 0 14 cs
  let (minutes, cs) ← twoDigits? 0 59 (← after? ':' cs)
  if cs.isEmpty && (hours < 14 || minutes == 0) then
    some (hours * 60 + minutes)
  else
    none

/- An optional time zone, up to the end. -/
def zone?
    (cs : List Char) : Option (Option Zone) :=
  match cs with
  | [] => some none
  | ['Z'] => some (some ⟨0⟩)
  | sign :: rest =>
      if sign == '-' || sign == '+' then
        (offset? rest).map (fun n =>
          some ⟨Decimal.withSign (sign == '-') n⟩)
      else
        none

------------------------------------------------------------
-- Normal forms
------------------------------------------------------------

/-
  A day and a time in normal form: the hour 24 belongs to the
  next day.
-/
def rolled
    (day : Calendar.Day)
    (clock : Clock) : Calendar.Day × Clock :=
  if clock.hour == 24 then
    (day.next, { clock with hour := 0 })
  else
    (day, clock)

/- The minutes of an optional time zone. -/
def minutesAhead
    (zone : Option Zone) : Int :=
  (zone.map Zone.minutes).getD 0

/-
  Whether an instant is in range: its seconds from the start
  of year one are a decimal.
-/
def isCounted
    (day : Calendar.Day)
    (clock : Clock)
    (zone : Option Zone) : Bool :=
  let minutes := Int.ofNat (clock.hour * 60 + clock.minute) -
    minutesAhead zone
  let whole := (86400 * day.number + 60 * minutes) * Int.ofNat Decimal.one
  Decimal.fits whole && Decimal.fits (whole + clock.second.units)

/- The start of a day. -/
def midnight : Clock :=
  ⟨0, 0, Decimal.zero⟩

------------------------------------------------------------
-- Reading
------------------------------------------------------------

/- The day and time that a text writes. -/
def dateTime?
    (cs : List Char) : Option Instant := do
  let (day, cs) ← wholeDay? cs
  let (clock, cs) ← clock? (← after? 'T' cs)
  let zone ← zone? cs
  let (day, clock) := rolled day clock
  if isCounted day clock zone then
    some (.dateTime day clock zone)
  else
    none

/- The time of day that a text writes. -/
def time?
    (cs : List Char) : Option Instant := do
  let (clock, cs) ← clock? cs
  let zone ← zone? cs
  some (.time { clock with hour := clock.hour % 24 } zone)

/- The date that a text writes. -/
def date?
    (cs : List Char) : Option Instant := do
  let (day, cs) ← wholeDay? cs
  let zone ← zone? cs
  if isCounted day midnight zone then some (.date day zone) else none

/- The month of a year that a text writes. -/
def yearMonth?
    (cs : List Char) : Option Instant := do
  let (y, cs) ← year? cs
  let (m, cs) ← month? (← after? '-' cs)
  let zone ← zone? cs
  let last := Calendar.daysInMonth (some y) m
  if isCounted ⟨y, m, last⟩ midnight zone then
    some (.yearMonth y m zone)
  else
    none

/- The year that a text writes. -/
def wholeYear?
    (cs : List Char) : Option Instant := do
  let (y, cs) ← year? cs
  let zone ← zone? cs
  if isCounted ⟨y, 12, 31⟩ midnight zone then
    some (.year y zone)
  else
    none

/- The day of every year that a text writes. -/
def monthDay?
    (cs : List Char) : Option Instant := do
  let (m, cs) ← month? (← after? '-' (← after? '-' cs))
  let (d, cs) ← day? (← after? '-' cs)
  let zone ← zone? cs
  if d ≤ Calendar.daysInMonth none m then
    some (.monthDay m d zone)
  else
    none

/- The day of every month that a text writes. -/
def monthly?
    (cs : List Char) : Option Instant := do
  let (d, cs) ← day?
    (← after? '-' (← after? '-' (← after? '-' cs)))
  let zone ← zone? cs
  some (.monthly d zone)

/- The month of every year that a text writes. -/
def yearly?
    (cs : List Char) : Option Instant := do
  let (m, cs) ← month? (← after? '-' (← after? '-' cs))
  let zone ← zone? cs
  some (.yearly m zone)

/- The instant that a text writes in a form. -/
def parse?
    (form : Form)
    (cs : List Char) : Option Instant :=
  match form with
  | .dateTime => dateTime? cs
  | .time => time? cs
  | .date => date? cs
  | .yearMonth => yearMonth? cs
  | .year => wholeYear? cs
  | .monthDay => monthDay? cs
  | .monthly => monthly? cs
  | .yearly => yearly? cs

------------------------------------------------------------
-- Writing
------------------------------------------------------------

/- A number of two digits. -/
def two
    (n : Nat) : List Char :=
  Decimal.padded 2 n

/- A year of at least four digits. -/
def writtenYear
    (year : Int) : List Char :=
  let digits := Decimal.padded 4 year.natAbs
  if year < 0 then '-' :: digits else digits

/- A day. -/
def writtenDay
    (d : Calendar.Day) : List Char :=
  writtenYear d.year ++ '-' :: two d.month ++ '-' :: two d.day

/- Seconds, of two digits before the point. -/
def writtenSecond
    (second : Decimal) : List Char :=
  if second.units < 10 * Int.ofNat Decimal.one then
    '0' :: second.written
  else
    second.written

/- A time of day. -/
def writtenClock
    (c : Clock) : List Char :=
  two c.hour ++ ':' :: two c.minute ++ ':' :: writtenSecond c.second

/- An optional time zone. -/
def writtenZone
    (zone : Option Zone) : List Char :=
  match zone with
  | none => []
  | some z =>
      let size := z.minutes.natAbs
      if size == 0 then
        ['Z']
      else
        (if z.minutes < 0 then '-' else '+') ::
          two (size / 60) ++ ':' :: two (size % 60)

/- An instant in its written form. -/
def written :
    Instant → List Char
  | dateTime day clock zone =>
      writtenDay day ++ 'T' :: writtenClock clock ++ writtenZone zone
  | time clock zone => writtenClock clock ++ writtenZone zone
  | date day zone => writtenDay day ++ writtenZone zone
  | yearMonth y m zone =>
      writtenYear y ++ '-' :: two m ++ writtenZone zone
  | year y zone => writtenYear y ++ writtenZone zone
  | monthDay m d zone =>
      '-' :: '-' :: two m ++ '-' :: two d ++ writtenZone zone
  | monthly d zone => '-' :: '-' :: '-' :: two d ++ writtenZone zone
  | yearly m zone => '-' :: '-' :: two m ++ writtenZone zone

end Instant
end LinkedMarkup
