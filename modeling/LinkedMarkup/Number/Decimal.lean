import LinkedMarkup.Number.Binary
import LinkedMarkup.Number.SignedRange
import LinkedMarkup.Text.Digit

/-
  This file defines decimal numbers of fixed precision: whole
  multiples of a small unit, inside a range of 128 bits, how
  they are read and how they are written in short form.

  Key definitions include:
    * `Decimal`
    * `Decimal.fits`
    * `Decimal.ofUnits?`
    * `Decimal.parse?`
    * `Decimal.written`
-/

namespace LinkedMarkup

/- A number of units, of which `10^18` make one. -/
structure Decimal where
  units : Int
  deriving DecidableEq, Repr

namespace Decimal

------------------------------------------------------------
-- Range
------------------------------------------------------------

/- How many digits may follow the point. -/
def places : Nat :=
  18

/- The units of one. -/
def one : Nat :=
  Nat.pow 10 places

/- Whether a number of units is in the signed 128 bit range. -/
def fits
    (units : Int) : Bool :=
  SignedRange.holds 128 units

/- The decimal of so many units, if they are in range. -/
def ofUnits?
    (units : Int) : Option Decimal :=
  if fits units then some ⟨units⟩ else none

/- Nothing. -/
def zero : Decimal :=
  ⟨0⟩

/- The sum of two decimals, if it is in range. -/
def add?
    (a b : Decimal) : Option Decimal :=
  ofUnits? (a.units + b.units)

------------------------------------------------------------
-- Reading
------------------------------------------------------------

/- Drop the zeros at the end of a fraction. -/
def dropZeros
    (digits : List Char) : List Char :=
  (digits.reverse.dropWhile (· == '0')).reverse

/-
  The units that the digits before and after the point give:
  at least one digit on either side, and no more after it
  than there are places, the zeros at its end aside.
-/
def unitsOf?
    (whole fraction : List Char) : Option Nat :=
  let kept := dropZeros fraction
  if (whole.isEmpty && fraction.isEmpty) ||
      !kept.all Text.isAsciiDigit || kept.length > places then
    none
  else
    some (Text.natOfDigits (whole ++ kept) *
      Nat.pow 10 (places - kept.length))

/- The decimal that digits with an optional point write. -/
def parseMagnitude?
    (cs : List Char) : Option Nat :=
  let whole := cs.takeWhile Text.isAsciiDigit
  match cs.dropWhile Text.isAsciiDigit with
  | [] => unitsOf? whole []
  | c :: fraction =>
      if c == '.' then unitsOf? whole fraction else none

/- A number with a sign, from its text without one. -/
def withSign
    (negative : Bool)
    (n : Nat) : Int :=
  if negative then -(Int.ofNat n) else Int.ofNat n

/- Whether a text starts with a minus, and what follows a sign. -/
def cutSign
    (cs : List Char) : Bool × List Char :=
  match cs with
  | '-' :: rest => (true, rest)
  | '+' :: rest => (false, rest)
  | _ => (false, cs)

/- The decimal that a text writes. -/
def parse?
    (cs : List Char) : Option Decimal :=
  let (negative, rest) := cutSign cs
  (parseMagnitude? rest).bind (fun n => ofUnits? (withSign negative n))

------------------------------------------------------------
-- Writing
------------------------------------------------------------

/- The digits of a number, padded with zeros in front. -/
def padded
    (width n : Nat) : List Char :=
  let digits := Binary.decimalDigits n
  List.replicate (width - digits.length) '0' ++ digits

/- A number of units as text, with no zeros at its end. -/
def magnitude
    (units : Nat) : List Char :=
  let whole := Binary.decimalDigits (units / one)
  match dropZeros (padded places (units % one)) with
  | [] => whole
  | fraction => whole ++ '.' :: fraction

/- A decimal in its shortest form. -/
def written
    (d : Decimal) : List Char :=
  if d.units < 0 then
    '-' :: magnitude d.units.natAbs
  else
    magnitude d.units.natAbs

end Decimal
end LinkedMarkup
