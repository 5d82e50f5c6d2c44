import LinkedMarkup.Number.Binary
import LinkedMarkup.Number.Decimal
import LinkedMarkup.Text.Case

/-
  This file defines the values of floating point numbers as
  texts write them, and their written form: the fewest digits
  that read back, without an exponent.

  Key definitions include:
    * `Floating`
    * `Floating.parse?`
    * `Floating.written`
-/

namespace LinkedMarkup

/- A floating point number of some format, or none at all. -/
inductive Floating where
  | number (negative : Bool) (magnitude : Binary.Number)
  | notANumber
  deriving DecidableEq, Repr

namespace Floating

------------------------------------------------------------
-- Reading
------------------------------------------------------------

/- The exponent that follows the digits of a number. -/
def exponent?
    (cs : List Char) : Option Int :=
  match cs with
  | [] => some 0
  | mark :: rest =>
      let (negative, digits) := Decimal.cutSign rest
      if (mark == 'e' || mark == 'E') && !digits.isEmpty &&
          digits.all Text.isAsciiDigit then
        some (Decimal.withSign negative (Text.natOfDigits digits))
      else
        none

/-
  The number that digits, an optional fraction and an
  optional exponent write.
-/
def scientific?
    (f : Binary.Format)
    (cs : List Char) : Option Binary.Number :=
  let whole := cs.takeWhile Text.isAsciiDigit
  let rest := cs.dropWhile Text.isAsciiDigit
  let (fraction, tail) :=
    match rest with
    | '.' :: more =>
        (more.takeWhile Text.isAsciiDigit,
          more.dropWhile Text.isAsciiDigit)
    | _ => ([], rest)
  if whole.isEmpty && fraction.isEmpty then
    none
  else
    (exponent? tail).map (fun power =>
      Binary.ofDecimal f (Text.natOfDigits (whole ++ fraction))
        (power - Int.ofNat fraction.length))

/- The number that a text without a sign writes. -/
def magnitude?
    (f : Binary.Format)
    (negative : Bool)
    (cs : List Char) : Option Floating :=
  let word := Text.asciiLower (String.ofList cs)
  if word == "inf" || word == "infinity" then
    some (.number negative .infinite)
  else if word == "nan" then
    some .notANumber
  else
    (scientific? f cs).map (.number negative)

/- The number of a format that a text writes. -/
def parse?
    (f : Binary.Format)
    (cs : List Char) : Option Floating :=
  let (negative, rest) := Decimal.cutSign cs
  magnitude? f negative rest

------------------------------------------------------------
-- Writing
------------------------------------------------------------

/- A number of a format in its shortest form. -/
def written
    (f : Binary.Format)
    (r : Floating) : List Char :=
  match r with
  | notANumber => ['N', 'a', 'N']
  | number negative magnitude =>
      let body :=
        match magnitude with
        | .infinite => ['I', 'N', 'F']
        | .finite mantissa power =>
            Binary.positional (Binary.shortest f mantissa power)
      if negative then '-' :: body else body

end Floating
end LinkedMarkup
