/-
  This file defines floating point numbers of any precision
  as whole mantissas and powers of two, the nearest one to a
  fraction, and the shortest decimal digits that read back
  as the same number.

  Key definitions include:
    * `Binary.Format`
    * `Binary.double`
    * `Binary.single`
    * `Binary.Number`
    * `Binary.nearest`
    * `Binary.Digits`
    * `Binary.shortest`
    * `Binary.ofDecimal`
-/

namespace LinkedMarkup
namespace Binary

------------------------------------------------------------
-- Formats and numbers
------------------------------------------------------------

/-
  A format: the bits of a mantissa, and the least and the
  greatest power of two that scale it.
-/
structure Format where
  precision : Nat
  least : Int
  greatest : Int
  deriving DecidableEq, Repr

/- Double precision. -/
def double : Format :=
  ⟨53, -1074, 971⟩

/- Single precision. -/
def single : Format :=
  ⟨24, -149, 104⟩

/- A number without its sign: zero, finite or too large. -/
inductive Number where
  | finite (mantissa : Nat) (power : Int)
  | infinite
  deriving DecidableEq, Repr

/- The number of binary digits of a natural number. -/
def bitLength
    (n : Nat) : Nat :=
  if n = 0 then 0 else n.log2 + 1

/- A fraction scaled by a power of a base. -/
def scale
    (base : Nat)
    (num den : Nat)
    (power : Int) : Nat × Nat :=
  match power with
  | .ofNat k => (num * Nat.pow base k, den)
  | .negSucc k => (num, den * Nat.pow base (k + 1))

/- Divide and round to nearest, ties to even. -/
def roundDiv
    (num den : Nat) : Nat :=
  let q := num / den
  let r := num % den
  if 2 * r > den || (2 * r == den && q % 2 == 1) then
    q + 1
  else
    q

/- The number of a format that is nearest to a fraction. -/
def nearest
    (f : Format)
    (num den : Nat) : Number :=
  if num = 0 then
    .finite 0 f.least
  else
    let guess : Int :=
      Int.ofNat (bitLength num) - Int.ofNat (bitLength den) -
        Int.ofNat f.precision
    let fits := fun (p : Int) =>
      let s := scale 2 num den (-p)
      s.1 / s.2 < Nat.pow 2 f.precision
    let tight := if fits guess then guess else guess + 1
    let power := if tight < f.least then f.least else tight
    let s := scale 2 num den (-power)
    let m := roundDiv s.1 s.2
    let carried := m == Nat.pow 2 f.precision
    let mantissa := if carried then m / 2 else m
    let final := if carried then power + 1 else power
    if final > f.greatest then
      .infinite
    else
      .finite mantissa final

------------------------------------------------------------
-- Shortest digits
------------------------------------------------------------

/-
  Decimal digits and the power of ten of the first of them:
  the digits 1, 2 and power 3 stand for 1200.
-/
structure Digits where
  digits : List Char
  power : Int
  deriving DecidableEq, Repr

/- The decimal digits of a natural number. -/
def decimalDigits
    (n : Nat) : List Char :=
  (Nat.repr n).toList

/-
  The power of ten of the first digit of a fraction below
  one, searching down from a given power.
-/
def leadingBelowOne :
    Nat → Nat → Nat → Int → Int
  | 0, _, _, power => power
  | fuel + 1, num, den, power =>
      if num ≥ den then
        power
      else
        leadingBelowOne fuel (num * 10) den (power - 1)

/- The power of ten of the first digit of a fraction. -/
def leadingPower
    (num den : Nat) : Int :=
  if num ≥ den then
    Int.ofNat (decimalDigits (num / den)).length - 1
  else
    leadingBelowOne (decimalDigits den).length num den 0

/- Whether one fraction is less than another. -/
def fractionLt
    (a b : Nat × Nat) : Bool :=
  a.1 * b.2 < b.1 * a.2

/- Whether one fraction is at most another. -/
def fractionLe
    (a b : Nat × Nat) : Bool :=
  a.1 * b.2 ≤ b.1 * a.2

/- Drop trailing zeros from digits, keeping the first. -/
def dropTrailingZeros
    (digits : List Char) : List Char :=
  match (digits.reverse.dropWhile (· == '0')).reverse with
  | [] => ['0']
  | kept => kept

/-
  Search the decimal grids from coarse to fine for a point
  that rounds to the number, the nearer of two on one grid.
-/
def shortestFrom
    (num den low high : Nat × Nat)
    (closed : Bool)
    (leading : Int) :
    Nat → Nat → Digits
  | 0, _ =>
      ⟨dropTrailingZeros (decimalDigits (num.1 / den.1)), leading⟩
  | fuel + 1, count =>
      let grid : Int := leading - Int.ofNat count + 1
      let point := fun (d : Nat) => scale 10 d 1 grid
      let inside := fun (d : Nat) =>
        if closed then
          fractionLe low (point d) && fractionLe (point d) high
        else
          fractionLt low (point d) && fractionLt (point d) high
      let s := scale 10 num.1 den.1 (-grid)
      let down := s.1 / s.2
      let nearDown := 2 * (s.1 % s.2) ≤ s.2
      let pick :=
        if inside down && (nearDown || !inside (down + 1)) then
          some down
        else if inside (down + 1) then
          some (down + 1)
        else
          none
      match pick with
      | none =>
          shortestFrom num den low high closed leading fuel (count + 1)
      | some d =>
          let digits := decimalDigits d
          ⟨dropTrailingZeros digits,
            grid + Int.ofNat digits.length - 1⟩

/-
  The shortest decimal digits inside the interval of reals
  that round to the number.
-/
def shortest
    (f : Format)
    (mantissa : Nat)
    (power : Int) : Digits :=
  if mantissa = 0 then
    ⟨['0'], 0⟩
  else
    let value := scale 2 mantissa 1 power
    let high := scale 2 (2 * mantissa + 1) 1 (power - 1)
    let low :=
      if mantissa == Nat.pow 2 (f.precision - 1) &&
          power > f.least then
        scale 2 (4 * mantissa - 1) 1 (power - 2)
      else
        scale 2 (2 * mantissa - 1) 1 (power - 1)
    shortestFrom (value.1, 1) (value.2, 1) low high
      (mantissa % 2 == 0) (leadingPower value.1 value.2) 17 1

------------------------------------------------------------
-- Reading decimal numbers
------------------------------------------------------------

/-
  The number nearest to whole digits scaled by a power of
  ten. Powers far outside the format need no arithmetic.
-/
def ofDecimal
    (f : Format)
    (whole : Nat)
    (power : Int) : Number :=
  let size := power + Int.ofNat (decimalDigits whole).length
  if whole = 0 || size < -400 then
    .finite 0 f.least
  else if size > 400 then
    .infinite
  else
    let s := scale 10 whole 1 power
    nearest f s.1 s.2

------------------------------------------------------------
-- Printing
------------------------------------------------------------

/- Digits written with a decimal point and no exponent. -/
def positional
    (d : Digits) : List Char :=
  match d.power with
  | .ofNat p =>
      let whole := d.digits.take (p + 1)
      let fraction := d.digits.drop (p + 1)
      let padded :=
        whole ++ List.replicate (p + 1 - whole.length) '0'
      if fraction.isEmpty then
        padded
      else
        padded ++ '.' :: fraction
  | .negSucc p =>
      '0' :: '.' :: List.replicate p '0' ++ d.digits

end Binary
end LinkedMarkup
