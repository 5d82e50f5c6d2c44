/-
  This file defines the ranges of signed whole numbers of a
  fixed width, and which numbers are in them.

  Key definitions include:
    * `SignedRange.limit`
    * `SignedRange.holds`
-/

namespace LinkedMarkup

namespace SignedRange

/- The least number above the signed range of a width. -/
def limit
    (bits : Nat) : Int :=
  Int.ofNat (Nat.pow 2 (bits - 1))

/-
  Whether a number is in the signed range of a width: the
  range reaches one further below zero than above it.
-/
def holds
    (bits : Nat)
    (n : Int) : Bool :=
  -limit bits ≤ n && n < limit bits

end SignedRange

end LinkedMarkup
