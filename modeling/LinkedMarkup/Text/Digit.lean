import LinkedMarkup.Text.Blank

/-
  This file defines decimal digits: the characters of the
  Unicode general category Nd, in every script, and the
  plain digits of ASCII.

  Key definitions include:
    * `Text.isDecimal`
    * `Text.isAsciiDigit`
    * `Text.isHexDigit`
    * `Text.hexValue`
-/

namespace LinkedMarkup
namespace Text

------------------------------------------------------------
-- Decimal digits of every script
------------------------------------------------------------

/- The closed code point ranges of decimal digits. -/
def decimalRanges : List (Nat × Nat) :=
  [
    (48, 57), (1632, 1641), (1776, 1785), (1984, 1993),
    (2406, 2415), (2534, 2543), (2662, 2671), (2790, 2799),
    (2918, 2927), (3046, 3055), (3174, 3183), (3302, 3311),
    (3430, 3439), (3558, 3567), (3664, 3673), (3792, 3801),
    (3872, 3881), (4160, 4169), (4240, 4249), (6112, 6121),
    (6160, 6169), (6470, 6479), (6608, 6617), (6784, 6793),
    (6800, 6809), (6992, 7001), (7088, 7097), (7232, 7241),
    (7248, 7257), (42528, 42537), (43216, 43225), (43264, 43273),
    (43472, 43481), (43504, 43513), (43600, 43609), (44016, 44025),
    (65296, 65305), (66720, 66729), (68912, 68921), (69734, 69743),
    (69872, 69881), (69942, 69951), (70096, 70105), (70384, 70393),
    (70736, 70745), (70864, 70873), (71248, 71257), (71360, 71369),
    (71472, 71481), (71904, 71913), (72016, 72025), (72784, 72793),
    (73040, 73049), (73120, 73129), (92768, 92777), (92864, 92873),
    (93008, 93017), (120782, 120831), (123200, 123209),
    (123632, 123641), (125264, 125273), (130032, 130041)
  ]

/- Whether a character is a decimal digit of some script. -/
def isDecimal
    (c : Char) : Bool :=
  inRanges decimalRanges c.toNat

------------------------------------------------------------
-- ASCII classes
------------------------------------------------------------

/- Whether a character is one of `0` to `9`. -/
def isAsciiDigit
    (c : Char) : Bool :=
  '0' ≤ c && c ≤ '9'

/- Whether a character is an ASCII letter. -/
def isAsciiLetter
    (c : Char) : Bool :=
  ('a' ≤ c && c ≤ 'z') || ('A' ≤ c && c ≤ 'Z')

/- Whether a character is an ASCII letter or digit. -/
def isAsciiAlphanumeric
    (c : Char) : Bool :=
  isAsciiLetter c || isAsciiDigit c

/- Whether a character is a hexadecimal digit. -/
def isHexDigit
    (c : Char) : Bool :=
  isAsciiDigit c || ('a' ≤ c && c ≤ 'f') || ('A' ≤ c && c ≤ 'F')

/- The value of a hexadecimal digit, zero for others. -/
def hexValue
    (c : Char) : Nat :=
  if isAsciiDigit c then
    c.toNat - 48
  else if 'a' ≤ c && c ≤ 'f' then
    c.toNat - 87
  else if 'A' ≤ c && c ≤ 'F' then
    c.toNat - 55
  else
    0

/- The number that a run of ASCII digits writes. -/
def natOfDigits
    (cs : List Char) : Nat :=
  cs.foldl (fun n c => n * 10 + (c.toNat - 48)) 0

/- The number that a run of hexadecimal digits writes. -/
def natOfHexDigits
    (cs : List Char) : Nat :=
  cs.foldl (fun n c => n * 16 + hexValue c) 0

end Text
end LinkedMarkup
