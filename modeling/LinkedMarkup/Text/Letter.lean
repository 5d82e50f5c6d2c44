import LinkedMarkup.Text.Blank
import LinkedMarkup.Text.Digit

/-
  This file defines the letters and marks that names are made
  of, in markup and in the labels of blank nodes.

  Key definitions include:
    * `Text.isLetter`
    * `Text.isMark`
-/

namespace LinkedMarkup
namespace Text

/- Ranges of letters. -/
def letterRanges : List (Nat × Nat) :=
  [
    (0x41, 0x5A), (0x61, 0x7A), (0xC0, 0xD6), (0xD8, 0xF6),
    (0xF8, 0x2FF), (0x370, 0x37D), (0x37F, 0x1FFF),
    (0x200C, 0x200D), (0x2070, 0x218F), (0x2C00, 0x2FEF),
    (0x3001, 0xD7FF), (0xF900, 0xFDCF), (0xFDF0, 0xFFFD),
    (0x10000, 0xEFFFF)
  ]

/- Ranges of marks, which stand inside a name only. -/
def markRanges : List (Nat × Nat) :=
  [(0xB7, 0xB7), (0x300, 0x36F), (0x203F, 0x2040)]

/- Whether a character is a letter. -/
def isLetter
    (c : Char) : Bool :=
  inRanges letterRanges c.toNat

/- Whether a character is a mark. -/
def isMark
    (c : Char) : Bool :=
  inRanges markRanges c.toNat

end Text
end LinkedMarkup
