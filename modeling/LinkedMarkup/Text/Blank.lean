/-
  This file defines blank characters, and the trimming and
  splitting of text at them. Blank characters are those of
  the Unicode property White_Space together with the four
  information separators.

  Key definitions include:
    * `Text.isBlank`
    * `Text.trimLeft`
    * `Text.trim`
    * `Text.words`
    * `Text.isAllBlank`
-/

namespace LinkedMarkup
namespace Text

------------------------------------------------------------
-- Blank characters
------------------------------------------------------------

/- The closed code point ranges of blank characters. -/
def blankRanges : List (Nat × Nat) :=
  [
    (9, 13), (28, 32), (133, 133), (160, 160), (5760, 5760),
    (8192, 8202), (8232, 8233), (8239, 8239), (8287, 8287),
    (12288, 12288)
  ]

/- Whether a code point lies in one of some closed ranges. -/
def inRanges
    (ranges : List (Nat × Nat))
    (point : Nat) : Bool :=
  ranges.any (fun r => r.1 ≤ point && point ≤ r.2)

/- Whether a character is blank. -/
def isBlank
    (c : Char) : Bool :=
  inRanges blankRanges c.toNat

------------------------------------------------------------
-- Trimming and splitting
------------------------------------------------------------

/- Drop leading blanks. -/
def trimLeft
    (cs : List Char) : List Char :=
  cs.dropWhile isBlank

/- Drop leading and trailing blanks. -/
def trimChars
    (cs : List Char) : List Char :=
  ((trimLeft cs).reverse.dropWhile isBlank).reverse

/- Drop leading and trailing blanks of a string. -/
def trim
    (s : String) : String :=
  String.ofList (trimChars s.toList)

/-
  The maximal runs of characters outside a separator class,
  in order. The accumulator holds the run being read.
-/
def runsOutside
    (separates : Char → Bool) :
    List Char → List Char → List (List Char)
  | [], [] => []
  | current, [] => [current.reverse]
  | [], c :: rest =>
      if separates c then
        runsOutside separates [] rest
      else
        runsOutside separates [c] rest
  | d :: current, c :: rest =>
      if separates c then
        (d :: current).reverse :: runsOutside separates [] rest
      else
        runsOutside separates (c :: d :: current) rest

/- The words of a text, separated by runs of blanks. -/
def words
    (s : String) : List String :=
  (runsOutside isBlank [] s.toList).map String.ofList

/- Whether a text holds nothing but blanks. -/
def isAllBlank
    (s : String) : Bool :=
  s.toList.all isBlank

end Text
end LinkedMarkup
