/-
  This file defines the cutting of character lists: at the
  first character of a class, at every separator, and at the
  front by a given text.

  Key definitions include:
    * `Text.cutAt`
    * `Text.splitOn`
    * `Text.joinWith`
    * `Text.dropFront?`
    * `Text.startsWith`
    * `Text.cutAtText`
-/

namespace LinkedMarkup
namespace Text

/-
  The characters before the first one of a class, and that
  one with all that follows it, if there is one.
-/
def cutAt
    (stops : Char → Bool)
    (cs : List Char) : List Char × Option (Char × List Char) :=
  (cs.takeWhile (fun c => !stops c),
    match cs.dropWhile (fun c => !stops c) with
    | [] => none
    | c :: rest => some (c, rest))

/-
  The characters before the first occurrence of one, and
  those after it, if it occurs.
-/
def cutAtChar
    (mark : Char)
    (cs : List Char) : List Char × Option (List Char) :=
  ((cutAt (· == mark) cs).1, (cutAt (· == mark) cs).2.map (·.2))

/- The pieces of a text between separators, empty ones kept. -/
def splitOn
    (mark : Char) :
    List Char → List (List Char)
  | [] => [[]]
  | c :: rest =>
      if c == mark then
        [] :: splitOn mark rest
      else
        match splitOn mark rest with
        | [] => [[c]]
        | piece :: pieces => (c :: piece) :: pieces

/- The pieces of a text put together with separators. -/
def joinWith
    (mark : Char) :
    List (List Char) → List Char
  | [] => []
  | [piece] => piece
  | piece :: rest => piece ++ mark :: joinWith mark rest

/- What follows a given front, if the text starts with it. -/
def dropFront? :
    List Char → List Char → Option (List Char)
  | [], cs => some cs
  | _ :: _, [] => none
  | f :: front, c :: cs =>
      if f == c then dropFront? front cs else none

/- Whether a text starts with a given front. -/
def startsWith
    (front cs : List Char) : Bool :=
  (dropFront? front cs).isSome

/-
  What comes before the first occurrence of a text, and what
  comes after it, if it occurs.
-/
def cutAtText
    (mark : List Char) :
    List Char → Option (List Char × List Char)
  | [] =>
      match mark with
      | [] => some ([], [])
      | _ :: _ => none
  | c :: cs =>
      match dropFront? mark (c :: cs) with
      | some rest => some ([], rest)
      | none =>
          (cutAtText mark cs).map (fun r => (c :: r.1, r.2))

end Text
end LinkedMarkup
