import LinkedMarkup.Markup.Html.CharacterNames
import LinkedMarkup.Text.Digit
import LinkedMarkup.Text.Split

/-
  This file defines character references in HTML: by number,
  or by the longest name that fits. What is no reference is
  text as it stands.

  Key definitions include:
    * `Html.Reference`
    * `Html.numbered?`
    * `Html.named?`
    * `Html.decode`
-/

namespace LinkedMarkup
namespace Html

/-
  The characters that a reference stands for, and how many
  characters it takes after the ampersand.
-/
structure Reference where
  characters : List Char
  length : Nat
  deriving DecidableEq, Repr

/- The replacement character. -/
def replacement : Char :=
  Char.ofNat 0xFFFD

------------------------------------------------------------
-- References by number
------------------------------------------------------------

/-
  What the code points from 0x80 stand for, which are taken
  from a code page of 256 characters.
-/
def pageCharacters : List Nat :=
  [
    0x20AC, 0x81, 0x201A, 0x192, 0x201E, 0x2026, 0x2020, 0x2021,
    0x2C6, 0x2030, 0x160, 0x2039, 0x152, 0x8D, 0x17D, 0x8F,
    0x90, 0x2018, 0x2019, 0x201C, 0x201D, 0x2022, 0x2013, 0x2014,
    0x2DC, 0x2122, 0x161, 0x203A, 0x153, 0x9D, 0x17E, 0x178
  ]

/- The character of a number in a reference. -/
def numberedCharacter
    (n : Nat) : Char :=
  if n == 0 || n > 0x10FFFF || (0xD800 ≤ n && n ≤ 0xDFFF) then
    replacement
  else if 0x80 ≤ n && n ≤ 0x9F then
    Char.ofNat (pageCharacters.getD (n - 0x80) n)
  else
    Char.ofNat n

/- The length of digits and of the semicolon after them. -/
def digitsLength
    (digits rest : List Char) : Nat :=
  digits.length + (if rest.head? == some ';' then 1 else 0)

/- The reference that digits after `#` or `#x` make. -/
def digitsReference?
    (isDigit : Char → Bool)
    (number : List Char → Nat)
    (front : Nat)
    (cs : List Char) : Option Reference :=
  let digits := cs.takeWhile isDigit
  if digits.isEmpty then
    none
  else
    some ⟨[numberedCharacter (number digits)],
      front + digitsLength digits (cs.dropWhile isDigit)⟩

/- The reference by number after an ampersand. -/
def numbered? :
    List Char → Option Reference
  | '#' :: 'x' :: rest =>
      digitsReference? Text.isHexDigit Text.natOfHexDigits 2 rest
  | '#' :: 'X' :: rest =>
      digitsReference? Text.isHexDigit Text.natOfHexDigits 2 rest
  | '#' :: rest =>
      digitsReference? Text.isAsciiDigit Text.natOfDigits 1 rest
  | _ => none

------------------------------------------------------------
-- References by name
------------------------------------------------------------

/-
  Whether a name without a semicolon is text all the same: in
  an attribute value, where more of a name or an equals sign
  follows.
-/
def staysText
    (inValue : Bool)
    (rest : List Char) : Bool :=
  inValue &&
    match rest with
    | c :: _ => c == '=' || Text.isAsciiAlphanumeric c
    | [] => false

/- The reference by one name, if the text starts with it. -/
def nameReference?
    (cs : List Char)
    (entry : CharacterName) : Option (Reference × List Char) :=
  match Text.dropFront? entry.1.toList cs with
  | none => none
  | some rest =>
      let characters := entry.2.map Char.ofNat
      match rest with
      | ';' :: after =>
          some (⟨characters, entry.1.length + 1⟩, ';' :: after)
      | _ =>
          if unterminatedNames.contains entry.1 then
            some (⟨characters, entry.1.length⟩, rest)
          else
            none

/- The longer one of two references. -/
def longer
    (best : Option (Reference × List Char))
    (found : Reference × List Char) : Option (Reference × List Char) :=
  match best with
  | none => some found
  | some b => if b.1.length < found.1.length then some found else some b

/- The names that may start with a character. -/
def namesFrom
    (c : Char) : List CharacterName :=
  (characterNames.lookup c).getD []

/- The reference by the longest name after an ampersand. -/
def named?
    (inValue : Bool)
    (cs : List Char) : Option Reference :=
  match cs with
  | [] => none
  | c :: _ =>
      let best := ((namesFrom c).filterMap (nameReference? cs)).foldl
        longer none
      match best with
      | none => none
      | some (reference, rest) =>
          if rest.head? != some ';' && staysText inValue rest then
            none
          else
            some reference

------------------------------------------------------------
-- Decoding
------------------------------------------------------------

/- The reference after an ampersand. -/
def reference?
    (inValue : Bool)
    (cs : List Char) : Option Reference :=
  match cs with
  | '#' :: _ => numbered? cs
  | _ => named? inValue cs

/-
  A text with its references replaced, after a number of
  characters that a reference has taken.
-/
def decodeFrom
    (inValue : Bool) :
    Nat → List Char → List Char
  | _, [] => []
  | n + 1, _ :: rest => decodeFrom inValue n rest
  | 0, c :: rest =>
      if c == '&' then
        match reference? inValue rest with
        | some r => r.characters ++ decodeFrom inValue r.length rest
        | none => '&' :: decodeFrom inValue 0 rest
      else
        c :: decodeFrom inValue 0 rest

/- A text, or an attribute value, with references replaced. -/
def decode
    (inValue : Bool)
    (cs : List Char) : List Char :=
  decodeFrom inValue 0 cs

end Html
end LinkedMarkup
