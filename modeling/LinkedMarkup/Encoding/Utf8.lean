/-
  This file defines the UTF-8 encoding of code points, which
  may include surrogates, and a decoder that never gives up:
  a malformed sequence reads as the replacement character and
  reading goes on with the byte that broke it.

  Key definitions include:
    * `Utf8.combineSurrogates`
    * `Utf8.scalars`
    * `Utf8.encodeScalar`
    * `Utf8.encode`
    * `Utf8.Partial`
    * `Utf8.step`
    * `Utf8.decode`
    * `Utf8.decodeWide`
    * `Utf8.strict?`
-/

namespace LinkedMarkup

/- A Unicode code point, surrogates included. -/
abbrev CodePoint := Nat

namespace Utf8

------------------------------------------------------------
-- Surrogates
------------------------------------------------------------

/- The character that stands for what cannot be read. -/
def replacement : CodePoint :=
  0xFFFD

/- Whether a number is a leading surrogate. -/
def isHighSurrogate
    (unit : Int) : Bool :=
  0xD800 ≤ unit && unit ≤ 0xDBFF

/- Whether a number is a trailing surrogate. -/
def isLowSurrogate
    (unit : Int) : Bool :=
  0xDC00 ≤ unit && unit ≤ 0xDFFF

/-
  The supplementary code point of a surrogate pair, built
  from the low ten bits of each number.
-/
def combineSurrogates
    (high low : Int) : CodePoint :=
  0x10000 + (high % 0x400).toNat * 0x400 + (low % 0x400).toNat

/-
  The scalar values of a text: each surrogate pair becomes
  one, and any other surrogate becomes the replacement
  character.
-/
def scalars :
    List CodePoint → List CodePoint
  | [] => []
  | [c] =>
      if isHighSurrogate c || isLowSurrogate c then
        [replacement]
      else
        [c]
  | c :: d :: rest =>
      if isHighSurrogate c && isLowSurrogate d then
        combineSurrogates c d :: scalars rest
      else if isHighSurrogate c || isLowSurrogate c then
        replacement :: scalars (d :: rest)
      else
        c :: scalars (d :: rest)

------------------------------------------------------------
-- Encoding
------------------------------------------------------------

/- The bytes of one scalar value. -/
def encodeScalar
    (c : CodePoint) : List Nat :=
  if c < 0x80 then
    [c]
  else if c < 0x800 then
    [0xC0 + c / 0x40, 0x80 + c % 0x40]
  else if c < 0x10000 then
    [0xE0 + c / 0x1000, 0x80 + c / 0x40 % 0x40, 0x80 + c % 0x40]
  else
    [0xF0 + c / 0x40000, 0x80 + c / 0x1000 % 0x40,
      0x80 + c / 0x40 % 0x40, 0x80 + c % 0x40]

/- The bytes of a text. -/
def encode
    (points : List CodePoint) : List Nat :=
  (scalars points).flatMap encodeScalar

------------------------------------------------------------
-- Decoding
------------------------------------------------------------

/-
  A sequence that is being read: how many continuation bytes
  it still owes, less one, and the value read so far.
-/
structure Partial where
  owed : Nat
  value : Nat
  deriving DecidableEq, Repr

/- Whether the top two bits of a byte are `10`. -/
def isContinuation
    (byte : Nat) : Bool :=
  byte / 0x40 % 4 == 2

/-
  What a byte between sequences gives: the code points it
  completes, and the sequence it opens.
-/
def lead
    (byte : Nat) : List CodePoint × Option Partial :=
  if byte < 0x80 then
    ([byte], none)
  else if byte < 0xC0 then
    ([replacement], none)
  else if byte < 0xE0 then
    ([], some ⟨0, byte % 0x20⟩)
  else if byte < 0xF0 then
    ([], some ⟨1, byte % 0x10⟩)
  else if byte < 0xF8 then
    ([], some ⟨2, byte % 0x08⟩)
  else
    ([replacement], none)

/- The code point of a complete sequence. -/
def complete
    (value : Nat) : CodePoint :=
  if value > 0x10FFFF then
    replacement
  else
    value

/-
  Read one byte, in or between sequences. A byte that does
  not continue an open sequence ends it with a replacement
  character and is read again on its own.
-/
def step
    (open? : Option Partial)
    (byte : Nat) : List CodePoint × Option Partial :=
  match open? with
  | none => lead byte
  | some ⟨owed, value⟩ =>
      if isContinuation byte then
        match owed with
        | 0 => ([complete (value * 0x40 + byte % 0x40)], none)
        | owed + 1 => ([], some ⟨owed, value * 0x40 + byte % 0x40⟩)
      else
        (replacement :: (lead byte).1, (lead byte).2)

/- What is written when the bytes end. -/
def finish :
    Option Partial → List CodePoint
  | none => []
  | some _ => [replacement]

/- Read the bytes that follow an open sequence. -/
def decodeFrom
    (open? : Option Partial) :
    List Nat → List CodePoint
  | [] => finish open?
  | byte :: rest =>
      (step open? byte).1 ++ decodeFrom (step open? byte).2 rest

/- The code points that bytes write. -/
def decode
    (bytes : List Nat) : List CodePoint :=
  decodeFrom none bytes

/-
  Read integers of any size as bytes. A negative one may
  continue a sequence, by its low eight bits, but there is
  no code point for it otherwise.
-/
def decodeWideFrom
    (open? : Option Partial) :
    List Int → Option (List CodePoint)
  | [] => some (finish open?)
  | .ofNat byte :: rest =>
      (decodeWideFrom (step open? byte).2 rest).map
        ((step open? byte).1 ++ ·)
  | .negSucc n :: rest =>
      let byte := (Int.negSucc n % 256).toNat
      if open?.isSome && isContinuation byte then
        (decodeWideFrom (step open? byte).2 rest).map
          ((step open? byte).1 ++ ·)
      else
        none

/- The code points of integers, none if one has no reading. -/
def decodeWide
    (units : List Int) : Option (List CodePoint) :=
  decodeWideFrom none units

/-
  The text that bytes write, if they are exactly the bytes
  that write it.
-/
def strict?
    (bytes : List Nat) : Option String :=
  let points := decode bytes
  if encode points == bytes then
    some (String.ofList (points.map Char.ofNat))
  else
    none

end Utf8
end LinkedMarkup
