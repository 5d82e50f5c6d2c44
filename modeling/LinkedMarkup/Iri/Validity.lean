import LinkedMarkup.Text.Digit
import LinkedMarkup.Text.Split

/-
  This file defines which texts are absolute IRIs: the
  grammar of RFC 3987, with its character classes, percent
  encodings and host addresses.

  Key definitions include:
    * `Iri.isUnreservedOrSubDelim`
    * `Iri.isPathChar`
    * `Iri.isQueryChar`
    * `Iri.allEncoded`
    * `Iri.isAddress6`
    * `Iri.isAuthority`
    * `Iri.isAbsolute`
-/

namespace LinkedMarkup
namespace Iri

------------------------------------------------------------
-- Character classes
------------------------------------------------------------

/- Characters beyond ASCII that an IRI may hold. -/
def otherRanges : List (Nat × Nat) :=
  [
    (0xA0, 0xD7FF), (0xF900, 0xFDCF), (0xFDF0, 0xFFEF),
    (0x10000, 0x1FFFD), (0x20000, 0x2FFFD), (0x30000, 0x3FFFD),
    (0x40000, 0x4FFFD), (0x50000, 0x5FFFD), (0x60000, 0x6FFFD),
    (0x70000, 0x7FFFD), (0x80000, 0x8FFFD), (0x90000, 0x9FFFD),
    (0xA0000, 0xAFFFD), (0xB0000, 0xBFFFD), (0xC0000, 0xCFFFD),
    (0xD0000, 0xDFFFD), (0xE1000, 0xEFFFD)
  ]

/- Private characters, which only a query may hold. -/
def privateRanges : List (Nat × Nat) :=
  [(0xE000, 0xF8FF), (0xF0000, 0xFFFFD), (0x100000, 0x10FFFD)]

/- Unreserved characters and sub-delimiters. -/
def isUnreservedOrSubDelim
    (c : Char) : Bool :=
  Text.isAsciiAlphanumeric c ||
    "!$&'()*+,-.;=_~".toList.contains c ||
    Text.inRanges otherRanges c.toNat

/- Characters of user information. -/
def isUserChar
    (c : Char) : Bool :=
  isUnreservedOrSubDelim c || c == ':'

/- Characters of a path. -/
def isPathChar
    (c : Char) : Bool :=
  isUserChar c || c == '@' || c == '/'

/- Characters of a fragment. -/
def isFragmentChar
    (c : Char) : Bool :=
  isPathChar c || c == '?'

/- Characters of a query. -/
def isQueryChar
    (c : Char) : Bool :=
  isFragmentChar c || Text.inRanges privateRanges c.toNat

/-
  Whether all characters are of a class, or parts of percent
  encodings with two hexadecimal digits.
-/
def allEncoded
    (valid : Char → Bool) :
    List Char → Bool
  | [] => true
  | '%' :: a :: b :: rest =>
      Text.isHexDigit a && Text.isHexDigit b && allEncoded valid rest
  | c :: rest => valid c && allEncoded valid rest

------------------------------------------------------------
-- Host addresses
------------------------------------------------------------

/- Whether digits write an octet without leading zeros. -/
def isOctet
    (cs : List Char) : Bool :=
  cs.all Text.isAsciiDigit && !cs.isEmpty && cs.length ≤ 3 &&
    (cs.length == 1 || cs.head? != some '0') &&
    Text.natOfDigits cs ≤ 255

/- Whether a text is a dotted address of four octets. -/
def isAddress4
    (cs : List Char) : Bool :=
  let parts := Text.splitOn '.' cs
  parts.length == 4 && parts.all isOctet

/- Whether a text is a group of one to four hex digits. -/
def isGroup
    (cs : List Char) : Bool :=
  cs.all Text.isHexDigit && !cs.isEmpty && cs.length ≤ 4

/-
  The number of sixteen bit groups that some pieces write,
  where the last may be a dotted address for two of them.
-/
def groupCount?
    (dotted : Bool) :
    List (List Char) → Option Nat
  | [] => some 0
  | [piece] =>
      if isGroup piece then
        some 1
      else if dotted && isAddress4 piece then
        some 2
      else
        none
  | piece :: rest =>
      if isGroup piece then
        (groupCount? dotted rest).map (· + 1)
      else
        none

/- The pieces between colons, none for an empty text. -/
def groupPieces
    (cs : List Char) : List (List Char) :=
  if cs.isEmpty then [] else Text.splitOn ':' cs

/-
  Whether a text is an address of eight groups, of which a
  double colon may stand for one or more.
-/
def isAddress6
    (cs : List Char) : Bool :=
  match Text.cutAtText [':', ':'] cs with
  | none => groupCount? true (groupPieces cs) == some 8
  | some (head, tail) =>
      match groupCount? false (groupPieces head),
          groupCount? true (groupPieces tail) with
      | some n, some m => n + m ≤ 7
      | _, _ => false

/- Whether a text is an address of a future version. -/
def isAddressFuture
    (cs : List Char) : Bool :=
  match cs with
  | [] => false
  | v :: rest =>
      (v == 'v' || v == 'V') &&
        match Text.cutAtChar '.' rest with
        | (version, some address) =>
            version.all Text.isHexDigit && !version.isEmpty &&
              !address.isEmpty && address.all isUserChar
        | (_, none) => false

------------------------------------------------------------
-- Parts of an IRI
------------------------------------------------------------

/- Whether a text is empty or a colon with a port number. -/
def isPort
    (cs : List Char) : Bool :=
  match cs with
  | [] => true
  | c :: digits => c == ':' && digits.all Text.isAsciiDigit

/- Whether a text is a host with an optional port. -/
def isHost
    (cs : List Char) : Bool :=
  match cs with
  | '[' :: rest =>
      match Text.cutAtChar ']' rest with
      | (address, some port) =>
          (isAddressFuture address || isAddress6 address) && isPort port
      | (_, none) => false
  | _ =>
      let parts := Text.cutAtChar ':' cs
      allEncoded isUnreservedOrSubDelim parts.1 &&
        match parts.2 with
        | none => true
        | some port => port.all Text.isAsciiDigit

/- Whether a text is an authority. -/
def isAuthority
    (cs : List Char) : Bool :=
  match Text.cutAt (fun c => c == '@' || c == '[') cs with
  | (user, some ('@', host)) =>
      allEncoded isUserChar user && isHost host
  | _ => isHost cs

/- Characters that end an authority. -/
def endsAuthority
    (c : Char) : Bool :=
  c == '/' || c == '?' || c == '#'

/- Whether a text is a path with optional query and fragment. -/
def isPathQueryFragment
    (cs : List Char) : Bool :=
  let outer := Text.cutAtChar '#' cs
  let inner := Text.cutAtChar '?' outer.1
  allEncoded isPathChar inner.1 &&
    (match inner.2 with
      | none => true
      | some query => allEncoded isQueryChar query) &&
    (match outer.2 with
      | none => true
      | some fragment => allEncoded isFragmentChar fragment)

/- Characters of a scheme after its first letter. -/
def isSchemeChar
    (c : Char) : Bool :=
  Text.isAsciiAlphanumeric c || c == '+' || c == '-' || c == '.'

/- The scheme of a text and what follows its colon. -/
def scheme?
    (cs : List Char) : Option (List Char × List Char) :=
  match cs with
  | [] => none
  | c :: _ =>
      if Text.isAsciiLetter c then
        match Text.cutAt (fun d => !isSchemeChar d) cs with
        | (scheme, some (':', rest)) => some (scheme, rest)
        | _ => none
      else
        none

/- Whether a text is an absolute IRI. -/
def isAbsolute
    (cs : List Char) : Bool :=
  match scheme? cs with
  | none => false
  | some (_, '/' :: '/' :: rest) =>
      isAuthority (rest.takeWhile (fun c => !endsAuthority c)) &&
        isPathQueryFragment (rest.dropWhile (fun c => !endsAuthority c))
  | some (_, rest) => isPathQueryFragment rest

end Iri
end LinkedMarkup
