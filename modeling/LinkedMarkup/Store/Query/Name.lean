import LinkedMarkup.Statement.Term
import LinkedMarkup.Text.Entries

/-
  This file defines the names in the text of queries: IRIs in
  brackets or by a short name, and the space between words.

  Key definitions include:
    * `Query.Reader.skip`
    * `Query.Reader.word?`
    * `Query.Reader.mark?`
    * `Query.Reader.shortName?`
    * `Query.Reader.localName`
    * `Query.Reader.iri?`
-/

namespace LinkedMarkup
namespace Query
namespace Reader

------------------------------------------------------------
-- Space and words
------------------------------------------------------------

/- Whether a character may stand between words. -/
def isSpace
    (c : Char) : Bool :=
  c == ' ' || c == '\t' || c == '\n' || c == '\r'

/- What follows space and remarks; a remark ends with its line. -/
def skipFrom :
    Bool → List Char → List Char
  | _, [] => []
  | true, c :: rest => skipFrom (c != '\n' && c != '\r') rest
  | false, c :: rest =>
      if isSpace c then
        skipFrom false rest
      else if c == '#' then
        skipFrom true rest
      else
        c :: rest

/- What follows space and remarks. -/
def skip
    (cs : List Char) : List Char :=
  skipFrom false cs

/- What follows a word in any case, after space. -/
def word?
    (word : String)
    (cs : List Char) : Option (List Char) :=
  let found := skip cs
  let size := word.toList.length
  if found.length ≥ size &&
      Text.asciiLower (String.ofList (found.take size)) ==
        word then
    some (found.drop size)
  else
    none

/- What follows a character, after space. -/
def mark?
    (mark : Char)
    (cs : List Char) : Option (List Char) :=
  match skip cs with
  | [] => none
  | c :: rest => if c == mark then some rest else none

------------------------------------------------------------
-- Names
------------------------------------------------------------

/- Whether a name may start with a character. -/
def isNameStart
    (c : Char) : Bool :=
  Text.isLetter c

/- Whether a name may go on with a character. -/
def isNameChar
    (c : Char) : Bool :=
  BlankNode.isLabelStart c || c == '-' || Text.isMark c

/- Whether a variable's name may hold a character. -/
def isVariableChar
    (c : Char) : Bool :=
  BlankNode.isLabelStart c || Text.isMark c

/-
  A name that may hold dots, but not at its end, and what
  follows it.
-/
def dotted
    (cs : List Char) : List Char × List Char :=
  let longest := cs.takeWhile (fun c => isNameChar c || c == '.')
  let kept := (longest.reverse.dropWhile (· == '.')).reverse
  (kept, cs.drop kept.length)

/- A short name up to its colon, and what follows that. -/
def shortName?
    (cs : List Char) : Option (String × List Char) :=
  let (name, rest) := dotted cs
  match rest with
  | ':' :: rest =>
      if name.isEmpty || name.head?.any isNameStart then
        some (String.ofList name, rest)
      else
        none
  | _ => none

/- Characters that a name may hold after a backslash. -/
def escapable : List Char :=
  "_~.-!$&'()*+,;=/?#@%".toList

/-
  A name after a colon, and what follows it. Dots are held
  back until something follows them.
-/
def localName :
    List Char → List Char → List Char × List Char
  | dots, [] => ([], dots)
  | dots, '\\' :: c :: rest =>
      if escapable.contains c then
        let (name, tail) := localName [] rest
        (dots ++ c :: name, tail)
      else
        ([], dots ++ '\\' :: c :: rest)
  | dots, '%' :: a :: b :: rest =>
      if Text.isHexDigit a &&
          Text.isHexDigit b then
        let (name, tail) := localName [] rest
        (dots ++ '%' :: a :: b :: name, tail)
      else
        ([], dots ++ '%' :: a :: b :: rest)
  | dots, c :: rest =>
      if c == '.' then
        localName (dots ++ [c]) rest
      else if isNameChar c || c == ':' then
        let (name, tail) := localName [] rest
        (dots ++ c :: name, tail)
      else
        ([], dots ++ c :: rest)

/- Whether a name after a colon may start as it does. -/
def startsLocal
    (cs : List Char) : Bool :=
  match cs with
  | [] => false
  | c :: _ => c != '-' && c != '.' && !Text.isMark c

/- An IRI in angle brackets, and what follows it. -/
def bracketed?
    (cs : List Char) : Option (Iri × List Char) :=
  match mark? '<' cs with
  | none => none
  | some rest =>
      match Text.cutAtChar '>' rest with
      | (text, some tail) =>
          (Iri.parse? (String.ofList text)).map (·, tail)
      | (_, none) => none

/- An IRI by its short name, and what follows it. -/
def shortened?
    (names : Entries)
    (cs : List Char) : Option (Iri × List Char) := do
  let (name, rest) ← shortName? (skip cs)
  let base ← names.get? name
  let (tail, rest) :=
    if startsLocal rest then localName [] rest else ([], rest)
  let iri ← Iri.parse? (base ++ String.ofList tail)
  return (iri, rest)

/- An IRI in either form, and what follows it. -/
def iri?
    (names : Entries)
    (cs : List Char) : Option (Iri × List Char) :=
  (bracketed? cs).orElse (fun _ => shortened? names cs)

end Reader
end Query
end LinkedMarkup
