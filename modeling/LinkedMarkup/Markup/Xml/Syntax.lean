import LinkedMarkup.Text.Case
import LinkedMarkup.Text.Letter
import LinkedMarkup.Text.Split

/-
  This file defines the smallest parts of XML: characters,
  spaces, names, quoted literals and character references.
  Each reader gives what it has read and what follows it.

  Key definitions include:
    * `Xml.isChar`
    * `Xml.name?`
    * `Xml.splitName?`
    * `Xml.literal?`
    * `Xml.numbered?`
-/

namespace LinkedMarkup
namespace Xml

------------------------------------------------------------
-- Characters
------------------------------------------------------------

/- Whether a number is a character that a document may hold. -/
def isCharNumber
    (n : Nat) : Bool :=
  n == 9 || n == 10 || n == 13 || (0x20 ≤ n && n ≤ 0xD7FF) ||
    (0xE000 ≤ n && n ≤ 0xFFFD) || (0x10000 ≤ n && n ≤ 0x10FFFF)

/- Whether a document may hold a character. -/
def isChar
    (c : Char) : Bool :=
  isCharNumber c.toNat

/- Whether a character is a space. -/
def isSpace
    (c : Char) : Bool :=
  c == ' ' || c == '\t' || c == '\n' || c == '\r'

/- A text with its line ends as line feeds. -/
def normalised :
    List Char → List Char
  | [] => []
  | '\r' :: '\n' :: rest => '\n' :: normalised rest
  | '\r' :: rest => '\n' :: normalised rest
  | c :: rest => c :: normalised rest

/- What follows any spaces. -/
def skip
    (cs : List Char) : List Char :=
  cs.dropWhile isSpace

/- What follows at least one space. -/
def skipSome?
    (cs : List Char) : Option (List Char) :=
  match cs with
  | c :: rest => if isSpace c then some (skip rest) else none
  | [] => none

/- What follows a given text. -/
def expect?
    (front : String)
    (cs : List Char) : Option (List Char) :=
  Text.dropFront? front.toList cs

------------------------------------------------------------
-- Names
------------------------------------------------------------

/- Whether a name may start with a character. -/
def isNameStart
    (c : Char) : Bool :=
  c == ':' || c == '_' || Text.isLetter c

/- Whether a name may go on with a character. -/
def isNameChar
    (c : Char) : Bool :=
  isNameStart c || c == '-' || c == '.' || Text.isAsciiDigit c ||
    Text.isMark c

/- The name at the start of a text. -/
def name?
    (cs : List Char) : Option (List Char × List Char) :=
  match cs with
  | [] => none
  | c :: _ =>
      if isNameStart c then
        some (cs.takeWhile isNameChar, cs.dropWhile isNameChar)
      else
        none

/- Whether a text is a name without a colon. -/
def isPlainName
    (cs : List Char) : Bool :=
  match cs with
  | [] => false
  | c :: rest =>
      isNameStart c && c != ':' &&
        rest.all (fun d => isNameChar d && d != ':')

/- The prefix, empty if there is none, and the rest of a name. -/
def splitName?
    (cs : List Char) : Option (String × String) :=
  match Text.cutAtChar ':' cs with
  | (part, none) =>
      if isPlainName part then some ("", String.ofList part) else none
  | (front, some part) =>
      if isPlainName front && isPlainName part then
        some (String.ofList front, String.ofList part)
      else
        none

------------------------------------------------------------
-- Literals and references
------------------------------------------------------------

/- The quoted text at the start of a text. -/
def literal?
    (cs : List Char) : Option (List Char × List Char) :=
  match cs with
  | [] => none
  | q :: rest =>
      if q == '"' || q == '\'' then
        match Text.cutAtChar q rest with
        | (_, none) => none
        | (value, some after) =>
            if value.all isChar then some (value, after) else none
      else
        none

/- The character that digits stand for, up to a semicolon. -/
def digits?
    (isDigit : Char → Bool)
    (number : List Char → Nat)
    (cs : List Char) : Option (Char × List Char) :=
  let digits := cs.takeWhile isDigit
  match cs.dropWhile isDigit with
  | ';' :: rest =>
      if !digits.isEmpty && isCharNumber (number digits) then
        some (Char.ofNat (number digits), rest)
      else
        none
  | _ => none

/- The character of a reference by number, after its `&#`. -/
def numbered?
    (cs : List Char) : Option (Char × List Char) :=
  match cs with
  | 'x' :: rest => digits? Text.isHexDigit Text.natOfHexDigits rest
  | _ => digits? Text.isAsciiDigit Text.natOfDigits cs

/- The name of a reference, after its ampersand. -/
def referenceName?
    (cs : List Char) : Option (String × List Char) :=
  match name? cs with
  | some (name, ';' :: rest) => some (String.ofList name, rest)
  | _ => none

/- The characters that have names everywhere. -/
def predefined? :
    String → Option Char
  | "lt" => some '<'
  | "gt" => some '>'
  | "amp" => some '&'
  | "quot" => some '"'
  | "apos" => some '\''
  | _ => none

------------------------------------------------------------
-- Comments and instructions
------------------------------------------------------------

/- What follows a comment, from what follows its start. -/
def afterComment?
    (cs : List Char) : Option (List Char) :=
  match Text.cutAtText ['-', '-'] cs with
  | some (inside, '>' :: rest) =>
      if inside.all isChar then some rest else none
  | _ => none

/- Whether a name may be the target of an instruction. -/
def isTarget
    (name : List Char) : Bool :=
  !name.contains ':' &&
    name.map Text.asciiLowerChar != "xml".toList

/- What follows an instruction, from what follows its start. -/
def afterInstruction?
    (cs : List Char) : Option (List Char) := do
  let (target, rest) ← name? cs
  if isTarget target then
    match rest with
    | '?' :: '>' :: after => some after
    | _ =>
        let body ← skipSome? rest
        let (inside, after) ← Text.cutAtText ['?', '>'] body
        if inside.all isChar then some after else none
  else
    none

end Xml
end LinkedMarkup
