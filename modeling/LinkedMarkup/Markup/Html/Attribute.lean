import LinkedMarkup.Markup.Html.CharacterReference
import LinkedMarkup.Text.Case
import LinkedMarkup.Text.Entries

/-
  This file defines the characters of HTML as they are read,
  and the attributes of tags.

  Key definitions include:
    * `Html.isSpace`
    * `Html.normalised`
    * `Html.firstAttribute`
    * `Html.attributes`
-/

namespace LinkedMarkup
namespace Html

------------------------------------------------------------
-- Characters
------------------------------------------------------------

/- Whether a character separates the parts of a tag. -/
def isSpace
    (c : Char) : Bool :=
  c == ' ' || c == '\t' || c == '\n' || c == '\x0c' || c == '\r'

/-
  A text with line ends as line feeds and with replacement
  characters for NUL.
-/
def normalised :
    List Char → List Char
  | [] => []
  | '\r' :: '\n' :: rest => '\n' :: normalised rest
  | '\r' :: rest => '\n' :: normalised rest
  | '\x00' :: rest => replacement :: normalised rest
  | c :: rest => c :: normalised rest

/- A name in lower case. -/
def nameOf
    (cs : List Char) : String :=
  String.ofList (cs.map Text.asciiLowerChar)

/- Drop what comes up to a character, and the character. -/
def dropPast
    (mark : Char)
    (cs : List Char) : List Char :=
  (cs.dropWhile (· != mark)).drop 1

------------------------------------------------------------
-- Attributes
------------------------------------------------------------

/- Whether a character ends the name of a tag. -/
def endsTagName
    (c : Char) : Bool :=
  isSpace c || c == '/' || c == '>'

/- Whether a character ends the name of an attribute. -/
def endsAttributeName
    (c : Char) : Bool :=
  endsTagName c || c == '='

/- Attributes whose value is their own name if none is given. -/
def flagAttributes : List String :=
  ["checked", "compact", "declare", "defer", "disabled", "ismap",
    "multiple", "nohref", "noresize", "noshade", "nowrap",
    "readonly", "selected"]

/- The value of an attribute that is given without one. -/
def missingValue
    (name : String) : String :=
  if flagAttributes.contains name then name else ""

/-
  The value at the start of a text, and what follows it. In
  quotes the text must hold the closing one.
-/
def attributeValue
    (cs : List Char) : Option (List Char × List Char) :=
  match cs with
  | [] => none
  | c :: rest =>
      if c == '"' || c == '\'' then
        match Text.cutAtChar c rest with
        | (_, none) => none
        | (value, some after) => some (decode true value, after)
      else
        let ends := fun c => isSpace c || c == '>'
        some (decode true (cs.takeWhile (fun c => !ends c)),
          cs.dropWhile (fun c => !ends c))

/-
  The attribute at the start of a text, and what follows it.
  An equals sign at the start belongs to the name.
-/
def firstAttribute
    (cs : List Char) : Option ((String × String) × List Char) :=
  match cs with
  | [] => none
  | c :: rest =>
      let name := nameOf
        (c :: rest.takeWhile (fun c => !endsAttributeName c))
      let after :=
        (rest.dropWhile (fun c => !endsAttributeName c)).dropWhile isSpace
      match after with
      | '=' :: value =>
          (attributeValue (value.dropWhile isSpace)).map
            (fun found => ((name, String.ofList found.1), found.2))
      | _ => some ((name, missingValue name), after)

/- Add an attribute, unless its name has been used. -/
def addAttribute
    (done : Entries)
    (entry : String × String) : Entries :=
  if done.has entry.1 then done else done ++ [entry]

/-
  The attributes of a tag, whether it closes itself, and what
  follows it; nothing if the text ends before the tag does.
  Each step takes a character, so the text's length is enough
  of a budget.
-/
def attributesFrom :
    Nat → Entries → List Char → Option (Entries × Bool × List Char)
  | 0, _, _ => none
  | budget + 1, done, cs =>
      match cs.dropWhile isSpace with
      | [] => none
      | '>' :: rest => some (done, false, rest)
      | '/' :: '>' :: rest => some (done, true, rest)
      | '/' :: rest => attributesFrom budget done rest
      | other =>
          match firstAttribute other with
          | none => none
          | some (entry, rest) =>
              attributesFrom budget (addAttribute done entry) rest

/- The attributes of a tag, from what follows its name. -/
def attributes
    (cs : List Char) : Option (Entries × Bool × List Char) :=
  attributesFrom (cs.length + 1) [] cs

end Html
end LinkedMarkup
