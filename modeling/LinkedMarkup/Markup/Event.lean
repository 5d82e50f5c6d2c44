import LinkedMarkup.Text.Entries

/-
  This file defines the events that a document is read as,
  in document order, and how an event is written as markup.

  Key definitions include:
    * `Event`
    * `Event.escapeText`
    * `Event.escapeValue`
    * `Event.written`
-/

namespace LinkedMarkup

/-
  A start tag, a piece of text, an end tag, or something else
  that is known only by its description. Tags carry the
  number of elements around theirs.
-/
inductive Event where
  | opened (name : String) (attributes : Entries) (depth : Nat)
  | text (data : String)
  | closed (name : String) (depth : Nat)
  | unknown (description : String)
  deriving DecidableEq, Repr

namespace Event

/- One character of a text, escaped where markup starts. -/
def escapeTextChar
    (c : Char) : List Char :=
  if c == '&' then
    "&amp;".toList
  else if c == '<' then
    "&lt;".toList
  else if c == '>' then
    "&gt;".toList
  else
    [c]

/- One character of an attribute value, escaped. -/
def escapeValueChar
    (c : Char) : List Char :=
  if c == '"' then
    "&quot;".toList
  else if c == '\'' then
    "&#x27;".toList
  else
    escapeTextChar c

/- A text with its markup characters escaped. -/
def escapeText
    (s : String) : String :=
  String.ofList (s.toList.flatMap escapeTextChar)

/- An attribute value with markup and quotes escaped. -/
def escapeValue
    (s : String) : String :=
  String.ofList (s.toList.flatMap escapeValueChar)

/- Attributes as a start tag writes them. -/
def writtenAttributes
    (attributes : Entries) : String :=
  attributes.foldr
    (fun entry more =>
      " " ++ entry.1 ++ "=\"" ++ escapeValue entry.2 ++ "\"" ++ more)
    ""

/- An event as markup. -/
def written :
    Event → String
  | opened name attributes _ =>
      "<" ++ name ++ writtenAttributes attributes ++ ">"
  | text data => escapeText data
  | closed name _ => "</" ++ name ++ ">"
  | unknown _ => ""

end Event
end LinkedMarkup
