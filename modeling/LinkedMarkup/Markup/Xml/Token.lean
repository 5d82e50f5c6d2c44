import LinkedMarkup.Markup.Xml.Declarations
import LinkedMarkup.Text.Entries

/-
  This file defines the tokens of XML: tags, text, and the
  places of comments, instructions and entities. A text that
  is not well-formed has no tokens.

  Key definitions include:
    * `Xml.Token`
    * `Xml.attributeValue?`
    * `Xml.startTag?`
    * `Xml.reference?`
    * `Xml.tokens?`
-/

namespace LinkedMarkup
namespace Xml

/-
  A token. Blanks may stand outside the root as text, but not
  as a literal: a quoted section or a reference by number.
-/
inductive Token where
  | opened (name : String) (attributes : Entries) (closes : Bool)
  | closed (name : String)
  | text (data : List Char)
  | literal (data : List Char)
  | entity (text : List Char)
  | unknownEntity
  | aside
  deriving DecidableEq, Repr

------------------------------------------------------------
-- Attribute values
------------------------------------------------------------

/-
  The text that a name stands for in an attribute value. The
  text of an entity is to be read further; a predefined
  character stands for itself.
-/
def valueOfName?
    (d : Declarations)
    (name : String) : Option (List Char × List Char) :=
  match predefined? name with
  | some c => some ([c], [])
  | none =>
      match d.entities.lookup name with
      | some (.internal text) => some ([], text)
      | some _ => none
      | none => if d.isOpen then some ([], []) else none

mutual

/-
  An attribute value with its references replaced and spaces
  in place of other blanks. The first budget bounds how deep
  entities may nest, the second one is the text's length.
-/
def expandValue?
    (d : Declarations) :
    Nat → Nat → List Char → Option (List Char)
  | _, _, [] => some []
  | _, 0, _ :: _ => none
  | depth, budget + 1, '&' :: '#' :: rest => do
      let (c, after) ← numbered? rest
      return c :: (← expandValue? d depth budget after)
  | depth, budget + 1, '&' :: rest => do
      let (name, after) ← referenceName? rest
      let (plain, more) ← valueOfName? d name
      let expanded ← expandEntity? d depth more
      return plain ++ expanded ++ (← expandValue? d depth budget after)
  | depth, budget + 1, c :: rest =>
      if c == '<' then
        none
      else do
        let more ← expandValue? d depth budget rest
        return (if isSpace c then ' ' else c) :: more

/- The text of an entity as part of an attribute value. -/
def expandEntity?
    (d : Declarations) :
    Nat → List Char → Option (List Char)
  | _, [] => some []
  | 0, _ :: _ => none
  | depth + 1, text => expandValue? d depth text.length text

end

/- How deep entities may nest. -/
def entityDepth : Nat :=
  40

/- A value as a series of words between single spaces. -/
def asWords
    (cs : List Char) : List Char :=
  Text.joinWith ' '
    ((Text.splitOn ' ' cs).filter (fun word => !word.isEmpty))

/- An attribute value, from what its literal holds. -/
def attributeValue?
    (d : Declarations)
    (element name : String)
    (cs : List Char) : Option String := do
  let value ← expandValue? d entityDepth cs.length cs
  match d.attribute? element name with
  | some a =>
      return String.ofList (if a.isVerbatim then value else asWords value)
  | none => return String.ofList value

/- The attributes of an element that only have defaults. -/
def defaultAttributes?
    (d : Declarations)
    (element : String)
    (given : Entries) : Option Entries :=
  (d.attributes.filter (fun a =>
    a.element == element && !given.has a.name)).foldlM
      (fun done a =>
        match a.default? with
        | none => some done
        | some literal => do
            return done ++
              [(a.name, ← attributeValue? d element a.name literal)])
      given

------------------------------------------------------------
-- Tags
------------------------------------------------------------

/-
  The attributes of a tag, whether it closes its element, and
  what follows it. The text's length is enough of a budget.
-/
def attributes?
    (d : Declarations)
    (element : String) :
    Nat → Entries → List Char → Option (Entries × Bool × List Char)
  | 0, _, _ => none
  | budget + 1, done, cs =>
      match skip cs with
      | '>' :: rest => some (done, false, rest)
      | '/' :: '>' :: rest => some (done, true, rest)
      | _ => do
          let (name, afterName) ← name? (← skipSome? cs)
          let value ← expect? "=" (skip afterName)
          let (literal, rest) ← literal? (skip value)
          let key := String.ofList name
          let text ← attributeValue? d element key literal
          if done.has key then
            none
          else
            attributes? d element budget (done ++ [(key, text)]) rest

/- A start tag, from what follows its bracket. -/
def startTag?
    (d : Declarations)
    (cs : List Char) : Option (Token × List Char) := do
  let (name, afterName) ← name? cs
  let element := String.ofList name
  let (given, closes, rest) ←
    attributes? d element (afterName.length + 1) [] afterName
  let all ← defaultAttributes? d element given
  return (.opened element all closes, rest)

/- An end tag, from what follows its slash. -/
def endTag?
    (cs : List Char) : Option (Token × List Char) := do
  let (name, afterName) ← name? cs
  let rest ← expect? ">" (skip afterName)
  return (.closed (String.ofList name), rest)

------------------------------------------------------------
-- Text
------------------------------------------------------------

/- A reference, from what follows its ampersand. -/
def reference?
    (d : Declarations)
    (cs : List Char) : Option (Token × List Char) :=
  match cs with
  | '#' :: rest => do
      let (c, after) ← numbered? rest
      return (.literal [c], after)
  | _ => do
      let (name, after) ← referenceName? cs
      match predefined? name, d.entities.lookup name with
      | some c, _ => return (.literal [c], after)
      | _, some (.internal text) => return (.entity text, after)
      | _, some .external => return (.unknownEntity, after)
      | _, some .unparsed => none
      | _, none =>
          if d.isOpen then return (.unknownEntity, after) else none

/- A quoted section, from what follows its start. -/
def quotedSection?
    (cs : List Char) : Option (Token × List Char) :=
  match Text.cutAtText "]]>".toList cs with
  | some (inside, rest) =>
      if inside.all isChar then some (.literal inside, rest) else none
  | none => none

/- Whether a character ends a run of text. -/
def endsText
    (c : Char) : Bool :=
  c == '<' || c == '&'

/- A run of text; it must not look like the end of a section. -/
def textRun?
    (cs : List Char) : Option (Token × List Char) :=
  let run := cs.takeWhile (fun c => !endsText c)
  if run.all isChar && (Text.cutAtText "]]>".toList run).isNone then
    some (.text run, cs.dropWhile (fun c => !endsText c))
  else
    none

------------------------------------------------------------
-- Tokens
------------------------------------------------------------

/- The first token of a text that starts with a bracket. -/
def markup?
    (d : Declarations)
    (cs : List Char) : Option (Token × List Char) :=
  match cs with
  | '!' :: '-' :: '-' :: rest =>
      (afterComment? rest).map (fun after => (.aside, after))
  | '!' :: rest => (expect? "[CDATA[" rest).bind quotedSection?
  | '?' :: rest =>
      (afterInstruction? rest).map (fun after => (.aside, after))
  | '/' :: rest => endTag? rest
  | _ => startTag? d cs

/- The first token of a text that is not empty. -/
def firstToken?
    (d : Declarations)
    (cs : List Char) : Option (Token × List Char) :=
  match cs with
  | '<' :: rest => markup? d rest
  | '&' :: rest => reference? d rest
  | _ => textRun? cs

/-
  The tokens of a text. Each step takes a character, so the
  text's length is enough of a budget.
-/
def tokensFrom?
    (d : Declarations) :
    Nat → List Char → Option (List Token)
  | _, [] => some []
  | 0, _ :: _ => none
  | budget + 1, cs => do
      let (token, rest) ← firstToken? d cs
      return token :: (← tokensFrom? d budget rest)

/- The tokens of a text. -/
def tokens?
    (d : Declarations)
    (cs : List Char) : Option (List Token) :=
  tokensFrom? d cs.length cs

end Xml
end LinkedMarkup
