import LinkedMarkup.Fault
import LinkedMarkup.Iri.Validity
import LinkedMarkup.Number.Datum
import LinkedMarkup.Statement.LanguageTag
import LinkedMarkup.Text.Letter

/-
  This file defines the terms of statements: IRIs, blank
  nodes, literals and the default graph, how they are made
  from text, and how they are written.

  Key definitions include:
    * `Iri`
    * `Iri.parse?`
    * `Iri.make`
    * `BlankNode`
    * `BlankNode.parse?`
    * `Literal`
    * `Literal.make`
    * `Term`
    * `Term.written`
    * `Term.described`
    * `Term.Kind`
-/

namespace LinkedMarkup

------------------------------------------------------------
-- IRIs
------------------------------------------------------------

/- An IRI, which names a thing. -/
structure Iri where
  text : String
  deriving DecidableEq, Repr

namespace Iri

/- The IRI that a text is, if it is an absolute one. -/
def parse?
    (text : String) : Option Iri :=
  if isAbsolute text.toList then some ⟨text⟩ else none

/- The IRI that a text is, or a remark that it is none. -/
def make
    (text : String) : Except Fault Iri :=
  match parse? text with
  | some iri => .ok iri
  | none => .error (.invalidIri text)

end Iri

------------------------------------------------------------
-- Fixed IRIs
------------------------------------------------------------

namespace Rdf

/- The start of every IRI of the RDF vocabulary. -/
def base : String :=
  "http://www.w3.org/1999/02/22-rdf-syntax-ns#"

def type : Iri := ⟨base ++ "type"⟩
def first : Iri := ⟨base ++ "first"⟩
def rest : Iri := ⟨base ++ "rest"⟩
def nil : Iri := ⟨base ++ "nil"⟩
def langString : Iri := ⟨base ++ "langString"⟩
def xmlLiteral : Iri := ⟨base ++ "XMLLiteral"⟩
def html : Iri := ⟨base ++ "HTML"⟩

end Rdf

namespace Xsd

/- The start of every IRI of the XML Schema datatypes. -/
def base : String :=
  "http://www.w3.org/2001/XMLSchema#"

def string : Iri := ⟨base ++ "string"⟩
def duration : Iri := ⟨base ++ "duration"⟩
def dateTime : Iri := ⟨base ++ "dateTime"⟩
def date : Iri := ⟨base ++ "date"⟩
def time : Iri := ⟨base ++ "time"⟩
def gYearMonth : Iri := ⟨base ++ "gYearMonth"⟩
def gYear : Iri := ⟨base ++ "gYear"⟩

end Xsd

------------------------------------------------------------
-- Blank nodes
------------------------------------------------------------

/- A node without a name, told apart by its label. -/
structure BlankNode where
  label : String
  deriving DecidableEq, Repr

namespace BlankNode

/- Whether a label may start with a character. -/
def isLabelStart
    (c : Char) : Bool :=
  Text.isAsciiDigit c || c == '_' || Text.isLetter c

/- Whether a label may go on with a character. -/
def isLabelChar
    (c : Char) : Bool :=
  isLabelStart c || c == '-' || c == '.' || Text.isMark c

/- Whether a text is a label; it must not end in a dot. -/
def isLabel
    (cs : List Char) : Bool :=
  match cs with
  | [] => false
  | c :: rest =>
      isLabelStart c && rest.all isLabelChar && cs.getLast? != some '.'

/- The blank node with a label, if the label is valid. -/
def parse?
    (label : String) : Option BlankNode :=
  if isLabel label.toList then some ⟨label⟩ else none

end BlankNode

------------------------------------------------------------
-- Literals
------------------------------------------------------------

/- A text with a language, or a text with a datatype. -/
inductive Literal where
  | tagged (value language : String)
  | typed (value : String) (datatype : Iri)
  deriving DecidableEq, Repr

namespace Literal

/- A literal of no particular type. -/
def plain
    (value : String) : Literal :=
  .typed value Xsd.string

/- The text of a literal. -/
def value :
    Literal → String
  | tagged v _ => v
  | typed v _ => v

/- The language of a literal. -/
def language? :
    Literal → Option String
  | tagged _ l => some l
  | typed _ _ => none

/- The datatype of a literal. -/
def datatype :
    Literal → Iri
  | tagged _ _ => Rdf.langString
  | typed _ d => d

/-
  The literal with a language, in lower case, if that is a
  well-formed language tag.
-/
def tagged?
    (value language : String) : Option Literal :=
  let tag := Text.asciiLower language
  if LanguageTag.isWellFormed tag then
    some (.tagged value tag)
  else
    none

/-
  A literal with a language or a datatype, but not both. An
  empty language counts as none.
-/
def make
    (value : String)
    (datatype : Option Iri)
    (language : Option String) : Except Fault Literal :=
  match language.filter (fun l => !l.isEmpty), datatype with
  | some _, some _ => .error (.literalConflict value)
  | some l, none =>
      match tagged? value l with
      | some literal => .ok literal
      | none => .error (.invalidLiteral value)
  | none, some d => .ok (.typed value d)
  | none, none => .ok (plain value)

end Literal

------------------------------------------------------------
-- Terms
------------------------------------------------------------

/- Anything that a position of a statement may hold. -/
inductive Term where
  | iri (value : Iri)
  | blank (node : BlankNode)
  | literal (value : Literal)
  | defaultGraph
  deriving DecidableEq, Repr

/- The kinds of terms. -/
inductive Term.Kind where
  | namedNode
  | blankNode
  | literal
  | defaultGraph
  deriving DecidableEq, Repr

namespace Term

/- The name of a kind of terms, as records give it. -/
def Kind.name :
    Term.Kind → String
  | .namedNode => "NamedNode"
  | .blankNode => "BlankNode"
  | .literal => "Literal"
  | .defaultGraph => "DefaultGraph"

/- The kind of a term. -/
def kind :
    Term → Term.Kind
  | iri _ => .namedNode
  | blank _ => .blankNode
  | literal _ => .literal
  | defaultGraph => .defaultGraph

/- The kind of what may be a term. -/
def kindOf :
    Option Term → Except Fault Term.Kind
  | some t => .ok t.kind
  | none => .error (.notATerm "None")

/- The bare value of a term: its IRI, label or text. -/
def value :
    Term → String
  | iri i => i.text
  | blank b => b.label
  | literal l => l.value
  | defaultGraph => ""

------------------------------------------------------------
-- Writing terms
------------------------------------------------------------

/- One character of a literal, escaped where it must be. -/
def escapedChar
    (c : Char) : List Char :=
  if c == '"' || c == '\\' then
    ['\\', c]
  else if c == '\n' then
    ['\\', 'n']
  else if c == '\r' then
    ['\\', 'r']
  else if c == '\t' then
    ['\\', 't']
  else if c.toNat == 8 then
    ['\\', 'b']
  else if c.toNat == 12 then
    ['\\', 'f']
  else if c.toNat < 32 || c.toNat == 0x7F || c.toNat == 0xFFFE ||
      c.toNat == 0xFFFF then
    '\\' :: 'u' :: (Datum.hexDigits 4 c.toNat).map Char.toUpper
  else
    [c]

/- The text of a literal between quotes. -/
def quotedValue
    (value : String) : String :=
  String.ofList ('"' :: value.toList.flatMap escapedChar ++ ['"'])

/- A term as a line of statements writes it. -/
def written :
    Term → String
  | iri i => "<" ++ i.text ++ ">"
  | blank b => "_:" ++ b.label
  | literal (.tagged v l) => quotedValue v ++ "@" ++ l
  | literal (.typed v d) =>
      if d == Xsd.string then
        quotedValue v
      else
        quotedValue v ++ "^^<" ++ d.text ++ ">"
  | defaultGraph => "DEFAULT"

/- A term as messages describe it. -/
def described :
    Term → String
  | iri i => "<NamedNode value=" ++ i.text ++ ">"
  | blank b => "<BlankNode value=" ++ b.label ++ ">"
  | literal (.tagged v l) =>
      "<Literal value=" ++ v ++ " language=" ++ l ++ ">"
  | literal (.typed v d) =>
      "<Literal value=" ++ v ++ " datatype=<NamedNode value=" ++
        d.text ++ ">>"
  | defaultGraph => "<DefaultGraph>"

/- What may be a term, as messages describe it. -/
def describedOption :
    Option Term → String
  | some t => t.described
  | none => "None"

end Term
end LinkedMarkup
