import LinkedMarkup.Markup.Xml.Syntax

/-
  This file defines the declarations that a document may make
  before its root: entities, and attributes with defaults.
  Other declarations are only checked for their form.

  Key definitions include:
    * `Xml.Entity`
    * `Xml.Declarations`
    * `Xml.entityDeclaration?`
    * `Xml.attributeDeclarations?`
    * `Xml.subset?`
    * `Xml.documentType?`
-/

namespace LinkedMarkup
namespace Xml

/-
  What an entity stands for: a text of this document, one that
  is kept elsewhere, or data that is no text.
-/
inductive Entity where
  | internal (text : List Char)
  | external
  | unparsed
  deriving DecidableEq, Repr

/-
  A declared attribute: whether its value is kept as it is
  rather than a series of words, and its default.
-/
structure DeclaredAttribute where
  element : String
  name : String
  isVerbatim : Bool
  default? : Option (List Char)
  deriving DecidableEq, Repr

/-
  What has been declared, and whether there may be more
  declarations elsewhere, so that an unknown entity need not
  be an error.
-/
structure Declarations where
  entities : List (String × Entity)
  parameters : List (String × Entity)
  attributes : List DeclaredAttribute
  isOpen : Bool
  deriving DecidableEq, Repr

namespace Declarations

/- No declarations. -/
def none : Declarations :=
  ⟨[], [], [], false⟩

/- Declare an entity, unless its name has been declared. -/
def addEntity
    (name : String)
    (entity : Entity)
    (d : Declarations) : Declarations :=
  match d.entities.lookup name with
  | some _ => d
  | .none => { d with entities := d.entities ++ [(name, entity)] }

/- Declare an entity for use in declarations. -/
def addParameter
    (name : String)
    (entity : Entity)
    (d : Declarations) : Declarations :=
  match d.parameters.lookup name with
  | some _ => d
  | .none => { d with parameters := d.parameters ++ [(name, entity)] }

/- The declared attribute of an element. -/
def attribute?
    (d : Declarations)
    (element name : String) : Option DeclaredAttribute :=
  d.attributes.find? (fun a => a.element == element && a.name == name)

/- Declare an attribute, unless it has been declared. -/
def addAttribute
    (a : DeclaredAttribute)
    (d : Declarations) : Declarations :=
  match d.attribute? a.element a.name with
  | some _ => d
  | .none => { d with attributes := d.attributes ++ [a] }

end Declarations

------------------------------------------------------------
-- External identifiers
------------------------------------------------------------

/- Whether a public identifier may hold a character. -/
def isPublicChar
    (c : Char) : Bool :=
  Text.isAsciiAlphanumeric c || c == ' ' || c == '\n' ||
    "-'()+,./:=?;!*#@$_%".toList.contains c

/- What follows an external identifier, if there is one. -/
def afterExternal?
    (cs : List Char) : Option (List Char) :=
  match expect? "SYSTEM" cs with
  | some rest => do
      let (_, after) ← literal? (← skipSome? rest)
      return after
  | none => do
      let rest ← expect? "PUBLIC" cs
      let (identifier, more) ← literal? (← skipSome? rest)
      if identifier.all isPublicChar then
        let (_, after) ← literal? (← skipSome? more)
        return after
      else
        none

------------------------------------------------------------
-- Entities
------------------------------------------------------------

/-
  The value of an entity from its literal: references by
  number are replaced, others are kept. Entities for use in
  declarations may not be used here. The literal's length is
  enough of a budget.
-/
def entityValue? :
    Nat → List Char → Option (List Char)
  | _, [] => some []
  | 0, _ :: _ => none
  | budget + 1, '&' :: '#' :: rest => do
      let (c, after) ← numbered? rest
      return c :: (← entityValue? budget after)
  | budget + 1, '&' :: rest => do
      let (name, after) ← referenceName? rest
      return '&' :: name.toList ++ ';' :: (← entityValue? budget after)
  | budget + 1, c :: rest =>
      if c == '%' then
        none
      else do
        return c :: (← entityValue? budget rest)

/- What ends a declaration. -/
def declarationEnd?
    (cs : List Char) : Option (List Char) :=
  expect? ">" (skip cs)

/- The definition of an entity, and what follows it. -/
def entityDefinition?
    (cs : List Char) : Option (Entity × List Char) :=
  match literal? cs with
  | some (value, rest) => do
      let text ← entityValue? value.length value
      return (.internal text, rest)
  | none => do
      let rest ← afterExternal? cs
      match (skipSome? rest).bind (expect? "NDATA") with
      | some data => do
          let (_, after) ← name? (← skipSome? data)
          return (.unparsed, after)
      | none => return (.external, rest)

/- An entity declaration, from what follows its start. -/
def entityDeclaration?
    (d : Declarations)
    (cs : List Char) : Option (Declarations × List Char) := do
  let rest ← skipSome? cs
  match rest with
  | '%' :: after => do
      let (name, more) ← name? (← skipSome? after)
      let (entity, last) ← entityDefinition? (← skipSome? more)
      let final ← declarationEnd? last
      return (d.addParameter (String.ofList name) entity, final)
  | _ => do
      let (name, more) ← name? rest
      let (entity, last) ← entityDefinition? (← skipSome? more)
      let final ← declarationEnd? last
      if name.contains ':' then
        none
      else
        return (d.addEntity (String.ofList name) entity, final)

------------------------------------------------------------
-- Attributes
------------------------------------------------------------

/- The types of attributes that have names. -/
def attributeTypes : List String :=
  ["CDATA", "IDREFS", "IDREF", "ID", "ENTITIES", "ENTITY",
    "NMTOKENS", "NMTOKEN"]

/- What follows a list in brackets, if it holds only names. -/
def afterChoices?
    (cs : List Char) : Option (List Char) :=
  match cs with
  | '(' :: rest =>
      match Text.cutAtChar ')' rest with
      | (inside, some after) =>
          let choices := (Text.splitOn '|' inside).map Text.trimChars
          if choices.all (fun choice =>
              !choice.isEmpty && choice.all isNameChar) then
            some after
          else
            none
      | (_, none) => none
  | _ => none

/- Whether a type keeps values verbatim, and what follows it. -/
def attributeType?
    (cs : List Char) : Option (Bool × List Char) :=
  match attributeTypes.findSome? (fun type =>
      (expect? type cs).map (fun rest => (type == "CDATA", rest))) with
  | some found => some found
  | none =>
      match expect? "NOTATION" cs with
      | some rest => do
          return (false, ← afterChoices? (← skipSome? rest))
      | none => (afterChoices? cs).map (fun rest => (false, rest))

/- The default of an attribute, and what follows it. -/
def attributeDefault?
    (cs : List Char) : Option (Option (List Char) × List Char) :=
  match expect? "#REQUIRED" cs, expect? "#IMPLIED" cs with
  | some rest, _ => some (none, rest)
  | _, some rest => some (none, rest)
  | _, _ => do
      let body ←
        match expect? "#FIXED" cs with
        | some rest => skipSome? rest
        | none => some cs
      let (value, rest) ← literal? body
      return (some value, rest)

/-
  The attributes that a declaration lists for an element. The
  text's length is enough of a budget.
-/
def attributeList?
    (element : String) :
    Nat → Declarations → List Char → Option (Declarations × List Char)
  | 0, _, _ => none
  | budget + 1, d, cs =>
      match declarationEnd? cs with
      | some rest => some (d, rest)
      | none => do
          let (name, afterName) ← name? (← skipSome? cs)
          let (isVerbatim, afterType) ←
            attributeType? (← skipSome? afterName)
          let (default?, rest) ←
            attributeDefault? (← skipSome? afterType)
          attributeList? element budget
            (d.addAttribute
              ⟨element, String.ofList name, isVerbatim, default?⟩) rest

/- An attribute declaration, from what follows its start. -/
def attributeDeclarations?
    (d : Declarations)
    (cs : List Char) : Option (Declarations × List Char) := do
  let (element, rest) ← name? (← skipSome? cs)
  attributeList? (String.ofList element) (rest.length + 1) d rest

------------------------------------------------------------
-- Other declarations
------------------------------------------------------------

/- Whether the model of an element may hold a character. -/
def isModelChar
    (c : Char) : Bool :=
  isNameChar c || isSpace c || "()|,*+?#".toList.contains c

/- What follows an element declaration. -/
def afterElement?
    (cs : List Char) : Option (List Char) := do
  let (_, rest) ← name? (← skipSome? cs)
  let model ← skipSome? rest
  match Text.cutAtChar '>' model with
  | (inside, some after) =>
      if !inside.isEmpty && inside.all isModelChar then
        some after
      else
        none
  | (_, none) => none

/- What follows a public identifier that stands alone. -/
def afterPublic?
    (cs : List Char) : Option (List Char) := do
  let rest ← expect? "PUBLIC" cs
  let (identifier, after) ← literal? (← skipSome? rest)
  if identifier.all isPublicChar then some after else none

/- What follows a notation declaration. -/
def afterNotation?
    (cs : List Char) : Option (List Char) := do
  let (_, rest) ← name? (← skipSome? cs)
  let body ← skipSome? rest
  match (afterExternal? body).bind declarationEnd? with
  | some after => some after
  | none => do
      declarationEnd? (← afterPublic? body)

------------------------------------------------------------
-- Document types
------------------------------------------------------------

/- One declaration, from its start. -/
def declaration?
    (d : Declarations)
    (cs : List Char) : Option (Declarations × List Char) :=
  match expect? "<!ENTITY" cs, expect? "<!ATTLIST" cs,
      expect? "<!ELEMENT" cs, expect? "<!NOTATION" cs,
      expect? "<!--" cs, expect? "<?" cs with
  | some rest, _, _, _, _, _ => entityDeclaration? d rest
  | _, some rest, _, _, _, _ => attributeDeclarations? d rest
  | _, _, some rest, _, _, _ =>
      (afterElement? rest).map (fun after => (d, after))
  | _, _, _, some rest, _, _ =>
      (afterNotation? rest).map (fun after => (d, after))
  | _, _, _, _, some rest, _ =>
      (afterComment? rest).map (fun after => (d, after))
  | _, _, _, _, _, some rest =>
      (afterInstruction? rest).map (fun after => (d, after))
  | _, _, _, _, _, _ => none

/-
  What an entity that stands between declarations gives: its
  text is read in its place. One that is not known is an error
  unless there may be declarations elsewhere.
-/
def parameterText?
    (d : Declarations)
    (name : String) : Option (List Char) :=
  match d.parameters.lookup name with
  | some (.internal text) => some text
  | some _ => some []
  | none => if d.isOpen then some [] else none

/-
  The declarations up to the closing bracket, and what follows
  it. Entities may bring in more text, so the budget is a
  bound of its own.
-/
def subset? :
    Nat → Declarations → List Char → Option (Declarations × List Char)
  | 0, _, _ => none
  | budget + 1, d, cs =>
      match skip cs with
      | ']' :: rest => some (d, rest)
      | '%' :: rest => do
          let (name, after) ← referenceName? rest
          let text ← parameterText? d name
          subset? budget { d with isOpen := true } (text ++ after)
      | other => do
          let (more, rest) ← declaration? d other
          subset? budget more rest

/- How many declarations a document may make. -/
def declarationLimit : Nat :=
  10000

/-
  The document type, from what follows its start. It may name
  declarations that are kept elsewhere.
-/
def documentType?
    (cs : List Char) : Option (Declarations × List Char) := do
  let (_, afterName) ← name? (← skipSome? cs)
  let body := skip afterName
  let (isOpen, rest) :=
    match afterExternal? body with
    | some after => (true, skip after)
    | none => (false, body)
  match rest with
  | '>' :: after => return ({ Declarations.none with isOpen := isOpen }, after)
  | '[' :: inside => do
      let (d, after) ← subset? declarationLimit
        { Declarations.none with isOpen := isOpen } inside
      return (d, ← declarationEnd? after)
  | _ => none

end Xml
end LinkedMarkup
