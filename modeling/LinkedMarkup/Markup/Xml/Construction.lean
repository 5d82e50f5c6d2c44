import LinkedMarkup.Encoding.Utf8
import LinkedMarkup.Markup.Unfinished
import LinkedMarkup.Markup.Xml.Namespaces
import LinkedMarkup.Markup.Xml.Token

/-
  This file defines how XML becomes a tree. Tags must nest
  and everything must be well-formed, in entities too; there
  is one root, and nothing but blanks and asides around it.

  Key definitions include:
    * `Xml.isSound`
    * `Xml.Construction`
    * `Xml.Construction.read?`
    * `Xml.prolog?`
    * `Xml.tree?`
-/

namespace LinkedMarkup
namespace Xml

------------------------------------------------------------
-- Entities in content
------------------------------------------------------------

/-
  Whether tokens nest, with the names of the elements that are
  open, if all entities in them pass a test.
-/
def nests
    (isSoundEntity : List Char → Bool) :
    List String → List Token → Bool
  | stack, [] => stack.isEmpty
  | stack, .opened name _ closes :: rest =>
      nests isSoundEntity (if closes then stack else name :: stack) rest
  | top :: stack, .closed name :: rest =>
      top == name && nests isSoundEntity stack rest
  | [], .closed _ :: _ => false
  | stack, .entity text :: rest =>
      isSoundEntity text && nests isSoundEntity stack rest
  | stack, .text _ :: rest => nests isSoundEntity stack rest
  | stack, .literal _ :: rest => nests isSoundEntity stack rest
  | stack, .unknownEntity :: rest => nests isSoundEntity stack rest
  | stack, .aside :: rest => nests isSoundEntity stack rest

/-
  Whether the text of an entity is well-formed content. The
  number bounds how deep entities may nest.
-/
def isSound
    (d : Declarations) :
    Nat → List Char → Bool
  | 0, _ => false
  | depth + 1, text =>
      match tokens? d text with
      | some tokens => nests (isSound d depth) [] tokens
      | none => false

------------------------------------------------------------
-- Construction
------------------------------------------------------------

/- An open element, with its written name and its scope. -/
structure OpenElement where
  name : String
  scope : Entries
  element : Unfinished
  deriving DecidableEq, Repr

/-
  A tree under construction: the open elements, the innermost
  first, the root once it has ended, and the identifiers that
  have been used.
-/
structure Construction where
  stack : List OpenElement
  root? : Option Tree
  identifiers : List String
  deriving DecidableEq, Repr

namespace Construction

/- A tree of which nothing has been read. -/
def start : Construction :=
  ⟨[], none, []⟩

/- How many elements may be open at once. -/
def depthLimit : Nat :=
  256

/- Change the innermost element, if there is one. -/
def inside?
    (c : Construction)
    (change : Unfinished → Unfinished) : Option Construction :=
  match c.stack with
  | [] => none
  | e :: rest =>
      some { c with stack := { e with element := change e.element } :: rest }

/- End the innermost element. -/
def pop?
    (c : Construction) : Option Construction :=
  match c.stack with
  | [] => none
  | [e] => some { c with stack := [], root? := some e.element.tree }
  | e :: p :: rest =>
      some { c with
        stack :=
          { p with element := p.element.addTree e.element.tree } :: rest }

/- Note the identifier of a tag: a name that is used once. -/
def identify?
    (tag : Tag)
    (c : Construction) : Option Construction :=
  match tag.attributes.find? (fun a => a.1 == ⟨some xmlSpace, "id"⟩) with
  | none => some c
  | some (_, value) =>
      let name := (Text.splitOn ' ' value.toList).filter
        (fun part => !part.isEmpty)
      if value == "" then
        some c
      else if name.length == 1 && name.all isPlainName &&
          !c.identifiers.contains value then
        some { c with identifiers := value :: c.identifiers }
      else
        none

/- Open an element. -/
def openTag?
    (name : String)
    (attributes : Entries)
    (closes : Bool)
    (c : Construction) : Option Construction :=
  if (c.stack.isEmpty && c.root?.isSome) ||
      c.stack.length ≥ depthLimit then
    none
  else do
    let outer := (c.stack.head?.map OpenElement.scope).getD []
    let (tag, scope) ← tag? outer name attributes
    let noted ← identify? tag c
    let opened : Construction :=
      { noted with
        stack := ⟨name, scope, Unfinished.start tag⟩ :: noted.stack }
    if closes then pop? opened else some opened

/- Read a token. -/
def read?
    (d : Declarations)
    (c : Construction) :
    Token → Option Construction
  | .opened name attributes closes => openTag? name attributes closes c
  | .closed name =>
      if (c.stack.head?.map OpenElement.name) == some name then
        pop? c
      else
        none
  | .text data =>
      if c.stack.isEmpty then
        if data.all isSpace then some c else none
      else
        c.inside? (Unfinished.addText (String.ofList data))
  | .literal data => c.inside? (Unfinished.addText (String.ofList data))
  | .entity text =>
      if isSound d entityDepth text then
        c.inside? Unfinished.addAside
      else
        none
  | .unknownEntity => c.inside? Unfinished.addAside
  | .aside =>
      if c.stack.isEmpty then some c else c.inside? Unfinished.addAside

end Construction

------------------------------------------------------------
-- The declaration of the document
------------------------------------------------------------

/-
  What a document declares of itself: the encoding, and that
  there are no declarations elsewhere.
-/
structure Header where
  encoding : String
  standsAlone : Bool
  deriving DecidableEq, Repr

/- The value of a part of the header, and what follows it. -/
def headerValue?
    (key : String)
    (cs : List Char) : Option (List Char × List Char) := do
  let rest ← expect? key cs
  literal? (skip (← expect? "=" (skip rest)))

/- Whether a text is a version this reader knows. -/
def isVersion
    (cs : List Char) : Bool :=
  match cs with
  | '1' :: '.' :: rest => rest.all Text.isAsciiDigit
  | _ => false

/- Whether a text is the name of an encoding. -/
def isEncodingName
    (cs : List Char) : Bool :=
  match cs with
  | [] => false
  | c :: rest =>
      Text.isAsciiLetter c && rest.all (fun d =>
        Text.isAsciiAlphanumeric d || d == '.' || d == '_' || d == '-')

/- An optional part of the header, after spaces. -/
def optionalValue?
    (key : String)
    (cs : List Char) : Option (List Char) × List Char :=
  match (skipSome? cs).bind (headerValue? key) with
  | some (value, rest) => (some value, rest)
  | none => (none, cs)

/- The header, from what follows its start. -/
def header?
    (cs : List Char) : Option (Header × List Char) := do
  let (version, afterVersion) ← headerValue? "version" (← skipSome? cs)
  let (encoding, afterEncoding) := optionalValue? "encoding" afterVersion
  let (alone, rest) := optionalValue? "standalone" afterEncoding
  let after ← expect? "?>" (skip rest)
  if isVersion version && encoding.all isEncodingName &&
      alone.all (fun v => v == "yes".toList || v == "no".toList) then
    return (⟨(encoding.map String.ofList).getD "UTF-8",
      alone == some "yes".toList⟩, after)
  else
    none

/-
  A text that was encoded as UTF-8, as its bytes read in the
  encoding that its header names.
-/
def recoded?
    (encoding : String)
    (cs : List Char) : Option (List Char) :=
  let name := Text.asciiLower encoding
  if name == "utf-8" || name == "utf8" then
    some cs
  else if name == "us-ascii" || name == "ascii" then
    if cs.all (fun c => c.toNat < 0x80) then some cs else none
  else if name == "iso-8859-1" || name == "latin1" then
    some ((Utf8.encode (cs.map Char.toNat)).map Char.ofNat)
  else
    none

------------------------------------------------------------
-- Documents
------------------------------------------------------------

/-
  What comes before the root: blanks, asides and at most one
  document type. The text's length is enough of a budget.
-/
def prolog? :
    Nat → Option Declarations → List Char →
      Option (Declarations × List Char)
  | 0, _, _ => none
  | budget + 1, declared, cs =>
      let body := skip cs
      match expect? "<!--" body, expect? "<?" body,
          expect? "<!DOCTYPE" body with
      | some rest, _, _ => do
          prolog? budget declared (← afterComment? rest)
      | _, some rest, _ => do
          prolog? budget declared (← afterInstruction? rest)
      | _, _, some rest =>
          match declared with
          | some _ => none
          | none => do
              let (d, after) ← documentType? rest
              prolog? budget (some d) after
      | _, _, _ => some (declared.getD Declarations.none, body)

/- The tree of what follows the header. -/
def body?
    (standsAlone : Bool)
    (cs : List Char) : Option Tree := do
  let (declared, rest) ← prolog? (cs.length + 1) none cs
  let d := { declared with isOpen := declared.isOpen && !standsAlone }
  let tokens ← tokens? d rest
  let read ← tokens.foldlM (Construction.read? d) Construction.start
  if read.stack.isEmpty then read.root? else none

/- The tree of a text, if it is well-formed. -/
def tree?
    (cs : List Char) : Option Tree :=
  let unmarked :=
    match cs with
    | '\uFEFF' :: rest => rest
    | _ => cs
  match expect? "<?xml" unmarked with
  | some rest =>
      if (skipSome? rest).isSome then do
        let (header, after) ← header? (normalised rest)
        body? header.standsAlone (← recoded? header.encoding after)
      else
        body? false (normalised unmarked)
  | none => body? false (normalised unmarked)

end Xml
end LinkedMarkup
