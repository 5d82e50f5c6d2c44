import LinkedMarkup.Markup.Html.Nesting
import LinkedMarkup.Markup.Html.Token
import LinkedMarkup.Markup.Unfinished

/-
  This file defines how the tokens of HTML become a tree. The
  outer elements that a document leaves out are supplied, tags
  that repeat them are ignored, and what is open at the end is
  closed.

  Key definitions include:
    * `Html.Construction`
    * `Html.Construction.openTag`
    * `Html.Construction.closeTag`
    * `Html.Construction.addText`
    * `Html.Construction.read`
    * `Html.tree?`
-/

namespace LinkedMarkup
namespace Html

/-
  A tree under construction: the open elements, the innermost
  first; the root once it has ended; whether nothing stands
  before the root, not even the document type, which does so
  wherever it is; whether a head and a body have been opened;
  and how many tags were ignored whose end tags are to be
  ignored too.
-/
structure Construction where
  stack : List Unfinished
  root? : Option Unfinished
  isFirst : Bool
  hasHead : Bool
  hasBody : Bool
  ignored : Nat
  deriving DecidableEq, Repr

namespace Construction

/- A tree of which nothing has been read. -/
def start : Construction :=
  ⟨[], none, true, false, false, 0⟩

/- The name of an open element. -/
def nameOf
    (e : Unfinished) : String :=
  e.tag.name.part

/- The names of the open elements, the innermost first. -/
def names
    (c : Construction) : List String :=
  c.stack.map nameOf

------------------------------------------------------------
-- Opening and ending elements
------------------------------------------------------------

/- Open an element. -/
def push
    (name : String)
    (attributes : Entries)
    (c : Construction) : Construction :=
  let tag : Tag :=
    ⟨⟨none, name⟩, [], attributes.map (fun a => (⟨none, a.1⟩, a.2))⟩
  { c with
    stack := Unfinished.start tag :: c.stack
    hasHead := c.hasHead || name == "head" || name == "body"
    hasBody := c.hasBody || name == "body" }

/-
  Keep an element that has ended outside all others: as the
  root, or inside the root if that came first of all.
-/
def keepOuter
    (e : Unfinished)
    (c : Construction) : Construction :=
  match c.root? with
  | none => { c with root? := some e }
  | some r =>
      if c.isFirst then
        { c with root? := some (r.addTree e.tree) }
      else
        c

/- End the innermost element. -/
def pop
    (c : Construction) : Construction :=
  match c.stack with
  | [] => c
  | [e] => { keepOuter e c with stack := [] }
  | e :: p :: rest => { c with stack := p.addTree e.tree :: rest }

/- End some of the innermost elements. -/
def popMany :
    Nat → Construction → Construction
  | 0, c => c
  | n + 1, c => popMany n (pop c)

/- End the innermost elements that another one ends. -/
def endBefore
    (new : String)
    (c : Construction) : Construction :=
  popMany (c.names.takeWhile (endsBefore new)).length c

/- Open the outermost element, if nothing is open. -/
def supplyRoot
    (c : Construction) : Construction :=
  if c.stack.isEmpty then push "html" [] c else c

/- Open the head or the body that an element belongs to. -/
def supplyPart
    (new : String)
    (c : Construction) : Construction :=
  if new == "body" || new == "head" then
    c
  else if c.stack.length ≤ 1 && belongsToHead new then
    if c.hasHead then c else push "head" [] c
  else if framing.contains new || c.hasBody ||
      c.names.contains "body" || c.names.contains "head" then
    c
  else
    push "body" [] c

/- Open what must be around an element. -/
def supply
    (new : String)
    (c : Construction) : Construction :=
  if new == "html" then c else supplyPart new (supplyRoot c)

/-
  Whether a start tag is ignored, as a number of ignored tags:
  the outermost element inside another one, a head that is not
  right inside it, or a body inside a body.
-/
def ignoredTags
    (name : String)
    (c : Construction) : Nat :=
  if name == "html" then
    if c.stack.isEmpty then 0 else 1
  else if name == "head" then
    if c.stack.length == 1 then 0 else 1
  else if name == "body" then
    c.names.count "body"
  else
    0

/- Prepare for the start of an element. -/
def prepare
    (new : String)
    (c : Construction) : Construction :=
  supply new (endBefore new c)

/- Read a start tag. -/
def openTag
    (name : String)
    (attributes : Entries)
    (closes : Bool)
    (c : Construction) : Construction :=
  let ready := prepare name c
  let extra := ignoredTags name ready
  if extra > 0 then
    let ignoring := { ready with ignored := ready.ignored + extra }
    if closes then pop ignoring else ignoring
  else
    let opened := push name attributes ready
    if closes || isVoid name then pop opened else opened

/- Whether an end tag is for an element that was ignored. -/
def endsIgnored
    (name : String)
    (c : Construction) : Bool :=
  c.ignored > 0 &&
    (name == "html" || name == "body" || name == "head")

/-
  Read an end tag. It ends its element and those inside, and
  is ignored if there is none or one inside resists.
-/
def closeTag
    (name : String)
    (c : Construction) : Construction :=
  if endsIgnored name c then
    { c with ignored := c.ignored - 1 }
  else
    let inner := c.names.takeWhile (· != name)
    if inner.length == c.stack.length ||
        inner.any (fun n => endPriority n > endPriority name) then
      c
    else
      popMany (inner.length + 1) c

------------------------------------------------------------
-- Text
------------------------------------------------------------

/- Add text to the innermost element. -/
def append
    (data : List Char)
    (c : Construction) : Construction :=
  match c.stack with
  | [] => c
  | e :: rest =>
      { c with stack := e.addText (String.ofList data) :: rest }

/- Whether text opens the body where a construction stands. -/
def isOutsideBody
    (c : Construction) : Bool :=
  match c.names with
  | [] => true
  | name :: _ => name == "html" || name == "head"

/- Prepare for text outside the body. -/
def prepareText
    (c : Construction) : Construction :=
  if c.names.head? == some "head" then
    prepare "p" c
  else
    supply "p" c

/- Read text. Outside the body only leading space stays there. -/
def addText
    (data : List Char)
    (c : Construction) : Construction :=
  if isOutsideBody c then
    let spaced := append (data.takeWhile isSpace) c
    match data.dropWhile isSpace with
    | [] => spaced
    | rest => append rest (prepareText spaced)
  else
    append data c

/- Keep the place of a comment. -/
def addAside
    (c : Construction) : Construction :=
  match c.stack with
  | [] => if c.root?.isNone then { c with isFirst := false } else c
  | e :: rest => { c with stack := e.addAside :: rest }

------------------------------------------------------------
-- Documents
------------------------------------------------------------

/- Read a token. -/
def read
    (c : Construction) :
    Token → Construction
  | .opened name attributes closes => openTag name attributes closes c
  | .broken name => prepare name c
  | .closed name => closeTag name c
  | .text data => addText data.toList c
  | .aside => addAside c
  | .documentType => { c with isFirst := false }

end Construction

/- The tree of a text, if it has any element. -/
def tree?
    (cs : List Char) : Option Tree :=
  let read := (tokens cs).foldl Construction.read Construction.start
  (Construction.popMany read.stack.length read).root?.map
    Unfinished.tree

end Html
end LinkedMarkup
