import LinkedMarkup.Fault
import LinkedMarkup.Markup.Event
import LinkedMarkup.Markup.MediaType
import LinkedMarkup.Markup.Tree

/-
  This file defines the walk that turns a tree into events,
  in document order. It keeps the open elements on a stack.
  Tags are reported with plain names: a name in a namespace
  gets the first prefix in scope that is bound to it, and in
  XHTML a namespace binding is an attribute `xmlns:p`.

  Key definitions include:
    * `Tag.scope`
    * `Tag.reportedName`
    * `Tag.reportedBindings`
    * `Tag.reportedAttributes`
    * `Walk.Frame`
    * `Walk.run`
    * `Tree.walk`
-/

namespace LinkedMarkup

------------------------------------------------------------
-- Reported names
------------------------------------------------------------

namespace Tag

/- The prefixes in scope inside an element, its own first. -/
def scope
    (outer : Entries)
    (tag : Tag) : Entries :=
  tag.bindings ++
    outer.filter (fun entry => !tag.bindings.has entry.1)

/-
  The name of an element. HTML has all of it in lower case, a
  namespace included, and XHTML drops the namespace.
-/
def reportedName
    (media : MediaType)
    (tag : Tag) : String :=
  match media with
  | .html => Text.lower tag.name.text
  | .xhtml => tag.name.part

/- The name of an attribute in a namespace. -/
def qualifiedName
    (scope : Entries)
    (space part : String) : String :=
  if space == xmlSpace then
    "xml:" ++ part
  else
    match scope.find? (fun entry => entry.2 == space) with
    | some entry => entry.1 ++ ":" ++ part
    | none => part

/-
  The name of an attribute. One of HTML that starts with a
  brace is taken for a namespace in braces and a name.
-/
def attributeName
    (media : MediaType)
    (scope : Entries)
    (name : ExpandedName) : Except Fault String :=
  match media, name.space, name.part.toList with
  | _, some space, _ => .ok (qualifiedName scope space name.part)
  | .xhtml, none, _ => .ok name.part
  | .html, none, '\x7b' :: rest =>
      match Text.cutAtChar '\x7d' rest with
      | (space, some part) =>
          .ok (qualifiedName scope (String.ofList space)
            (String.ofList part))
      | (_, none) => .error .attributeName
  | .html, none, _ => .ok (Text.lower name.part)

/-
  The bindings of a tag that are new where it stands. HTML
  does not report them.
-/
def reportedBindings
    (media : MediaType)
    (outer : Entries)
    (tag : Tag) : Entries :=
  match media with
  | .html => []
  | .xhtml =>
      (tag.bindings.filter (fun entry =>
        outer.get? entry.1 != some entry.2)).map
          (fun entry => ("xmlns:" ++ entry.1, entry.2))

/- The attributes that a tag is reported with. -/
def reportedAttributes
    (media : MediaType)
    (outer : Entries)
    (tag : Tag) : Except Fault Entries := do
  let named ← tag.attributes.mapM (fun a => do
    let name ← attributeName media (tag.scope outer) a.1
    return (name, a.2))
  return Entries.merge (tag.reportedBindings media outer) named

end Tag

------------------------------------------------------------
-- The walk
------------------------------------------------------------

namespace Walk

/-
  An open element: its name, the prefixes in scope inside it,
  the children that are still to come, and its tail.
-/
structure Frame where
  name : String
  scope : Entries
  children : Forest
  tail : String
  deriving DecidableEq, Repr

namespace Frame

/- How much there is to visit in some frames. -/
def sizes :
    List Frame → Nat
  | [] => 0
  | f :: rest => f.children.size + 1 + sizes rest

end Frame

/- The event of a piece of text, nothing if it is empty. -/
def textEvent
    (text : String) : List Event :=
  if text.isEmpty then [] else [.text text]

/-
  The events of a walk, and the fault that ended it early, if
  one did.
-/
structure Trace where
  events : List Event
  fault? : Option Fault
  deriving DecidableEq, Repr

/- A trace after some events that come first. -/
def Trace.after
    (first : List Event)
    (t : Trace) : Trace :=
  { t with events := first ++ t.events }

/-
  Walk on from some open elements, the innermost first. A tag
  with an attribute that cannot be named ends the walk.
-/
def run
    (media : MediaType) :
    List Frame → Trace
  | [] => ⟨[], none⟩
  | ⟨name, _, .nil, tail⟩ :: rest =>
      (Walk.run media rest).after
        (.closed name rest.length ::
          (if rest.isEmpty then [] else textEvent tail))
  | ⟨name, scope, .aside gap next, tail⟩ :: rest =>
      (Walk.run media (⟨name, scope, next, tail⟩ :: rest)).after
        (textEvent gap)
  | ⟨name, scope, .element tag text children gap next, tail⟩ :: rest =>
      match tag.reportedAttributes media scope with
      | .error fault => ⟨[], some fault⟩
      | .ok attributes =>
          let inner := tag.reportedName media
          (Walk.run media
            (⟨inner, tag.scope scope, children, gap⟩ ::
              ⟨name, scope, next, tail⟩ :: rest)).after
            (.opened inner attributes (rest.length + 1) ::
              textEvent text)
termination_by frames => Frame.sizes frames
decreasing_by
  all_goals simp only [Frame.sizes, Forest.size]; omega

end Walk

/- The events of a tree, in document order. -/
def Tree.walk
    (media : MediaType)
    (t : Tree) : Walk.Trace :=
  match t.tag.reportedAttributes media [] with
  | .error fault => ⟨[], some fault⟩
  | .ok attributes =>
      let name := t.tag.reportedName media
      (Walk.run media [⟨name, t.tag.scope [], t.children, ""⟩]).after
        (.opened name attributes 0 :: Walk.textEvent t.text)

end LinkedMarkup
