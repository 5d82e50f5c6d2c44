import LinkedMarkup.Iri.Validity
import LinkedMarkup.Markup.Tree
import LinkedMarkup.Markup.Xml.Syntax

/-
  This file defines namespaces in XML: how the attributes of a
  tag bind prefixes, and what names stand for in a scope. The
  default namespace is bound to the empty prefix; bound to the
  empty text, it is none.

  Key definitions include:
    * `Xml.Bound`
    * `Xml.bind?`
    * `Xml.expand?`
    * `Xml.tag?`
-/

namespace LinkedMarkup
namespace Xml

------------------------------------------------------------
-- Namespace names
------------------------------------------------------------

/- Whether a text is an ASCII reference, absolute or not. -/
def isReference
    (cs : List Char) : Bool :=
  let first := cs.takeWhile (fun c => c != '/' && c != '?' && c != '#')
  cs.all (fun c => c.toNat < 0x80) &&
    if (Iri.scheme? cs).isSome then
      Iri.isAbsolute cs
    else
      !first.contains ':' && Iri.isAbsolute ('x' :: ':' :: cs)

/- The namespace of attributes that bind prefixes. -/
def bindingSpace : String :=
  "http://www.w3.org/2000/xmlns/"

/- Whether a prefix may be bound to a namespace. -/
def mayBind
    (space : String) : Bool :=
  space != xmlSpace && space != bindingSpace &&
    isReference space.toList

------------------------------------------------------------
-- Bindings
------------------------------------------------------------

/-
  What the attributes of a tag bind: prefixes in order, the
  default namespace, and the attributes that bind nothing.
-/
structure Bound where
  prefixes : Entries
  default? : Option String
  others : List (String × String × String)
  deriving DecidableEq, Repr

/- Take one attribute of a tag into account. -/
def bindOne?
    (done : Bound)
    (key value : String) : Option Bound := do
  let (front, part) ← splitName? key.toList
  if front == "" && part == "xmlns" then
    if value == "" || mayBind value then
      return { done with default? := some value }
    else
      none
  else if front == "xmlns" then
    if part == "xml" then
      if value == xmlSpace then some done else none
    else if part != "xmlns" && value != "" && mayBind value then
      return { done with prefixes := done.prefixes ++ [(part, value)] }
    else
      none
  else
    return { done with others := done.others ++ [(front, part, value)] }

/- What the attributes of a tag bind. -/
def bind?
    (attributes : Entries) : Option Bound :=
  attributes.foldlM (fun done a => bindOne? done a.1 a.2) ⟨[], none, []⟩

/- The bindings in scope inside a tag. -/
def Bound.scope
    (outer : Entries)
    (b : Bound) : Entries :=
  let own :=
    match b.default? with
    | some space => ("", space) :: b.prefixes
    | none => b.prefixes
  Entries.merge outer own

------------------------------------------------------------
-- Expanded names
------------------------------------------------------------

/- The namespace that a prefix stands for. -/
def space?
    (scope : Entries)
    (front : String) : Option String :=
  if front == "xml" then some xmlSpace else scope.get? front

/- The expanded name of an element. -/
def expand?
    (scope : Entries)
    (front part : String) : Option ExpandedName :=
  if front == "" then
    some ⟨(scope.get? "").filter (fun space => space != ""), part⟩
  else
    (space? scope front).map (fun space => ⟨some space, part⟩)

/- The expanded name of an attribute, which has no default. -/
def expandAttribute?
    (scope : Entries)
    (front part : String) : Option ExpandedName :=
  if front == "" then some ⟨none, part⟩ else expand? scope front part

/- Whether the names of some attributes all differ. -/
def areDistinct :
    List (ExpandedName × String) → Bool
  | [] => true
  | a :: rest => rest.all (fun b => b.1 != a.1) && areDistinct rest

/-
  A start tag with expanded names, and the bindings in scope
  inside it. Every prefix must be bound, and no two attributes
  may have one name.
-/
def tag?
    (outer : Entries)
    (name : String)
    (attributes : Entries) : Option (Tag × Entries) := do
  let bound ← bind? attributes
  let scope := bound.scope outer
  let (front, part) ← splitName? name.toList
  let expanded ← expand? scope front part
  let named ← bound.others.mapM (fun a => do
    return (← expandAttribute? scope a.1 a.2.1, a.2.2))
  if areDistinct named then
    return (⟨expanded, bound.prefixes, named⟩, scope)
  else
    none

end Xml
end LinkedMarkup
