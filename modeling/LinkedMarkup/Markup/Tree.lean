import LinkedMarkup.Text.Entries

/-
  This file defines the tree that a document is read into.
  Elements, text, and the places of comments, instructions
  and entities are kept: text is either the first of its
  element or the tail of the child before it.

  Key definitions include:
    * `ExpandedName`
    * `ExpandedName.text`
    * `Tag`
    * `Forest`
    * `Tree`
    * `Tree.baseReference?`
-/

namespace LinkedMarkup

------------------------------------------------------------
-- Tags
------------------------------------------------------------

/- A name in a namespace, or in none. -/
structure ExpandedName where
  space : Option String
  part : String
  deriving DecidableEq, Repr

/- A name with its namespace in braces in front, if it has one. -/
def ExpandedName.text
    (name : ExpandedName) : String :=
  match name.space with
  | none => name.part
  | some space => "\x7b" ++ space ++ "\x7d" ++ name.part

/- The namespace of names that start with `xml:`. -/
def xmlSpace : String :=
  "http://www.w3.org/XML/1998/namespace"

/-
  What a start tag says: the element's name, the namespaces
  that it binds to prefixes, and its attributes.
-/
structure Tag where
  name : ExpandedName
  bindings : Entries
  attributes : List (ExpandedName × String)
  deriving DecidableEq, Repr

namespace Tag

/- The value of an attribute in no namespace. -/
def attribute?
    (tag : Tag)
    (key : String) : Option String :=
  (tag.attributes.find? (fun a => a.1 == ⟨none, key⟩)).map (·.2)

end Tag

------------------------------------------------------------
-- Trees
------------------------------------------------------------

/-
  The children of an element, in order. Each has a tail, the
  text between it and what follows; the place of anything
  that is no element is kept for its tail.
-/
inductive Forest where
  | nil
  | element (tag : Tag) (text : String) (children : Forest)
      (tail : String) (next : Forest)
  | aside (tail : String) (next : Forest)
  deriving DecidableEq, Repr

/- An element with its first text and its children. -/
structure Tree where
  tag : Tag
  text : String
  children : Forest
  deriving DecidableEq, Repr

namespace Forest

/- How much there is to visit in a forest. -/
def size :
    Forest → Nat
  | nil => 0
  | element _ _ children _ next => children.size + next.size + 2
  | aside _ next => next.size + 1

end Forest

------------------------------------------------------------
-- Base references
------------------------------------------------------------

namespace Tag

/- The reference that a tag gives as the base, if it does. -/
def baseReference?
    (tag : Tag) : Option String :=
  if tag.name == ⟨none, "base"⟩ then tag.attribute? "href" else none

end Tag

/- The first base reference of a forest, in document order. -/
def Forest.baseReference? :
    Forest → Option String
  | .nil => none
  | .element tag _ children _ next =>
      (tag.baseReference?.or children.baseReference?).or
        next.baseReference?
  | .aside _ next => next.baseReference?

/- The first base reference of a tree, in document order. -/
def Tree.baseReference?
    (t : Tree) : Option String :=
  t.tag.baseReference?.or t.children.baseReference?

end LinkedMarkup
