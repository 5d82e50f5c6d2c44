import LinkedMarkup.Markup.Tree

/-
  This file defines elements that are still being read, and
  how text, children and the places of other things are added
  to them. The latest child is kept first.

  Key definitions include:
    * `Branch`
    * `Unfinished`
    * `Unfinished.addText`
    * `Unfinished.addAside`
    * `Unfinished.addTree`
    * `Unfinished.tree`
-/

namespace LinkedMarkup

/- A child with its tail; no tree for what is no element. -/
structure Branch where
  tree? : Option Tree
  tail : String
  deriving DecidableEq, Repr

/- An element that is being read, the latest child first. -/
structure Unfinished where
  tag : Tag
  text : String
  branches : List Branch
  deriving DecidableEq, Repr

namespace Branch

/- A child before the children that follow it. -/
def before
    (next : Forest)
    (b : Branch) : Forest :=
  match b.tree? with
  | some t => .element t.tag t.text t.children b.tail next
  | none => .aside b.tail next

end Branch

namespace Unfinished

/- An element of which only the start tag has been read. -/
def start
    (tag : Tag) : Unfinished :=
  ⟨tag, "", []⟩

/- Add text after what has been read. -/
def addText
    (data : String)
    (e : Unfinished) : Unfinished :=
  match e.branches with
  | [] => { e with text := e.text ++ data }
  | b :: rest =>
      { e with branches := { b with tail := b.tail ++ data } :: rest }

/- Add the place of something that is no element. -/
def addAside
    (e : Unfinished) : Unfinished :=
  { e with branches := ⟨none, ""⟩ :: e.branches }

/- Add a child. -/
def addTree
    (t : Tree)
    (e : Unfinished) : Unfinished :=
  { e with branches := ⟨some t, ""⟩ :: e.branches }

/- The element as it stands. -/
def tree
    (e : Unfinished) : Tree :=
  ⟨e.tag, e.text, e.branches.foldl Branch.before .nil⟩

end Unfinished
end LinkedMarkup
