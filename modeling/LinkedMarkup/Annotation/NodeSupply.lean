import LinkedMarkup.Statement.Term

/-
  This file defines the supply of blank nodes within one
  document: fresh ones, numbered in order, and those that the
  document names itself.

  Key definitions include:
    * `NodeSupply`
    * `NodeSupply.node`
    * `NodeSupply.fresh`
    * `NodeSupply.labelled`
    * `NodeSupply.freshMany`
-/

namespace LinkedMarkup

/-
  How many nodes have been made, and the numbers of those
  that the document's own labels stand for.
-/
structure NodeSupply where
  count : Nat
  labels : List (String × Nat)
  deriving DecidableEq, Repr

namespace NodeSupply

/- A supply that has made no node. -/
def empty : NodeSupply :=
  ⟨0, []⟩

/- The node with a number. -/
def node
    (n : Nat) : BlankNode :=
  ⟨"b" ++ Nat.repr n⟩

/- Make a new node. -/
def fresh
    (s : NodeSupply) : BlankNode × NodeSupply :=
  (node s.count, { s with count := s.count + 1 })

/- The number of a label that has been seen. -/
def number?
    (s : NodeSupply)
    (label : String) : Option Nat :=
  (s.labels.find? (fun entry => entry.1 == label)).map (·.2)

/- The node of a label, made when the label is first seen. -/
def labelled
    (s : NodeSupply)
    (label : String) : BlankNode × NodeSupply :=
  match s.number? label with
  | some n => (node n, s)
  | none =>
      (node s.count,
        ⟨s.count + 1, (label, s.count) :: s.labels⟩)

/- Make several new nodes. -/
def freshMany
    (s : NodeSupply)
    (n : Nat) : List BlankNode × NodeSupply :=
  ((List.range' s.count n).map node, { s with count := s.count + n })

end NodeSupply
end LinkedMarkup
