import LinkedMarkup.Annotation.NodeSupply
import LinkedMarkup.Statement.Quad

/-
  This file defines lists under construction. A mapping stands
  alone or is chained to another; all of a chain fill the
  lists of its outermost mapping, its owner, in the order in
  which members arrive. Flushing the owner writes its lists.

  The owner of a mapping is stored with it. It is the one that
  is reached by following the links of the chain: filling
  lists in that way is defined too, and is proved to be the
  same in `ListForest.Follows.appendAlong_eq`.

  Key definitions include:
    * `AsTerm`
    * `ListForest`
    * `ListForest.root`
    * `ListForest.child`
    * `ListForest.contains`
    * `ListForest.ensure`
    * `ListForest.append`
    * `ListForest.collection`
    * `ListForest.outermostAlong`
    * `ListForest.holderAlong?`
    * `ListForest.ensureAlong`
    * `ListForest.appendAlong`
    * `ListForest.flush`
-/

namespace LinkedMarkup

------------------------------------------------------------
-- Values that may be terms
------------------------------------------------------------

/- Values that stand for a term, or for none. -/
class AsTerm (α : Type) where
  asTerm : α → Option Term

instance : AsTerm (Option Term) :=
  ⟨fun t => t⟩

instance : AsTerm Iri :=
  ⟨fun i => some (.iri i)⟩

instance : AsTerm Subject :=
  ⟨fun s => some s.toTerm⟩

instance : AsTerm Object :=
  ⟨fun o => some o.toTerm⟩

------------------------------------------------------------
-- Mappings
------------------------------------------------------------

/-
  One mapping: its owner, whether its lists are written as
  collections, whether it has been flushed, and the lists it
  owns by predicate, in order of first use.
-/
structure ListSlot (P V : Type) where
  owner : Nat
  collects : Bool
  flushed : Bool
  lists : List (P × List V)
  deriving DecidableEq, Repr

/- All mappings of a run, numbered in order of creation. -/
structure ListForest (P V : Type) where
  slots : Array (ListSlot P V)
  deriving DecidableEq, Repr

namespace ListForest

variable {P V : Type}

/- A forest without mappings. -/
def empty : ListForest P V :=
  ⟨#[]⟩

/- The mapping with a number; unknown ones are empty. -/
def slot
    (f : ListForest P V)
    (id : Nat) : ListSlot P V :=
  f.slots[id]?.getD ⟨id, false, false, []⟩

/- Replace the mapping with a number. -/
def setSlot
    (f : ListForest P V)
    (id : Nat)
    (s : ListSlot P V) : ListForest P V :=
  ⟨f.slots.setIfInBounds id s⟩

/- A new mapping that is its own owner. -/
def root
    (f : ListForest P V)
    (collects : Bool) : Nat × ListForest P V :=
  (f.slots.size, ⟨f.slots.push ⟨f.slots.size, collects, false, []⟩⟩)

/- A new mapping that is chained to another. -/
def child
    (f : ListForest P V)
    (id : Nat) : Nat × ListForest P V :=
  (f.slots.size,
    ⟨f.slots.push ⟨(f.slot id).owner, (f.slot id).collects, false, []⟩⟩)

/- The lists that a mapping fills. -/
def lists
    (f : ListForest P V)
    (id : Nat) : List (P × List V) :=
  (f.slot (f.slot id).owner).lists

/- Replace the lists that a mapping fills. -/
def setLists
    (f : ListForest P V)
    (id : Nat)
    (lists : List (P × List V)) : ListForest P V :=
  f.setSlot (f.slot id).owner
    { f.slot (f.slot id).owner with lists := lists }

/- Whether a mapping has been flushed. -/
def flushed
    (f : ListForest P V)
    (id : Nat) : Bool :=
  (f.slot id).flushed

------------------------------------------------------------
-- Filling lists
------------------------------------------------------------

variable [DecidableEq P]

/- The members of a predicate's list. -/
def members?
    (lists : List (P × List V))
    (predicate : P) : Option (List V) :=
  match lists with
  | [] => none
  | (p, members) :: rest =>
      if p = predicate then some members else members? rest predicate

/- Add an empty list for a predicate, if it has none. -/
def opened
    (lists : List (P × List V))
    (predicate : P) : List (P × List V) :=
  match members? lists predicate with
  | some _ => lists
  | none => lists ++ [(predicate, [])]

/- Add a member at the end of a predicate's list. -/
def extended
    (lists : List (P × List V))
    (predicate : P)
    (value : V) : List (P × List V) :=
  match lists with
  | [] => [(predicate, [value])]
  | (p, members) :: rest =>
      if p = predicate then
        (p, members ++ [value]) :: rest
      else
        (p, members) :: extended rest predicate value

/- Whether a mapping sees a list for a predicate. -/
def contains
    (f : ListForest P V)
    (id : Nat)
    (predicate : P) : Bool :=
  (members? (f.lists id) predicate).isSome

/- The fault of using a mapping after it was flushed. -/
def flushedFault
    [AsTerm P]
    (predicate : P) : Fault :=
  match AsTerm.asTerm predicate with
  | some t => .listFlushed t.value
  | none => .missingMember "NoneType" "value"

/-
  Make sure that a predicate has a list, and give the members
  that the list holds.
-/
def ensure
    [AsTerm P]
    (f : ListForest P V)
    (id : Nat)
    (predicate : P) : Except Fault (List V × ListForest P V) :=
  if f.flushed id then
    .error (flushedFault predicate)
  else
    .ok ((members? (f.lists id) predicate).getD [],
      f.setLists id (opened (f.lists id) predicate))

/- Add a member to a predicate's list. -/
def append
    [AsTerm P]
    (f : ListForest P V)
    (id : Nat)
    (predicate : P)
    (value : V) : Except Fault (ListForest P V) :=
  if f.flushed id then
    .error (flushedFault predicate)
  else
    .ok (f.setLists id (extended (f.lists id) predicate value))

------------------------------------------------------------
-- Following links
------------------------------------------------------------

/-
  The mapping where the links from another one end. Links lead
  to mappings that were made before.
-/
def outermostAlong
    (parent? : Nat → Option Nat)
    (id : Nat) : Nat :=
  match parent? id with
  | none => id
  | some parent =>
      if parent < id then outermostAlong parent? parent else id
termination_by id

/- The first mapping along the links with a list of its own. -/
def holderAlong?
    (parent? : Nat → Option Nat)
    (f : ListForest P V)
    (id : Nat)
    (predicate : P) : Option Nat :=
  match members? (f.slot id).lists predicate with
  | some _ => some id
  | none =>
      match parent? id with
      | none => none
      | some parent =>
          if parent < id then
            holderAlong? parent? f parent predicate
          else
            none
termination_by id

/- Whether there is a list for a predicate along the links. -/
def containsAlong
    (parent? : Nat → Option Nat)
    (f : ListForest P V)
    (id : Nat)
    (predicate : P) : Bool :=
  (f.holderAlong? parent? id predicate).isSome

/-
  Make sure that there is a list along the links, where they
  end if there was none, and give its members.
-/
def ensureAlong
    [AsTerm P]
    (parent? : Nat → Option Nat)
    (f : ListForest P V)
    (id : Nat)
    (predicate : P) : Except Fault (List V × ListForest P V) :=
  if f.flushed id then
    .error (flushedFault predicate)
  else
    match f.holderAlong? parent? id predicate with
    | some holder =>
        .ok ((members? (f.slot holder).lists predicate).getD [], f)
    | none =>
        let s := f.slot (outermostAlong parent? id)
        .ok ([], f.setSlot (outermostAlong parent? id)
          { s with lists := s.lists ++ [(predicate, [])] })

/- Add a member to the list that is found along the links. -/
def appendAlong
    [AsTerm P]
    (parent? : Nat → Option Nat)
    (f : ListForest P V)
    (id : Nat)
    (predicate : P)
    (value : V) : Except Fault (ListForest P V) :=
  match f.ensureAlong parent? id predicate with
  | .error fault => .error fault
  | .ok (_, g) =>
      match g.holderAlong? parent? id predicate with
      | none => .ok g
      | some holder =>
          let s := g.slot holder
          .ok (g.setSlot holder
            { s with lists := extended s.lists predicate value })

------------------------------------------------------------
-- Writing lists
------------------------------------------------------------

/- The statement of loose terms in the default graph. -/
def statement
    (subject predicate object : Option Term) : Except Fault Quad :=
  Quad.make subject predicate object none

/- The statements that link the nodes of a collection. -/
def links :
    List (BlankNode × Option Term) → Except Fault (List Quad)
  | [] => .ok []
  | (node, member) :: rest => do
      let following : Term :=
        match rest with
        | [] => .iri Rdf.nil
        | (next, _) :: _ => .blank next
      let first ←
        statement (some (.blank node)) (some (.iri Rdf.first)) member
      let link ←
        statement (some (.blank node)) (some (.iri Rdf.rest))
          (some following)
      let more ← links rest
      return first :: link :: more

/-
  The statements of a collection: one that relates the
  subject to its first node, and those that link the nodes.
-/
def collection
    (subject predicate : Option Term)
    (nodes : List BlankNode)
    (members : List (Option Term)) : Except Fault (List Quad) := do
  let head ← statement subject predicate (nodes.head?.map Term.blank)
  let more ← links (nodes.zip members)
  return head :: more

/-
  The statements of one list, and the supply after the nodes
  it needed. An empty list is the empty collection.
-/
def written
    (collects : Bool)
    (subject predicate : Option Term)
    (members : List (Option Term))
    (supply : NodeSupply) : Except Fault (List Quad) × NodeSupply :=
  if members.isEmpty then
    ((statement subject predicate (some (.iri Rdf.nil))).map ([·]),
      supply)
  else if collects then
    let made := supply.freshMany members.length
    (collection subject predicate made.1 members, made.2)
  else
    (members.mapM (fun member => statement subject predicate member),
      supply)

/- The statements of several lists, in order. -/
def writtenAll
    [AsTerm P]
    [AsTerm V]
    (collects : Bool)
    (subject : Option Term) :
    List (P × List V) → NodeSupply →
      Except Fault (List Quad) × NodeSupply
  | [], supply => (.ok [], supply)
  | (predicate, members) :: rest, supply =>
      match written collects subject (AsTerm.asTerm predicate)
          (members.map AsTerm.asTerm) supply with
      | (.error fault, after) => (.error fault, after)
      | (.ok quads, after) =>
          match writtenAll collects subject rest after with
          | (.error fault, final) => (.error fault, final)
          | (.ok more, final) => (.ok (quads ++ more), final)

/-
  Flush a mapping: it is marked as flushed, and the lists it
  owns are written with a subject. A second flush writes
  nothing.
-/
def flush
    [AsTerm P]
    [AsTerm V]
    (f : ListForest P V)
    (id : Nat)
    (subject : Option Term)
    (supply : NodeSupply) :
    Except Fault (List Quad) × ListForest P V × NodeSupply :=
  let s := f.slot id
  if s.flushed then
    (.ok [], f, supply)
  else
    let marked := f.setSlot id { s with flushed := true }
    if s.lists.isEmpty then
      (.ok [], marked, supply)
    else if subject.isNone then
      (.error .listWithoutSubject, marked, supply)
    else
      let out := writtenAll s.collects subject s.lists supply
      (out.1, marked, out.2)

end ListForest
end LinkedMarkup
