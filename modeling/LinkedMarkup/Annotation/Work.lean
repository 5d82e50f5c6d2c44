import LinkedMarkup.Annotation.ListForest
import LinkedMarkup.Log

/-
  This file defines the work done on one document: steps that
  make blank nodes, fill lists, state quads and report lines,
  and that may fail, keeping what was done before.

  Key definitions include:
    * `Filing`
    * `Note`
    * `Session`
    * `Work`
    * `Work.fail`
    * `Work.state`
    * `Work.remark`
    * `Work.freshNode`
    * `Work.labelledNode`
    * `Work.appendToList`
    * `Work.flushLists`
-/

namespace LinkedMarkup

------------------------------------------------------------
-- Sessions
------------------------------------------------------------

/-
  A value that was put in a list: the mapping through which
  it came, the predicate of the list, and the value.
-/
structure Filing where
  list : Nat
  predicate : Iri
  value : Object
  deriving DecidableEq, Repr

/- Something that work leaves behind, in order. -/
inductive Note where
  | quad (statement : Quad)
  | line (report : LogLine)
  | filed (filing : Filing)
  deriving DecidableEq, Repr

namespace Note

/- The quads among notes. -/
def quads
    (notes : List Note) : List Quad :=
  notes.filterMap (fun n =>
    match n with
    | quad q => some q
    | _ => none)

/- The reports among notes. -/
def lines
    (notes : List Note) : List LogLine :=
  notes.filterMap (fun n =>
    match n with
    | line l => some l
    | _ => none)

/- The values put in lists among notes. -/
def filings
    (notes : List Note) : List Filing :=
  notes.filterMap (fun n =>
    match n with
    | filed f => some f
    | _ => none)

end Note

/- The state of the work on one document. -/
structure Session where
  supply : NodeSupply
  lists : ListForest Iri Object
  notes : Array Note
  deriving DecidableEq

namespace Session

/- A session in which nothing has been done. -/
def start : Session :=
  ⟨.empty, .empty, #[]⟩

end Session

------------------------------------------------------------
-- Work
------------------------------------------------------------

/- A step that gives a value or fails, changing the session. -/
def Work (α : Type) : Type :=
  Session → Except Fault α × Session

namespace Work

/- Give a value and change nothing. -/
def done
    {α : Type}
    (a : α) : Work α :=
  fun s => (.ok a, s)

/- Go on with the value of a step, unless it failed. -/
def andThen
    {α β : Type}
    (w : Work α)
    (next : α → Work β) : Work β :=
  fun s =>
    match w s with
    | (.ok a, t) => next a t
    | (.error fault, t) => (.error fault, t)

instance : Monad Work where
  pure := done
  bind := andThen

/- Fail for a cause. -/
def fail
    {α : Type}
    (fault : Fault) : Work α :=
  fun s => (.error fault, s)

/- Give the value of an outcome, or fail with its cause. -/
def ofOutcome
    {α : Type}
    (outcome : Except Fault α) : Work α :=
  fun s => (outcome, s)

------------------------------------------------------------
-- Steps
------------------------------------------------------------

/- Leave a note. -/
def note
    (n : Note) : Work Unit :=
  fun s => (.ok (), { s with notes := s.notes.push n })

/- Report a remark that is shown only on request. -/
def remark
    (text : String) : Work Unit :=
  note (.line ⟨.debug, text⟩)

/- Make a new blank node. -/
def freshNode : Work BlankNode :=
  fun s => (.ok s.supply.fresh.1, { s with supply := s.supply.fresh.2 })

/- The blank node that a label of the document stands for. -/
def labelledNode
    (label : String) : Work BlankNode :=
  fun s =>
    (.ok (s.supply.labelled label).1,
      { s with supply := (s.supply.labelled label).2 })

/-
  State a quad in the default graph. A missing subject or
  object is a fault.
-/
def state
    (subject : Option Subject)
    (predicate : Iri)
    (object : Option Object) : Work Unit :=
  match Quad.make (subject.map Subject.toTerm) (some (.iri predicate))
      (object.map Object.toTerm) none with
  | .ok q => note (.quad q)
  | .error fault => fail fault

/- State several quads. -/
def stateAll :
    List Quad → Work Unit
  | [] => done ()
  | q :: rest => andThen (note (.quad q)) (fun _ => stateAll rest)

/- Make a new list mapping that is its own owner. -/
def rootList
    (collects : Bool) : Work Nat :=
  fun s =>
    (.ok (s.lists.root collects).1,
      { s with lists := (s.lists.root collects).2 })

/- Make a new list mapping that is chained to another. -/
def childList
    (id : Nat) : Work Nat :=
  fun s =>
    (.ok (s.lists.child id).1,
      { s with lists := (s.lists.child id).2 })

/- Make sure that a predicate has a list. -/
def ensureList
    (id : Nat)
    (predicate : Iri) : Work Unit :=
  fun s =>
    match s.lists.ensure id predicate with
    | .error fault => (.error fault, s)
    | .ok (_, lists) => (.ok (), { s with lists := lists })

/- Add a member to a predicate's list. -/
def appendToList
    (id : Nat)
    (predicate : Iri)
    (value : Object) : Work Unit :=
  fun s =>
    match s.lists.append id predicate value with
    | .error fault => (.error fault, s)
    | .ok lists => note (.filed ⟨id, predicate, value⟩) { s with lists := lists }

/- Flush a list mapping and state what it writes. -/
def flushLists
    (id : Nat)
    (subject : Option Subject) : Work Unit :=
  fun s =>
    match s.lists.flush id (subject.map Subject.toTerm) s.supply with
    | (.error fault, lists, supply) =>
        (.error fault, { s with lists := lists, supply := supply })
    | (.ok quads, lists, supply) =>
        stateAll quads { s with lists := lists, supply := supply }

/- Do a step for each value, in order. -/
def forEach
    {α : Type}
    (step : α → Work Unit) :
    List α → Work Unit
  | [] => done ()
  | a :: rest => andThen (step a) (fun _ => forEach step rest)

/- The values that a step finds for others, in order. -/
def collect
    {α β : Type}
    (step : α → Work (Option β)) :
    List α → Work (List β)
  | [] => done []
  | a :: rest =>
      andThen (step a) (fun found =>
        andThen (collect step rest) (fun more =>
          done (found.toList ++ more)))

end Work
end LinkedMarkup
