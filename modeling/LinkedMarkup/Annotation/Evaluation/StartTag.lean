import LinkedMarkup.Annotation.Evaluation.Property

/-
  This file defines how a start tag is read in the scope of
  the element around it: it states what is known by then, and
  opens an element with a scope of its own.

  Key definitions include:
    * `Evaluation.stateTypes`
    * `Evaluation.listFor`
    * `Evaluation.stateRelations`
    * `Evaluation.awaitRelations`
    * `Evaluation.relate`
    * `Evaluation.passedObject`
    * `Evaluation.completeRelation`
    * `Evaluation.completeRelations`
    * `Evaluation.readProperty`
    * `Evaluation.enclose`
    * `Evaluation.openElement`
-/

namespace LinkedMarkup
namespace Evaluation

/- State the types of a node. -/
def stateTypes
    (scope : Scope)
    (attributes : Entries)
    (typed : Option Subject) : Work Unit :=
  match typed with
  | none => return ()
  | some node => do
      let types ←
        Resolution.terms scope ((attributes.get? "typeof").getD "")
      Work.forEach
        (fun type => Work.state (some node) Rdf.type (some (.iri type)))
        types

/-
  The list mapping of an element: its own if it has another
  subject than the element around it, otherwise chained.
-/
def listFor
    (settings : Settings)
    (parent : Scope)
    (subject : Option Subject) : Work Nat :=
  if subject.isSome && subject != parent.object then
    Work.rootList (settings.options.listStyle == .collection)
  else
    Work.childList parent.list

/-
  State the relations of an element with an object, in both
  directions; forward ones may go to lists.
-/
def stateRelations
    (subject : Option Subject)
    (object : Subject)
    (list : Nat)
    (inList : Bool)
    (rel rev : List Iri) : Work Unit := do
  Work.forEach (stateOrList subject list inList object.toObject) rel
  Work.forEach
    (fun predicate =>
      Work.state (some object) predicate (subject.map Subject.toObject))
    rev

/- Make sure that relations that go to lists have them. -/
def ensureLists
    (list : Nat)
    (inList : Bool)
    (rel : List Iri) : Work Unit :=
  if inList then
    Work.forEach (Work.ensureList list) rel
  else
    return ()

/- The relations that wait for an object further inside. -/
def awaitRelations
    (list : Nat)
    (inList : Bool)
    (rel rev : List Iri) : Work (List Incomplete) := do
  ensureLists list inList rel
  let forward := rel.map (fun p =>
    if inList then Incomplete.listed p list else .forward p)
  return forward ++ rev.map Incomplete.reverse

/-
  State the relations of an element that has an object, or
  give those that wait for one.
-/
def relate
    (parts : Roles)
    (list : Nat)
    (inList : Bool)
    (rel rev : List Iri) : Work (List Incomplete) :=
  match parts.object with
  | some object => do
      stateRelations parts.subject object list inList rel rev
      return []
  | none => awaitRelations list inList rel rev

/-
  The object that an element hands on: its own, or a new one
  if relations wait for it.
-/
def passedObject
    (parts : Roles)
    (rel rev : List Iri) : Work (Option Subject) :=
  if parts.object.isNone && !(rel.isEmpty && rev.isEmpty) then do
    let s ← freshSubject
    return some s
  else
    return parts.object

/- Complete one relation that waits for a node. -/
def completeRelation
    (parent : Scope)
    (node : Subject)
    (incomplete : Incomplete) : Work Unit :=
  match incomplete with
  | .listed predicate list =>
      Work.appendToList list predicate node.toObject
  | .forward predicate =>
      Work.state parent.subject predicate (some node.toObject)
  | .reverse predicate =>
      Work.state (some node) predicate
        (parent.subject.map Subject.toObject)

/- Complete the relations that wait, if there is a node. -/
def completeRelations
    (parent : Scope)
    (node : Option Subject) : Work Unit :=
  match node with
  | none => return ()
  | some s => Work.forEach (completeRelation parent s) parent.incomplete

/- Read the terms of optional tokens. -/
def relationTerms
    (scope : Scope)
    (tokens : Option (List String)) : Work (List Iri) :=
  Work.collect (Resolution.term scope) (tokens.getD [])

/-
  The property value of an element that is still to come; one
  that is known is stated.
-/
def readProperty
    (settings : Settings)
    (name : String)
    (attributes : Entries)
    (scope : Scope)
    (named : Named)
    (roles : Roles)
    (list : Nat)
    (inList hasRelations : Bool) : Work (Option Pending) :=
  match attributes.get? "property", roles.subject with
  | some value, some subject => do
      let predicates ← Resolution.terms scope value
      if predicates.isEmpty then
        return none
      else
        let pending : Pending :=
          { subject := subject
            predicates := predicates
            list := list
            inList := inList
            datatype := none
            language := scope.language
            keepsMarkup := false
            infersMoment := false
            text := "" }
        let found ← propertyValue settings name attributes scope named
          roles.typed hasRelations pending
        match found with
        | .error waiting => return some waiting
        | .ok object => do
            stateValue subject list inList object predicates
            return none
  | _, _ => return none

/- The scope inside an element that does not just pass one on. -/
def innerScope
    (parent scope : Scope)
    (parts : Roles)
    (object : Option Subject)
    (list : Nat)
    (incomplete : List Incomplete) : Scope :=
  { scope with
    subject := parts.subject.or parent.subject
    object := (object.or parts.subject).or parent.subject
    list := list
    incomplete := incomplete }

/-
  The element that a start tag opens, once the relations that
  waited around it are complete. One that only passes on what
  is around it leaves them waiting.
-/
def enclose
    (parent scope : Scope)
    (name : String)
    (parts : Roles)
    (object : Option Subject)
    (list : Nat)
    (incomplete : List Incomplete)
    (pending : Option Pending) : Work Element :=
  if parts.skips then
    return ⟨name, scope, parts.subject, list, pending⟩
  else do
    completeRelations parent parts.subject
    return ⟨name, innerScope parent scope parts object list incomplete,
      parts.subject, list, pending⟩

/- Read a start tag, inside the scope of the element around it. -/
def openElement
    (settings : Settings)
    (parent : Scope)
    (isRoot : Bool)
    (name : String)
    (attributes : Entries) : Work Element := do
  let scope ← readScope settings parent attributes
  let relTokens := relationTokens settings attributes "rel"
  let revTokens := relationTokens settings attributes "rev"
  let hasRelations := relTokens.isSome || revTokens.isSome
  let rel ← relationTerms scope relTokens
  let rev ← relationTerms scope revTokens
  let named ← readNamed settings parent scope isRoot name attributes
  let isBare :=
    (explicitContent settings attributes).1.isNone &&
      !attributes.has "datatype"
  let parts ← roles parent named hasRelations
    (attributes.has "property") (attributes.has "typeof") isBare
  stateTypes scope attributes parts.typed
  let list ← listFor settings parent parts.subject
  let inList := attributes.has "inlist"
  let incomplete ← relate parts list inList rel rev
  let object ← passedObject parts rel rev
  let pending ← readProperty settings name attributes scope named parts
    list inList hasRelations
  enclose parent scope name parts object list incomplete pending

end Evaluation
end LinkedMarkup
