import LinkedMarkup.Annotation.Evaluation
import LinkedMarkup.Proofs.Coupling.StartTag
import LinkedMarkup.Proofs.Evaluation.References
import LinkedMarkup.Proofs.Lists.Writing

/-
  This file proves which steps fail by breaking an invariant
  only, whatever state they are in: stating quads and filling
  lists, hence all that an element does once the nodes that
  its attributes name are known, and all that its end does.
  The values of properties and the roles of nodes are found
  without any fault.

  Key definitions include:
    * `Fault.IsInvariant`

  Main declarations:
    * `Work.flushLists_failsWith`
    * `Evaluation.propertyValue_succeeds`
    * `Evaluation.roles_succeeds`
    * `Evaluation.buildElement_failsWith`
    * `Evaluation.closeElement_failsWith`
-/

namespace LinkedMarkup

/- A fault of breaking an invariant of the library. -/
def Fault.IsInvariant
    (fault : Fault) : Prop :=
  fault.kind = .invariant

theorem Fault.IsInvariant.not_isValue
    {fault : Fault}
    (h : fault.IsInvariant) :
    ¬ fault.IsValue := by
  intro hValue
  have hKinds : Fault.Kind.invariant = .value := h.symm.trans hValue
  cases hKinds

------------------------------------------------------------
-- Steps that only break invariants
------------------------------------------------------------

namespace Work

/- Loose terms that are no quad break an invariant. -/
theorem isInvariant_of_make_error
    {subject predicate object : Option Term}
    {fault : Fault}
    (h : Quad.make subject predicate object none = .error fault) :
    fault.IsInvariant := by
  unfold Quad.make at h
  split at h
  · cases h
    rfl
  · split at h
    · cases h
      rfl
    · split at h
      · cases h
        rfl
      · cases h

theorem state_failsWith
    (subject : Option Subject)
    (predicate : Iri)
    (object : Option Object) :
    (state subject predicate object).FailsWith Fault.IsInvariant := by
  unfold state
  split
  · exact failsWith_note _
  · rename_i fault hMake
    exact failsWith_fail (isInvariant_of_make_error hMake)

theorem appendToList_failsWith
    (id : Nat)
    (predicate : Iri)
    (value : Object) :
    (appendToList id predicate value).FailsWith Fault.IsInvariant := by
  intro s fault t hRun
  unfold appendToList ListForest.append at hRun
  split at hRun
  · rename_i cause hAppend
    split at hAppend
    · cases hAppend
      cases hRun
      rfl
    · cases hAppend
  · cases hRun

theorem ensureList_failsWith
    (id : Nat)
    (predicate : Iri) :
    (ensureList id predicate).FailsWith Fault.IsInvariant := by
  intro s fault t hRun
  unfold ensureList ListForest.ensure at hRun
  split at hRun
  · rename_i cause hEnsure
    split at hEnsure
    · cases hEnsure
      cases hRun
      rfl
    · cases hEnsure
  · cases hRun

theorem flushLists_failsWith
    (id : Nat)
    (subject : Option Subject) :
    (flushLists id subject).FailsWith Fault.IsInvariant := by
  intro s fault t hRun
  cases hFlushed : s.lists.flushed id with
  | true =>
      have hSlot : (s.lists.slot id).flushed = true := hFlushed
      simp [flushLists, ListForest.flush, hSlot, stateAll, done] at hRun
  | false =>
      cases subject with
      | some x =>
          rw [flushLists_eq hFlushed x] at hRun
          cases hRun
      | none =>
          by_cases hLists : (s.lists.slot id).lists = []
          · rw [flushLists_of_lists_eq_nil hFlushed hLists] at hRun
            cases hRun
          · rw [flushLists_none hFlushed hLists] at hRun
            cases hRun
            rfl

theorem rootList_succeeds
    (collects : Bool) :
    (rootList collects).Succeeds := by
  intro s fault t hRun
  cases hRun

theorem childList_succeeds
    (id : Nat) :
    (childList id).Succeeds := by
  intro s fault t hRun
  cases hRun

theorem freshNode_succeeds :
    freshNode.Succeeds := by
  intro s fault t hRun
  cases hRun

end Work

namespace Evaluation

open Work Resolution

------------------------------------------------------------
-- Values of properties
------------------------------------------------------------

theorem plainLiteral_succeeds
    (value : String)
    (language : Option String) :
    (plainLiteral value language).Succeeds := by
  unfold plainLiteral
  split
  · exact failsWith_pure _
  · exact FailsWith.bind (failsWith_note _) (fun _ =>
      failsWith_ofOutcome (Coupling.make_none_none_ne_error value))

theorem typedLiteral_succeeds
    (value : String)
    (datatype : Iri) :
    (typedLiteral value datatype).Succeeds :=
  failsWith_ofOutcome (Coupling.make_datatype_ne_error value datatype)

theorem contentLiteral_succeeds
    (content : String)
    (mayInfer : Bool)
    (language : Option String) :
    (contentLiteral content mayInfer language).Succeeds := by
  unfold contentLiteral
  split
  · exact typedLiteral_succeeds content _
  · exact plainLiteral_succeeds content language

theorem readDatatype_succeeds
    (scope : Scope)
    (given : Option String) :
    (readDatatype scope given).Succeeds := by
  unfold readDatatype
  cases given with
  | none => exact failsWith_pure _
  | some value =>
      dsimp only
      split
      · exact failsWith_pure _
      · exact term_succeeds scope _

theorem stateOrList_failsWith
    (subject : Option Subject)
    (list : Nat)
    (inList : Bool)
    (value : Object)
    (predicate : Iri) :
    (stateOrList subject list inList value predicate).FailsWith
      Fault.IsInvariant := by
  unfold stateOrList
  split
  · exact appendToList_failsWith list predicate value
  · exact state_failsWith subject predicate (some value)

theorem stateValue_failsWith
    (subject : Subject)
    (list : Nat)
    (inList : Bool)
    (value : Object)
    (predicates : List Iri) :
    (stateValue subject list inList value predicates).FailsWith
      Fault.IsInvariant :=
  failsWith_forEach
    (stateOrList_failsWith (some subject) list inList value) predicates

/- The value of a property is found, or waits for content. -/
theorem propertyValue_succeeds
    (settings : Settings)
    (name : String)
    (attributes : Entries)
    (scope : Scope)
    (named : Named)
    (typed : Option Subject)
    (hasRelations : Bool)
    (pending : Pending) :
    (propertyValue settings name attributes scope named typed
      hasRelations pending).Succeeds := by
  unfold propertyValue
  refine FailsWith.bind (readDatatype_succeeds scope _) ?_
  intro datatype
  cases datatype with
  | some d =>
      dsimp only
      split
      · exact failsWith_pure _
      · split
        · exact failsWith_pure _
        · exact FailsWith.bind (typedLiteral_succeeds _ d)
            (fun _ => failsWith_pure _)
  | none =>
      dsimp only
      split
      · split
        · exact failsWith_pure _
        · exact FailsWith.bind (plainLiteral_succeeds _ _)
            (fun _ => failsWith_pure _)
      · split
        · exact FailsWith.bind (contentLiteral_succeeds _ _ _)
            (fun _ => failsWith_pure _)
        · split
          · exact failsWith_pure _
          · split
            · exact failsWith_pure _
            · exact failsWith_pure _

theorem readProperty_failsWith
    (settings : Settings)
    (name : String)
    (attributes : Entries)
    (scope : Scope)
    (named : Named)
    (parts : Roles)
    (list : Nat)
    (inList hasRelations : Bool) :
    (readProperty settings name attributes scope named parts list inList
      hasRelations).FailsWith Fault.IsInvariant := by
  unfold readProperty
  split
  · refine (terms_succeeds scope _).failsWith.bind ?_
    intro predicates
    dsimp only
    split
    · exact failsWith_pure _
    · have hValue :=
        propertyValue_succeeds settings name attributes scope named
          parts.typed hasRelations
      refine (hValue _).failsWith.bind ?_
      intro found
      cases found with
      | error waiting => exact failsWith_pure _
      | ok object =>
          exact FailsWith.bind (stateValue_failsWith _ list inList _ _)
            (fun _ => failsWith_pure _)
  · exact failsWith_pure _

------------------------------------------------------------
-- Roles and types
------------------------------------------------------------

theorem freshSubject_succeeds :
    freshSubject.Succeeds :=
  FailsWith.bind freshNode_succeeds (fun _ => failsWith_pure _)

theorem propertyRoles_succeeds
    (parent : Scope)
    (named : Named)
    (isTyped : Bool) :
    (propertyRoles parent named isTyped).Succeeds := by
  unfold propertyRoles orFresh
  dsimp only
  split
  · refine FailsWith.bind ?_ (fun _ => failsWith_pure _)
    split
    · exact failsWith_pure _
    · exact freshSubject_succeeds
  · exact failsWith_pure _

theorem plainRoles_succeeds
    (parent : Scope)
    (named : Named)
    (isTyped hasProperty : Bool) :
    (plainRoles parent named isTyped hasProperty).Succeeds := by
  unfold plainRoles
  split
  · exact failsWith_pure _
  · split
    · exact FailsWith.bind freshSubject_succeeds
        (fun _ => failsWith_pure _)
    · split
      · exact failsWith_pure _
      · exact failsWith_pure _

theorem relationRoles_succeeds
    (parent : Scope)
    (named : Named)
    (isTyped : Bool) :
    (relationRoles parent named isTyped).Succeeds := by
  unfold relationRoles relationObject
  refine FailsWith.bind ?_ (fun _ => failsWith_pure _)
  split
  · exact failsWith_pure _
  · split
    · exact FailsWith.bind freshSubject_succeeds
        (fun _ => failsWith_pure _)
    · exact failsWith_pure _

/- The roles of nodes are found, whatever is named. -/
theorem roles_succeeds
    (parent : Scope)
    (named : Named)
    (hasRelations hasProperty isTyped isBare : Bool) :
    (roles parent named hasRelations hasProperty isTyped
      isBare).Succeeds := by
  unfold roles
  split
  · exact relationRoles_succeeds parent named isTyped
  · split
    · exact propertyRoles_succeeds parent named isTyped
    · exact plainRoles_succeeds parent named isTyped hasProperty

theorem relationTerms_succeeds
    (scope : Scope)
    (tokens : Option (List String)) :
    (relationTerms scope tokens).Succeeds :=
  failsWith_collect (term_succeeds scope) _

theorem stateTypes_failsWith
    (scope : Scope)
    (attributes : Entries)
    (typed : Option Subject) :
    (stateTypes scope attributes typed).FailsWith
      Fault.IsInvariant := by
  unfold stateTypes
  cases typed with
  | none => exact failsWith_pure _
  | some node =>
      refine (terms_succeeds scope _).failsWith.bind ?_
      intro types
      exact failsWith_forEach
        (fun type => state_failsWith (some node) Rdf.type _) types

------------------------------------------------------------
-- Relations
------------------------------------------------------------

theorem listFor_succeeds
    (settings : Settings)
    (parent : Scope)
    (subject : Option Subject) :
    (listFor settings parent subject).Succeeds := by
  unfold listFor
  split
  · exact rootList_succeeds _
  · exact childList_succeeds _

theorem relate_failsWith
    (parts : Roles)
    (list : Nat)
    (inList : Bool)
    (rel rev : List Iri) :
    (relate parts list inList rel rev).FailsWith
      Fault.IsInvariant := by
  unfold relate
  cases parts.object with
  | some object =>
      refine FailsWith.bind ?_ (fun _ => failsWith_pure _)
      unfold stateRelations
      have hForward :=
        stateOrList_failsWith parts.subject list inList object.toObject
      exact (failsWith_forEach hForward rel).bind
        (fun _ => failsWith_forEach (fun p => state_failsWith _ p _) rev)
  | none =>
      unfold awaitRelations ensureLists
      refine FailsWith.bind ?_ (fun _ => failsWith_pure _)
      split
      · exact failsWith_forEach (ensureList_failsWith list) rel
      · exact failsWith_pure _

theorem passedObject_succeeds
    (parts : Roles)
    (rel rev : List Iri) :
    (passedObject parts rel rev).Succeeds := by
  unfold passedObject
  split
  · exact FailsWith.bind freshSubject_succeeds
      (fun _ => failsWith_pure _)
  · exact failsWith_pure _

theorem completeRelation_failsWith
    (parent : Scope)
    (node : Subject)
    (incomplete : Incomplete) :
    (completeRelation parent node incomplete).FailsWith
      Fault.IsInvariant := by
  cases incomplete with
  | listed predicate list => exact appendToList_failsWith list predicate _
  | forward predicate => exact state_failsWith _ predicate _
  | reverse predicate => exact state_failsWith _ predicate _

theorem enclose_failsWith
    (parent scope : Scope)
    (name : String)
    (parts : Roles)
    (object : Option Subject)
    (list : Nat)
    (incomplete : List Incomplete)
    (pending : Option Pending) :
    (enclose parent scope name parts object list incomplete
      pending).FailsWith Fault.IsInvariant := by
  unfold enclose completeRelations
  split
  · exact failsWith_pure _
  · refine FailsWith.bind ?_ (fun _ => failsWith_pure _)
    split
    · exact failsWith_pure _
    · exact failsWith_forEach (completeRelation_failsWith parent _) _

------------------------------------------------------------
-- Elements
------------------------------------------------------------

/- The second half of a start tag only breaks invariants. -/
theorem buildElement_failsWith
    (settings : Settings)
    (parent : Scope)
    (name : String)
    (attributes : Entries)
    (tag : Reading) :
    (buildElement settings parent name attributes tag).FailsWith
      Fault.IsInvariant := by
  unfold buildElement
  refine (listFor_succeeds settings parent _).failsWith.bind ?_
  intro list
  refine (relate_failsWith tag.parts list _ _ _).bind ?_
  intro incomplete
  refine (passedObject_succeeds tag.parts _ _).failsWith.bind ?_
  intro object
  refine (readProperty_failsWith settings name attributes tag.scope
    tag.named tag.parts list _ _).bind ?_
  intro pending
  exact enclose_failsWith parent tag.scope name tag.parts object list
    incomplete pending

/- What a start tag does once the nodes it names are known. -/
def settleElement
    (settings : Settings)
    (parent scope : Scope)
    (name : String)
    (attributes : Entries)
    (rel rev : List Iri)
    (named : Named) : Work Element := do
  let hasRelations :=
    (relationTokens settings attributes "rel").isSome ||
      (relationTokens settings attributes "rev").isSome
  let isBare :=
    (explicitContent settings attributes).1.isNone &&
      !attributes.has "datatype"
  let parts ← roles parent named hasRelations
    (attributes.has "property") (attributes.has "typeof") isBare
  stateTypes scope attributes parts.typed
  buildElement settings parent name attributes
    ⟨scope, rel, rev, named, parts, hasRelations⟩

theorem openElement_eq_settle
    (settings : Settings)
    (parent : Scope)
    (isRoot : Bool)
    (name : String)
    (attributes : Entries) :
    openElement settings parent isRoot name attributes = (do
      let scope ← readScope settings parent attributes
      let rel ←
        relationTerms scope (relationTokens settings attributes "rel")
      let rev ←
        relationTerms scope (relationTokens settings attributes "rev")
      let named ←
        readNamed settings parent scope isRoot name attributes
      settleElement settings parent scope name attributes rel rev
        named) := by
  rw [openElement_eq]
  unfold readTag settleElement
  simp only [bind_assoc, pure_bind]

theorem settleElement_failsWith
    (settings : Settings)
    (parent scope : Scope)
    (name : String)
    (attributes : Entries)
    (rel rev : List Iri)
    (named : Named) :
    (settleElement settings parent scope name attributes rel rev
      named).FailsWith Fault.IsInvariant := by
  unfold settleElement
  refine (roles_succeeds parent named _ _ _ _).failsWith.bind ?_
  intro parts
  refine (stateTypes_failsWith scope attributes parts.typed).bind ?_
  intro _
  exact buildElement_failsWith settings parent name attributes _

/- The end of an element only breaks invariants as well. -/
theorem closeElement_failsWith
    (e : Element) :
    (closeElement e).FailsWith Fault.IsInvariant := by
  unfold closeElement completeElement
  refine FailsWith.bind ?_ (fun _ => flushLists_failsWith _ _)
  cases e.pending with
  | none => exact failsWith_pure ()
  | some p =>
      unfold completePending capturedLiteral
      refine FailsWith.bind ?_
        (fun l => stateValue_failsWith p.subject p.list p.inList _ _)
      cases p.datatype with
      | some d => exact (typedLiteral_succeeds _ d).failsWith
      | none => exact (contentLiteral_succeeds _ _ _).failsWith

end Evaluation
end LinkedMarkup
