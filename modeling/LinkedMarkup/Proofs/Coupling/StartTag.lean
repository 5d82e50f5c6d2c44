import LinkedMarkup.Annotation.Evaluation.StartTag
import LinkedMarkup.Proofs.Coupling.Property
import LinkedMarkup.Proofs.Evaluation.Attributes

/-
  This file proves that a start tag that is read in
  corresponding scopes opens corresponding elements, whatever
  coupling of the runs is chosen. No quad lacks an end if the
  scope is anchored; otherwise such a fault ends both runs.

  Key definitions include:
    * `Evaluation.Anchored`
    * `Evaluation.Adrift`
    * `Evaluation.readTag`
    * `Evaluation.buildElement`

  Main declarations:
    * `Evaluation.openElement_eq`
    * `Coupling.readTag_coupled`
    * `Coupling.buildElement_coupled`
    * `Coupling.openElement_coupled`
-/

namespace LinkedMarkup

/-
  A scope in which every element has a subject: there is a
  node around it, or in HTML the document itself for the root.
-/
structure Evaluation.Anchored
    (settings : Settings)
    (parent : Scope)
    (isRoot : Bool) : Prop where
  subject : parent.subject.isSome = true
  object :
    parent.object.isSome = true ∨
      (isRoot = true ∧ settings.isHtml = true ∧
        NamesDocument parent.base)

/-
  Relations with an object that lack a subject: forward ones
  that do not go to lists, or reverse ones.
-/
structure Evaluation.Adrift
    (parts : Roles)
    (inList : Bool)
    (rel rev : List Iri) : Prop where
  subject : parts.subject = none
  object : parts.object.isSome = true
  relation : rel ≠ [] ∧ inList = false ∨ rev ≠ []

theorem Evaluation.not_adrift_of_subject
    {parts : Roles}
    (h : parts.subject.isSome = true)
    (inList : Bool)
    (rel rev : List Iri) :
    ¬ Adrift parts inList rel rev := by
  intro hAdrift
  rw [hAdrift.subject] at h
  cases h

------------------------------------------------------------
-- The halves of a start tag
------------------------------------------------------------

namespace Evaluation

/- What is read of a start tag before its list mapping is made. -/
structure Reading where
  scope : Scope
  rel : List Iri
  rev : List Iri
  named : Named
  parts : Roles
  hasRelations : Bool

/- The first half of a start tag, which touches no list. -/
def readTag
    (settings : Settings)
    (parent : Scope)
    (isRoot : Bool)
    (name : String)
    (attributes : Entries) : Work Reading := do
  let scope ← readScope settings parent attributes
  let relTokens := relationTokens settings attributes "rel"
  let revTokens := relationTokens settings attributes "rev"
  let hasRelations := relTokens.isSome || revTokens.isSome
  let rel ← relationTerms scope relTokens
  let rev ← relationTerms scope revTokens
  let named ← readNamed settings parent scope isRoot name attributes
  let isBare :=
    (explicitContent settings attributes).1.isNone &&
      !attributes.has "datatype"
  let parts ← roles parent named hasRelations
    (attributes.has "property") (attributes.has "typeof") isBare
  stateTypes scope attributes parts.typed
  return ⟨scope, rel, rev, named, parts, hasRelations⟩

/- The second half, which makes a mapping and fills lists. -/
def buildElement
    (settings : Settings)
    (parent : Scope)
    (name : String)
    (attributes : Entries)
    (tag : Reading) : Work Element := do
  let list ← listFor settings parent tag.parts.subject
  let inList := attributes.has "inlist"
  let incomplete ← relate tag.parts list inList tag.rel tag.rev
  let object ← passedObject tag.parts tag.rel tag.rev
  let pending ← readProperty settings name attributes tag.scope
    tag.named tag.parts list inList tag.hasRelations
  enclose parent tag.scope name tag.parts object list incomplete
    pending

theorem openElement_eq
    (settings : Settings)
    (parent : Scope)
    (isRoot : Bool)
    (name : String)
    (attributes : Entries) :
    openElement settings parent isRoot name attributes =
      (readTag settings parent isRoot name attributes >>=
        buildElement settings parent name attributes) := by
  unfold openElement readTag buildElement
  simp only [bind_assoc, pure_bind]

end Evaluation

namespace Coupling

open Evaluation

variable {C : Coupling} {W : C.World}
variable {settings settings' : Settings}
variable {parent parent' scope scope' : Scope}
variable {parts parts' : Roles}

/- Parts of start tags that correspond. -/
structure ReadingsMatch
    (C : Coupling)
    (W : C.World)
    (tag tag' : Reading) : Prop where
  scope : C.ScopesMatch W tag.scope tag'.scope
  rel : tag.rel = tag'.rel
  rev : tag.rev = tag'.rev
  named : C.NamedMatch W tag.named tag'.named
  parts : C.RolesMatch W tag.parts tag'.parts
  hasRelations : tag.hasRelations = tag'.hasRelations

theorem ReadingsMatch.mono
    (hC : C.Sound)
    {V : C.World}
    (hW : C.grows V W)
    {tag tag' : Reading}
    (h : C.ReadingsMatch V tag tag') :
    C.ReadingsMatch W tag tag' where
  scope := h.scope.mono hC hW
  rel := h.rel
  rev := h.rev
  named := h.named.mono hC hW
  parts := h.parts.mono hC hW
  hasRelations := h.hasRelations

/- Lists of both styles that a caller may choose are made. -/
def MakesFor
    (C : Coupling)
    (settings settings' : Settings) : Prop :=
  C.Makes (settings.options.listStyle == .collection)
    (settings'.options.listStyle == .collection)

------------------------------------------------------------
-- Types and lists
------------------------------------------------------------

theorem stateTypes_coupled
    (hC : C.Sound)
    (hScope : C.ScopesMatch W scope scope')
    (attributes : Entries)
    {typed typed' : Option Subject}
    (hTyped : C.Optional W typed typed') :
    C.Coupled W (stateTypes scope attributes typed)
      (stateTypes scope' attributes typed') C.Any := by
  unfold stateTypes
  cases hTyped with
  | none => exact coupled_pure hC trivial
  | some hSome =>
      refine (terms_coupled hC hScope _).bind hC ?_
      rintro V hV types _ rfl
      apply Coupled.forEach_same hC
      intro U hU type _
      exact state_coupled hC _
        (.some ((hSome.mono hC hV).mono hC hU)) (.some (.iri type))
        (.inr ⟨rfl, rfl⟩)

/-
  Subjects are compared alike on both sides, so an element
  owns its lists on one side exactly when it does on the
  other.
-/
theorem listFor_coupled
    (hC : C.Sound)
    (hMakes : C.MakesFor settings settings')
    (hParent : C.ScopesMatch W parent parent')
    {subject subject' : Option Subject}
    (hSubject : C.Optional W subject subject') :
    C.Coupled W (listFor settings parent subject)
      (listFor settings' parent' subject') C.list := by
  apply coupled_of_session
  intro s s' hs
  have hSame :
      (subject.isSome && subject != parent.object) =
        (subject'.isSome && subject' != parent'.object) := by
    have hEq := hSubject.eq_iff hC hs hParent.object
    rw [← hSubject.isSome_eq, Bool.eq_iff_iff]
    simp [hEq]
  unfold listFor
  rw [← hSame]
  split
  · exact hMakes.root W
  · exact hMakes.child W _ _ hParent.list

------------------------------------------------------------
-- Relations
------------------------------------------------------------

theorem stateRelations_coupled
    (hC : C.Sound)
    (hFills : C.Fills)
    {subject subject' : Option Subject}
    {object object' : Subject}
    {list list' : Nat}
    (inList : Bool)
    (rel rev : List Iri)
    (hSubject : C.Optional W subject subject')
    (hObject : C.SubjectsMatch W object object')
    (hList : C.list W list list')
    (hEnds :
      C.AllowsGaps ∨ subject.isSome = true ∨
        ¬ (rel ≠ [] ∧ inList = false ∨ rev ≠ [])) :
    C.Coupled W
      (stateRelations subject object list inList rel rev)
      (stateRelations subject' object' list' inList rel rev)
      C.Any := by
  unfold stateRelations
  have hForward :
      C.Coupled W
        (Work.forEach
          (stateOrList subject list inList object.toObject) rel)
        (Work.forEach
          (stateOrList subject' list' inList object'.toObject) rel)
        C.Any := by
    apply Coupled.forEach_same hC
    intro V hV predicate hMem
    refine stateOrList_coupled hC hFills inList predicate
      (hSubject.mono hC hV) (hC.list_mono W V _ _ hV hList)
      (hObject.mono hC hV).toObject ?_
    refine hEnds.imp_right (Or.imp_right fun hNone => ?_)
    by_contra hNotInList
    exact hNone
      (.inl ⟨List.ne_nil_of_mem hMem, by simpa using hNotInList⟩)
  apply hForward.bind hC
  intro V hV _ _ _
  apply Coupled.forEach_same hC
  intro U hU predicate hMem
  have hSubject := (hSubject.mono hC hV).mono hC hU
  refine state_coupled hC predicate
    (.some ((hObject.mono hC hV).mono hC hU)) hSubject.toObject ?_
  rcases hEnds with hGaps | hSome | hNone
  · exact .inl hGaps
  · exact .inr ⟨rfl, by rw [Option.isSome_map, hSome]⟩
  · exact absurd (.inr (List.ne_nil_of_mem hMem)) hNone

theorem awaitRelations_coupled
    (hC : C.Sound)
    (hFills : C.Fills)
    {list list' : Nat}
    (inList : Bool)
    (rel rev : List Iri)
    (hList : C.list W list list') :
    C.Coupled W (awaitRelations list inList rel rev)
      (awaitRelations list' inList rel rev)
      (fun V => List.Forall₂ (C.IncompletesMatch V)) := by
  unfold awaitRelations
  have hEnsure :
      C.Coupled W (ensureLists list inList rel)
        (ensureLists list' inList rel) C.Any := by
    unfold ensureLists
    split
    · apply Coupled.forEach_same hC
      intro V hV predicate _
      exact hFills.ensure V _ _ predicate
        (hC.list_mono W V _ _ hV hList)
    · exact coupled_pure hC trivial
  apply hEnsure.bind hC
  intro V hV _ _ _
  have hList := hC.list_mono W V _ _ hV hList
  refine coupled_pure hC (List.rel_append ?_ ?_)
  · rw [List.forall₂_map_left_iff, List.forall₂_map_right_iff,
      List.forall₂_same]
    intro p _
    cases inList with
    | true => exact .listed p hList
    | false => exact .forward p
  · rw [List.forall₂_map_left_iff, List.forall₂_map_right_iff,
      List.forall₂_same]
    intro p _
    exact .reverse p

theorem relate_coupled
    (hC : C.Sound)
    (hFills : C.Fills)
    {list list' : Nat}
    (inList : Bool)
    (rel rev : List Iri)
    (hParts : C.RolesMatch W parts parts')
    (hList : C.list W list list')
    (hEnds : C.AllowsGaps ∨ ¬ Adrift parts inList rel rev) :
    C.Coupled W (relate parts list inList rel rev)
      (relate parts' list' inList rel rev)
      (fun V => List.Forall₂ (C.IncompletesMatch V)) := by
  have hStated :
      parts.object.isSome = true →
        C.AllowsGaps ∨ parts.subject.isSome = true ∨
          ¬ (rel ≠ [] ∧ inList = false ∨ rev ≠ []) := by
    intro hObject
    refine hEnds.imp_right fun hNot => ?_
    by_contra hBoth
    rw [not_or, not_not, Option.not_isSome_iff_eq_none] at hBoth
    exact hNot ⟨hBoth.1, hObject, hBoth.2⟩
  unfold relate
  have hObject := hParts.object
  generalize parts.object = object at hObject hStated ⊢
  generalize parts'.object = object' at hObject ⊢
  cases hObject with
  | none => exact awaitRelations_coupled hC hFills inList rel rev hList
  | some hSome =>
      refine (stateRelations_coupled hC hFills inList rel rev
        hParts.subject hSome hList (hStated rfl)).bind hC ?_
      intro V hV _ _ _
      exact coupled_pure hC .nil

theorem passedObject_coupled
    (hC : C.Sound)
    (hParts : C.RolesMatch W parts parts')
    (rel rev : List Iri) :
    C.Coupled W (passedObject parts rel rev)
      (passedObject parts' rel rev) C.Optional := by
  unfold passedObject
  rw [← hParts.object.isNone_eq]
  split
  · refine (freshSubject_coupled hC).bind hC ?_
    intro V hV s s' hFresh
    exact coupled_pure hC (.some hFresh)
  · exact coupled_pure hC hParts.object

theorem completeRelation_coupled
    (hC : C.Sound)
    (hFills : C.Fills)
    {node node' : Subject}
    {waiting waiting' : Incomplete}
    (hParent : C.ScopesMatch W parent parent')
    (hNode : C.SubjectsMatch W node node')
    (hWaiting : C.IncompletesMatch W waiting waiting')
    (hEnds : C.AllowsGaps ∨ parent.subject.isSome = true) :
    C.Coupled W (completeRelation parent node waiting)
      (completeRelation parent' node' waiting') C.Any := by
  have hSubject : C.Optional W parent.subject parent'.subject :=
    hParent.subject
  cases hWaiting with
  | listed p hList =>
      exact hFills.append W _ _ p _ _ hList hNode.toObject
  | forward p =>
      refine state_coupled hC p hSubject (.some hNode.toObject) ?_
      rcases hEnds with hGaps | hSome
      · exact .inl hGaps
      · exact .inr ⟨hSome, rfl⟩
  | reverse p =>
      refine state_coupled hC p (.some hNode) hSubject.toObject ?_
      rcases hEnds with hGaps | hSome
      · exact .inl hGaps
      · exact .inr ⟨rfl, by rw [Option.isSome_map, hSome]⟩

theorem completeRelations_coupled
    (hC : C.Sound)
    (hFills : C.Fills)
    {node node' : Option Subject}
    (hParent : C.ScopesMatch W parent parent')
    (hNode : C.Optional W node node')
    (hEnds : C.AllowsGaps ∨ parent.subject.isSome = true) :
    C.Coupled W (completeRelations parent node)
      (completeRelations parent' node') C.Any := by
  unfold completeRelations
  cases hNode with
  | none => exact coupled_pure hC trivial
  | some hSome =>
      refine Coupled.forEach (P := C.IncompletesMatch) hC ?_ ?_
        hParent.incomplete
      · exact fun _ _ _ _ hW hMatch => hMatch.mono hC hW
      · intro V hV waiting waiting' hWaiting
        exact completeRelation_coupled hC hFills
          (hParent.mono hC hV) (hSome.mono hC hV) hWaiting hEnds

theorem relationTerms_coupled
    (hC : C.Sound)
    (hScope : C.ScopesMatch W scope scope')
    (tokens : Option (List String)) :
    C.Coupled W (relationTerms scope tokens)
      (relationTerms scope' tokens) C.Same :=
  Coupled.collect hC
    (fun _ hV token => term_coupled hC (hScope.mono hC hV) token)

------------------------------------------------------------
-- Properties
------------------------------------------------------------

theorem readProperty_coupled
    (hC : C.Sound)
    (hFills : C.Fills)
    (hSettings : settings.Agree settings')
    (hScope : C.ScopesMatch W scope scope')
    {named named' : Named}
    (hNamed : C.NamedMatch W named named')
    (hParts : C.RolesMatch W parts parts')
    {list list' : Nat}
    (hList : C.list W list list')
    (name : String)
    (attributes : Entries)
    (inList hasRelations : Bool) :
    C.Coupled W
      (readProperty settings name attributes scope named parts list
        inList hasRelations)
      (readProperty settings' name attributes scope' named' parts'
        list' inList hasRelations)
      (fun V => Option.Rel (C.PendingsMatch V)) := by
  unfold readProperty
  have hSubject := hParts.subject
  generalize parts.subject = subject at hSubject ⊢
  generalize parts'.subject = subject' at hSubject ⊢
  cases attributes.get? "property" with
  | none => exact coupled_pure hC .none
  | some value =>
      cases hSubject with
      | none => exact coupled_pure hC .none
      | some hSome =>
          dsimp only
          refine (terms_coupled hC hScope value).bind hC ?_
          rintro V hV predicates _ rfl
          have hScope := hScope.mono hC hV
          have hSome := hSome.mono hC hV
          have hList := hC.list_mono W V _ _ hV hList
          split
          · exact coupled_pure hC .none
          · rw [← hScope.language]
            refine Coupled.bind hC
              (propertyValue_coupled hC hSettings hScope
                (hNamed.mono hC hV) (hParts.typed.mono hC hV) ?_
                name attributes hasRelations) ?_
            · exact ⟨hSome, rfl, hList, rfl, rfl, rfl, rfl, rfl, rfl⟩
            · intro U hU found found' hFound
              cases hFound with
              | waits hWaits => exact coupled_pure hC (.some hWaits)
              | known hKnown =>
                  refine (stateValue_coupled hC hFills inList
                    predicates (hSome.mono hC hU)
                    (hC.list_mono V U _ _ hU hList) hKnown).bind
                    hC ?_
                  intro T hT _ _ _
                  exact coupled_pure hC .none

------------------------------------------------------------
-- Start tags
------------------------------------------------------------

theorem enclose_coupled
    (hC : C.Sound)
    (hFills : C.Fills)
    (hParent : C.ScopesMatch W parent parent')
    (hScope : C.ScopesMatch W scope scope')
    (hParts : C.RolesMatch W parts parts')
    {object object' : Option Subject}
    (hObject : C.Optional W object object')
    {list list' : Nat}
    (hList : C.list W list list')
    {incomplete incomplete' : List Incomplete}
    (hIncomplete :
      List.Forall₂ (C.IncompletesMatch W) incomplete incomplete')
    {pending pending' : Option Pending}
    (hPending : Option.Rel (C.PendingsMatch W) pending pending')
    (name : String)
    (hEnds : C.AllowsGaps ∨ parent.subject.isSome = true) :
    C.Coupled W
      (enclose parent scope name parts object list incomplete pending)
      (enclose parent' scope' name parts' object' list' incomplete'
        pending')
      C.ElementsMatch := by
  unfold enclose
  rw [← hParts.skips]
  split
  · exact coupled_pure hC
      ⟨rfl, hScope, hParts.subject, hList, hPending⟩
  · refine (completeRelations_coupled hC hFills hParent
      hParts.subject hEnds).bind hC ?_
    intro V hV _ _ _
    have hParts := hParts.mono hC hV
    have hParent := hParent.mono hC hV
    have hInner :
        C.ScopesMatch V
          (innerScope parent scope parts object list incomplete)
          (innerScope parent' scope' parts' object' list'
            incomplete') :=
      { hScope.mono hC hV with
        subject := Optional.or hParts.subject hParent.subject
        object :=
          Optional.or
            (Optional.or (hObject.mono hC hV) hParts.subject)
            hParent.subject
        list := hC.list_mono W V _ _ hV hList
        incomplete :=
          hIncomplete.imp (fun _ _ hOne => hOne.mono hC hV) }
    exact coupled_pure hC
      ⟨rfl, hInner, hParts.subject, hC.list_mono W V _ _ hV hList,
        rel_mono (fun _ _ hOne => hOne.mono hC hV) hPending⟩

/-
  The nodes that are named at an anchored scope, with the
  object around it, leave no element without a subject.
-/
theorem readNamed_coupled_anchored
    (hC : C.Sound)
    (hSettings : settings.Agree settings')
    (hParent : C.ScopesMatch W parent parent')
    (hScope : C.ScopesMatch W scope scope')
    (hBase : settings.isHtml = true → scope.base = parent.base)
    (isRoot : Bool)
    (name : String)
    (attributes : Entries) :
    C.Coupled W
      (readNamed settings parent scope isRoot name attributes)
      (readNamed settings' parent' scope' isRoot name attributes)
      (fun V named named' =>
        C.NamedMatch V named named' ∧
          (Anchored settings parent isRoot →
            named.about.isSome = true ∨
              parent.object.isSome = true)) := by
  have hBoth :=
    readNamed_coupled hC hSettings hParent hScope isRoot name attributes
  by_cases hAnchored : Anchored settings parent isRoot
  · rcases hAnchored.object with hObject | ⟨rfl, hHtml, hNames⟩
    · exact hBoth.mono (fun _ _ _ h => ⟨h, fun _ => .inr hObject⟩)
    · rw [← hBase hHtml] at hNames
      have hAbout :=
        readNamed_yields_root hNames settings parent name attributes
      exact (hBoth.and_left hAbout).mono
        (fun _ _ _ h => ⟨h.1, fun _ => .inl h.2⟩)
  · exact hBoth.mono (fun _ _ _ h => ⟨h, fun h => absurd h hAnchored⟩)

/-
  The first half of start tags read in corresponding scopes.
  Where the scope is anchored, a subject is found.
-/
theorem readTag_coupled
    (hC : C.Sound)
    (hSettings : settings.Agree settings')
    (hParent : C.ScopesMatch W parent parent')
    (isRoot : Bool)
    (name : String)
    (attributes : Entries) :
    C.Coupled W
      (readTag settings parent isRoot name attributes)
      (readTag settings' parent' isRoot name attributes)
      (fun V tag tag' =>
        C.ReadingsMatch V tag tag' ∧
          (Anchored settings parent isRoot →
            tag.parts.subject.isSome = true)) := by
  unfold readTag
  rw [hSettings.relationTokens_eq attributes,
    hSettings.explicitContent_eq attributes]
  dsimp only
  generalize
    ((relationTokens settings attributes "rel").isSome ||
      (relationTokens settings attributes "rev").isSome) =
      hasRelations
  generalize
    ((explicitContent settings attributes).1.isNone &&
      !attributes.has "datatype") = isBare
  have hRead :
      C.Coupled W (readScope settings parent attributes)
        (readScope settings' parent' attributes)
        (fun V scope scope' =>
          C.ScopesMatch V scope scope' ∧
            (settings.isHtml = true → scope.base = parent.base)) := by
    refine (readScope_coupled hC hSettings hParent
      attributes).and_left ?_
    intro s scope t hRun hHtml
    exact readScope_base hHtml parent attributes s scope t hRun
  apply hRead.bind hC
  rintro V hV scope scope' ⟨hScope, hBase⟩
  have hParent := hParent.mono hC hV
  refine (relationTerms_coupled hC hScope _).bind hC ?_
  rintro V hV rel _ rfl
  have hParent := hParent.mono hC hV
  have hScope := hScope.mono hC hV
  refine (relationTerms_coupled hC hScope _).bind hC ?_
  rintro V hV rev _ rfl
  have hParent := hParent.mono hC hV
  have hScope := hScope.mono hC hV
  refine (readNamed_coupled_anchored hC hSettings hParent hScope hBase
    isRoot name attributes).bind hC ?_
  rintro V hV named named' ⟨hNamed, hAbout⟩
  have hParent := hParent.mono hC hV
  have hScope := hScope.mono hC hV
  refine ((roles_coupled hC hParent hNamed hasRelations _ _
    isBare).and_left (roles_yields parent named hasRelations _ _
    isBare)).bind hC ?_
  rintro V hV parts parts' ⟨hParts, hSettled⟩
  have hScope := hScope.mono hC hV
  have hNamed := hNamed.mono hC hV
  refine (stateTypes_coupled hC hScope attributes
    hParts.typed).bind hC ?_
  intro V hV _ _ _
  refine coupled_pure hC
    ⟨?_, fun hAnchored => hSettled.subject (hAbout hAnchored)⟩
  exact
    { scope := hScope.mono hC hV
      rel := rfl
      rev := rfl
      named := hNamed.mono hC hV
      parts := hParts.mono hC hV
      hasRelations := rfl }

/-
  Elements built from corresponding parts of start tags
  correspond, whatever lists they are given.
-/
theorem buildElement_coupled
    (hC : C.Sound)
    (hFills : C.Fills)
    (hSettings : settings.Agree settings')
    (hMakes : C.MakesFor settings settings')
    (hParent : C.ScopesMatch W parent parent')
    {tag tag' : Reading}
    (hReading : C.ReadingsMatch W tag tag')
    (name : String)
    (attributes : Entries)
    (hEnds :
      C.AllowsGaps ∨
        ¬ Adrift tag.parts (attributes.has "inlist") tag.rel tag.rev)
    (hAround : C.AllowsGaps ∨ parent.subject.isSome = true) :
    C.Coupled W
      (buildElement settings parent name attributes tag)
      (buildElement settings' parent' name attributes tag')
      C.ElementsMatch := by
  unfold buildElement
  rw [← hReading.rel, ← hReading.rev, ← hReading.hasRelations]
  dsimp only
  refine (listFor_coupled hC hMakes hParent
    hReading.parts.subject).bind hC ?_
  intro V hV list list' hList
  have hParent := hParent.mono hC hV
  have hReading := hReading.mono hC hV
  refine (relate_coupled hC hFills _ tag.rel tag.rev hReading.parts
    hList hEnds).bind hC ?_
  intro V hV incomplete incomplete' hIncomplete
  have hParent := hParent.mono hC hV
  have hReading := hReading.mono hC hV
  have hList := hC.list_mono _ V _ _ hV hList
  refine (passedObject_coupled hC hReading.parts tag.rel
    tag.rev).bind hC ?_
  intro V hV object object' hObject
  have hParent := hParent.mono hC hV
  have hReading := hReading.mono hC hV
  have hList := hC.list_mono _ V _ _ hV hList
  have hIncomplete :=
    hIncomplete.imp (fun _ _ hOne => IncompletesMatch.mono hC hV hOne)
  refine (readProperty_coupled hC hFills hSettings hReading.scope
    hReading.named hReading.parts hList name attributes _ _).bind hC ?_
  intro V hV pending pending' hPending
  have hReading := hReading.mono hC hV
  have hIncomplete :=
    hIncomplete.imp (fun _ _ hOne => IncompletesMatch.mono hC hV hOne)
  exact enclose_coupled hC hFills (hParent.mono hC hV)
    hReading.scope hReading.parts (hObject.mono hC hV)
    (hC.list_mono _ V _ _ hV hList) hIncomplete hPending name hAround

/-
  A start tag read in corresponding scopes opens elements
  that correspond, in a world that may have grown.
-/
theorem openElement_coupled
    (hC : C.Sound)
    (hFills : C.Fills)
    (hSettings : settings.Agree settings')
    (hMakes : C.MakesFor settings settings')
    (hParent : C.ScopesMatch W parent parent')
    (isRoot : Bool)
    (hEnds : C.AllowsGaps ∨ Anchored settings parent isRoot)
    (name : String)
    (attributes : Entries) :
    C.Coupled W
      (openElement settings parent isRoot name attributes)
      (openElement settings' parent' isRoot name attributes)
      C.ElementsMatch := by
  rw [openElement_eq, openElement_eq]
  refine (readTag_coupled hC hSettings hParent isRoot name
    attributes).bind hC ?_
  rintro V hV tag tag' ⟨hReading, hSubject⟩
  exact buildElement_coupled hC hFills hSettings hMakes
    (hParent.mono hC hV) hReading name attributes
    (hEnds.imp_right
      (fun hAnchored =>
        not_adrift_of_subject (hSubject hAnchored) _ _ _))
    (hEnds.imp_right (fun hAnchored => hAnchored.subject))

end Coupling
end LinkedMarkup
