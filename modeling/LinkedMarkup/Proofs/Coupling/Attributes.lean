import LinkedMarkup.Annotation.Evaluation.Roles
import LinkedMarkup.Proofs.Coupling.Resolution

/-
  This file proves that corresponding runs read the
  attributes of an element alike: what it puts in force, the
  nodes that it names, and the parts that these play.

  Key definitions include:
    * `Settings.Agree`
    * `Coupling.NamedMatch`
    * `Coupling.RolesMatch`

  Main declarations:
    * `Coupling.readScope_coupled`
    * `Coupling.readNamed_coupled`
    * `Coupling.roles_coupled`
-/

namespace LinkedMarkup

/- Settings that differ at most in how lists are written. -/
structure Settings.Agree
    (x x' : Settings) : Prop where
  media : x.media = x'.media
  statesVocabulary :
    x.options.statesVocabulary = x'.options.statesVocabulary

namespace Settings

theorem Agree.refl
    (x : Settings) :
    Agree x x :=
  ⟨rfl, rfl⟩

theorem Agree.isHtml
    {x x' : Settings}
    (h : Agree x x') :
    x.isHtml = x'.isHtml := by
  unfold Settings.isHtml
  rw [h.media]

/- Such settings find the same relations and the same content. -/
theorem Agree.relationTokens_eq
    {x x' : Settings}
    (h : Agree x x')
    (attributes : Entries) :
    Evaluation.relationTokens x' attributes =
      Evaluation.relationTokens x attributes := by
  funext key
  unfold Evaluation.relationTokens
  rw [h.isHtml]

theorem Agree.explicitContent_eq
    {x x' : Settings}
    (h : Agree x x')
    (attributes : Entries) :
    Evaluation.explicitContent x' attributes =
      Evaluation.explicitContent x attributes := by
  unfold Evaluation.explicitContent
  rw [h.isHtml]

end Settings

namespace Coupling

open Evaluation

variable {C : Coupling} {W : C.World}
variable {settings settings' : Settings}
variable {parent parent' scope scope' : Scope}

------------------------------------------------------------
-- What is in force
------------------------------------------------------------

theorem stateVocabulary_coupled
    (hC : C.Sound)
    (base vocab : String) :
    C.Coupled W (stateVocabulary base vocab)
      (stateVocabulary base vocab) C.Any := by
  unfold stateVocabulary
  have hDocument :
      C.Coupled W (Work.ofOutcome (Iri.withoutFragment base))
        (Work.ofOutcome (Iri.withoutFragment base)) C.Same :=
    coupled_ofOutcome hC
      (fun fault hFault =>
        hC.value fault (Iri.kind_of_withoutFragment_error hFault))
  apply hDocument.bind hC
  rintro V hV document _ rfl
  refine (node_coupled hC document).bind hC ?_
  rintro U hU subject _ rfl
  refine (node_coupled hC vocab).bind hC ?_
  rintro T hT object _ rfl
  split
  · exact state_coupled hC _ (.some (.iri _)) (.some (.iri _))
      (.inr ⟨rfl, rfl⟩)
  · exact coupled_pure hC trivial

theorem stateUse_coupled
    (hC : C.Sound)
    (hSettings : settings.Agree settings')
    (base vocab : String) :
    C.Coupled W (stateUse settings base vocab)
      (stateUse settings' base vocab) C.Any := by
  unfold stateUse
  rw [← hSettings.statesVocabulary]
  split
  · exact stateVocabulary_coupled hC base vocab
  · exact coupled_pure hC trivial

theorem readBase_eq
    (hSettings : settings.Agree settings')
    (hParent : C.ScopesMatch W parent parent')
    (attributes : Entries) :
    readBase settings' parent' attributes =
      readBase settings parent attributes := by
  unfold readBase
  rw [hSettings.isHtml, hParent.base]

/- The base of an element only fails to resolve as an address. -/
theorem kind_of_readBase_error
    {attributes : Entries}
    {fault : Fault}
    (h : readBase settings parent attributes = .error fault) :
    fault.kind = .value := by
  unfold readBase at h
  split at h
  · split at h
    · cases h
    · exact Iri.kind_of_resolve_error h
  · cases h

theorem readVocab_coupled
    (hC : C.Sound)
    (hSettings : settings.Agree settings')
    (hParent : C.ScopesMatch W parent parent')
    (base : String)
    (attributes : Entries) :
    C.Coupled W (readVocab settings parent base attributes)
      (readVocab settings' parent' base attributes) C.Same := by
  unfold readVocab
  split
  · exact coupled_pure hC hParent.vocab
  · rename_i value _
    generalize Text.trim value = trimmed
    dsimp only
    split
    · exact coupled_pure hC rfl
    · refine (resolve_coupled hC base trimmed).bind hC ?_
      rintro V hV vocab _ rfl
      refine (stateUse_coupled hC hSettings base vocab).bind hC ?_
      intro U hU _ _ _
      exact coupled_pure hC rfl

theorem readScope_coupled
    (hC : C.Sound)
    (hSettings : settings.Agree settings')
    (hParent : C.ScopesMatch W parent parent')
    (attributes : Entries) :
    C.Coupled W (readScope settings parent attributes)
      (readScope settings' parent' attributes) C.ScopesMatch := by
  unfold readScope
  rw [readBase_eq hSettings hParent]
  have hBase :
      C.Coupled W
        (Work.ofOutcome (readBase settings parent attributes))
        (Work.ofOutcome (readBase settings parent attributes))
        C.Same :=
    coupled_ofOutcome hC
      (fun fault hFault =>
        hC.value fault (kind_of_readBase_error hFault))
  apply hBase.bind hC
  rintro V hV base _ rfl
  have hParent := hParent.mono hC hV
  refine (readVocab_coupled hC hSettings hParent base _).bind hC ?_
  rintro U hU vocab _ rfl
  have hParent := hParent.mono hC hU
  have hLanguage :
      readLanguage parent attributes =
        readLanguage parent' attributes := by
    unfold readLanguage
    rw [hParent.language]
  exact coupled_pure hC { hParent with
    base := rfl
    vocab := rfl
    language := hLanguage
    prefixes := by rw [hParent.prefixes] }

------------------------------------------------------------
-- Named nodes
------------------------------------------------------------

/- Nodes that attributes name, in both runs. -/
structure NamedMatch
    (C : Coupling)
    (W : C.World)
    (n n' : Named) : Prop where
  about : C.Optional W n.about n'.about
  resource : C.Optional W n.resource n'.resource
  href : C.Optional W n.href n'.href
  src : C.Optional W n.src n'.src

theorem NamedMatch.mono
    (hC : C.Sound)
    {V : C.World}
    (hW : C.grows V W)
    {n n' : Named}
    (h : C.NamedMatch V n n') :
    C.NamedMatch W n n' where
  about := h.about.mono hC hW
  resource := h.resource.mono hC hW
  href := h.href.mono hC hW
  src := h.src.mono hC hW

theorem NamedMatch.target
    {n n' : Named}
    (h : C.NamedMatch W n n') :
    C.Optional W n.target n'.target :=
  (h.resource.or h.href).or h.src

theorem namedResource_coupled
    (hC : C.Sound)
    (hScope : C.ScopesMatch W scope scope')
    (attributes : Entries)
    (key : String) :
    C.Coupled W (namedResource scope attributes key)
      (namedResource scope' attributes key) C.Optional := by
  unfold namedResource
  split
  · exact coupled_pure hC .none
  · exact resource_coupled hC hScope _

theorem namedIri_coupled
    (hC : C.Sound)
    (hScope : C.ScopesMatch W scope scope')
    (attributes : Entries)
    (key : String) :
    C.Coupled W (namedIri scope attributes key)
      (namedIri scope' attributes key) C.Optional := by
  unfold namedIri
  split
  · exact coupled_pure hC .none
  · refine (iri_coupled hC hScope _).bind hC ?_
    rintro V hV found _ rfl
    cases found with
    | none => exact coupled_pure hC .none
    | some i => exact coupled_pure hC (.some (.iri i))

theorem readAbout_coupled
    (hC : C.Sound)
    (hSettings : settings.Agree settings')
    (hParent : C.ScopesMatch W parent parent')
    (hScope : C.ScopesMatch W scope scope')
    (isRoot : Bool)
    (name : String)
    (attributes : Entries) :
    C.Coupled W
      (readAbout settings parent scope isRoot name attributes)
      (readAbout settings' parent' scope' isRoot name attributes)
      C.Optional := by
  unfold readAbout
  refine (namedResource_coupled hC hScope attributes _).bind hC ?_
  intro V hV given given' hGiven
  cases hGiven with
  | some hSome => exact coupled_pure hC (.some hSome)
  | none =>
      dsimp only
      rw [← hSettings.isHtml]
      split
      · exact resource_coupled hC (hScope.mono hC hV) ""
      · split
        · exact coupled_pure hC (hParent.mono hC hV).object
        · exact coupled_pure hC .none

theorem readNamed_coupled
    (hC : C.Sound)
    (hSettings : settings.Agree settings')
    (hParent : C.ScopesMatch W parent parent')
    (hScope : C.ScopesMatch W scope scope')
    (isRoot : Bool)
    (name : String)
    (attributes : Entries) :
    C.Coupled W
      (readNamed settings parent scope isRoot name attributes)
      (readNamed settings' parent' scope' isRoot name attributes)
      C.NamedMatch := by
  unfold readNamed
  have hAbout :=
    readAbout_coupled hC hSettings hParent hScope isRoot name attributes
  apply hAbout.bind hC
  intro V hV about about' hAbout
  have hScope := hScope.mono hC hV
  refine (namedResource_coupled hC hScope attributes _).bind hC ?_
  intro U hU resource resource' hResource
  have hScope := hScope.mono hC hU
  refine (namedIri_coupled hC hScope attributes _).bind hC ?_
  intro T hT href href' hHref
  have hScope := hScope.mono hC hT
  refine (namedIri_coupled hC hScope attributes _).bind hC ?_
  intro S hS src src' hSrc
  exact coupled_pure hC
    { about :=
        ((hAbout.mono hC hU).mono hC hT).mono hC hS
      resource := (hResource.mono hC hT).mono hC hS
      href := hHref.mono hC hS
      src := hSrc }

------------------------------------------------------------
-- Roles
------------------------------------------------------------

/- Parts that corresponding nodes play. -/
structure RolesMatch
    (C : Coupling)
    (W : C.World)
    (r r' : Roles) : Prop where
  subject : C.Optional W r.subject r'.subject
  object : C.Optional W r.object r'.object
  typed : C.Optional W r.typed r'.typed
  skips : r.skips = r'.skips

theorem RolesMatch.mono
    (hC : C.Sound)
    {V : C.World}
    (hW : C.grows V W)
    {r r' : Roles}
    (h : C.RolesMatch V r r') :
    C.RolesMatch W r r' where
  subject := h.subject.mono hC hW
  object := h.object.mono hC hW
  typed := h.typed.mono hC hW
  skips := h.skips

theorem freshSubject_coupled
    (hC : C.Sound) :
    C.Coupled W freshSubject freshSubject C.SubjectsMatch := by
  unfold freshSubject
  refine (hC.fresh W).bind hC ?_
  intro V hV b b' hNode
  exact coupled_pure hC (.blank hNode)

theorem orFresh_coupled
    (hC : C.Sound)
    {node node' : Option Subject}
    (hNode : C.Optional W node node') :
    C.Coupled W (orFresh node) (orFresh node') C.SubjectsMatch := by
  unfold orFresh
  cases hNode with
  | some hSome => exact coupled_pure hC hSome
  | none => exact freshSubject_coupled hC

variable {named named' : Named}

theorem propertyRoles_coupled
    (hC : C.Sound)
    (hParent : C.ScopesMatch W parent parent')
    (hNamed : C.NamedMatch W named named')
    (isTyped : Bool) :
    C.Coupled W (propertyRoles parent named isTyped)
      (propertyRoles parent' named' isTyped) C.RolesMatch := by
  unfold propertyRoles
  have hSubject := Optional.or hNamed.about hParent.object
  dsimp only
  split
  · refine (orFresh_coupled hC (hNamed.about.or hNamed.target)).bind
      hC ?_
    intro V hV typed typed' hTyped
    exact coupled_pure hC
      ⟨hSubject.mono hC hV, .some hTyped, .some hTyped, rfl⟩
  · exact coupled_pure hC ⟨hSubject, .none, .none, rfl⟩

theorem plainRoles_coupled
    (hC : C.Sound)
    (hParent : C.ScopesMatch W parent parent')
    (hNamed : C.NamedMatch W named named')
    (isTyped hasProperty : Bool) :
    C.Coupled W (plainRoles parent named isTyped hasProperty)
      (plainRoles parent' named' isTyped hasProperty)
      C.RolesMatch := by
  unfold plainRoles
  have hChosen := Optional.or hNamed.about hNamed.target
  generalize named.about.or named.target = chosen at hChosen ⊢
  generalize named'.about.or named'.target = chosen' at hChosen ⊢
  cases hChosen with
  | some hSome =>
      refine coupled_pure hC ⟨.some hSome, .none, ?_, rfl⟩
      cases isTyped with
      | true => exact .some hSome
      | false => exact .none
  | none =>
      dsimp only
      split
      · refine (freshSubject_coupled hC).bind hC ?_
        intro V hV s s' hFresh
        exact coupled_pure hC ⟨.some hFresh, .none, .some hFresh, rfl⟩
      · have hObject : C.Optional W parent.object parent'.object :=
          hParent.object
        rw [← hObject.isSome_eq]
        split
        · exact coupled_pure hC ⟨hObject, .none, .none, rfl⟩
        · exact coupled_pure hC ⟨.none, .none, .none, rfl⟩

theorem relationObject_coupled
    (hC : C.Sound)
    (hNamed : C.NamedMatch W named named')
    (isTyped : Bool) :
    C.Coupled W (relationObject named isTyped)
      (relationObject named' isTyped) C.Optional := by
  unfold relationObject
  rw [← hNamed.about.isNone_eq]
  have hTarget := hNamed.target
  generalize named.target = target at hTarget ⊢
  generalize named'.target = target' at hTarget ⊢
  cases hTarget with
  | some hSome => exact coupled_pure hC (.some hSome)
  | none =>
      dsimp only
      split
      · refine (freshSubject_coupled hC).bind hC ?_
        intro V hV s s' hFresh
        exact coupled_pure hC (.some hFresh)
      · exact coupled_pure hC .none

theorem relationRoles_coupled
    (hC : C.Sound)
    (hParent : C.ScopesMatch W parent parent')
    (hNamed : C.NamedMatch W named named')
    (isTyped : Bool) :
    C.Coupled W (relationRoles parent named isTyped)
      (relationRoles parent' named' isTyped) C.RolesMatch := by
  unfold relationRoles
  refine (relationObject_coupled hC hNamed isTyped).bind hC ?_
  intro V hV object object' hObject
  have hNamed := hNamed.mono hC hV
  have hParent := hParent.mono hC hV
  refine coupled_pure hC
    ⟨Optional.or hNamed.about hParent.object, hObject, ?_, rfl⟩
  cases isTyped with
  | true => exact Optional.or hNamed.about hObject
  | false => exact .none

theorem roles_coupled
    (hC : C.Sound)
    (hParent : C.ScopesMatch W parent parent')
    (hNamed : C.NamedMatch W named named')
    (hasRelations hasProperty isTyped isBare : Bool) :
    C.Coupled W
      (roles parent named hasRelations hasProperty isTyped isBare)
      (roles parent' named' hasRelations hasProperty isTyped isBare)
      C.RolesMatch := by
  unfold roles
  split
  · exact relationRoles_coupled hC hParent hNamed isTyped
  · split
    · exact propertyRoles_coupled hC hParent hNamed isTyped
    · exact plainRoles_coupled hC hParent hNamed isTyped hasProperty

end Coupling
end LinkedMarkup
