import LinkedMarkup.Proofs.Evaluation.Breaches

/-
  This file proves which start tags are refused for a value:
  those with a value of `about`, `resource`, `href` or `src`
  that has to be resolved and cannot be, beside those whose
  base or vocabulary cannot. Whatever else a start tag has is
  no cause.

  Key definitions include:
    * `Evaluation.Refuses`
    * `Evaluation.RefusesScope`
    * `Evaluation.RefusesTag`

  Main declarations:
    * `Evaluation.readNamed_failsExactly`
    * `Evaluation.readScope_failsExactly`
    * `Evaluation.openElement_error_iff`
-/

namespace LinkedMarkup
namespace Evaluation

open Work Resolution

------------------------------------------------------------
-- Refused values
------------------------------------------------------------

/- A value of an attribute for resources that is refused. -/
def RefusesResource
    (x : Environment)
    (attributes : Entries)
    (key : String) : Prop :=
  ∃ value,
    attributes.get? key = some value ∧ x.IsReference value ∧
      Iri.Unresolvable x.base (Text.trim value)

/- A value of an attribute for addresses that is refused. -/
def RefusesIri
    (x : Environment)
    (attributes : Entries)
    (key : String) : Prop :=
  ∃ value,
    attributes.get? key = some value ∧
      Iri.Unresolvable x.base (Text.trim value)

/-
  Attributes that are refused in the environment they declare:
  the value of one of four of them cannot be resolved, or the
  root is about nothing and its document has no address.
-/
inductive Refuses
    (x : Environment)
    (isRoot : Bool)
    (attributes : Entries) : Prop where
  | resource
      {key : String}
      (hKey : key = "about" ∨ key = "resource")
      (hRefuses : RefusesResource x attributes key) :
      Refuses x isRoot attributes
  | address
      {key : String}
      (hKey : key = "href" ∨ key = "src")
      (hRefuses : RefusesIri x attributes key) :
      Refuses x isRoot attributes
  | document
      (hRoot : isRoot = true)
      (hAbout :
        ∀ value, attributes.get? "about" = some value →
          ¬ x.NamesResource value)
      (hBase : Iri.Unresolvable x.base "") :
      Refuses x isRoot attributes

/-
  Attributes that declare what is refused: a base or a
  vocabulary that cannot be resolved, or a vocabulary that a
  document without an address is to state.
-/
inductive RefusesScope
    (settings : Settings)
    (outer : Environment)
    (attributes : Entries) : Prop where
  | base
      {value : String}
      (hMedia : settings.media = .xhtml)
      (hGiven : attributes.get? "xml:base" = some value)
      (hBase : Iri.Unresolvable outer.base (Text.trim value)) :
      RefusesScope settings outer attributes
  | vocabulary
      {base value : String}
      (hBase :
        outer.declaredBase settings.media attributes = .ok base)
      (hGiven : attributes.get? "vocab" = some value)
      (hNonBlank : Text.isAllBlank value = false)
      (hRefused :
        Iri.Unresolvable base (Text.trim value) ∨
          settings.options.statesVocabulary = true ∧
            Iri.Unresolvable base "") :
      RefusesScope settings outer attributes

/- A start tag that is refused: its scope, or a value in it. -/
inductive RefusesTag
    (settings : Settings)
    (outer : Environment)
    (isRoot : Bool)
    (attributes : Entries) : Prop where
  | scope
      (hRefuses : RefusesScope settings outer attributes) :
      RefusesTag settings outer isRoot attributes
  | value
      {x : Environment}
      (hDeclare : outer.declare settings.media attributes = .ok x)
      (hRefuses : Refuses x isRoot attributes) :
      RefusesTag settings outer isRoot attributes

/- Refused attributes, in the order in which they are read. -/
theorem refuses_iff
    {x : Environment}
    {isRoot : Bool}
    {attributes : Entries} :
    Refuses x isRoot attributes ↔
      (RefusesResource x attributes "about" ∨
          (isRoot = true ∧
            (∀ value, attributes.get? "about" = some value →
              ¬ x.NamesResource value) ∧
            Iri.Unresolvable x.base "")) ∨
        RefusesResource x attributes "resource" ∨
        RefusesIri x attributes "href" ∨
        RefusesIri x attributes "src" := by
  constructor
  · intro h
    cases h with
    | resource hKey hRefuses =>
        rcases hKey with rfl | rfl
        · exact .inl (.inl hRefuses)
        · exact .inr (.inl hRefuses)
    | address hKey hRefuses =>
        rcases hKey with rfl | rfl
        · exact .inr (.inr (.inl hRefuses))
        · exact .inr (.inr (.inr hRefuses))
    | document hRoot hAbout hBase =>
        exact .inl (.inr ⟨hRoot, hAbout, hBase⟩)
  · rintro ((hRefuses | ⟨hRoot, hAbout, hBase⟩) |
      hRefuses | hRefuses | hRefuses)
    · exact .resource (.inl rfl) hRefuses
    · exact .document hRoot hAbout hBase
    · exact .resource (.inr rfl) hRefuses
    · exact .address (.inl rfl) hRefuses
    · exact .address (.inr rfl) hRefuses

/- Where the scope is not refused only the values in it count. -/
theorem refusesTag_iff_of_declare
    {settings : Settings}
    {outer x : Environment}
    {isRoot : Bool}
    {attributes : Entries}
    (hScope : ¬ RefusesScope settings outer attributes)
    (hDeclare : outer.declare settings.media attributes = .ok x) :
    RefusesTag settings outer isRoot attributes ↔
      Refuses x isRoot attributes := by
  constructor
  · intro h
    cases h with
    | scope hRefuses => exact absurd hRefuses hScope
    | value hOther hRefuses =>
        rw [hDeclare] at hOther
        cases hOther
        exact hRefuses
  · exact .value hDeclare

------------------------------------------------------------
-- Named nodes
------------------------------------------------------------

theorem namedResource_failsExactly
    (scope : Scope)
    (attributes : Entries)
    (key : String) :
    (namedResource scope attributes key).FailsExactly Fault.IsValue
      (RefusesResource scope.environment attributes key) := by
  unfold namedResource RefusesResource
  cases hGiven : attributes.get? key with
  | none => exact Succeeds.failsExactly (failsWith_pure _) (by simp)
  | some value =>
      exact (resource_failsExactly scope value).congr (by simp)

theorem namedIri_failsExactly
    (scope : Scope)
    (attributes : Entries)
    (key : String) :
    (namedIri scope attributes key).FailsExactly Fault.IsValue
      (RefusesIri scope.environment attributes key) := by
  unfold namedIri RefusesIri
  cases hGiven : attributes.get? key with
  | none => exact Succeeds.failsExactly (failsWith_pure _) (by simp)
  | some value =>
      have hRead :=
        (iri_failsExactly scope value).bind_succeeds
          (fun found => failsWith_pure (found.map Subject.iri))
      exact hRead.congr (by simp)

theorem namedResource_finds
    (scope : Scope)
    (attributes : Entries)
    (key : String) :
    Finds
      (∃ value,
        attributes.get? key = some value ∧
          scope.environment.NamesResource value)
      (namedResource scope attributes key) := by
  unfold namedResource
  cases hGiven : attributes.get? key with
  | none => exact yields_pure (by simp)
  | some value => exact (resource_finds scope value).congr (by simp)

/- Only the root of a document has its address read. -/
theorem readAbout_failsExactly
    (settings : Settings)
    (parent scope : Scope)
    (isRoot : Bool)
    (name : String)
    (attributes : Entries) :
    (readAbout settings parent scope isRoot name
      attributes).FailsExactly Fault.IsValue
        (RefusesResource scope.environment attributes "about" ∨
          (isRoot = true ∧
            (∀ value, attributes.get? "about" = some value →
              ¬ scope.environment.NamesResource value) ∧
            Iri.Unresolvable scope.environment.base "")) := by
  unfold readAbout
  refine (namedResource_failsExactly scope attributes "about").bind
    (namedResource_finds scope attributes "about") ?_
  intro given hFinds
  cases given with
  | some node =>
      refine Succeeds.failsExactly (failsWith_pure _) ?_
      rintro ⟨_, hAbout, _⟩
      rcases hFinds.mp rfl with ⟨value, hGiven, hNames⟩
      exact hAbout value hGiven hNames
  | none =>
      have hAbout :
          ∀ value, attributes.get? "about" = some value →
            ¬ scope.environment.NamesResource value := by
        intro value hGiven hNames
        have hSome := hFinds.mpr ⟨value, hGiven, hNames⟩
        cases hSome
      have hTrim : Text.trim "" = "" := by decide
      cases isRoot with
      | true =>
          refine (resource_failsExactly scope "").congr ?_
          rw [hTrim]
          simp only [Environment.isReference_empty, true_and]
          exact (and_iff_right hAbout).symm
      | false =>
          dsimp only
          rw [if_neg Bool.false_ne_true]
          split
          · exact Succeeds.failsExactly (failsWith_pure _) (by simp)
          · exact Succeeds.failsExactly (failsWith_pure _) (by simp)

/- Naming nodes fails exactly for attributes that are refused. -/
theorem readNamed_failsExactly
    (settings : Settings)
    (parent scope : Scope)
    (isRoot : Bool)
    (name : String)
    (attributes : Entries) :
    (readNamed settings parent scope isRoot name
      attributes).FailsExactly Fault.IsValue
        (Refuses scope.environment isRoot attributes) := by
  unfold readNamed
  have hSrc :
      ∀ about resource href,
        (namedIri scope attributes "src" >>= fun src =>
          pure (Named.mk about resource href src)).FailsExactly
            Fault.IsValue (RefusesIri scope.environment attributes "src") :=
    fun _ _ _ =>
      (namedIri_failsExactly scope attributes "src").bind_succeeds
        (fun _ => failsWith_pure _)
  have hAll :=
    (readAbout_failsExactly settings parent scope isRoot name
      attributes).bind_any (fun about =>
        (namedResource_failsExactly scope attributes
          "resource").bind_any (fun resource =>
            (namedIri_failsExactly scope attributes "href").bind_any
              (fun href => hSrc about resource href)))
  exact hAll.congr refuses_iff.symm

------------------------------------------------------------
-- Start tags
------------------------------------------------------------

theorem readBase_failsExactly
    (settings : Settings)
    (parent : Scope)
    (attributes : Entries) :
    (ofOutcome (readBase settings parent attributes)).FailsExactly
      Fault.IsValue
      (settings.media = .xhtml ∧
        RefusesIri parent.environment attributes "xml:base") := by
  rw [readBase_eq_declaredBase]
  unfold Environment.declaredBase RefusesIri
  cases settings.media with
  | html => exact Succeeds.failsExactly (failsWith_pure _) (by simp)
  | xhtml =>
      cases attributes.get? "xml:base" with
      | none => exact Succeeds.failsExactly (failsWith_pure _) (by simp)
      | some value =>
          exact (resolve_failsExactly parent.base value).congr
            (by simp)

theorem stateUse_failsExactly
    (settings : Settings)
    (base vocab : String) :
    (stateUse settings base vocab).FailsExactly Fault.IsValue
      (settings.options.statesVocabulary = true ∧
        Iri.Unresolvable base "") := by
  unfold stateUse stateVocabulary
  by_cases hStates : settings.options.statesVocabulary = true
  · rw [if_pos hStates]
    have hDocument :
        (ofOutcome (Iri.withoutFragment base)).FailsExactly Fault.IsValue
          (Iri.Unresolvable base "") :=
      failsExactly_ofOutcome
        (fun _ => Iri.kind_of_withoutFragment_error)
        (Iri.withoutFragment_error_iff.trans
          Iri.unresolvable_empty_iff.symm)
    refine FailsExactly.congr (hDocument.bind_succeeds ?_)
      (and_iff_right hStates).symm
    intro document
    refine FailsWith.bind (node_succeeds document) ?_
    intro subject
    refine FailsWith.bind (node_succeeds vocab) ?_
    intro object
    cases subject with
    | none => exact failsWith_pure ()
    | some x =>
        cases object with
        | none => exact failsWith_pure ()
        | some y => exact failsWith_note _
  · rw [if_neg hStates]
    exact Succeeds.failsExactly (failsWith_pure ()) (by simp [hStates])

theorem readVocab_failsExactly
    (settings : Settings)
    (parent : Scope)
    (base : String)
    (attributes : Entries) :
    (readVocab settings parent base attributes).FailsExactly
      Fault.IsValue
      (∃ value,
        attributes.get? "vocab" = some value ∧
          Text.isAllBlank value = false ∧
          (Iri.Unresolvable base (Text.trim value) ∨
            settings.options.statesVocabulary = true ∧
              Iri.Unresolvable base "")) := by
  unfold readVocab
  cases attributes.get? "vocab" with
  | none => exact Succeeds.failsExactly (failsWith_pure _) (by simp)
  | some value =>
      dsimp only
      rw [Text.isEmpty_trim]
      by_cases hBlank : Text.isAllBlank value = true
      · rw [if_pos hBlank]
        exact Succeeds.failsExactly (failsWith_pure _) (by simp [hBlank])
      · rw [if_neg hBlank]
        have hResolve := resolve_failsExactly base (Text.trim value)
        rw [Text.trim_trim] at hResolve
        refine FailsExactly.congr
          (hResolve.bind_any (fun vocab =>
            (stateUse_failsExactly settings base vocab).bind_succeeds
              (fun _ => failsWith_pure (some vocab)))) ?_
        simp [hBlank]

/- Reading a scope fails exactly if what is declared is refused. -/
theorem readScope_failsExactly
    (settings : Settings)
    (parent : Scope)
    (attributes : Entries) :
    (readScope settings parent attributes).FailsExactly Fault.IsValue
      (RefusesScope settings parent.environment attributes) := by
  unfold readScope
  refine FailsExactly.congr
    (FailsExactly.bind
      (Q := ∃ base value,
        parent.environment.declaredBase settings.media attributes =
            .ok base ∧
          attributes.get? "vocab" = some value ∧
          Text.isAllBlank value = false ∧
          (Iri.Unresolvable base (Text.trim value) ∨
            settings.options.statesVocabulary = true ∧
              Iri.Unresolvable base ""))
      (readBase_failsExactly settings parent attributes)
      (ofOutcome_yields (readBase settings parent attributes)) ?_) ?_
  · intro base hBase
    rw [readBase_eq_declaredBase] at hBase
    refine FailsExactly.congr
      ((readVocab_failsExactly settings parent base
        attributes).bind_succeeds (fun _ => failsWith_pure _)) ?_
    simp [hBase]
  · constructor
    · rintro (⟨hMedia, value, hGiven, hBase⟩ |
        ⟨base, value, hBase, hGiven, hNonBlank, hRefused⟩)
      · exact .base hMedia hGiven hBase
      · exact .vocabulary hBase hGiven hNonBlank hRefused
    · intro h
      cases h with
      | base hMedia hGiven hBase =>
          exact .inl ⟨hMedia, _, hGiven, hBase⟩
      | vocabulary hBase hGiven hNonBlank hRefused =>
          exact .inr ⟨_, _, hBase, hGiven, hNonBlank, hRefused⟩

/-
  A start tag fails for a value exactly if it is refused.
  Types, relations, properties and datatypes are no cause.
-/
theorem openElement_error_iff
    (settings : Settings)
    (parent : Scope)
    (isRoot : Bool)
    (name : String)
    (attributes : Entries)
    (s : Session) :
    (∃ fault u,
      openElement settings parent isRoot name attributes s =
          (.error fault, u) ∧
        fault.IsValue) ↔
      RefusesTag settings parent.environment isRoot attributes := by
  have hReads := readScope_failsExactly settings parent attributes
  rw [openElement_eq_settle]
  cases hScope : readScope settings parent attributes s with
  | mk outcome t =>
      cases outcome with
      | error fault =>
          refine iff_of_true ⟨fault, t, bind_of_error hScope _, ?_⟩ ?_
          · exact hReads.failsWith s fault t hScope
          · exact .scope ((hReads.error_iff s).mp ⟨fault, t, hScope⟩)
      | ok scope =>
          have hDeclare :
              parent.environment.declare settings.media attributes =
                .ok scope.environment :=
            readScope_declares settings parent attributes s scope t
              hScope
          have hReadable :
              ¬ RefusesScope settings parent.environment attributes := by
            rw [← hReads.error_iff s]
            rintro ⟨fault, u, hError⟩
            rw [hScope] at hError
            cases hError
          rcases (relationTerms_succeeds scope
            (relationTokens settings attributes "rel")).exists_ok t with
            ⟨rel, m, hRel⟩
          rcases (relationTerms_succeeds scope
            (relationTokens settings attributes "rev")).exists_ok m with
            ⟨rev, n, hRev⟩
          have hNamed :=
            (readNamed_failsExactly settings parent scope isRoot name
              attributes).bind_error_iff (fun named =>
                (settleElement_failsWith settings parent scope name
                  attributes rel rev named).mono
                    (fun _ h => h.not_isValue)) n
          rw [bind_of_ok hScope, bind_of_ok hRel, bind_of_ok hRev,
            hNamed]
          exact (refusesTag_iff_of_declare hReadable hDeclare).symm

end Evaluation
end LinkedMarkup
