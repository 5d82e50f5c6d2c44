import LinkedMarkup.Annotation.Evaluation.Inheritance
import LinkedMarkup.Proofs.Coupling.Basic

/-
  This file proves that corresponding runs read the names in
  attribute values alike: they find corresponding nodes, and
  the only faults are addresses that cannot be read.

  Main declarations:
    * `Iri.kind_of_resolve_error`
    * `Coupling.resource_coupled`
    * `Coupling.terms_coupled`
    * `Resolution.resource_empty`
-/

namespace LinkedMarkup

------------------------------------------------------------
-- Faults of addresses
------------------------------------------------------------

namespace Reference

theorem kind_of_checkBracketed_error
    {host : List Char}
    {fault : Fault}
    (h : checkBracketed host = .error fault) :
    fault.kind = .value := by
  unfold checkBracketed at h
  split at h
  · split at h
    · cases h
    · cases h
      rfl
  · split at h
    · cases h
      rfl
    · split at h
      · cases h
      · cases h
        rfl

theorem kind_of_checkBrackets_error
    {authority : List Char}
    {fault : Fault}
    (h : checkBrackets authority = .error fault) :
    fault.kind = .value := by
  unfold checkBrackets at h
  split at h
  · cases h
    rfl
  · split at h
    · exact kind_of_checkBracketed_error h
    · cases h

theorem kind_of_checkAuthority_error
    {authority : List Char}
    {fault : Fault}
    (h : checkAuthority authority = .error fault) :
    fault.kind = .value := by
  unfold checkAuthority at h
  split at h
  · next cause hBrackets =>
      cases h
      exact kind_of_checkBrackets_error hBrackets
  · split at h
    · cases h
      rfl
    · cases h

theorem kind_of_split_error
    {scheme text : List Char}
    {fault : Fault}
    (h : split scheme text = .error fault) :
    fault.kind = .value := by
  unfold split at h
  extract_lets cleaned headed located at h
  split at h
  · rename_i cause hAuthority
    cases h
    exact kind_of_checkAuthority_error hAuthority
  · cases h

theorem kind_of_against_error
    {base text : List Char}
    {fault : Fault}
    (h : against base text = .error fault) :
    fault.kind = .value := by
  unfold against at h
  split at h
  · cases h
  · split at h
    · cases h
    · split at h
      · rename_i cause hBase
        cases h
        exact kind_of_split_error hBase
      · split at h
        · rename_i cause hText
          cases h
          exact kind_of_split_error hText
        · split at h
          · cases h
          · split at h
            · cases h
            · dsimp only at h
              split at h <;> cases h

end Reference

namespace Iri

theorem kind_of_withoutFragment_error
    {text : String}
    {fault : Fault}
    (h : withoutFragment text = .error fault) :
    fault.kind = .value := by
  unfold withoutFragment at h
  split at h
  · split at h
    · rename_i cause hSplit
      cases h
      exact Reference.kind_of_split_error hSplit
    · cases h
  · cases h

/- A reference only fails to resolve as an address. -/
theorem kind_of_resolve_error
    {base reference : String}
    {fault : Fault}
    (h : resolve base reference = .error fault) :
    fault.kind = .value := by
  unfold resolve at h
  dsimp only at h
  split at h
  · exact kind_of_withoutFragment_error h
  · split at h
    · cases h
    · split at h
      · rename_i cause hAgainst
        cases h
        exact Reference.kind_of_against_error hAgainst
      · cases h

end Iri

------------------------------------------------------------
-- Names
------------------------------------------------------------

namespace Coupling

variable {C : Coupling} {W : C.World} {scope scope' : Scope}

open Resolution

theorem node_coupled
    (hC : C.Sound)
    (text : String) :
    C.Coupled W (Resolution.node text) (Resolution.node text)
      C.Same := by
  unfold Resolution.node
  cases Iri.make text with
  | ok iri => exact coupled_done hC rfl
  | error fault =>
      refine (remark_coupled hC _).andThen hC ?_
      intro V hV _ _ _
      exact coupled_done hC rfl

theorem subjectNode_coupled
    (hC : C.Sound)
    (text : String) :
    C.Coupled W (subjectNode text) (subjectNode text)
      C.Optional := by
  refine (node_coupled hC text).andThen hC ?_
  rintro V hV found _ rfl
  apply coupled_done hC
  cases found with
  | none => exact .none
  | some iri => exact .some (.iri iri)

theorem compactName_coupled
    (hC : C.Sound)
    (hScope : C.ScopesMatch W scope scope')
    (value : String) :
    C.Coupled W (compactName scope value) (compactName scope' value)
      C.Optional := by
  unfold compactName
  rw [← hScope.prefixes]
  split
  · exact coupled_done hC .none
  · dsimp only
    split
    · refine (hC.labelled W _).andThen hC ?_
      intro V hV b b' hNode
      exact coupled_done hC (.some (.blank hNode))
    · split
      · exact subjectNode_coupled hC _
      · split
        · exact subjectNode_coupled hC _
        · exact coupled_done hC .none

/- Resolving an address gives the same on both sides. -/
theorem resolve_coupled
    (hC : C.Sound)
    (base reference : String) :
    C.Coupled W (Work.ofOutcome (Iri.resolve base reference))
      (Work.ofOutcome (Iri.resolve base reference)) C.Same :=
  coupled_ofOutcome hC
    (fun fault hFault =>
      hC.value fault (Iri.kind_of_resolve_error hFault))

theorem resource_coupled
    (hC : C.Sound)
    (hScope : C.ScopesMatch W scope scope')
    (value : String) :
    C.Coupled W (resource scope value) (resource scope' value)
      C.Optional := by
  unfold resource
  generalize Text.trim value = trimmed
  dsimp only
  split
  · exact compactName_coupled hC hScope _
  · refine (compactName_coupled hC hScope trimmed).andThen hC ?_
    intro V hV found found' hFound
    cases hFound with
    | some hSome => exact coupled_done hC (.some hSome)
    | none =>
        dsimp only
        split
        · exact subjectNode_coupled hC _
        · split
          · refine (remark_coupled hC _).andThen hC ?_
            intro U hU _ _ _
            exact coupled_done hC .none
          · rw [← hScope.base]
            refine (resolve_coupled hC _ _).andThen hC ?_
            rintro U hU text _ rfl
            exact subjectNode_coupled hC text

theorem iri_coupled
    (hC : C.Sound)
    (hScope : C.ScopesMatch W scope scope')
    (value : String) :
    C.Coupled W (iri scope value) (iri scope' value) C.Same := by
  unfold Resolution.iri
  rw [← hScope.base]
  refine (resolve_coupled hC _ _).andThen hC ?_
  rintro V hV text _ rfl
  exact node_coupled hC text

theorem term_coupled
    (hC : C.Sound)
    (hScope : C.ScopesMatch W scope scope')
    (value : String) :
    C.Coupled W (term scope value) (term scope' value) C.Same := by
  unfold term
  split
  · refine (compactName_coupled hC hScope value).andThen hC ?_
    intro V hV found found' hFound
    cases hFound with
    | none =>
        dsimp only
        split
        · exact node_coupled hC value
        · exact coupled_done hC rfl
    | some hSome =>
        cases hSome with
        | iri i => exact coupled_done hC rfl
        | blank hNode => exact coupled_done hC rfl
  · rw [← hScope.vocab, ← hScope.terms]
    split
    · exact node_coupled hC _
    · split
      · exact node_coupled hC _
      · exact coupled_done hC rfl

theorem terms_coupled
    (hC : C.Sound)
    (hScope : C.ScopesMatch W scope scope')
    (value : String) :
    C.Coupled W (terms scope value) (terms scope' value) C.Same :=
  Coupled.collect hC
    (fun _ hV token => term_coupled hC (hScope.mono hC hV) token)

end Coupling

------------------------------------------------------------
-- The empty reference
------------------------------------------------------------

namespace Resolution

open Work

/-
  The empty reference names the base, if that is an IRI once
  its fragment is taken off.
-/
theorem resource_empty
    {scope : Scope}
    {document : String}
    {iri : Iri}
    (hDocument : Iri.withoutFragment scope.base = .ok document)
    (hIri : Iri.parse? document = some iri)
    (s : Session) :
    resource scope "" s = (.ok (some (.iri iri)), s) := by
  have hTrim : Text.trim "" = "" := by decide
  have hOpen : bracketed? [] = none := rfl
  have hName : compactName scope "" = done none := rfl
  have hAbsolute : Iri.looksAbsolute "" = false := by decide
  have hCompact : looksCompact "" = false := rfl
  have hResolve : Iri.resolve scope.base "" = .ok document := by
    rw [← hDocument]
    unfold Iri.resolve
    rw [hTrim]
    rfl
  have hMake : Iri.make document = .ok iri := by
    simp [Iri.make, hIri]
  simp [resource, hTrim, hOpen, hName, hAbsolute, hCompact,
    hResolve, andThen, done, ofOutcome, subjectNode, node, hMake]

end Resolution
end LinkedMarkup
