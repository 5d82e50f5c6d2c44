import LinkedMarkup.Proofs.Coupling.Resolution
import LinkedMarkup.Proofs.Evaluation.Naming
import LinkedMarkup.Proofs.Iri.Authority
import LinkedMarkup.Proofs.Work.Faults

/-
  This file proves when reading the value of an attribute
  fails. Tokens never do: what they do not name is dropped. A
  value that is an address, or that is only read as one after
  all else, fails if the base cannot resolve it.

  Key definitions include:
    * `Fault.IsValue`
    * `Environment.NamesNode`
    * `Environment.IsReference`
    * `Environment.NamesResource`
    * `Resolution.Finds`

  Main declarations:
    * `Resolution.term_succeeds`
    * `Resolution.terms_succeeds`
    * `Resolution.iri_failsExactly`
    * `Resolution.resource_failsExactly`
    * `Resolution.resource_finds`
-/

namespace LinkedMarkup

/- A fault of a value that cannot be used. -/
def Fault.IsValue
    (fault : Fault) : Prop :=
  fault.kind = .value

------------------------------------------------------------
-- What values name
------------------------------------------------------------

namespace Environment

open Resolution

/-
  A compact name that names a node: a blank node, or an IRI
  that the start for its name leads to.
-/
inductive NamesNode
    (x : Environment)
    (token : String) : Prop where
  | blank
      {reference : String}
      (hToken : Token.Compact token "_" reference) :
      NamesNode x token
  | iri
      {name reference start : String}
      {i : Iri}
      (hToken : Token.Compact token name reference)
      (hName : name ≠ "_")
      (hStart : x.start? name = some start)
      (hIri : Iri.parse? (start ++ reference) = some i) :
      NamesNode x token

/-
  A value of `about` or `resource` that is read as a reference
  to be resolved: it is not in brackets, names no node as a
  compact name, and looks neither like an absolute IRI nor
  like a compact name.
-/
structure IsReference
    (x : Environment)
    (value : String) : Prop where
  unbracketed : bracketed? (Text.trim value).toList = none
  unnamed : ¬ x.NamesNode (Text.trim value)
  relative : Iri.looksAbsolute (Text.trim value) = false
  undeclared : looksCompact (Text.trim value) = false

/- A text that names an IRI as it is, or once it is resolved. -/
inductive NamesAddress
    (x : Environment)
    (text : String) : Prop where
  | absolute
      {i : Iri}
      (hAbsolute : Iri.looksAbsolute text = true)
      (hIri : Iri.parse? text = some i) :
      NamesAddress x text
  | relative
      {resolved : String}
      {i : Iri}
      (hRelative : Iri.looksAbsolute text = false)
      (hUndeclared : looksCompact text = false)
      (hResolve : Iri.resolve x.base text = .ok resolved)
      (hIri : Iri.parse? resolved = some i) :
      NamesAddress x text

/- A value of `about` or `resource` that names a node. -/
inductive NamesResource
    (x : Environment)
    (value : String) : Prop where
  | bracketed
      {name : String}
      (hBracketed : bracketed? (Text.trim value).toList = some name)
      (hNode : x.NamesNode name) :
      NamesResource x value
  | compact
      (hOpen : bracketed? (Text.trim value).toList = none)
      (hNode : x.NamesNode (Text.trim value)) :
      NamesResource x value
  | address
      (hOpen : bracketed? (Text.trim value).toList = none)
      (hAddress : x.NamesAddress (Text.trim value)) :
      NamesResource x value

@[simp]
theorem base_environment
    (scope : Scope) :
    scope.environment.base = scope.base :=
  rfl

variable {x : Environment} {token name reference : String}

theorem namesNode_iff_of_compact
    (h : Token.Compact token name reference)
    (hName : name ≠ "_") :
    x.NamesNode token ↔
      ((x.start? name).bind (fun start =>
        Iri.parse? (start ++ reference))).isSome = true := by
  constructor
  · intro hNames
    cases hNames with
    | blank hToken => exact absurd (h.unique hToken).1 hName
    | iri hToken _ hStart hIri =>
        rcases h.unique hToken with ⟨rfl, rfl⟩
        rw [hStart, Option.bind_some, hIri]
        rfl
  · intro hSome
    rcases Option.isSome_iff_exists.mp hSome with ⟨i, hFound⟩
    rcases Option.bind_eq_some_iff.mp hFound with
      ⟨start, hStart, hIri⟩
    exact .iri h hName hStart hIri

theorem NamesNode.mem
    (h : x.NamesNode token) :
    ':' ∈ token.toList := by
  cases h with
  | blank hToken => exact hToken.mem
  | iri hToken _ _ _ => exact hToken.mem

/- The empty value is read as a reference. -/
theorem isReference_empty
    (x : Environment) :
    x.IsReference "" where
  unbracketed := by decide
  unnamed := by
    intro h
    have hColon := h.mem
    revert hColon
    decide
  relative := by decide
  undeclared := by decide

end Environment

namespace Resolution

open Work

------------------------------------------------------------
-- Values that are not compact names
------------------------------------------------------------

/- How a value that names no node as a compact name is read on. -/
def readAddress
    (scope : Scope)
    (text : String) : Work (Option Subject) :=
  if Iri.looksAbsolute text then
    subjectNode text
  else if looksCompact text then
    andThen
      (remark ("Dropped CURIE with undeclared prefix: " ++ text))
      (fun _ => done none)
  else
    andThen (ofOutcome (Iri.resolve scope.base text)) subjectNode

theorem resource_of_bracketed
    {scope : Scope}
    {value name : String}
    (h : bracketed? (Text.trim value).toList = some name) :
    resource scope value = compactName scope name := by
  unfold resource
  simp only [h]

theorem resource_of_unbracketed
    {scope : Scope}
    {value : String}
    (h : bracketed? (Text.trim value).toList = none) :
    resource scope value =
      (compactName scope (Text.trim value) >>= fun found =>
        match found with
        | some node => pure (some node)
        | none => readAddress scope (Text.trim value)) := by
  unfold resource
  simp only [h]
  rfl

------------------------------------------------------------
-- Steps without faults
------------------------------------------------------------

/- A text that is no IRI is dropped. -/
theorem node_succeeds
    (text : String) :
    (node text).Succeeds := by
  unfold node
  cases Iri.make text with
  | ok iri => exact failsWith_pure _
  | error fault =>
      exact FailsWith.bind (failsWith_note _) (fun _ => failsWith_pure _)

theorem subjectNode_succeeds
    (text : String) :
    (subjectNode text).Succeeds :=
  FailsWith.bind (node_succeeds text) (fun _ => failsWith_pure _)

theorem labelledNode_succeeds
    (label : String) :
    (labelledNode label).Succeeds := by
  intro s fault t hRun
  cases hRun

theorem compactName_succeeds
    (scope : Scope)
    (token : String) :
    (compactName scope token).Succeeds := by
  unfold compactName
  split
  · exact failsWith_pure _
  · dsimp only
    split
    · exact FailsWith.bind (labelledNode_succeeds _)
        (fun _ => failsWith_pure _)
    · split
      · exact subjectNode_succeeds _
      · split
        · exact subjectNode_succeeds _
        · exact failsWith_pure _

/- Reading a token never fails, whatever it is. -/
theorem term_succeeds
    (scope : Scope)
    (token : String) :
    (term scope token).Succeeds := by
  unfold term
  split
  · refine FailsWith.bind (compactName_succeeds scope token) ?_
    intro found
    cases found with
    | none =>
        dsimp only
        split
        · exact node_succeeds token
        · exact failsWith_pure _
    | some subject =>
        cases subject with
        | iri i => exact failsWith_pure _
        | blank b => exact failsWith_pure _
  · split
    · exact node_succeeds _
    · split
      · exact node_succeeds _
      · exact failsWith_pure _

theorem terms_succeeds
    (scope : Scope)
    (value : String) :
    (terms scope value).Succeeds :=
  failsWith_collect (term_succeeds scope) _

------------------------------------------------------------
-- Compact names
------------------------------------------------------------

/- A step that finds a node, if it gives a result, exactly if `P`. -/
def Finds
    (P : Prop)
    (w : Work (Option Subject)) : Prop :=
  w.Yields (fun found => found.isSome = true ↔ P)

theorem Finds.congr
    {w : Work (Option Subject)}
    {P Q : Prop}
    (h : Finds P w)
    (hIff : P ↔ Q) :
    Finds Q w :=
  fun s found t hRun => (h s found t hRun).trans hIff

theorem subjectNode_finds
    (text : String) :
    Finds (∃ i, Iri.parse? text = some i) (subjectNode text) := by
  intro s found t hRun
  have hFound : found = (Iri.parse? text).map Subject.iri :=
    subjectNode_yields text s found t hRun
  rw [hFound]
  simp [Option.isSome_iff_exists]

/- Reading a compact name finds a node exactly if it names one. -/
theorem compactName_finds
    (scope : Scope)
    (token : String) :
    Finds (scope.environment.NamesNode token) (compactName scope token) := by
  rcases Token.compact_or_not_mem token with
    ⟨name, reference, hToken⟩ | hColon
  · intro s found t hRun
    have hFound := compactName_yields scope hToken s found t hRun
    dsimp only at hFound ⊢
    by_cases hName : name = "_"
    · subst hName
      rw [if_pos rfl] at hFound
      rcases hFound with ⟨b, rfl⟩
      exact iff_of_true rfl (.blank hToken)
    · rw [if_neg hName] at hFound
      rw [Environment.namesNode_iff_of_compact hToken hName, hFound,
        Option.isSome_map]
  · unfold compactName
    rw [Text.cutAtChar_of_not_mem hColon]
    exact yields_pure (iff_of_false (by simp) (fun h => hColon h.mem))

------------------------------------------------------------
-- Addresses
------------------------------------------------------------

theorem resolve_failsExactly
    (base reference : String) :
    (ofOutcome (Iri.resolve base reference)).FailsExactly Fault.IsValue
      (Iri.Unresolvable base (Text.trim reference)) :=
  failsExactly_ofOutcome (fun _ => Iri.kind_of_resolve_error)
    Iri.resolve_error_iff

/- A value of `href` or `src` fails if it is unresolvable. -/
theorem iri_failsExactly
    (scope : Scope)
    (value : String) :
    (iri scope value).FailsExactly Fault.IsValue
      (Iri.Unresolvable scope.base (Text.trim value)) :=
  (resolve_failsExactly scope.base value).bind_succeeds node_succeeds

theorem readAddress_failsExactly
    (scope : Scope)
    (text : String) :
    (readAddress scope text).FailsExactly Fault.IsValue
      (Iri.looksAbsolute text = false ∧ looksCompact text = false ∧
        Iri.Unresolvable scope.base (Text.trim text)) := by
  unfold readAddress
  by_cases hAbsolute : Iri.looksAbsolute text = true
  · rw [if_pos hAbsolute]
    exact (subjectNode_succeeds text).failsExactly (by simp [hAbsolute])
  · rw [if_neg hAbsolute]
    by_cases hCompact : looksCompact text = true
    · rw [if_pos hCompact]
      have hDrops :
          (remark
              ("Dropped CURIE with undeclared prefix: " ++ text) >>=
            fun _ => pure (none : Option Subject)).Succeeds :=
        (failsWith_note _).bind (fun _ => failsWith_pure none)
      exact Succeeds.failsExactly hDrops (by simp [hCompact])
    · rw [if_neg hCompact]
      have hResolve :=
        (resolve_failsExactly scope.base text).bind_succeeds
          subjectNode_succeeds
      exact hResolve.congr (by simp [hAbsolute, hCompact])

theorem readAddress_finds
    (scope : Scope)
    (text : String) :
    Finds (scope.environment.NamesAddress text) (readAddress scope text) := by
  unfold readAddress
  by_cases hAbsolute : Iri.looksAbsolute text = true
  · rw [if_pos hAbsolute]
    refine (subjectNode_finds text).congr ?_
    constructor
    · rintro ⟨i, hIri⟩
      exact .absolute hAbsolute hIri
    · intro h
      cases h with
      | absolute _ hIri => exact ⟨_, hIri⟩
      | relative hRelative _ _ _ =>
          rw [hAbsolute] at hRelative
          cases hRelative
  · rw [if_neg hAbsolute]
    by_cases hCompact : looksCompact text = true
    · rw [if_pos hCompact]
      refine yields_bind (fun _ => yields_pure (iff_of_false (by simp) ?_))
      intro h
      cases h with
      | absolute hLooks _ => exact hAbsolute hLooks
      | relative _ hUndeclared _ _ =>
          rw [hCompact] at hUndeclared
          cases hUndeclared
    · rw [if_neg hCompact]
      refine (Evaluation.ofOutcome_yields (Iri.resolve scope.base text)).bind ?_
      intro resolved hResolve
      refine (subjectNode_finds resolved).congr ?_
      constructor
      · rintro ⟨i, hIri⟩
        exact .relative (by simpa using hAbsolute)
          (by simpa using hCompact) hResolve hIri
      · intro h
        cases h with
        | absolute hLooks _ => exact absurd hLooks hAbsolute
        | relative _ _ hOther hIri =>
            have hSame := hResolve.symm.trans hOther
            cases hSame
            exact ⟨_, hIri⟩

/-
  A value of `about` or `resource` fails if it comes to
  resolving it and it is unresolvable.
-/
theorem resource_failsExactly
    (scope : Scope)
    (value : String) :
    (resource scope value).FailsExactly Fault.IsValue
      (scope.environment.IsReference value ∧
        Iri.Unresolvable scope.base (Text.trim value)) := by
  cases hOpen : bracketed? (Text.trim value).toList with
  | some name =>
      rw [resource_of_bracketed hOpen]
      refine (compactName_succeeds scope name).failsExactly ?_
      rintro ⟨hReference, _⟩
      rw [hReference.unbracketed] at hOpen
      cases hOpen
  | none =>
      rw [resource_of_unbracketed hOpen]
      have hNever :=
        (compactName_succeeds scope (Text.trim value)).failsExactly
          (E := Fault.IsValue) not_false
      refine FailsExactly.congr
        (hNever.bind (compactName_finds scope (Text.trim value)) ?_)
        (or_iff_right not_false)
      intro found hFinds
      cases found with
      | some node =>
          refine Succeeds.failsExactly (failsWith_pure _) ?_
          rintro ⟨hReference, _⟩
          exact hReference.unnamed (hFinds.mp rfl)
      | none =>
          have hUnnamed : ¬ scope.environment.NamesNode (Text.trim value) := by
            rw [← hFinds]
            simp
          have hAddress :=
            readAddress_failsExactly scope (Text.trim value)
          rw [Text.trim_trim] at hAddress
          refine hAddress.congr ?_
          constructor
          · rintro ⟨hRelative, hUndeclared, hUnresolvable⟩
            exact ⟨⟨hOpen, hUnnamed, hRelative, hUndeclared⟩,
              hUnresolvable⟩
          · rintro ⟨hReference, hUnresolvable⟩
            exact ⟨hReference.relative, hReference.undeclared,
              hUnresolvable⟩

/- Otherwise it finds a node exactly if it names one. -/
theorem resource_finds
    (scope : Scope)
    (value : String) :
    Finds (scope.environment.NamesResource value) (resource scope value) := by
  cases hOpen : bracketed? (Text.trim value).toList with
  | some name =>
      rw [resource_of_bracketed hOpen]
      refine (compactName_finds scope name).congr ?_
      constructor
      · exact .bracketed hOpen
      · intro h
        cases h with
        | bracketed hOther hNode =>
            rw [hOpen] at hOther
            cases hOther
            exact hNode
        | compact hNone _ => simp [hOpen] at hNone
        | address hNone _ => simp [hOpen] at hNone
  | none =>
      rw [resource_of_unbracketed hOpen]
      refine (compactName_finds scope (Text.trim value)).bind ?_
      intro found hFinds
      cases found with
      | some node =>
          exact yields_pure
            (iff_of_true rfl (.compact hOpen (hFinds.mp rfl)))
      | none =>
          refine (readAddress_finds scope (Text.trim value)).congr ?_
          constructor
          · exact .address hOpen
          · intro h
            cases h with
            | bracketed hBracketed _ => simp [hOpen] at hBracketed
            | compact _ hNode => simpa using hFinds.mpr hNode
            | address _ hAddress => exact hAddress

end Resolution
end LinkedMarkup
