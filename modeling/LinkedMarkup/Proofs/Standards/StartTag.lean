import LinkedMarkup.Proofs.Evaluation.Naming
import LinkedMarkup.Proofs.Evaluation.Opening
import LinkedMarkup.Proofs.Standards.Basic

/-
  This file proves that a start tag meets a standard which
  its attributes meet: what it states does, and so does all
  that its element holds until later.

  Key definitions include:
    * `Standard.InScope`
    * `Standard.InPending`
    * `Standard.InElement`
    * `Standard.Admits`

  Main declarations:
    * `Standard.secures_readTag`
    * `Standard.secures_buildElement`
    * `Standard.secures_openElement`
-/

namespace LinkedMarkup

/- The predicate of a relation that waits. -/
def Incomplete.predicate :
    Incomplete → Iri
  | forward p => p
  | reverse p => p
  | listed p _ => p

namespace Standard

open Evaluation

variable (T : Standard)

------------------------------------------------------------
-- What elements hold
------------------------------------------------------------

/- A scope whose nodes and waiting relations meet a standard. -/
structure InScope
    (x : Scope) : Prop where
  subject : T.Optional x.subject
  object : T.Optional x.object
  incomplete : ∀ w ∈ x.incomplete, T.predicate w.predicate

/- A value that waits for content and meets a standard. -/
structure InPending
    (p : Pending) : Prop where
  subject : T.subject p.subject
  predicates : ∀ i ∈ p.predicates, T.predicate i
  datatype : ∀ d ∈ p.datatype, T.datatype d

/- An open element that holds nothing below a standard. -/
structure InElement
    (e : Element) : Prop where
  scope : T.InScope e.scope
  subject : T.Optional e.subject
  pending : ∀ p ∈ e.pending, T.InPending p

/- Nodes that attributes name and that meet a standard. -/
structure InNamed
    (n : Named) : Prop where
  about : T.Optional n.about
  resource : T.Optional n.resource
  href : T.Optional n.href
  src : T.Optional n.src

/- Parts of an element that meet a standard. -/
structure InRoles
    (r : Roles) : Prop where
  subject : T.Optional r.subject
  object : T.Optional r.object
  typed : T.Optional r.typed

/-
  A standard admits attributes in an environment if it allows
  what their tokens name there: predicates, types, and the
  datatype.
-/
structure Admits
    (x : Environment)
    (attributes : Entries) : Prop where
  predicate :
    ∀ key ∈ ["rel", "rev", "property"], ∀ value,
      attributes.get? key = some value →
        ∀ token ∈ Text.words value, ∀ i,
          x.named? token = some i → T.predicate i
  type :
    ∀ value,
      attributes.get? "typeof" = some value →
        ∀ token ∈ Text.words value, ∀ i,
          x.named? token = some i → T.type i
  datatype :
    ∀ value,
      attributes.get? "datatype" = some value →
        ∀ i, x.named? (Text.trim value) = some i → T.datatype i

variable {T}

theorem optional_none :
    T.Optional none := by
  intro s hMem
  cases hMem

theorem optional_some
    {s : Subject}
    (h : T.subject s) :
    T.Optional (some s) := by
  intro x hMem
  cases hMem
  exact h

theorem Optional.or
    {x y : Option Subject}
    (hx : T.Optional x)
    (hy : T.Optional y) :
    T.Optional (x.or y) := by
  cases x with
  | none => exact hy
  | some s => exact hx

theorem InNamed.target
    {n : Named}
    (h : T.InNamed n) :
    T.Optional n.target :=
  (h.resource.or h.href).or h.src

theorem InScope.of_keeps
    {parent scope : Scope}
    (h : T.InScope parent)
    (hKeeps : Keeps parent scope) :
    T.InScope scope where
  subject := by
    rw [hKeeps.subject]
    exact h.subject
  object := by
    rw [hKeeps.object]
    exact h.object
  incomplete := by
    rw [hKeeps.incomplete]
    exact h.incomplete

section Steps

variable (hT : T.Lawful)

include hT

------------------------------------------------------------
-- Names
------------------------------------------------------------

theorem secures_node
    (text : String) :
    T.Secures (Resolution.node text)
      (fun found => ∀ i ∈ found, T.subject (.iri i)) := by
  have hKeeps :
      T.Secures (Resolution.node text) (fun _ => True) := by
    unfold Resolution.node
    cases Iri.make text with
    | ok i => exact Work.secures_pure trivial
    | error fault =>
        exact (secures_remark _).bind
          (fun _ _ => Work.secures_pure trivial)
  refine (hKeeps.and_yields (Resolution.node_yields text)).mono ?_
  rintro _ ⟨_, rfl⟩ i hParse
  refine hT.iri i ?_
  have hSame := Environment.eq_of_parse? hParse
  rw [hSame] at hParse ⊢
  exact hParse

theorem secures_subjectNode
    (text : String) :
    T.Secures (Resolution.subjectNode text) T.Optional := by
  refine (secures_node hT text).bind ?_
  intro found hFound
  apply Work.secures_pure
  cases found with
  | none => exact optional_none
  | some i => exact optional_some (hFound i rfl)

theorem secures_compactName
    (scope : Scope)
    (value : String) :
    T.Secures (Resolution.compactName scope value) T.Optional := by
  unfold Resolution.compactName
  split
  · exact Work.secures_pure optional_none
  · dsimp only
    split
    · refine (secures_labelledNode hT _).bind ?_
      intro b hNode
      exact Work.secures_pure (optional_some hNode)
    · split
      · exact secures_subjectNode hT _
      · split
        · exact secures_subjectNode hT _
        · exact Work.secures_pure optional_none

theorem secures_resource
    (scope : Scope)
    (value : String) :
    T.Secures (Resolution.resource scope value) T.Optional := by
  unfold Resolution.resource
  dsimp only
  split
  · exact secures_compactName hT _ _
  · refine (secures_compactName hT _ _).bind ?_
    intro found hFound
    cases found with
    | some s => exact Work.secures_pure hFound
    | none =>
        dsimp only
        split
        · exact secures_subjectNode hT _
        · split
          · exact (secures_remark _).bind
              (fun _ _ => Work.secures_pure optional_none)
          · exact
              (Work.secures_ofOutcome
                (P := fun _ => True) (fun _ _ => trivial)).bind
                (fun _ _ => secures_subjectNode hT _)

theorem secures_iri
    (scope : Scope)
    (value : String) :
    T.Secures (Resolution.iri scope value)
      (fun found => ∀ i ∈ found, T.subject (.iri i)) :=
  (Work.secures_ofOutcome (P := fun _ => True) (fun _ _ => trivial)).bind
    (fun _ _ => secures_node hT _)

/- A token is read as what it names. -/
theorem secures_term
    (scope : Scope)
    (token : String) :
    T.Secures (Resolution.term scope token)
      (fun found => found = scope.environment.named? token) := by
  have hNode :
      ∀ text : String,
        T.Secures (Resolution.node text) (fun _ => True) :=
    fun text => (secures_node hT text).mono (fun _ _ => trivial)
  have hKeeps :
      T.Secures (Resolution.term scope token) (fun _ => True) := by
    unfold Resolution.term
    split
    · refine (secures_compactName hT _ _).bind ?_
      intro found _
      split
      · exact Work.secures_pure trivial
      · exact Work.secures_pure trivial
      · split
        · exact hNode _
        · exact Work.secures_pure trivial
    · split
      · exact hNode _
      · split
        · exact hNode _
        · exact Work.secures_pure trivial
  exact (hKeeps.and_yields (Resolution.term_yields scope token)).mono
    (fun _ h => h.2)

/- What tokens are read as, if all that they name is allowed. -/
theorem secures_tokens
    {P : Iri → Prop}
    {scope : Scope}
    {tokens : List String}
    (h :
      ∀ token ∈ tokens, ∀ i,
        scope.environment.named? token = some i → P i) :
    T.Secures (Work.collect (Resolution.term scope) tokens)
      (fun found => ∀ i ∈ found, P i) := by
  apply Work.secures_collect
  intro token hMem
  refine (secures_term hT scope token).mono ?_
  rintro _ rfl i hNamed
  exact h token hMem i hNamed

------------------------------------------------------------
-- What is in force
------------------------------------------------------------

theorem secures_stateVocabulary
    (base vocab : String) :
    T.Secures (stateVocabulary base vocab) (fun _ => True) := by
  unfold stateVocabulary
  refine
    (Work.secures_ofOutcome (P := fun _ => True)
      (fun _ _ => trivial)).bind ?_
  intro document _
  refine (secures_node hT document).bind ?_
  intro subject hSubject
  refine (secures_node hT vocab).bind ?_
  intro object hObject
  split
  · apply secures_state
    intro s hMem o hMember
    cases hMem
    cases hMember
    exact hT.usage _ _ (hSubject _ rfl)
      (hT.toObject _ (hObject _ rfl))
  · exact Work.secures_pure trivial

theorem secures_readVocab
    (settings : Settings)
    (parent : Scope)
    (base : String)
    (attributes : Entries) :
    T.Secures (readVocab settings parent base attributes)
      (fun _ => True) := by
  unfold readVocab
  split
  · exact Work.secures_pure trivial
  · dsimp only
    split
    · exact Work.secures_pure trivial
    · refine
        (Work.secures_ofOutcome (P := fun _ => True)
          (fun _ _ => trivial)).bind ?_
      intro vocab _
      have hUse :
          T.Secures (stateUse settings base vocab)
            (fun _ => True) := by
        unfold stateUse
        split
        · exact secures_stateVocabulary hT base vocab
        · exact Work.secures_pure trivial
      exact hUse.bind (fun _ _ => Work.secures_pure trivial)

/- A scope of its own keeps the nodes around it in force. -/
theorem secures_readScope
    (settings : Settings)
    {parent : Scope}
    (hParent : T.InScope parent)
    (attributes : Entries) :
    T.Secures (readScope settings parent attributes)
      (fun scope =>
        T.InScope scope ∧
          Environment.declare settings.media attributes
              parent.environment =
            .ok scope.environment) := by
  have hKeeps :
      T.Secures (readScope settings parent attributes)
        (fun _ => True) := by
    unfold readScope
    refine
      (Work.secures_ofOutcome (P := fun _ => True)
        (fun _ _ => trivial)).bind ?_
    intro base _
    exact (secures_readVocab hT settings parent base attributes).bind
      (fun _ _ => Work.secures_pure trivial)
  refine ((hKeeps.and_yields
    (readScope_yields settings parent attributes)).and_yields
    (readScope_declares settings parent attributes)).mono ?_
  rintro scope ⟨⟨_, hSame⟩, hDeclares⟩
  exact ⟨hParent.of_keeps hSame, hDeclares⟩

------------------------------------------------------------
-- Named nodes and roles
------------------------------------------------------------

theorem secures_namedResource
    (scope : Scope)
    (attributes : Entries)
    (key : String) :
    T.Secures (namedResource scope attributes key) T.Optional := by
  unfold namedResource
  split
  · exact Work.secures_pure optional_none
  · exact secures_resource hT _ _

theorem secures_namedIri
    (scope : Scope)
    (attributes : Entries)
    (key : String) :
    T.Secures (namedIri scope attributes key) T.Optional := by
  unfold namedIri
  split
  · exact Work.secures_pure optional_none
  · refine (secures_iri hT _ _).bind ?_
    intro found hFound
    apply Work.secures_pure
    cases found with
    | none => exact optional_none
    | some i => exact optional_some (hFound i rfl)

theorem secures_readNamed
    (settings : Settings)
    {parent : Scope}
    (hParent : T.InScope parent)
    (scope : Scope)
    (isRoot : Bool)
    (name : String)
    (attributes : Entries) :
    T.Secures
      (readNamed settings parent scope isRoot name attributes)
      T.InNamed := by
  have hAbout :
      T.Secures
        (readAbout settings parent scope isRoot name attributes)
        T.Optional := by
    unfold readAbout
    refine (secures_namedResource hT _ _ _).bind ?_
    intro given hGiven
    split
    · exact Work.secures_pure hGiven
    · split
      · exact secures_resource hT _ _
      · split
        · exact Work.secures_pure hParent.object
        · exact Work.secures_pure optional_none
  unfold readNamed
  refine hAbout.bind ?_
  intro about hAbout
  refine (secures_namedResource hT _ _ _).bind ?_
  intro resource hResource
  refine (secures_namedIri hT _ _ _).bind ?_
  intro href hHref
  refine (secures_namedIri hT _ _ _).bind ?_
  intro src hSrc
  exact Work.secures_pure ⟨hAbout, hResource, hHref, hSrc⟩

theorem secures_freshSubject :
    T.Secures freshSubject T.subject := by
  refine (secures_freshNode hT).bind ?_
  intro b hNode
  exact Work.secures_pure hNode

theorem secures_orFresh
    {node : Option Subject}
    (hNode : T.Optional node) :
    T.Secures (orFresh node) T.subject := by
  unfold orFresh
  split
  · exact Work.secures_pure (hNode _ rfl)
  · exact secures_freshSubject hT

theorem secures_propertyRoles
    {parent : Scope}
    (hParent : T.InScope parent)
    {named : Named}
    (hNamed : T.InNamed named)
    (isTyped : Bool) :
    T.Secures (propertyRoles parent named isTyped) T.InRoles := by
  unfold propertyRoles
  dsimp only
  have hSubject := hNamed.about.or hParent.object
  split
  · refine (secures_orFresh hT
      (hNamed.about.or hNamed.target)).bind ?_
    intro typed hTyped
    exact Work.secures_pure
      ⟨hSubject, optional_some hTyped, optional_some hTyped⟩
  · exact Work.secures_pure ⟨hSubject, optional_none, optional_none⟩

theorem secures_plainRoles
    {parent : Scope}
    (hParent : T.InScope parent)
    {named : Named}
    (hNamed : T.InNamed named)
    (isTyped hasProperty : Bool) :
    T.Secures (plainRoles parent named isTyped hasProperty)
      T.InRoles := by
  unfold plainRoles
  split
  · rename_i s hChosen
    have hSubject := hNamed.about.or hNamed.target
    rw [hChosen] at hSubject
    refine Work.secures_pure ⟨hSubject, optional_none, ?_⟩
    cases isTyped with
    | true => exact hSubject
    | false => exact optional_none
  · split
    · refine (secures_freshSubject hT).bind ?_
      intro s hFresh
      exact Work.secures_pure
        ⟨optional_some hFresh, optional_none, optional_some hFresh⟩
    · split
      · exact Work.secures_pure
          ⟨hParent.object, optional_none, optional_none⟩
      · exact Work.secures_pure
          ⟨optional_none, optional_none, optional_none⟩

theorem secures_relationRoles
    {parent : Scope}
    (hParent : T.InScope parent)
    {named : Named}
    (hNamed : T.InNamed named)
    (isTyped : Bool) :
    T.Secures (relationRoles parent named isTyped) T.InRoles := by
  have hObject :
      T.Secures (relationObject named isTyped) T.Optional := by
    unfold relationObject
    split
    · rename_i s hTarget
      apply Work.secures_pure
      rw [← hTarget]
      exact hNamed.target
    · split
      · refine (secures_freshSubject hT).bind ?_
        intro s hFresh
        exact Work.secures_pure (optional_some hFresh)
      · exact Work.secures_pure optional_none
  unfold relationRoles
  refine hObject.bind ?_
  intro object hFound
  refine Work.secures_pure
    ⟨hNamed.about.or hParent.object, hFound, ?_⟩
  cases isTyped with
  | true => exact hNamed.about.or hFound
  | false => exact optional_none

theorem secures_roles
    {parent : Scope}
    (hParent : T.InScope parent)
    {named : Named}
    (hNamed : T.InNamed named)
    (hasRelations hasProperty isTyped isBare : Bool) :
    T.Secures
      (roles parent named hasRelations hasProperty isTyped isBare)
      T.InRoles := by
  unfold roles
  split
  · exact secures_relationRoles hT hParent hNamed isTyped
  · split
    · exact secures_propertyRoles hT hParent hNamed isTyped
    · exact secures_plainRoles hT hParent hNamed isTyped hasProperty

------------------------------------------------------------
-- The first half of a start tag
------------------------------------------------------------

theorem secures_stateTypes
    {scope : Scope}
    {attributes : Entries}
    (hAdmits : T.Admits scope.environment attributes)
    {typed : Option Subject}
    (hTyped : T.Optional typed) :
    T.Secures (stateTypes scope attributes typed) (fun _ => True) := by
  unfold stateTypes
  split
  · exact Work.secures_pure trivial
  · rename_i node
    have hTypes :
        T.Secures
          (Resolution.terms scope
            ((attributes.get? "typeof").getD ""))
          (fun found => ∀ c ∈ found, T.type c) := by
      apply secures_tokens hT
      cases hTypeof : attributes.get? "typeof" with
      | some value => exact hAdmits.type value hTypeof
      | none =>
          intro token hMem
          cases hMem
    refine hTypes.bind ?_
    intro types hTypes
    apply Work.secures_forEach
    intro c hMem
    apply secures_state
    intro s hSubject o hObject
    cases hSubject
    cases hObject
    exact hT.typing node c (hTyped node rfl) (hTypes c hMem)

/- Tokens of relations are among the words of their attribute. -/
theorem secures_relations
    {scope : Scope}
    {attributes : Entries}
    (hAdmits : T.Admits scope.environment attributes)
    (settings : Settings)
    {key : String}
    (hKey : key ∈ ["rel", "rev", "property"]) :
    T.Secures
      (relationTerms scope (relationTokens settings attributes key))
      (fun found => ∀ i ∈ found, T.predicate i) := by
  apply secures_tokens hT
  intro token hMem i hNamed
  unfold relationTokens at hMem
  cases hValue : attributes.get? key with
  | none =>
      rw [hValue] at hMem
      cases hMem
  | some value =>
      have hWord : token ∈ Text.words value := by
        simp only [hValue] at hMem
        split at hMem
        · split at hMem
          · cases hMem
          · exact (List.mem_filter.mp hMem).1
        · exact hMem
      exact hAdmits.predicate key hKey value hValue token hWord i hNamed

/- What is read of a start tag that meets a standard. -/
structure InReading
    (T : Standard)
    (attributes : Entries)
    (tag : Reading) : Prop where
  admits : T.Admits tag.scope.environment attributes
  scope : T.InScope tag.scope
  rel : ∀ i ∈ tag.rel, T.predicate i
  rev : ∀ i ∈ tag.rev, T.predicate i
  named : T.InNamed tag.named
  parts : T.InRoles tag.parts

theorem secures_readTag
    (settings : Settings)
    {parent : Scope}
    (hParent : T.InScope parent)
    (isRoot : Bool)
    (name : String)
    {attributes : Entries}
    (hAdmits :
      ∀ x,
        Environment.declare settings.media attributes
            parent.environment =
          .ok x →
        T.Admits x attributes) :
    T.Secures (readTag settings parent isRoot name attributes)
      (T.InReading attributes) := by
  unfold readTag
  refine (secures_readScope hT settings hParent attributes).bind ?_
  rintro scope ⟨hScope, hDeclares⟩
  have hHere := hAdmits _ hDeclares
  refine (secures_relations hT hHere settings (by simp)).bind ?_
  intro rel hRel
  refine (secures_relations hT hHere settings (by simp)).bind ?_
  intro rev hRev
  refine (secures_readNamed hT settings hParent scope isRoot name
    attributes).bind ?_
  intro named hNamed
  refine (secures_roles hT hParent hNamed _ _ _ _).bind ?_
  intro parts hParts
  refine (secures_stateTypes hT hHere hParts.typed).bind ?_
  intro _ _
  exact Work.secures_pure ⟨hHere, hScope, hRel, hRev, hNamed, hParts⟩

------------------------------------------------------------
-- Relations
------------------------------------------------------------

theorem secures_stateOrList
    {subject : Option Subject}
    (hSubject : T.Optional subject)
    (list : Nat)
    (inList : Bool)
    {value : Object}
    (hValue : T.object value)
    {predicate : Iri}
    (hPredicate : T.predicate predicate) :
    T.Secures (stateOrList subject list inList value predicate)
      (fun _ => True) := by
  unfold stateOrList
  split
  · exact secures_appendToList list hPredicate hValue
  · apply secures_state
    intro s hMem o hMember
    cases hMember
    exact hT.relation s predicate value (hSubject s hMem) hPredicate
      hValue

/- The two directions in which a relation is stated. -/
theorem secures_state_forward
    {subject : Option Subject}
    (hSubject : T.Optional subject)
    {object : Subject}
    (hObject : T.subject object)
    {p : Iri}
    (hPredicate : T.predicate p) :
    T.Secures (Work.state subject p (some object.toObject))
      (fun _ => True) := by
  apply secures_state
  intro s hMem o hMember
  cases hMember
  exact hT.relation s p _ (hSubject s hMem) hPredicate
    (hT.toObject object hObject)

theorem secures_state_reverse
    {subject : Option Subject}
    (hSubject : T.Optional subject)
    {object : Subject}
    (hObject : T.subject object)
    {p : Iri}
    (hPredicate : T.predicate p) :
    T.Secures
      (Work.state (some object) p (subject.map Subject.toObject))
      (fun _ => True) := by
  apply secures_state
  intro s hMem o hMember
  cases hMem
  rcases Option.map_eq_some_iff.mp hMember with ⟨x, hSome, rfl⟩
  exact hT.relation object p _ hObject hPredicate
    (hT.toObject x (hSubject x hSome))

theorem secures_relate
    {parts : Roles}
    (hParts : T.InRoles parts)
    (list : Nat)
    (inList : Bool)
    {rel rev : List Iri}
    (hRel : ∀ i ∈ rel, T.predicate i)
    (hRev : ∀ i ∈ rev, T.predicate i) :
    T.Secures (relate parts list inList rel rev)
      (fun incomplete =>
        ∀ w ∈ incomplete, T.predicate w.predicate) := by
  unfold relate
  split
  · rename_i object hObject
    have hNode : T.subject object := hParts.object object hObject
    have hStates :
        T.Secures
          (stateRelations parts.subject object list inList rel rev)
          (fun _ => True) := by
      have hForward :
          T.Secures
            (Work.forEach
              (stateOrList parts.subject list inList object.toObject)
              rel)
            (fun _ => True) := by
        apply Work.secures_forEach
        intro p hMem
        exact secures_stateOrList hT hParts.subject list inList
          (hT.toObject object hNode) (hRel p hMem)
      refine hForward.bind ?_
      intro _ _
      apply Work.secures_forEach
      intro p hMem
      exact secures_state_reverse hT hParts.subject hNode (hRev p hMem)
    exact hStates.bind (fun _ _ => Work.secures_pure (by simp))
  · unfold awaitRelations
    have hEnsures :
        T.Secures (ensureLists list inList rel) (fun _ => True) := by
      unfold ensureLists
      split
      · apply Work.secures_forEach
        intro p hMem
        exact secures_ensureList list (hRel p hMem)
      · exact Work.secures_pure trivial
    refine hEnsures.bind ?_
    intro _ _
    apply Work.secures_pure
    intro w hMem
    rcases List.mem_append.mp hMem with hForward | hReverse
    · rcases List.mem_map.mp hForward with ⟨p, hHere, rfl⟩
      split <;> exact hRel p hHere
    · rcases List.mem_map.mp hReverse with ⟨p, hHere, rfl⟩
      exact hRev p hHere

theorem secures_passedObject
    {parts : Roles}
    (hParts : T.InRoles parts)
    (rel rev : List Iri) :
    T.Secures (passedObject parts rel rev) T.Optional := by
  unfold passedObject
  split
  · refine (secures_freshSubject hT).bind ?_
    intro s hFresh
    exact Work.secures_pure (optional_some hFresh)
  · exact Work.secures_pure hParts.object

theorem secures_completeRelations
    {parent : Scope}
    (hParent : T.InScope parent)
    {node : Option Subject}
    (hNode : T.Optional node) :
    T.Secures (completeRelations parent node) (fun _ => True) := by
  unfold completeRelations
  split
  · exact Work.secures_pure trivial
  · rename_i s
    have hSubject := hNode s rfl
    apply Work.secures_forEach
    intro w hMem
    have hPredicate := hParent.incomplete w hMem
    cases w with
    | forward p =>
        exact secures_state_forward hT hParent.subject hSubject
          hPredicate
    | reverse p =>
        exact secures_state_reverse hT hParent.subject hSubject
          hPredicate
    | listed p list =>
        exact secures_appendToList list hPredicate
          (hT.toObject s hSubject)

------------------------------------------------------------
-- Values
------------------------------------------------------------

theorem secures_plainLiteral
    (value : String)
    (language : Option String) :
    T.Secures (plainLiteral value language)
      (fun l => T.object (.literal l)) := by
  unfold plainLiteral
  split
  · rename_i l hMake
    exact Work.secures_pure (hT.plain value language l hMake)
  · refine (secures_remark _).bind ?_
    intro _ _
    exact Work.secures_ofOutcome (hT.plain value none)

theorem secures_contentLiteral
    (content : String)
    (mayInfer : Bool)
    (language : Option String) :
    T.Secures (contentLiteral content mayInfer language)
      (fun l => T.object (.literal l)) := by
  unfold contentLiteral
  split
  · rename_i d hInferred
    apply Work.secures_ofOutcome
    intro l hMake
    cases hMake
    apply hT.moment
    cases mayInfer with
    | true => exact hInferred
    | false => cases hInferred
  · exact secures_plainLiteral hT content language

theorem secures_typedLiteral
    (value : String)
    {d : Iri}
    (hDatatype : T.datatype d) :
    T.Secures (typedLiteral value d)
      (fun l => T.object (.literal l)) := by
  apply Work.secures_ofOutcome
  intro l hMake
  cases hMake
  exact hT.typed value d hDatatype

theorem secures_readDatatype
    {scope : Scope}
    {attributes : Entries}
    (hAdmits : T.Admits scope.environment attributes) :
    T.Secures (readDatatype scope (attributes.get? "datatype"))
      (fun found => ∀ d ∈ found, T.datatype d) := by
  unfold readDatatype
  split
  · exact Work.secures_pure (by simp)
  · rename_i value hGiven
    dsimp only
    split
    · exact Work.secures_pure (by simp)
    · refine (secures_term hT scope _).mono ?_
      rintro _ rfl d hNamed
      exact hAdmits.datatype value hGiven d hNamed

/- A value that is found, or one that waits for content. -/
def InValue
    (T : Standard)
    (found : Except Pending Object) : Prop :=
  match found with
  | .ok o => T.object o
  | .error p => T.InPending p

theorem secures_propertyValue
    (settings : Settings)
    (name : String)
    {attributes : Entries}
    {scope : Scope}
    (hAdmits : T.Admits scope.environment attributes)
    {named : Named}
    (hNamed : T.InNamed named)
    {typed : Option Subject}
    (hTyped : T.Optional typed)
    (hasRelations : Bool)
    {pending : Pending}
    (hPending : T.InPending pending) :
    T.Secures
      (propertyValue settings name attributes scope named typed
        hasRelations pending)
      T.InValue := by
  have hKnown :
      ∀ literal : Work Literal,
        T.Secures literal (fun l => T.object (.literal l)) →
          T.Secures
            (do
              let l ← literal
              return (.ok (.literal l) : Except Pending Object))
            T.InValue :=
    fun literal h => h.bind (fun l hl => Work.secures_pure hl)
  unfold propertyValue
  dsimp only
  refine (secures_readDatatype hT hAdmits).bind ?_
  intro datatype hDatatype
  split
  · rename_i d
    have hWaits : ∀ e ∈ some d, T.datatype e := hDatatype
    split
    · exact Work.secures_pure
        ⟨hPending.subject, hPending.predicates, hWaits⟩
    · split
      · exact Work.secures_pure
          ⟨hPending.subject, hPending.predicates, hWaits⟩
      · exact hKnown _
          (secures_typedLiteral hT _ (hDatatype d rfl))
  · split
    · split
      · exact Work.secures_pure hPending
      · exact hKnown _ (secures_plainLiteral hT _ _)
    · split
      · exact hKnown _ (secures_contentLiteral hT _ _ _)
      · split
        · rename_i node hTarget
          apply Work.secures_pure
          refine hT.toObject node (hNamed.target node ?_)
          split at hTarget
          · cases hTarget
          · exact hTarget
        · split
          · rename_i node hOwn
            apply Work.secures_pure
            refine hT.toObject node (hTyped node ?_)
            split at hOwn
            · exact hOwn
            · cases hOwn
          · exact Work.secures_pure
              ⟨hPending.subject, hPending.predicates,
                hPending.datatype⟩

theorem secures_stateValue
    {subject : Subject}
    (hSubject : T.subject subject)
    (list : Nat)
    (inList : Bool)
    {value : Object}
    (hValue : T.object value)
    {predicates : List Iri}
    (hPredicates : ∀ i ∈ predicates, T.predicate i) :
    T.Secures (stateValue subject list inList value predicates)
      (fun _ => True) := by
  apply Work.secures_forEach
  intro p hMem
  exact secures_stateOrList hT (optional_some hSubject) list inList
    hValue (hPredicates p hMem)

theorem secures_readProperty
    (settings : Settings)
    (name : String)
    {attributes : Entries}
    {tag : Reading}
    (hTag : T.InReading attributes tag)
    (list : Nat)
    (inList : Bool) :
    T.Secures
      (readProperty settings name attributes tag.scope tag.named
        tag.parts list inList tag.hasRelations)
      (fun pending => ∀ p ∈ pending, T.InPending p) := by
  have hNothing :
      T.Secures (pure none : Work (Option Pending))
        (fun pending => ∀ p ∈ pending, T.InPending p) :=
    Work.secures_pure (by simp)
  unfold readProperty
  split
  · rename_i value subject hValue hSubject
    have hOwn : T.subject subject := hTag.parts.subject subject hSubject
    refine (secures_tokens hT (hTag.admits.predicate "property"
      (by simp) value hValue)).bind ?_
    intro predicates hPredicates
    split
    · exact hNothing
    · dsimp only
      refine (secures_propertyValue hT settings name hTag.admits
        hTag.named hTag.parts.typed tag.hasRelations
        ⟨hOwn, hPredicates, by simp⟩).bind ?_
      intro found hFound
      cases found with
      | error waiting =>
          apply Work.secures_pure
          intro p hMem
          cases hMem
          exact hFound
      | ok object =>
          exact (secures_stateValue hT hOwn list inList hFound
            hPredicates).bind (fun _ _ => hNothing)
  · exact hNothing

------------------------------------------------------------
-- Elements
------------------------------------------------------------

theorem secures_buildElement
    (settings : Settings)
    {parent : Scope}
    (hParent : T.InScope parent)
    (name : String)
    {attributes : Entries}
    {tag : Reading}
    (hTag : T.InReading attributes tag) :
    T.Secures (buildElement settings parent name attributes tag)
      T.InElement := by
  unfold buildElement
  have hList :
      T.Secures (listFor settings parent tag.parts.subject)
        (fun _ => True) := by
    unfold listFor
    split
    · exact secures_rootList _
    · exact secures_childList _
  refine hList.bind ?_
  intro list _
  refine (secures_relate hT hTag.parts list _ hTag.rel
    hTag.rev).bind ?_
  intro incomplete hIncomplete
  refine (secures_passedObject hT hTag.parts tag.rel tag.rev).bind ?_
  intro object hObject
  refine (secures_readProperty hT settings name hTag list _).bind ?_
  intro pending hPending
  unfold enclose
  split
  · exact Work.secures_pure
      ⟨hTag.scope, hTag.parts.subject, hPending⟩
  · refine (secures_completeRelations hT hParent
      hTag.parts.subject).bind ?_
    intro _ _
    refine Work.secures_pure ⟨?_, hTag.parts.subject, hPending⟩
    exact
      { subject := hTag.parts.subject.or hParent.subject
        object := (hObject.or hTag.parts.subject).or hParent.subject
        incomplete := hIncomplete }

/- A start tag meets a standard that admits its attributes. -/
theorem secures_openElement
    (settings : Settings)
    {parent : Scope}
    (hParent : T.InScope parent)
    (isRoot : Bool)
    (name : String)
    {attributes : Entries}
    (hAdmits :
      ∀ x,
        Environment.declare settings.media attributes
            parent.environment =
          .ok x →
        T.Admits x attributes) :
    T.Secures (openElement settings parent isRoot name attributes)
      T.InElement := by
  rw [openElement_eq]
  refine (secures_readTag hT settings hParent isRoot name
    hAdmits).bind ?_
  intro tag hTag
  exact secures_buildElement hT settings hParent name hTag

end Steps

end Standard
end LinkedMarkup
