import LinkedMarkup.Proofs.Evaluation.Resources
import LinkedMarkup.Proofs.Evaluation.Values

/-
  This file proves which node a start tag without relations
  takes as its subject, and types: the first that it names, if
  what stands in for `about` counts as one that `about` names.
  This is only another order if that displaces a node.

  Key definitions include:
    * `Evaluation.InEffect`
    * `Evaluation.StandsApart`
    * `Evaluation.Named.first`
    * `Evaluation.Takes`
    * `Evaluation.Displaced`
    * `Evaluation.TypesNoted`

  Main declarations:
    * `Evaluation.relationTokens_eq_none_iff`
    * `Evaluation.takes_first_iff`
    * `Evaluation.plainRoles_takes`
    * `Evaluation.readTag_takes`
-/

namespace LinkedMarkup

/- The IRIs that `typeof` names, in order. -/
def Environment.types
    (x : Environment)
    (attributes : Entries) : List Iri :=
  (Text.words ((attributes.get? "typeof").getD "")).filterMap x.named?

namespace Evaluation

open Work

------------------------------------------------------------
-- Start tags without relations
------------------------------------------------------------

/-
  Whether `rel` or `rev` is in effect: beside a property,
  HTML only counts it if a token holds a colon.
-/
def InEffect
    (settings : Settings)
    (attributes : Entries)
    (key : String) : Prop :=
  ∃ value,
    attributes.get? key = some value ∧
      (settings.isHtml = true → attributes.has "property" = true →
        ∃ token ∈ Text.words value, ':' ∈ token.toList)

theorem relationTokens_eq_none_iff
    (settings : Settings)
    (attributes : Entries)
    (key : String) :
    relationTokens settings attributes key = none ↔
      ¬ InEffect settings attributes key := by
  unfold relationTokens InEffect
  cases attributes.get? key with
  | none => simp
  | some value =>
      have hTokens :
          colonTokens value = [] ↔
            ¬ ∃ token ∈ Text.words value, ':' ∈ token.toList := by
        simp [colonTokens, List.filter_eq_nil_iff]
      by_cases hBeside :
          (settings.isHtml && attributes.has "property") = true
      · rw [Bool.and_eq_true] at hBeside
        simp only [hBeside.1, hBeside.2, Bool.and_self, if_true]
        cases hColon : colonTokens value with
        | nil => simpa using hTokens.mp hColon
        | cons token rest =>
            simpa using hTokens.not.mp (by simp [hColon])
      · have hEither :
            settings.isHtml = true →
              ¬ attributes.has "property" = true :=
          fun hHtml hProperty => hBeside (by simp [hHtml, hProperty])
        simp only [if_neg hBeside]
        refine iff_of_false (by simp) (not_not.mpr ?_)
        exact
          ⟨value, rfl,
            fun hHtml hProperty => absurd hProperty (hEither hHtml)⟩

/-
  A start tag whose property, if it has one, gets its value
  apart from the nodes that are named: as a text that is
  given, or of a datatype.
-/
def StandsApart
    (settings : Settings)
    (attributes : Entries) : Prop :=
  attributes.has "property" = true →
    attributes.has "content" = true ∨
      (settings.isHtml = true ∧ attributes.has "datetime" = true) ∨
      attributes.has "datatype" = true

theorem StandsApart.not_bare
    {settings : Settings}
    {attributes : Entries}
    (h : StandsApart settings attributes) :
    (attributes.has "property" &&
        ((explicitContent settings attributes).1.isNone &&
          !attributes.has "datatype")) = false := by
  cases hProperty : attributes.has "property" with
  | false => rfl
  | true =>
      rcases h hProperty with hContent | ⟨hHtml, hTime⟩ | hDatatype
      · rcases Option.isSome_iff_exists.mp hContent with ⟨value, hSome⟩
        simp [explicitContent, hSome]
      · rcases Option.isSome_iff_exists.mp hTime with ⟨value, hSome⟩
        unfold explicitContent
        cases attributes.get? "content" <;> simp [hHtml, hSome]
      · simp [hDatatype]

/- Such a start tag has the roles of one without a property. -/
theorem roles_of_standsApart
    {settings : Settings}
    {attributes : Entries}
    (h : StandsApart settings attributes)
    (parent : Scope)
    (named : Named) :
    roles parent named false (attributes.has "property")
        (attributes.has "typeof")
        ((explicitContent settings attributes).1.isNone &&
          !attributes.has "datatype") =
      plainRoles parent named (attributes.has "typeof")
        (attributes.has "property") := by
  unfold roles
  rw [h.not_bare]
  rfl

------------------------------------------------------------
-- Subjects
------------------------------------------------------------

/- The first node that is named, in the order of precedence. -/
def Named.first
    (n : Named) : Option Subject :=
  n.about.or n.target

/-
  What an element may have as its subject: the node that is
  chosen for it; without one, a new node if it is typed,
  otherwise what is around it.
-/
inductive Takes
    (before after : NodeSupply)
    (around : Option Subject)
    (isTyped : Bool)
    (chosen : Option Subject) : Option Subject → Prop where
  | chosen
      {node : Subject}
      (hChosen : chosen = some node) :
      Takes before after around isTyped chosen (some node)
  | made
      {b : BlankNode}
      (hNone : chosen = none)
      (hTyped : isTyped = true)
      (hNew : NodeSupply.IsNew before after b) :
      Takes before after around isTyped chosen (some (.blank b))
  | around
      (hNone : chosen = none)
      (hTyped : isTyped = false) :
      Takes before after around isTyped chosen around

/-
  A node that `resource`, `href` or `src` names is displaced:
  `about` names none, and what stands in for it is another one
  and comes first.
-/
def Displaced
    (n : Named)
    (standIn : Option Subject) : Prop :=
  n.about = none ∧
    ∃ node other,
      standIn = some node ∧ n.target = some other ∧ node ≠ other

/- Otherwise it does not matter where the stand-in comes. -/
theorem first_completed_iff
    (n : Named)
    (standIn : Option Subject) :
    (n.completed standIn).first = n.first.or standIn ↔
      ¬ Displaced n standIn := by
  unfold Displaced
  have hTarget : (n.completed standIn).target = n.target := rfl
  unfold Named.first
  rw [hTarget]
  unfold Named.completed
  cases n.about with
  | some about => simp
  | none =>
      cases standIn with
      | none => simp
      | some node =>
          cases n.target with
          | none => simp
          | some other => simp

section Taking

variable {before after : NodeSupply}
variable {around chosen subject : Option Subject}
variable {isTyped : Bool}

theorem Takes.mono
    {s t : NodeSupply}
    (h : Takes s t around isTyped chosen subject)
    (hBefore : before.Extends s)
    (hAfter : t.Extends after) :
    Takes before after around isTyped chosen subject := by
  cases h with
  | chosen hChosen => exact .chosen hChosen
  | made hNone hTyped hNew =>
      exact .made hNone hTyped (hNew.mono hBefore hAfter)
  | around hNone hTyped => exact .around hNone hTyped

/- A typed element has a subject. -/
theorem Takes.isSome
    (h : Takes before after around true chosen subject) :
    ∃ node, subject = some node := by
  cases h with
  | chosen _ => exact ⟨_, rfl⟩
  | made _ _ _ => exact ⟨_, rfl⟩
  | around _ hTyped => cases hTyped

/- A node that is chosen is the only one that can be taken. -/
theorem takes_some_iff
    {node : Subject} :
    Takes before after around isTyped (some node) subject ↔
      subject = some node := by
  constructor
  · intro h
    cases h with
    | chosen hChosen => exact hChosen.symm
    | made hNone _ _ => cases hNone
    | around hNone _ => cases hNone
  · rintro rfl
    exact .chosen rfl

/-
  An element that takes what comes first with a stand-in for
  `about` takes what comes first without it, and the stand-in
  after that, unless a node is displaced.
-/
theorem takes_first_iff
    {n : Named}
    {standIn : Option Subject}
    (h :
      Takes before after around isTyped (n.completed standIn).first
        subject) :
    Takes before after around isTyped (n.first.or standIn) subject ↔
      ¬ Displaced n standIn := by
  constructor
  · rintro hFirst ⟨hAbout, node, other, rfl, hTarget, hNe⟩
    have hCompleted :
        (n.completed (some node)).first = some node := by
      simp [Named.first, Named.completed, hAbout]
    have hOrder : n.first.or (some node) = some other := by
      simp [Named.first, hAbout, hTarget]
    rw [hCompleted, takes_some_iff] at h
    rw [hOrder, takes_some_iff, h] at hFirst
    exact hNe (Option.some.inj hFirst)
  · intro hDisplaced
    rw [← (first_completed_iff n standIn).mpr hDisplaced]
    exact h

end Taking

------------------------------------------------------------
-- Roles and types
------------------------------------------------------------

/- The notes that a node is of some types. -/
def typeNotes
    (node : Subject)
    (types : List Iri) : List Note :=
  types.map (fun i => .quad (.triple node Rdf.type (.iri i)))

/- What is typed is stated to be of each type, one after the other. -/
theorem stateTypes_notes
    (scope : Scope)
    (attributes : Entries)
    (node : Subject)
    (s : Session) :
    (stateTypes scope attributes (some node)).Ensures s
      (fun _ t =>
        typeNotes node (scope.environment.types attributes) <:+:
          t.notes.toList) := by
  unfold stateTypes
  refine (Resolution.terms_yields scope _ s).bind ?_
  rintro _ m rfl
  have hTells :
      (forEach
        (fun i => Work.state (some node) Rdf.type (some (.iri i)))
        (scope.environment.types attributes)).Tells m ()
          (typeNotes node (scope.environment.types attributes)) :=
    tells_forEach
      (fun i _ t _ => tells_state node Rdf.type (.iri i) t)
  intro u t hRun
  cases hTells.symm.trans hRun
  rw [Session.notes_told]
  exact (List.suffix_append _ _).isInfix

/- The types that a start tag has, if any, are noted of its subject. -/
def TypesNoted
    (x : Environment)
    (attributes : Entries)
    (subject : Option Subject)
    (notes : List Note) : Prop :=
  attributes.has "typeof" = true →
    ∃ node,
      subject = some node ∧ typeNotes node (x.types attributes) <:+: notes

theorem TypesNoted.mono
    {x : Environment}
    {attributes : Entries}
    {subject : Option Subject}
    {notes more : List Note}
    (h : TypesNoted x attributes subject notes)
    (hNotes : notes <+: more) :
    TypesNoted x attributes subject more := by
  intro hHas
  rcases h hHas with ⟨node, hNode, hTypes⟩
  exact ⟨node, hNode, hTypes.trans hNotes.isInfix⟩

/- Typing the subject that is taken, if there are types, notes them. -/
theorem stateTypes_takes
    {attributes : Entries}
    {parts : Roles}
    {before after : NodeSupply}
    {around chosen : Option Subject}
    (hTakes :
      Takes before after around (attributes.has "typeof") chosen
        parts.subject)
    (hTyped :
      parts.typed =
        if attributes.has "typeof" then parts.subject else none)
    (scope : Scope)
    (s : Session) :
    (stateTypes scope attributes parts.typed).Ensures s
      (fun _ t =>
        TypesNoted scope.environment attributes parts.subject
          t.notes.toList) := by
  unfold TypesNoted
  cases hHas : attributes.has "typeof" with
  | false => exact fun _ _ _ hTrue => nomatch hTrue
  | true =>
      rw [hHas] at hTakes hTyped
      rcases hTakes.isSome with ⟨node, hSubject⟩
      rw [hTyped, if_pos rfl, hSubject]
      exact
        (stateTypes_notes scope attributes node s).mono
          (fun _ _ hNotes _ => ⟨node, rfl, hNotes⟩)

/-
  The roles without relations: what is named comes first, and
  what is typed is the subject.
-/
theorem plainRoles_takes
    (parent : Scope)
    (named : Named)
    (isTyped hasProperty : Bool)
    {s : Session}
    (hBounded : s.supply.Bounded) :
    (plainRoles parent named isTyped hasProperty).Ensures s
      (fun parts t =>
        Takes s.supply t.supply parent.object isTyped named.first
            parts.subject ∧
          parts.typed = if isTyped then parts.subject else none) := by
  have hChosen : named.about.or named.target = named.first := rfl
  unfold plainRoles
  rw [hChosen]
  cases named.first with
  | some node =>
      apply ensures_pure
      exact ⟨.chosen rfl, rfl⟩
  | none =>
      cases isTyped with
      | true =>
          intro parts t hRun
          cases hRun
          exact
            ⟨.made rfl rfl (NodeSupply.isNew_fresh hBounded (.refl _)),
              rfl⟩
      | false =>
          cases hAround : parent.object with
          | some node =>
              apply ensures_pure
              exact ⟨.around rfl rfl, rfl⟩
          | none =>
              apply ensures_pure
              exact ⟨.around rfl rfl, rfl⟩

------------------------------------------------------------
-- Start tags
------------------------------------------------------------

theorem readTag_unrelated
    {settings : Settings}
    {attributes : Entries}
    (hRel : ¬ InEffect settings attributes "rel")
    (hRev : ¬ InEffect settings attributes "rev")
    (parent : Scope)
    (isRoot : Bool)
    (name : String) :
    (readTag settings parent isRoot name attributes).Yields
      (fun tag => tag.rel = [] ∧ tag.rev = []) := by
  rw [← relationTokens_eq_none_iff] at hRel hRev
  unfold readTag
  rw [hRel, hRev]
  apply yields_bind
  intro scope
  refine (yields_pure (P := fun rel => rel = []) rfl).bind ?_
  rintro _ rfl
  refine (yields_pure (P := fun rev => rev = []) rfl).bind ?_
  rintro _ rfl
  apply yields_bind
  intro named
  apply yields_bind
  intro parts
  apply yields_bind
  intro _
  exact yields_pure ⟨rfl, rfl⟩

/-
  The first half of a start tag takes a subject: the first
  node of those that its attributes name, with what stands in
  for `about`, whenever their labels are looked up. Its types
  are noted of the subject.
-/
theorem readTag_takes
    {settings : Settings}
    {attributes : Entries}
    (hRel : ¬ InEffect settings attributes "rel")
    (hRev : ¬ InEffect settings attributes "rev")
    (hApart : StandsApart settings attributes)
    (parent : Scope)
    (isRoot : Bool)
    (name : String)
    {s : Session}
    (hBounded : s.supply.Bounded) :
    (readTag settings parent isRoot name attributes).Ensures s
      (fun tag t =>
        s.Precedes t ∧
          (∀ later, t.supply.Extends later →
            Takes s.supply later parent.object (attributes.has "typeof")
              ((tag.scope.environment.given later attributes).completed
                (standIn? settings parent tag.scope.environment isRoot
                  name attributes)).first
              tag.parts.subject) ∧
          TypesNoted tag.scope.environment attributes
            tag.parts.subject t.notes.toList) := by
  have hNoRel :=
    (relationTokens_eq_none_iff settings attributes "rel").mpr hRel
  have hNoRev :=
    (relationTokens_eq_none_iff settings attributes "rev").mpr hRev
  have hNoTerms :
      ∀ scope : Scope, relationTerms scope none = pure [] :=
    fun _ => rfl
  unfold readTag
  simp only [hNoRel, hNoRev, hNoTerms, pure_bind, Option.isSome_none,
    Bool.or_self, roles_of_standsApart hApart]
  refine (readScope_advances settings parent attributes s).bind ?_
  intro scope s₁ h₁
  refine (readNamed_reads settings parent scope isRoot name attributes
    s₁).bind ?_
  rintro named s₂ ⟨h₂, hNamed⟩
  have hBefore := h₁.trans h₂
  refine ((plainRoles_advances parent named _ _ s₂).and
    (plainRoles_takes parent named _ _
      (hBefore.bounded hBounded))).bind ?_
  rintro parts s₃ ⟨h₃, hTakes, hTyped⟩
  refine ((stateTypes_advances scope attributes parts.typed s₃).and
    (stateTypes_takes hTakes hTyped scope s₃)).bind ?_
  rintro _ t ⟨h₄, hNotes⟩
  apply ensures_pure
  refine ⟨(hBefore.trans h₃).trans h₄, ?_, hNotes⟩
  intro later hLater
  have hHere := hTakes.mono hBefore.supply (h₄.supply.trans hLater)
  rw [hNamed later ((h₃.trans h₄).supply.trans hLater)] at hHere
  exact hHere

end Evaluation
end LinkedMarkup
