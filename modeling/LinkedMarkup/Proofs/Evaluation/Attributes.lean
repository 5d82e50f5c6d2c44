import LinkedMarkup.Annotation.Evaluation.Roles
import LinkedMarkup.Proofs.Coupling.Resolution
import LinkedMarkup.Proofs.Work.Ensures

/-
  This file proves what reading the attributes of an element
  gives: which parts of the scope around it stay in force,
  and when its subject is known.

  Key definitions include:
    * `Evaluation.Keeps`
    * `Evaluation.NamesDocument`
    * `Evaluation.Settled`

  Main declarations:
    * `Evaluation.readScope_yields`
    * `Evaluation.readNamed_yields_root`
    * `Evaluation.roles_yields`
-/

namespace LinkedMarkup
namespace Evaluation

open Work

------------------------------------------------------------
-- Scopes
------------------------------------------------------------

/- A scope with the nodes and lists of the one around it. -/
structure Keeps
    (parent scope : Scope) : Prop where
  subject : scope.subject = parent.subject
  object : scope.object = parent.object
  list : scope.list = parent.list
  incomplete : scope.incomplete = parent.incomplete

/- An element keeps the nodes and lists around it in force. -/
theorem readScope_yields
    (settings : Settings)
    (parent : Scope)
    (attributes : Entries) :
    (readScope settings parent attributes).Yields (Keeps parent) := by
  unfold readScope
  apply yields_bind
  intro base
  apply yields_bind
  intro vocab
  exact yields_pure ⟨rfl, rfl, rfl, rfl⟩

/- In HTML no attribute changes the base. -/
theorem readScope_base
    {settings : Settings}
    (hHtml : settings.isHtml = true)
    (parent : Scope)
    (attributes : Entries) :
    (readScope settings parent attributes).Yields
      (fun scope => scope.base = parent.base) := by
  have hBase :
      readBase settings parent attributes = .ok parent.base := by
    unfold readBase
    rw [hHtml]
    cases attributes.get? "xml:base" <;> rfl
  unfold readScope
  rw [hBase]
  refine Yields.bind (P := fun base => base = parent.base) ?_ ?_
  · intro s base t hRun
    cases hRun
    rfl
  · rintro base rfl
    apply yields_bind
    intro vocab
    exact yields_pure rfl

------------------------------------------------------------
-- Named nodes
------------------------------------------------------------

/- A base that is an IRI once its fragment is taken off. -/
def NamesDocument
    (base : String) : Prop :=
  ∃ document iri,
    Iri.withoutFragment base = .ok document ∧
      Iri.parse? document = some iri

/- The root is about something, at least about the document. -/
theorem readAbout_yields_root
    {scope : Scope}
    (hBase : NamesDocument scope.base)
    (settings : Settings)
    (parent : Scope)
    (name : String)
    (attributes : Entries) :
    (readAbout settings parent scope true name attributes).Yields
      (fun about => about.isSome = true) := by
  rcases hBase with ⟨document, iri, hDocument, hIri⟩
  unfold readAbout
  apply yields_bind
  intro given
  cases given with
  | some subject => exact yields_pure rfl
  | none =>
      intro s about t hRun
      have hEmpty :=
        Resolution.resource_empty hDocument hIri s
      dsimp only [if_true] at hRun
      rw [if_pos rfl, hEmpty] at hRun
      cases hRun
      rfl

theorem readNamed_yields_root
    {scope : Scope}
    (hBase : NamesDocument scope.base)
    (settings : Settings)
    (parent : Scope)
    (name : String)
    (attributes : Entries) :
    (readNamed settings parent scope true name attributes).Yields
      (fun named => named.about.isSome = true) := by
  unfold readNamed
  refine (readAbout_yields_root hBase settings parent name
    attributes).bind ?_
  intro about hAbout
  apply yields_bind
  intro resource
  apply yields_bind
  intro href
  apply yields_bind
  intro src
  exact yields_pure hAbout

------------------------------------------------------------
-- Roles
------------------------------------------------------------

/-
  Parts that are settled: there is a subject if the element
  is about something or there is an object around it, and an
  element that only passes on has that object as its subject.
-/
structure Settled
    (parent : Scope)
    (named : Named)
    (parts : Roles) : Prop where
  subject :
    named.about.isSome = true ∨ parent.object.isSome = true →
      parts.subject.isSome = true
  skips :
    parts.skips = true →
      parts.subject = parent.object ∧
        parent.object.isSome = true ∧ parts.object = none

/- What an element is about, or else the object around it. -/
theorem isSome_about_or
    {parent : Scope}
    {named : Named}
    (h : named.about.isSome = true ∨ parent.object.isSome = true) :
    (named.about.or parent.object).isSome = true := by
  rw [Option.isSome_or]
  rcases h with hAbout | hObject
  · rw [hAbout, Bool.true_or]
  · rw [hObject, Bool.or_true]

theorem propertyRoles_yields
    (parent : Scope)
    (named : Named)
    (isTyped : Bool) :
    (propertyRoles parent named isTyped).Yields
      (Settled parent named) := by
  unfold propertyRoles
  dsimp only
  split
  · apply yields_bind
    intro typed
    exact yields_pure ⟨isSome_about_or, by simp⟩
  · exact yields_pure ⟨isSome_about_or, by simp⟩

theorem plainRoles_yields
    (parent : Scope)
    (named : Named)
    (isTyped hasProperty : Bool) :
    (plainRoles parent named isTyped hasProperty).Yields
      (Settled parent named) := by
  unfold plainRoles
  split
  · exact yields_pure ⟨fun _ => rfl, by simp⟩
  · rename_i hNone
    split
    · apply yields_bind
      intro s
      exact yields_pure ⟨fun _ => rfl, by simp⟩
    · split
      · rename_i hObject
        exact yields_pure
          ⟨fun _ => hObject, fun _ => ⟨rfl, hObject, rfl⟩⟩
      · rename_i hObject
        refine yields_pure ⟨?_, by simp⟩
        have hAbout : named.about = none :=
          (Option.or_eq_none_iff.mp hNone).1
        simp [hAbout, hObject]

theorem relationRoles_yields
    (parent : Scope)
    (named : Named)
    (isTyped : Bool) :
    (relationRoles parent named isTyped).Yields
      (Settled parent named) := by
  unfold relationRoles
  apply yields_bind
  intro object
  exact yields_pure ⟨isSome_about_or, by simp⟩

theorem roles_yields
    (parent : Scope)
    (named : Named)
    (hasRelations hasProperty isTyped isBare : Bool) :
    (roles parent named hasRelations hasProperty isTyped
      isBare).Yields (Settled parent named) := by
  unfold roles
  split
  · exact relationRoles_yields parent named isTyped
  · split
    · exact propertyRoles_yields parent named isTyped
    · exact plainRoles_yields parent named isTyped hasProperty

end Evaluation
end LinkedMarkup
