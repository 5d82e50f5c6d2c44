import LinkedMarkup.Annotation.Evaluation
import LinkedMarkup.Proofs.Coupling.Attributes

/-
  This file proves that corresponding runs find and state
  corresponding values of properties.

  Key definitions include:
    * `Coupling.ValuesMatch`

  Main declarations:
    * `Coupling.stateOrList_coupled`
    * `Coupling.propertyValue_coupled`
    * `Coupling.completeElement_coupled`
-/

namespace LinkedMarkup
namespace Coupling

open Evaluation

variable {C : Coupling} {W : C.World}
variable {settings settings' : Settings}
variable {scope scope' : Scope}

------------------------------------------------------------
-- Literals
------------------------------------------------------------

/- A text is always a literal of no particular type. -/
theorem make_none_none_ne_error
    (value : String)
    (fault : Fault) :
    Literal.make value none none ≠ .error fault := by
  simp [Literal.make]

/- A text is always a literal of any datatype. -/
theorem make_datatype_ne_error
    (value : String)
    (datatype : Iri)
    (fault : Fault) :
    Literal.make value (some datatype) none ≠ .error fault := by
  simp [Literal.make]

theorem plainLiteral_coupled
    (hC : C.Sound)
    (value : String)
    (language : Option String) :
    C.Coupled W (plainLiteral value language)
      (plainLiteral value language) C.Same := by
  unfold plainLiteral
  split
  · exact coupled_pure hC rfl
  · refine (remark_coupled hC _).bind hC ?_
    intro V hV _ _ _
    exact coupled_ofOutcome hC
      (fun fault hFault =>
        absurd hFault (make_none_none_ne_error value fault))

theorem typedLiteral_coupled
    (hC : C.Sound)
    (value : String)
    (datatype : Iri) :
    C.Coupled W (typedLiteral value datatype)
      (typedLiteral value datatype) C.Same :=
  coupled_ofOutcome hC
    (fun fault hFault =>
      absurd hFault (make_datatype_ne_error value datatype fault))

theorem contentLiteral_coupled
    (hC : C.Sound)
    (content : String)
    (mayInfer : Bool)
    (language : Option String) :
    C.Coupled W (contentLiteral content mayInfer language)
      (contentLiteral content mayInfer language) C.Same := by
  unfold contentLiteral
  split
  · exact typedLiteral_coupled hC content _
  · exact plainLiteral_coupled hC content language

theorem readDatatype_coupled
    (hC : C.Sound)
    (hScope : C.ScopesMatch W scope scope')
    (given : Option String) :
    C.Coupled W (readDatatype scope given)
      (readDatatype scope' given) C.Same := by
  unfold readDatatype
  split
  · exact coupled_pure hC rfl
  · rename_i value
    generalize Text.trim value = trimmed
    dsimp only
    split
    · exact coupled_pure hC rfl
    · exact term_coupled hC hScope trimmed

------------------------------------------------------------
-- Stating values
------------------------------------------------------------

theorem stateOrList_coupled
    (hC : C.Sound)
    (hFills : C.Fills)
    {subject subject' : Option Subject}
    {list list' : Nat}
    {value value' : Object}
    (inList : Bool)
    (predicate : Iri)
    (hSubject : C.Optional W subject subject')
    (hList : C.list W list list')
    (hValue : C.ObjectsMatch W value value')
    (hEnds :
      C.AllowsGaps ∨ subject.isSome = true ∨ inList = true) :
    C.Coupled W (stateOrList subject list inList value predicate)
      (stateOrList subject' list' inList value' predicate)
      C.Any := by
  unfold stateOrList
  split
  · exact hFills.append W _ _ predicate _ _ hList hValue
  · rename_i hNotInList
    refine state_coupled hC predicate hSubject (.some hValue) ?_
    rcases hEnds with hGaps | hSome | hInList
    · exact .inl hGaps
    · exact .inr ⟨hSome, rfl⟩
    · exact absurd hInList hNotInList

theorem stateValue_coupled
    (hC : C.Sound)
    (hFills : C.Fills)
    {subject subject' : Subject}
    {list list' : Nat}
    {value value' : Object}
    (inList : Bool)
    (predicates : List Iri)
    (hSubject : C.SubjectsMatch W subject subject')
    (hList : C.list W list list')
    (hValue : C.ObjectsMatch W value value') :
    C.Coupled W (stateValue subject list inList value predicates)
      (stateValue subject' list' inList value' predicates)
      C.Any := by
  unfold stateValue
  apply Coupled.forEach_same hC
  intro V hV predicate _
  exact stateOrList_coupled hC hFills inList predicate
    (.some (hSubject.mono hC hV))
    (hC.list_mono W V _ _ hV hList)
    (hValue.mono hC hV) (.inr (.inl rfl))

------------------------------------------------------------
-- Values
------------------------------------------------------------

/- Values that are known, or that wait for the same content. -/
inductive ValuesMatch
    (C : Coupling)
    (W : C.World) : Except Pending Object → Except Pending Object → Prop where
  | waits {p p' : Pending} (h : C.PendingsMatch W p p') :
      ValuesMatch C W (.error p) (.error p')
  | known {o o' : Object} (h : C.ObjectsMatch W o o') :
      ValuesMatch C W (.ok o) (.ok o')

variable {named named' : Named}
variable {typed typed' : Option Subject}
variable {pending pending' : Pending}

/- A literal is a known value once it is made. -/
theorem known_coupled
    (hC : C.Sound)
    {literal : Work Literal}
    (h : C.Coupled W literal literal C.Same) :
    C.Coupled W
      (do
        let l ← literal
        return .ok (.literal l))
      (do
        let l ← literal
        return .ok (.literal l))
      C.ValuesMatch := by
  apply h.bind hC
  rintro V hV l _ rfl
  exact coupled_pure hC (.known (.literal l))

theorem propertyValue_coupled
    (hC : C.Sound)
    (hSettings : settings.Agree settings')
    (hScope : C.ScopesMatch W scope scope')
    (hNamed : C.NamedMatch W named named')
    (hTyped : C.Optional W typed typed')
    (hPending : C.PendingsMatch W pending pending')
    (name : String)
    (attributes : Entries)
    (hasRelations : Bool) :
    C.Coupled W
      (propertyValue settings name attributes scope named typed
        hasRelations pending)
      (propertyValue settings' name attributes scope' named' typed'
        hasRelations pending')
      C.ValuesMatch := by
  unfold propertyValue
  rw [hSettings.explicitContent_eq attributes]
  dsimp only
  refine (readDatatype_coupled hC hScope _).bind hC ?_
  rintro V hV datatype _ rfl
  have hScope := hScope.mono hC hV
  have hNamed := hNamed.mono hC hV
  have hTyped := hTyped.mono hC hV
  have hPending := hPending.mono hC hV
  rw [← hScope.language, ← hSettings.isHtml]
  split
  · -- A datatype decides the form whatever else is given.
    rename_i d
    split
    · exact coupled_pure hC (.waits
        { hPending with datatype := rfl, keepsMarkup := rfl })
    · split
      · exact coupled_pure hC (.waits
          { hPending with datatype := rfl })
      · exact known_coupled hC (typedLiteral_coupled hC _ _)
  · split
    · split
      · exact coupled_pure hC (.waits hPending)
      · exact known_coupled hC (plainLiteral_coupled hC _ _)
    · split
      · exact known_coupled hC (contentLiteral_coupled hC _ _ _)
      · -- Without content, a node may be the value.
        have hTarget :
            C.Optional V (if hasRelations then none else named.target)
              (if hasRelations then none else named'.target) :=
          Optional.ite .none hNamed.target
        rcases hTarget.none_or_some with
          ⟨hNone, hNone'⟩ | ⟨node, node', hSome, hSome', hNode⟩
        · rw [hNone, hNone']
          dsimp only
          rw [← hNamed.about.isNone_eq]
          have hOwn :
              C.Optional V
                (if attributes.has "typeof" && named.about.isNone then
                  typed
                else
                  none)
                (if attributes.has "typeof" && named.about.isNone then
                  typed'
                else
                  none) :=
            Optional.ite hTyped .none
          rcases hOwn.none_or_some with
            ⟨hNone, hNone'⟩ | ⟨node, node', hSome, hSome', hNode⟩
          · rw [hNone, hNone']
            exact coupled_pure hC (.waits
              { hPending with infersMoment := rfl })
          · rw [hSome, hSome']
            exact coupled_pure hC (.known hNode.toObject)
        · rw [hSome, hSome']
          exact coupled_pure hC (.known hNode.toObject)

------------------------------------------------------------
-- Captured literals
------------------------------------------------------------

/- What waits for content corresponds after the same event. -/
theorem PendingsMatch.capture
    {p p' : Pending}
    (h : C.PendingsMatch W p p')
    (event : Event) :
    C.PendingsMatch W (p.capture event) (p'.capture event) := by
  unfold Pending.capture
  rw [← h.keepsMarkup]
  split
  · exact { h with keepsMarkup := rfl, text := by rw [h.text] }
  · split
    · exact { h with keepsMarkup := rfl, text := by rw [h.text] }
    · exact h

theorem ElementsMatch.capture
    {e e' : Element}
    (h : C.ElementsMatch W e e')
    (event : Event) :
    C.ElementsMatch W (e.capture event) (e'.capture event) := by
  refine { h with pending := ?_ }
  have hPending := h.pending
  unfold Element.capture
  generalize e.pending = p at hPending ⊢
  generalize e'.pending = p' at hPending ⊢
  cases hPending with
  | none => exact .none
  | some hSome => exact .some (hSome.capture event)

theorem capturedLiteral_coupled
    (hC : C.Sound)
    {p p' : Pending}
    (h : C.PendingsMatch W p p') :
    C.Coupled W (capturedLiteral p) (capturedLiteral p')
      C.Same := by
  unfold capturedLiteral
  rw [← h.datatype, ← h.text, ← h.infersMoment, ← h.language]
  split
  · exact typedLiteral_coupled hC _ _
  · exact contentLiteral_coupled hC _ _ _

theorem completePending_coupled
    (hC : C.Sound)
    (hFills : C.Fills)
    {p p' : Pending}
    (h : C.PendingsMatch W p p') :
    C.Coupled W (completePending p) (completePending p') C.Any := by
  unfold completePending
  refine (capturedLiteral_coupled hC h).bind hC ?_
  rintro V hV l _ rfl
  rw [← h.inList, ← h.predicates]
  exact stateValue_coupled hC hFills p.inList p.predicates
    (h.subject.mono hC hV) (hC.list_mono W V _ _ hV h.list)
    (.literal l)

/- Elements that correspond are completed alike. -/
theorem completeElement_coupled
    (hC : C.Sound)
    (hFills : C.Fills)
    {e e' : Element}
    (h : Option.Rel (C.PendingsMatch W) e.pending e'.pending) :
    C.Coupled W (completeElement e) (completeElement e') C.Any := by
  unfold completeElement
  generalize e.pending = p at h ⊢
  generalize e'.pending = p' at h ⊢
  cases h with
  | none => exact coupled_pure hC trivial
  | some hSome => exact completePending_coupled hC hFills hSome

end Coupling
end LinkedMarkup
