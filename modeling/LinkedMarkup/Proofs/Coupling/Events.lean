import LinkedMarkup.Proofs.Coupling.Steps

/-
  This file proves that evaluations which a coupling relates
  as a whole do the same at every event, however that ends:
  a fault leaves sessions that correspond as well, with all
  that was noted and made before it.

  Key definitions include:
    * `Coupling.Alongside`

  Main declarations:
    * `Coupling.Alongside.readEvent`
    * `Coupling.Alongside.process`
-/

namespace LinkedMarkup
namespace Coupling

open Evaluation

variable {C : Coupling} {W : C.World}

------------------------------------------------------------
-- Whole evaluations
------------------------------------------------------------

/- Evaluations that correspond in all that they hold. -/
structure Alongside
    (C : Coupling)
    (W : C.World)
    (d d' : State) : Prop where
  settings : d.settings.Agree d'.settings
  makes : C.MakesFor d.settings d'.settings
  session : C.session W d.fresh d'.fresh
  outer : C.ScopesMatch W d.outer d'.outer
  elements : List.Forall₂ (C.ElementsMatch W) d.elements d'.elements

variable {d d' : State}

theorem Alongside.scope
    (h : C.Alongside W d d') :
    C.ScopesMatch W d.scope d'.scope := by
  rw [scope_eq_innermost, scope_eq_innermost]
  exact (stacked_of_forall₂ h.outer h.elements).scope

/- Elements that correspond still do after the same event. -/
theorem captureAll_match
    (hC : C.Sound)
    {V : C.World}
    (hV : C.grows W V)
    (event : Event)
    {elements elements' : List Element}
    (h : List.Forall₂ (C.ElementsMatch W) elements elements') :
    List.Forall₂ (C.ElementsMatch V) (captureAll event elements)
      (captureAll event elements') := by
  unfold captureAll
  rw [List.forall₂_map_left_iff, List.forall₂_map_right_iff]
  exact h.imp (fun _ _ hOne => (hOne.mono hC hV).capture event)

theorem closeElement_coupled
    (hC : C.Steps)
    {e e' : Element}
    (h : C.ElementsMatch W e e') :
    C.Coupled W (closeElement e) (closeElement e') C.Any := by
  unfold closeElement
  refine (completeElement_coupled hC.sound hC.fills h.pending).bind
    hC.sound ?_
  intro V hV _ _ _
  have hAfter := h.mono hC.sound hV
  exact hC.flush V _ _ _ _ hAfter.list hAfter.subject

/-
  An event is read alike: with elements that correspond, or
  with the same fault, which may be any.
-/
theorem Alongside.readEvent
    (hC : C.Steps)
    (hFaults : ∀ fault, C.fault fault)
    (h : C.Alongside W d d')
    (event : Event) :
    C.Coupled W (readEvent d event) (readEvent d' event)
      (fun V => List.Forall₂ (C.ElementsMatch V)) := by
  have hSound := hC.sound
  have hHere := captureAll_match hSound (hSound.refl W) event h.elements
  unfold Evaluation.readEvent
  cases event with
  | opened name attributes depth =>
      have hRoot : d.elements.isEmpty = d'.elements.isEmpty :=
        (stacked_of_forall₂ h.outer h.elements).isEmpty_eq
      dsimp only
      rw [← hRoot]
      refine (openElement_coupled hSound hC.fills h.settings h.makes
        h.scope _ (.inl hC.gaps) name attributes).bind hSound ?_
      intro V hV e e' hMatch
      exact coupled_pure hSound
        (.cons hMatch (captureAll_match hSound hV _ h.elements))
  | text data => exact coupled_pure hSound hHere
  | unknown description => exact coupled_fail hSound (hFaults _)
  | closed name depth =>
      have hElements := h.elements
      dsimp only
      generalize d.elements = elements at hElements ⊢
      generalize d'.elements = elements' at hElements ⊢
      cases hElements with
      | nil => exact coupled_fail hSound (hFaults _)
      | @cons e e' rest rest' hMatch hRest =>
          dsimp only
          rw [← hMatch.name]
          split
          · refine (closeElement_coupled hC hMatch).bind hSound ?_
            intro V hV _ _ _
            exact coupled_pure hSound
              (captureAll_match hSound hV _ hRest)
          · exact coupled_fail hSound (hFaults _)

/-
  After an event the sessions correspond in a world that may
  have grown; if it succeeds, so do the evaluations.
-/
theorem Alongside.process
    (hC : C.Steps)
    (hFaults : ∀ fault, C.fault fault)
    (h : C.Alongside W d d')
    (event : Event) :
    ∃ V,
      C.grows W V ∧
        C.session V (Evaluation.readEvent d event d.fresh).2
          (Evaluation.readEvent d' event d'.fresh).2 ∧
        ∀ m notes, process d event = (.ok m, notes) →
          ∃ m' notes',
            process d' event = (.ok m', notes') ∧
              C.Alongside V m m' := by
  have hBoth := h.readEvent hC hFaults event d.fresh d'.fresh h.session
  unfold Evaluation.process
  unfold State.fresh at hBoth ⊢
  revert hBoth
  cases Evaluation.readEvent d event { d.session with notes := #[] } with
  | mk outcome t =>
      cases Evaluation.readEvent d' event
          { d'.session with notes := #[] } with
      | mk outcome' t' =>
          cases outcome <;> cases outcome'
          · rintro ⟨_, V, hV, ht⟩
            refine ⟨V, hV, ht, ?_⟩
            intro m notes hStep
            cases hStep
          · exact fun hBoth => hBoth.elim
          · exact fun hBoth => hBoth.elim
          · rintro ⟨V, hV, ht, hElements⟩
            refine ⟨V, hV, ht, ?_⟩
            rintro m notes ⟨⟩
            exact ⟨_, _, rfl,
              { settings := h.settings
                makes := h.makes
                session := hC.begins V _ _ ht
                outer := h.outer.mono hC.sound hV
                elements := hElements }⟩

end Coupling
end LinkedMarkup
