import LinkedMarkup.Proofs.Coupling.StartTag
import LinkedMarkup.Proofs.Evaluation.Run

/-
  This file proves that evaluations which a coupling relates
  do the same at every event, as long as it also relates the
  writing of lists. Only a number of innermost elements need
  to correspond, and the scope around them; how many elements
  are open further out may differ.

  Key definitions include:
    * `Coupling.Steps`
    * `Coupling.Stacked`
    * `Coupling.InStep`
    * `Coupling.Told`

  Main declarations:
    * `Coupling.InStep.opened`
    * `Coupling.InStep.closed`
    * `Coupling.InStep.process`
    * `Coupling.InStep.run`
-/

namespace LinkedMarkup
namespace Coupling

open Evaluation

------------------------------------------------------------
-- Evaluations in step
------------------------------------------------------------

/-
  What a coupling needs so that whole events correspond: lists
  are flushed alike, and an event begins without any notes.
-/
structure Steps
    (C : Coupling) : Prop where
  sound : C.Sound
  fills : C.Fills
  gaps : C.AllowsGaps
  flush :
    ∀ W l l' x x', C.list W l l' → C.Optional W x x' →
      C.Coupled W (Work.flushLists l x) (Work.flushLists l' x') C.Any
  begins :
    ∀ W s s', C.session W s s' →
      C.session W { s with notes := #[] } { s' with notes := #[] }

/-
  Stacks of open elements that correspond in a number of
  innermost ones, and in the scope around these.
-/
inductive Stacked
    (C : Coupling)
    (W : C.World)
    (outer outer' : Scope) :
    Nat → List Element → List Element → Prop where
  | outside
      {elements elements' : List Element}
      (hScope :
        C.ScopesMatch W
          (innermost outer elements) (innermost outer' elements'))
      (hRoot : elements.isEmpty = elements'.isEmpty) :
      Stacked C W outer outer' 0 elements elements'
  | inside
      {n : Nat}
      {e e' : Element}
      {rest rest' : List Element}
      (hMatch : C.ElementsMatch W e e')
      (hRest : Stacked C W outer outer' n rest rest') :
      Stacked C W outer outer' (n + 1) (e :: rest) (e' :: rest')

/-
  Evaluations in step, in so many of their innermost elements.
  What the last event noted in each does not matter.
-/
structure InStep
    (C : Coupling)
    (W : C.World)
    (n : Nat)
    (d d' : State) : Prop where
  settings : d.settings.Agree d'.settings
  makes : C.MakesFor d.settings d'.settings
  session : C.session W d.fresh d'.fresh
  stack : C.Stacked W d.outer d'.outer n d.elements d'.elements

/- Notes that sessions which correspond have left behind. -/
def Told
    (C : Coupling)
    (notes notes' : List Note) : Prop :=
  ∃ W s s',
    C.session W s s' ∧ notes = s.notes.toList ∧
      notes' = s'.notes.toList

section Stacks

variable {C : Coupling} {V W : C.World}
variable {outer outer' : Scope} {n : Nat}
variable {elements elements' : List Element}

theorem Stacked.mono
    (hC : C.Sound)
    (hW : C.grows V W)
    (h : C.Stacked V outer outer' n elements elements') :
    C.Stacked W outer outer' n elements elements' := by
  induction h with
  | outside hScope hRoot =>
      exact .outside (hScope.mono hC hW) hRoot
  | inside hMatch _ ih =>
      exact .inside (hMatch.mono hC hW) ih

/- Stacks that correspond still do after the same event. -/
theorem Stacked.captureAll
    (h : C.Stacked W outer outer' n elements elements')
    (event : Event) :
    C.Stacked W outer outer' n (captureAll event elements)
      (captureAll event elements') := by
  induction h with
  | @outside elements elements' hScope hRoot =>
      apply Stacked.outside
      · rw [innermost_captureAll, innermost_captureAll]
        exact hScope
      · simpa [Evaluation.captureAll] using hRoot
  | inside hMatch _ ih =>
      exact .inside (hMatch.capture event) ih

/- Stacks that correspond pass in corresponding scopes. -/
theorem Stacked.scope
    (h : C.Stacked W outer outer' n elements elements') :
    C.ScopesMatch W
      (innermost outer elements) (innermost outer' elements') := by
  cases h with
  | outside hScope _ => exact hScope
  | inside hMatch _ => exact hMatch.scope

theorem Stacked.isEmpty_eq
    (h : C.Stacked W outer outer' n elements elements') :
    elements.isEmpty = elements'.isEmpty := by
  cases h with
  | outside _ hRoot => exact hRoot
  | inside _ _ => rfl

/- Elements that correspond one by one are stacked. -/
theorem stacked_of_forall₂
    (hOuter : C.ScopesMatch W outer outer')
    (h : List.Forall₂ (C.ElementsMatch W) elements elements') :
    C.Stacked W outer outer' elements.length elements elements' := by
  induction h with
  | nil => exact .outside hOuter rfl
  | cons hMatch _ ih => exact .inside hMatch ih

end Stacks

------------------------------------------------------------
-- Single events
------------------------------------------------------------

section Events

variable {C : Coupling} {V W : C.World} {n : Nat}
variable {d d' m : State} {notes : List Note}

/- Steps that correspond succeed together. -/
theorem Coupled.of_ok
    {α : Type}
    {Q : C.World → α → α → Prop}
    {w w' : Work α}
    (h : C.Coupled W w w' Q)
    {s s' t : Session}
    {a : α}
    (hs : C.session W s s')
    (hRun : w s = (.ok a, t)) :
    ∃ a' t' V,
      w' s' = (.ok a', t') ∧ C.grows W V ∧ C.session V t t' ∧
        Q V a a' := by
  rcases h.outcomes hs with
    ⟨b, a', u, t', V, hLeft, hRight, hV, ht, hQ⟩ |
      ⟨fault, u, t', hLeft, _⟩
  · rw [hRun] at hLeft
    cases hLeft
    exact ⟨a', t', V, hRight, hV, ht, hQ⟩
  · rw [hRun] at hLeft
    cases hLeft

/- Evaluations are in step after an event if their parts are. -/
theorem InStep.after
    (hC : C.Steps)
    (h : C.InStep W n d d')
    {k : Nat}
    {s s' : Session}
    {elements elements' : List Element}
    (hs : C.session V s s')
    (hStack : C.Stacked V d.outer d'.outer k elements elements') :
    C.InStep V k (d.after elements s) (d'.after elements' s') where
  settings := h.settings
  makes := h.makes
  session := hC.begins V _ _ hs
  stack := hStack

/- A start tag opens elements that correspond. -/
theorem InStep.opened
    (hC : C.Steps)
    (h : C.InStep W n d d')
    {name : String}
    {attributes : Entries}
    {depth : Nat}
    (hStep :
      process d (.opened name attributes depth) = (.ok m, notes)) :
    ∃ m' notes' V,
      process d' (.opened name attributes depth) = (.ok m', notes') ∧
        C.grows W V ∧ C.InStep V (n + 1) m m' ∧
        C.Told notes notes' := by
  rcases process_opened hStep with ⟨e, t, hOpen, hAfter⟩
  have hScope : C.ScopesMatch W d.scope d'.scope := by
    rw [scope_eq_innermost, scope_eq_innermost]
    exact h.stack.scope
  have hBoth :=
    openElement_coupled hC.sound hC.fills h.settings h.makes hScope
      d.elements.isEmpty (.inl hC.gaps) name attributes
  rcases hBoth.of_ok h.session hOpen with
    ⟨e', t', V, hOpen', hV, ht, hMatch⟩
  rw [h.stack.isEmpty_eq] at hOpen'
  rw [process_of_open hOpen depth] at hStep
  cases hStep
  refine ⟨_, _, V, process_of_open hOpen' depth, hV, ?_,
    ⟨V, t, t', ht, rfl, rfl⟩⟩
  exact h.after hC ht
    (.inside hMatch ((h.stack.mono hC.sound hV).captureAll _))

/- A text is captured on both sides. -/
theorem InStep.text
    (hC : C.Steps)
    (h : C.InStep W n d d')
    {data : String}
    (hStep : process d (.text data) = (.ok m, notes)) :
    ∃ m' notes' V,
      process d' (.text data) = (.ok m', notes') ∧
        C.grows W V ∧ C.InStep V n m m' ∧ C.Told notes notes' := by
  cases hStep
  exact ⟨_, _, W, rfl, hC.sound.refl W,
    h.after hC h.session (h.stack.captureAll _),
    ⟨W, _, _, h.session, rfl, rfl⟩⟩

/-
  An end tag closes elements that correspond: the literals
  that waited are completed alike, and the lists are written
  alike.
-/
theorem InStep.closed
    (hC : C.Steps)
    (h : C.InStep W (n + 1) d d')
    {name : String}
    {depth : Nat}
    (hStep : process d (.closed name depth) = (.ok m, notes)) :
    ∃ m' notes' V,
      process d' (.closed name depth) = (.ok m', notes') ∧
        C.grows W V ∧ C.InStep V n m m' ∧ C.Told notes notes' := by
  rcases process_closed hStep with
    ⟨e, rest, s, t, hElements, rfl, hComplete, hFlush, rfl, rfl⟩
  have hStack := h.stack
  rw [hElements] at hStack
  generalize hElements' : d'.elements = elements' at hStack
  cases hStack with
  | @inside _ _ e' _ rest' hMatch hRest =>
      rcases (completeElement_coupled hC.sound hC.fills
          hMatch.pending).of_ok h.session hComplete with
        ⟨_, s', V, hComplete', hV, hs, _⟩
      have hMatchV := hMatch.mono hC.sound hV
      rcases (hC.flush V _ _ _ _ hMatchV.list hMatchV.subject).of_ok hs
          hFlush with
        ⟨_, t', U, hFlush', hU, ht, _⟩
      have hWU := hC.sound.trans W V U hV hU
      have hClose' := closeElement_of_ok hComplete'
      rw [hFlush'] at hClose'
      rw [hMatch.name]
      refine ⟨_, _, U, process_of_close hElements' hClose' depth, hWU,
        ?_, ⟨U, t, t', ht, rfl, rfl⟩⟩
      exact h.after hC ht ((hRest.mono hC.sound hWU).captureAll _)

/-
  Evaluations in step do the same at an event that closes only
  what corresponds.
-/
theorem InStep.process
    (hC : C.Steps)
    {k : Nat}
    (h : C.InStep W n d d')
    {event : Event}
    (hMoves : Event.Moves n event k)
    (hStep : process d event = (.ok m, notes)) :
    ∃ m' notes' V,
      process d' event = (.ok m', notes') ∧
        C.grows W V ∧ C.InStep V k m m' ∧ C.Told notes notes' := by
  cases hMoves with
  | opened name attributes depth => exact h.opened hC hStep
  | text data => exact h.text hC hStep
  | closed name depth => exact h.closed hC hStep

end Events

------------------------------------------------------------
-- Runs
------------------------------------------------------------

/-
  Evaluations in step do the same over events that close only
  what corresponds.
-/
theorem InStep.run
    {C : Coupling}
    (hC : C.Steps)
    {W : C.World}
    {n : Nat}
    {d d' final : State}
    {events : List Event}
    {sections : List (List Note)}
    (h : C.InStep W n d d')
    (hWithin : Event.Within n events)
    (hRun : Run d events sections final) :
    ∃ k final' sections' V,
      Run d' events sections' final' ∧ C.grows W V ∧
        C.InStep V k final final' ∧
        List.Forall₂ C.Told sections sections' := by
  induction hWithin generalizing d d' W sections with
  | nil =>
      cases hRun
      exact ⟨_, d', [], W, .nil d', hC.sound.refl W, h, .nil⟩
  | step hMoves _ ih =>
      cases hRun with
      | cons hStep hRest =>
          rcases h.process hC hMoves hStep with
            ⟨m', notes', V, hStep', hV, hNext, hTold⟩
          rcases ih hNext hRest with
            ⟨k, final', sections', U, hRun', hU, hFinal, hSections⟩
          exact ⟨k, final', notes' :: sections', U,
            .cons hStep' hRun', hC.sound.trans W V U hV hU, hFinal,
            .cons hTold hSections⟩

end Coupling
end LinkedMarkup
