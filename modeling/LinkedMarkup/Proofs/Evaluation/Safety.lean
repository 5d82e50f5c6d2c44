import LinkedMarkup.Proofs.Evaluation.Lodging
import LinkedMarkup.Proofs.Evaluation.Placement
import LinkedMarkup.Proofs.Iri.Fragment

/-
  This file proves that reading HTML breaks no invariant of
  the library: quads have both ends, lists are not used once
  they are flushed, and none is flushed without a subject.
  The open elements keep all that from one event to the next.

  Key definitions include:
    * `Evaluation.Grounded`
    * `Evaluation.Guarded`

  Main declarations:
    * `Evaluation.guarded_start`
    * `Evaluation.guarded_of_process`
    * `Evaluation.kind_of_process_error`
    * `Evaluation.safe_evaluate`
    * `Extraction.kind_of_html_fault_ne_invariant`
-/

namespace LinkedMarkup
namespace Evaluation

open Work

------------------------------------------------------------
-- Open elements
------------------------------------------------------------

/- An open element whose subject, and those inside it, exist. -/
structure Grounded
    (e : Element) : Prop where
  subject : e.subject.isSome = true
  scopeSubject : e.scope.subject.isSome = true
  scopeObject : e.scope.object.isSome = true

/- An evaluation of HTML that no event can bring out of step. -/
structure Guarded
    (d : State) : Prop where
  isHtml : d.settings.isHtml = true
  outer : d.outer.subject.isSome = true
  names : NamesDocument d.outer.base
  grounded : ∀ e ∈ d.elements, Grounded e
  housed : Housed d

------------------------------------------------------------
-- Captured text
------------------------------------------------------------

theorem grounded_captureAll
    {elements : List Element}
    (h : ∀ e ∈ elements, Grounded e)
    (event : Event) :
    ∀ e ∈ captureAll event elements, Grounded e := by
  intro e hMem
  rcases List.mem_map.mp hMem with ⟨o, hOld, rfl⟩
  exact ⟨(h o hOld).subject, (h o hOld).scopeSubject,
    (h o hOld).scopeObject⟩

------------------------------------------------------------
-- Scopes
------------------------------------------------------------

/- The scope that the next start tag is read in is anchored. -/
theorem Guarded.anchored
    {d : State}
    (h : Guarded d) :
    Anchored d.settings d.scope d.elements.isEmpty := by
  have hGrounded := h.grounded
  unfold State.scope
  cases hElements : d.elements with
  | nil => exact ⟨h.outer, .inr ⟨rfl, h.isHtml, h.names⟩⟩
  | cons e rest =>
      rw [hElements] at hGrounded
      have hTop := hGrounded e List.mem_cons_self
      exact ⟨hTop.scopeSubject, .inl hTop.scopeObject⟩

/- An element that opens in an anchored scope is grounded. -/
theorem Opened.grounded
    {settings : Settings}
    {parent : Scope}
    {isRoot : Bool}
    {name : String}
    {s t : Session}
    {e : Element}
    (h : Opened settings parent isRoot name s t e)
    (hAnchored : Anchored settings parent isRoot) :
    Grounded e := by
  have hSubject := h.anchored hAnchored
  rcases h.scope with hPasses | hHands
  · refine ⟨hSubject, ?_, ?_⟩
    · rw [hPasses.scope.subject]
      exact hAnchored.subject
    · rw [hPasses.scope.object]
      exact hPasses.object
  · rcases hHands.object with ⟨passed, hObject⟩
    refine ⟨hSubject, ?_, ?_⟩
    · rw [hHands.subject]
      simp [hSubject]
    · rw [hObject]
      simp [hSubject]

------------------------------------------------------------
-- Single events
------------------------------------------------------------

/- Processing an event keeps an evaluation guarded. -/
theorem guarded_of_process
    {d d' : State}
    {event : Event}
    {notes : List Note}
    (hGuarded : Guarded d)
    (h : process d event = (.ok d', notes)) :
    Guarded d' := by
  rcases process_keeps h with ⟨hSettings, hOuter⟩
  refine
    { isHtml := by
        rw [hSettings]
        exact hGuarded.isHtml
      outer := by
        rw [hOuter]
        exact hGuarded.outer
      names := by
        rw [hOuter]
        exact hGuarded.names
      grounded := ?_
      housed := housed_of_process hGuarded.housed h }
  rcases process_ok_cases h with
    ⟨name, attributes, depth, e, t, rfl, hOpen, rfl, _⟩ |
      ⟨data, rfl, rfl, _⟩ |
      ⟨name, depth, e, rest, m, t, rfl, hElements, _, _, _, rfl, _⟩
  · have hOpened :=
      openElement_opened _ _ _ name attributes d.fresh e t hOpen
    intro o hMem
    rcases List.mem_cons.mp hMem with rfl | hOld
    · exact hOpened.grounded hGuarded.anchored
    · exact grounded_captureAll hGuarded.grounded _ o hOld
  · exact grounded_captureAll hGuarded.grounded _
  · have hGrounded := hGuarded.grounded
    rw [hElements] at hGrounded
    exact grounded_captureAll
      (fun o hOld => hGrounded o (List.mem_cons_of_mem e hOld)) _

/-
  An event that finds its place in a guarded evaluation fails
  at most for an address that cannot be read.
-/
theorem kind_of_process_error
    {d : State}
    {event : Event}
    {fault : Fault}
    {notes : List Note}
    (hGuarded : Guarded d)
    (hPlaced : Placed d event)
    (h : process d event = (.error fault, notes)) :
    fault.kind = .value := by
  have hHoused := hGuarded.housed
  rcases process_error_cases h with
    ⟨name, attributes, depth, t, rfl, hOpen⟩ |
      ⟨name, depth, e, rest, t, rfl, hElements, _, hClose⟩ |
      ⟨name, depth, rfl, hNone⟩ | ⟨description, rfl⟩
  · rcases hHoused with ⟨W, hLodged, hUsable⟩
    exact
      (keeps_usable_value.openElement (keepsFilling_usable _)
        (keepsMaking_usable _) hLodged.uses_scope
        (.inr hGuarded.anchored) (usable_fresh hUsable) name
        attributes).2 fault t hOpen
  · rcases andThen_eq_error hClose with
      hComplete | ⟨_, m, hComplete, hFlush⟩
    · exact hHoused.kind_of_complete_error hElements hComplete
    · have hGrounded := hGuarded.grounded
      rw [hElements] at hGrounded
      have hTop := hGrounded e List.mem_cons_self
      rcases Option.isSome_iff_exists.mp hTop.subject with ⟨x, hx⟩
      rw [hx, flushLists_eq (hHoused.unflushed hElements hComplete) x]
        at hFlush
      cases hFlush
  · rcases hPlaced.closed name depth rfl with
      ⟨e, rest, hElements, hName⟩
    exact absurd hName (hNone e rest hElements)
  · exact absurd rfl (hPlaced.known description)

------------------------------------------------------------
-- Runs
------------------------------------------------------------

/- The outcome of a run in step, or of one that had to end. -/
def Safe
    (outcome : Except Fault State) : Prop :=
  match outcome with
  | .ok d => Guarded d
  | .error fault => fault.kind = .value

theorem guarded_of_run
    {d d' : State}
    {events : List Event}
    {sections : List (List Note)}
    (hGuarded : Guarded d)
    (h : Run d events sections d') :
    Guarded d' := by
  induction h with
  | nil _ => exact hGuarded
  | cons hStep _ ih => exact ih (guarded_of_process hGuarded hStep)

/-
  Well-nested events keep an evaluation guarded to their end,
  or fail for an address that cannot be read.
-/
theorem safe_evaluate
    {events : List Event}
    (hNested : Event.Nested events)
    {d : State}
    (hGuarded : Guarded d) :
    Safe (Extraction.evaluate d events).2 := by
  cases hRun : Extraction.evaluate d events with
  | mk sections outcome =>
      cases outcome with
      | ok final => exact guarded_of_run hGuarded (run_of_evaluate hRun)
      | error fault =>
          rcases fails_in_place hNested (by rw [hRun]) with
            ⟨_, hBefore, hPlaced, hStep⟩
          exact kind_of_process_error (guarded_of_run hGuarded hBefore)
            hPlaced hStep

------------------------------------------------------------
-- Whole documents
------------------------------------------------------------

/- The evaluation of HTML starts guarded. -/
theorem guarded_start
    {settings : Settings}
    {base : String}
    {d : State}
    (hHtml : settings.isHtml = true)
    (h : start settings base = .ok d) :
    Guarded d := by
  rcases start_eq_ok h with ⟨document, iri, hDocument, hIri, rfl⟩
  exact
    { isHtml := hHtml
      outer := rfl
      names :=
        ⟨document, iri, Iri.withoutFragment_idem hDocument, hIri⟩
      grounded := by simp [State.initial]
      housed := housed_initial settings document iri }

/- A base is refused as an address or as no IRI. -/
theorem kind_of_start_error
    {settings : Settings}
    {base : String}
    {fault : Fault}
    (h : start settings base = .error fault) :
    fault.kind ≠ .invariant := by
  rcases start_eq_error h with hDocument | rfl
  · rw [Iri.kind_of_withoutFragment_error hDocument]
    decide
  · intro hKind
    cases hKind

end Evaluation

namespace Extraction

/-
  Whatever well-nested events are read as HTML, no call ends
  with a broken invariant of the library.
-/
theorem kind_of_html_fault_ne_invariant
    (options : Options)
    (base : String)
    {events : List Event}
    (hNested : Event.Nested events)
    {fault : Fault}
    (hFault :
      (ofBase ⟨.html, options⟩ base [] ⟨events, none⟩).fault? =
        some fault) :
    fault.kind ≠ .invariant := by
  unfold ofBase at hFault
  cases hStart : Evaluation.start ⟨.html, options⟩ base with
  | error cause =>
      rw [hStart] at hFault
      cases hFault
      exact Evaluation.kind_of_start_error hStart
  | ok d =>
      rw [hStart] at hFault
      have hSafe :=
        Evaluation.safe_evaluate hNested
          (Evaluation.guarded_start rfl hStart)
      unfold ofTrace at hFault
      cases hRun : evaluate d events with
      | mk sections outcome =>
          rw [hRun] at hSafe
          simp only [hRun] at hFault
          cases outcome with
          | error cause =>
              cases hFault
              have hKind : fault.kind = .value := hSafe
              rw [hKind]
              decide
          | ok final =>
              -- All elements are closed, so the end is no fault.
              have hEnd :=
                Evaluation.finish_of_run_nested hStart hNested
                  (Evaluation.run_of_evaluate hRun)
              simp [endingFault?, hEnd] at hFault

/- An address that cannot be read ends a document, as such. -/
theorem html_address_fault_ne_invariant :
    (ofBase ⟨.html, ⟨.members, true, [], []⟩⟩ "http://ex/" []
        ⟨[.opened "a" [("href", "//[")] 0, .closed "a" 0],
          none⟩).fault? = some .invalidAddress ∧
      Fault.invalidAddress.kind ≠ .invariant := by
  have hFault :
      (ofBase ⟨.html, ⟨.members, true, [], []⟩⟩ "http://ex/" []
        ⟨[.opened "a" [("href", "//[")] 0, .closed "a" 0],
          none⟩).fault? = some .invalidAddress := by
    decide +kernel
  refine ⟨hFault, ?_⟩
  exact kind_of_html_fault_ne_invariant ⟨.members, true, [], []⟩
    "http://ex/" (.element "a" _ 0 0 .nil .nil) hFault

end Extraction
end LinkedMarkup
