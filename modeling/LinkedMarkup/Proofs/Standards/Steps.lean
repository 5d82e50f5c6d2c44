import LinkedMarkup.Proofs.Standards.StartTag

/-
  This file proves that the processing of events meets every
  standard that admits the attributes of their start tags. A
  standard may change with the events, as long as it allows
  what earlier ones have left behind.

  Key definitions include:
    * `Standard.InState`
    * `Standard.Within`
    * `Standard.Follows`

  Main declarations:
    * `Standard.process_meets`
    * `Standard.remarks_of_process`
    * `Standard.inState_of_start`
    * `Standard.Follows.run`
    * `Standard.Follows.quads`
-/

namespace LinkedMarkup
namespace Standard

open Evaluation

variable {T U : Standard}

------------------------------------------------------------
-- End tags
------------------------------------------------------------

section Closing

variable (hT : T.Lawful)

include hT

theorem secures_completePending
    {p : Pending}
    (hPending : T.InPending p) :
    T.Secures (completePending p) (fun _ => True) := by
  have hLiteral :
      T.Secures (capturedLiteral p)
        (fun l => T.object (.literal l)) := by
    unfold capturedLiteral
    split
    · rename_i d hDatatype
      exact secures_typedLiteral hT _ (hPending.datatype d hDatatype)
    · exact secures_contentLiteral hT _ _ _
  unfold completePending
  refine hLiteral.bind ?_
  intro l hLiteral
  exact secures_stateValue hT hPending.subject p.list p.inList
    hLiteral hPending.predicates

theorem secures_closeElement
    {e : Element}
    (hElement : T.InElement e) :
    T.Secures (closeElement e) (fun _ => True) := by
  have hComplete :
      T.Secures (completeElement e) (fun _ => True) := by
    unfold completeElement
    split
    · rename_i p hPending
      exact secures_completePending hT (hElement.pending p hPending)
    · exact Work.secures_pure trivial
  unfold closeElement
  refine hComplete.bind ?_
  intro _ _
  exact secures_flushLists hT e.list hElement.subject

end Closing

------------------------------------------------------------
-- Single events
------------------------------------------------------------

/- An evaluation that holds nothing below a standard. -/
structure InState
    (T : Standard)
    (d : State) : Prop where
  outer : T.InScope d.outer
  elements : ∀ e ∈ d.elements, T.InElement e
  lists : ∀ i, T.Lists (d.session.lists.slot i).lists

theorem InState.scope
    {d : State}
    (h : T.InState d) :
    T.InScope d.scope := by
  unfold State.scope
  split
  · exact h.outer
  · rename_i e rest hElements
    refine (h.elements e ?_).scope
    rw [hElements]
    exact List.mem_cons_self

theorem InState.fresh
    {d : State}
    (h : T.InState d) :
    T.InSession d.fresh where
  quads q hMem := by cases hMem
  lists := h.lists
  remarks l hMem := by cases hMem

/- What an element captures is text, which meets any standard. -/
theorem InElement.capture
    {e : Element}
    (h : T.InElement e)
    (event : Event) :
    T.InElement (e.capture event) := by
  refine ⟨h.scope, h.subject, ?_⟩
  intro p hMem
  rcases Option.map_eq_some_iff.mp hMem with ⟨q, hPending, rfl⟩
  have hOld := h.pending q hPending
  unfold Pending.capture
  split
  · exact ⟨hOld.subject, hOld.predicates, hOld.datatype⟩
  · split
    · exact ⟨hOld.subject, hOld.predicates, hOld.datatype⟩
    · exact hOld

theorem inElements_captureAll
    {elements : List Element}
    (h : ∀ e ∈ elements, T.InElement e)
    (event : Event) :
    ∀ e ∈ captureAll event elements, T.InElement e := by
  intro e hMem
  rcases List.mem_map.mp hMem with ⟨o, hOld, rfl⟩
  exact (h o hOld).capture event

/-
  Reading an event meets a standard that admits its attributes,
  and what it leaves to be stated later does.
-/
theorem secures_readEvent
    (hT : T.Lawful)
    {d : State}
    (hd : T.InState d)
    {event : Event}
    (hAdmits :
      ∀ name attributes depth x,
        event = .opened name attributes depth →
          Environment.declare d.settings.media attributes
              d.scope.environment =
            .ok x →
          T.Admits x attributes) :
    T.Secures (readEvent d event)
      (fun elements => ∀ e ∈ elements, T.InElement e) := by
  unfold readEvent
  cases event with
  | opened name attributes depth =>
      refine (secures_openElement hT d.settings hd.scope
        d.elements.isEmpty name
        (fun x hDeclares =>
          hAdmits name attributes depth x rfl hDeclares)).bind ?_
      intro e hElement
      apply Work.secures_pure
      intro o hMem
      rcases List.mem_cons.mp hMem with rfl | hOld
      · exact hElement
      · exact inElements_captureAll hd.elements _ o hOld
  | text data =>
      exact Work.secures_pure
        (inElements_captureAll hd.elements _)
  | closed name depth =>
      dsimp only
      split
      · exact Work.secures_fail _
      · rename_i e rest hElements
        have hTop := hd.elements
        rw [hElements] at hTop
        split
        · refine (secures_closeElement hT
            (hTop e List.mem_cons_self)).bind ?_
          intro _ _
          exact Work.secures_pure (inElements_captureAll
            (fun o hMem => hTop o (List.mem_cons_of_mem e hMem)) _)
        · exact Work.secures_fail _
  | unknown description => exact Work.secures_fail _

/-
  What an event notes is what reading it leaves in a session
  that begins without notes.
-/
theorem notes_process
    (d : State)
    (event : Event) :
    (process d event).2 =
      (readEvent d event d.fresh).2.notes.toList := by
  unfold process State.fresh
  cases readEvent d event { d.session with notes := #[] } with
  | mk outcome s => cases outcome <;> rfl

/-
  An event meets a standard that admits its attributes: what
  it states, also if it ends with a fault, and what it leaves
  to be stated later.
-/
theorem process_meets
    (hT : T.Lawful)
    {d : State}
    (hd : T.InState d)
    {event : Event}
    (hAdmits :
      ∀ name attributes depth x,
        event = .opened name attributes depth →
          Environment.declare d.settings.media attributes
              d.scope.environment =
            .ok x →
          T.Admits x attributes) :
    (∀ q ∈ Note.quads (process d event).2, T.quad q) ∧
      ∀ d', (process d event).1 = .ok d' → T.InState d' := by
  have hAfter := secures_readEvent hT hd hAdmits d.fresh hd.fresh
  refine ⟨by rw [notes_process]; exact hAfter.1.quads, ?_⟩
  intro d' hEq
  unfold process at hEq
  unfold State.fresh at hAfter
  cases hRun : readEvent d event { d.session with notes := #[] } with
  | mk outcome s =>
      rw [hRun] at hAfter hEq
      cases outcome with
      | error fault => cases hEq
      | ok elements =>
          cases hEq
          exact ⟨hd.outer, hAfter.2 elements rfl, hAfter.1.lists⟩

/- The standard that everything meets. -/
def any : Standard where
  subject _ := True
  predicate _ := True
  type _ := True
  datatype _ := True
  object _ := True
  quad _ := True

theorem lawful_any : any.Lawful := by
  constructor <;> intros <;> trivial

theorem inElement_any
    (e : Element) :
    any.InElement e where
  scope := ⟨fun _ _ => trivial, fun _ _ => trivial, fun _ _ => trivial⟩
  subject _ _ := trivial
  pending _ _ := ⟨trivial, fun _ _ => trivial, fun _ _ => trivial⟩

theorem inState_any
    (d : State) :
    any.InState d where
  outer := ⟨fun _ _ => trivial, fun _ _ => trivial, fun _ _ => trivial⟩
  elements e _ := inElement_any e
  lists _ _ _ := ⟨trivial, fun _ _ => trivial⟩

/- Whatever an event reports is a remark. -/
theorem remarks_of_process
    (d : State)
    (event : Event) :
    ∀ l ∈ Note.lines (process d event).2, l.level = .debug := by
  have hAdmits :
      ∀ x attributes, any.Admits x attributes := by
    intro x attributes
    constructor <;> intros <;> trivial
  rw [notes_process]
  exact (secures_readEvent lawful_any (inState_any d)
    (fun _ attributes _ x _ _ => hAdmits x attributes) d.fresh
    (inState_any d).fresh).1.remarks

------------------------------------------------------------
-- Standards that change
------------------------------------------------------------

/- A standard that allows to be held whatever another does. -/
structure Within
    (T U : Standard) : Prop where
  subject : ∀ s, T.subject s → U.subject s
  predicate : ∀ i, T.predicate i → U.predicate i
  datatype : ∀ i, T.datatype i → U.datatype i
  object : ∀ o, T.object o → U.object o

theorem Within.refl
    (T : Standard) :
    T.Within T :=
  ⟨fun _ h => h, fun _ h => h, fun _ h => h, fun _ h => h⟩

theorem Optional.mono
    (hWithin : T.Within U)
    {x : Option Subject}
    (h : T.Optional x) :
    U.Optional x :=
  fun s hMem => hWithin.subject s (h s hMem)

theorem InScope.mono
    (hWithin : T.Within U)
    {x : Scope}
    (h : T.InScope x) :
    U.InScope x where
  subject := h.subject.mono hWithin
  object := h.object.mono hWithin
  incomplete w hMem := hWithin.predicate _ (h.incomplete w hMem)

theorem InElement.mono
    (hWithin : T.Within U)
    {e : Element}
    (h : T.InElement e) :
    U.InElement e where
  scope := h.scope.mono hWithin
  subject := h.subject.mono hWithin
  pending p hMem :=
    { subject := hWithin.subject _ (h.pending p hMem).subject
      predicates := fun i hIn =>
        hWithin.predicate i ((h.pending p hMem).predicates i hIn)
      datatype := fun d hIn =>
        hWithin.datatype d ((h.pending p hMem).datatype d hIn) }

theorem InState.mono
    (hWithin : T.Within U)
    {d : State}
    (h : T.InState d) :
    U.InState d where
  outer := h.outer.mono hWithin
  elements e hMem := (h.elements e hMem).mono hWithin
  lists i entry hMem :=
    ⟨hWithin.predicate _ (h.lists i entry hMem).1,
      fun o hIn => hWithin.object o ((h.lists i entry hMem).2 o hIn)⟩

/- Where nothing has begun, only the document is held. -/
theorem inState_of_start
    (hT : T.Lawful)
    {settings : Settings}
    {base : String}
    {first : State}
    (hStart : start settings base = .ok first) :
    T.InState first := by
  rcases start_eq_ok hStart with ⟨document, iri, _, hIri, rfl⟩
  have hSame := Environment.eq_of_parse? hIri
  rw [hSame] at hIri
  have hDocument : T.subject (.iri iri) := by
    rw [hSame]
    exact hT.iri _ hIri
  refine ⟨⟨optional_some hDocument, optional_none, ?_⟩, ?_, ?_⟩
  · intro w hMem
    cases hMem
  · intro e hMem
    cases hMem
  · exact ((secures_rootList _ Session.start
      ⟨by simp [Session.start, Note.quads], fun i entry hMem => by
        simp [Session.start, ListForest.slot, ListForest.empty]
          at hMem, by simp [Session.start, Note.lines]⟩).1).lists

/-
  A standard for every sequence of events that follows an
  evaluation: it grows with the events, and admits each start
  tag once that has come.
-/
structure Follows
    (first : State)
    (T : List Event → Standard) : Prop where
  lawful : ∀ events, (T events).Lawful
  grows :
    ∀ events event, (T events).Within (T (events ++ [event]))
  begins : (T []).InState first
  admits :
    ∀ events sections d name attributes depth x,
      Run first events sections d →
        Environment.declare d.settings.media attributes
            d.scope.environment =
          .ok x →
        (T (events ++ [.opened name attributes depth])).Admits x
          attributes

namespace Follows

variable {first d : State} {events : List Event}
variable {sections : List (List Note)}

/- One more event meets the standard for the events with it. -/
theorem step
    {T : List Event → Standard}
    (h : Follows first T)
    (hRun : Run first events sections d)
    (hd : (T events).InState d)
    (event : Event) :
    (∀ q ∈ Note.quads (process d event).2,
        (T (events ++ [event])).quad q) ∧
      ∀ d', (process d event).1 = .ok d' →
        (T (events ++ [event])).InState d' := by
  refine process_meets (h.lawful _) (hd.mono (h.grows events event)) ?_
  rintro name attributes depth x rfl hDeclares
  exact h.admits events sections d name attributes depth x hRun
    hDeclares

/- What is held after a run meets the standard for its events. -/
theorem run
    {T : List Event → Standard}
    (h : Follows first T)
    (hRun : Run first events sections d) :
    (T events).InState d := by
  refine Run.concat_induction
    (P := fun events _ d => (T events).InState d) h.begins ?_ hRun
  intro events sections d event notes d' hBefore hd hStep
  refine (h.step hBefore hd event).2 d' ?_
  rw [hStep]

end Follows

/- Any notes were left by an event, after those before it. -/
theorem exists_run_of_section
    {first : State}
    {events : List Event}
    {k : Nat}
    {notes : List Note}
    (h : (Extraction.evaluate first events).1[k]? = some notes) :
    ∃ event sections d,
      events[k]? = some event ∧
        Run first (events.take k) sections d ∧
        (process d event).2 = notes := by
  induction events generalizing first k with
  | nil => cases h
  | cons event rest ih =>
      unfold Extraction.evaluate at h
      cases hStep : process first event with
      | mk outcome own =>
          rw [hStep] at h
          cases outcome with
          | error fault =>
              cases k with
              | zero =>
                  cases h
                  refine ⟨event, [], first, rfl, .nil first, ?_⟩
                  rw [hStep]
              | succ k => cases h
          | ok next =>
              cases k with
              | zero =>
                  cases h
                  refine ⟨event, [], first, rfl, .nil first, ?_⟩
                  rw [hStep]
              | succ k =>
                  rcases ih h with
                    ⟨other, sections, d, hEvent, hRun, hNotes⟩
                  exact ⟨other, _, d, hEvent, .cons hStep hRun, hNotes⟩

/- Every quad of an evaluation meets the standard of its event. -/
theorem Follows.quads
    {first : State}
    {T : List Event → Standard}
    (h : Follows first T)
    {events : List Event}
    {k : Nat}
    {notes : List Note}
    (hSection : (Extraction.evaluate first events).1[k]? = some notes) :
    ∀ q ∈ Note.quads notes, (T (events.take (k + 1))).quad q := by
  rcases exists_run_of_section hSection with
    ⟨event, sections, d, hEvent, hRun, rfl⟩
  rw [List.take_add_one, hEvent]
  exact (h.step hRun (h.run hRun) event).1

end Standard
end LinkedMarkup
