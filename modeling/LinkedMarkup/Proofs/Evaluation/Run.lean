import LinkedMarkup.Annotation.Extraction
import LinkedMarkup.Proofs.Work.Ensures

/-
  This file proves what processing events does step by step:
  what each kind of event needs and leaves behind, how runs
  are put together, and that well-nested events leave the open
  elements as they were, but for the text they captured.

  Key definitions include:
    * `Event.Nested`
    * `Event.IsElement`
    * `Event.Within`
    * `Evaluation.Run`
    * `Evaluation.State.after`
    * `Element.bare`
    * `Element.capturing`
    * `Evaluation.innermost`

  Main declarations:
    * `Evaluation.process_ok_cases`
    * `Evaluation.process_error_cases`
    * `Evaluation.evaluate_append`
    * `Evaluation.run_nested`
    * `Evaluation.elements_of_run_nested`
-/

namespace LinkedMarkup

------------------------------------------------------------
-- Well-nested events
------------------------------------------------------------

namespace Event

/-
  Events in which every start tag has an end tag of the same
  name, in the right order, with any texts around them.
-/
inductive Nested : List Event → Prop where
  | nil : Nested []
  | text
      (data : String)
      {rest : List Event}
      (hRest : Nested rest) :
      Nested (.text data :: rest)
  | element
      (name : String)
      (attributes : Entries)
      (depth depth' : Nat)
      {inner rest : List Event}
      (hInner : Nested inner)
      (hRest : Nested rest) :
      Nested
        (.opened name attributes depth ::
          (inner ++ .closed name depth' :: rest))

/- Events that open and close one whole element. -/
def IsElement
    (events : List Event) : Prop :=
  ∃ name attributes depth depth' inner,
    Nested inner ∧
      events =
        .opened name attributes depth ::
          (inner ++ [.closed name depth'])

theorem IsElement.nested
    {events : List Event}
    (h : IsElement events) :
    Nested events := by
  rcases h with
    ⟨name, attributes, depth, depth', inner, hInner, rfl⟩
  exact .element name attributes depth depth' hInner .nil

/-
  How many of some elements are open before and after an
  event that does not close any other.
-/
inductive Moves : Nat → Event → Nat → Prop where
  | opened
      {n : Nat}
      (name : String)
      (attributes : Entries)
      (depth : Nat) :
      Moves n (.opened name attributes depth) (n + 1)
  | text
      {n : Nat}
      (data : String) :
      Moves n (.text data) n
  | closed
      {n : Nat}
      (name : String)
      (depth : Nat) :
      Moves (n + 1) (.closed name depth) n

/- Events that close only elements among the innermost ones. -/
inductive Within : Nat → List Event → Prop where
  | nil {n : Nat} : Within n []
  | step
      {n m : Nat}
      {event : Event}
      {rest : List Event}
      (hMoves : Moves n event m)
      (hRest : Within m rest) :
      Within n (event :: rest)

/- Well-nested events close only elements that they open. -/
theorem Nested.within_append
    {events rest : List Event}
    (h : Nested events)
    {n : Nat}
    (hRest : Within n rest) :
    Within n (events ++ rest) := by
  induction h generalizing n rest with
  | nil => exact hRest
  | text data _ ih => exact .step (.text data) (ih hRest)
  | element name attributes depth depth' _ _ ihInner ihRest =>
      rw [List.cons_append, List.append_assoc]
      exact .step (.opened name attributes depth)
        (ihInner (.step (.closed name depth') (ihRest hRest)))

theorem Nested.within
    {events : List Event}
    (h : Nested events)
    (n : Nat) :
    Within n events := by
  have hAppend := h.within_append (n := n) .nil
  rw [List.append_nil] at hAppend
  exact hAppend

end Event

------------------------------------------------------------
-- Elements without captured text
------------------------------------------------------------

namespace Pending

/- What waits for content, without the text found so far. -/
def bare
    (p : Pending) : Pending :=
  { p with text := "" }

theorem bare_capture
    (p : Pending)
    (event : Event) :
    (p.capture event).bare = p.bare := by
  unfold capture
  split
  · rfl
  · split <;> rfl

end Pending

namespace Element

/- An open element without the text it has captured. -/
def bare
    (e : Element) : Element :=
  { e with pending := e.pending.map Pending.bare }

theorem bare_capture
    (e : Element)
    (event : Event) :
    (e.capture event).bare = e.bare := by
  unfold bare capture
  cases e.pending with
  | none => rfl
  | some p =>
      simp only [Option.map_some, Pending.bare_capture]

/- An open element after the events inside it. -/
def capturing
    (e : Element)
    (events : List Event) : Element :=
  events.foldl Element.capture e

theorem capturing_append
    (e : Element)
    (first second : List Event) :
    e.capturing (first ++ second) =
      (e.capturing first).capturing second :=
  List.foldl_append

/- Nothing is captured where nothing waits for content. -/
theorem capturing_of_pending_eq_none
    {e : Element}
    (h : e.pending = none)
    (events : List Event) :
    e.capturing events = e := by
  induction events with
  | nil => rfl
  | cons event rest ih =>
      have hSame : e.capture event = e := by
        unfold capture
        rw [h]
        exact congrArg (Element.mk e.name e.scope e.subject e.list)
          h.symm
      unfold capturing at ih ⊢
      rw [List.foldl_cons, hSame, ih]

end Element

namespace Evaluation

/- The scope inside the innermost of some open elements. -/
def innermost
    (outer : Scope) :
    List Element → Scope
  | [] => outer
  | e :: _ => e.scope

theorem scope_eq_innermost
    (d : State) :
    d.scope = innermost d.outer d.elements := by
  unfold State.scope
  cases d.elements <;> rfl

theorem innermost_captureAll
    (outer : Scope)
    (event : Event)
    (elements : List Element) :
    innermost outer (captureAll event elements) =
      innermost outer elements := by
  cases elements <;> rfl

/- Events inside elements only add to what these capture. -/
theorem bare_captureAll
    (event : Event)
    (elements : List Element) :
    (captureAll event elements).map Element.bare =
      elements.map Element.bare := by
  unfold captureAll
  rw [List.map_map]
  exact List.map_congr_left
    (fun e _ => Element.bare_capture e event)

/- A scope does not depend on captured text. -/
theorem scope_eq_of_bare
    {d d' : State}
    (hOuter : d'.outer = d.outer)
    (hElements :
      d'.elements.map Element.bare = d.elements.map Element.bare) :
    d'.scope = d.scope := by
  unfold State.scope
  cases hLeft : d.elements with
  | nil =>
      rw [hLeft, List.map_nil, List.map_eq_nil_iff] at hElements
      rw [hElements]
      exact hOuter
  | cons e rest =>
      cases hRight : d'.elements with
      | nil =>
          rw [hLeft, hRight] at hElements
          cases hElements
      | cons e' rest' =>
          rw [hLeft, hRight, List.map_cons, List.map_cons] at hElements
          have hScope : e'.bare.scope = e.bare.scope :=
            congrArg Element.scope (List.cons.inj hElements).1
          exact hScope

theorem isEmpty_eq_of_bare
    {d d' : State}
    (hElements :
      d'.elements.map Element.bare = d.elements.map Element.bare) :
    d'.elements.isEmpty = d.elements.isEmpty := by
  have hLength := congrArg List.length hElements
  rw [List.length_map, List.length_map] at hLength
  rw [Bool.eq_iff_iff, List.isEmpty_iff_length_eq_zero,
    List.isEmpty_iff_length_eq_zero, hLength]

/- The innermost of two stacks that differ in captured text. -/
theorem exists_top_of_bare
    {elements rest : List Element}
    {e : Element}
    (h : elements.map Element.bare = (e :: rest).map Element.bare) :
    ∃ e' rest',
      elements = e' :: rest' ∧ e'.bare = e.bare ∧
        rest'.map Element.bare = rest.map Element.bare := by
  rcases List.map_eq_cons_iff.mp h with
    ⟨e', rest', hElements, hTop, hRest⟩
  exact ⟨e', rest', hElements, hTop, hRest⟩

------------------------------------------------------------
-- Single events
------------------------------------------------------------

/- The session that an event is processed in: no notes yet. -/
def State.fresh
    (d : State) : Session :=
  { d.session with notes := #[] }

/- The evaluation after an event, with what is open and done. -/
def State.after
    (d : State)
    (elements : List Element)
    (s : Session) : State :=
  { d with elements := elements, session := s }

theorem closeElement_of_ok
    {e : Element}
    {s m : Session}
    (h : completeElement e s = (.ok (), m)) :
    closeElement e s = Work.flushLists e.list e.subject m := by
  unfold closeElement
  simp only [bind, Work.andThen, h]

theorem closeElement_of_error
    {e : Element}
    {s m : Session}
    {fault : Fault}
    (h : completeElement e s = (.error fault, m)) :
    closeElement e s = (.error fault, m) := by
  unfold closeElement
  simp only [bind, Work.andThen, h]

/- A start tag is processed by opening its element. -/
theorem process_of_open
    {d : State}
    {name : String}
    {attributes : Entries}
    {outcome : Except Fault Element}
    {t : Session}
    (h :
      openElement d.settings d.scope d.elements.isEmpty name
        attributes d.fresh = (outcome, t))
    (depth : Nat) :
    process d (.opened name attributes depth) =
      (outcome.map
        (fun e =>
          d.after
            (e :: captureAll (.opened name attributes depth) d.elements)
            t),
        t.notes.toList) := by
  unfold process readEvent
  simp only [bind, Work.andThen]
  unfold State.fresh at h
  rw [h]
  cases outcome <;> rfl

/- An end tag is processed by closing the innermost element. -/
theorem process_of_close
    {d : State}
    {e : Element}
    {rest : List Element}
    {outcome : Except Fault Unit}
    {t : Session}
    (hElements : d.elements = e :: rest)
    (h : closeElement e d.fresh = (outcome, t))
    (depth : Nat) :
    process d (.closed e.name depth) =
      (outcome.map
        (fun _ => d.after (captureAll (.closed e.name depth) rest) t),
        t.notes.toList) := by
  unfold process readEvent
  simp only [hElements, beq_self_eq_true, if_true, bind, Work.andThen]
  unfold State.fresh at h
  rw [h]
  cases outcome <;> rfl

/- An end tag of another name is a fault. -/
theorem process_of_mismatch
    {d : State}
    {e : Element}
    {rest : List Element}
    {name : String}
    (hElements : d.elements = e :: rest)
    (hName : e.name ≠ name)
    (depth : Nat) :
    process d (.closed name depth) =
      (.error (.mismatchedEnd e.name name), []) := by
  have hBeq : (e.name == name) = false := beq_false_of_ne hName
  unfold process readEvent
  simp only [hElements, hBeq, Bool.false_eq_true, if_false]
  rfl

/-
  What an event that was processed did: a start tag opened an
  element, a text was captured, or an end tag closed the
  innermost element.
-/
theorem process_ok_cases
    {d d' : State}
    {event : Event}
    {notes : List Note}
    (h : process d event = (.ok d', notes)) :
    (∃ name attributes depth e t,
      event = .opened name attributes depth ∧
        openElement d.settings d.scope d.elements.isEmpty name
            attributes d.fresh = (.ok e, t) ∧
        d' = d.after (e :: captureAll event d.elements) t ∧
        notes = t.notes.toList) ∨
    (∃ data,
      event = .text data ∧
        d' = d.after (captureAll event d.elements) d.fresh ∧
        notes = []) ∨
    (∃ name depth e rest m t,
      event = .closed name depth ∧
        d.elements = e :: rest ∧ e.name = name ∧
        completeElement e d.fresh = (.ok (), m) ∧
        Work.flushLists e.list e.subject m = (.ok (), t) ∧
        d' = d.after (captureAll event rest) t ∧
        notes = t.notes.toList) := by
  unfold process at h
  cases hRead : readEvent d event { d.session with notes := #[] } with
  | mk outcome s =>
      rw [hRead] at h
      cases outcome with
      | error fault => cases h
      | ok elements =>
          cases h
          cases event with
          | opened name attributes depth =>
              left
              rcases Work.andThen_eq_ok hRead with ⟨e, t, hOpen, hEnd⟩
              cases hEnd
              exact ⟨name, attributes, depth, e, s, rfl, hOpen, rfl,
                rfl⟩
          | text data =>
              right; left
              cases hRead
              exact ⟨data, rfl, rfl, rfl⟩
          | closed name depth =>
              right; right
              cases hElements : d.elements with
              | nil =>
                  simp only [readEvent, hElements] at hRead
                  cases hRead
              | cons e rest =>
                  simp only [readEvent, hElements] at hRead
                  split at hRead
                  · rename_i hName
                    rcases Work.andThen_eq_ok hRead with
                      ⟨_, t, hClose, hEnd⟩
                    cases hEnd
                    rcases Work.andThen_eq_ok hClose with
                      ⟨_, m, hComplete, hFlush⟩
                    exact ⟨name, depth, e, rest, m, s, rfl, rfl,
                      eq_of_beq hName, hComplete, hFlush, rfl, rfl⟩
                  · cases hRead
          | unknown description => cases hRead

/- A start tag that was processed opened an element. -/
theorem process_opened
    {d d' : State}
    {name : String}
    {attributes : Entries}
    {depth : Nat}
    {notes : List Note}
    (h :
      process d (.opened name attributes depth) = (.ok d', notes)) :
    ∃ e t,
      openElement d.settings d.scope d.elements.isEmpty name
          attributes d.fresh = (.ok e, t) ∧
        d' =
          d.after
            (e :: captureAll (.opened name attributes depth) d.elements)
            t := by
  rcases process_ok_cases h with
    ⟨_, _, _, e, t, hEvent, hOpen, hAfter, _⟩ | ⟨_, hEvent, _⟩ |
      ⟨_, _, _, _, _, _, hEvent, _⟩
  · cases hEvent
    exact ⟨e, t, hOpen, hAfter⟩
  · cases hEvent
  · cases hEvent

/- An end tag that was processed closed the innermost element. -/
theorem process_closed
    {d d' : State}
    {name : String}
    {depth : Nat}
    {notes : List Note}
    (h : process d (.closed name depth) = (.ok d', notes)) :
    ∃ e rest m t,
      d.elements = e :: rest ∧ e.name = name ∧
        completeElement e d.fresh = (.ok (), m) ∧
        Work.flushLists e.list e.subject m = (.ok (), t) ∧
        d' = d.after (captureAll (.closed name depth) rest) t ∧
        notes = t.notes.toList := by
  rcases process_ok_cases h with
    ⟨_, _, _, _, _, hEvent, _⟩ | ⟨_, hEvent, _⟩ |
      ⟨_, _, e, rest, m, t, hEvent, hClosed⟩
  · cases hEvent
  · cases hEvent
  · cases hEvent
    exact ⟨e, rest, m, t, hClosed⟩

/-
  Why an event could not be processed: its start tag could not
  be read, the innermost element could not be closed, or there
  is no place for it.
-/
theorem process_error_cases
    {d : State}
    {event : Event}
    {fault : Fault}
    {notes : List Note}
    (h : process d event = (.error fault, notes)) :
    (∃ name attributes depth t,
      event = .opened name attributes depth ∧
        openElement d.settings d.scope d.elements.isEmpty name
          attributes d.fresh = (.error fault, t)) ∨
    (∃ name depth e rest t,
      event = .closed name depth ∧
        d.elements = e :: rest ∧ e.name = name ∧
        closeElement e d.fresh = (.error fault, t)) ∨
    (∃ name depth,
      event = .closed name depth ∧
        ∀ e rest, d.elements = e :: rest → e.name ≠ name) ∨
    (∃ description, event = .unknown description) := by
  unfold process at h
  cases hRead : readEvent d event { d.session with notes := #[] } with
  | mk outcome s =>
      rw [hRead] at h
      cases outcome with
      | ok elements => cases h
      | error cause =>
          cases h
          cases event with
          | opened name attributes depth =>
              left
              refine ⟨name, attributes, depth, s, rfl, ?_⟩
              rcases Work.andThen_eq_error hRead with
                hOpen | ⟨_, _, _, hDone⟩
              · exact hOpen
              · cases hDone
          | text data => cases hRead
          | closed name depth =>
              right
              cases hElements : d.elements with
              | nil =>
                  right; left
                  refine ⟨name, depth, rfl, ?_⟩
                  intro e rest hCons
                  cases hCons
              | cons e rest =>
                  simp only [readEvent, hElements] at hRead
                  split at hRead
                  · rename_i hName
                    left
                    refine ⟨name, depth, e, rest, s, rfl, rfl,
                      eq_of_beq hName, ?_⟩
                    rcases Work.andThen_eq_error hRead with
                      hClose | ⟨_, _, _, hDone⟩
                    · exact hClose
                    · cases hDone
                  · rename_i hName
                    right; left
                    refine ⟨name, depth, rfl, ?_⟩
                    intro e' rest' hCons hEq
                    cases hCons
                    exact hName (beq_iff_eq.mpr hEq)
          | unknown description =>
              right; right; right
              exact ⟨description, rfl⟩

/- Processing an event changes neither settings nor the outside. -/
theorem process_keeps
    {d d' : State}
    {event : Event}
    {notes : List Note}
    (h : process d event = (.ok d', notes)) :
    d'.settings = d.settings ∧ d'.outer = d.outer := by
  rcases process_ok_cases h with
    ⟨_, _, _, _, _, _, _, rfl, _⟩ | ⟨_, _, rfl, _⟩ |
      ⟨_, _, _, _, _, _, _, _, _, _, _, rfl, _⟩
  · exact ⟨rfl, rfl⟩
  · exact ⟨rfl, rfl⟩
  · exact ⟨rfl, rfl⟩

------------------------------------------------------------
-- Starts
------------------------------------------------------------

/- What an evaluation starts as, read against a document's IRI. -/
def State.initial
    (settings : Settings)
    (document : String)
    (iri : Iri) : State where
  settings := settings
  outer :=
    Scope.initial document (.iri iri) settings.options.prefixes
      settings.options.terms Session.start.lists.slots.size
  elements := []
  session :=
    { Session.start with
      lists :=
        (Session.start.lists.root
          (settings.options.listStyle == .collection)).2 }

/- An evaluation starts if its base is an IRI of a document. -/
theorem start_eq_ok
    {settings : Settings}
    {base : String}
    {d : State}
    (h : start settings base = .ok d) :
    ∃ document iri,
      Iri.withoutFragment base = .ok document ∧
        Iri.parse? document = some iri ∧
        d = State.initial settings document iri := by
  unfold start at h
  cases hDocument : Iri.withoutFragment base with
  | error cause =>
      rw [hDocument] at h
      cases h
  | ok document =>
      rw [hDocument] at h
      cases hIri : Iri.parse? document with
      | none =>
          simp only [bind, Except.bind, hIri] at h
          cases h
      | some iri =>
          simp only [bind, Except.bind, hIri] at h
          cases h
          exact ⟨document, iri, rfl, hIri, rfl⟩

theorem start_of_document
    {base document : String}
    {iri : Iri}
    (hDocument : Iri.withoutFragment base = .ok document)
    (hIri : Iri.parse? document = some iri)
    (settings : Settings) :
    start settings base =
      .ok (State.initial settings document iri) := by
  unfold start
  rw [hDocument]
  simp only [bind, Except.bind, hIri]
  rfl

/- Otherwise the base is at fault. -/
theorem start_eq_error
    {settings : Settings}
    {base : String}
    {fault : Fault}
    (h : start settings base = .error fault) :
    Iri.withoutFragment base = .error fault ∨
      fault = .invalidBase base := by
  unfold start at h
  cases hDocument : Iri.withoutFragment base with
  | error cause =>
      rw [hDocument] at h
      cases h
      exact .inl rfl
  | ok document =>
      rw [hDocument] at h
      cases hIri : Iri.parse? document with
      | none =>
          simp only [bind, Except.bind, hIri] at h
          cases h
          exact .inr rfl
      | some iri =>
          simp only [bind, Except.bind, hIri] at h
          cases h

------------------------------------------------------------
-- Runs
------------------------------------------------------------

/- A run over events without a fault, with the notes of each. -/
inductive Run :
    State → List Event → List (List Note) → State → Prop where
  | nil (d : State) : Run d [] [] d
  | cons
      {d m final : State}
      {event : Event}
      {rest : List Event}
      {notes : List Note}
      {sections : List (List Note)}
      (hStep : process d event = (.ok m, notes))
      (hRest : Run m rest sections final) :
      Run d (event :: rest) (notes :: sections) final

theorem run_of_evaluate
    {d final : State}
    {events : List Event}
    {sections : List (List Note)}
    (h : Extraction.evaluate d events = (sections, .ok final)) :
    Run d events sections final := by
  induction events generalizing d sections with
  | nil =>
      cases h
      exact .nil _
  | cons event rest ih =>
      unfold Extraction.evaluate at h
      split at h
      · cases h
      · rename_i m notes hStep
        cases hMore : Extraction.evaluate m rest with
        | mk more outcome =>
            simp only [hMore] at h
            cases h
            exact .cons hStep (ih hMore)

theorem evaluate_of_run
    {d final : State}
    {events : List Event}
    {sections : List (List Note)}
    (h : Run d events sections final) :
    Extraction.evaluate d events = (sections, .ok final) := by
  induction h with
  | nil d => rfl
  | cons hStep _ ih =>
      unfold Extraction.evaluate
      rw [hStep]
      simp only [ih]

/- The state that events lead to; the first one if they fail. -/
def State.through
    (d : State)
    (events : List Event) : State :=
  match (Extraction.evaluate d events).2 with
  | .ok final => final
  | .error _ => d

/- A step that gives a result, with that result. -/
theorem exists_ok_of_isOk
    {α β : Type}
    {x : Except Fault α × β}
    (h : x.1.isOk = true) :
    ∃ a, x = (.ok a, x.2) := by
  rcases x with ⟨outcome, b⟩
  cases outcome with
  | ok a => exact ⟨a, rfl⟩
  | error fault => cases h

theorem run_through
    {d : State}
    {events : List Event}
    (h : (Extraction.evaluate d events).2.isOk = true) :
    Run d events (Extraction.evaluate d events).1
      (d.through events) := by
  unfold State.through
  cases hRun : Extraction.evaluate d events with
  | mk sections outcome =>
      rw [hRun] at h
      cases outcome with
      | ok final => exact run_of_evaluate hRun
      | error fault => cases h

/- The outcome of a run goes on from that of its first event. -/
theorem evaluate_cons
    (d : State)
    (event : Event)
    (rest : List Event) :
    (Extraction.evaluate d (event :: rest)).2 =
      (process d event).1.bind
        (fun m => (Extraction.evaluate m rest).2) := by
  simp only [Extraction.evaluate]
  cases process d event with
  | mk outcome notes => cases outcome <;> rfl

/- The outcome of two parts of a run, one after the other. -/
theorem evaluate_append
    (d : State)
    (first second : List Event) :
    (Extraction.evaluate d (first ++ second)).2 =
      (Extraction.evaluate d first).2.bind
        (fun m => (Extraction.evaluate m second).2) := by
  induction first generalizing d with
  | nil => rfl
  | cons event rest ih =>
      simp only [List.cons_append, Extraction.evaluate]
      cases process d event with
      | mk outcome notes =>
          cases outcome with
          | error fault => rfl
          | ok m => exact ih m

theorem Run.append
    {d m final : State}
    {first second : List Event}
    {before after : List (List Note)}
    (hFirst : Run d first before m)
    (hSecond : Run m second after final) :
    Run d (first ++ second) (before ++ after) final := by
  induction hFirst with
  | nil _ => exact hSecond
  | cons hStep _ ih => exact .cons hStep (ih hSecond)

/- A run over two parts is a run over each. -/
theorem Run.split
    {d final : State}
    {first second : List Event}
    {sections : List (List Note)}
    (h : Run d (first ++ second) sections final) :
    ∃ m before after,
      Run d first before m ∧ Run m second after final ∧
        sections = before ++ after := by
  induction first generalizing d sections with
  | nil => exact ⟨d, [], sections, .nil d, h, rfl⟩
  | cons event rest ih =>
      cases h with
      | cons hStep hRest =>
          rcases ih hRest with ⟨m, before, after, hFirst, hSecond, rfl⟩
          exact ⟨m, _, after, .cons hStep hFirst, hSecond, rfl⟩

/-
  Well-nested events leave the open elements as they were,
  but for the text that these captured.
-/
theorem run_nested
    {events : List Event}
    (hNested : Event.Nested events)
    {d d' : State}
    {sections : List (List Note)}
    (h : Run d events sections d') :
    d'.settings = d.settings ∧ d'.outer = d.outer ∧
      d'.elements.map Element.bare = d.elements.map Element.bare := by
  induction hNested generalizing d d' sections with
  | nil =>
      cases h
      exact ⟨rfl, rfl, rfl⟩
  | text data _ ih =>
      cases h with
      | cons hStep hRest =>
          rcases ih hRest with ⟨hSettings, hOuter, hElements⟩
          have hKeeps := process_keeps hStep
          refine ⟨hSettings.trans hKeeps.1, hOuter.trans hKeeps.2, ?_⟩
          cases hStep
          rw [hElements]
          exact bare_captureAll _ _
  | element name attributes depth depth' _ _ ihInner ihRest =>
      cases h with
      | cons hOpen hAfter =>
          rcases hAfter.split with ⟨m, _, _, hInner, hOuterPart, rfl⟩
          cases hOuterPart with
          | cons hClose hRest =>
              rcases ihInner hInner with ⟨hS₁, hO₁, hE₁⟩
              rcases ihRest hRest with ⟨hS₂, hO₂, hE₂⟩
              have hKeepsOpen := process_keeps hOpen
              have hKeepsClose := process_keeps hClose
              refine ⟨?_, ?_, ?_⟩
              · rw [hS₂, hKeepsClose.1, hS₁, hKeepsOpen.1]
              · rw [hO₂, hKeepsClose.2, hO₁, hKeepsOpen.2]
              · rw [hE₂]
                rcases process_opened hOpen with ⟨e, t, _, rfl⟩
                rcases process_closed hClose with
                  ⟨e', rest', _, _, hCons, _, _, _, rfl, _⟩
                rw [hCons] at hE₁
                have hTail :
                    rest'.map Element.bare =
                      (captureAll _ d.elements).map Element.bare :=
                  (List.cons.inj hE₁).2
                change (captureAll _ rest').map Element.bare = _
                rw [bare_captureAll, hTail, bare_captureAll]

/- The open elements capture every event in between. -/
theorem elements_of_run_nested
    {events : List Event}
    (hNested : Event.Nested events)
    {d d' : State}
    {sections : List (List Note)}
    (h : Run d events sections d') :
    d'.elements = d.elements.map (fun e => e.capturing events) := by
  induction hNested generalizing d d' sections with
  | nil =>
      cases h
      exact (List.map_id _).symm
  | text data _ ih =>
      cases h with
      | cons hStep hRest =>
          cases hStep
          rw [ih hRest]
          exact List.map_map
  | element name attributes depth depth' _ _ ihInner ihRest =>
      cases h with
      | cons hOpen hAfter =>
          rcases hAfter.split with ⟨m, _, _, hInner, hOuterPart, rfl⟩
          cases hOuterPart with
          | cons hClose hRest =>
              rcases process_opened hOpen with ⟨e, t, _, rfl⟩
              rcases process_closed hClose with
                ⟨e', rest', _, _, hCons, _, _, _, rfl, _⟩
              have hInside := ihInner hInner
              rw [hCons] at hInside
              have hTail := (List.cons.inj hInside).2
              rw [ihRest hRest]
              change (captureAll _ rest').map _ = _
              rw [hTail]
              unfold captureAll
              rw [List.map_map, List.map_map, List.map_map]
              apply List.map_congr_left
              intro o _
              rw [← List.cons_append, Element.capturing_append]
              rfl

/- Events without a fault close only elements that are open. -/
theorem within_of_run
    {d d' : State}
    {events : List Event}
    {sections : List (List Note)}
    (h : Run d events sections d') :
    Event.Within d.elements.length events := by
  induction h with
  | nil _ => exact .nil
  | cons hStep _ ih =>
      refine .step ?_ ih
      rcases process_ok_cases hStep with
        ⟨name, attributes, depth, e, t, rfl, _, rfl, _⟩ |
          ⟨data, rfl, rfl, _⟩ |
          ⟨name, depth, e, rest, m, t, rfl, hElements, _, _, _, rfl,
            _⟩
      · change Event.Moves _ _ (captureAll _ _).length.succ
        unfold captureAll
        rw [List.length_map]
        exact .opened name attributes depth
      · change Event.Moves _ _ (captureAll _ _).length
        unfold captureAll
        rw [List.length_map]
        exact .text data
      · change Event.Moves _ _ (captureAll _ _).length
        unfold captureAll
        rw [List.length_map, hElements]
        exact .closed name depth

/- A document of well-nested events ends with nothing open. -/
theorem finish_of_run_nested
    {settings : Settings}
    {base : String}
    {d final : State}
    {events : List Event}
    {sections : List (List Note)}
    (hStart : start settings base = .ok d)
    (hNested : Event.Nested events)
    (hRun : Run d events sections final) :
    finish final = .ok () := by
  rcases start_eq_ok hStart with ⟨document, iri, _, _, rfl⟩
  have hBare := (run_nested hNested hRun).2.2
  have hEmpty := isEmpty_eq_of_bare hBare
  unfold finish
  rw [hEmpty]
  rfl

/- A document only ends well with nothing open. -/
theorem elements_of_finish
    {d : State}
    (h : finish d = .ok ()) :
    d.elements = [] := by
  unfold finish at h
  cases hElements : d.elements with
  | nil => rfl
  | cons e rest => simp [hElements] at h

end Evaluation
end LinkedMarkup
