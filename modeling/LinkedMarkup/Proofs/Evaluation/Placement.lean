import LinkedMarkup.Proofs.Evaluation.Opening
import LinkedMarkup.Proofs.Evaluation.Run
import LinkedMarkup.Proofs.Lists.Writing

/-
  This file proves that well-nested events all find their
  place: the first that fails does not fail for the order of
  the tags, but for what is said in it, or for a list.

  Key definitions include:
    * `Fault.isUnbalanced`
    * `Evaluation.Placed`
    * `Evaluation.CoversPlaced`
    * `Evaluation.FailsInPlace`

  Main declarations:
    * `Evaluation.fault_of_placed`
    * `Evaluation.fails_in_place`
    * `Extraction.balanced_of_nested`
-/

namespace LinkedMarkup

/- A fault of tags that do not match, or of a missing end tag. -/
def Fault.isUnbalanced :
    Fault → Bool
  | unexpectedEnd _ => true
  | mismatchedEnd _ _ => true
  | unclosed _ => true
  | _ => false

namespace Evaluation

open Work

------------------------------------------------------------
-- Events in their place
------------------------------------------------------------

/-
  An event that has a place in an evaluation: if it is an end
  tag, then that of the innermost element.
-/
structure Placed
    (d : State)
    (event : Event) : Prop where
  closed :
    ∀ name depth, event = .closed name depth →
      ∃ e rest, d.elements = e :: rest ∧ e.name = name
  known : ∀ description, event ≠ .unknown description

/- Start tags have a place everywhere. -/
theorem placed_opened
    (d : State)
    (name : String)
    (attributes : Entries)
    (depth : Nat) :
    Placed d (.opened name attributes depth) where
  closed _ _ hEq := by cases hEq
  known _ hEq := by cases hEq

/- Text has, too. -/
theorem placed_text
    (d : State)
    (data : String) :
    Placed d (.text data) where
  closed _ _ hEq := by cases hEq
  known _ hEq := by cases hEq

theorem placed_closed
    {d : State}
    {name : String}
    (h : ∃ e rest, d.elements = e :: rest ∧ e.name = name)
    (depth : Nat) :
    Placed d (.closed name depth) where
  closed _ _ hEq := by
    cases hEq
    exact h
  known _ hEq := by cases hEq

/-
  Faults among which are all that an event in its place may
  end in: those of addresses, of quads that lack an end, and
  of lists that are filled too late or belong to no subject.
-/
structure CoversPlaced
    (E : Fault → Prop) : Prop where
  value : ∀ fault, fault.kind = .value → E fault
  gaps : AllowsGaps E
  flushed : ∀ p, E (.listFlushed p)
  unowned : E .listWithoutSubject

section Covering

variable {E : Fault → Prop}

/- Lists are refused at the end of an element without a subject. -/
theorem fault_of_flushLists
    {s t : Session}
    {list : Nat}
    {subject : Option Subject}
    {fault : Fault}
    (h : flushLists list subject s = (.error fault, t)) :
    fault = .listWithoutSubject := by
  by_cases hFlushed : s.lists.flushed list = true
  · have hSlot : (s.lists.slot list).flushed = true := hFlushed
    simp [flushLists, ListForest.flush, hSlot, stateAll_eq] at h
  · have hOpen : s.lists.flushed list = false := by simpa using hFlushed
    cases subject with
    | some x =>
        rw [flushLists_eq hOpen x] at h
        cases h
    | none =>
        by_cases hLists : (s.lists.slot list).lists = []
        · rw [flushLists_of_lists_eq_nil hOpen hLists] at h
          cases h
        · rw [flushLists_none hOpen hLists] at h
          cases h
          rfl

theorem keeps_covered
    (hE : CoversPlaced E) :
    Work.Keeps (fun _ _ => True) E where
  quad _ _ _ _ := trivial
  line _ _ _ _ := trivial
  fresh _ _ _ := trivial
  labelled _ _ _ _ := trivial
  value := hE.value

theorem keepsFilling_covered
    (hE : CoversPlaced E) :
    Work.KeepsFilling (fun _ _ => True) E where
  ensure _ _ _ _ _ _ _ := trivial
  append _ _ _ _ _ _ _ _ := trivial
  flushed _ _ _ p _ _ _ := hE.flushed p

theorem keepsMaking_true
    (collects : Bool) :
    Work.KeepsMaking (fun _ _ => True) collects where
  root _ _ _ := trivial
  child _ _ _ _ _ := trivial

/- An event that has a place only fails in a way that is covered. -/
theorem fault_of_placed
    (hE : CoversPlaced E)
    {d : State}
    {event : Event}
    {fault : Fault}
    {notes : List Note}
    (hPlaced : Placed d event)
    (h : process d event = (.error fault, notes)) :
    E fault := by
  rcases process_error_cases h with
    ⟨name, attributes, depth, t, rfl, hOpen⟩ |
      ⟨name, depth, e, rest, t, rfl, hElements, _, hClose⟩ |
      ⟨name, depth, rfl, hNone⟩ | ⟨description, rfl⟩
  · exact
      ((keeps_covered hE).openElement (keepsFilling_covered hE)
        (keepsMaking_true _) (uses_true d.scope) (.inl hE.gaps) trivial
        name attributes).2 fault t hOpen
  · rcases andThen_eq_error hClose with
      hComplete | ⟨_, m, _, hFlush⟩
    · have hUses : e.Uses (fun _ => True) :=
        ⟨uses_true e.scope, trivial, fun _ _ => trivial⟩
      exact
        ((keeps_covered hE).completeElement (keepsFilling_covered hE)
          hUses trivial).2 fault t hComplete
    · rw [fault_of_flushLists hFlush]
      exact hE.unowned
  · rcases hPlaced.closed name depth rfl with
      ⟨e, rest, hElements, hName⟩
    exact absurd hName (hNone e rest hElements)
  · exact absurd rfl (hPlaced.known description)

end Covering

/- An event without a place fails for that alone. -/
theorem fault_of_not_placed
    {d : State}
    {event : Event}
    {fault : Fault}
    {notes : List Note}
    (hPlaced : ¬ Placed d event)
    (h : process d event = (.error fault, notes)) :
    (∃ name, fault = .unexpectedEnd name) ∨
      (∃ opened closed, fault = .mismatchedEnd opened closed) ∨
      ∃ description, fault = .unexpectedEvent description := by
  rcases process_error_cases h with
    ⟨name, attributes, depth, t, rfl, _⟩ |
      ⟨name, depth, e, rest, t, rfl, hElements, hName, _⟩ |
      ⟨name, depth, rfl, hNone⟩ | ⟨description, rfl⟩
  · exact absurd (placed_opened d name attributes depth) hPlaced
  · exact absurd (placed_closed ⟨e, rest, hElements, hName⟩ depth)
      hPlaced
  · cases hElements : d.elements with
    | nil =>
        simp only [process, readEvent, hElements] at h
        cases h
        exact .inl ⟨name, rfl⟩
    | cons e rest =>
        rw [process_of_mismatch hElements (hNone e rest hElements) depth]
          at h
        cases h
        exact .inr (.inl ⟨e.name, name, rfl⟩)
  · simp only [process, readEvent] at h
    cases h
    exact .inr (.inr ⟨description, rfl⟩)

/- Nothing that ends an event in its place is about its place. -/
theorem coversPlaced_balanced :
    CoversPlaced (fun fault => fault.isUnbalanced = false) where
  value fault hKind := by
    cases fault <;> first | rfl | cases hKind
  gaps := ⟨rfl, rfl⟩
  flushed _ := rfl
  unowned := rfl

------------------------------------------------------------
-- Runs that fail
------------------------------------------------------------

/- A start tag that was processed is the innermost element. -/
theorem exists_top_of_process_opened
    {d m : State}
    {name : String}
    {attributes : Entries}
    {depth : Nat}
    {notes : List Note}
    (h : process d (.opened name attributes depth) = (.ok m, notes)) :
    ∃ e rest, m.elements = e :: rest ∧ e.name = name := by
  rcases process_opened h with ⟨e, t, hOpen, rfl⟩
  have hOpened :=
    openElement_opened _ _ _ name attributes d.fresh e t hOpen
  exact ⟨e, _, rfl, hOpened.name_eq⟩

/- It is so again after what is well-nested inside it. -/
theorem exists_top_of_run_nested
    {d m n : State}
    {name : String}
    {attributes : Entries}
    {depth : Nat}
    {notes : List Note}
    {inner : List Event}
    {sections : List (List Note)}
    (hOpen :
      process d (.opened name attributes depth) = (.ok m, notes))
    (hInner : Event.Nested inner)
    (hRun : Run m inner sections n) :
    ∃ e rest, n.elements = e :: rest ∧ e.name = name := by
  rcases exists_top_of_process_opened hOpen with
    ⟨e, others, hElements, hName⟩
  have hBare := (run_nested hInner hRun).2.2
  rw [hElements] at hBare
  rcases exists_top_of_bare hBare with ⟨e', rest', hAfter, hSame, _⟩
  have hSameName : e'.bare.name = e.bare.name :=
    congrArg Element.name hSame
  exact ⟨e', rest', hAfter, hSameName.trans hName⟩

/-
  A run that fails at an event which has its place in the
  evaluation that the events before it lead to.
-/
inductive FailsInPlace
    (d : State)
    (events : List Event)
    (fault : Fault) : Prop where
  | mk
      {before rest : List Event}
      {event : Event}
      {sections : List (List Note)}
      {m : State}
      {notes : List Note}
      (hEvents : events = before ++ event :: rest)
      (hRun : Run d before sections m)
      (hPlaced : Placed m event)
      (hStep : process m event = (.error fault, notes)) :
      FailsInPlace d events fault

theorem FailsInPlace.after
    {d m : State}
    {first events : List Event}
    {sections : List (List Note)}
    {fault : Fault}
    (hRun : Run d first sections m)
    (h : FailsInPlace m events fault) :
    FailsInPlace d (first ++ events) fault := by
  rcases h with ⟨rfl, hBefore, hPlaced, hStep⟩
  exact .mk (List.append_assoc ..).symm (hRun.append hBefore) hPlaced
    hStep

theorem FailsInPlace.append
    {d : State}
    {events : List Event}
    {fault : Fault}
    (h : FailsInPlace d events fault)
    (more : List Event) :
    FailsInPlace d (events ++ more) fault := by
  rcases h with ⟨rfl, hBefore, hPlaced, hStep⟩
  exact .mk (List.append_assoc ..) hBefore hPlaced hStep

/- A run fails at its first event if that has its place, or later. -/
theorem FailsInPlace.cons
    {d : State}
    {event : Event}
    {rest : List Event}
    {fault : Fault}
    (hPlaced : Placed d event)
    (h : (Extraction.evaluate d (event :: rest)).2 = .error fault)
    (hRest :
      ∀ m notes, process d event = (.ok m, notes) →
        (Extraction.evaluate m rest).2 = .error fault →
          FailsInPlace m rest fault) :
    FailsInPlace d (event :: rest) fault := by
  rw [evaluate_cons] at h
  cases hStep : process d event with
  | mk outcome notes =>
      rw [hStep] at h
      cases outcome with
      | error cause =>
          cases h
          exact .mk rfl (.nil d) hPlaced hStep
      | ok m =>
          exact (hRest m notes hStep h).after
            (.cons hStep (.nil m))

/- Well-nested events only fail in their place. -/
theorem fails_in_place
    {events : List Event}
    (hNested : Event.Nested events)
    {d : State}
    {fault : Fault}
    (h : (Extraction.evaluate d events).2 = .error fault) :
    FailsInPlace d events fault := by
  induction hNested generalizing d with
  | nil => cases h
  | text data _ ih =>
      exact .cons (placed_text d data) h (fun m _ _ => ih)
  | @element name attributes depth depth' inner rest hInner _ ihInner
      ihRest =>
      refine .cons (placed_opened d name attributes depth) h ?_
      intro m notes hOpen hAfter
      rw [evaluate_append] at hAfter
      cases hInside : Extraction.evaluate m inner with
      | mk sections outcome =>
          rw [hInside] at hAfter
          cases outcome with
          | error cause =>
              cases hAfter
              exact (ihInner (by rw [hInside])).append _
          | ok n =>
              have hRun := run_of_evaluate hInside
              have hTop := exists_top_of_run_nested hOpen hInner hRun
              refine FailsInPlace.after hRun ?_
              exact .cons (placed_closed hTop depth') hAfter
                (fun m' _ _ => ihRest)

end Evaluation

------------------------------------------------------------
-- Whole documents
------------------------------------------------------------

namespace Extraction

/-
  What ends the extraction of well-nested events: a base that
  is refused, or an event that fails in its place.
-/
theorem fault?_of_nested
    {settings : Settings}
    {base : String}
    {opening : List Note}
    {events : List Event}
    (hNested : Event.Nested events)
    {fault : Fault}
    (h :
      (ofBase settings base opening ⟨events, none⟩).fault? =
        some fault) :
    Evaluation.start settings base = .error fault ∨
      ∃ first,
        Evaluation.start settings base = .ok first ∧
          Evaluation.FailsInPlace first events fault := by
  unfold ofBase at h
  cases hStart : Evaluation.start settings base with
  | error cause =>
      rw [hStart] at h
      cases h
      exact .inl rfl
  | ok first =>
      rw [hStart] at h
      right
      refine ⟨first, rfl, ?_⟩
      unfold ofTrace at h
      cases hRun : evaluate first events with
      | mk sections outcome =>
          simp only [hRun] at h
          cases outcome with
          | error cause =>
              cases h
              exact Evaluation.fails_in_place hNested (by rw [hRun])
          | ok final =>
              -- All elements are closed, so the end is no fault.
              have hEnd :=
                Evaluation.finish_of_run_nested hStart hNested
                  (Evaluation.run_of_evaluate hRun)
              simp [endingFault?, hEnd] at h

/- Well-nested events never end for the order of their tags. -/
theorem balanced_of_nested
    {settings : Settings}
    {base : String}
    {opening : List Note}
    {events : List Event}
    (hNested : Event.Nested events)
    {fault : Fault}
    (h :
      (ofBase settings base opening ⟨events, none⟩).fault? =
        some fault) :
    fault.isUnbalanced = false := by
  rcases fault?_of_nested hNested h with
    hStart | ⟨first, _, ⟨_, _, hPlaced, hStep⟩⟩
  · rcases Evaluation.start_eq_error hStart with hDocument | rfl
    · exact Evaluation.coversPlaced_balanced.value fault
        (Iri.kind_of_withoutFragment_error hDocument)
    · rfl
  · exact Evaluation.fault_of_placed Evaluation.coversPlaced_balanced
      hPlaced hStep

end Extraction
end LinkedMarkup
