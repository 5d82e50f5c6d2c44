import LinkedMarkup.Proofs.Evaluation.Values
import LinkedMarkup.Proofs.Evaluation.Wrapping
import LinkedMarkup.Proofs.Lists.Owners

/-
  This file proves when reading a document breaks an invariant
  of the library: exactly if an outermost start tag, whose
  base is no IRI to be about, relates an object to its missing
  subject. Everywhere else an element without a subject does
  no harm, whatever base is in force.

  Key definitions include:
    * `Evaluation.Steady`
    * `Evaluation.AdriftRoot`

  Main declarations:
    * `Evaluation.steady_of_process`
    * `Evaluation.buildElement_adrift`
    * `Evaluation.fault_of_steady`
    * `Extraction.breaks_invariant_iff`
-/

namespace LinkedMarkup
namespace Evaluation

open Work Coupling

------------------------------------------------------------
-- Elements without a subject
------------------------------------------------------------

/-
  An evaluation in which an element without a subject is
  chained to the lists around it, so that it has none to be
  written at its end.
-/
structure Steady
    (d : State) : Prop where
  situated : Situated d
  housed : Housed d
  ordered : d.session.lists.Ordered
  chained :
    ∀ e ∈ d.elements, e.subject = none →
      (d.session.lists.slot e.list).owner ≠ e.list

/- The lists of open elements exist. -/
theorem Housed.list_lt
    {d : State}
    (h : Housed d)
    {e : Element}
    (hMem : e ∈ d.elements) :
    e.list < d.session.lists.slots.size := by
  rcases h with ⟨W, hLodged, hUsable⟩
  exact (hUsable _ (hLodged.mem_of_mem hMem)).1

theorem chained_captureAll
    {elements : List Element}
    {f : ListForest Iri Object}
    (h :
      ∀ e ∈ elements, e.subject = none →
        (f.slot e.list).owner ≠ e.list)
    (event : Event) :
    ∀ e ∈ captureAll event elements, e.subject = none →
      (f.slot e.list).owner ≠ e.list := by
  intro e hMem
  rcases List.mem_map.mp hMem with ⟨o, hOld, rfl⟩
  exact h o hOld

/- What no element owns is chained to a list around it. -/
theorem Opened.owner_lt
    {settings : Settings}
    {parent : Scope}
    {isRoot : Bool}
    {name : String}
    {s t : Session}
    {e : Element}
    (h : Opened settings parent isRoot name s t e)
    (hOrdered : s.lists.Ordered)
    (hParent : parent.list < s.lists.slots.size)
    (hNone : e.subject = none) :
    (t.lists.slot e.list).owner < e.list := by
  have hChained : ¬ OwnsLists parent e.subject := by
    rintro ⟨hSome, _⟩
    rw [hNone] at hSome
    cases hSome
  rw [(h.child hChained).owner_eq, ListForest.slot_child, h.list_eq,
    if_pos rfl]
  exact (hOrdered.owner _ hParent).1

theorem Steady.opened
    {d : State}
    {name : String}
    {attributes : Entries}
    {depth : Nat}
    {notes : List Note}
    {e : Element}
    {t : Session}
    (h : Steady d)
    (hOpen :
      openElement d.settings d.scope d.elements.isEmpty name attributes
        d.fresh = (.ok e, t))
    (hStep :
      process d (.opened name attributes depth) =
        (.ok (d.after
          (e :: captureAll (.opened name attributes depth) d.elements)
            t), notes)) :
    Steady (d.after
      (e :: captureAll (.opened name attributes depth) d.elements) t) := by
  have hOpened :=
    openElement_opened _ _ _ name attributes d.fresh e t hOpen
  have hUses := h.housed.uses_scope
  rcases keeps_ordered.openElement keepsFilling_ordered
      (keepsMaking_ordered _) hUses (.inl ⟨trivial, trivial⟩)
      (⟨fun _ hLt => hLt, h.ordered⟩ : Ordered _ d.fresh) name
      attributes with
    ⟨hOk, _⟩
  rcases hOk e t hOpen with ⟨V, _, hOrdered, _⟩
  refine
    { situated := situated_of_process h.situated hStep
      housed := housed_of_process h.housed hStep
      ordered := hOrdered.lists
      chained := ?_ }
  intro o hMem hNone
  rcases List.mem_cons.mp hMem with rfl | hOld
  · exact Nat.ne_of_lt (hOpened.owner_lt h.ordered hUses.list hNone)
  · rcases List.mem_map.mp hOld with ⟨x, hIn, rfl⟩
    change (t.lists.slot x.list).owner ≠ x.list
    rw [hOpened.owner_eq (h.housed.list_lt hIn)]
    exact h.chained x hIn hNone

/- Completing a value leaves lists with their owners. -/
theorem Steady.ordered_of_complete
    {d : State}
    {e : Element}
    {rest : List Element}
    {m : Session}
    (h : Steady d)
    (hElements : d.elements = e :: rest)
    (hComplete : completeElement e d.fresh = (.ok (), m)) :
    m.lists.Ordered := by
  rcases keeps_ordered.completeElement keepsFilling_ordered
      (h.housed.uses_top hElements)
      (⟨fun _ hLt => hLt, h.ordered⟩ : Ordered _ d.fresh) with
    ⟨hOk, _⟩
  rcases hOk () m hComplete with ⟨V, _, hOrdered⟩
  exact hOrdered.lists

/- Every event that is processed leaves an evaluation steady. -/
theorem steady_of_process
    {d d' : State}
    {event : Event}
    {notes : List Note}
    (h : Steady d)
    (hStep : process d event = (.ok d', notes)) :
    Steady d' := by
  rcases process_ok_cases hStep with
    ⟨name, attributes, depth, e, t, rfl, hOpen, rfl, _⟩ |
      ⟨data, rfl, rfl, _⟩ |
      ⟨name, depth, e, rest, m, t, rfl, hElements, _, hComplete,
        hFlush, rfl, _⟩
  · exact h.opened hOpen hStep
  · exact
      { situated := situated_of_process h.situated hStep
        housed := housed_of_process h.housed hStep
        ordered := h.ordered
        chained := chained_captureAll h.chained _ }
  · have hShape := sameShape_of_completeElement hComplete
    have hMarked :=
      lists_of_flushLists (h.housed.unflushed hElements hComplete)
        hFlush
    refine
      { situated := situated_of_process h.situated hStep
        housed := housed_of_process h.housed hStep
        ordered := ?_
        chained := chained_captureAll ?_ _ }
    · change t.lists.Ordered
      rw [hMarked]
      exact (h.ordered_of_complete hElements hComplete).marked e.list
    · intro o hOld hNone
      change (t.lists.slot o.list).owner ≠ o.list
      rw [hMarked, ListForest.owner_marked, hShape.owner_eq]
      refine h.chained o ?_ hNone
      rw [hElements]
      exact List.mem_cons_of_mem e hOld

theorem steady_of_run
    {settings : Settings}
    {base : String}
    {first d : State}
    {events : List Event}
    {sections : List (List Note)}
    (hStart : start settings base = .ok first)
    (hRun : Run first events sections d) :
    Steady d := by
  have hFirst : Steady first := by
    have hHoused := housed_of_start hStart
    have hSituated := situated_of_run hStart (.nil first)
    rcases start_eq_ok hStart with ⟨document, iri, _, _, rfl⟩
    exact
      { situated := hSituated
        housed := hHoused
        ordered := ListForest.ordered_empty.root _
        chained := by simp [State.initial] }
  clear hStart
  induction hRun with
  | nil _ => exact hFirst
  | cons hStep _ ih => exact ih (steady_of_process hFirst hStep)

------------------------------------------------------------
-- Start tags outside of all elements
------------------------------------------------------------

/- A root has a subject if the base in force names a document. -/
theorem readTag_yields_root
    (settings : Settings)
    (parent : Scope)
    (name : String)
    (attributes : Entries) :
    (readTag settings parent true name attributes).Yields
      (fun tag =>
        NamesDocument tag.scope.base →
          tag.parts.subject.isSome = true) := by
  unfold readTag
  apply yields_bind
  intro scope
  apply yields_bind
  intro rel
  apply yields_bind
  intro rev
  refine Yields.bind
    (P := fun named =>
      NamesDocument scope.base → named.about.isSome = true) ?_ ?_
  · intro s named t hRun hNames
    exact readNamed_yields_root hNames settings parent name attributes
      s named t hRun
  · intro named hAbout
    refine (roles_yields parent named _ _ _ _).bind ?_
    intro parts hSettled
    apply yields_bind
    intro _
    exact yields_pure
      (fun hNames => hSettled.subject (.inl (hAbout hNames)))

/- Relations without a subject fail where they meet an object. -/
theorem relate_adrift
    {parts : Roles}
    {inList : Bool}
    {rel rev : List Iri}
    (h : Adrift parts inList rel rev)
    {s : Session}
    {list : Nat}
    (hOpen : s.lists.flushed list = false) :
    ∃ fault t,
      relate parts list inList rel rev s = (.error fault, t) ∧
        fault.kind = .invariant := by
  rcases Option.isSome_iff_exists.mp h.object with ⟨object, hObject⟩
  unfold relate
  rw [hObject, h.subject]
  by_cases hForward : rel ≠ [] ∧ inList = false
  · -- The first forward relation already has no subject.
    rcases hForward with ⟨hRel, rfl⟩
    cases rel with
    | nil => exact absurd rfl hRel
    | cons p rel =>
        exact ⟨.badSubject (Term.describedOption none), s, rfl, rfl⟩
  · -- Forward relations all go to lists, a reverse one fails.
    have hListed :
        (Work.forEach
          (stateOrList none list inList object.toObject) rel).Tells s ()
            (rel.map (fun p => .filed ⟨list, p, object.toObject⟩)) := by
      apply tells_forEach
      intro p hMem t hShape
      have hInList : inList = true := by
        by_contra hNot
        exact hForward
          ⟨List.ne_nil_of_mem hMem, by simpa using hNot⟩
      unfold stateOrList
      rw [if_pos hInList]
      exact tells_appendToList ((hShape.flushed_eq list).trans hOpen) p _
    have hRev : rev ≠ [] := h.relation.resolve_left hForward
    cases rev with
    | nil => exact absurd rfl hRev
    | cons p rev =>
        have hFails :
            stateRelations none object list inList rel (p :: rev) s =
              (.error (.badObject (Term.describedOption none)),
                s.told (rel.map (fun p =>
                  .filed ⟨list, p, object.toObject⟩))) :=
          (bind_of_ok hListed _).trans (by cases object <;> rfl)
        exact ⟨_, _, bind_of_error hFails _, rfl⟩

theorem buildElement_adrift
    {attributes : Entries}
    {tag : Reading}
    (h : Adrift tag.parts (attributes.has "inlist") tag.rel tag.rev)
    (settings : Settings)
    (parent : Scope)
    (name : String)
    (s : Session) :
    ∃ fault t,
      buildElement settings parent name attributes tag s =
          (.error fault, t) ∧
        fault.kind = .invariant := by
  have hList :
      listFor settings parent tag.parts.subject s =
        (.ok (s.lists.child parent.list).1,
          { s with lists := (s.lists.child parent.list).2 }) := by
    rw [h.subject]
    rfl
  have hOpen :
      (s.lists.child parent.list).2.flushed
          (s.lists.child parent.list).1 =
        false := by
    rw [ListForest.flushed_child]
    exact ListForest.flushed_of_size_le (Nat.le_refl _)
  rcases relate_adrift h
      (s := { s with lists := (s.lists.child parent.list).2 }) hOpen with
    ⟨fault, t, hRelate, hKind⟩
  refine ⟨fault, t, ?_, hKind⟩
  unfold buildElement
  exact (bind_of_ok hList _).trans (bind_of_error hRelate _)

------------------------------------------------------------
-- Single events
------------------------------------------------------------

/- The lists of a steady evaluation's elements can be written. -/
theorem Steady.flushes
    {d : State}
    {e : Element}
    {rest : List Element}
    {m : Session}
    (h : Steady d)
    (hElements : d.elements = e :: rest)
    (hComplete : completeElement e d.fresh = (.ok (), m)) :
    ∃ t, flushLists e.list e.subject m = (.ok (), t) := by
  have hOpen := h.housed.unflushed hElements hComplete
  cases hSubject : e.subject with
  | some x => exact ⟨_, flushLists_eq hOpen x⟩
  | none =>
      have hMem : e ∈ d.elements := by
        rw [hElements]
        exact List.mem_cons_self
      have hLists : (m.lists.slot e.list).lists = [] := by
        apply (h.ordered_of_complete hElements hComplete).lists
        rw [(sameShape_of_completeElement hComplete).owner_eq]
        exact h.chained e hMem hSubject
      exact ⟨_, flushLists_of_lists_eq_nil hOpen hLists none⟩

/-
  A start tag that fails in a steady evaluation does so for an
  address that cannot be read, unless it is adrift outside of
  all elements.
-/
theorem fault_of_openElement
    {d : State}
    {name : String}
    {attributes : Entries}
    {fault : Fault}
    {t : Session}
    (hSteady : Steady d)
    (h :
      openElement d.settings d.scope d.elements.isEmpty name attributes
        d.fresh = (.error fault, t)) :
    fault.kind = .value ∨
      ∃ tag m,
        d.elements = [] ∧
          readTag d.settings d.scope true name attributes d.fresh =
            (.ok tag, m) ∧
          ¬ NamesDocument tag.scope.base ∧
          Adrift tag.parts (attributes.has "inlist") tag.rel
            tag.rev := by
  rcases hSteady.housed with ⟨W, hLodged, hUsable⟩
  have hC := Coupling.keeping_sound keeps_usable_value
  have hParent :=
    Coupling.scopesMatch_self (I := Usable)
      (E := fun cause => cause.kind = .value) hLodged.uses_scope
  have hTag :=
    (Coupling.readTag_coupled hC (Settings.Agree.refl d.settings)
      hParent d.elements.isEmpty name attributes).run
        (usable_fresh hUsable)
  rw [openElement_eq] at h
  rcases andThen_eq_error h with hRead | ⟨tag, m, hRead, hBuild⟩
  · exact .inl (hTag.2 fault t hRead)
  rcases hTag.1 tag m hRead with
    ⟨V, hGrows, hAfter, hReading, hSubject⟩
  by_cases hAdrift :
      Adrift tag.parts (attributes.has "inlist") tag.rel tag.rev
  · right
    have hNoSubject : ¬ tag.parts.subject.isSome = true := by
      rw [hAdrift.subject]
      simp
    have hNone : d.elements = [] := by
      by_contra hInside
      exact hNoSubject
        (hSubject
          ⟨hSteady.situated.scope_subject,
            .inl (hSteady.situated.scope_object hInside)⟩)
    have hOutermost : d.elements.isEmpty = true := by
      rw [hNone]
      rfl
    rw [hOutermost] at hRead
    refine ⟨tag, m, hNone, hRead, ?_, hAdrift⟩
    intro hNames
    exact hNoSubject
      (readTag_yields_root _ _ _ _ _ tag m hRead hNames)
  · left
    exact
      ((Coupling.buildElement_coupled hC
        (Coupling.keeping_fills (keepsFilling_usable _))
        (Settings.Agree.refl d.settings)
        (Coupling.keeping_makes (keepsMaking_usable _))
        (hParent.mono hC hGrows) hReading name attributes
        (.inr hAdrift)
        (.inr hSteady.situated.scope_subject)).run hAfter).2
          fault t hBuild

/- What an event in its place fails for in a steady evaluation. -/
theorem fault_of_steady
    {d : State}
    {event : Event}
    {fault : Fault}
    {notes : List Note}
    (hSteady : Steady d)
    (hPlaced : Placed d event)
    (h : process d event = (.error fault, notes)) :
    fault.kind = .value ∨
      ∃ name attributes depth tag m,
        event = .opened name attributes depth ∧
          d.elements = [] ∧
          readTag d.settings d.scope true name attributes d.fresh =
            (.ok tag, m) ∧
          ¬ NamesDocument tag.scope.base ∧
          Adrift tag.parts (attributes.has "inlist") tag.rel
            tag.rev := by
  rcases process_error_cases h with
    ⟨name, attributes, depth, t, rfl, hOpen⟩ |
      ⟨name, depth, e, rest, t, rfl, hElements, _, hClose⟩ |
      ⟨name, depth, rfl, hNone⟩ | ⟨description, rfl⟩
  · rcases fault_of_openElement hSteady hOpen with
      hValue | ⟨tag, m, hRoot⟩
    · exact .inl hValue
    · exact .inr ⟨name, attributes, depth, tag, m, rfl, hRoot⟩
  · left
    rcases andThen_eq_error hClose with
      hComplete | ⟨_, m, hComplete, hFlush⟩
    · exact hSteady.housed.kind_of_complete_error hElements hComplete
    · rcases hSteady.flushes hElements hComplete with ⟨u, hDone⟩
      rw [hDone] at hFlush
      cases hFlush
  · rcases hPlaced.closed name depth rfl with
      ⟨e, rest, hElements, hName⟩
    exact absurd hName (hNone e rest hElements)
  · exact absurd rfl (hPlaced.known description)

------------------------------------------------------------
-- Whole documents
------------------------------------------------------------

/-
  A start tag outside of all elements that some events get to.
  The base in force there names no document, the element is
  about nothing else, and it relates an object that it has to
  its missing subject.
-/
inductive AdriftRoot
    (settings : Settings)
    (base : String)
    (events : List Event) : Prop where
  | mk
      {first d : State}
      {before rest : List Event}
      {sections : List (List Note)}
      {name : String}
      {attributes : Entries}
      {depth : Nat}
      {tag : Reading}
      {t : Session}
      (hStart : start settings base = .ok first)
      (hEvents :
        events = before ++ .opened name attributes depth :: rest)
      (hRun : Run first before sections d)
      (hOutermost : d.elements = [])
      (hRead :
        readTag d.settings d.scope true name attributes d.fresh =
          (.ok tag, t))
      (hBase : ¬ NamesDocument tag.scope.base)
      (hAdrift :
        Adrift tag.parts (attributes.has "inlist") tag.rel tag.rev) :
      AdriftRoot settings base events

/- A start tag that is adrift ends a run with a broken invariant. -/
theorem process_adrift
    {d : State}
    {name : String}
    {attributes : Entries}
    {tag : Reading}
    {t : Session}
    (hOutermost : d.elements = [])
    (hRead :
      readTag d.settings d.scope true name attributes d.fresh =
        (.ok tag, t))
    (hAdrift :
      Adrift tag.parts (attributes.has "inlist") tag.rel tag.rev)
    (depth : Nat) :
    ∃ fault notes,
      process d (.opened name attributes depth) =
          (.error fault, notes) ∧
        fault.kind = .invariant := by
  rcases buildElement_adrift hAdrift d.settings d.scope name t with
    ⟨fault, u, hBuild, hKind⟩
  have hOpen :
      openElement d.settings d.scope d.elements.isEmpty name attributes
        d.fresh = (.error fault, u) := by
    rw [hOutermost, openElement_eq]
    exact (bind_of_ok hRead _).trans hBuild
  exact ⟨fault, _, process_of_open hOpen depth, hKind⟩

/- It ends the run over all events. -/
theorem AdriftRoot.fails
    {settings : Settings}
    {base : String}
    {events : List Event}
    (h : AdriftRoot settings base events) :
    ∃ first fault,
      start settings base = .ok first ∧
        (Extraction.evaluate first events).2 = .error fault ∧
        fault.kind = .invariant := by
  rcases h with
    ⟨hStart, rfl, hRun, hOutermost, hRead, _, hAdrift⟩
  rcases process_adrift hOutermost hRead hAdrift _ with
    ⟨fault, notes, hStep, hKind⟩
  refine ⟨_, fault, hStart, ?_, hKind⟩
  rw [evaluate_append, evaluate_of_run hRun]
  change (Extraction.evaluate _ _).2 = _
  rw [evaluate_cons, hStep]
  rfl

end Evaluation

namespace Extraction

open Evaluation

/-
  Well-nested events break an invariant of the library exactly
  if some start tag outside of all elements is adrift. So the
  base in force does no harm to elements inside others, to
  those that are about something, and to those that relate
  nothing at once.
-/
theorem breaks_invariant_iff
    (settings : Settings)
    (base : String)
    {events : List Event}
    (hNested : Event.Nested events) :
    (∃ fault,
      (ofBase settings base [] ⟨events, none⟩).fault? = some fault ∧
        fault.kind = .invariant) ↔
      AdriftRoot settings base events := by
  constructor
  · rintro ⟨fault, hFault, hKind⟩
    rcases fault?_of_nested hNested hFault with
      hStart | ⟨first, hStart, ⟨rfl, hRun, hPlaced, hStep⟩⟩
    · exact absurd hKind (kind_of_start_error hStart)
    · rcases fault_of_steady (steady_of_run hStart hRun) hPlaced hStep
        with
        hValue | ⟨_, _, _, _, _, rfl, hOutermost, hRead, hBase, hAdrift⟩
      · rw [hValue] at hKind
        cases hKind
      · exact .mk hStart rfl hRun hOutermost hRead hBase hAdrift
  · intro hAdrift
    rcases hAdrift.fails with ⟨first, fault, hStart, hRun, hKind⟩
    refine ⟨fault, ?_, hKind⟩
    unfold ofBase ofTrace
    rw [hStart]
    dsimp only
    cases hAll : evaluate first events with
    | mk sections outcome =>
        rw [hAll] at hRun
        cases hRun
        rfl

namespace Unbased

def settings : Settings :=
  ⟨.xhtml, ⟨.members, true, [], []⟩⟩

/-
  A document whose root has a base with a space in it. What
  is inside it names its own subject.
-/
def events
    (root : Entries) : List Event :=
  [.opened "html" (("xml:base", "http://a b/") :: root) 0,
    .opened "p"
      [("about", "http://ex/c"), ("property", "http://p/name"),
        ("content", "C")] 1,
    .closed "p" 1,
    .closed "html" 0]

theorem nested_events
    (root : Entries) :
    Event.Nested (events root) :=
  .element "html" _ 0 0 (.element "p" _ 1 1 .nil .nil) .nil

/- A root that relates something, and one that does not. -/
def relating : Entries :=
  [("rel", "http://p/knows"), ("resource", "http://ex/b")]

def describing : Entries :=
  [("property", "http://p/name"), ("content", "X")]

end Unbased

open Unbased in
/-
  The root that relates something breaks an invariant and ends
  the document. Without the relation only the statement of the
  root itself is lost.
-/
theorem root_adrift_ends_document :
    AdriftRoot settings "http://ex/" (events relating) ∧
      ¬ AdriftRoot settings "http://ex/" (events describing) ∧
      (ofBase settings "http://ex/" []
          ⟨events describing, none⟩).quads =
        [.triple (.iri ⟨"http://ex/c"⟩)
          ⟨"http://p/name"⟩
          (.literal (.plain "C"))] := by
  refine ⟨?_, ?_, by decide +kernel⟩
  · rw [← breaks_invariant_iff settings "http://ex/"
      (nested_events relating)]
    exact
      ⟨.badSubject (Term.describedOption none), by decide +kernel, rfl⟩
  · rw [← breaks_invariant_iff settings "http://ex/"
      (nested_events describing)]
    rintro ⟨fault, hFault, _⟩
    have hNone :
        (ofBase settings "http://ex/" []
          ⟨events describing, none⟩).fault? = none := by
      decide +kernel
    rw [hNone] at hFault
    cases hFault

open Unbased in
/- So an unusable base may break an invariant. -/
theorem not_unusableBaseHarmless :
    ¬ ∀ (options : Options) (base : String) (events : List Event)
        (fault : Fault),
      Event.Nested events →
        (ofBase ⟨.xhtml, options⟩ base [] ⟨events, none⟩).fault? =
            some fault →
          fault.kind ≠ .invariant := by
  intro hHarmless
  exact
    hHarmless ⟨.members, true, [], []⟩ "http://ex/" (events relating)
      (.badSubject (Term.describedOption none))
      (nested_events relating) (by decide +kernel) rfl

end Extraction
end LinkedMarkup
