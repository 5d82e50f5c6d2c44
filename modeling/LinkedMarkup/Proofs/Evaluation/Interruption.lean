import LinkedMarkup.Proofs.Evaluation.Refusals
import LinkedMarkup.Proofs.Evaluation.Unbased

/-
  This file proves what interrupts the reading of a document.
  Of all events only a start tag fails for a value, exactly
  if it is refused; so a run ends for a value exactly if it
  gets to such a start tag. Apart from an outermost element
  that is adrift nothing else ends a well-nested document.

  Key definitions include:
    * `Evaluation.MeetsRefusal`

  Main declarations:
    * `Evaluation.process_value_error_iff`
    * `Evaluation.evaluate_error_iff`
    * `Evaluation.evaluate_value_error_iff`
    * `Extraction.fault?_isSome_iff`
    * `Extraction.values_fail_exactly`
-/

namespace LinkedMarkup
namespace Evaluation

open Work

------------------------------------------------------------
-- Events
------------------------------------------------------------

/- Events that are no start tags only break invariants. -/
theorem readEvent_failsWith
    {event : Event}
    (h :
      ∀ name attributes depth, event ≠ .opened name attributes depth)
    (d : State) :
    (readEvent d event).FailsWith Fault.IsInvariant := by
  cases event with
  | opened name attributes depth =>
      exact absurd rfl (h name attributes depth)
  | text data => exact failsWith_pure _
  | closed name depth =>
      unfold readEvent
      cases d.elements with
      | nil => exact failsWith_fail rfl
      | cons e rest =>
          dsimp only
          split
          · exact FailsWith.bind (closeElement_failsWith e)
              (fun _ => failsWith_pure _)
          · exact failsWith_fail rfl
  | unknown description => exact failsWith_fail rfl

theorem process_eq_error_iff
    {d : State}
    {event : Event}
    {fault : Fault} :
    (∃ notes, process d event = (.error fault, notes)) ↔
      ∃ t, readEvent d event d.fresh = (.error fault, t) := by
  unfold process State.fresh
  cases readEvent d event { d.session with notes := #[] } with
  | mk outcome t =>
      cases outcome with
      | ok elements => simp
      | error cause => simp

/-
  Only start tags are refused for a value, whatever state the
  evaluation is in.
-/
theorem process_value_error_iff
    (d : State)
    (event : Event) :
    (∃ fault notes,
      process d event = (.error fault, notes) ∧ fault.IsValue) ↔
      ∃ name attributes depth,
        event = .opened name attributes depth ∧
          RefusesTag d.settings d.scope.environment d.elements.isEmpty
            attributes := by
  constructor
  · rintro ⟨fault, notes, hStep, hValue⟩
    rcases process_eq_error_iff.mp ⟨notes, hStep⟩ with ⟨t, hRead⟩
    by_cases hOpens :
        ∃ name attributes depth, event = .opened name attributes depth
    · rcases hOpens with ⟨name, attributes, depth, rfl⟩
      refine ⟨name, attributes, depth, rfl, ?_⟩
      rcases andThen_eq_error hRead with hOpen | ⟨_, _, _, hDone⟩
      · exact
          (openElement_error_iff _ _ _ name attributes d.fresh).mp
            ⟨fault, t, hOpen, hValue⟩
      · cases hDone
    · have hInvariant : fault.IsInvariant :=
        readEvent_failsWith
          (fun name attributes depth hEvent =>
            hOpens ⟨name, attributes, depth, hEvent⟩)
          d d.fresh fault t hRead
      exact absurd hValue hInvariant.not_isValue
  · rintro ⟨name, attributes, depth, rfl, hRefuses⟩
    rcases (openElement_error_iff _ _ _ name attributes d.fresh).mpr
        hRefuses with
      ⟨fault, u, hOpen, hValue⟩
    exact ⟨fault, _, process_of_open hOpen depth, hValue⟩

------------------------------------------------------------
-- Runs
------------------------------------------------------------

/- A run ends early at the first event that fails. -/
theorem evaluate_error_iff
    {d : State}
    {events : List Event}
    {fault : Fault} :
    (Extraction.evaluate d events).2 = .error fault ↔
      ∃ before event rest sections m notes,
        events = before ++ event :: rest ∧ Run d before sections m ∧
          process m event = (.error fault, notes) := by
  constructor
  · intro h
    induction events generalizing d with
    | nil => cases h
    | cons event rest ih =>
        rw [evaluate_cons] at h
        cases hStep : process d event with
        | mk outcome notes =>
            rw [hStep] at h
            cases outcome with
            | error cause =>
                cases h
                exact ⟨[], event, rest, [], d, notes, rfl, .nil d, hStep⟩
            | ok m =>
                rcases ih h with
                  ⟨before, last, after, sections, n, final, rfl, hRun,
                    hLast⟩
                exact ⟨event :: before, last, after, _, n, final, rfl,
                  .cons hStep hRun, hLast⟩
  · rintro ⟨before, event, rest, sections, m, notes, rfl, hRun, hStep⟩
    rw [evaluate_append, evaluate_of_run hRun]
    change (Extraction.evaluate m (event :: rest)).2 = _
    rw [evaluate_cons, hStep]
    rfl

/- Some start tag that a run gets to is refused. -/
inductive MeetsRefusal
    (d : State)
    (events : List Event) : Prop where
  | mk
      {before rest : List Event}
      {sections : List (List Note)}
      {m : State}
      {name : String}
      {attributes : Entries}
      {depth : Nat}
      (hEvents :
        events = before ++ .opened name attributes depth :: rest)
      (hRun : Run d before sections m)
      (hRefuses :
        RefusesTag m.settings m.scope.environment m.elements.isEmpty
          attributes) :
      MeetsRefusal d events

/- A value ends a run exactly if it meets a refused start tag. -/
theorem evaluate_value_error_iff
    (d : State)
    (events : List Event) :
    (∃ fault,
      (Extraction.evaluate d events).2 = .error fault ∧
        fault.IsValue) ↔
      MeetsRefusal d events := by
  constructor
  · rintro ⟨fault, hEnds, hValue⟩
    rcases evaluate_error_iff.mp hEnds with
      ⟨before, event, rest, sections, m, notes, rfl, hRun, hStep⟩
    rcases (process_value_error_iff m event).mp
        ⟨fault, notes, hStep, hValue⟩ with
      ⟨name, attributes, depth, rfl, hRefuses⟩
    exact .mk rfl hRun hRefuses
  · rintro ⟨rfl, hRun, hRefuses⟩
    rcases (process_value_error_iff _ _).mpr
        ⟨_, _, _, rfl, hRefuses⟩ with
      ⟨fault, notes, hStep, hValue⟩
    refine ⟨fault, ?_, hValue⟩
    exact evaluate_error_iff.mpr ⟨_, _, _, _, _, _, rfl, hRun, hStep⟩

end Evaluation

------------------------------------------------------------
-- Whole documents
------------------------------------------------------------

namespace Extraction

open Evaluation Resolution

theorem fault?_of_evaluate_error
    {settings : Settings}
    {base : String}
    {opening : List Note}
    {first : Evaluation.State}
    {events : List Event}
    {fault : Fault}
    (hStart : start settings base = .ok first)
    (h : (evaluate first events).2 = .error fault) :
    (ofBase settings base opening ⟨events, none⟩).fault? =
      some fault := by
  unfold ofBase ofTrace
  rw [hStart]
  dsimp only
  cases hRun : evaluate first events with
  | mk sections outcome =>
      rw [hRun] at h
      cases h
      rfl

/-
  A document that has started is read to its end, unless it
  meets a refused start tag or an outermost one is adrift.
-/
theorem fault?_isSome_iff
    {settings : Settings}
    {base : String}
    {first : Evaluation.State}
    {events : List Event}
    (hStart : start settings base = .ok first)
    (hNested : Event.Nested events) :
    (ofBase settings base [] ⟨events, none⟩).fault?.isSome = true ↔
      MeetsRefusal first events ∨ AdriftRoot settings base events := by
  constructor
  · intro hSome
    rcases Option.isSome_iff_exists.mp hSome with ⟨fault, hFault⟩
    rcases fault?_of_nested hNested hFault with
      hError | ⟨other, hOther, ⟨rfl, hRun, hPlaced, hStep⟩⟩
    · rw [hStart] at hError
      cases hError
    · rw [hStart] at hOther
      cases hOther
      rcases fault_of_steady (steady_of_run hStart hRun) hPlaced hStep
        with
        hValue | ⟨_, _, _, _, _, rfl, hOutermost, hRead, hBase, hAdrift⟩
      · rcases (process_value_error_iff _ _).mp
            ⟨fault, _, hStep, hValue⟩ with
          ⟨_, _, _, rfl, hRefuses⟩
        exact .inl (.mk rfl hRun hRefuses)
      · exact .inr
          (.mk hStart rfl hRun hOutermost hRead hBase hAdrift)
  · rintro (hRefusal | hAdrift)
    · rcases (evaluate_value_error_iff first events).mpr hRefusal with
        ⟨fault, hEnds, _⟩
      rw [fault?_of_evaluate_error hStart hEnds]
      rfl
    · rcases hAdrift.fails with ⟨other, fault, hOther, hEnds, _⟩
      rw [fault?_of_evaluate_error hOther hEnds]
      rfl

/-
  Which values are fatal. Tokens never are, in any scope. A
  value of `href` or `src` is if it is unresolvable, and one
  of `about` or `resource` if it comes to resolving it as
  well. Only start tags with such values, or whose scope is
  refused, fail for a value, and nothing but these and an
  outermost element adrift ends a well-nested document.
-/
theorem values_fail_exactly
    (scope : Scope)
    (value : String)
    (s : Session) :
    ((∃ found t, term scope value s = (.ok found, t)) ∧
      (∃ found t, terms scope value s = (.ok found, t)) ∧
      ((∃ fault t, iri scope value s = (.error fault, t)) ↔
        Iri.Unresolvable scope.base (Text.trim value)) ∧
      ((∃ fault t, resource scope value s = (.error fault, t)) ↔
        scope.environment.IsReference value ∧
          Iri.Unresolvable scope.base (Text.trim value))) ∧
    (∀ (d : Evaluation.State) (event : Event),
      (∃ fault notes,
        process d event = (.error fault, notes) ∧ fault.IsValue) ↔
        ∃ name attributes depth,
          event = .opened name attributes depth ∧
            RefusesTag d.settings d.scope.environment d.elements.isEmpty
              attributes) ∧
    ∀ (settings : Settings) (base : String) (first : Evaluation.State)
        (events : List Event),
      start settings base = .ok first → Event.Nested events →
        ((ofBase settings base [] ⟨events, none⟩).fault?.isSome = true ↔
          MeetsRefusal first events ∨
            AdriftRoot settings base events) := by
  refine ⟨⟨?_, ?_, ?_, ?_⟩, process_value_error_iff, ?_⟩
  · exact (term_succeeds scope value).exists_ok s
  · exact (terms_succeeds scope value).exists_ok s
  · exact (iri_failsExactly scope value).error_iff s
  · exact (resource_failsExactly scope value).error_iff s
  · intro settings base first events hStart hNested
    exact fault?_isSome_iff hStart hNested

namespace Refused

def settings : Settings :=
  ⟨.html, ⟨.members, true, [], []⟩⟩

def scope : Scope :=
  Scope.initial "http://ex/" (.iri ⟨"http://ex/"⟩) [] [] 0

/- An element with a statement of its own, and an address. -/
def events
    (address : String) : List Event :=
  [.opened "p"
      [("about", "#a"), ("property", "http://p/name"),
        ("content", "X"), ("href", address)] 0,
    .closed "p" 0]

theorem nested_events
    (address : String) :
    Event.Nested (events address) :=
  .element "p" _ 0 0 .nil .nil

theorem parse?_base :
    Iri.parse? "http://ex/" = some ⟨"http://ex/"⟩ := by
  decide +kernel

theorem start_settings :
    start settings "http://ex/" =
      .ok (State.initial settings "http://ex/" ⟨"http://ex/"⟩) :=
  start_of_document rfl parse?_base settings

/- An authority with one bracket is ambiguous. -/
theorem unresolvable_bracket :
    Iri.Unresolvable "http://ex/" (Text.trim "//[") := by
  have hWhole : ∀ c ∈ ['['], Iri.endsAuthority c = false := by
    intro c hMem
    rw [List.mem_singleton] at hMem
    rw [hMem]
    rfl
  have hAuthority :
      Reference.HasAuthority
        (Reference.clean (Text.trim "//[").toList) ['['] :=
    ⟨⟨[], [], by decide, .inl rfl, by simp⟩, hWhole⟩
  exact .reference (by decide) (by decide)
    ⟨['['], hAuthority, .unclosed (by decide) (by decide)⟩

end Refused

open Refused in
/-
  An address with one bracket ends the document, and the
  statement of its element is lost. One that only leads to no
  IRI is dropped.
-/
theorem bracket_ends_document :
    (∀ s, ∃ fault t, iri scope "//[" s = (.error fault, t)) ∧
      (MeetsRefusal (State.initial settings "http://ex/" ⟨"http://ex/"⟩)
          (events "//[") ∨
        AdriftRoot settings "http://ex/" (events "//[")) ∧
      (ofBase settings "http://ex/" [] ⟨events "//[", none⟩).quads =
        [] ∧
      ¬ MeetsRefusal
          (State.initial settings "http://ex/" ⟨"http://ex/"⟩)
          (events "a b") ∧
      (ofBase settings "http://ex/" [] ⟨events "a b", none⟩).quads =
        [.triple (.iri ⟨"http://ex/#a"⟩) ⟨"http://p/name"⟩
          (.literal (.plain "X"))] := by
  have hEnds := fun address =>
    (values_fail_exactly scope address Session.start).2.2 settings
      "http://ex/" _ (events address) start_settings
      (nested_events address)
  refine ⟨?_, (hEnds "//[").mp (by decide +kernel), by decide +kernel,
    ?_, by decide +kernel⟩
  · intro s
    exact
      (values_fail_exactly scope "//[" s).1.2.2.1.mpr
        unresolvable_bracket
  · intro hRefusal
    have hNone :
        (ofBase settings "http://ex/" []
          ⟨events "a b", none⟩).fault?.isSome = false := by
      decide +kernel
    have hSome := (hEnds "a b").mpr (.inl hRefusal)
    rw [hNone] at hSome
    cases hSome

open Refused in
/-
  So a base that is an IRI does not make all values harmless,
  neither to what reads them nor to the document.
-/
theorem not_valuesHarmless :
    (¬ ∀ (scope : Scope) (i : Iri),
      Iri.parse? scope.base = some i →
        ∀ (value : String) (s : Session),
          (∃ found t, resource scope value s = (.ok found, t)) ∧
            (∃ found t, iri scope value s = (.ok found, t)) ∧
            (∃ found t, term scope value s = (.ok found, t)) ∧
            ∃ found t, terms scope value s = (.ok found, t)) ∧
    ¬ ∀ (settings : Settings) (base : String) (first : Evaluation.State)
        (events : List Event) (fault : Fault),
      start settings base = .ok first → Event.Nested events →
        (ofBase settings base [] ⟨events, none⟩).fault? = some fault →
          ¬ fault.IsValue := by
  constructor
  · intro hHarmless
    have hRead := hHarmless scope _ parse?_base "//[" Session.start
    rcases hRead.2.1 with ⟨found, t, hFound⟩
    rcases
        ((iri_failsExactly scope "//[").error_iff Session.start).mpr
          unresolvable_bracket with
      ⟨fault, u, hFails⟩
    rw [hFound] at hFails
    cases hFails
  · intro hHarmless
    have hFault :
        (ofBase settings "http://ex/" [] ⟨events "//[", none⟩).fault? =
          some .invalidAddress := by
      decide +kernel
    exact
      hHarmless settings "http://ex/" _ (events "//[") .invalidAddress
        start_settings (nested_events "//[") hFault rfl

end Extraction
end LinkedMarkup
