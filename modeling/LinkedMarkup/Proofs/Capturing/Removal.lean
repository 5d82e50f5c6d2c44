import LinkedMarkup.Proofs.Capturing.Registers

/-
  This file proves that an evaluation that shares its open
  elements does what one does that keeps them on their own,
  and that its register stays in order: after every event,
  those that capture are the open elements that wait for
  content, and no two of these can be taken for each other.

  Key definitions include:
    * `Register.Releases`
    * `Evaluation.Shared.Sound`

  Main declarations:
    * `Evaluation.Shared.Sound.process_plain`
    * `Evaluation.Shared.Sound.after`
    * `Evaluation.Shared.evaluate_plain`
    * `Evaluation.waiting_elements_capture`
-/

namespace LinkedMarkup

------------------------------------------------------------
-- Steps of work
------------------------------------------------------------

namespace Work

variable {α β : Type}

/- Changing the value of a step changes nothing else. -/
theorem map_apply
    (f : α → β)
    (w : Work α)
    (s : Session) :
    (f <$> w) s = ((w s).1.map f, (w s).2) := by
  change andThen w (fun a => pure (f a)) s = _
  unfold andThen
  cases w s with
  | mk outcome t => cases outcome <;> rfl

/- A step that fails gives no value. -/
theorem yields_fail
    (fault : Fault)
    (P : α → Prop) :
    (fail fault : Work α).Yields P := by
  intro s a t hRun
  cases hRun

end Work

------------------------------------------------------------
-- The innermost element
------------------------------------------------------------

/-
  Looking for an element by its contents among those that
  capture finds that very element, which is the last of them,
  and taking out what is found leaves all the others.
-/
structure Register.Releases
    (r : Register)
    (n : Nat) : Prop where
  last : r.capturing.getLast? = some n
  found : r.capturing.find? (fun m => r.alike m n) = some n
  left :
    r.capturing.eraseP (fun m => r.alike m n) = r.capturing.dropLast

theorem Register.InOrder.releases
    {r : Register}
    (h : r.InOrder)
    (hApart : r.Apart)
    {n : Nat}
    (hTop : r.stack.getLast? = some n)
    (hWaits : r.waits n = true) :
    r.Releases n := by
  rcases List.getLast?_eq_some_iff.mp hTop with ⟨below, hStack⟩
  have hCapturing := h.capturing_of_waits hStack hWaits
  constructor
  · rw [hCapturing, List.getLast?_concat]
  · exact h.find?_alike hApart hStack hWaits
  · rw [h.eraseP_alike hApart hStack hWaits, hCapturing,
      List.dropLast_concat]

namespace Evaluation

open Work

------------------------------------------------------------
-- List mappings of open elements
------------------------------------------------------------

/- No two open elements have the same list mapping. -/
theorem Lodged.pairwise_list
    {outer : Scope}
    {W : Nat → Prop}
    {elements : List Element}
    (h : Lodged outer W elements) :
    elements.Pairwise (fun e e' => e.list ≠ e'.list) := by
  induction h with
  | nil _ => exact .nil
  | cons hRest _ _ hOwn ih =>
      refine .cons ?_ ih
      intro e hMem hEq
      rw [hEq] at hOwn
      exact hOwn (hRest.mem_of_mem hMem)

theorem Housed.pairwise_list
    {d : State}
    (h : Housed d) :
    d.elements.Pairwise (fun e e' => e.list ≠ e'.list) := by
  rcases h with ⟨W, hLodged, _⟩
  exact hLodged.pairwise_list

namespace Shared

/-
  An evaluation whose register is in order, and whose open
  elements have list mappings that are still in use.
-/
structure Sound
    (d : Shared) : Prop where
  inOrder : d.register.InOrder
  housed : Housed d.plain

theorem Sound.apart
    {d : Shared}
    (h : d.Sound) :
    d.register.Apart :=
  h.inOrder.apart h.housed.pairwise_list

------------------------------------------------------------
-- Single events
------------------------------------------------------------

section Events

variable {d : Shared}

/- A start tag is read around the same element. -/
theorem Sound.readEvent_opened
    (h : d.Sound)
    (name : String)
    (attributes : Entries)
    (depth : Nat) :
    d.readEvent (.opened name attributes depth) =
      (do
        let e ←
          openElement d.settings d.plain.scope d.plain.elements.isEmpty
            name attributes
        return (d.register.capture
          (.opened name attributes depth)).opened e) := by
  have hScope :
      (d.register.capture (.opened name attributes depth)).scope
          d.outer =
        d.plain.scope := by
    rw [(h.inOrder.capture _).scope_eq, h.inOrder.elements_capture,
      innermost_captureAll, scope_eq_innermost]
    rfl
  have hEmpty :
      (d.register.capture
          (.opened name attributes depth)).stack.isEmpty =
        d.plain.elements.isEmpty :=
    h.inOrder.isEmpty_eq
  unfold Shared.readEvent
  dsimp only
  rw [hScope, hEmpty]

/- Nothing is closed where nothing is open. -/
theorem readEvent_closed_of_nil
    (hNil : d.register.stack = [])
    (name : String)
    (depth : Nat) :
    d.readEvent (.closed name depth) =
      Work.fail (.unexpectedEnd name) := by
  unfold Shared.readEvent
  simp only [Register.innermost?_of_nil hNil]

/- An end tag closes the same element. -/
theorem Sound.readEvent_closed
    (h : d.Sound)
    {below : List Nat}
    {n : Nat}
    {s : Sheet}
    (hStack : d.register.stack = below ++ [n])
    (hSheet : d.register.sheets[n]? = some s)
    (name : String)
    (depth : Nat) :
    d.readEvent (.closed name depth) =
      if s.joined.name == name then
        (do
          closeElement s.joined
          return d.register.closed.capture (.closed name depth))
      else
        Work.fail (.mismatchedEnd s.joined.name name) := by
  unfold Shared.readEvent
  dsimp only
  rw [Register.innermost?_of_concat hStack hSheet]
  dsimp only
  rw [h.inOrder.release_eq h.apart hStack hSheet]
  unfold closeElement
  simp only [bind_assoc, pure_bind]
  rfl

/-
  An event leaves the open elements that it would leave if
  they were kept on their own.
-/
theorem Sound.readEvent_plain
    (h : d.Sound)
    (event : Event) :
    Evaluation.readEvent d.plain event =
      Register.elements <$> d.readEvent event := by
  cases event with
  | opened name attributes depth =>
      rw [h.readEvent_opened]
      simp only [map_bind, map_pure,
        (h.inOrder.capture _).elements_opened,
        h.inOrder.elements_capture]
      rfl
  | text data =>
      change pure _ = Register.elements <$> pure _
      rw [map_pure, h.inOrder.elements_capture]
      rfl
  | closed name depth =>
      rcases h.inOrder.stack_cases with
        hNil | ⟨below, n, s, hStack, hSheet⟩
      · have hElements : d.plain.elements = [] :=
          Register.elements_of_nil hNil
        rw [readEvent_closed_of_nil hNil]
        unfold Evaluation.readEvent
        simp only [hElements]
        rfl
      · have hElements :
            d.plain.elements =
              s.joined :: d.register.closed.elements :=
          Register.elements_of_concat hStack hSheet
        rw [h.readEvent_closed hStack hSheet]
        unfold Evaluation.readEvent
        simp only [hElements]
        split
        · simp only [map_bind, map_pure,
            h.inOrder.closed.elements_capture]
        · rfl
  | unknown description => rfl

/- Every event leaves the register in order. -/
theorem Sound.readEvent_yields
    (h : d.Sound)
    (event : Event) :
    (d.readEvent event).Yields Register.InOrder := by
  cases event with
  | opened name attributes depth =>
      rw [h.readEvent_opened]
      apply yields_bind
      intro e
      exact yields_pure ((h.inOrder.capture _).opened e)
  | text data => exact yields_pure (h.inOrder.capture _)
  | closed name depth =>
      rcases h.inOrder.stack_cases with
        hNil | ⟨below, n, s, hStack, hSheet⟩
      · rw [readEvent_closed_of_nil hNil]
        exact yields_fail _ _
      · rw [h.readEvent_closed hStack hSheet]
        split
        · apply yields_bind
          intro _
          exact yields_pure (h.inOrder.closed.capture _)
        · exact yields_fail _ _
  | unknown description => exact yields_fail _ _

/-
  An event is at fault exactly if it would be with the open
  elements on their own, and nothing else is noted for it.
-/
theorem Sound.process_plain
    (h : d.Sound)
    (event : Event) :
    Evaluation.process d.plain event =
      ((d.process event).1.map plain, (d.process event).2) := by
  have hSession : d.plain.session = d.session := rfl
  unfold Evaluation.process Shared.process
  rw [h.readEvent_plain, map_apply, hSession]
  cases d.readEvent event { d.session with notes := #[] } with
  | mk outcome t => cases outcome <;> rfl

theorem Sound.exists_after
    (h : d.Sound)
    {event : Event}
    {next : State}
    {notes : List Note}
    (hStep : Evaluation.process d.plain event = (.ok next, notes)) :
    ∃ d', d.process event = (.ok d', notes) ∧ d'.plain = next := by
  rw [h.process_plain] at hStep
  cases hRun : d.process event with
  | mk outcome found =>
      rw [hRun] at hStep
      cases outcome with
      | error fault => cases hStep
      | ok d' =>
          cases hStep
          exact ⟨d', rfl, rfl⟩

/- An event that is processed gives the register after it. -/
theorem exists_run_of_process
    {d' : Shared}
    {event : Event}
    {notes : List Note}
    (hStep : d.process event = (.ok d', notes)) :
    ∃ t,
      d.readEvent event { d.session with notes := #[] } =
        (.ok d'.register, t) := by
  unfold Shared.process at hStep
  cases hRun : d.readEvent event { d.session with notes := #[] } with
  | mk outcome t =>
      rw [hRun] at hStep
      cases outcome with
      | error fault => cases hStep
      | ok r =>
          cases hStep
          exact ⟨t, rfl⟩

/- And what is sound stays so. -/
theorem Sound.after
    (h : d.Sound)
    {d' : Shared}
    {event : Event}
    {notes : List Note}
    (hStep : d.process event = (.ok d', notes)) :
    d'.Sound := by
  have hPlain :
      Evaluation.process d.plain event = (.ok d'.plain, notes) := by
    rw [h.process_plain, hStep]
    rfl
  rcases exists_run_of_process hStep with ⟨t, hRun⟩
  exact
    { inOrder := h.readEvent_yields event _ _ t hRun
      housed := housed_of_process h.housed hPlain }

/- An end tag takes the innermost element off both lists. -/
theorem Sound.closes
    (h : d.Sound)
    {d' : Shared}
    {name : String}
    {depth : Nat}
    {notes : List Note}
    (hStep : d.process (.closed name depth) = (.ok d', notes)) :
    d'.register.stack = d.register.closed.stack ∧
      d'.register.capturing = d.register.closed.capturing := by
  rcases exists_run_of_process hStep with ⟨t, hRun⟩
  rcases h.inOrder.stack_cases with
    hNil | ⟨below, n, s, hStack, hSheet⟩
  · rw [readEvent_closed_of_nil hNil] at hRun
    cases hRun
  · rw [h.readEvent_closed hStack hSheet] at hRun
    split at hRun
    · rcases andThen_eq_ok hRun with ⟨_, _, _, hDone⟩
      obtain ⟨hRegister, _⟩ := Prod.mk.inj hDone
      rw [← Except.ok.inj hRegister]
      exact ⟨rfl, rfl⟩
    · cases hRun

end Events

------------------------------------------------------------
-- Runs
------------------------------------------------------------

/-
  Sharing changes nothing that an evaluation does: it notes
  the same for every event, ends at the same fault, if any,
  and leaves the same elements open.
-/
theorem evaluate_plain
    {d : Shared}
    (h : d.Sound)
    (events : List Event) :
    Extraction.evaluate d.plain events =
      ((d.evaluate events).1, (d.evaluate events).2.map plain) := by
  induction events generalizing d with
  | nil => rfl
  | cons event rest ih =>
      unfold Extraction.evaluate Shared.evaluate
      rw [h.process_plain]
      cases hStep : d.process event with
      | mk outcome notes =>
          cases outcome with
          | error fault => rfl
          | ok m =>
              change
                (notes :: (Extraction.evaluate m.plain rest).1,
                  (Extraction.evaluate m.plain rest).2) = _
              rw [ih (h.after hStep)]

theorem Sound.at_end
    {d d' : Shared}
    (h : d.Sound)
    {events : List Event}
    {sections : List (List Note)}
    (hRun : d.evaluate events = (sections, .ok d')) :
    d'.Sound := by
  induction events generalizing d sections with
  | nil =>
      cases hRun
      exact h
  | cons event rest ih =>
      unfold Shared.evaluate at hRun
      split at hRun
      · cases hRun
      · rename_i m notes hStep
        cases hMore : m.evaluate rest with
        | mk more outcome =>
            simp only [hMore] at hRun
            cases hRun
            exact ih (h.after hStep) hMore

/- An evaluation that has not begun has a register in order. -/
theorem exists_start
    {settings : Settings}
    {base : String}
    {first : State}
    (hStart : Evaluation.start settings base = .ok first) :
    ∃ shared : Shared,
      Shared.start settings base = .ok shared ∧
        shared.plain = first ∧ shared.Sound := by
  have hElements : first.elements = [] := by
    rcases start_eq_ok hStart with ⟨_, _, _, _, rfl⟩
    rfl
  have hPlain :
      Shared.plain
          ⟨first.settings, first.outer, .empty, first.session⟩ =
        first := by
    unfold Shared.plain
    rw [Register.elements_empty, ← hElements]
  refine ⟨_, ?_, hPlain, ⟨Register.inOrder_empty, ?_⟩⟩
  · unfold Shared.start
    rw [hStart]
    rfl
  · rw [hPlain]
    exact housed_of_start hStart

end Shared

------------------------------------------------------------
-- What captures
------------------------------------------------------------

/-
  After events without a fault, those that capture content are
  the open elements in which a value waits for it, in the
  order of the stack and none of them twice. No two open
  elements have the same contents. So when the innermost one
  waits, looking for its contents finds that element, the last
  of those that capture, and its end tag takes out no other.
-/
theorem waiting_elements_capture
    {settings : Settings}
    {base : String}
    {first d : State}
    {events : List Event}
    {sections : List (List Note)}
    (hStart : start settings base = .ok first)
    (hRun : Run first events sections d) :
    ∃ shared d' : Shared,
      Shared.start settings base = .ok shared ∧
        shared.evaluate events = (sections, .ok d') ∧
        d'.plain = d ∧
        d'.register.capturing =
          d'.register.stack.filter d'.register.waits ∧
        d'.register.capturing.Nodup ∧
        d'.register.Apart ∧
        ∀ n, d'.register.stack.getLast? = some n →
          d'.register.waits n = true →
            d'.register.Releases n ∧
              ∀ name depth next notes,
                process d (.closed name depth) = (.ok next, notes) →
                  ∃ after,
                    d'.process (.closed name depth) =
                        (.ok after, notes) ∧
                      after.plain = next ∧
                      after.register.stack =
                        d'.register.stack.dropLast ∧
                      after.register.capturing =
                        d'.register.capturing.dropLast := by
  rcases Shared.exists_start hStart with
    ⟨shared, hShared, rfl, hSound⟩
  -- Events without a fault have none when elements are shared.
  have hPlain := Shared.evaluate_plain hSound events
  rw [evaluate_of_run hRun] at hPlain
  cases hEnd : shared.evaluate events with
  | mk found outcome =>
      rw [hEnd] at hPlain
      cases outcome with
      | error fault => cases hPlain
      | ok d' =>
          cases hPlain
          have hThere := hSound.at_end hEnd
          refine ⟨shared, d', hShared, hEnd, rfl,
            hThere.inOrder.capturing, hThere.inOrder.nodup_capturing,
            hThere.apart, ?_⟩
          intro n hTop hWaits
          have hReleases :=
            hThere.inOrder.releases hThere.apart hTop hWaits
          refine ⟨hReleases, ?_⟩
          intro name depth next notes hStep
          rcases hThere.exists_after hStep with ⟨after, hAfter, hNext⟩
          rcases hThere.closes hAfter with ⟨hStack, hCapturing⟩
          refine ⟨after, hAfter, hNext, hStack, ?_⟩
          rcases List.getLast?_eq_some_iff.mp hTop with ⟨below, hTop⟩
          rw [hCapturing, ← hReleases.left]
          exact (hThere.inOrder.eraseP_alike hThere.apart hTop
            hWaits).symm

/-
  Three elements with the same start tag, one inside the
  other, that capture the same text.
-/
namespace Alike

def settings : Settings :=
  ⟨.html, ⟨.members, true, [("f", "http://f/")], []⟩⟩

def first : State :=
  State.initial settings "http://ex/" ⟨"http://ex/"⟩

def events : List Event :=
  [.opened "p" [("property", "f:n")] 0,
    .opened "p" [("property", "f:n")] 1,
    .opened "p" [("property", "f:n")] 2, .text "X"]

def shared : Shared :=
  ⟨settings, first.outer, .empty, first.session⟩

def reached : Shared :=
  (shared.evaluate events).2.toOption.getD shared

/- A sheet without the numbers of list mappings. -/
def unlisted
    (s : Sheet) : Sheet :=
  { s with
    element :=
      { s.element with
        scope := { s.element.scope with list := 0 }
        list := 0
        pending :=
          s.element.pending.map (fun p => { p with list := 0 }) } }

/- What is on the sheet of each of the elements. -/
def sheet : Sheet where
  element :=
    { name := "p"
      scope :=
        ⟨"http://ex/", some (.iri ⟨"http://ex/"⟩),
          some (.iri ⟨"http://ex/"⟩), [("f", "http://f/")], [], none,
          none, 0, []⟩
      subject := some (.iri ⟨"http://ex/"⟩)
      list := 0
      pending :=
        some
          { subject := .iri ⟨"http://ex/"⟩
            predicates := [⟨"http://f/n"⟩]
            list := 0
            inList := false
            datatype := none
            language := none
            keepsMarkup := false
            infersMoment := false
            text := "" } }
  pieces := ["X"]

theorem start_eq :
    start settings "http://ex/" = .ok first :=
  start_of_document (by decide +kernel) (by decide +kernel) settings

theorem run_events :
    Run first events (Extraction.evaluate first events).1
      (first.through events) :=
  run_through (by decide +kernel)

theorem start_shared :
    Shared.start settings "http://ex/" = .ok shared := by
  unfold Shared.start
  rw [start_eq]
  rfl

end Alike

open Alike in
/- The innermost one is still told from those around it. -/
theorem alike_elements_told_apart :
    reached.register.sheets.toList.map unlisted =
        List.replicate 3 sheet ∧
      reached.register.capturing = [0, 1, 2] ∧
      reached.register.Releases 2 ∧
      ∃ after notes,
        reached.process (.closed "p" 2) = (.ok after, notes) ∧
          after.register.capturing = [0, 1] := by
  have hCapturing : reached.register.capturing = [0, 1, 2] := by
    decide +kernel
  rcases waiting_elements_capture start_eq run_events with
    ⟨s, d, hStart, hEnd, _, _, _, _, hTop⟩
  rw [start_shared] at hStart
  cases hStart
  have hReached : reached = d := by
    unfold reached
    rw [hEnd]
    rfl
  rw [← hReached] at hTop
  rcases hTop 2 (by decide +kernel) (by decide +kernel) with
    ⟨hReleases, hCloses⟩
  rcases exists_ok_of_isOk
      (x := process (first.through events) (.closed "p" 2))
      (by decide +kernel) with
    ⟨next, hStep⟩
  rcases hCloses _ _ _ _ hStep with ⟨after, hAfter, _, _, hLeft⟩
  rw [hCapturing] at hLeft
  exact ⟨by decide +kernel, hCapturing, hReleases, after, _, hAfter,
    hLeft⟩

end Evaluation
end LinkedMarkup
