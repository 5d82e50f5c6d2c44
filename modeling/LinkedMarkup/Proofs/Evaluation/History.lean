import LinkedMarkup.Proofs.Coupling.StartTag
import LinkedMarkup.Proofs.Evaluation.Run
import Mathlib.Data.List.Induction

/-
  This file proves what an evaluation owes to each of the
  events that led to it. Events are known by their position,
  and every open element goes back to a start tag that has not
  been closed since, read in the scope of the element around.

  Key definitions include:
    * `Event.OpenTag`
    * `Event.openTags`
    * `Evaluation.State.before`
    * `Evaluation.StartTag`
    * `Evaluation.startTagAt`
    * `Evaluation.Aligned`

  Main declarations:
    * `Event.openTags_concat`
    * `Evaluation.Run.concat_induction`
    * `Evaluation.Run.step_at`
    * `Evaluation.aligned_of_run`
-/

namespace LinkedMarkup

------------------------------------------------------------
-- Start tags that are open
------------------------------------------------------------

namespace Event

/- A start tag among events: its position and attributes. -/
structure OpenTag where
  position : Nat
  attributes : Entries
  deriving DecidableEq, Repr

/- The start tags that are open after an event at a position. -/
def tagsAfter
    (tags : List OpenTag)
    (event : Event)
    (position : Nat) : List OpenTag :=
  match event with
  | .opened _ attributes _ => ⟨position, attributes⟩ :: tags
  | .closed _ _ => tags.tail
  | .text _ => tags
  | .unknown _ => tags

/-
  The start tags among events whose end tags have not come,
  the innermost one first.
-/
def openTags
    (events : List Event) : List OpenTag :=
  events.zipIdx.foldl
    (fun tags event => tagsAfter tags event.1 event.2) []

theorem openTags_concat
    (events : List Event)
    (event : Event) :
    openTags (events ++ [event]) =
      tagsAfter (openTags events) event events.length := by
  unfold openTags
  rw [List.zipIdx_append, List.foldl_append, Nat.zero_add]
  rfl

/- Open start tags stand at positions that the events have. -/
theorem position_lt_length
    {events : List Event}
    {tag : OpenTag}
    (h : tag ∈ openTags events) :
    tag.position < events.length := by
  induction events using List.reverseRecOn with
  | nil => cases h
  | append_singleton events event ih =>
      have hOld :
          tag ∈ openTags events →
            tag.position < (events ++ [event]).length := by
        intro hMem
        rw [List.length_append]
        exact Nat.lt_add_right _ (ih hMem)
      rw [openTags_concat] at h
      cases event with
      | opened name attributes depth =>
          rcases List.mem_cons.mp h with rfl | hMem
          · simp
          · exact hOld hMem
      | text data => exact hOld h
      | closed name depth => exact hOld (List.mem_of_mem_tail h)
      | unknown description => exact hOld h

end Event

namespace Evaluation

------------------------------------------------------------
-- Positions in runs
------------------------------------------------------------

/- The evaluation before the event at a position. -/
def State.before
    (first : State)
    (events : List Event)
    (position : Nat) : State :=
  first.through (events.take position)

theorem Run.through_eq
    {first d : State}
    {events : List Event}
    {sections : List (List Note)}
    (h : Run first events sections d) :
    first.through events = d := by
  unfold State.through
  rw [evaluate_of_run h]

theorem Run.length_eq
    {first d : State}
    {events : List Event}
    {sections : List (List Note)}
    (h : Run first events sections d) :
    sections.length = events.length := by
  induction h with
  | nil _ => rfl
  | cons _ _ ih => rw [List.length_cons, List.length_cons, ih]

/- Later events do not matter before their position. -/
theorem before_append
    (first : State)
    (events more : List Event)
    {position : Nat}
    (h : position ≤ events.length) :
    first.before (events ++ more) position =
      first.before events position := by
  unfold State.before
  rw [List.take_append_of_le_length h]

theorem Run.before_length
    {first d : State}
    {events : List Event}
    {sections : List (List Note)}
    (h : Run first events sections d) :
    first.before events events.length = d := by
  unfold State.before
  rw [List.take_length, h.through_eq]

/- A run over one more event. -/
theorem Run.concat
    {first d d' : State}
    {events : List Event}
    {event : Event}
    {sections : List (List Note)}
    {notes : List Note}
    (h : Run first events sections d)
    (hStep : process d event = (.ok d', notes)) :
    Run first (events ++ [event]) (sections ++ [notes]) d' :=
  h.append (.cons hStep (.nil d'))

/-
  What holds of the run over no events, and of a run over one
  more event if it holds of the run before, holds of all runs.
-/
theorem Run.concat_induction
    {first : State}
    {P : List Event → List (List Note) → State → Prop}
    (hNil : P [] [] first)
    (hConcat :
      ∀ events sections d event notes d',
        Run first events sections d →
          P events sections d →
          process d event = (.ok d', notes) →
            P (events ++ [event]) (sections ++ [notes]) d')
    {events : List Event}
    {sections : List (List Note)}
    {d : State}
    (hRun : Run first events sections d) :
    P events sections d := by
  induction events using List.reverseRecOn generalizing sections d with
  | nil =>
      cases hRun
      exact hNil
  | append_singleton events event ih =>
      rcases hRun.split with ⟨m, before, after, hBefore, hLast, rfl⟩
      cases hLast with
      | cons hStep hEnd =>
          cases hEnd
          exact hConcat events before m event _ d hBefore (ih hBefore)
            hStep

/- A run leads from each of its positions to any later one. -/
theorem Run.between
    {first d : State}
    {events : List Event}
    {sections : List (List Note)}
    (h : Run first events sections d)
    {i k : Nat}
    (hLe : i ≤ k) :
    ∃ middle,
      Run (first.before events i) ((events.take k).drop i) middle
        (first.before events k) := by
  rw [← List.take_append_drop k events] at h
  rcases h.split with ⟨later, _, _, hFirst, _, _⟩
  have hLater : first.before events k = later := hFirst.through_eq
  rw [← List.take_append_drop i (events.take k), List.take_take,
    Nat.min_eq_left hLe] at hFirst
  rcases hFirst.split with ⟨earlier, _, middle, hBefore, hMiddle, _⟩
  have hEarlier : first.before events i = earlier := hBefore.through_eq
  rw [hLater, hEarlier]
  exact ⟨middle, hMiddle⟩

/- The event at a position was processed between its neighbours. -/
theorem Run.step_at
    {first d : State}
    {events : List Event}
    {sections : List (List Note)}
    (h : Run first events sections d)
    {position : Nat}
    {event : Event}
    (hEvent : events[position]? = some event) :
    ∃ notes,
      sections[position]? = some notes ∧
        Run first (events.take position) (sections.take position)
          (first.before events position) ∧
        process (first.before events position) event =
          (.ok (first.before events (position + 1)), notes) := by
  have hLt : position < events.length :=
    (List.getElem?_eq_some_iff.mp hEvent).1
  have hCut :
      events = events.take position ++ event ::
        events.drop (position + 1) := by
    rw [← (List.getElem?_eq_some_iff.mp hEvent).2,
      ← List.drop_eq_getElem_cons hLt, List.take_append_drop]
  rw [hCut] at h
  rcases h.split with ⟨m, before, after, hBefore, hAfter, rfl⟩
  cases hAfter with
  | @cons _ m' _ _ _ notes later hStep _ =>
      have hLength : before.length = position := by
        rw [hBefore.length_eq, List.length_take]
        omega
      have hSame : first.before events position = m :=
        hBefore.through_eq
      have hNext : first.before events (position + 1) = m' := by
        have hTake :
            events.take (position + 1) =
              events.take position ++ [event] := by
          rw [List.take_add_one, hEvent]
          rfl
        unfold State.before
        rw [hTake]
        exact (hBefore.concat hStep).through_eq
      refine ⟨notes, ?_, ?_, ?_⟩
      · rw [← hLength, List.getElem?_append_right (Nat.le_refl _),
          Nat.sub_self]
        rfl
      · rw [hSame, ← hLength, List.take_left, hLength]
        exact hBefore
      · rw [hSame, hNext]
        exact hStep

------------------------------------------------------------
-- Start tags as they were read
------------------------------------------------------------

/-
  A start tag as it was read: the scope around it, its
  attributes, what was read of them, and its element.
-/
structure StartTag where
  around : Scope
  attributes : Entries
  reading : Reading
  element : Element

/- What an event is read as, if it is a start tag. -/
def startTag?
    (d : State)
    (event : Event) : Option StartTag :=
  match event with
  | .opened name attributes _ =>
      match readTag d.settings d.scope d.elements.isEmpty name
          attributes d.fresh with
      | (.ok reading, s) =>
          match buildElement d.settings d.scope name attributes reading
              s with
          | (.ok e, _) => some ⟨d.scope, attributes, reading, e⟩
          | (.error _, _) => none
      | (.error _, _) => none
  | _ => none

/- What the event at a position is read as, if it is a start tag. -/
def startTagAt
    (first : State)
    (events : List Event)
    (position : Nat) : Option StartTag :=
  events[position]?.bind (startTag? (first.before events position))

/- A start tag that was processed has been read in two halves. -/
theorem process_startTag
    {d d' : State}
    {name : String}
    {attributes : Entries}
    {depth : Nat}
    {notes : List Note}
    (h :
      process d (.opened name attributes depth) = (.ok d', notes)) :
    ∃ x m t,
      startTag? d (.opened name attributes depth) = some x ∧
        x.around = d.scope ∧ x.attributes = attributes ∧
        readTag d.settings d.scope d.elements.isEmpty name attributes
          d.fresh = (.ok x.reading, m) ∧
        buildElement d.settings d.scope name attributes x.reading m =
          (.ok x.element, t) ∧
        d' =
          d.after
            (x.element ::
              captureAll (.opened name attributes depth) d.elements)
            t ∧
        notes = t.notes.toList := by
  rcases process_ok_cases h with
    ⟨_, _, _, e, t, hEvent, hOpen, hAfter, hNotes⟩ | ⟨_, hEvent, _⟩ |
      ⟨_, _, _, _, _, _, hEvent, _⟩
  · cases hEvent
    rw [openElement_eq] at hOpen
    rcases Work.andThen_eq_ok hOpen with ⟨reading, m, hRead, hBuild⟩
    refine ⟨⟨d.scope, attributes, reading, e⟩, m, t, ?_, rfl, rfl,
      hRead, hBuild, hAfter, hNotes⟩
    simp only [startTag?, hRead, hBuild]
  · cases hEvent
  · cases hEvent

/- What is read as a start tag has been read in two halves. -/
theorem reads_of_startTag?
    {d : State}
    {event : Event}
    {x : StartTag}
    (h : startTag? d event = some x) :
    ∃ name depth m t,
      event = .opened name x.attributes depth ∧
        x.around = d.scope ∧
        readTag d.settings d.scope d.elements.isEmpty name
            x.attributes d.fresh = (.ok x.reading, m) ∧
        buildElement d.settings d.scope name x.attributes x.reading
            m = (.ok x.element, t) := by
  cases event with
  | opened name attributes depth =>
      unfold startTag? at h
      dsimp only at h
      split at h
      · rename_i reading m hRead
        split at h
        · rename_i e t hBuild
          cases h
          exact ⟨name, depth, m, t, rfl, rfl, hRead, hBuild⟩
        · cases h
      · cases h
  | text data => cases h
  | closed name depth => cases h
  | unknown description => cases h

theorem startTagAt_append
    (first : State)
    (events more : List Event)
    {position : Nat}
    (h : position < events.length) :
    startTagAt first (events ++ more) position =
      startTagAt first events position := by
  unfold startTagAt
  rw [List.getElem?_append_left h,
    before_append first events more (Nat.le_of_lt h)]

theorem startTagAt_of_event
    {first : State}
    {events : List Event}
    {position : Nat}
    {event : Event}
    (h : events[position]? = some event) :
    startTagAt first events position =
      startTag? (first.before events position) event := by
  unfold startTagAt
  rw [h]
  rfl

/- The last event of a run is read in the state before it. -/
theorem Run.startTagAt_length
    {first d : State}
    {events : List Event}
    {sections : List (List Note)}
    (h : Run first events sections d)
    (event : Event) :
    startTagAt first (events ++ [event]) events.length =
      startTag? d event := by
  unfold startTagAt
  rw [before_append first events [event] (Nat.le_refl _),
    h.before_length, List.getElem?_append_right (Nat.le_refl _),
    Nat.sub_self]
  rfl

------------------------------------------------------------
-- Open elements and their start tags
------------------------------------------------------------

/-
  Open start tags beside open elements: each element is what
  its start tag was read as, but for captured text, and was
  read in the scope of the element around it.
-/
inductive Aligned
    (first : State)
    (events : List Event) :
    List Event.OpenTag → List Element → Prop where
  | nil : Aligned first events [] []
  | cons
      {tag : Event.OpenTag}
      {tags : List Event.OpenTag}
      {e : Element}
      {rest : List Element}
      {x : StartTag}
      (hRest : Aligned first events tags rest)
      (hStart : startTagAt first events tag.position = some x)
      (hAttributes : x.attributes = tag.attributes)
      (hAround : x.around = innermost first.outer rest)
      (hBare : e.bare = x.element.bare) :
      Aligned first events (tag :: tags) (e :: rest)

theorem Aligned.captureAll
    {first : State}
    {events : List Event}
    {tags : List Event.OpenTag}
    {elements : List Element}
    (h : Aligned first events tags elements)
    (event : Event) :
    Aligned first events tags (captureAll event elements) := by
  induction h with
  | nil => exact .nil
  | cons _ hStart hAttributes hAround hBare ih =>
      refine .cons ih hStart hAttributes ?_ ?_
      · rw [hAround]
        exact (innermost_captureAll _ _ _).symm
      · rw [Element.bare_capture]
        exact hBare

/- Start tags that are open keep their reading as events go on. -/
theorem Aligned.append
    {first : State}
    {events : List Event}
    {tags : List Event.OpenTag}
    {elements : List Element}
    (h : Aligned first events tags elements)
    (hTags : ∀ tag ∈ tags, tag.position < events.length)
    (more : List Event) :
    Aligned first (events ++ more) tags elements := by
  induction h with
  | nil => exact .nil
  | cons _ hStart hAttributes hAround hBare ih =>
      refine .cons
        (ih (fun tag hMem => hTags tag (List.mem_cons_of_mem _ hMem)))
        ?_ hAttributes hAround hBare
      rw [startTagAt_append first events more
        (hTags _ List.mem_cons_self)]
      exact hStart

theorem Aligned.length_eq
    {first : State}
    {events : List Event}
    {tags : List Event.OpenTag}
    {elements : List Element}
    (h : Aligned first events tags elements) :
    tags.length = elements.length := by
  induction h with
  | nil => rfl
  | cons _ _ _ _ _ ih => rw [List.length_cons, List.length_cons, ih]

theorem Aligned.tail
    {first : State}
    {events : List Event}
    {tags : List Event.OpenTag}
    {e : Element}
    {rest : List Element}
    (h : Aligned first events tags (e :: rest)) :
    Aligned first events tags.tail rest := by
  cases h with
  | cons hRest _ _ _ _ => exact hRest

/- A run leaves the start tags that are open beside its elements. -/
theorem aligned_of_run
    {first d : State}
    {events : List Event}
    {sections : List (List Note)}
    (hEmpty : first.elements = [])
    (hRun : Run first events sections d) :
    d.outer = first.outer ∧
      Aligned first events (Event.openTags events) d.elements := by
  refine Run.concat_induction
    (P := fun events _ d =>
      d.outer = first.outer ∧
        Aligned first events (Event.openTags events) d.elements)
    ⟨rfl, ?_⟩ ?_ hRun
  · rw [hEmpty]
    exact .nil
  · rintro events sections d event notes d' hRun ⟨hOuter, hAligned⟩ hStep
    refine ⟨(process_keeps hStep).2.trans hOuter, ?_⟩
    have hLonger :=
      hAligned.append
        (fun _ hMem => Event.position_lt_length hMem) [event]
    rw [Event.openTags_concat]
    rcases process_ok_cases hStep with
      ⟨name, attributes, depth, e, t, rfl, _⟩ |
        ⟨data, rfl, rfl, _⟩ |
        ⟨name, depth, e, rest, m, t, rfl, hElements, _, _, _, rfl, _⟩
    · rcases process_startTag hStep with
        ⟨x, m, t, hStart, hAround, hAttributes, _, _, rfl, _⟩
      refine .cons (hLonger.captureAll _) ?_ hAttributes ?_ rfl
      · exact (hRun.startTagAt_length _).trans hStart
      · rw [hAround, scope_eq_innermost, hOuter]
        exact (innermost_captureAll _ _ _).symm
    · exact hLonger.captureAll _
    · rw [hElements] at hLonger
      exact hLonger.tail.captureAll _

/- Start tags that are open before a position, in the whole run. -/
theorem Run.aligned_before
    {first d : State}
    {events : List Event}
    {sections : List (List Note)}
    (hEmpty : first.elements = [])
    (hRun : Run first events sections d)
    (position : Nat) :
    (first.before events position).scope =
        innermost first.outer
          (first.before events position).elements ∧
      Aligned first events (Event.openTags (events.take position))
        (first.before events position).elements := by
  have hCut := hRun
  rw [← List.take_append_drop position events] at hCut
  rcases hCut.split with ⟨m, _, _, hBefore, _, _⟩
  have hState : first.before events position = m := hBefore.through_eq
  rcases aligned_of_run hEmpty hBefore with ⟨hOuter, hAligned⟩
  have hWhole :=
    hAligned.append (fun _ hMem => Event.position_lt_length hMem)
      (events.drop position)
  rw [List.take_append_drop] at hWhole
  rw [hState, scope_eq_innermost, hOuter]
  exact ⟨rfl, hWhole⟩

end Evaluation
end LinkedMarkup
