import LinkedMarkup.Proofs.Delivery.Deliveries

/-
  This file proves what a consumer gets that asks for a stop
  in the midst of a delivery. Events are not cut short: the
  run goes on to the end of the event at hand, and is stopped
  there with the reason that was given first, unless it was
  the last event.

  Key definitions include:
    * `Signal.toldReason`
    * `Delivery.FirstStop`

  Main declarations:
    * `Signal.check_of_stopped`
    * `Delivery.FirstStop.split`
    * `Handover.stopped_after_event`
-/

namespace LinkedMarkup

/- The reason that is told for a stop, which may give none. -/
def Signal.toldReason
    (reason : Option String) : String :=
  match reason with
  | some text => if text = "" then "Parse cancelled" else text
  | none => "Parse cancelled"

theorem Signal.check_of_stopped
    (reason : Option String) :
    (Signal.mk true reason).check =
      some (.cancelled (toldReason reason)) := by
  unfold check
  cases reason with
  | none => rfl
  | some text =>
      by_cases hText : text = ""
      · rw [hText]
        rfl
      · simp [toldReason, hText, Option.filter]

namespace Delivery

------------------------------------------------------------
-- The first request to stop
------------------------------------------------------------

/-
  Among deliveries, grouped by event, the one at a position
  is the first after which a stop is asked for, and is made
  for the event of a number. Both are counted from zero.
-/
structure FirstStop
    (groups : List (List Delivery))
    (position number : Nat)
    (reason : Option String) : Prop where
  stops :
    (groups.flatten[position]?).bind Delivery.stop? = some reason
  first : ∀ d ∈ groups.flatten.take position, d.stop? = none
  since : (groups.take number).flatten.length ≤ position
  before : position < (groups.take (number + 1)).flatten.length

variable {group : List Delivery} {groups : List (List Delivery)}
variable {position number : Nat} {reason : Option String}

instance :
    Decidable (FirstStop groups position number reason) :=
  decidable_of_iff
    ((groups.flatten[position]?).bind Delivery.stop? = some reason ∧
      (∀ d ∈ groups.flatten.take position, d.stop? = none) ∧
      (groups.take number).flatten.length ≤ position ∧
      position < (groups.take (number + 1)).flatten.length)
    ⟨fun h => ⟨h.1, h.2.1, h.2.2.1, h.2.2.2⟩,
      fun h => ⟨h.stops, h.first, h.since, h.before⟩⟩

/- The deliveries around a stop in the first event. -/
theorem FirstStop.head
    (h : FirstStop (group :: groups) position 0 reason) :
    ∃ early d late,
      group = early ++ d :: late ∧ (∀ x ∈ early, x.stop? = none) ∧
        d.stop? = some reason := by
  have hWithin : position < group.length := by
    simpa using h.before
  have hHere :
      (group :: groups).flatten[position]? = some group[position] := by
    rw [List.flatten_cons, List.getElem?_append_left hWithin,
      List.getElem?_eq_getElem hWithin]
  have hStops := h.stops
  rw [hHere] at hStops
  have hFirst := h.first
  rw [List.flatten_cons,
    List.take_append_of_le_length (Nat.le_of_lt hWithin)] at hFirst
  refine ⟨group.take position, group[position],
    group.drop (position + 1), ?_, hFirst, hStops⟩
  rw [List.getElem_cons_drop, List.take_append_drop]

/- A stop in a later event comes after all of the first one. -/
theorem FirstStop.tail
    (h : FirstStop (group :: groups) position (number + 1) reason) :
    (∀ d ∈ group, d.stop? = none) ∧
      FirstStop groups (position - group.length) number reason := by
  have hSince :
      group.length + (groups.take number).flatten.length ≤
        position := by
    simpa using h.since
  have hWithin :
      position <
        group.length + (groups.take (number + 1)).flatten.length := by
    simpa using h.before
  have hBehind : group.length ≤ position := by omega
  have hTake :
      (group :: groups).flatten.take position =
        group ++ groups.flatten.take (position - group.length) := by
    rw [List.flatten_cons, List.take_append,
      List.take_of_length_le hBehind]
  have hFirst := h.first
  rw [hTake, List.forall_mem_append] at hFirst
  refine ⟨hFirst.1, ?_⟩
  constructor
  · have hStops := h.stops
    rwa [List.flatten_cons, List.getElem?_append_right hBehind]
      at hStops
  · exact hFirst.2
  · omega
  · omega

/- There is no stop without an event that it is asked for in. -/
theorem not_firstStop_nil :
    ¬ FirstStop [] position number reason := by
  intro h
  have hStops := h.stops
  simp at hStops

/- The deliveries around the first stop. Induction on its event. -/
theorem FirstStop.split
    (h : FirstStop groups position number reason) :
    ∃ before early d late after,
      groups = before ++ (early ++ d :: late) :: after ∧
        before.length = number ∧
        (∀ x ∈ before.flatten, x.stop? = none) ∧
        (∀ x ∈ early, x.stop? = none) ∧ d.stop? = some reason := by
  induction number generalizing groups position with
  | zero =>
      cases groups with
      | nil => exact absurd h not_firstStop_nil
      | cons group rest =>
          rcases h.head with ⟨early, d, late, rfl, hEarly, hStop⟩
          exact ⟨[], early, d, late, rest, rfl, rfl, by simp, hEarly,
            hStop⟩
  | succ number ih =>
      cases groups with
      | nil => exact absurd h not_firstStop_nil
      | cons group rest =>
          rcases h.tail with ⟨hGroup, hRest⟩
          rcases ih hRest with
            ⟨before, early, d, late, after, rfl, hLength, hBefore,
              hEarly, hStop⟩
          refine ⟨group :: before, early, d, late, after, rfl, ?_, ?_,
            hEarly, hStop⟩
          · rw [List.length_cons, hLength]
          · rw [List.flatten_cons, List.forall_mem_append]
            exact ⟨hGroup, hBefore⟩

end Delivery

namespace Handover

variable {σ τ : Type}

------------------------------------------------------------
-- Stopped runs
------------------------------------------------------------

/-
  A consumer that first asks for a stop in a delivery made for
  an event is handed the quads of all events up to that one,
  none of which is cut short. If the run that nobody stops goes
  on to another event, then the result gives the reason of that
  first request, whatever is asked for later; if not, then the
  result is that of the run that nobody stops.
-/
theorem stopped_after_event
    {c : Consumer σ}
    {c' : Consumer τ}
    (hQuiet : c'.Quiet)
    {signal : Signal}
    (hSignal : signal.aborted = false)
    {far : σ}
    (far' : τ)
    {r : Request}
    {position number : Nat}
    {reason : Option String}
    (hStop :
      Delivery.FirstStop (c.history signal far r) position number
        reason) :
    number < (c'.history signal far' r).length ∧
      (number + 1 < (c'.history signal far' r).length →
        Delivery.contents (c.history signal far r) =
            Delivery.contents
              ((c'.history signal far' r).take (number + 1)) ∧
          (run c.host signal far r).1 =
            .failure (Signal.toldReason reason)) ∧
      (number + 1 = (c'.history signal far' r).length →
        Delivery.contents (c.history signal far r) =
            Delivery.contents (c'.history signal far' r) ∧
          (run c.host signal far r).1 =
            (run c'.host signal far' r).1) := by
  rcases hStop.split with
    ⟨before, early, d, late, after, hGroups, hLength, hBefore, hEarly,
      hAsked⟩
  rcases course_of_quiet hQuiet hSignal far' r with ⟨hAll, hEnd'⟩
  rcases exists_course c signal far r with ⟨stop?, hCourse, hEnd⟩
  have hRecords := hCourse.records_eq
  rw [hGroups] at hCourse
  rcases hCourse.of_stop hSignal hBefore hEarly hAsked with
    ⟨hAfter, hCome, hStopped⟩
  rw [hLength] at hCome hStopped
  have hReached : (c.history signal far r).length = number + 1 := by
    rw [hGroups, hAfter]
    simp [hLength]
  have hEvents :
      (c'.history signal far' r).length =
        r.extraction.sections.length := by
    have hLengths := congrArg List.length hAll
    unfold Delivery.contents at hLengths
    rwa [List.length_map, List.length_map] at hLengths
  have hPrefix :
      Delivery.contents (c.history signal far r) =
        Delivery.contents
          ((c'.history signal far' r).take (number + 1)) := by
    unfold Delivery.contents at hAll hRecords ⊢
    rw [hRecords, hReached, List.map_take, List.map_take, hAll]
  rw [hEvents, run_fst, run_fst, hEnd, hEnd']
  refine ⟨hCome, ?_, ?_⟩
  · intro hFurther
    refine ⟨hPrefix, ?_⟩
    rw [hStopped, if_neg (by omega), Signal.check_of_stopped]
    rfl
  · intro hLast
    constructor
    · rw [hPrefix, List.take_of_length_le (by omega)]
    · rw [hStopped, if_pos hLast, Option.none_or]

namespace Titles

/- A consumer that asks for a stop at every delivery. -/
def impatient : Consumer Nat :=
  fun _ _ count =>
    ⟨none, some (some (if count = 0 then "enough" else "more")),
      count + 1⟩

end Titles

open Titles in
/-
  A stop that is asked for at the first of two quads of one
  start tag comes after the second. That asks again, in vain.
-/
theorem stopped_after_start_tag :
    (impatient.history .start 0 request).flatten.length = 2 ∧
      (steady.history .start () request).flatten.length = 3 ∧
      Delivery.contents (impatient.history .start 0 request) =
        Delivery.contents ((steady.history .start () request).take 3) ∧
      (run impatient.host .start 0 request).1 = .failure "enough" := by
  have hQuiet : steady.Quiet := fun _ _ _ => rfl
  have hImpatient :
      Delivery.FirstStop (impatient.history .start 0 request) 0 2
          (some "enough") ∧
        (impatient.history .start 0 request).flatten.length = 2 := by
    decide +kernel
  have hSteady :
      2 + 1 < (steady.history .start () request).length ∧
        (steady.history .start () request).flatten.length = 3 := by
    decide +kernel
  refine ⟨hImpatient.2, hSteady.2, ?_⟩
  exact
    (stopped_after_event hQuiet rfl () hImpatient.1).2.1 hSteady.1

end Handover
end LinkedMarkup
