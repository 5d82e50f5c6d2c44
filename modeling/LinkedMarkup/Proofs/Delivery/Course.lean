import LinkedMarkup.Proofs.Delivery.Consumer
import LinkedMarkup.Proofs.Delivery.Reporting

/-
  This file proves which courses a run can take: it is only
  stopped between events, and all that an event states is
  delivered before the next one. A run that nobody stops takes
  one course only, and one that is stopped takes that course
  up to the end of an event.

  Key definitions include:
    * `Handover.verdict`
    * `Note.records`
    * `Consumer.Reacts`
    * `Handover.Course`
    * `Handover.IsOpening`

  Main declarations:
    * `Handover.passOnAll_watched`
    * `Handover.passOnAll_begun`
    * `Handover.course_of_runSections`
    * `Handover.exists_course`
    * `Handover.Course.records_eq`
    * `Handover.Course.of_quiet`
    * `Handover.Course.of_stop`
-/

namespace LinkedMarkup
namespace Handover

variable {σ : Type}

------------------------------------------------------------
-- Results
------------------------------------------------------------

/- What a run results in, by the fault that ended it. -/
def verdict
    (fault? : Option Fault) : Result :=
  match fault? with
  | none => .success
  | some fault =>
      if fault.isAdvisory then
        .success
      else
        .failure fault.toIssue.text

theorem conclude_fst
    (fault? : Option Fault)
    (d : Desk σ) :
    (conclude fault? d).1 = verdict fault? := by
  cases fault? with
  | none => rfl
  | some fault =>
      unfold conclude verdict
      dsimp only
      split <;> rfl

theorem conclude_far
    (fault? : Option Fault)
    (d : Desk σ) :
    (conclude fault? d).2.far = d.far := by
  cases fault? with
  | none => rfl
  | some fault =>
      unfold conclude
      dsimp only
      split <;> rfl

/- An extraction ends where it was stopped, or with its own fault. -/
theorem runExtraction_eq
    (host : Host σ)
    (e : Extraction)
    (d : Desk σ) :
    runExtraction host e d =
      ((runSections host e.sections
          (passOnAll host e.opening d)).1.or e.fault?,
        (runSections host e.sections (passOnAll host e.opening d)).2) := by
  unfold runExtraction
  cases runSections host e.sections (passOnAll host e.opening d) with
  | mk stop? last => cases stop? <;> rfl

theorem run_fst
    (host : Host σ)
    (signal : Signal)
    (far : σ)
    (r : Request) :
    (run host signal far r).1 =
      verdict
        (runExtraction host r.extraction (.start signal far)).1 := by
  unfold run
  rw [conclude_fst]

------------------------------------------------------------
-- Courses
------------------------------------------------------------

end Handover

/- The records of the quads among notes. -/
def Note.records
    (notes : List Note) : List (List Record) :=
  (Note.quads notes).map Quad.records

/- A delivery after which a consumer may ask for what was asked. -/
def Consumer.Reacts
    {σ : Type}
    (c : Consumer σ)
    (d : Delivery) : Prop :=
  ∃ signal far, d.stop? = (c d.records signal far).stop?

namespace Handover

variable {σ : Type}

/-
  The course of a run over sections, from a signal: what was
  delivered for each event, and the fault that stopped it, if
  one did. It is only stopped before an event.
-/
inductive Course
    (c : Consumer σ) :
    Signal → List (List Note) → List (List Delivery) →
      Option Fault → Prop where
  | ended (signal : Signal) : Course c signal [] [] none
  | stopped
      {signal : Signal}
      {fault : Fault}
      (notes : List Note)
      (rest : List (List Note))
      (hCheck : signal.check = some fault) :
      Course c signal (notes :: rest) [] (some fault)
  | event
      {signal : Signal}
      {notes : List Note}
      {rest : List (List Note)}
      {group : List Delivery}
      {groups : List (List Delivery)}
      {stop? : Option Fault}
      (hCheck : signal.check = none)
      (hRecords : group.map Delivery.records = Note.records notes)
      (hReacts : ∀ d ∈ group, c.Reacts d)
      (hRest : Course c (signal.through group) rest groups stop?) :
      Course c signal (notes :: rest) (group :: groups) stop?

section Watched

variable {c : Consumer σ} {d : Desk (σ × List (List Delivery))}

/- The quads among notes are delivered, each once and in order. -/
theorem passOnAll_watched
    (hIdle : d.Idle)
    (notes : List Note) :
    ∃ deliveries : List Delivery,
      deliveries.map Delivery.records = Note.records notes ∧
        (∀ x ∈ deliveries, c.Reacts x) ∧
        (passOnAll c.watched notes d).far.2 =
          deliveries.foldl Delivery.enter d.far.2 ∧
        (passOnAll c.watched notes d).signal =
          d.signal.through deliveries := by
  unfold passOnAll
  induction notes generalizing d with
  | nil => exact ⟨[], rfl, by simp, rfl, rfl⟩
  | cons note rest ih =>
      rcases ih (idle_passOn hIdle note) with
        ⟨deliveries, hRecords, hReacts, hFar, hSignal⟩
      rw [List.foldl_cons, hFar, hSignal]
      cases note with
      | quad q =>
          have hPassed :
              passOn c.watched d (.quad q) = deliver c.watched d q :=
            schedule_eq hIdle q
          rw [hPassed, deliver_eq]
          let x : Delivery :=
            ⟨q.records, (c q.records d.signal d.far.1).stop?⟩
          refine ⟨x :: deliveries, ?_, ?_, rfl, rfl⟩
          · rw [List.map_cons, hRecords]
            rfl
          · intro y hMem
            rcases List.mem_cons.mp hMem with rfl | hOld
            · exact ⟨d.signal, d.far.1, rfl⟩
            · exact hReacts y hOld
      | line l => exact ⟨deliveries, hRecords, hReacts, rfl, rfl⟩
      | filed x => exact ⟨deliveries, hRecords, hReacts, rfl, rfl⟩

/- Notes without a quad leave the history and the signal alone. -/
theorem passOnAll_of_records_eq_nil
    (hIdle : d.Idle)
    {notes : List Note}
    (h : Note.records notes = []) :
    (passOnAll c.watched notes d).far.2 = d.far.2 ∧
      (passOnAll c.watched notes d).signal = d.signal := by
  rcases passOnAll_watched hIdle notes with
    ⟨deliveries, hRecords, _, hFar, hSignal⟩
  rw [h, List.map_eq_nil_iff] at hRecords
  rw [hRecords] at hFar hSignal
  exact ⟨hFar, hSignal⟩

/- The deliveries of an event that has begun are its group. -/
theorem passOnAll_begun
    {past : List (List Delivery)}
    (hIdle : d.Idle)
    (hBegun : d.far.2 = [] :: past)
    (notes : List Note) :
    ∃ group : List Delivery,
      group.map Delivery.records = Note.records notes ∧
        (∀ x ∈ group, c.Reacts x) ∧
        (passOnAll c.watched notes d).far.2 = group :: past ∧
        (passOnAll c.watched notes d).signal =
          d.signal.through group := by
  rcases passOnAll_watched hIdle notes with
    ⟨group, hRecords, hReacts, hFar, hSignal⟩
  rw [hBegun, Delivery.foldl_enter_cons] at hFar
  exact ⟨group, hRecords, hReacts, hFar, hSignal⟩

/- Every run over sections takes a course, and records it. -/
theorem course_of_runSections
    (hIdle : d.Idle)
    (sections : List (List Note)) :
    ∃ groups,
      (runSections c.watched sections d).2.far.2 =
          groups.reverse ++ d.far.2 ∧
        Course c d.signal sections groups
          (runSections c.watched sections d).1 := by
  induction sections generalizing d with
  | nil => exact ⟨[], rfl, .ended d.signal⟩
  | cons notes rest ih =>
      unfold runSections
      cases hCheck : d.signal.check with
      | some fault =>
          rw [permit_of_check_eq_some hCheck]
          exact ⟨[], rfl, .stopped notes rest hCheck⟩
      | none =>
          rw [permit_of_check_eq_none hCheck]
          let going : Desk (σ × List (List Delivery)) :=
            { d with far := (d.far.1, [] :: d.far.2) }
          have hGoing : going.Idle := ⟨hIdle.waiting, hIdle.draining⟩
          rcases passOnAll_begun (c := c) hGoing rfl notes with
            ⟨group, hRecords, hReacts, hFar, hSignal⟩
          rcases ih (d := passOnAll c.watched notes going)
              (idle_passOnAll hGoing notes) with
            ⟨groups, hHistory, hCourse⟩
          rw [hFar] at hHistory
          rw [hSignal] at hCourse
          refine ⟨group :: groups, ?_, .event hCheck hRecords hReacts
            hCourse⟩
          rw [List.reverse_cons, List.append_assoc]
          exact hHistory

end Watched

/- Before the first event, at most one remark is noted. -/
def IsOpening
    (notes : List Note) : Prop :=
  notes = [] ∨ ∃ text, notes = [.line ⟨.debug, text⟩]

theorem isOpening_documentBase
    {media : MediaType}
    {base resolved : String}
    {tree : Tree}
    {opening : List Note}
    (h :
      Extraction.documentBase media base tree =
        .ok (resolved, opening)) :
    IsOpening opening := by
  unfold Extraction.documentBase at h
  split at h
  · rename_i reference _
    cases hResolve : Iri.resolve base reference with
    | error fault =>
        rw [hResolve] at h
        cases h
    | ok found =>
        rw [hResolve] at h
        cases h
        exact .inr ⟨_, rfl⟩
  · cases h
    exact .inl rfl

theorem opening_ofBase
    (settings : Settings)
    (base : String)
    (opening : List Note)
    (trace : Walk.Trace) :
    (Extraction.ofBase settings base opening trace).opening =
      opening := by
  unfold Extraction.ofBase
  cases Evaluation.start settings base with
  | error fault => rfl
  | ok state =>
      dsimp only
      rw [ofTrace_eq]

theorem isOpening_extraction
    (r : Request) :
    IsOpening r.extraction.opening := by
  have hRun :
      ∀ (settings : Settings) (base text : String),
        IsOpening (Extraction.run settings base text).opening := by
    intro settings base text
    unfold Extraction.run
    split
    · exact .inl rfl
    · split
      · exact .inl rfl
      · rename_i hBase
        rw [opening_ofBase]
        exact isOpening_documentBase hBase
  unfold Request.extraction
  split
  · split
    · exact hRun _ _ _
    · exact .inl rfl
  · exact .inl rfl
  · exact .inl rfl

/- Before the first event no quad is stated. -/
theorem records_opening
    (r : Request) :
    Note.records r.extraction.opening = [] := by
  rcases isOpening_extraction r with hNone | ⟨text, hOne⟩
  · rw [hNone]
    rfl
  · rw [hOne]
    rfl

/-
  Every run takes a course that its history tells. It ends with
  what stopped it, or else with the fault of the extraction.
-/
theorem exists_course
    (c : Consumer σ)
    (signal : Signal)
    (far : σ)
    (r : Request) :
    ∃ stop?,
      Course c signal r.extraction.sections (c.history signal far r)
          stop? ∧
        (runExtraction c.host r.extraction (.start signal far)).1 =
          stop?.or r.extraction.fault? := by
  let first := Desk.start signal (far, ([] : List (List Delivery)))
  have hIdle : first.Idle := idle_start _ _
  rcases
    passOnAll_of_records_eq_nil (c := c) hIdle (records_opening r) with
    ⟨hFar, hSignal⟩
  rcases course_of_runSections (c := c)
      (idle_passOnAll hIdle r.extraction.opening)
      r.extraction.sections with
    ⟨groups, hHistory, hCourse⟩
  rw [hSignal] at hCourse
  rw [hFar] at hHistory
  have hGroups : c.history signal far r = groups := by
    unfold Consumer.history run
    rw [conclude_far, runExtraction_eq, hHistory]
    simp [first, Desk.start]
  refine ⟨_, hGroups ▸ hCourse, ?_⟩
  have hPlain :=
    runExtraction_mapped (maps_watched c) r.extraction first
  have hStart : first.map Prod.fst = Desk.start signal far := rfl
  rw [hStart] at hPlain
  rw [hPlain, runExtraction_eq]

------------------------------------------------------------
-- What courses tell
------------------------------------------------------------

section Facts

variable {c : Consumer σ} {signal : Signal}
variable {sections : List (List Note)}
variable {groups : List (List Delivery)} {stop? : Option Fault}

theorem check_eq_none
    (h : signal.aborted = false) :
    signal.check = none := by
  simp [Signal.check, h]

/- A signal stays as it is while no stop is asked for. -/
theorem through_eq_self
    (signal : Signal)
    {deliveries : List Delivery}
    (h : ∀ d ∈ deliveries, d.stop? = none) :
    signal.through deliveries = signal := by
  unfold Signal.through
  induction deliveries with
  | nil => rfl
  | cons d rest ih =>
      rw [List.foldl_cons, h d List.mem_cons_self]
      exact ih (fun x hMem => h x (List.mem_cons_of_mem d hMem))

/- Only the first request to stop counts. -/
theorem through_of_aborted
    (h : signal.aborted = true)
    (deliveries : List Delivery) :
    signal.through deliveries = signal := by
  have hAsked :
      ∀ ask : Option (Option String), signal.asked ask = signal := by
    intro ask
    cases ask with
    | none => rfl
    | some reason => simp [Signal.asked, Signal.abort, h]
  unfold Signal.through
  induction deliveries with
  | nil => rfl
  | cons d rest ih =>
      rw [List.foldl_cons, hAsked]
      exact ih

/- The signal after a first request to stop, and any later ones. -/
theorem through_of_stop
    (hSignal : signal.aborted = false)
    {early late : List Delivery}
    {d : Delivery}
    {reason : Option String}
    (hEarly : ∀ x ∈ early, x.stop? = none)
    (hStop : d.stop? = some reason) :
    signal.through (early ++ d :: late) = ⟨true, reason⟩ := by
  have hSplit :
      signal.through (early ++ d :: late) =
        ((signal.through early).asked d.stop?).through late := by
    unfold Signal.through
    rw [List.foldl_append, List.foldl_cons]
  have hAsked : signal.asked d.stop? = ⟨true, reason⟩ := by
    rw [hStop]
    simp [Signal.asked, Signal.abort, hSignal]
  rw [hSplit, through_eq_self signal hEarly, hAsked]
  exact through_of_aborted rfl late

/- Whatever stops a run says why. -/
theorem Course.reported
    (h : Course c signal sections groups stop?)
    {fault : Fault}
    (hStop : stop? = some fault) :
    fault.Reported := by
  induction h with
  | ended signal => cases hStop
  | stopped notes rest hCheck =>
      cases hStop
      exact Signal.reported_of_check hCheck
  | event hCheck hRecords hReacts _ ih => exact ih hStop

/- Each event that a run came to has all its quads delivered. -/
theorem Course.records_eq
    (h : Course c signal sections groups stop?) :
    Delivery.contents groups =
      (sections.take groups.length).map Note.records := by
  unfold Delivery.contents
  induction h with
  | ended signal => rfl
  | stopped notes rest hCheck => rfl
  | event hCheck hRecords hReacts _ ih =>
      rw [List.map_cons, hRecords, ih]
      rfl

theorem Course.reacts
    (h : Course c signal sections groups stop?) :
    ∀ d ∈ groups.flatten, c.Reacts d := by
  induction h with
  | ended signal => simp
  | stopped notes rest hCheck => simp
  | event hCheck hRecords hReacts _ ih =>
      rw [List.flatten_cons, List.forall_mem_append]
      exact ⟨hReacts, ih⟩

/- A run that is not asked to stop comes to every event. -/
theorem Course.of_quiet
    (h : Course c signal sections groups stop?)
    (hSignal : signal.aborted = false)
    (hQuiet : ∀ d ∈ groups.flatten, d.stop? = none) :
    groups.length = sections.length ∧ stop? = none := by
  induction h with
  | ended signal => exact ⟨rfl, rfl⟩
  | stopped notes rest hCheck =>
      rw [check_eq_none hSignal] at hCheck
      cases hCheck
  | @event signal notes rest group groups stop? hCheck hRecords
      hReacts _ ih =>
      rw [List.flatten_cons, List.forall_mem_append] at hQuiet
      rcases hQuiet with ⟨hGroup, hRest⟩
      rw [through_eq_self signal hGroup] at ih
      rcases ih hSignal hRest with ⟨hLength, hStop⟩
      exact ⟨by simp [hLength], hStop⟩

/- A run that was to be stopped before it comes to no event. -/
theorem Course.of_aborted
    (h : Course c signal sections groups stop?)
    (hSignal : signal.aborted = true) :
    groups = [] ∧
      stop? = if sections = [] then none else signal.check := by
  cases h with
  | ended signal => exact ⟨rfl, rfl⟩
  | stopped notes rest hCheck => exact ⟨rfl, hCheck.symm⟩
  | event hCheck _ _ _ => simp [Signal.check, hSignal] at hCheck

/-
  A run that is first asked to stop in one event goes on to
  the end of that event. It is stopped there if it would have
  come to another one.
-/
theorem Course.of_stop
    {before after : List (List Delivery)}
    {early late : List Delivery}
    {d : Delivery}
    {reason : Option String}
    (h :
      Course c signal sections
        (before ++ (early ++ d :: late) :: after) stop?)
    (hSignal : signal.aborted = false)
    (hBefore : ∀ x ∈ before.flatten, x.stop? = none)
    (hEarly : ∀ x ∈ early, x.stop? = none)
    (hStop : d.stop? = some reason) :
    after = [] ∧ before.length + 1 ≤ sections.length ∧
      stop? =
        if before.length + 1 = sections.length then
          none
        else
          (Signal.mk true reason).check := by
  induction before generalizing signal sections with
  | nil =>
      cases h with
      | event hCheck hRecords hReacts hRest =>
          rw [through_of_stop hSignal hEarly hStop] at hRest
          rcases hRest.of_aborted rfl with ⟨hAfter, hStopped⟩
          refine ⟨hAfter, by simp, ?_⟩
          rw [hStopped]
          simp
  | cons group before ih =>
      cases h with
      | event hCheck hRecords hReacts hRest =>
          rw [List.flatten_cons, List.forall_mem_append] at hBefore
          rcases hBefore with ⟨hGroup, hOthers⟩
          rw [through_eq_self signal hGroup] at hRest
          rcases ih hRest hSignal hOthers with
            ⟨hAfter, hLength, hStopped⟩
          refine ⟨hAfter, by simpa using hLength, ?_⟩
          rw [hStopped]
          simp

end Facts

end Handover
end LinkedMarkup
