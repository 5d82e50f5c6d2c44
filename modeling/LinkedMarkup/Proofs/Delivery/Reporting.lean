import LinkedMarkup.Delivery.Handover
import LinkedMarkup.Proofs.Evaluation.Placement
import LinkedMarkup.Proofs.Markup.Nesting

/-
  This file proves that whatever ends an extraction early is
  reported: it is no mere remark, which would pass for success,
  and what is said of it is not empty.

  Key definitions include:
    * `Fault.Reported`

  Main declarations:
    * `Fault.reported_of_foreign`
    * `Fault.reported_of_message`
    * `Evaluation.reported_of_process`
    * `Extraction.reported_of_fault?`
    * `Request.reported_of_extraction`
    * `Signal.reported_of_check`
-/

namespace LinkedMarkup

------------------------------------------------------------
-- Faults
------------------------------------------------------------

namespace Fault

/- A fault that is no remark and that something is said of. -/
structure Reported
    (f : Fault) : Prop where
  serious : f.isAdvisory = false
  message : f.toIssue.text ≠ ""

theorem Kind.name_ne_empty
    (k : Kind) :
    k.name ≠ "" := by
  cases k <;> decide

theorem text_raised
    (k : Kind)
    (message : String) :
    (raised k message).text = message := rfl

/- The faults of other libraries are reported as issues. -/
theorem reported_of_foreign
    {f : Fault}
    (h : f.kind.isIssue = false) :
    f.Reported where
  serious := by
    unfold isAdvisory
    cases hKind : f.kind with
    | advisory =>
        rw [hKind] at h
        cases h
    | _ => rfl
  message := by
    unfold toIssue
    rw [if_neg (by simp [h])]
    split
    · rw [text_raised]
      exact f.kind.name_ne_empty
    · rename_i hText
      rw [text_raised]
      simpa using hText

/- A fault with a message is reported unless it is a remark. -/
theorem reported_of_message
    {f : Fault}
    {message : String}
    (hKind : f.isAdvisory = false)
    (hMessage : f.message? = some message)
    (hSome : message ≠ "") :
    f.Reported := by
  have hText : f.text = message := by
    unfold text
    rw [hMessage]
    rfl
  by_cases hIssue : f.kind.isIssue = true
  · refine ⟨hKind, ?_⟩
    unfold toIssue
    rw [if_pos hIssue, hText]
    exact hSome
  · exact reported_of_foreign (by simpa using hIssue)

theorem reported_of_value
    {f : Fault}
    (h : f.kind = .value) :
    f.Reported := by
  apply reported_of_foreign
  rw [h]
  rfl

end Fault

------------------------------------------------------------
-- Events
------------------------------------------------------------

namespace Evaluation

open Work

theorem coversPlaced_reported : CoversPlaced Fault.Reported where
  value _ hKind := Fault.reported_of_value hKind
  gaps :=
    ⟨Fault.reported_of_message rfl rfl (by simp),
      Fault.reported_of_message rfl rfl (by simp)⟩
  flushed _ := Fault.reported_of_message rfl rfl (by simp)
  unowned := Fault.reported_of_message rfl rfl (by decide)

/- Whatever keeps an event from being processed is reported. -/
theorem reported_of_process
    {d : State}
    {event : Event}
    {fault : Fault}
    {notes : List Note}
    (h : process d event = (.error fault, notes)) :
    fault.Reported := by
  by_cases hPlaced : Placed d event
  · exact fault_of_placed coversPlaced_reported hPlaced h
  · rcases fault_of_not_placed hPlaced h with
      ⟨_, rfl⟩ | ⟨_, _, rfl⟩ | ⟨_, rfl⟩
    all_goals exact Fault.reported_of_message rfl rfl (by simp)

/- Whatever ends the events of a document early is reported. -/
theorem reported_of_evaluate
    {d : State}
    {events : List Event}
    {fault : Fault}
    {sections : List (List Note)}
    (h :
      Extraction.evaluate d events = (sections, .error fault)) :
    fault.Reported := by
  induction events generalizing d sections with
  | nil => cases h
  | cons event rest ih =>
      unfold Extraction.evaluate at h
      split at h
      · rename_i cause notes hStep
        cases h
        exact reported_of_process hStep
      · rename_i m notes hStep
        cases hMore : Extraction.evaluate m rest with
        | mk more outcome =>
            simp only [hMore] at h
            cases h
            exact ih hMore

theorem reported_of_start
    {settings : Settings}
    {base : String}
    {fault : Fault}
    (h : start settings base = .error fault) :
    fault.Reported := by
  rcases start_eq_error h with hDocument | rfl
  · exact Fault.reported_of_value
      (Iri.kind_of_withoutFragment_error hDocument)
  · exact Fault.reported_of_message rfl rfl (by simp)

theorem reported_of_finish
    {d : State}
    {fault : Fault}
    (h : finish d = .error fault) :
    fault.Reported := by
  unfold finish at h
  split at h
  · cases h
  · cases h
    exact Fault.reported_of_message rfl rfl (by simp)

end Evaluation

------------------------------------------------------------
-- Whole extractions
------------------------------------------------------------

namespace Extraction

theorem reported_of_ofTrace
    {opening : List Note}
    {state : Evaluation.State}
    {trace : Walk.Trace}
    {fault : Fault}
    (hTrace : ∀ cause, trace.fault? = some cause → cause.Reported)
    (h : (ofTrace opening state trace).fault? = some fault) :
    fault.Reported := by
  unfold ofTrace at h
  cases hRun : evaluate state trace.events with
  | mk sections outcome =>
      rw [hRun] at h
      cases outcome with
      | error cause =>
          cases h
          exact Evaluation.reported_of_evaluate hRun
      | ok final =>
          dsimp only at h
          cases hFault : trace.fault? with
          | some cause =>
              rw [hFault] at h
              cases h
              exact hTrace fault hFault
          | none =>
              rw [hFault, Option.none_or] at h
              unfold endingFault? at h
              split at h
              · cases h
              · rename_i cause hFinish
                cases h
                exact Evaluation.reported_of_finish hFinish

theorem reported_of_read
    {media : MediaType}
    {text : String}
    {fault : Fault}
    (h : Document.read media text = .error fault) :
    fault.Reported := by
  have hEmpty : Fault.emptyDocument.Reported :=
    Fault.reported_of_message rfl rfl (by decide)
  unfold Document.read at h
  split at h
  · cases h
    exact hEmpty
  · split at h
    · split at h
      · cases h
      · cases h
        exact hEmpty
    · split at h
      · cases h
      · cases h
        exact Fault.reported_of_message rfl rfl (by simp)

theorem reported_of_documentBase
    {media : MediaType}
    {base : String}
    {tree : Tree}
    {fault : Fault}
    (h : documentBase media base tree = .error fault) :
    fault.Reported := by
  unfold documentBase at h
  split at h
  · rename_i reference _
    cases hResolve : Iri.resolve base reference with
    | error cause =>
        rw [hResolve] at h
        cases h
        exact Fault.reported_of_value
          (Iri.kind_of_resolve_error hResolve)
    | ok resolved =>
        rw [hResolve] at h
        cases h
  · cases h

/- Whatever ends the extraction of a text early is reported. -/
theorem reported_of_fault?
    {settings : Settings}
    {base text : String}
    {fault : Fault}
    (h : (run settings base text).fault? = some fault) :
    fault.Reported := by
  unfold run at h
  split at h
  · rename_i cause hRead
    cases h
    exact reported_of_read hRead
  · split at h
    · rename_i cause hBase
      cases h
      exact reported_of_documentBase hBase
    · unfold ofBase at h
      split at h
      · rename_i cause hStart
        cases h
        exact Evaluation.reported_of_start hStart
      · refine reported_of_ofTrace ?_ h
        intro cause hWalk
        rw [Tree.fault_of_walk hWalk]
        exact Fault.reported_of_value rfl

end Extraction

namespace Request

theorem reported_of_mediaType
    {media : Datum}
    {fault : Fault}
    (h : mediaType media = .error fault) :
    fault.Reported := by
  have hHeader :
      ∀ header, MediaType.ofHeader header = .error fault →
        fault.Reported := by
    intro header hError
    unfold MediaType.ofHeader at hError
    split at hError
    · cases hError
    · split at hError
      · cases hError
      · dsimp only at hError
        split at hError
        · cases hError
        · cases hError
          exact Fault.reported_of_message rfl rfl (by simp)
  unfold mediaType at h
  split at h
  · exact hHeader _ h
  · exact hHeader _ h
  · cases h
    exact Fault.reported_of_foreign rfl

/- Whatever ends what a request asks for is reported. -/
theorem reported_of_extraction
    {r : Request}
    {fault : Fault}
    (h : r.extraction.fault? = some fault) :
    fault.Reported := by
  unfold extraction at h
  split at h
  · split at h
    · exact Extraction.reported_of_fault? h
    · rename_i cause hMedia
      cases h
      exact reported_of_mediaType hMedia
  · cases h
    exact Fault.reported_of_message rfl rfl (by simp)
  · cases h
    exact Fault.reported_of_message rfl rfl (by simp)

end Request

/- A run that was cancelled says why. -/
theorem Signal.reported_of_check
    {s : Signal}
    {fault : Fault}
    (h : s.check = some fault) :
    fault.Reported := by
  unfold check at h
  split at h
  · cases h
    refine Fault.reported_of_message rfl rfl ?_
    cases hReason : s.reason.filter (fun r => !r.isEmpty) with
    | none => decide
    | some reason =>
        have hKept := (Option.filter_eq_some_iff.mp hReason).2
        simpa using hKept
  · cases h

end LinkedMarkup
