import LinkedMarkup.Command.Job
import LinkedMarkup.Proofs.Delivery.Gathered
import LinkedMarkup.Proofs.Encoding.Grammar
import LinkedMarkup.Proofs.Standards.Steps

/-
  This file proves how a job of the command can end. It writes
  the graph of its source, or announces the fault that stopped
  it and exits with 1: a fault of files, or one that ended the
  extraction. Only a source whose bytes are no text ends a job
  in another way, since that fault is not one it knows of.

  Key definitions include:
    * `Found.Undecodable`
    * `Job.reading`
    * `Job.graph`
    * `Job.errors`
    * `Job.Announced`
    * `Job.writing`
    * `Job.Outcome.Completed`
    * `Job.Outcome.Reported`
    * `Job.EndsInOrder`

  Main declarations:
    * `Request.remarks_of_extraction`
    * `Gathering.run_of_completed`
    * `Gathering.run_of_fault`
    * `Graph.document_gathered`
    * `Job.reported_or_ready`
    * `Job.completed_or_reported`
    * `Job.ends_in_order_unless_undecodable`
-/

namespace LinkedMarkup

------------------------------------------------------------
-- Remarks
------------------------------------------------------------

/- Whatever is reported during an extraction is a remark. -/
theorem Request.remarks_of_extraction
    (r : Request) :
    ∀ l ∈ Note.lines r.extraction.notes, l.level = .debug := by
  have hOpening :
      ∀ l ∈ Note.lines r.extraction.opening, l.level = .debug := by
    rcases Handover.isOpening_extraction r with hNone | ⟨text, hOne⟩
    · rw [hNone]
      intro l hMem
      cases hMem
    · rw [hOne]
      intro l hMem
      rw [List.mem_singleton.mp hMem]
  have hSections :
      ∀ notes ∈ r.extraction.sections,
        ∀ l ∈ Note.lines notes, l.level = .debug := by
    rcases r.reads_or_failed with
      ⟨opening, first, trace, hReads⟩ | ⟨opening, fault, hFailed⟩
    · rw [hReads.extraction_eq, Handover.ofTrace_eq]
      intro notes hMem
      rcases List.mem_iff_getElem?.mp hMem with ⟨k, hSection⟩
      rcases Standard.exists_run_of_section hSection with
        ⟨event, _, d, _, _, rfl⟩
      exact Standard.remarks_of_process d event
    · rw [hFailed]
      intro notes hMem
      cases hMem
  intro l hMem
  unfold Extraction.notes at hMem
  rw [Note.lines_append, List.mem_append] at hMem
  rcases hMem with hFirst | hLater
  · exact hOpening l hFirst
  · rcases List.mem_filterMap.mp hLater with ⟨note, hNote, hLine⟩
    rcases List.mem_flatten.mp hNote with ⟨notes, hSection, hIn⟩
    exact hSections notes hSection l
      (List.mem_filterMap.mpr ⟨note, hIn, hLine⟩)

------------------------------------------------------------
-- Graphs
------------------------------------------------------------

namespace Gathering

/- A document read to its end gives its graph, with remarks only. -/
theorem run_of_completed
    {r : Request}
    (h : r.extraction.fault? = none) :
    ∃ remarks : List LogLine,
      (∀ l ∈ remarks, l.level = .debug) ∧
        run r =
          (.ok (Graph.standard.gathered r.extraction.quads),
            remarks) := by
  rcases Handover.runExtraction_intake r with
    ⟨d, hRun, hFar, hLines⟩
  refine
    ⟨openingLine :: (Note.lines r.extraction.notes ++
      [Handover.countLine d.count]), ?_, ?_⟩
  · simp only [List.forall_mem_cons, List.forall_mem_append]
    exact ⟨rfl, r.remarks_of_extraction, rfl, by simp⟩
  · unfold run Handover.run
    rw [hRun, h]
    simp [Handover.conclude, Handover.Desk.report, hFar, hLines]

/- What ends a document early is reported, after remarks only. -/
theorem run_of_fault
    {r : Request}
    {fault : Fault}
    (h : r.extraction.fault? = some fault) :
    ∃ (remarks : List LogLine) (count : Nat),
      (∀ l ∈ remarks, l.level = .debug) ∧
        run r =
          (.error (.extractionFailed fault.toIssue.text),
            remarks ++
              [Handover.abandonLine count fault.toIssue.text]) := by
  have hSerious := (Request.reported_of_extraction h).serious
  rcases Handover.runExtraction_intake r with
    ⟨d, hRun, hFar, hLines⟩
  refine
    ⟨openingLine :: Note.lines r.extraction.notes, d.count, ?_, ?_⟩
  · rw [List.forall_mem_cons]
    exact ⟨rfl, r.remarks_of_extraction⟩
  · unfold run Handover.run
    rw [hRun, h]
    simp [Handover.conclude, Handover.Desk.report, hSerious, hLines]

end Gathering

namespace Graph

theorem namespaces_gathered
    (g : Graph)
    (quads : List Quad) :
    (g.gathered quads).namespaces = g.namespaces := by
  unfold gathered
  induction quads generalizing g with
  | nil => rfl
  | cons q rest ih =>
      have hAdd : (g.add q.received).namespaces = g.namespaces := by
        unfold add
        split <;> rfl
      rw [List.foldl_cons, ih, hAdd]

/- A graph of statements can be written in every format. -/
theorem document_gathered
    (quads : List Quad)
    (format : Format) :
    (standard.gathered quads).document format =
      .ok ⟨format, standard.gathered quads⟩ := by
  have hKnown :
      standard.namespaces.all
        (fun entry => (Iri.parse? entry.2).isSome) = true := by
    decide +kernel
  unfold document
  rw [namespaces_gathered, hKnown, Bool.or_true, if_pos rfl]

end Graph

------------------------------------------------------------
-- Reading the source
------------------------------------------------------------

/- A source that is a file whose bytes are no text. -/
def Found.Undecodable
    (found : Found) : Prop :=
  ∃ bytes, found = .file bytes ∧ ¬ Utf8.WellFormed bytes

/- A file that holds a text, by its bytes. -/
def Found.text
    (text : String) : Found :=
  .file (Utf8.bytesOf text)

theorem Found.not_undecodable_text
    (text : String) :
    ¬ (Found.text text).Undecodable := by
  rintro ⟨bytes, hSame, hBytes⟩
  cases hSame
  exact hBytes (Utf8.wellFormed_bytesOf text)

/- A source is no file, is no text, or is a text. -/
theorem Found.cases
    (found : Found) :
    (found = .missing ∨ found = .folder) ∨
      found.Undecodable ∨ ∃ text, found = .text text := by
  cases found with
  | missing => exact .inl (.inl rfl)
  | folder => exact .inl (.inr rfl)
  | file bytes =>
      right
      by_cases hBytes : Utf8.WellFormed bytes
      · rcases (Utf8.wellFormed_iff bytes).mp hBytes with ⟨text, rfl⟩
        exact .inr ⟨text, rfl⟩
      · exact .inl ⟨bytes, rfl, hBytes⟩

namespace Job

/- What a job asks for about a text that its source holds. -/
def reading
    (j : Job)
    (address text : String) : Request :=
  j.request address (String.ofList (unifyLines text.toList))

/- The graph of what such a text states. -/
def graph
    (j : Job)
    (address text : String) : Graph :=
  Graph.standard.gathered (j.reading address text).extraction.quads

theorem content_text
    (j : Job)
    (text : String) :
    j.content (.text text) =
      .ok (String.ofList (unifyLines text.toList)) := by
  unfold content Found.text
  dsimp only
  rw [Utf8.strict?_bytesOf]

theorem content_of_undecodable
    (j : Job)
    {found : Found}
    (h : found.Undecodable) :
    j.content found = .error .undecodable := by
  rcases h with ⟨bytes, rfl, hBytes⟩
  unfold content
  dsimp only
  rw [Utf8.strict?_eq_none hBytes]

/- A source that is no file is a fault of files. -/
theorem content_of_absent
    (j : Job)
    {found : Found}
    (h : found = .missing ∨ found = .folder) :
    ∃ fault, fault.kind = .system ∧ j.content found = .error fault := by
  rcases h with rfl | rfl
  · exact ⟨_, rfl, rfl⟩
  · exact ⟨_, rfl, rfl⟩

------------------------------------------------------------
-- Outcomes
------------------------------------------------------------

/- The errors among lines. -/
def errors
    (lines : List LogLine) : List LogLine :=
  lines.filter (fun l => l.level == .error)

theorem errors_append
    (first second : List LogLine) :
    errors (first ++ second) = errors first ++ errors second :=
  List.filter_append ..

theorem errors_of_remarks
    {lines : List LogLine}
    (h : ∀ l ∈ lines, l.level = .debug) :
    errors lines = [] := by
  apply List.filter_eq_nil_iff.mpr
  intro l hMem
  rw [h l hMem]
  decide

/-
  The errors that announce a fault: its own. When a document
  could not be extracted, that was an error of its own before.
-/
inductive Announced : Fault → List LogLine → Prop where
  | file
      {fault : Fault}
      (hKind : fault.kind = .system) :
      Announced fault [⟨.error, fault.text⟩]
  | document
      (count : Nat)
      (reason : String) :
      Announced (.extractionFailed reason)
        [Handover.abandonLine count reason,
          ⟨.error, (Fault.extractionFailed reason).text⟩]

/- Where a job writes a graph: what it prints and what it saves. -/
def writing
    (j : Job)
    (g : Graph) :
    Option Graph.Document × Option (Path × Graph.Document) :=
  match j.output with
  | none => (some ⟨.turtle, g⟩, none)
  | some path => (none, some (path, ⟨.ofSuffix path.suffix, g⟩))

namespace Outcome

/- A job has written its graph where it should, without error. -/
structure Completed
    (j : Job)
    (g : Graph)
    (o : Outcome) : Prop where
  ending : o.ending = .exit 0
  written : (o.printed, o.saved) = j.writing g
  errors : errors o.lines = []

/- A job has written nothing and announced the fault it met. -/
structure Reported
    (o : Outcome) : Prop where
  ending : o.ending = .exit 1
  printed : o.printed = none
  saved : o.saved = none
  errors : ∃ fault, Announced fault (errors o.lines)

theorem Reported.not_completed
    {o : Outcome}
    (h : o.Reported)
    (j : Job)
    (g : Graph) :
    ¬ o.Completed j g := by
  intro hCompleted
  have hEnding := h.ending
  rw [hCompleted.ending] at hEnding
  cases hEnding

/- What has been written tells the graph. -/
theorem Completed.unique
    {o : Outcome}
    {j : Job}
    {g g' : Graph}
    (h : o.Completed j g)
    (h' : o.Completed j g') :
    g = g' := by
  have hWritten := h.written.symm.trans h'.written
  unfold writing at hWritten
  cases hOutput : j.output with
  | none =>
      rw [hOutput] at hWritten
      cases hWritten
      rfl
  | some path =>
      rw [hOutput] at hWritten
      cases hWritten
      rfl

end Outcome

/- A fault that the command knows of is reported. -/
theorem reported_failed
    {lines : List LogLine}
    {fault : Fault}
    (h : Announced fault (errors lines ++ [⟨.error, fault.text⟩])) :
    (failed lines fault).Reported := by
  have hErrors :
      errors (lines ++ [⟨.error, fault.text⟩]) =
        errors lines ++ [⟨.error, fault.text⟩] :=
    errors_append lines _
  have hKind : fault.kind = .system ∨ fault.kind = .extraction := by
    generalize errors lines ++ [⟨.error, fault.text⟩] = announced at h
    cases h with
    | file hKind => exact .inl hKind
    | document count reason => exact .inr rfl
  have hFailed :
      failed lines fault =
        ⟨.exit 1, none, none, lines ++ [⟨.error, fault.text⟩]⟩ := by
    unfold failed
    rcases hKind with hKind | hKind <;> rw [hKind]
  rw [hFailed]
  exact ⟨rfl, rfl, rfl, fault, hErrors ▸ h⟩

------------------------------------------------------------
-- Endings
------------------------------------------------------------

section Runs

variable (j : Job) (address : String) (refusal : Option Fault)

theorem run_of_undecodable
    {found : Found}
    (h : found.Undecodable) :
    j.run found address refusal =
      ⟨.fault .undecodable, none, none, []⟩ := by
  unfold run load
  rw [j.content_of_undecodable h]
  rfl

theorem reported_of_absent
    {found : Found}
    (h : found = .missing ∨ found = .folder) :
    (j.run found address refusal).Reported := by
  rcases j.content_of_absent h with ⟨fault, hKind, hContent⟩
  unfold run load
  rw [hContent]
  exact reported_failed (.file hKind)

/-
  A text that cannot be extracted is reported by the extraction
  and by the job.
-/
theorem reported_of_fault
    {text : String}
    {fault : Fault}
    (h : (j.reading address text).extraction.fault? = some fault) :
    (j.run (.text text) address refusal).Reported := by
  rcases Gathering.run_of_fault h with
    ⟨remarks, count, hRemarks, hRun⟩
  have hErrors :
      errors (remarks ++
          [Handover.abandonLine count fault.toIssue.text]) =
        [Handover.abandonLine count fault.toIssue.text] := by
    rw [errors_append, errors_of_remarks hRemarks]
    rfl
  unfold reading at hRun
  unfold run load
  rw [content_text]
  dsimp only
  rw [hRun]
  apply reported_failed
  rw [hErrors]
  exact .document count _

/- A text that can be extracted is loaded without an error. -/
theorem exists_load
    {text : String}
    (h : (j.reading address text).extraction.fault? = none) :
    ∃ lines,
      errors lines = [] ∧
        j.load (.text text) address =
          (.ok (j.graph address text), lines) := by
  rcases Gathering.run_of_completed h with ⟨remarks, hRemarks, hRun⟩
  unfold reading at hRun
  unfold load
  rw [content_text]
  dsimp only
  rw [hRun]
  refine ⟨_, ?_, rfl⟩
  rw [errors_append, errors_of_remarks hRemarks]
  rfl

theorem completed_of_text
    {text : String}
    (h : (j.reading address text).extraction.fault? = none)
    (hOutput : j.output ≠ none → refusal = none) :
    (j.run (.text text) address refusal).Completed j
      (j.graph address text) := by
  rcases j.exists_load address h with ⟨lines, hLines, hLoad⟩
  unfold run
  rw [hLoad]
  dsimp only
  cases hPlace : j.output with
  | none =>
      dsimp only
      unfold print graph
      rw [Graph.document_gathered]
      refine ⟨rfl, ?_, hLines⟩
      unfold writing
      rw [hPlace]
  | some path =>
      rw [hOutput (by simp [hPlace])]
      dsimp only
      unfold save graph
      dsimp only
      rw [Graph.document_gathered]
      refine ⟨rfl, ?_, ?_⟩
      · unfold writing
        rw [hPlace]
      · rw [errors_append, hLines]
        rfl

/- An output that is refused is reported. -/
theorem reported_of_refusal
    {text : String}
    {fault : Fault}
    (h : (j.reading address text).extraction.fault? = none)
    (hOutput : j.output ≠ none)
    (hKind : fault.kind = .system) :
    (j.run (.text text) address (some fault)).Reported := by
  rcases j.exists_load address h with ⟨lines, hLines, hLoad⟩
  rcases Option.ne_none_iff_exists'.mp hOutput with ⟨path, hPlace⟩
  unfold run
  rw [hLoad, hPlace]
  apply reported_failed
  rw [hLines]
  exact .file hKind

/- Unless its source is no text, a job fails in order or is ready. -/
theorem reported_or_ready
    {found : Found}
    (hFound : ¬ found.Undecodable)
    (hRefusal :
      ∀ fault, refusal = some fault → fault.kind = .system) :
    (j.run found address refusal).Reported ∨
      ∃ text,
        found = .text text ∧
          (j.reading address text).extraction.fault? = none ∧
          (j.output ≠ none → refusal = none) := by
  rcases found.cases with hAbsent | hBytes | ⟨text, rfl⟩
  · exact .inl (j.reported_of_absent address refusal hAbsent)
  · exact absurd hBytes hFound
  · cases hFault : (j.reading address text).extraction.fault? with
    | some fault =>
        exact .inl (j.reported_of_fault address refusal hFault)
    | none =>
        by_cases hFree : j.output ≠ none → refusal = none
        · exact .inr ⟨text, rfl, hFault, hFree⟩
        · rcases Classical.not_imp.mp hFree with ⟨hOutput, hRefused⟩
          rcases Option.ne_none_iff_exists'.mp hRefused with
            ⟨fault, rfl⟩
          exact .inl (j.reported_of_refusal address hFault hOutput
            (hRefusal fault rfl))

/- It writes its graph or reports a fault. -/
theorem completed_or_reported
    {found : Found}
    (hFound : ¬ found.Undecodable)
    (hRefusal :
      ∀ fault, refusal = some fault → fault.kind = .system) :
    (∃ g, (j.run found address refusal).Completed j g) ∨
      (j.run found address refusal).Reported := by
  rcases j.reported_or_ready address refusal hFound hRefusal with
    hReported | ⟨text, rfl, hFault, hFree⟩
  · exact .inr hReported
  · exact .inl ⟨_, j.completed_of_text address refusal hFault hFree⟩

end Runs

/-
  Whatever its source, its base and its output, a job writes
  the graph of its source or announces a fault and exits with
  1, unless the source is a file whose bytes are no text: that
  fault leaves the job, which reports nothing. A graph is
  written exactly if the text can be extracted to its end and
  no output refuses it. It is assumed that an output is only
  refused by a fault of files.
-/
theorem ends_in_order_unless_undecodable
    (j : Job)
    (found : Found)
    (address : String)
    (refusal : Option Fault)
    (hRefusal :
      ∀ fault, refusal = some fault → fault.kind = .system) :
    (found.Undecodable →
        j.run found address refusal =
          ⟨.fault .undecodable, none, none, []⟩) ∧
      (¬ found.Undecodable →
        (∃ g, (j.run found address refusal).Completed j g) ∨
          (j.run found address refusal).Reported) ∧
      ∀ g,
        (j.run found address refusal).Completed j g ↔
          ∃ text,
            found = .text text ∧
              (j.reading address text).extraction.fault? = none ∧
              (j.output ≠ none → refusal = none) ∧
              g = j.graph address text := by
  refine ⟨j.run_of_undecodable address refusal, ?_, ?_⟩
  · exact fun hFound =>
      j.completed_or_reported address refusal hFound hRefusal
  · intro g
    constructor
    · intro hCompleted
      have hFound : ¬ found.Undecodable := by
        intro hBytes
        have hEnding := hCompleted.ending
        rw [j.run_of_undecodable address refusal hBytes] at hEnding
        cases hEnding
      rcases j.reported_or_ready address refusal hFound hRefusal with
        hReported | ⟨text, rfl, hFault, hFree⟩
      · exact absurd hCompleted (hReported.not_completed j g)
      · exact ⟨text, rfl, hFault, hFree,
          hCompleted.unique
            (j.completed_of_text address refusal hFault hFree)⟩
    · rintro ⟨text, rfl, hFault, hFree, rfl⟩
      exact j.completed_of_text address refusal hFault hFree

/- A job for a page, which may be saved. -/
def ofPage
    (output : Option Path) : Job :=
  ⟨.ofString "page.html", none, none, .members, output, false⟩

/- A page is printed. In a folder that is not there it is not saved. -/
theorem page_printed_but_not_saved :
    let page := Found.text "<p about='#a' property='foaf:name'>x"
    let place := Path.ofString "gone/page.ttl"
    (∃ g,
        ((ofPage none).run page "http://a/" none).Completed
            (ofPage none) g ∧
          g.size = 1) ∧
      ((ofPage (some place)).run page "http://a/"
        (some place.missing)).Reported := by
  intro page place
  have hKind : place.missing.kind = .system := rfl
  have hPrinted :=
    ends_in_order_unless_undecodable (ofPage none) page "http://a/"
      none (by simp)
  have hRefused :=
    ends_in_order_unless_undecodable (ofPage (some place)) page
      "http://a/" (some place.missing) (by simp [hKind])
  constructor
  · refine ⟨_, (hPrinted.2.2 _).mpr
      ⟨_, rfl, by decide +kernel, by simp [ofPage], rfl⟩, ?_⟩
    decide +kernel
  · rcases hRefused.2.1 (Found.not_undecodable_text _) with
      ⟨g, hCompleted⟩ | hReported
    · rcases (hRefused.2.2 g).mp hCompleted with ⟨_, _, _, hFree, _⟩
      cases hFree (by simp [ofPage])
    · exact hReported

/- A job writes what it should, or announces a fault and exits. -/
def EndsInOrder : Prop :=
  ∀ (j : Job) (found : Found) (address : String)
    (refusal : Option Fault),
    (∀ fault, refusal = some fault → fault.kind = .system) →
      (∃ g, (j.run found address refusal).Completed j g) ∨
        (j.run found address refusal).Reported

/- The bytes 255 and 254 are part of no text. -/
theorem not_endsInOrder :
    ¬ EndsInOrder := by
  intro h
  have hFault :
      ((ofPage none).run (.file [60, 112, 62, 255, 254]) "http://a/"
        none).ending = .fault .undecodable := by
    decide +kernel
  rcases h (ofPage none) (.file [60, 112, 62, 255, 254]) "http://a/"
      none (by simp) with
    ⟨g, hCompleted⟩ | hReported
  · rw [hCompleted.ending] at hFault
    cases hFault
  · rw [hReported.ending] at hFault
    cases hFault

end Job
end LinkedMarkup
