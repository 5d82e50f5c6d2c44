import LinkedMarkup.Delivery.Gathering
import LinkedMarkup.Proofs.Delivery.Course
import LinkedMarkup.Proofs.Standards.Validity

/-
  This file proves that the graph of a document holds exactly
  the statements that are extracted, in canonical form. The
  records of a term are turned back into that term; only the
  text of a literal that lacks its language becomes a plain
  one. So no statement is passed over, and none is added.

  Key definitions include:
    * `Literal.received`
    * `Quad.received`
    * `Intake.ofRecords`

  Main declarations:
    * `Intake.ofRecords_records`
    * `Graph.mem_gathered`
    * `Handover.runExtraction_intake`
    * `Handover.run_intake`
    * `Gathering.graph_holds_statements`
-/

namespace LinkedMarkup

------------------------------------------------------------
-- Received terms
------------------------------------------------------------

/-
  A literal as it is received. A literal with a language has
  that datatype; without one it is as good as plain.
-/
def Literal.received :
    Literal → Literal
  | .tagged value language => .tagged value language
  | .typed value datatype =>
      if datatype = Rdf.langString then
        .plain value
      else
        .typed value datatype

def Object.received :
    Object → Object
  | .literal l => .literal l.received
  | o => o

def Quad.received
    (q : Quad) : Quad :=
  { q with object := q.object.received }

namespace Intake

/- The statement that records stand for, if they name one. -/
def ofRecords
    (records : List Record) : Except Fault (Option Quad) :=
  quad ((records[0]?).map Record.fields)
    ((records[1]?).map Record.fields)
    ((records[2]?).map Record.fields)

theorem made_eq_ok
    {α : Type}
    {read : String → Option α}
    {text : String}
    {value : α}
    (h : read text = some value) :
    made read (.text text) = .ok value := by
  unfold made Intake.text
  simp only [bind, Except.bind, h]

/- The record of a node is received as that node. -/
theorem resource_record
    {s : Subject}
    (h : s.Valid) :
    resource (some s.toTerm.record.fields) = .ok (some s) := by
  cases s with
  | iri i =>
      have hMade : made Iri.parse? (.text i.text) = .ok i :=
        made_eq_ok h
      change
        (do
          let i ← made Iri.parse? (.text i.text)
          return some (Subject.iri i) : Except Fault _) = _
      rw [hMade]
      rfl
  | blank b =>
      have hMade : made BlankNode.parse? (.text b.label) = .ok b :=
        made_eq_ok h
      change
        (do
          let b ← made BlankNode.parse? (.text b.label)
          return some (Subject.blank b) : Except Fault _) = _
      rw [hMade]
      rfl

theorem predicate_record
    {i : Iri}
    (h : i.Valid) :
    predicate (some (Term.iri i).record.fields) = .ok (some i) := by
  have hMade : made Iri.parse? (.text i.text) = .ok i :=
    made_eq_ok h
  change
    (do
      let i ← made Iri.parse? (.text i.text)
      return some i : Except Fault _) = _
  rw [hMade]
  rfl

/- No valid IRI is empty. -/
theorem isEmpty_text
    {i : Iri}
    (h : i.Valid) :
    i.text.isEmpty = false := by
  cases hEmpty : i.text.isEmpty with
  | false => rfl
  | true =>
      have hText : i.text = "" := by simpa using hEmpty
      unfold Iri.Valid at h
      rw [hText] at h
      cases h

/- The record of a literal is received as a literal. -/
theorem literal_record
    {l : Literal}
    (h : l.Valid) :
    literal (Term.literal l).record.fields = .ok l.received := by
  cases l with
  | tagged value language =>
      rcases h with ⟨hGiven, hTagged⟩
      have hLanguage : (Datum.text language).isGiven = true := by
        simpa [Datum.isGiven] using hGiven
      have hField :
          (Term.literal (.tagged value language)).record.fields.get
            "language" = .text language :=
        rfl
      have hNeed :
          (Term.literal (.tagged value language)).record.fields.need
            "value" = .ok (.text value) :=
        rfl
      unfold literal
      rw [hField, hNeed]
      simp only [bind, Except.bind, hLanguage, if_true, Intake.text,
        hTagged]
      rfl
  | typed value datatype =>
      have hValid : datatype.Valid := h
      change
        (if datatype.text.isEmpty ||
            datatype.text == Rdf.langString.text then
          .ok (Literal.plain value)
        else do
          let iri ← made Iri.parse? (.text datatype.text)
          return Literal.typed value iri : Except Fault Literal) = _
      rw [isEmpty_text hValid, Bool.false_or, made_eq_ok hValid]
      by_cases hBare : datatype = Rdf.langString
      · rw [hBare, if_pos (beq_self_eq_true _)]
        rfl
      · have hText : ¬ (datatype.text == Rdf.langString.text) = true := by
          intro hEq
          apply hBare
          cases datatype
          exact congrArg Iri.mk (eq_of_beq hEq)
        rw [if_neg hText, Literal.received, if_neg hBare]
        rfl

theorem object_record
    {o : Object}
    (h : o.Valid) :
    object (some o.toTerm.record.fields) = .ok (some o.received) := by
  cases o with
  | iri i =>
      have hNode := resource_record (s := .iri i) h
      change
        (resource (some (Subject.iri i).toTerm.record.fields)).map _ = _
      rw [hNode]
      rfl
  | blank b =>
      have hNode := resource_record (s := .blank b) h
      change
        (resource (some (Subject.blank b).toTerm.record.fields)).map _ =
          _
      rw [hNode]
      rfl
  | literal l =>
      change
        (do
          return some (Object.literal
            (← literal (Term.literal l).record.fields)) :
          Except Fault _) = _
      rw [literal_record h]
      rfl

/- The records of a valid quad are received as that quad. -/
theorem ofRecords_records
    {q : Quad}
    (h : q.Valid) :
    ofRecords q.records = .ok (some q.received) := by
  have hTriple :
      Quad.triple q.subject q.predicate q.object.received =
        q.received := by
    rcases q with ⟨s, p, o, g⟩
    have hGraph : g = .default := h.graph
    rw [hGraph]
    rfl
  change
    quad (some q.subject.toTerm.record.fields)
      (some (Term.iri q.predicate).record.fields)
      (some q.object.toTerm.record.fields) = _
  unfold quad
  rw [resource_record h.subject, predicate_record h.predicate,
    object_record h.object]
  exact congrArg (fun q => Except.ok (some q)) hTriple

/- The host takes in a valid quad, and reports nothing. -/
theorem receive_records
    {q : Quad}
    (h : q.Valid)
    (signal : Signal)
    (g : Graph) :
    host.receive q.records signal g =
      (none, signal, g.add q.received) := by
  have hQuad := ofRecords_records h
  unfold ofRecords at hQuad
  unfold host receive
  dsimp only
  rw [hQuad]

end Intake

------------------------------------------------------------
-- Gathered statements
------------------------------------------------------------

namespace Graph

/- A graph after quads are received, in order. -/
def gathered
    (g : Graph)
    (quads : List Quad) : Graph :=
  quads.foldl (fun g q => g.add q.received) g

theorem gathered_append
    (g : Graph)
    (first second : List Quad) :
    g.gathered (first ++ second) =
      (g.gathered first).gathered second :=
  List.foldl_append ..

theorem mem_add
    (g : Graph)
    (q t : Quad) :
    t ∈ (g.add q).quads ↔ t ∈ g.quads ∨ t = q.canonical := by
  unfold add
  split
  · rename_i hOld
    constructor
    · exact .inl
    · rintro (hMem | rfl)
      · exact hMem
      · exact hOld
  · rw [List.mem_cons]
    exact or_comm

/- A graph holds what it held, and all that was received. -/
theorem mem_gathered
    (g : Graph)
    (quads : List Quad)
    (t : Quad) :
    t ∈ (g.gathered quads).quads ↔
      t ∈ g.quads ∨ ∃ q ∈ quads, t = q.received.canonical := by
  unfold gathered
  induction quads generalizing g with
  | nil => simp
  | cons q rest ih =>
      rw [List.foldl_cons, ih, mem_add, or_assoc]
      simp

end Graph

namespace Handover

/-
  What a graph takes in of notes: their quads. Their lines are
  reported, and no others.
-/
theorem passOnAll_intake
    {d : Desk Graph}
    (hIdle : d.Idle)
    {notes : List Note}
    (hValid : ∀ q ∈ Note.quads notes, q.Valid) :
    (passOnAll Intake.host notes d).far =
        d.far.gathered (Note.quads notes) ∧
      (passOnAll Intake.host notes d).signal = d.signal ∧
        (passOnAll Intake.host notes d).lines.toList =
          d.lines.toList ++ Note.lines notes := by
  unfold passOnAll
  induction notes generalizing d with
  | nil => exact ⟨rfl, rfl, (List.append_nil _).symm⟩
  | cons note rest ih =>
      have hRest : ∀ q ∈ Note.quads rest, q.Valid := by
        intro q hMem
        apply hValid
        rw [← List.singleton_append, Note.quads_append]
        exact List.mem_append_right _ hMem
      rcases ih (idle_passOn hIdle note) hRest with
        ⟨hFar, hSignal, hLines⟩
      rw [List.foldl_cons, hFar, hSignal, hLines]
      cases note with
      | quad q =>
          have hHere : q.Valid := hValid q List.mem_cons_self
          have hPassed :
              passOn Intake.host d (.quad q) =
                deliver Intake.host d q :=
            schedule_eq hIdle q
          rw [hPassed, deliver_eq, Intake.receive_records hHere]
          exact ⟨rfl, rfl, rfl⟩
      | line l =>
          refine ⟨rfl, rfl, ?_⟩
          change (d.lines.push l).toList ++ Note.lines rest = _
          rw [Array.toList_push, List.append_assoc]
          rfl
      | filed x => exact ⟨rfl, rfl, rfl⟩

/- Nothing stops a run whose host is a graph. -/
theorem runSections_intake
    {d : Desk Graph}
    (hIdle : d.Idle)
    (hSignal : d.signal.check = none)
    {sections : List (List Note)}
    (hValid : ∀ q ∈ Note.quads sections.flatten, q.Valid) :
    (runSections Intake.host sections d).1 = none ∧
      (runSections Intake.host sections d).2.far =
          d.far.gathered (Note.quads sections.flatten) ∧
        (runSections Intake.host sections d).2.lines.toList =
          d.lines.toList ++ Note.lines sections.flatten := by
  induction sections generalizing d with
  | nil => exact ⟨rfl, rfl, (List.append_nil _).symm⟩
  | cons notes rest ih =>
      rw [List.flatten_cons, Note.quads_append] at hValid ⊢
      have hHere : ∀ q ∈ Note.quads notes, q.Valid :=
        fun q hMem => hValid q (List.mem_append_left _ hMem)
      have hRest : ∀ q ∈ Note.quads rest.flatten, q.Valid :=
        fun q hMem => hValid q (List.mem_append_right _ hMem)
      rcases passOnAll_intake hIdle hHere with ⟨hFar, hSame, hOwn⟩
      have hNext :
          runSections Intake.host (notes :: rest) d =
            runSections Intake.host rest
              (passOnAll Intake.host notes d) := by
        rw [runSections, permit_of_check_eq_none hSignal]
        rfl
      rcases ih (idle_passOnAll hIdle notes)
          (by rw [hSame]; exact hSignal) hRest with
        ⟨hStop, hLast, hMore⟩
      rw [hNext, hLast, hFar, Graph.gathered_append, hMore, hOwn,
        Note.lines_append, List.append_assoc]
      exact ⟨hStop, rfl, rfl⟩

end Handover

namespace Request

/- Before the first event no quad is stated. -/
theorem quads_opening
    (r : Request) :
    Note.quads r.extraction.opening = [] := by
  have hNone := Handover.records_opening r
  unfold Note.records at hNone
  exact List.map_eq_nil_iff.mp hNone

theorem quads_eq_sections
    (r : Request) :
    r.extraction.quads = Note.quads r.extraction.sections.flatten := by
  unfold Extraction.quads Extraction.notes
  rw [Note.quads_append, quads_opening, List.nil_append]

/- Whatever a request's document states is valid. -/
theorem valid_of_mem_quads
    (r : Request)
    {q : Quad}
    (h : q ∈ Note.quads r.extraction.sections.flatten) :
    q.Valid := by
  rcases r.reads_or_failed with
    ⟨opening, first, trace, hReads⟩ | ⟨opening, fault, hFailed⟩
  · rw [hReads.extraction_eq, Handover.ofTrace_eq] at h
    cases hReads with
    | intro _ _ _ _ _ hStart =>
        unfold Note.quads at h
        rcases List.mem_filterMap.mp h with ⟨note, hMem, hNote⟩
        rcases List.mem_flatten.mp hMem with ⟨notes, hSection, hIn⟩
        exact Extraction.valid_of_mem_evaluate hStart hSection
          (List.mem_filterMap.mpr ⟨note, hIn, hNote⟩)
  · rw [hFailed] at h
    cases h

end Request

namespace Handover

/-
  The whole extraction of a request is passed on to a graph:
  it ends with its own fault, if it has one, and the graph
  holds its quads. Its lines are reported.
-/
theorem runExtraction_intake
    (r : Request) :
    ∃ d,
      runExtraction Intake.host r.extraction
            (.start .start .standard) =
          (r.extraction.fault?, d) ∧
        d.far = Graph.standard.gathered r.extraction.quads ∧
          d.lines.toList = Note.lines r.extraction.notes := by
  let first : Desk Graph := .start .start .standard
  have hIdle : first.Idle := idle_start _ _
  have hEmpty : ∀ q ∈ Note.quads r.extraction.opening, q.Valid := by
    simp [r.quads_opening]
  have hOpening := passOnAll_intake hIdle hEmpty
  have hSections :=
    runSections_intake (idle_passOnAll hIdle r.extraction.opening)
      (by rw [hOpening.2.1]; rfl) (fun q => r.valid_of_mem_quads)
  have hFar :
      (passOnAll Intake.host r.extraction.opening first).far =
        Graph.standard := by
    rw [hOpening.1, r.quads_opening]
    rfl
  rw [hFar, ← r.quads_eq_sections] at hSections
  refine ⟨_, ?_, hSections.2.1, ?_⟩
  · rw [runExtraction_eq]
    change
      (Option.or (runSections _ _ (passOnAll _ _ first)).1 _, _) = _
    rw [hSections.1, Option.none_or]
  · rw [hSections.2.2, hOpening.2.2, List.append_assoc,
      ← Note.lines_append]
    rfl

/- A graph that a document is handed over to holds its quads. -/
theorem run_intake
    (r : Request) :
    (run Intake.host .start .standard r).1 =
        verdict r.extraction.fault? ∧
      (run Intake.host .start .standard r).2.far =
        Graph.standard.gathered r.extraction.quads := by
  rcases runExtraction_intake r with ⟨d, hRun, hFar, _⟩
  constructor
  · rw [run_fst, hRun]
  · unfold run
    rw [conclude_far, hRun]
    exact hFar

end Handover

namespace Gathering

/-
  The graph of a request that succeeds holds exactly what its
  document states, as received and in canonical form: each
  quad is received from its records, none is passed over and
  nothing else is added. Otherwise there is no graph.
-/
theorem graph_holds_statements
    (r : Request) :
    (∀ q ∈ r.extraction.quads,
        Intake.ofRecords q.records = .ok (some q.received)) ∧
      ((Handover.run Intake.host .start .standard r).1 = .success ∧
          r.extraction.fault? = none ∧
          (∃ g,
            (run r).1 = .ok g ∧
              ∀ t,
                t ∈ g.quads ↔
                  ∃ q ∈ r.extraction.quads,
                    t = q.received.canonical) ∨
        ∃ reason,
          (Handover.run Intake.host .start .standard r).1 =
              .failure reason ∧
            r.extraction.fault? ≠ none ∧
            (run r).1 = .error (.extractionFailed reason)) := by
  rcases Handover.run_intake r with ⟨hResult, hFar⟩
  constructor
  · intro q hMem
    rw [r.quads_eq_sections] at hMem
    exact Intake.ofRecords_records (r.valid_of_mem_quads hMem)
  · cases hFault : r.extraction.fault? with
    | none =>
        left
        rw [hFault] at hResult
        have hSuccess :
            (Handover.run Intake.host .start .standard r).1 =
              .success := hResult
        refine ⟨hSuccess, rfl,
          Graph.standard.gathered r.extraction.quads, ?_, ?_⟩
        · unfold run
          dsimp only
          rw [hSuccess]
          exact congrArg Except.ok hFar
        · intro t
          rw [Graph.mem_gathered]
          exact or_iff_right (by simp [Graph.standard, Graph.empty])
    | some fault =>
        right
        have hSerious :=
          (Request.reported_of_extraction hFault).serious
        have hFailure :
            (Handover.run Intake.host .start .standard r).1 =
              .failure fault.toIssue.text := by
          rw [hResult, hFault]
          simp [Handover.verdict, hSerious]
        refine ⟨fault.toIssue.text, hFailure, by simp, ?_⟩
        unfold run
        dsimp only
        rw [hFailure]

end Gathering
end LinkedMarkup
