import LinkedMarkup.Annotation.Extraction
import LinkedMarkup.Delivery.Signal
import LinkedMarkup.Number.Datum
import LinkedMarkup.Statement.Record

/-
  This file defines how the quads of a document are handed to
  a host, as records, while the document is processed. Quads
  wait in a queue that is emptied at once. The host may fail
  on any record, which is only reported, and may ask between
  events for the run to be stopped. A run always has a result.

  Key definitions include:
    * `Host`
    * `Request`
    * `Handover.Desk`
    * `Handover.deliver`
    * `Handover.drain`
    * `Handover.schedule`
    * `Handover.runSections`
    * `Handover.Result`
    * `Handover.run`
-/

namespace LinkedMarkup

------------------------------------------------------------
-- Hosts and requests
------------------------------------------------------------

/-
  The far side, with a state of its own. It receives records,
  may use its signal, and may fail; between events it may
  interrupt the run for a cause besides the signal.
-/
structure Host (σ : Type) where
  receive : List Record → Signal → σ → Option Fault × Signal × σ
  interrupt : σ → Option Fault × σ

/- What a host passes in, of any type. -/
structure Request where
  markup : Datum
  base : Datum
  media : Datum
  options : Options

namespace Request

/- The media type that a request gives. -/
def mediaType
    (media : Datum) : Except Fault MediaType :=
  match media with
  | .absent => MediaType.ofHeader none
  | .text value => MediaType.ofHeader (some value)
  | other => .error (.missingMember other.typeName "strip")

/- The extraction that a request asks for. -/
def extraction
    (r : Request) : Extraction :=
  match r.markup, r.base with
  | .text markup, .text base =>
      match mediaType r.media with
      | .ok media => Extraction.run ⟨media, r.options⟩ base markup
      | .error fault => Extraction.failed [] fault
  | .text _, other =>
      Extraction.failed [] (.baseType other.typeName)
  | other, _ =>
      Extraction.failed [] (.markupType other.typeName)

end Request

namespace Handover

------------------------------------------------------------
-- Delivery
------------------------------------------------------------

/-
  The state of a run: how many quads have been delivered, the
  signal, the state of the host, the lines reported, the quads
  that wait, and whether those are being delivered.
-/
structure Desk (σ : Type) where
  count : Nat
  signal : Signal
  far : σ
  lines : Array LogLine
  waiting : List Quad
  draining : Bool

variable {σ : Type}

namespace Desk

/- The state before anything is delivered. -/
def start
    (signal : Signal)
    (far : σ) : Desk σ :=
  ⟨0, signal, far, #[], [], false⟩

/- Report a line. -/
def report
    (line : LogLine)
    (d : Desk σ) : Desk σ :=
  { d with lines := d.lines.push line }

end Desk

/- The line about a host that failed on a record. -/
def failureLine
    (fault : Fault) : LogLine :=
  ⟨.warning, "Quad consumer failed: " ++ fault.toIssue.text⟩

/- Deliver a quad. A host that fails is only reported. -/
def deliver
    (host : Host σ)
    (d : Desk σ)
    (q : Quad) : Desk σ :=
  let (fault?, signal, far) := host.receive q.records d.signal d.far
  let delivered : Desk σ :=
    { d with count := d.count + 1, signal := signal, far := far }
  match fault? with
  | some fault => delivered.report (failureLine fault)
  | none => delivered

/- Deliver quads that wait, in order. That schedules no others. -/
def deliverAll
    (host : Host σ) :
    List Quad → Desk σ → Desk σ
  | [], d => d
  | q :: rest, d =>
      deliverAll host rest (deliver host { d with waiting := rest } q)

/- Deliver the quads that wait, unless that is being done. -/
def drain
    (host : Host σ)
    (d : Desk σ) : Desk σ :=
  if d.draining then
    d
  else
    { deliverAll host d.waiting { d with draining := true } with
      draining := false }

/- Schedule the delivery of a quad, behind those that wait. -/
def schedule
    (host : Host σ)
    (d : Desk σ)
    (q : Quad) : Desk σ :=
  drain host { d with waiting := d.waiting ++ [q] }

/-
  Pass on a note: a quad to the host, a line to the report.
  What was put in a list comes later, as a quad.
-/
def passOn
    (host : Host σ)
    (d : Desk σ)
    (note : Note) : Desk σ :=
  match note with
  | .quad q => schedule host d q
  | .line line => d.report line
  | .filed _ => d

/- Pass on several notes, in order. -/
def passOnAll
    (host : Host σ)
    (notes : List Note)
    (d : Desk σ) : Desk σ :=
  notes.foldl (passOn host) d

/- Ask whether the run may go on: the signal, then the host. -/
def permit
    (host : Host σ)
    (d : Desk σ) : Option Fault × Desk σ :=
  match d.signal.check with
  | some fault => (some fault, d)
  | none =>
      let (fault?, far) := host.interrupt d.far
      (fault?, { d with far := far })

/-
  Pass on the notes of each event, asking before each event
  whether to go on; the fault that stops the run, if any.
-/
def runSections
    (host : Host σ) :
    List (List Note) → Desk σ → Option Fault × Desk σ
  | [], d => (none, d)
  | notes :: rest, d =>
      match permit host d with
      | (some fault, stopped) => (some fault, stopped)
      | (none, going) => runSections host rest (passOnAll host notes going)

/- Pass on a whole extraction; the fault that ends it, if any. -/
def runExtraction
    (host : Host σ)
    (e : Extraction)
    (d : Desk σ) : Option Fault × Desk σ :=
  match runSections host e.sections (passOnAll host e.opening d) with
  | (some fault, stopped) => (some fault, stopped)
  | (none, ended) => (e.fault?, ended)

------------------------------------------------------------
-- Results
------------------------------------------------------------

/- The result of a run. -/
inductive Result where
  | success
  | failure (reason : String)
  deriving DecidableEq, Repr

/- The line about the number of quads delivered. -/
def countLine
    (count : Nat) : LogLine :=
  ⟨.debug, "Delivered " ++ toString count ++ " quads"⟩

/- The line about a run that failed after some quads. -/
def abandonLine
    (count : Nat)
    (reason : String) : LogLine :=
  ⟨.error, "RDFa parse failed after " ++ toString count ++
    " quads: " ++ reason⟩

/- The result of a run that ended with a fault or without. -/
def conclude
    (fault? : Option Fault)
    (d : Desk σ) : Result × Desk σ :=
  match fault? with
  | none => (.success, d.report (countLine d.count))
  | some fault =>
      let reason := fault.toIssue.text
      if fault.isAdvisory then
        (.success, d.report ⟨.debug, "Ignored: " ++ reason⟩)
      else
        (.failure reason, d.report (abandonLine d.count reason))

/- Hand the quads of a request over to a host. -/
def run
    (host : Host σ)
    (signal : Signal)
    (far : σ)
    (r : Request) : Result × Desk σ :=
  let (fault?, d) := runExtraction host r.extraction (.start signal far)
  conclude fault? d

end Handover
end LinkedMarkup
