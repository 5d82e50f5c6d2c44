import LinkedMarkup.Command.Path
import LinkedMarkup.Delivery.Gathering
import LinkedMarkup.Store.Document

/-
  This file defines the job of the command: read a source,
  gather its statements, and print or save them as a document.

  Key definitions include:
    * `Job`
    * `Job.Ending`
    * `Job.Outcome`
    * `Job.content`
    * `Job.load`
    * `Job.run`
    * `Job.runIn`
-/

namespace LinkedMarkup

/- What is to be done with which files. -/
structure Job where
  source : Path
  base : Option String
  media : Option MediaType
  listStyle : ListStyle
  output : Option Path
  debug : Bool
  deriving DecidableEq, Repr

namespace Job

/- How a job ends: with an exit code, or a fault nobody handles. -/
inductive Ending where
  | exit (code : Nat)
  | fault (cause : Fault)
  deriving DecidableEq, Repr

/-
  What a job leaves behind: how it ended, the document that
  was printed, the one that was saved, and the lines reported.
-/
structure Outcome where
  ending : Ending
  printed : Option Graph.Document
  saved : Option (Path × Graph.Document)
  lines : List LogLine

------------------------------------------------------------
-- Reading the source
------------------------------------------------------------

/- A text with every end of a line written as a line feed. -/
def unifyLines :
    List Char → List Char
  | [] => []
  | '\r' :: '\n' :: rest => '\n' :: unifyLines rest
  | c :: rest => (if c == '\r' then '\n' else c) :: unifyLines rest

/- The text of the source. -/
def content
    (j : Job)
    (found : Found) : Except Fault String :=
  match found with
  | .missing => .error (.missingSource j.source.text)
  | .folder => .error j.source.isFolder
  | .file bytes =>
      match Utf8.strict? bytes with
      | some text => .ok (String.ofList (unifyLines text.toList))
      | none => .error .undecodable

/- What is asked for about the text of the source. -/
def request
    (j : Job)
    (address content : String) : Request :=
  ⟨.text content,
    .text ((j.base.filter (fun b => !b.isEmpty)).getD address),
    .text (j.media.getD (MediaType.ofPath j.source.text)).name,
    { Options.standard with listStyle := j.listStyle }⟩

/- The graph of the source, and the lines reported. -/
def load
    (j : Job)
    (found : Found)
    (address : String) : Except Fault Graph × List LogLine :=
  match j.content found with
  | .error fault => (.error fault, [])
  | .ok text =>
      let (graph, lines) := Gathering.run (j.request address text)
      match graph with
      | .error fault => (.error fault, lines)
      | .ok graph =>
          (.ok graph, lines ++
            [⟨.info, "Loaded " ++ toString graph.size ++
              " statements from " ++
              LogLine.highlighted j.source.text⟩])

------------------------------------------------------------
-- Outcomes
------------------------------------------------------------

/-
  The outcome of a fault: faults of files and of documents
  are reported, all others are left to whoever runs the job.
-/
def failed
    (lines : List LogLine)
    (fault : Fault) : Outcome :=
  match fault.kind with
  | .system =>
      ⟨.exit 1, none, none, lines ++ [⟨.error, fault.text⟩]⟩
  | .extraction =>
      ⟨.exit 1, none, none, lines ++ [⟨.error, fault.text⟩]⟩
  | _ => ⟨.fault fault, none, none, lines⟩

/- Print a graph. -/
def print
    (graph : Graph)
    (lines : List LogLine) : Outcome :=
  match graph.document .turtle with
  | .ok d => ⟨.exit 0, some d, none, lines⟩
  | .error fault => failed lines fault

/- Save a graph at a path that may refuse it. -/
def save
    (graph : Graph)
    (path : Path)
    (refusal : Option Fault)
    (lines : List LogLine) : Outcome :=
  match refusal with
  | some fault => failed lines fault
  | none =>
      match graph.document (.ofSuffix path.suffix) with
      | .ok d =>
          ⟨.exit 0, none, some (path, d),
            lines ++
              [⟨.info, "Saved " ++ LogLine.highlighted path.text⟩]⟩
      | .error fault => failed lines fault

/-
  Run a job, given what its source leads to, the address of
  that, and why its output cannot be written, if it cannot.
-/
def run
    (j : Job)
    (found : Found)
    (address : String)
    (refusal : Option Fault) : Outcome :=
  match j.load found address with
  | (.error fault, lines) => failed lines fault
  | (.ok graph, lines) =>
      match j.output with
      | none => print graph lines
      | some path => save graph path refusal lines

/- Run a job in a folder. -/
def runIn
    (j : Job)
    (f : Folder) : Outcome :=
  j.run (f.find j.source) (f.address j.source)
    (j.output.bind f.refusal?)

end Job
end LinkedMarkup
