import LinkedMarkup.Annotation.Evaluation
import LinkedMarkup.Markup.Document

/-
  This file defines the extraction of a whole document: what
  is noted before its first event, what is noted for each
  event that is processed, and the fault that ends it early,
  if there is one.

  Key definitions include:
    * `Extraction`
    * `Extraction.evaluate`
    * `Extraction.ofTrace`
    * `Extraction.ofBase`
    * `Extraction.documentBase`
    * `Extraction.run`
    * `Extraction.quads`
-/

namespace LinkedMarkup

/-
  What extraction gives: notes before the first event, notes
  for each event in order, and what ended it early. The notes
  of an event at fault are kept.
-/
structure Extraction where
  opening : List Note
  sections : List (List Note)
  fault? : Option Fault
  deriving DecidableEq, Repr

namespace Extraction

/- An extraction that fails before its first event. -/
def failed
    (opening : List Note)
    (fault : Fault) : Extraction :=
  ⟨opening, [], some fault⟩

/-
  Process events in order: the notes for each, and the state
  at the end or the fault that came first.
-/
def evaluate
    (state : Evaluation.State) :
    List Event → List (List Note) × Except Fault Evaluation.State
  | [] => ([], .ok state)
  | event :: rest =>
      match Evaluation.process state event with
      | (.error fault, notes) => ([notes], .error fault)
      | (.ok next, notes) =>
          let more := evaluate next rest
          (notes :: more.1, more.2)

/- The fault of a document that ends in a state, if any. -/
def endingFault?
    (state : Evaluation.State) : Option Fault :=
  match Evaluation.finish state with
  | .ok _ => none
  | .error fault => some fault

/- The extraction of a walk, after what was noted before it. -/
def ofTrace
    (opening : List Note)
    (state : Evaluation.State)
    (trace : Walk.Trace) : Extraction :=
  match evaluate state trace.events with
  | (sections, .error fault) => ⟨opening, sections, some fault⟩
  | (sections, .ok final) =>
      ⟨opening, sections, trace.fault?.or (endingFault? final)⟩

/-
  The extraction of a walk read against a base, after what
  was noted before it.
-/
def ofBase
    (settings : Settings)
    (base : String)
    (opening : List Note)
    (trace : Walk.Trace) : Extraction :=
  match Evaluation.start settings base with
  | .error fault => failed opening fault
  | .ok state => ofTrace opening state trace

/-
  The base of a document, with what is noted about it. HTML
  may give a reference of its own.
-/
def documentBase
    (media : MediaType)
    (base : String)
    (tree : Tree) : Except Fault (String × List Note) :=
  match media, tree.baseReference? with
  | .html, some reference => do
      let resolved ← Iri.resolve base reference
      return (resolved,
        [.line ⟨.debug, "Document base set to " ++ resolved⟩])
  | _, _ => .ok (base, [])

/- The extraction of a text. -/
def run
    (settings : Settings)
    (base text : String) : Extraction :=
  match Document.read settings.media text with
  | .error fault => failed [] fault
  | .ok tree =>
      match documentBase settings.media base tree with
      | .error fault => failed [] fault
      | .ok (resolved, opening) =>
          ofBase settings resolved opening (tree.walk settings.media)

/- Everything noted, in order. -/
def notes
    (e : Extraction) : List Note :=
  e.opening ++ e.sections.flatten

/- Every quad stated, in order. -/
def quads
    (e : Extraction) : List Quad :=
  Note.quads e.notes

end Extraction
end LinkedMarkup
