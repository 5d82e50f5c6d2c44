import LinkedMarkup.Annotation.Evaluation.StartTag

/-
  This file defines how the events of a document become
  statements. A start tag opens an element and states what is
  known by then; an end tag completes the literal that waited
  for it and writes the lists that the element owns.

  Key definitions include:
    * `Evaluation.State`
    * `Evaluation.start`
    * `Evaluation.readEvent`
    * `Evaluation.process`
    * `Evaluation.finish`
-/

namespace LinkedMarkup
namespace Evaluation

/-
  The evaluation of a document: what holds for all of it, the
  scope around its root, the open elements with the innermost
  first, and the session.
-/
structure State where
  settings : Settings
  outer : Scope
  elements : List Element
  session : Session
  deriving DecidableEq

/-
  The evaluation of a document that has not begun. Its base
  must be an IRI once the fragment is taken off.
-/
def start
    (settings : Settings)
    (base : String) : Except Fault State := do
  let document ← Iri.withoutFragment base
  match Iri.parse? document with
  | none => throw (.invalidBase base)
  | some iri =>
      let made :=
        Session.start.lists.root
          (settings.options.listStyle == .collection)
      return {
        settings := settings
        outer :=
          Scope.initial document (.iri iri) settings.options.prefixes
            settings.options.terms made.1
        elements := []
        session := { Session.start with lists := made.2 } }

namespace State

/- The scope that the next start tag is read in. -/
def scope
    (d : State) : Scope :=
  match d.elements with
  | [] => d.outer
  | e :: _ => e.scope

end State

/- Add an event to the pending values of open elements. -/
def captureAll
    (event : Event)
    (elements : List Element) : List Element :=
  elements.map (fun e => e.capture event)

/- Complete the literal that waits for an element's content. -/
def completeElement
    (e : Element) : Work Unit :=
  match e.pending with
  | some p => completePending p
  | none => return ()

/-
  Close an element: complete the literal that waits for its
  content, and write the lists that it owns.
-/
def closeElement
    (e : Element) : Work Unit := do
  completeElement e
  Work.flushLists e.list e.subject

/- Read one event: the elements that are open after it. -/
def readEvent
    (d : State)
    (event : Event) : Work (List Element) :=
  match event with
  | .opened name attributes _ => do
      let e ←
        openElement d.settings d.scope d.elements.isEmpty name attributes
      return e :: captureAll event d.elements
  | .text _ => return captureAll event d.elements
  | .closed name _ =>
      match d.elements with
      | [] => Work.fail (.unexpectedEnd name)
      | e :: rest =>
          if e.name == name then do
            closeElement e
            return captureAll event rest
          else
            Work.fail (.mismatchedEnd e.name name)
  | .unknown description => Work.fail (.unexpectedEvent description)

/-
  Process one event: the evaluation after it, unless it was at
  fault, and what was noted on the way.
-/
def process
    (d : State)
    (event : Event) : Except Fault State × List Note :=
  match readEvent d event { d.session with notes := #[] } with
  | (.error fault, s) => (.error fault, s.notes.toList)
  | (.ok elements, s) =>
      (.ok { d with elements := elements, session := s }, s.notes.toList)

/- End the document, in which no element may be open. -/
def finish
    (d : State) : Except Fault Unit :=
  if d.elements.isEmpty then
    .ok ()
  else
    .error (.unclosed d.elements.length)

end Evaluation
end LinkedMarkup
