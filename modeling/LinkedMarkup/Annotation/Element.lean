import LinkedMarkup.Annotation.Scope
import LinkedMarkup.Markup.Event

/-
  This file defines open elements, with the literal that one
  may be waiting to complete from its content.

  Key definitions include:
    * `Pending`
    * `Pending.capture`
    * `Element`
    * `Element.capture`
-/

namespace LinkedMarkup

/-
  A property value that is taken from the content of an
  element, with the text found so far. A literal that keeps
  markup captures tags too.
-/
structure Pending where
  subject : Subject
  predicates : List Iri
  list : Nat
  inList : Bool
  datatype : Option Iri
  language : Option String
  keepsMarkup : Bool
  infersMoment : Bool
  text : String
  deriving DecidableEq, Repr

namespace Pending

/- Add an event inside the element to its text. -/
def capture
    (p : Pending)
    (event : Event) : Pending :=
  if p.keepsMarkup then
    { p with text := p.text ++ event.written }
  else
    match event with
    | .text data => { p with text := p.text ++ data }
    | _ => p

end Pending

/- An element whose end tag has not come yet. -/
structure Element where
  name : String
  scope : Scope
  subject : Option Subject
  list : Nat
  pending : Option Pending
  deriving DecidableEq, Repr

namespace Element

/- Add an event inside the element to its pending value. -/
def capture
    (e : Element)
    (event : Event) : Element :=
  { e with pending := e.pending.map (fun p => p.capture event) }

end Element
end LinkedMarkup
