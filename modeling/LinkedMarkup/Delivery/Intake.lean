import LinkedMarkup.Delivery.Handover
import LinkedMarkup.Store.Graph

/-
  This file defines the far side that keeps what it receives:
  records of unchecked fields are turned into statements and
  added to a graph. A record with an invalid value is left
  out; one with a missing value or a value of a wrong type is
  a mistake of the sender.

  Key definitions include:
    * `Fields`
    * `Record.fields`
    * `Intake.resource`
    * `Intake.object`
    * `Intake.quad`
    * `Intake.receive`
    * `Intake.host`
-/

namespace LinkedMarkup

------------------------------------------------------------
-- Fields
------------------------------------------------------------

/- What a sender gives for a term: names and values of any type. -/
abbrev Fields := List (String × Datum)

/- A text that may be missing, as a value. -/
def Datum.ofOption :
    Option String → Datum
  | some s => .text s
  | none => .absent

/- Whether a value counts as given. -/
def Datum.isGiven :
    Datum → Bool
  | .absent => false
  | .truth b => b
  | .whole n => n != 0
  | .real _ digits _ => digits != 0
  | .text s => !s.isEmpty
  | .series values => !values.isEmpty
  | .table entries => !entries.isEmpty

/- The fields of a record. -/
def Record.fields
    (r : Record) : Fields :=
  [("kind", .text r.kind), ("value", .text r.value),
    ("language", .ofOption r.language),
    ("datatype", .ofOption r.datatype)]

namespace Fields

/- The value of an optional field. -/
def get
    (f : Fields)
    (name : String) : Datum :=
  (f.lookup name).getD .absent

/- The value of a field that must be there. -/
def need
    (f : Fields)
    (name : String) : Except Fault Datum :=
  match f.lookup name with
  | some d => .ok d
  | none => .error (.missingKey name)

/- Whether fields are those of a term of a kind. -/
def isOf
    (f : Fields)
    (kind : Term.Kind) : Bool :=
  match f.get "kind" with
  | .text name => name == kind.name
  | _ => false

end Fields

namespace Intake

------------------------------------------------------------
-- Terms
------------------------------------------------------------

/- The text that a value is. -/
def text
    (d : Datum) : Except Fault String :=
  match d with
  | .text s => .ok s
  | _ => .error .mistypedTerm

/- What a text stands for, by a reader that may refuse it. -/
def made
    {α : Type}
    (read : String → Option α)
    (d : Datum) : Except Fault α := do
  match read (← text d) with
  | some value => .ok value
  | none => .error .rejectedTerm

/- The subject that fields stand for, if they name one. -/
def resource
    (fields : Option Fields) : Except Fault (Option Subject) :=
  match fields with
  | none => .ok none
  | some f => do
      if f.isOf .namedNode then
        return some (.iri (← made Iri.parse? (← f.need "value")))
      else if f.isOf .blankNode then
        return some (.blank (← made BlankNode.parse? (← f.need "value")))
      else
        return none

/- The predicate that fields stand for, if they name one. -/
def predicate
    (fields : Option Fields) : Except Fault (Option Iri) :=
  match fields with
  | none => .ok none
  | some f => do
      if f.isOf .namedNode then
        return some (← made Iri.parse? (← f.need "value"))
      else
        return none

/-
  The literal that fields stand for. A language goes before a
  datatype, and the datatype of literals with a language does
  not count on its own.
-/
def literal
    (f : Fields) : Except Fault Literal := do
  let value ← f.need "value"
  let language := f.get "language"
  let datatype := f.get "datatype"
  if language.isGiven then
    let tag ← text language
    match Literal.tagged? (← text value) tag with
    | some l => .ok l
    | none => .error .rejectedTerm
  else
    match datatype with
    | .text name =>
        if name.isEmpty || name == Rdf.langString.text then
          return .plain (← text value)
        else
          let iri ← made Iri.parse? datatype
          return .typed (← text value) iri
    | other =>
        if other.isGiven then
          .error .mistypedTerm
        else
          return .plain (← text value)

/- The object that fields stand for, if they name one. -/
def object
    (fields : Option Fields) : Except Fault (Option Object) :=
  match fields with
  | none => .ok none
  | some f => do
      if f.isOf .literal then
        return some (.literal (← literal f))
      else
        return (← resource (some f)).map Subject.toObject

------------------------------------------------------------
-- Statements
------------------------------------------------------------

/- The statement that fields stand for, if all its terms are there. -/
def quad
    (s p o : Option Fields) : Except Fault (Option Quad) := do
  let subject ← resource s
  let predicate ← predicate p
  let object ← object o
  match subject, predicate, object with
  | some s, some p, some o => return some (Quad.triple s p o)
  | _, _, _ => return none

/-
  Add the statement that fields stand for to a graph. Invalid
  values are passed over; other faults go to the sender.
-/
def receive
    (s p o : Option Fields)
    (g : Graph) : Except Fault Graph :=
  match quad s p o with
  | .ok (some q) => .ok (g.add q)
  | .ok none => .ok g
  | .error fault =>
      if fault.kind == .value then .ok g else .error fault

/- The host that adds the statements of records to a graph. -/
def host : Host Graph where
  receive records signal graph :=
    let field := fun (n : Nat) => (records[n]?).map Record.fields
    match receive (field 0) (field 1) (field 2) graph with
    | .ok next => (none, signal, next)
    | .error fault => (some fault, signal, graph)
  interrupt graph := (none, graph)

end Intake
end LinkedMarkup
