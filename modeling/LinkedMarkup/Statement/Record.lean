import LinkedMarkup.Statement.Quad

/-
  This file defines records: terms as plain fields, which
  can cross a boundary where live values cannot, and the
  terms that records stand for.

  Key definitions include:
    * `Record`
    * `Term.record`
    * `Quad.records`
    * `Record.term`
-/

namespace LinkedMarkup

/- A term as plain fields. -/
structure Record where
  kind : String
  value : String
  language : Option String
  datatype : Option String
  deriving DecidableEq, Repr

namespace Term

/- The record of a term. -/
def record
    (t : Term) : Record :=
  match t with
  | .literal l =>
      ⟨t.kind.name, l.value, l.language?, some l.datatype.text⟩
  | _ => ⟨t.kind.name, t.value, none, none⟩

end Term

namespace Quad

/- The records of a statement's four positions. -/
def records
    (q : Quad) : List Record :=
  [q.subject.toTerm.record, (Term.iri q.predicate).record,
    q.object.toTerm.record, q.graph.toTerm.record]

end Quad

namespace Record

/- The literal that a record's fields stand for. -/
def literal
    (r : Record) : Except Fault Literal :=
  match r.language, r.datatype with
  | some l, _ =>
      match Literal.tagged? r.value l with
      | some literal => .ok literal
      | none => .error .rejectedTerm
  | none, some d =>
      match Iri.parse? d with
      | some iri => .ok (.typed r.value iri)
      | none => .error .rejectedTerm
  | none, none => .ok (.plain r.value)

/-
  The term that a record stands for, if its kind is known and
  its fields are valid.
-/
def term
    (r : Record) : Except Fault Term :=
  if r.kind == Term.Kind.namedNode.name then
    match Iri.parse? r.value with
    | some iri => .ok (.iri iri)
    | none => .error .rejectedTerm
  else if r.kind == Term.Kind.blankNode.name then
    match BlankNode.parse? r.value with
    | some node => .ok (.blank node)
    | none => .error .rejectedTerm
  else if r.kind == Term.Kind.literal.name then
    match r.literal with
    | .ok l => .ok (.literal l)
    | .error fault => .error fault
  else if r.kind == Term.Kind.defaultGraph.name then
    .ok .defaultGraph
  else
    .error .rejectedTerm

end Record
end LinkedMarkup
