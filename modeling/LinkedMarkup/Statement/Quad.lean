import LinkedMarkup.Statement.Term

/-
  This file defines statements. A statement is typed by what
  its positions may hold, so one that is wrongly built does
  not exist; building one from loose terms can fail.

  Key definitions include:
    * `Subject`
    * `Object`
    * `GraphName`
    * `Quad`
    * `Quad.make`
    * `Quad.triple`
    * `Quad.line`
    * `Quad.tripleLine`
-/

namespace LinkedMarkup

------------------------------------------------------------
-- Positions
------------------------------------------------------------

/- What a statement may be about. -/
inductive Subject where
  | iri (value : Iri)
  | blank (node : BlankNode)
  deriving DecidableEq, Repr

/- What a statement may relate its subject to. -/
inductive Object where
  | iri (value : Iri)
  | blank (node : BlankNode)
  | literal (value : Literal)
  deriving DecidableEq, Repr

/- The graph that a statement belongs to. -/
inductive GraphName where
  | iri (value : Iri)
  | default
  deriving DecidableEq, Repr

namespace Subject

/- A subject as a term. -/
def toTerm :
    Subject → Term
  | iri i => .iri i
  | blank b => .blank b

/- A subject as an object of another statement. -/
def toObject :
    Subject → Object
  | iri i => .iri i
  | blank b => .blank b

/- The subject that a term is. -/
def ofTerm? :
    Term → Option Subject
  | .iri i => some (iri i)
  | .blank b => some (blank b)
  | _ => none

end Subject

namespace Object

/- An object as a term. -/
def toTerm :
    Object → Term
  | iri i => .iri i
  | blank b => .blank b
  | literal l => .literal l

/- The object that a term is. -/
def ofTerm? :
    Term → Option Object
  | .iri i => some (iri i)
  | .blank b => some (blank b)
  | .literal l => some (literal l)
  | .defaultGraph => none

end Object

namespace GraphName

/- A graph name as a term. -/
def toTerm :
    GraphName → Term
  | iri i => .iri i
  | default => .defaultGraph

/- The graph name that a term is. -/
def ofTerm? :
    Term → Option GraphName
  | .iri i => some (iri i)
  | .defaultGraph => some default
  | _ => none

end GraphName

/- The IRI that a term is. -/
def Term.iri? :
    Term → Option Iri
  | .iri i => some i
  | _ => none

------------------------------------------------------------
-- Statements
------------------------------------------------------------

/- A statement in a graph. -/
structure Quad where
  subject : Subject
  predicate : Iri
  object : Object
  graph : GraphName
  deriving DecidableEq, Repr

namespace Quad

/- A statement in the default graph. -/
def triple
    (subject : Subject)
    (predicate : Iri)
    (object : Object) : Quad :=
  ⟨subject, predicate, object, .default⟩

/-
  A statement from loose terms. The first position that
  holds the wrong kind of term is reported; no graph means
  the default graph.
-/
def make
    (subject predicate object graph : Option Term) :
    Except Fault Quad :=
  match subject.bind Subject.ofTerm? with
  | none => .error (.badSubject (Term.describedOption subject))
  | some s =>
      match predicate.bind Term.iri? with
      | none => .error (.badPredicate (Term.describedOption predicate))
      | some p =>
          match object.bind Object.ofTerm? with
          | none => .error (.badObject (Term.describedOption object))
          | some o =>
              match graph with
              | none => .ok ⟨s, p, o, .default⟩
              | some g =>
                  match GraphName.ofTerm? g with
                  | none => .error (.badGraph g.described)
                  | some name => .ok ⟨s, p, o, name⟩

/- The line that writes a statement without its graph. -/
def tripleLine
    (q : Quad) : String :=
  q.subject.toTerm.written ++ " " ++ (Term.iri q.predicate).written ++
    " " ++ q.object.toTerm.written ++ " ."

/- The line that writes a statement, with a named graph. -/
def line
    (q : Quad) : String :=
  match q.graph with
  | .default => tripleLine q
  | .iri g =>
      q.subject.toTerm.written ++ " " ++
        (Term.iri q.predicate).written ++ " " ++
        q.object.toTerm.written ++ " " ++ (Term.iri g).written ++ " ."

end Quad
end LinkedMarkup
