import LinkedMarkup.Annotation.Element
import LinkedMarkup.Annotation.Evaluation.Roles
import LinkedMarkup.Annotation.Moment

/-
  This file defines the values of properties: literals with a
  language or a datatype, nodes, and literals that wait for
  the content of an element.

  Key definitions include:
    * `Evaluation.plainLiteral`
    * `Evaluation.typedLiteral`
    * `Evaluation.stateOrList`
    * `Evaluation.stateValue`
    * `Evaluation.propertyValue`
    * `Evaluation.capturedLiteral`
    * `Evaluation.completePending`
-/

namespace LinkedMarkup
namespace Evaluation

/-
  A literal of no datatype, with a language if that is a
  well-formed tag; another one is dropped with a remark.
-/
def plainLiteral
    (value : String)
    (language : Option String) : Work Literal :=
  match Literal.make value none language with
  | .ok l => return l
  | .error fault => do
      Work.remark ("Language dropped: " ++ fault.text)
      Work.ofOutcome (Literal.make value none none)

/- A literal of a datatype, which leaves no place for a language. -/
def typedLiteral
    (value : String)
    (datatype : Iri) : Work Literal :=
  Work.ofOutcome (Literal.make value (some datatype) none)

/- Datatypes whose literals keep markup. -/
def markupDatatypes : List Iri :=
  [Rdf.xmlLiteral, Rdf.html]

/- State a value for a predicate, or add it to its list. -/
def stateOrList
    (subject : Option Subject)
    (list : Nat)
    (inList : Bool)
    (value : Object)
    (predicate : Iri) : Work Unit :=
  if inList then
    Work.appendToList list predicate value
  else
    Work.state subject predicate (some value)

/-
  State a value once for each predicate, or add it to the
  lists of the predicates.
-/
def stateValue
    (subject : Subject)
    (list : Nat)
    (inList : Bool)
    (value : Object)
    (predicates : List Iri) : Work Unit :=
  Work.forEach (stateOrList (some subject) list inList value) predicates

/- The datatype that a value names, and whether one is given. -/
def readDatatype
    (scope : Scope)
    (given : Option String) : Work (Option Iri) :=
  match given with
  | none => return none
  | some value =>
      let trimmed := Text.trim value
      if trimmed.isEmpty then
        return none
      else
        Resolution.term scope trimmed

/- A literal from content, of a moment if it is in such a form. -/
def contentLiteral
    (content : String)
    (mayInfer : Bool)
    (language : Option String) : Work Literal :=
  match (if mayInfer then Moment.datatype? content else none) with
  | some datatype => typedLiteral content datatype
  | none => plainLiteral content language

/-
  The value of a property: one that is known at the start
  tag, or one that waits for the content of the element.
-/
def propertyValue
    (settings : Settings)
    (name : String)
    (attributes : Entries)
    (scope : Scope)
    (named : Named)
    (typed : Option Subject)
    (hasRelations : Bool)
    (pending : Pending) : Work (Except Pending Object) := do
  let given := attributes.get? "datatype"
  let content := explicitContent settings attributes
  let datatype ← readDatatype scope given
  match datatype with
  | some d =>
      if markupDatatypes.contains d then
        return .error
          { pending with datatype := some d, keepsMarkup := true }
      else
        match content.1 with
        | none => return .error { pending with datatype := some d }
        | some text => do
            let l ← typedLiteral text d
            return .ok (.literal l)
  | none =>
      if given.any Text.isAllBlank then
        match content.1 with
        | none => return .error pending
        | some text => do
            let l ← plainLiteral text scope.language
            return .ok (.literal l)
      else
        match content.1 with
        | some text => do
            let l ← contentLiteral text content.2 scope.language
            return .ok (.literal l)
        | none =>
            match (if hasRelations then none else named.target) with
            | some node => return .ok node.toObject
            | none =>
                match
                  (if attributes.has "typeof" && named.about.isNone then
                    typed
                  else
                    none) with
                | some node => return .ok node.toObject
                | none =>
                    return .error
                      { pending with
                        infersMoment := settings.isHtml && name == "time" }

/- The literal of the text that was captured. -/
def capturedLiteral
    (p : Pending) : Work Literal :=
  match p.datatype with
  | some d => typedLiteral p.text d
  | none => contentLiteral p.text p.infersMoment p.language

/- Complete a literal from the text that was captured. -/
def completePending
    (p : Pending) : Work Unit := do
  let l ← capturedLiteral p
  stateValue p.subject p.list p.inList (.literal l) p.predicates

end Evaluation
end LinkedMarkup
