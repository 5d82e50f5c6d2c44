import LinkedMarkup.Annotation.Scope
import LinkedMarkup.Annotation.Work
import LinkedMarkup.Iri.Reference
import LinkedMarkup.Statement.Namespace

/-
  This file defines how attribute values name things in a
  scope: as compact names in or out of brackets, as terms, or
  as IRIs. A value that names nothing is dropped.

  Key definitions include:
    * `Resolution.node`
    * `Resolution.compactName`
    * `Resolution.resource`
    * `Resolution.iri`
    * `Resolution.term`
    * `Resolution.terms`
-/

namespace LinkedMarkup
namespace Resolution

/- The IRI that a text is; others are dropped with a remark. -/
def node
    (text : String) : Work (Option Iri) :=
  match Iri.make text with
  | .ok iri => Work.done (some iri)
  | .error fault =>
      Work.andThen (Work.remark ("Dropped: " ++ fault.text))
        (fun _ => Work.done none)

/- The node of an IRI as a subject. -/
def subjectNode
    (text : String) : Work (Option Subject) :=
  Work.andThen (node text) (fun iri => Work.done (iri.map Subject.iri))

/-
  What a compact name stands for: before its first colon is
  an underscore for a blank node, nothing for the default
  vocabulary, or a name in scope.
-/
def compactName
    (scope : Scope)
    (value : String) : Work (Option Subject) :=
  match Text.cutAtChar ':' value.toList with
  | (_, none) => Work.done none
  | (front, some tail) =>
      let name := String.ofList front
      let reference := String.ofList tail
      if name == "_" then
        Work.andThen (Work.labelledNode reference)
          (fun b => Work.done (some (.blank b)))
      else if name == "" then
        subjectNode (Vocabulary.xhv.expand reference)
      else
        match scope.prefixes.get? (Text.lower name) with
        | some start => subjectNode (start ++ reference)
        | none => Work.done none

/- The compact name inside brackets. -/
def bracketed?
    (cs : List Char) : Option String :=
  match cs with
  | '[' :: rest =>
      if rest.getLast? == some ']' then
        some (String.ofList rest.dropLast)
      else
        none
  | _ => none

/-
  Whether a text looks like a compact name whose name is not
  in scope.
-/
def looksCompact
    (value : String) : Bool :=
  match Text.cutAtChar ':' value.toList with
  | (_, none) => false
  | (front, some _) => Prefixes.isName front

/-
  What the value of `about` or `resource` names: a compact
  name in brackets, a compact name, or an IRI.
-/
def resource
    (scope : Scope)
    (value : String) : Work (Option Subject) :=
  let trimmed := Text.trim value
  match bracketed? trimmed.toList with
  | some name => compactName scope name
  | none =>
      Work.andThen (compactName scope trimmed) (fun found =>
        match found with
        | some s => Work.done (some s)
        | none =>
            if Iri.looksAbsolute trimmed then
              subjectNode trimmed
            else if looksCompact trimmed then
              Work.andThen
                (Work.remark
                  ("Dropped CURIE with undeclared prefix: " ++ trimmed))
                (fun _ => Work.done none)
            else
              Work.andThen
                (Work.ofOutcome (Iri.resolve scope.base trimmed))
                subjectNode)

/- What the value of `href` or `src` names: an IRI. -/
def iri
    (scope : Scope)
    (value : String) : Work (Option Iri) :=
  Work.andThen (Work.ofOutcome (Iri.resolve scope.base value)) node

/- The IRI of a term in scope, in its own or another case. -/
def scopedTerm?
    (terms : Entries)
    (value : String) : Option String :=
  match terms.get? value with
  | some text => some text
  | none =>
      (terms.find? (fun entry =>
        Text.lower entry.1 == Text.lower value)).map (·.2)

/-
  What a token of `typeof`, `property`, `rel`, `rev` or
  `datatype` names: without a colon a name of the vocabulary
  in force or a term, otherwise a compact name or an IRI.
  Blank nodes do not count.
-/
def term
    (scope : Scope)
    (value : String) : Work (Option Iri) :=
  if value.toList.contains ':' then
    Work.andThen (compactName scope value) (fun found =>
      match found with
      | some (.iri i) => Work.done (some i)
      | some (.blank _) => Work.done none
      | none =>
          if Iri.looksAbsolute value then node value else Work.done none)
  else
    match scope.vocab with
    | some vocab => node (vocab ++ value)
    | none =>
        match scopedTerm? scope.terms value with
        | some text => node text
        | none => Work.done none

/- What the tokens of a value name. -/
def terms
    (scope : Scope)
    (value : String) : Work (List Iri) :=
  Work.collect (term scope) (Text.words value)

end Resolution
end LinkedMarkup
