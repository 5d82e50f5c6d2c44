import LinkedMarkup.Annotation.Resolution
import LinkedMarkup.Annotation.Settings

/-
  This file defines what the attributes of an element put in
  force for itself and for the elements inside it: a base, a
  vocabulary, a language and short names.

  Key definitions include:
    * `Evaluation.stateVocabulary`
    * `Evaluation.stateUse`
    * `Evaluation.readBase`
    * `Evaluation.readVocab`
    * `Evaluation.readLanguage`
    * `Evaluation.readScope`
-/

namespace LinkedMarkup
namespace Evaluation

/- State which vocabulary a document uses, if both are IRIs. -/
def stateVocabulary
    (base vocab : String) : Work Unit := do
  let document ← Work.ofOutcome (Iri.withoutFragment base)
  let subject ← Resolution.node document
  let object ← Resolution.node vocab
  match subject, object with
  | some s, some o =>
      Work.state (some (.iri s)) Vocabulary.usesVocabulary
        (some (.iri o))
  | _, _ => return ()

/- State the use of a vocabulary, if that was asked for. -/
def stateUse
    (settings : Settings)
    (base vocab : String) : Work Unit :=
  if settings.options.statesVocabulary then
    stateVocabulary base vocab
  else
    return ()

/- The base inside an element. HTML has no attribute for it. -/
def readBase
    (settings : Settings)
    (parent : Scope)
    (attributes : Entries) : Except Fault String :=
  match attributes.get? "xml:base" with
  | some value =>
      if settings.isHtml then
        .ok parent.base
      else
        Iri.resolve parent.base value
  | none => .ok parent.base

/- The vocabulary inside an element; a blank value ends it. -/
def readVocab
    (settings : Settings)
    (parent : Scope)
    (base : String)
    (attributes : Entries) : Work (Option String) :=
  match attributes.get? "vocab" with
  | none => return parent.vocab
  | some value => do
      let trimmed := Text.trim value
      if trimmed.isEmpty then
        return none
      else
        let vocab ← Work.ofOutcome (Iri.resolve base trimmed)
        stateUse settings base vocab
        return some vocab

/- The language inside an element; a blank value ends it. -/
def readLanguage
    (parent : Scope)
    (attributes : Entries) : Option String :=
  match (attributes.get? "xml:lang").or (attributes.get? "lang") with
  | none => parent.language
  | some value => some (Text.trim value) |>.filter (fun l => !l.isEmpty)

/- What an element's own attributes put in force. -/
def readScope
    (settings : Settings)
    (parent : Scope)
    (attributes : Entries) : Work Scope := do
  let base ← Work.ofOutcome (readBase settings parent attributes)
  let vocab ← readVocab settings parent base attributes
  return { parent with
    base := base
    vocab := vocab
    language := readLanguage parent attributes
    prefixes :=
      Prefixes.extended parent.prefixes (Prefixes.declared attributes) }

end Evaluation
end LinkedMarkup
