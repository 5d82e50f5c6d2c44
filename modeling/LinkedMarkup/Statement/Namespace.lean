import LinkedMarkup.Statement.Quad
import LinkedMarkup.Text.Split

/-
  This file defines namespaces, the vocabularies that are
  known by a short name, and the short form of an IRI.

  Key definitions include:
    * `Vocabulary`
    * `Vocabulary.expand`
    * `Vocabulary.term`
    * `Vocabulary.member`
    * `Vocabulary.braced`
    * `Vocabulary.known`
    * `Iri.compact`
-/

namespace LinkedMarkup

/- A namespace: the common start of many IRIs. -/
structure Vocabulary where
  base : String
  deriving DecidableEq, Repr

namespace Vocabulary

/- The text of a name in a namespace. -/
def expand
    (v : Vocabulary)
    (name : String) : String :=
  v.base ++ name

/- The IRI of a name in a namespace. -/
def term
    (v : Vocabulary)
    (name : String) : Except Fault Iri :=
  match Iri.parse? (v.expand name) with
  | some iri => .ok iri
  | none => .error .rejectedTerm

/-
  The IRI of a name that is a member of a namespace. Names
  with two leading underscores are hidden.
-/
def member
    (v : Vocabulary)
    (name : String) : Except Fault Iri :=
  if Text.startsWith ['_', '_'] name.toList then
    .error (.hiddenName name)
  else
    v.term name

/- A name with its namespace before it in braces. -/
def braced
    (v : Vocabulary)
    (name : String) : String :=
  String.ofList ('\x7b' :: v.base.toList ++ '\x7d' :: name.toList)

------------------------------------------------------------
-- Known vocabularies
------------------------------------------------------------

def rdf : Vocabulary := ⟨Rdf.base⟩
def rdfa : Vocabulary := ⟨"http://www.w3.org/ns/rdfa#"⟩
def rdfs : Vocabulary := ⟨"http://www.w3.org/2000/01/rdf-schema#"⟩
def xhv : Vocabulary := ⟨"http://www.w3.org/1999/xhtml/vocab#"⟩
def xsd : Vocabulary := ⟨Xsd.base⟩

/- The IRI that says which vocabulary a document uses. -/
def usesVocabulary : Iri :=
  ⟨rdfa.expand "usesVocabulary"⟩

/- Vocabularies and their short names. -/
def known : List (String × String) :=
  [("rdf", rdf.base), ("rdfa", rdfa.base), ("rdfs", rdfs.base),
    ("xhv", xhv.base), ("xsd", xsd.base)]

end Vocabulary

namespace Iri

/-
  The short form of an IRI's text: the first known vocabulary
  that it starts with is written by its short name.
-/
def compact
    (text : String) : String :=
  let form? := Vocabulary.known.findSome? (fun entry =>
    (Text.dropFront? entry.2.toList text.toList).map
      (fun rest => entry.1 ++ ":" ++ String.ofList rest))
  form?.getD text

end Iri
end LinkedMarkup
