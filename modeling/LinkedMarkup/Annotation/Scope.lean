import LinkedMarkup.Annotation.Prefixes
import LinkedMarkup.Statement.Quad

/-
  This file defines scopes: what an element passes on to the
  elements inside it.

  Key definitions include:
    * `Incomplete`
    * `Scope`
    * `Scope.initial`
-/

namespace LinkedMarkup

/-
  A relation that waits for its other end: from the subject
  that waits, to it, or into a list.
-/
inductive Incomplete where
  | forward (predicate : Iri)
  | reverse (predicate : Iri)
  | listed (predicate : Iri) (list : Nat)
  deriving DecidableEq, Repr

/- What is in force inside an element. -/
structure Scope where
  base : String
  subject : Option Subject
  object : Option Subject
  prefixes : Entries
  terms : Entries
  vocab : Option String
  language : Option String
  list : Nat
  incomplete : List Incomplete
  deriving DecidableEq, Repr

namespace Scope

/- What is in force around the outermost element. -/
def initial
    (base : String)
    (subject : Subject)
    (prefixes terms : Entries)
    (list : Nat) : Scope :=
  { base := base
    subject := some subject
    object := none
    prefixes := prefixes
    terms := terms
    vocab := none
    language := none
    list := list
    incomplete := [] }

end Scope
end LinkedMarkup
