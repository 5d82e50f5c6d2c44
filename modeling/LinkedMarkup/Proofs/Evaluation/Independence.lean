import LinkedMarkup.Proofs.Coupling.StartTag

/-
  This file proves what the reading of a start tag does not
  depend on: neither on the list in force around it, nor on
  the relations that wait there. It only hands these on.

  Key definitions include:
    * `Scope.rehung`
    * `Evaluation.Reading.rehung`

  Main declarations:
    * `Evaluation.readTag_rehung`
    * `Evaluation.readProperty_rehung`
-/

namespace LinkedMarkup

/- A scope with another list in force and other relations waiting. -/
def Scope.rehung
    (x : Scope)
    (list : Nat)
    (incomplete : List Incomplete) : Scope :=
  { x with list := list, incomplete := incomplete }

namespace Evaluation

/- What is read of a start tag in a scope that is rehung. -/
def Reading.rehung
    (tag : Reading)
    (list : Nat)
    (incomplete : List Incomplete) : Reading :=
  { tag with scope := tag.scope.rehung list incomplete }

variable (list : Nat) (incomplete : List Incomplete)

------------------------------------------------------------
-- Names
------------------------------------------------------------

theorem compactName_rehung
    (scope : Scope) :
    Resolution.compactName (scope.rehung list incomplete) =
      Resolution.compactName scope :=
  rfl

theorem term_rehung
    (scope : Scope) :
    Resolution.term (scope.rehung list incomplete) =
      Resolution.term scope := by
  unfold Resolution.term
  rw [compactName_rehung]
  rfl

theorem terms_rehung
    (scope : Scope) :
    Resolution.terms (scope.rehung list incomplete) =
      Resolution.terms scope := by
  unfold Resolution.terms
  rw [term_rehung]

theorem resource_rehung
    (scope : Scope) :
    Resolution.resource (scope.rehung list incomplete) =
      Resolution.resource scope := by
  have hBase : (scope.rehung list incomplete).base = scope.base := rfl
  unfold Resolution.resource
  rw [compactName_rehung, hBase]

theorem iri_rehung
    (scope : Scope) :
    Resolution.iri (scope.rehung list incomplete) =
      Resolution.iri scope := by
  have hBase : (scope.rehung list incomplete).base = scope.base := rfl
  unfold Resolution.iri
  rw [hBase]

------------------------------------------------------------
-- Start tags
------------------------------------------------------------

theorem readScope_rehung
    (settings : Settings)
    (parent : Scope)
    (attributes : Entries) :
    readScope settings (parent.rehung list incomplete) attributes =
      (readScope settings parent attributes >>= fun scope =>
        pure (scope.rehung list incomplete)) := by
  unfold readScope
  simp only [bind_assoc, pure_bind]
  rfl

theorem readNamed_rehung
    (settings : Settings)
    (parent scope : Scope)
    (isRoot : Bool)
    (name : String)
    (attributes : Entries) :
    readNamed settings (parent.rehung list incomplete)
        (scope.rehung list incomplete) isRoot name attributes =
      readNamed settings parent scope isRoot name attributes := by
  unfold readNamed readAbout namedResource namedIri
  rw [resource_rehung, iri_rehung]
  rfl

/- The first half of a start tag only hands these on. -/
theorem readTag_rehung
    (settings : Settings)
    (parent : Scope)
    (isRoot : Bool)
    (name : String)
    (attributes : Entries) :
    readTag settings (parent.rehung list incomplete) isRoot name
        attributes =
      (readTag settings parent isRoot name attributes >>= fun tag =>
        pure (tag.rehung list incomplete)) := by
  unfold readTag relationTerms stateTypes
  rw [readScope_rehung]
  simp only [bind_assoc, pure_bind, term_rehung, terms_rehung,
    readNamed_rehung]
  rfl

theorem propertyValue_rehung
    (settings : Settings)
    (name : String)
    (attributes : Entries)
    (scope : Scope)
    (named : Named)
    (typed : Option Subject)
    (hasRelations : Bool)
    (pending : Pending) :
    propertyValue settings name attributes
        (scope.rehung list incomplete) named typed hasRelations
        pending =
      propertyValue settings name attributes scope named typed
        hasRelations pending := by
  have hLanguage :
      (scope.rehung list incomplete).language = scope.language := rfl
  unfold propertyValue readDatatype
  rw [term_rehung, hLanguage]

/- Nor does the value of a property depend on them. -/
theorem readProperty_rehung
    (settings : Settings)
    (name : String)
    (attributes : Entries)
    (scope : Scope)
    (named : Named)
    (parts : Roles)
    (own : Nat)
    (inList hasRelations : Bool) :
    readProperty settings name attributes
        (scope.rehung list incomplete) named parts own inList
        hasRelations =
      readProperty settings name attributes scope named parts own
        inList hasRelations := by
  have hLanguage :
      (scope.rehung list incomplete).language = scope.language := rfl
  unfold readProperty
  simp only [terms_rehung, propertyValue_rehung, hLanguage]

end Evaluation
end LinkedMarkup
