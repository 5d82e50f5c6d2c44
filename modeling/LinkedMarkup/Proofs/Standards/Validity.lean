import LinkedMarkup.Proofs.Standards.Steps
import LinkedMarkup.Proofs.Text.LowerCase
import LinkedMarkup.Statement.Record

/-
  This file proves that whatever an evaluation states is made
  of valid terms, which can be made again from their texts,
  in the default graph.

  Key definitions include:
    * `Iri.Valid`
    * `BlankNode.Valid`
    * `Literal.Valid`
    * `Quad.Valid`

  Main declarations:
    * `NodeSupply.valid_node`
    * `Literal.valid_of_make`
    * `Standard.lawful_validity`
    * `Extraction.valid_of_mem_evaluate`
-/

namespace LinkedMarkup

------------------------------------------------------------
-- Valid terms
------------------------------------------------------------

/- An IRI that its text stands for. -/
def Iri.Valid
    (i : Iri) : Prop :=
  Iri.parse? i.text = some i

instance
    (i : Iri) :
    Decidable i.Valid :=
  inferInstanceAs (Decidable (_ = _))

/- A blank node that its label stands for. -/
def BlankNode.Valid
    (b : BlankNode) : Prop :=
  BlankNode.parse? b.label = some b

/-
  A literal that its fields stand for: its language is there
  and is as it would be written, or its datatype is valid.
-/
def Literal.Valid :
    Literal → Prop
  | .tagged value language =>
      language ≠ "" ∧
        Literal.tagged? value language = some (.tagged value language)
  | .typed _ datatype => datatype.Valid

def Subject.Valid :
    Subject → Prop
  | .iri i => i.Valid
  | .blank b => b.Valid

def Object.Valid :
    Object → Prop
  | .iri i => i.Valid
  | .blank b => b.Valid
  | .literal l => l.Valid

/- A quad of valid terms in the default graph. -/
structure Quad.Valid
    (q : Quad) : Prop where
  subject : q.subject.Valid
  predicate : q.predicate.Valid
  object : q.object.Valid
  graph : q.graph = .default

theorem Subject.valid_toObject
    {s : Subject}
    (h : s.Valid) :
    s.toObject.Valid := by
  cases s <;> exact h

theorem Quad.valid_triple
    {s : Subject}
    {p : Iri}
    {o : Object}
    (hSubject : s.Valid)
    (hPredicate : p.Valid)
    (hObject : o.Valid) :
    (Quad.triple s p o).Valid :=
  ⟨hSubject, hPredicate, hObject, rfl⟩

------------------------------------------------------------
-- Labels
------------------------------------------------------------

theorem BlankNode.isLabelChar_of_isDigit
    {c : Char}
    (h : c.isDigit = true) :
    BlankNode.isLabelChar c = true := by
  have hDigit : Text.isAsciiDigit c = true := by
    simpa [Text.isAsciiDigit, Char.isDigit, Char.le_def] using h
  simp [BlankNode.isLabelChar, BlankNode.isLabelStart, hDigit]

/- Every node of a supply has a valid label. -/
theorem NodeSupply.valid_node
    (n : Nat) :
    (NodeSupply.node n).Valid := by
  have hDigits :
      ∀ c ∈ (Nat.repr n).toList, c.isDigit = true := by
    intro c hMem
    rw [Nat.toList_repr] at hMem
    exact Nat.isDigit_of_mem_toDigits (by decide) (by decide) hMem
  have hLabel :
      ("b" ++ Nat.repr n).toList = 'b' :: (Nat.repr n).toList := by
    simp
  have hStart : BlankNode.isLabelStart 'b' = true := by
    decide +kernel
  have hRest :
      (Nat.repr n).toList.all BlankNode.isLabelChar = true := by
    rw [List.all_eq_true]
    exact fun c hMem =>
      BlankNode.isLabelChar_of_isDigit (hDigits c hMem)
  have hLast :
      ('b' :: (Nat.repr n).toList).getLast? ≠ some '.' := by
    intro hEq
    have hMem := List.mem_of_getLast? hEq
    rcases List.mem_cons.mp hMem with hHead | hTail
    · exact absurd hHead (by decide)
    · exact absurd (hDigits '.' hTail) (by decide)
  unfold BlankNode.Valid BlankNode.parse? NodeSupply.node
  dsimp only
  rw [hLabel]
  unfold BlankNode.isLabel
  simp only [hStart, hRest, bne_iff_ne.mpr hLast, Bool.and_self,
    if_true]

------------------------------------------------------------
-- Literals
------------------------------------------------------------

theorem Text.asciiLower_idem
    (s : String) :
    asciiLower (asciiLower s) = asciiLower s := by
  unfold asciiLower
  rw [String.toList_ofList, List.map_map]
  congr 1
  exact List.map_congr_left (fun c _ => asciiLowerChar_idem c)

/- A literal that is made without a datatype is valid. -/
theorem Literal.valid_of_make
    {value : String}
    {language : Option String}
    {l : Literal}
    (h : Literal.make value none language = .ok l) :
    l.Valid := by
  unfold Literal.make at h
  split at h
  · cases h
  · rename_i tag hLanguage _
    split at h
    · rename_i literal hTagged
      cases h
      have hGiven : tag ≠ "" := by
        have hKept := (Option.filter_eq_some_iff.mp hLanguage).2
        simpa using hKept
      unfold tagged? at hTagged
      dsimp only at hTagged
      split at hTagged
      · rename_i hWell
        cases hTagged
        refine ⟨?_, ?_⟩
        · intro hEmpty
          apply hGiven
          have hNone : (Text.asciiLower tag).toList = [] := by
            rw [hEmpty]
            rfl
          unfold Text.asciiLower at hNone
          rw [String.toList_ofList, List.map_eq_nil_iff] at hNone
          exact String.ext hNone
        · unfold tagged?
          dsimp only
          rw [Text.asciiLower_idem, if_pos hWell]
      · cases hTagged
    · cases h
  · rename_i hGiven
    cases hGiven
  · cases h
    change Iri.Valid Xsd.string
    decide +kernel

/- The datatypes of moments are valid. -/
theorem Moment.valid_of_datatype?
    {value : String}
    {d : Iri}
    (h : Moment.datatype? value = some d) :
    d.Valid := by
  have hForms : ∀ form ∈ Moment.forms, form.2.Valid := by
    decide +kernel
  rcases Option.map_eq_some_iff.mp h with ⟨form, hFound, rfl⟩
  exact hForms form (List.mem_of_find?_eq_some hFound)

------------------------------------------------------------
-- The standard of validity
------------------------------------------------------------

namespace Standard

/- The standard that every term is valid. -/
def validity : Standard where
  subject := Subject.Valid
  predicate := Iri.Valid
  type := Iri.Valid
  datatype := Iri.Valid
  object := Object.Valid
  quad := Quad.Valid

theorem lawful_validity :
    validity.Lawful where
  iri _ hValid := hValid
  node := NodeSupply.valid_node
  toObject _ := Subject.valid_toObject
  plain _ _ _ := Literal.valid_of_make
  typed _ _ hValid := hValid
  moment _ _ := Moment.valid_of_datatype?
  nil := by
    change Iri.Valid Rdf.nil
    decide +kernel
  relation _ _ _ := Quad.valid_triple
  typing _ _ hSubject hType :=
    Quad.valid_triple hSubject (by decide +kernel) hType
  usage _ _ hSubject hObject :=
    Quad.valid_triple hSubject (by decide +kernel) hObject
  first _ _ hSubject hObject :=
    Quad.valid_triple hSubject (by decide +kernel) hObject
  rest _ _ hSubject hObject :=
    Quad.valid_triple hSubject (by decide +kernel) hObject

/- Whatever tokens name is valid. -/
theorem admits_validity
    (x : Environment)
    (attributes : Entries) :
    validity.Admits x attributes where
  predicate _ _ _ _ _ _ _ hNamed :=
    (Environment.names_of_named? hNamed).2
  type _ _ _ _ _ hNamed := (Environment.names_of_named? hNamed).2
  datatype _ _ _ hNamed := (Environment.names_of_named? hNamed).2

theorem follows_validity
    {settings : Settings}
    {base : String}
    {first : Evaluation.State}
    (hStart : Evaluation.start settings base = .ok first) :
    Follows first (fun _ => validity) where
  lawful _ := lawful_validity
  grows _ _ := .refl validity
  begins := inState_of_start lawful_validity hStart
  admits _ _ _ _ attributes _ x _ _ := admits_validity x attributes

end Standard

/- Whatever is stated for any events is valid. -/
theorem Extraction.valid_of_mem_evaluate
    {settings : Settings}
    {base : String}
    {first : Evaluation.State}
    (hStart : Evaluation.start settings base = .ok first)
    {events : List Event}
    {notes : List Note}
    (hSection : notes ∈ (Extraction.evaluate first events).1)
    {q : Quad}
    (hQuad : q ∈ Note.quads notes) :
    q.Valid := by
  rcases List.mem_iff_getElem?.mp hSection with ⟨k, hAt⟩
  exact (Standard.follows_validity hStart).quads hAt q hQuad

end LinkedMarkup
