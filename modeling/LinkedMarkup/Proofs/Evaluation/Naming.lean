import LinkedMarkup.Proofs.Evaluation.Environment
import LinkedMarkup.Proofs.Text.Cutting

/-
  This file defines which IRIs the tokens of attributes name
  in an environment, and proves that reading a token finds
  only these. A token with a name that is not declared, which
  is no absolute IRI either, names nothing and has no effect.

  Key definitions include:
    * `Environment.Names`
    * `Environment.named?`
    * `Environment.Undeclared`

  Main declarations:
    * `Environment.names_of_named?`
    * `Resolution.term_yields`
    * `Resolution.terms_yields`
    * `Resolution.term_of_undeclared`
-/

namespace LinkedMarkup

------------------------------------------------------------
-- What tokens name
------------------------------------------------------------

/-
  A token with a colon: a name, which holds none, and what
  follows the first colon.
-/
structure Token.Compact
    (token name reference : String) : Prop where
  token_eq : token = name ++ ":" ++ reference
  colon : ':' ∉ name.toList

namespace Environment

/-
  What a token may name: a declared name or none before a
  colon gives the start of an IRI; without a colon it belongs
  to the vocabulary or is a term; or it is an absolute IRI.
-/
inductive Names
    (x : Environment) : String → Iri → Prop where
  | declared
      {token name reference start : String}
      (hToken : Token.Compact token name reference)
      (hGiven : name ≠ "")
      (hStart : x.prefixes.get? (Text.lower name) = some start) :
      Names x token ⟨start ++ reference⟩
  | unnamed
      {token reference : String}
      (hToken : Token.Compact token "" reference) :
      Names x token ⟨Vocabulary.xhv.expand reference⟩
  | vocabulary
      {token vocab : String}
      (hColon : ':' ∉ token.toList)
      (hVocab : x.vocab = some vocab) :
      Names x token ⟨vocab ++ token⟩
  | term
      {token text : String}
      (hColon : ':' ∉ token.toList)
      (hVocab : x.vocab = none)
      (hTerm : Resolution.scopedTerm? x.terms token = some text) :
      Names x token ⟨text⟩
  | absolute
      {token : String}
      (hAbsolute : Iri.looksAbsolute token = true) :
      Names x token ⟨token⟩

/- The start of an IRI that a name before a colon stands for. -/
def start?
    (x : Environment)
    (name : String) : Option String :=
  if name = "" then
    some Vocabulary.xhv.base
  else
    x.prefixes.get? (Text.lower name)

/-
  The IRI that a token is read as. One whose declared name
  does not lead to an IRI may still be an absolute IRI.
-/
def named?
    (x : Environment)
    (token : String) : Option Iri :=
  match Text.cutAtChar ':' token.toList with
  | (_, none) =>
      match x.vocab with
      | some vocab => Iri.parse? (vocab ++ token)
      | none =>
          (Resolution.scopedTerm? x.terms token).bind Iri.parse?
  | (front, some tail) =>
      if String.ofList front = "_" then
        none
      else
        ((x.start? (String.ofList front)).bind (fun start =>
          Iri.parse? (start ++ String.ofList tail))).or
            (if Iri.looksAbsolute token then Iri.parse? token else none)

/-
  A token whose name is not declared, and that is no absolute
  IRI either.
-/
structure Undeclared
    (x : Environment)
    (token : String) : Prop where
  name : ∃ name reference,
    Token.Compact token name reference ∧ name ≠ "" ∧
      x.prefixes.get? (Text.lower name) = none
  relative : Iri.looksAbsolute token = false

end Environment

------------------------------------------------------------
-- Parts of tokens
------------------------------------------------------------

namespace Token

variable {token name reference : String}

theorem Compact.cut
    (h : Compact token name reference) :
    Text.cutAtChar ':' token.toList =
      (name.toList, some reference.toList) := by
  have hChars :
      token.toList = name.toList ++ ':' :: reference.toList := by
    rw [h.token_eq]
    simp
  rw [hChars]
  exact Text.cutAtChar_append h.colon _

theorem Compact.mem
    (h : Compact token name reference) :
    ':' ∈ token.toList := by
  rw [h.token_eq]
  simp

/- A token has a name and a reference, or it has no colon. -/
theorem compact_or_not_mem
    (token : String) :
    (∃ name reference, Compact token name reference) ∨
      ':' ∉ token.toList := by
  by_cases hColon : ':' ∈ token.toList
  · rcases List.eq_append_cons_of_mem hColon with
      ⟨front, tail, hCut, hFront⟩
    refine .inl ⟨String.ofList front, String.ofList tail, ?_, ?_⟩
    · apply String.ext
      simpa using hCut
    · simpa using hFront
  · exact .inr hColon

/- The name and the reference of a token are determined. -/
theorem Compact.unique
    {name' reference' : String}
    (h : Compact token name reference)
    (h' : Compact token name' reference') :
    name = name' ∧ reference = reference' := by
  have hCut := h.cut.symm.trans h'.cut
  simp only [Prod.mk.injEq, Option.some.injEq] at hCut
  exact ⟨String.ext hCut.1, String.ext hCut.2⟩

end Token

namespace Environment

variable {x : Environment} {token name reference : String}

theorem named?_of_compact
    (h : Token.Compact token name reference) :
    x.named? token =
      if name = "_" then
        none
      else
        ((x.start? name).bind (fun start =>
          Iri.parse? (start ++ reference))).or
            (if Iri.looksAbsolute token then
              Iri.parse? token
            else
              none) := by
  unfold named?
  rw [h.cut]
  simp only [String.ofList_toList]

theorem named?_of_not_mem
    (h : ':' ∉ token.toList) :
    x.named? token =
      match x.vocab with
      | some vocab => Iri.parse? (vocab ++ token)
      | none =>
          (Resolution.scopedTerm? x.terms token).bind
            Iri.parse? := by
  unfold named?
  rw [Text.cutAtChar_of_not_mem h]

/- An IRI that is read is the text that was read. -/
theorem eq_of_parse?
    {text : String}
    {i : Iri}
    (h : Iri.parse? text = some i) :
    i = ⟨text⟩ := by
  unfold Iri.parse? at h
  split at h
  · cases h
    rfl
  · cases h

/- What a token is read as is an IRI that it names. -/
theorem names_of_named?
    {i : Iri}
    (h : x.named? token = some i) :
    x.Names token i ∧ Iri.parse? i.text = some i := by
  have hRead :
      ∀ text : String,
        Iri.parse? text = some i →
          x.Names token ⟨text⟩ →
            x.Names token i ∧ Iri.parse? i.text = some i := by
    intro text hText hNames
    have hSame := eq_of_parse? hText
    rw [hSame] at hText ⊢
    exact ⟨hNames, hText⟩
  rcases Token.compact_or_not_mem token with
    ⟨name, reference, hToken⟩ | hColon
  · rw [named?_of_compact hToken] at h
    split at h
    · cases h
    · rcases Option.or_eq_some_iff.mp h with hName | ⟨_, hAbsolute⟩
      · rcases Option.bind_eq_some_iff.mp hName with
          ⟨start, hStart, hText⟩
        refine hRead _ hText ?_
        unfold start? at hStart
        split at hStart
        · rename_i hEmpty
          cases hStart
          rw [hEmpty] at hToken
          exact .unnamed hToken
        · rename_i hGiven
          exact .declared hToken hGiven hStart
      · split at hAbsolute
        · rename_i hLooks
          exact hRead _ hAbsolute (.absolute hLooks)
        · cases hAbsolute
  · rw [named?_of_not_mem hColon] at h
    split at h
    · rename_i vocab hVocab
      exact hRead _ h (.vocabulary hColon hVocab)
    · rename_i hVocab
      rcases Option.bind_eq_some_iff.mp h with ⟨text, hTerm, hText⟩
      exact hRead _ hText (.term hColon hVocab hTerm)

/- What is not declared names nothing. -/
theorem Undeclared.not_names
    (h : x.Undeclared token)
    (i : Iri) :
    ¬ x.Names token i := by
  rcases h.name with ⟨name, reference, hToken, hGiven, hNone⟩
  intro hNames
  cases hNames with
  | declared hOther _ hStart =>
      rw [← (hToken.unique hOther).1, hNone] at hStart
      cases hStart
  | unnamed hOther => exact hGiven (hToken.unique hOther).1
  | vocabulary hColon _ => exact hColon hToken.mem
  | term hColon _ _ => exact hColon hToken.mem
  | absolute hAbsolute =>
      rw [h.relative] at hAbsolute
      cases hAbsolute

end Environment

------------------------------------------------------------
-- Reading tokens
------------------------------------------------------------

namespace Resolution

open Work

theorem node_yields
    (text : String) :
    (node text).Yields (fun found => found = Iri.parse? text) := by
  unfold node Iri.make
  cases Iri.parse? text with
  | some i => exact yields_pure rfl
  | none => exact yields_bind (fun _ => yields_pure rfl)

theorem subjectNode_yields
    (text : String) :
    (subjectNode text).Yields
      (fun found => found = (Iri.parse? text).map Subject.iri) := by
  refine (node_yields text).bind ?_
  rintro _ rfl
  exact yields_pure rfl

/- A compact name gives a blank node, or what its start leads to. -/
theorem compactName_yields
    (scope : Scope)
    {token name reference : String}
    (h : Token.Compact token name reference) :
    (compactName scope token).Yields
      (fun found =>
        if name = "_" then
          ∃ b, found = some (.blank b)
        else
          found =
            ((scope.environment.start? name).bind (fun start =>
              Iri.parse? (start ++ reference))).map
                Subject.iri) := by
  unfold compactName
  rw [h.cut]
  simp only [String.ofList_toList, beq_iff_eq]
  by_cases hNode : name = "_"
  · rw [if_pos hNode]
    simp only [if_pos hNode]
    exact yields_bind (fun b => yields_pure ⟨b, rfl⟩)
  · rw [if_neg hNode]
    simp only [if_neg hNode]
    unfold Environment.start?
    split
    · exact subjectNode_yields _
    · change
        (match scope.prefixes.get? (Text.lower name) with
          | some start => subjectNode (start ++ reference)
          | none => Work.done none : Work (Option Subject)).Yields
            (fun found =>
              found =
                ((scope.prefixes.get? (Text.lower name)).bind
                  (fun start =>
                    Iri.parse? (start ++ reference))).map
                      Subject.iri)
      cases scope.prefixes.get? (Text.lower name) with
      | some start => exact subjectNode_yields _
      | none => exact yields_pure rfl

/- A token is read as what it names in the scope. -/
theorem term_yields
    (scope : Scope)
    (token : String) :
    (term scope token).Yields
      (fun found => found = scope.environment.named? token) := by
  unfold term
  rcases Token.compact_or_not_mem token with
    ⟨name, reference, hToken⟩ | hColon
  · rw [if_pos (List.contains_iff_mem.mpr hToken.mem),
      Environment.named?_of_compact hToken]
    refine (compactName_yields scope hToken).bind ?_
    intro found hFound
    by_cases hNode : name = "_"
    · rw [if_pos hNode] at hFound
      rcases hFound with ⟨b, rfl⟩
      rw [if_pos hNode]
      exact yields_pure rfl
    · rw [if_neg hNode] at hFound
      rw [if_neg hNode, hFound]
      cases
          (scope.environment.start? name).bind (fun start =>
            Iri.parse? (start ++ reference)) with
      | some i => exact yields_pure rfl
      | none =>
          rw [Option.none_or]
          dsimp only [Option.map_none]
          split
          · exact node_yields token
          · exact yields_pure rfl
  · rw [if_neg (fun hMem =>
        hColon (List.contains_iff_mem.mp hMem)),
      Environment.named?_of_not_mem hColon]
    change
      (match scope.vocab with
        | some vocab => node (vocab ++ token)
        | none =>
            match scopedTerm? scope.terms token with
            | some text => node text
            | none => Work.done none : Work (Option Iri)).Yields
          (fun found =>
            found =
              match scope.vocab with
              | some vocab => Iri.parse? (vocab ++ token)
              | none =>
                  (scopedTerm? scope.terms token).bind Iri.parse?)
    cases scope.vocab with
    | some vocab => exact node_yields _
    | none =>
        cases scopedTerm? scope.terms token with
        | some text => exact node_yields text
        | none => exact yields_pure rfl

/- Values that a step finds are collected in order. -/
theorem collect_yields
    {α β : Type}
    {step : α → Work (Option β)}
    {read : α → Option β}
    (h : ∀ a, (step a).Yields (fun found => found = read a))
    (values : List α) :
    (collect step values).Yields
      (fun found => found = values.filterMap read) := by
  induction values with
  | nil => exact yields_pure rfl
  | cons a rest ih =>
      refine (h a).bind ?_
      rintro _ rfl
      refine Yields.bind ih ?_
      rintro _ rfl
      apply yields_pure
      cases hRead : read a <;> simp [hRead]

/- The tokens of a value are read as what they name. -/
theorem terms_yields
    (scope : Scope)
    (value : String) :
    (terms scope value).Yields
      (fun found =>
        found =
          (Text.words value).filterMap scope.environment.named?) :=
  collect_yields (term_yields scope) _

/-
  Reading a token that is not declared states nothing, leaves
  all lists as they are, and names nothing.
-/
theorem term_of_undeclared
    {scope : Scope}
    {token : String}
    (h : scope.environment.Undeclared token)
    (s : Session) :
    ∃ supply,
      term scope token s = (.ok none, { s with supply := supply }) := by
  rcases h.name with ⟨name, reference, hToken, hGiven, hNone⟩
  have hNone : scope.prefixes.get? (Text.lower name) = none := hNone
  unfold term compactName
  rw [if_pos (List.contains_iff_mem.mpr hToken.mem), hToken.cut]
  simp only [String.ofList_toList, beq_iff_eq, if_neg hGiven, hNone]
  by_cases hNode : name = "_"
  · rw [if_pos hNode]
    exact ⟨_, rfl⟩
  · rw [if_neg hNode]
    refine ⟨s.supply, ?_⟩
    simp [andThen, done, h.relative]

end Resolution
end LinkedMarkup
