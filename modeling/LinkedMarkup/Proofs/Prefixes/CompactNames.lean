import LinkedMarkup.Proofs.Evaluation.Resources
import LinkedMarkup.Proofs.Prefixes.Declared
import Mathlib.Data.List.DropRight

/-
  This file proves in which forms and cases compact names name
  the same node. A name before the colon is looked up in lower
  case; all names that elements declare are kept in lower
  case, but those that a document starts with are kept as they
  are given. So the forms agree, in any case of the name,
  exactly if its lower case is mapped to the same start.

  Key definitions include:
    * `Resolution.FormsName`
    * `Evaluation.InForce`
    * `Evaluation.NamesInAnyCase`

  Main declarations:
    * `Resolution.formsName_iff`
    * `Evaluation.lower_or_initial`
    * `Evaluation.forms_name_in_any_case`
    * `Evaluation.not_namesInAnyCase`
-/

namespace LinkedMarkup

------------------------------------------------------------
-- Trimmed texts
------------------------------------------------------------

namespace Text

/- A text with no blank at either end has nothing to trim. -/
theorem trim_eq_self
    {s : String}
    (hFirst : ∀ c ∈ s.toList.head?, isBlank c = false)
    (hLast : ∀ c ∈ s.toList.getLast?, isBlank c = false) :
    trim s = s := by
  have hLeft : trimLeft s.toList = s.toList := by
    cases hChars : s.toList with
    | nil => rfl
    | cons c rest =>
        rw [hChars] at hFirst
        unfold trimLeft
        rw [List.dropWhile_cons, hFirst c rfl]
        rfl
  have hRight : s.toList.rdropWhile isBlank = s.toList := by
    rw [List.rdropWhile_eq_self_iff]
    intro hNonempty
    have hChar := hLast _ (List.getLast?_eq_some_getLast hNonempty)
    rw [hChar]
    exact Bool.false_ne_true
  unfold trim trimChars
  rw [hLeft]
  change String.ofList (s.toList.rdropWhile isBlank) = s
  rw [hRight, String.ofList_toList]

end Text

------------------------------------------------------------
-- Cases of names
------------------------------------------------------------

namespace Prefixes

variable {name q : String}

theorem toNat_lt_of_isName
    {cs : List Char}
    (h : isName cs = true)
    {c : Char}
    (hMem : c ∈ cs) :
    c.toNat < 128 := by
  rcases isName_iff.mp h with hPlain | ⟨front, hPlain, rfl⟩
  · exact toNat_lt_of_isNameChar (hPlain.chars c hMem)
  · rcases List.mem_append.mp hMem with hFront | hEnd
    · exact toNat_lt_of_isNameChar (hPlain.chars c hFront)
    · rw [List.mem_singleton.mp hEnd]
      decide

theorem not_mem_of_isName
    {cs : List Char}
    (h : isName cs = true) :
    ':' ∉ cs := by
  intro hMem
  have hColon : isNameChar ':' = false := by decide
  rcases isName_iff.mp h with hPlain | ⟨front, hPlain, rfl⟩
  · rw [hPlain.chars _ hMem] at hColon
    cases hColon
  · rcases List.mem_append.mp hMem with hFront | hEnd
    · rw [hPlain.chars _ hFront] at hColon
      cases hColon
    · exact absurd (List.mem_singleton.mp hEnd) (by decide)

/- Names stay so in lower case. -/
theorem isName_lower
    (h : isName name.toList = true) :
    isName (Text.lower name).toList = true := by
  rw [Text.lower_of_ascii (fun _ => toNat_lt_of_isName h)]
  rcases isName_iff.mp h with hPlain | ⟨front, hPlain, hEq⟩
  · exact hPlain.map_lower.isName
  · rw [hEq, List.map_append]
    exact isName_iff.mpr (.inr ⟨_, hPlain.map_lower, rfl⟩)

/- A name in lower case stays the same. -/
theorem lower_lower
    (h : isName (Text.lower name).toList = true) :
    Text.lower (Text.lower name) = Text.lower name :=
  Text.lower_lower_of_ascii (fun _ => toNat_lt_of_isName h)

/- What has a name as its lower case has no colon. -/
theorem not_mem_of_isName_lower
    (h : isName (Text.lower q).toList = true) :
    ':' ∉ q.toList := by
  intro hMem
  refine not_mem_of_isName h ?_
  rw [Text.lower_toList]
  exact Text.mem_lowerAfter
    (Text.lowerChar_of_ascii (by decide) (by decide)) hMem []

/- What has a name as its lower case starts like a name. -/
theorem exists_start_of_isName_lower
    (h : isName (Text.lower q).toList = true) :
    ∃ c rest,
      q.toList = c :: rest ∧ Text.isBlank c = false ∧ c ≠ '[' := by
  rw [Text.lower_toList] at h
  cases hChars : q.toList with
  | nil =>
      rw [hChars] at h
      cases h
  | cons c rest =>
      rw [hChars, Text.lowerAfter] at h
      have hStays :
          (∀ before after, Text.lowerChar before c after = [c]) →
            isNameStart c = true := by
        intro hSelf
        rw [hSelf, List.singleton_append, isName,
          Bool.and_eq_true] at h
        exact h.1
      refine ⟨c, rest, rfl, ?_, ?_⟩
      · by_contra hBlank
        rw [Bool.not_eq_false] at hBlank
        have hStart := hStays (Text.lowerChar_of_isBlank hBlank)
        rw [isBlank_of_isNameChar (isNameChar_of_isNameStart hStart)]
          at hBlank
        cases hBlank
      · rintro rfl
        have hStart := hStays
          (Text.lowerChar_of_ascii (by decide) (by decide))
        revert hStart
        decide

end Prefixes

------------------------------------------------------------
-- Forms of compact names
------------------------------------------------------------

namespace Resolution

open Work

/-
  The forms of a compact name all give a node: on its own and
  in brackets as a resource, and as a term.
-/
structure FormsName
    (scope : Scope)
    (q reference : String)
    (i : Iri) : Prop where
  plain :
    ∀ s, resource scope (q ++ ":" ++ reference) s =
      (.ok (some (.iri i)), s)
  bracketed :
    ∀ s, resource scope ("[" ++ (q ++ ":" ++ reference) ++ "]") s =
      (.ok (some (.iri i)), s)
  term :
    ∀ s, term scope (q ++ ":" ++ reference) s = (.ok (some i), s)

section Forms

variable {scope : Scope} {q reference start : String} {i : Iri}

theorem subjectNode_of_parse?
    {text : String}
    (h : Iri.parse? text = some i) :
    subjectNode text = Work.done (some (.iri i)) := by
  unfold subjectNode node Iri.make
  rw [h]
  rfl

/- A name before the colon is looked up in lower case. -/
theorem compactName_eq
    (hColon : ':' ∉ q.toList)
    (hGiven : q ≠ "")
    (hNode : q ≠ "_") :
    compactName scope (q ++ ":" ++ reference) =
      match scope.prefixes.get? (Text.lower q) with
      | some start => subjectNode (start ++ reference)
      | none => Work.done none := by
  have hToken : Token.Compact (q ++ ":" ++ reference) q reference :=
    ⟨rfl, hColon⟩
  unfold compactName
  rw [hToken.cut]
  cases hFound : scope.prefixes.get? (Text.lower q) <;>
    simp only [String.ofList_toList, beq_iff_eq, if_neg hGiven,
      if_neg hNode, hFound]

/- A compact name in brackets is read as such. -/
theorem resource_in_brackets
    (scope : Scope)
    (token : String) :
    resource scope ("[" ++ token ++ "]") = compactName scope token := by
  have hChars :
      ("[" ++ token ++ "]").toList = '[' :: (token.toList ++ [']']) := by
    simp
  have hTrim : Text.trim ("[" ++ token ++ "]") = "[" ++ token ++ "]" := by
    apply Text.trim_eq_self
    · rw [hChars]
      intro c hHead
      cases hHead
      decide
    · rw [hChars, ← List.cons_append, List.getLast?_concat]
      intro c hLast
      cases hLast
      decide
  apply resource_of_bracketed
  rw [hTrim, hChars, bracketed?, List.getLast?_concat, if_pos (by decide),
    List.dropLast_concat, String.ofList_toList]

/- A compact name on its own is trimmed of nothing. -/
theorem resource_of_compact
    {c : Char}
    {rest : List Char}
    (hChars : q.toList = c :: rest)
    (hFirst : Text.isBlank c = false ∧ c ≠ '[')
    (hReference : ∀ d ∈ reference.toList, Text.isBlank d = false) :
    resource scope (q ++ ":" ++ reference) =
      (compactName scope (q ++ ":" ++ reference) >>= fun found =>
        match found with
        | some node => pure (some node)
        | none => readAddress scope (q ++ ":" ++ reference)) := by
  have hToken :
      (q ++ ":" ++ reference).toList =
        c :: (rest ++ ':' :: reference.toList) := by
    simp [hChars]
  have hTrim :
      Text.trim (q ++ ":" ++ reference) = q ++ ":" ++ reference := by
    apply Text.trim_eq_self
    · rw [hToken]
      intro d hHead
      cases hHead
      exact hFirst.1
    · rw [hToken, ← List.cons_append, List.getLast?_append,
        List.getLast?_cons]
      intro d hLast
      rw [Option.some_or, Option.mem_some_iff] at hLast
      rw [← hLast]
      cases hEnd : reference.toList.getLast? with
      | none =>
          decide
      | some e =>
          exact hReference e (List.mem_of_getLast? hEnd)
  have hOpen : bracketed? (q ++ ":" ++ reference).toList = none := by
    rw [hToken, bracketed?]
    rintro tail hEq
    exact hFirst.2 (List.cons.inj hEq).1
  have hRead : bracketed? (Text.trim (q ++ ":" ++ reference)).toList =
      none := by
    rw [hTrim, hOpen]
  have hPlain := @resource_of_unbracketed scope _ hRead
  rw [hTrim] at hPlain
  exact hPlain

/-
  The forms of a compact name give the IRI that starts as its
  name says exactly if the lower case of the name is mapped to
  that start.
-/
theorem formsName_iff
    (hName : Prefixes.isName (Text.lower q).toList = true)
    (hNode : q ≠ "_")
    (hReference : ∀ c ∈ reference.toList, Text.isBlank c = false)
    (hIri : Iri.parse? (start ++ reference) = some i) :
    FormsName scope q reference i ↔
      scope.prefixes.get? (Text.lower q) = some start := by
  rcases Prefixes.exists_start_of_isName_lower hName with
    ⟨c, rest, hChars, hFirst⟩
  have hColon := Prefixes.not_mem_of_isName_lower hName
  have hGiven : q ≠ "" := by
    rintro rfl
    cases hChars
  have hCompact :=
    @compactName_eq scope q reference hColon hGiven hNode
  constructor
  · intro h
    have hBracketed := h.bracketed Session.start
    rw [resource_in_brackets, hCompact] at hBracketed
    cases hFound : scope.prefixes.get? (Text.lower q) with
    | none =>
        rw [hFound] at hBracketed
        cases hBracketed
    | some other =>
        rw [hFound] at hBracketed
        have hOther :
            some (Subject.iri i) =
              (Iri.parse? (other ++ reference)).map Subject.iri :=
          subjectNode_yields _ _ _ _ hBracketed
        rcases Option.map_eq_some_iff.mp hOther.symm with
          ⟨j, hParse, hSame⟩
        cases hSame
        have hText :=
          (Environment.eq_of_parse? hParse).symm.trans
            (Environment.eq_of_parse? hIri)
        have hAppend : other ++ reference = start ++ reference :=
          congrArg Iri.text hText
        have hStart : other = start := by
          rw [← String.toList_inj] at hAppend ⊢
          rw [String.toList_append, String.toList_append] at hAppend
          exact List.append_cancel_right hAppend
        rw [hStart]
  · intro hStart
    rw [hStart] at hCompact
    have hDone := hCompact.trans (subjectNode_of_parse? hIri)
    refine ⟨fun s => ?_, fun s => ?_, fun s => ?_⟩
    · rw [resource_of_compact hChars hFirst hReference, hDone]
      rfl
    · rw [resource_in_brackets, hDone]
      rfl
    · have hMem : (q ++ ":" ++ reference).toList.contains ':' = true := by
        simp
      unfold term
      rw [if_pos hMem, hDone]
      rfl

/- In brackets a name that is not mapped names nothing. -/
theorem resource_of_unmapped
    (hName : Prefixes.isName (Text.lower q).toList = true)
    (hNode : q ≠ "_")
    (hNone : scope.prefixes.get? (Text.lower q) = none)
    (s : Session) :
    resource scope ("[" ++ (q ++ ":" ++ reference) ++ "]") s =
      (.ok none, s) := by
  have hColon := Prefixes.not_mem_of_isName_lower hName
  have hGiven : q ≠ "" := by
    rintro rfl
    cases hName
  rw [resource_in_brackets, compactName_eq hColon hGiven hNode, hNone]
  rfl

end Forms

end Resolution

------------------------------------------------------------
-- Scopes in force
------------------------------------------------------------

namespace Evaluation

open Resolution

/-
  A scope that is in force after events: around the root,
  inside of an open element, or while the values of a next
  start tag are read.
-/
inductive InForce
    (first d : State) : Scope → Prop where
  | outer : InForce first d first.outer
  | element
      {e : Element}
      (hMem : e ∈ d.elements) :
      InForce first d e.scope
  | read
      {attributes : Entries}
      {s t : Session}
      {x : Scope}
      (hRead : readScope d.settings d.scope attributes s = (.ok x, t)) :
      InForce first d x

/- A name and its start that are declared, or given at the start. -/
def DeclaredOrGiven
    (given : Entries)
    (prefixes : Entries) : Prop :=
  ∀ p start, prefixes.get? p = some start →
    (Prefixes.isName p.toList = true ∧ Text.lower p = p) ∨
      given.get? p = some start

theorem declaredOrGiven_declare
    {media : MediaType}
    {attributes given : Entries}
    {outer inner : Environment}
    (hDeclare : Environment.declare media attributes outer = .ok inner)
    (hOuter : DeclaredOrGiven given outer.prefixes) :
    DeclaredOrGiven given inner.prefixes := by
  intro p start hStart
  rw [(Environment.declare_eq_ok hDeclare).1,
    Entries.get?_merge_reverse] at hStart
  rcases Option.or_eq_some_iff.mp hStart with hHere | ⟨_, hAround⟩
  · have hMem := List.mem_reverse.mp (Entries.mem_of_get? hHere)
    rcases List.mem_filter.mp hMem with ⟨hDeclared, hMappable⟩
    have hLowered : ∃ name, Text.lower name = p := by
      rcases List.mem_append.mp hDeclared with hSingle | hMany
      · rcases List.mem_filterMap.mp hSingle with ⟨entry, _, hEntry⟩
        rcases Option.bind_eq_some_iff.mp hEntry with ⟨name, _, hName⟩
        rcases Option.map_eq_some_iff.mp hName with ⟨_, _, hPair⟩
        exact ⟨name, congrArg Prod.fst hPair⟩
      · unfold Environment.many at hMany
        split at hMany
        · cases hMany
        · rcases List.mem_map.mp hMany with ⟨pair, _, hPair⟩
          exact ⟨pair.1, congrArg Prod.fst hPair⟩
    have hName : Prefixes.isName p.toList = true := by
      unfold Prefixes.isMappable at hMappable
      exact (Bool.and_eq_true _ _ ▸ hMappable).2
    rcases hLowered with ⟨name, rfl⟩
    exact .inl ⟨hName, Prefixes.lower_lower hName⟩
  · exact hOuter p start hAround

theorem declaredOrGiven_foldrM
    {media : MediaType}
    {given : Entries}
    {path : List Entries}
    {outer inner : Environment}
    (hFold : path.foldrM (Environment.declare media) outer = .ok inner)
    (hOuter : DeclaredOrGiven given outer.prefixes) :
    DeclaredOrGiven given inner.prefixes := by
  induction path generalizing inner with
  | nil =>
      cases hFold
      exact hOuter
  | cons attributes path ih =>
      rw [List.foldrM_cons] at hFold
      cases hRest : path.foldrM (Environment.declare media) outer with
      | error fault =>
          rw [hRest] at hFold
          cases hFold
      | ok middle =>
          rw [hRest] at hFold
          exact declaredOrGiven_declare hFold (ih hRest)

section Runs

variable {settings : Settings} {base : String} {first d : State}
variable {events : List Event} {sections : List (List Note)}
variable {x : Scope}

/- Names in scope are declared ones, or given at the start. -/
theorem declaredOrGiven_of_run
    (hStart : Evaluation.start settings base = .ok first)
    (hRun : Run first events sections d)
    (hScope : InForce first d x) :
    DeclaredOrGiven settings.options.prefixes x.prefixes := by
  rcases environment_of_run hStart hRun with ⟨document, _, _, hElements⟩
  rcases start_eq_ok hStart with ⟨_, _, _, _, rfl⟩
  have hGiven :
      DeclaredOrGiven settings.options.prefixes
        settings.options.prefixes :=
    fun p start => .inr
  have hElement :
      ∀ e ∈ d.elements,
        DeclaredOrGiven settings.options.prefixes e.scope.prefixes := by
    intro e hMem
    rcases List.getElem?_of_mem hMem with ⟨i, hAt⟩
    exact declaredOrGiven_foldrM (hElements i e hAt).1 hGiven
  cases hScope with
  | outer => exact hGiven
  | element hMem => exact hElement _ hMem
  | read hRead =>
      have hDeclares := readScope_declares _ _ _ _ _ _ hRead
      refine declaredOrGiven_declare hDeclares ?_
      change DeclaredOrGiven settings.options.prefixes d.scope.prefixes
      rw [scope_eq_innermost, (aligned_of_run rfl hRun).1]
      cases hOpen : d.elements with
      | nil => exact hGiven
      | cons e rest => exact hElement e (hOpen ▸ List.mem_cons_self)

/-
  A name in scope is in lower case, or it is one that the
  document starts with. In any case of it, all forms of a
  compact name give the IRI that its start leads to exactly if
  the name in lower case is mapped to that start, which is so
  for any name in lower case; and if it is not mapped at all,
  the form in brackets names nothing.
-/
theorem forms_name_in_any_case
    (hNames :
      ∀ name ∈ Entries.keys settings.options.prefixes,
        Prefixes.isName name.toList = true)
    (hStart : Evaluation.start settings base = .ok first)
    (hRun : Run first events sections d)
    (hScope : InForce first d x)
    {p start : String}
    (hPrefix : x.prefixes.get? p = some start) :
    (Text.lower p = p ∨
        settings.options.prefixes.get? p = some start) ∧
      ∀ q reference,
        Text.lower q = Text.lower p →
          q ≠ "_" →
          (∀ c ∈ reference.toList, Text.isBlank c = false) →
          (Iri.parse? (start ++ reference)).isSome = true →
            (FormsName x q reference ⟨start ++ reference⟩ ↔
              x.prefixes.get? (Text.lower p) = some start) ∧
            (x.prefixes.get? (Text.lower p) = none →
              ∀ s,
                resource x ("[" ++ (q ++ ":" ++ reference) ++ "]") s =
                  (.ok none, s)) := by
  have hKnown := declaredOrGiven_of_run hStart hRun hScope p start hPrefix
  have hName : Prefixes.isName p.toList = true := by
    rcases hKnown with hDeclared | hGiven
    · exact hDeclared.1
    · refine hNames p ((Entries.has_eq_true_iff _ _).mp ?_)
      unfold Entries.has
      rw [hGiven]
      rfl
  refine ⟨hKnown.imp_left And.right, ?_⟩
  intro q reference hCase hNode hReference hIri
  have hLower : Prefixes.isName (Text.lower q).toList = true := by
    rw [hCase]
    exact Prefixes.isName_lower hName
  rcases Option.isSome_iff_exists.mp hIri with ⟨i, hParse⟩
  rw [← hCase, ← Environment.eq_of_parse? hParse]
  exact ⟨formsName_iff hLower hNode hReference hParse,
    fun hNone => resource_of_unmapped hLower hNode hNone⟩

end Runs

/- That names are alike in any case, however they were given. -/
def NamesInAnyCase : Prop :=
  ∀ settings base first events sections d x,
    (∀ name ∈ Entries.keys settings.options.prefixes,
      Prefixes.isName name.toList = true) →
    ((Entries.keys settings.options.prefixes).map Text.lower).Nodup →
    Evaluation.start settings base = .ok first →
    Run first events sections d →
    InForce first d x →
      ∀ p start, x.prefixes.get? p = some start →
        ∀ q reference,
          Text.lower q = Text.lower p →
          q ≠ "_" →
          (∀ c ∈ reference.toList, Text.isBlank c = false) →
          (Iri.parse? (start ++ reference)).isSome = true →
            FormsName x q reference ⟨start ++ reference⟩

namespace Capital

/- One name that a document starts with is in capital letters. -/
def settings : Settings :=
  ⟨.html, ⟨.members, true, [("EX", "http://ex.org/"),
    ("f", "http://f/")], []⟩⟩

def first : State :=
  State.initial settings "http://ex/" ⟨"http://ex/"⟩

/- An element that declares another name in capital letters. -/
def events : List Event :=
  [.opened "p" [("xmlns:DC", "http://dc/")] 0]

/- The scope inside of that element. -/
def scope : Scope where
  base := "http://ex/"
  subject := some (.iri ⟨"http://ex/"⟩)
  object := some (.iri ⟨"http://ex/"⟩)
  prefixes :=
    [("EX", "http://ex.org/"), ("f", "http://f/"), ("dc", "http://dc/")]
  terms := []
  vocab := none
  language := none
  list := 1
  incomplete := []

theorem names :
    ∀ name ∈ Entries.keys settings.options.prefixes,
      Prefixes.isName name.toList = true := by
  decide +kernel

theorem start_eq :
    Evaluation.start settings "http://ex/" = .ok first :=
  start_of_document (by decide +kernel) (by decide +kernel) settings

theorem run :
    Run first events (Extraction.evaluate first events).1
      (first.through events) :=
  run_through (by decide +kernel)

theorem inForce :
    InForce first (first.through events) scope := by
  have hScopes :
      (first.through events).elements.map (·.scope) = [scope] := by
    decide +kernel
  have hMem : scope ∈ (first.through events).elements.map (·.scope) := by
    rw [hScopes]
    exact List.mem_singleton_self scope
  rcases List.mem_map.mp hMem with ⟨e, hElement, hScope⟩
  rw [← hScope]
  exact .element hElement

theorem references :
    Text.IsWord "a:b".toList ∧ Text.IsWord "r".toList := by
  decide +kernel

end Capital

open Capital in
/- The declared name is found in any case, the other one in none. -/
theorem capital_name_unmapped :
    FormsName scope "Dc" "a:b" ⟨"http://dc/" ++ "a:b"⟩ ∧
      ¬ FormsName scope "EX" "r" ⟨"http://ex.org/" ++ "r"⟩ ∧
      ∀ s, resource scope "[EX:r]" s = (.ok none, s) := by
  have hSmall : scope.prefixes.get? "dc" = some "http://dc/" := by
    decide +kernel
  have hCapital : scope.prefixes.get? "EX" = some "http://ex.org/" := by
    decide +kernel
  rcases forms_name_in_any_case names start_eq run inForce hSmall with
    ⟨_, hDeclared⟩
  rcases forms_name_in_any_case names start_eq run inForce hCapital with
    ⟨_, hGiven⟩
  rcases hDeclared "Dc" "a:b" (by decide +kernel) (by decide)
    references.1.chars (by decide +kernel) with ⟨hForms, _⟩
  rcases hGiven "EX" "r" rfl (by decide) references.2.chars
    (by decide +kernel) with ⟨hNever, hNone⟩
  refine ⟨hForms.mpr (by decide +kernel), ?_,
    hNone (by decide +kernel)⟩
  intro hNamed
  have hMapped := hNever.mp hNamed
  revert hMapped
  decide +kernel

open Capital in
/- A name in capital letters that a document starts with is lost. -/
theorem not_namesInAnyCase :
    ¬ NamesInAnyCase := by
  intro h
  have hForms :=
    h settings "http://ex/" first [] [] first first.outer names
      (by decide +kernel) start_eq (.nil first) .outer "EX"
      "http://ex.org/" (by decide +kernel) "EX" "r" rfl (by decide)
      references.2.chars (by decide +kernel)
  have hNone :
      (resource first.outer "[EX:r]" Session.start).1 = .ok none := by
    decide +kernel
  have hSome := congrArg Prod.fst (hForms.bracketed Session.start)
  cases hNone.symm.trans hSome

end Evaluation
end LinkedMarkup
