import LinkedMarkup.Proofs.Evaluation.Resources
import LinkedMarkup.Proofs.Iri.Components
import LinkedMarkup.Proofs.Iri.Fragment

/-
  This file proves which references of a document to itself
  stay in it. A fragment is put on the base by taking the base
  apart and putting it together again, but only if its scheme
  is known to be hierarchical. What is empty in the base is
  lost on the way, and blanks at the end of the fragment are.

  Key definitions include:
    * `Reference.EndsEmpty`
    * `Reference.rejoined`
    * `Iri.Components.document`
    * `Iri.Components.normal`
    * `Iri.Components.IsRegular`
    * `Iri.documentOf`
    * `Iri.StaysIn`

  Main declarations:
    * `Reference.rejoined_eq_iff`
    * `Iri.Components.IsValid.isRegular_iff`
    * `Iri.resolve_document`
    * `Iri.resolve_fragment`
    * `Iri.keeps_document_iff`
    * `Iri.same_document_references`
-/

namespace LinkedMarkup

------------------------------------------------------------
-- Parameters
------------------------------------------------------------

namespace Reference

@[simp]
theorem marked_nil
    (mark : Char) :
    marked mark [] = [] :=
  rfl

@[simp]
theorem marked_cons
    (mark c : Char)
    (cs : List Char) :
    marked mark (c :: cs) = mark :: c :: cs :=
  rfl

/- A path whose last segment has nothing after its first semicolon. -/
def EndsEmpty
    (path : List Char) : Prop :=
  ∃ segment,
    ';' ∉ segment ∧ path.rtakeWhile (· != '/') = segment ++ [';']

/- A path whose parameters were taken off and put back. -/
def rejoined
    (path : List Char) : List Char :=
  (splitParams path).1 ++ marked ';' (splitParams path).2

/- Without a semicolon in its last segment, a path stays as it is. -/
theorem rejoined_of_cut_none
    {path segment : List Char}
    (h :
      Text.cutAtChar ';' (path.rtakeWhile (· != '/')) =
        (segment, none)) :
    rejoined path = path := by
  have hSplit : splitParams path = (path, []) := by
    unfold splitParams
    dsimp only
    rw [← List.rtakeWhile, h]
  unfold rejoined
  rw [hSplit]
  exact List.append_nil path

/- Otherwise its parameters follow the semicolon, if there are any. -/
theorem rejoined_of_cut_some
    {path segment params : List Char}
    (h :
      Text.cutAtChar ';' (path.rtakeWhile (· != '/')) =
        (segment, some params)) :
    rejoined path =
      path.take (path.length -
          (path.rtakeWhile (· != '/')).length) ++
        (segment ++ marked ';' params) := by
  have hSplit :
      splitParams path =
        (path.take (path.length -
          (path.rtakeWhile (· != '/')).length) ++ segment, params) := by
    unfold splitParams
    dsimp only
    rw [← List.rtakeWhile, h]
  unfold rejoined
  rw [hSplit, List.append_assoc]

/- Parameters are put back, but for a semicolon without any. -/
theorem rejoined_cases
    (path : List Char) :
    (rejoined path = path ∧ ¬EndsEmpty path) ∨
      (path = rejoined path ++ [';'] ∧ EndsEmpty path) := by
  have hWhole :=
    List.suffix_iff_eq_append.mp
      (List.rtakeWhile_suffix (· != '/') path)
  rcases Text.cutAtChar_cases ';' (path.rtakeWhile (· != '/')) with
    ⟨segment, params, hSegment, hLast, hCut⟩
  cases params with
  | none =>
      refine .inl ⟨rejoined_of_cut_none hCut, ?_⟩
      rintro ⟨front, _, hEnds⟩
      rw [hLast, Text.afterMark, List.append_nil] at hEnds
      exact hSegment (by rw [hEnds]; simp)
  | some params =>
      rw [Text.afterMark] at hLast
      rw [rejoined_of_cut_some hCut]
      cases params with
      | nil =>
          refine .inr ⟨?_, segment, hSegment, hLast⟩
          rw [marked_nil, List.append_nil, List.append_assoc, ← hLast]
          exact hWhole.symm
      | cons p ps =>
          refine .inl ⟨?_, ?_⟩
          · rw [marked_cons, ← hLast]
            exact hWhole
          · rintro ⟨front, hFront, hEnds⟩
            rw [hLast] at hEnds
            cases (Text.eq_of_append_cons hSegment hFront hEnds).2

theorem rejoined_eq_iff
    {path : List Char} :
    rejoined path = path ↔ ¬EndsEmpty path := by
  rcases rejoined_cases path with ⟨hSame, hNot⟩ | ⟨hLonger, hEnds⟩
  · exact iff_of_true hSame hNot
  · refine iff_of_false (fun hSame => ?_) (fun hNot => hNot hEnds)
    rw [hSame] at hLonger
    simpa using congrArg List.length hLonger

/- A path that was put back is a front of the path. -/
theorem rejoined_isPrefix
    (path : List Char) :
    (rejoined path).IsPrefix path := by
  rcases rejoined_cases path with ⟨hSame, _⟩ | ⟨hLonger, _⟩
  · exact ⟨[], by rw [hSame, List.append_nil]⟩
  · exact ⟨[';'], hLonger.symm⟩

end Reference

------------------------------------------------------------
-- Known schemes
------------------------------------------------------------

namespace Reference

theorem isAmong_iff
    {schemes : List String}
    {scheme : List Char} :
    isAmong schemes scheme = true ↔
      ∃ known ∈ schemes, known.toList = scheme := by
  unfold isAmong
  rw [List.any_eq_true]
  simp only [beq_iff_eq]

/- Hierarchical schemes are in lower case, without a colon. -/
theorem lower_of_hierarchical
    {scheme : List Char}
    (h : isAmong hierarchicalSchemes scheme = true) :
    scheme.map Text.asciiLowerChar = scheme ∧ ':' ∉ scheme := by
  have hKnown :
      ∀ known ∈ hierarchicalSchemes,
        known.toList.map Text.asciiLowerChar = known.toList ∧
          ':' ∉ known.toList := by
    decide
  rcases isAmong_iff.mp h with ⟨known, hMem, rfl⟩
  exact hKnown known hMem

/- Hierarchical schemes have an authority. -/
theorem authority_of_hierarchical
    {scheme : List Char}
    (h : isAmong hierarchicalSchemes scheme = true) :
    isAmong authoritySchemes scheme = true := by
  have hKnown :
      ∀ known ∈ hierarchicalSchemes,
        isAmong authoritySchemes known.toList = true := by
    decide
  rcases isAmong_iff.mp h with ⟨known, hMem, rfl⟩
  exact hKnown known hMem

/- A path behind an authority, which starts with a slash. -/
def slashed
    (path : List Char) : List Char :=
  if !path.isEmpty && path.head? != some '/' then
    '/' :: path
  else
    path

theorem slashed_of_head
    {path : List Char}
    (h : ∀ d, path.head? = some d → d = '/') :
    slashed path = path := by
  unfold slashed
  cases path with
  | nil => rfl
  | cons d rest =>
      rw [h d rfl]
      rfl

/- The text of a reference with a fragment ends with it. -/
theorem join_fragment
    (r : Reference)
    (fragment : List Char) :
    join { r with fragment := fragment } =
      join { r with fragment := [] } ++ marked '#' fragment := by
  unfold join
  rw [marked_nil, List.append_nil]

end Reference

------------------------------------------------------------
-- Bases put together again
------------------------------------------------------------

namespace Iri.Components

open Reference

/- The IRI without its fragment. -/
def document
    (c : Components) : Components :=
  { c with fragment := none }

/- The scheme as references compare it. -/
def lowerScheme
    (c : Components) : List Char :=
  c.scheme.map Text.asciiLowerChar

/- The path after its parameters were taken off and put back. -/
def keptPath
    (c : Components) : List Char :=
  if isAmong paramSchemes c.lowerScheme then
    rejoined c.path
  else
    c.path

/- The query after it was taken off and put back. -/
def keptQuery
    (c : Components) : List Char :=
  marked '?' (c.query.getD [])

/-
  An authority and a path as they are put together again. A
  hierarchical IRI gets one even if it had none.
-/
def rebuilt
    (c : Components) : List Char :=
  '/' :: '/' :: (c.authority.getD [] ++ slashed c.keptPath)

/- The document after its IRI was taken apart and put together. -/
def normal
    (c : Components) : List Char :=
  join { c.reference with fragment := [] }

/-
  Parts that are the same after they were taken apart and put
  together: the scheme is a hierarchical one in lower case, the
  authority is given and readable, and neither the query nor
  parameters are given without any content.
-/
structure IsRegular
    (c : Components) : Prop where
  hierarchical : isAmong hierarchicalSchemes c.scheme = true
  authority : ∃ a, c.authority = some a ∧ ¬Ambiguous a
  params :
    isAmong paramSchemes c.scheme = true → ¬EndsEmpty c.path
  query : c.query ≠ some []

section Rebuilding

variable {c : Components}

theorem IsValid.document
    (h : c.IsValid) :
    c.document.IsValid :=
  { h with fragment := nofun }

/- The IRI with another fragment. -/
theorem IsValid.withFragment
    (h : c.IsValid)
    {fragment : List Char}
    (hFragment : allEncoded isFragmentChar fragment = true) :
    { c with fragment := some fragment }.IsValid :=
  { h with
    fragment := by
      rintro _ ⟨⟩
      exact hFragment }

/- A fragment follows the document. -/
theorem text_eq_document
    (c : Components) :
    c.text = c.document.text ++ Text.afterMark '#' c.fragment := by
  unfold text body tail document
  cases c.authority <;> simp [Text.afterMark]

theorem toList_document_hash
    (c : Components)
    (fragment : String) :
    (String.ofList c.document.text ++ "#" ++ fragment).toList =
      { c with fragment := some fragment.toList }.text := by
  have hText :=
    { c with fragment := some fragment.toList }.text_eq_document
  rw [hText, Text.afterMark]
  simp only [String.toList_append, String.toList_ofList,
    List.append_assoc]
  rfl

/- The document has no mark of a fragment. -/
theorem IsValid.hash_notMem_document
    (h : c.IsValid) :
    '#' ∉ c.document.text := by
  have hTail : '#' ∉ c.document.tail := by
    unfold tail Components.document
    rw [Text.afterMark, List.append_nil]
    exact h.hash_notMem_query
  intro hMem
  unfold text at hMem
  rcases List.mem_append.mp hMem with hScheme | hRest
  · have hChar := h.scheme.chars '#' hScheme
    revert hChar
    decide
  · rcases List.mem_cons.mp hRest with hColon | hBody
    · cases hColon
    · unfold body at hBody
      cases hAuthority : c.document.authority with
      | none =>
          rw [hAuthority] at hBody
          exact hTail hBody
      | some a =>
          rw [hAuthority] at hBody
          have hEnds := (h.authority a hAuthority).2 '#'
          simp only [List.mem_cons, List.mem_append] at hBody
          rcases hBody with hSlash | hSlash | hIn | hIn
          · cases hSlash
          · cases hSlash
          · exact absurd (hEnds hIn) (by decide)
          · exact hTail hIn

theorem keptPath_isPrefix
    (c : Components) :
    c.keptPath.IsPrefix c.path := by
  unfold keptPath
  split
  · exact rejoined_isPrefix c.path
  · exact List.prefix_rfl

theorem keptPath_eq_iff :
    c.keptPath = c.path ↔
      (isAmong paramSchemes c.lowerScheme = true →
        ¬EndsEmpty c.path) := by
  unfold keptPath
  split
  · next hParams => rw [rejoined_eq_iff, imp_iff_right hParams]
  · next hParams => exact iff_of_true rfl (fun h => absurd h hParams)

theorem keptQuery_eq_iff :
    c.keptQuery = Text.afterMark '?' c.query ↔ c.query ≠ some [] := by
  unfold keptQuery
  cases c.query with
  | none => exact iff_of_true rfl nofun
  | some q => cases q <;> simp [Text.afterMark]

theorem keptQuery_length_le
    (c : Components) :
    c.keptQuery.length ≤ (Text.afterMark '?' c.query).length := by
  unfold keptQuery
  cases c.query with
  | none => exact Nat.le_refl 0
  | some q => cases q <;> simp [Text.afterMark]

/- What is put together again of a hierarchical IRI. -/
theorem normal_eq
    (hHierarchical :
      isAmong hierarchicalSchemes c.lowerScheme = true)
    (hScheme : c.scheme ≠ []) :
    c.normal = c.lowerScheme ++ ':' :: (c.rebuilt ++ c.keptQuery) := by
  have hPath :
      c.reference.path ++ marked ';' c.reference.params =
        c.keptPath := by
    unfold reference withParams keptPath lowerScheme
    dsimp only
    split
    · rfl
    · exact List.append_nil _
  have hEmpty : c.lowerScheme.isEmpty = false := by
    unfold lowerScheme
    simpa using hScheme
  have hFields :
      c.reference.scheme = c.lowerScheme ∧
        c.reference.authority = c.authority.getD [] ∧
          c.reference.query = c.query.getD [] :=
    ⟨rfl, rfl, rfl⟩
  unfold normal join rebuilt slashed keptQuery
  dsimp only
  rw [hPath, hFields.1, hFields.2.1, hFields.2.2,
    authority_of_hierarchical hHierarchical, hEmpty]
  simp only [Bool.not_false, Bool.and_self, Bool.or_true,
    Bool.true_or, if_true, Bool.false_eq_true, if_false, marked_nil,
    List.append_nil, List.append_assoc, List.cons_append]

/- With an authority, what is put together again is the same. -/
theorem IsValid.rebuilt_eq_iff
    (h : c.IsValid)
    {a : List Char}
    (hAuthority : c.authority = some a) :
    c.rebuilt ++ c.keptQuery = c.document.body ↔
      c.keptPath = c.path ∧
        c.keptQuery = Text.afterMark '?' c.query := by
  have hBody :
      c.document.body =
        '/' :: '/' :: (a ++ (c.path ++ Text.afterMark '?' c.query)) := by
    unfold body tail Components.document
    rw [hAuthority]
    simp [Text.afterMark]
  have hRooted : slashed c.keptPath = c.keptPath := by
    refine slashed_of_head (fun d hHead => ?_)
    refine h.rooted (by simp [hAuthority]) d ?_
    rcases c.keptPath_isPrefix with ⟨more, hMore⟩
    rw [← hMore]
    cases hKept : c.keptPath with
    | nil =>
        rw [hKept] at hHead
        cases hHead
    | cons e rest =>
        rw [hKept] at hHead
        exact hHead
  have hPathLe := c.keptPath_isPrefix.length_le
  have hQueryLe := c.keptQuery_length_le
  rw [hBody]
  unfold rebuilt
  rw [hAuthority, Option.getD_some, hRooted]
  simp only [List.cons_append, List.append_assoc, List.cons.injEq,
    true_and, List.append_cancel_left_eq]
  constructor
  · intro hEq
    have hLength := congrArg List.length hEq
    rw [List.length_append, List.length_append] at hLength
    exact List.append_inj hEq (by omega)
  · rintro ⟨hPath, hQuery⟩
    rw [hPath, hQuery]

/- Without an authority, one is put in. -/
theorem IsValid.rebuilt_ne
    (h : c.IsValid)
    (hAuthority : c.authority = none) :
    c.rebuilt ++ c.keptQuery ≠ c.document.body := by
  have hBody : c.document.body = c.document.tail := by
    unfold body Components.document
    rw [hAuthority]
  rw [hBody]
  exact fun hEq => h.document.tail_ne_slashes hAuthority _ hEq.symm

theorem IsValid.colon_notMem_scheme
    (h : c.IsValid) :
    ':' ∉ c.scheme := by
  intro hMem
  have hChar := h.scheme.chars ':' hMem
  revert hChar
  decide

/- A hierarchical IRI is put together again if it is regular. -/
theorem IsValid.isRegular_iff
    (h : c.IsValid) :
    c.IsRegular ↔
      isAmong hierarchicalSchemes c.lowerScheme = true ∧
        ¬Ambiguous (c.authority.getD []) ∧
          c.normal = c.document.text := by
  rcases h.scheme.letter with ⟨first, more, hFirst, _⟩
  have hScheme : c.scheme ≠ [] := by
    simp [hFirst]
  constructor
  · intro hRegular
    have hLower : c.lowerScheme = c.scheme :=
      (lower_of_hierarchical hRegular.hierarchical).1
    have hKnown :
        isAmong hierarchicalSchemes c.lowerScheme = true := by
      rw [hLower]
      exact hRegular.hierarchical
    rcases hRegular.authority with ⟨a, hAuthority, hReadable⟩
    refine ⟨hKnown, by rw [hAuthority]; exact hReadable, ?_⟩
    have hRebuilt : c.rebuilt ++ c.keptQuery = c.document.body := by
      refine (h.rebuilt_eq_iff hAuthority).mpr ⟨?_, ?_⟩
      · rw [keptPath_eq_iff, hLower]
        exact hRegular.params
      · exact keptQuery_eq_iff.mpr hRegular.query
    rw [normal_eq hKnown hScheme, hRebuilt, hLower]
    rfl
  · rintro ⟨hKnown, hReadable, hNormal⟩
    rw [normal_eq hKnown hScheme] at hNormal
    rcases Text.eq_of_append_cons (lower_of_hierarchical hKnown).2
        h.colon_notMem_scheme hNormal with
      ⟨hLower, hBody⟩
    cases hAuthority : c.authority with
    | none => exact absurd hBody (h.rebuilt_ne hAuthority)
    | some a =>
        rcases (h.rebuilt_eq_iff hAuthority).mp hBody with
          ⟨hPath, hQuery⟩
        have hParams := keptPath_eq_iff.mp hPath
        rw [hLower] at hKnown hParams
        rw [hAuthority] at hReadable
        exact ⟨hKnown, ⟨a, hAuthority, hReadable⟩, hParams,
          keptQuery_eq_iff.mp hQuery⟩

end Rebuilding

end Iri.Components

------------------------------------------------------------
-- References of a document to itself
------------------------------------------------------------

namespace Text

/- A fragment only loses the blanks at its end. -/
theorem trim_hash
    (fragment : String) :
    (trim ("#" ++ fragment)).toList =
      '#' :: fragment.toList.rdropWhile isBlank := by
  have hText : ("#" ++ fragment).toList = '#' :: fragment.toList := by
    rw [String.toList_append]
    rfl
  have hLeft :
      trimLeft ('#' :: fragment.toList) = '#' :: fragment.toList := by
    unfold trimLeft
    rw [List.dropWhile_cons, if_neg (by decide)]
  unfold trim
  rw [String.toList_ofList, hText]
  unfold trimChars
  rw [hLeft, List.reverse_cons, List.dropWhile_append]
  unfold List.rdropWhile
  split
  · next hEmpty =>
      rw [List.isEmpty_iff.mp hEmpty]
      decide
  · rw [List.reverse_append]
    rfl

end Text

namespace Iri

open Reference

section Resolving

variable {c : Components} {base fragment : String}

/- The empty reference takes the fragment off the base. -/
theorem resolve_document
    (h : c.IsValid)
    (hBase : c.text = base.toList)
    (hReadable : ¬Ambiguous (c.authority.getD [])) :
    resolve base "" =
      .ok
        (if c.fragment.isSome then
          String.ofList c.normal
        else
          base) := by
  have hTrim : Text.trim "" = "" := by decide
  have hMark : base.toList.contains '#' = c.fragment.isSome := by
    rw [← hBase, c.text_eq_document, Bool.eq_iff_iff,
      List.contains_iff_mem]
    cases c.fragment with
    | none =>
        rw [Text.afterMark, List.append_nil]
        exact iff_of_false h.hash_notMem_document Bool.false_ne_true
    | some f => simp [Text.afterMark]
  unfold resolve
  rw [hTrim]
  dsimp only
  rw [if_pos (by decide)]
  unfold withoutFragment
  rw [hMark, ← hBase, h.split_text hReadable]
  cases c.fragment <;> rfl

/- A fragment that is read as a reference. -/
theorem split_hash
    {scheme cs : List Char}
    (h : ∀ d ∈ cs, IsVisible d) :
    split scheme ('#' :: cs) = .ok ⟨scheme, [], [], [], [], cs⟩ := by
  have hVisible : ∀ d ∈ '#' :: cs, IsVisible d := by
    intro d hMem
    rcases List.mem_cons.mp hMem with rfl | hIn
    · decide
    · exact h d hIn
  have hScheme :
      schemed scheme (clean ('#' :: cs)) = (scheme, '#' :: cs) := by
    rw [Components.clean_of_visible hVisible]
    rfl
  have hParams : withParams scheme [] = ([], []) := by
    unfold withParams
    split <;> decide
  have hCut :
      Text.cutAtChar '#' (afterAuthority ('#' :: cs)) = ([], some cs) :=
    Text.cutAtChar_append List.not_mem_nil cs
  have hQuery : Text.cutAtChar '?' [] = ([], none) := rfl
  rw [split_of_cuts hScheme (fun h => h.ne_nil rfl) hCut hQuery,
    hParams]
  rfl

/- A fragment is joined if the scheme is known to be hierarchical. -/
theorem against_fragment
    (h : c.IsValid)
    (hReadable : ¬Ambiguous (c.authority.getD []))
    {cs : List Char}
    (hVisible : ∀ d ∈ cs, IsVisible d) :
    against c.text ('#' :: cs) =
      .ok (if isAmong hierarchicalSchemes c.lowerScheme then
          c.normal ++ marked '#' cs
        else
          '#' :: cs) := by
  have hText : c.text.isEmpty = false := by
    unfold Components.text
    simp
  unfold against
  rw [hText, List.isEmpty_cons, h.split_text hReadable]
  dsimp only
  rw [show c.reference.scheme = c.lowerScheme from rfl,
    split_hash hVisible]
  by_cases hKnown : isAmong hierarchicalSchemes c.lowerScheme = true
  · simp only [hKnown, authority_of_hierarchical hKnown,
      bne_self_eq_false, Bool.not_true, Bool.or_self,
      Bool.false_eq_true, if_false, List.isEmpty_nil, Bool.and_false,
      Bool.and_self, if_true]
    exact congrArg Except.ok (join_fragment c.reference cs)
  · simp [hKnown]

/-
  A fragment is put on the base if its scheme is known to be
  hierarchical. Otherwise it stays as it is.
-/
theorem resolve_fragment
    (h : c.IsValid)
    (hBase : c.text = base.toList)
    (hReadable : ¬Ambiguous (c.authority.getD []))
    (hVisible : ∀ d ∈ fragment.toList, IsVisible d) :
    resolve base ("#" ++ fragment) =
      .ok (if isAmong hierarchicalSchemes c.lowerScheme then
          String.ofList (c.normal ++
            marked '#' (fragment.toList.rdropWhile Text.isBlank))
        else
          Text.trim ("#" ++ fragment)) := by
  have hTrim := Text.trim_hash fragment
  unfold resolve
  generalize Text.trim ("#" ++ fragment) = trimmed at hTrim ⊢
  have hGiven : trimmed ≠ "" := by
    rintro rfl
    cases hTrim
  have hRelative : (scheme? trimmed.toList).isSome = false := by
    rw [hTrim]
    rfl
  have hAgainst :=
    against_fragment h hReadable
      (fun d hMem =>
        hVisible d
          ((List.rdropWhile_prefix Text.isBlank _).subset hMem))
  rw [hBase, ← hTrim] at hAgainst
  dsimp only
  rw [if_neg (by simpa using hGiven), if_neg (by rw [hRelative]; decide),
    hAgainst]
  dsimp only
  split
  · rfl
  · rw [String.ofList_toList]

/- What was put together again has no mark of a fragment. -/
theorem Components.IsValid.hash_notMem_normal
    (h : c.IsValid)
    (hReadable : ¬Ambiguous (c.authority.getD [])) :
    '#' ∉ c.normal := by
  rcases hash_not_mem_split (h.split_text hReadable) with
    ⟨hScheme, hAuthority, hPath, hParams, hQuery⟩
  exact hash_not_mem_join hScheme hAuthority hPath hParams hQuery

/- A fragment keeps its end if the last character is no blank. -/
theorem rdropWhile_eq_iff
    {cs : List Char} :
    cs.rdropWhile Text.isBlank = cs ↔
      ∀ d ∈ cs.getLast?, Text.isBlank d = false := by
  rw [List.rdropWhile_eq_self_iff]
  constructor
  · intro h d hLast
    rcases List.getLast?_eq_some_iff.mp hLast with ⟨front, rfl⟩
    simpa using h (by simp)
  · intro h hGiven
    simpa using h _ (List.getLast?_eq_getLast_of_ne_nil hGiven)

/- A fragment only resolves against a readable authority. -/
theorem readable_of_resolve_fragment
    (h : c.IsValid)
    (hBase : c.text = base.toList)
    {target : String}
    (hResolve : resolve base ("#" ++ fragment) = .ok target) :
    ¬Ambiguous (c.authority.getD []) := by
  intro hAmbiguous
  have hUnresolvable :
      Unresolvable base (Text.trim ("#" ++ fragment)) := by
    refine .base ?_ ?_ ?_
    · intro hEmpty
      have hTrim := Text.trim_hash fragment
      rw [hEmpty] at hTrim
      cases hTrim
    · rw [Text.trim_hash]
      rfl
    · rw [← hBase]
      exact h.unreadable_iff.mpr hAmbiguous
  rcases resolve_error_iff.mpr hUnresolvable with ⟨fault, hError⟩
  rw [hError] at hResolve
  cases hResolve

/-
  A base keeps its document and a fragment of it exactly if
  its parts are regular and no blank ends the fragment.
-/
theorem keeps_document_iff
    (h : c.IsValid)
    (hBase : c.text = base.toList)
    (hGiven : fragment ≠ "")
    (hVisible : ∀ d ∈ fragment.toList, IsVisible d) :
    (resolve base "" = .ok (String.ofList c.document.text) ∧
        resolve base ("#" ++ fragment) =
          .ok (String.ofList c.document.text ++ "#" ++ fragment)) ↔
      c.IsRegular ∧
        ∀ d ∈ fragment.toList.getLast?, Text.isBlank d = false := by
  have hTarget :
      (String.ofList c.document.text ++ "#" ++ fragment).toList =
        c.document.text ++ '#' :: fragment.toList := by
    simp [String.toList_append]
  rw [h.isRegular_iff, ← rdropWhile_eq_iff]
  constructor
  · rintro ⟨_, hFragment⟩
    have hReadable := readable_of_resolve_fragment h hBase hFragment
    rw [resolve_fragment h hBase hReadable hVisible] at hFragment
    have hChars :=
      congrArg String.toList (Except.ok.inj hFragment)
    rw [hTarget] at hChars
    by_cases hKnown : isAmong hierarchicalSchemes c.lowerScheme = true
    · rw [if_pos hKnown, String.toList_ofList] at hChars
      cases hKept : fragment.toList.rdropWhile Text.isBlank with
      | nil =>
          rw [hKept, marked_nil, List.append_nil] at hChars
          refine absurd ?_ (h.hash_notMem_normal hReadable)
          rw [hChars]
          simp
      | cons d rest =>
          rw [hKept, marked_cons] at hChars
          rcases Text.eq_of_append_cons
              (h.hash_notMem_normal hReadable) h.hash_notMem_document
              hChars with
            ⟨hNormal, hSame⟩
          exact ⟨⟨hKnown, hReadable, hNormal⟩, hSame⟩
    · rw [if_neg hKnown, Text.trim_hash] at hChars
      refine absurd ?_ h.hash_notMem_document
      rcases h.document.scheme.letter with ⟨first, more, hFirst, _⟩
      unfold Components.text at hChars ⊢
      rw [hFirst] at hChars ⊢
      simp only [List.cons_append] at hChars ⊢
      rw [(List.cons.inj hChars).1]
      exact List.mem_cons_self
  · rintro ⟨⟨hKnown, hReadable, hNormal⟩, hKept⟩
    constructor
    · rw [resolve_document h hBase hReadable, hNormal]
      split
      · rfl
      · next hNone =>
          have hSame := c.text_eq_document
          rw [Option.not_isSome_iff_eq_none.mp hNone, Text.afterMark,
            List.append_nil, hBase] at hSame
          rw [← hSame, String.ofList_toList]
    · rw [resolve_fragment h hBase hReadable hVisible, if_pos hKnown,
        hKept, hNormal]
      refine congrArg Except.ok (String.toList_injective ?_)
      rw [hTarget, String.toList_ofList]
      cases hChars : fragment.toList with
      | nil => exact absurd (String.toList_injective hChars) hGiven
      | cons d rest => rfl

end Resolving

end Iri

------------------------------------------------------------
-- What they name
------------------------------------------------------------

namespace Iri

open Reference

/- A base with just its fragment removed. -/
def documentOf
    (base : String) : String :=
  String.ofList (Text.cutAtChar '#' base.toList).1

/-
  A base whose document keeps a fragment: the empty reference
  gives the document, the fragment gives it with the fragment,
  and that is also what `about` and `resource` name.
-/
structure StaysIn
    (base fragment : String) : Prop where
  empty : resolve base "" = .ok (documentOf base)
  mark :
    resolve base ("#" ++ fragment) =
      .ok (documentOf base ++ "#" ++ fragment)
  named :
    ∀ (x : Environment) (labels : NodeSupply),
      x.base = base →
        x.IsReference ("#" ++ fragment) →
          x.resource? labels "" = some (.iri ⟨documentOf base⟩) ∧
            x.resource? labels ("#" ++ fragment) =
              some (.iri ⟨documentOf base ++ "#" ++ fragment⟩)

/- A reference names what it resolves to, if that is an IRI. -/
theorem resource?_of_resolve
    {x : Environment}
    {reference target : String}
    (labels : NodeSupply)
    (hReference : x.IsReference reference)
    (hResolve : resolve x.base reference = .ok target) :
    x.resource? labels reference =
      if isAbsolute target.toList = true then
        some (.iri ⟨target⟩)
      else
        none := by
  rw [Environment.resource?_of_reference hReference, hResolve,
    Except.toOption, Option.bind_some, parse?]
  split <;> rfl

/- Every base keeps every fragment in its document. -/
def FragmentsStay : Prop :=
  ∀ base fragment,
    isAbsolute base.toList = true →
      fragment ≠ "" →
        allEncoded isFragmentChar fragment.toList = true →
          StaysIn base fragment

/-
  A base keeps a fragment exactly if its scheme is known to be
  hierarchical and its parts lose nothing when they are put
  together again, and no blank ends the fragment. With a scheme
  that is not known to be, a fragment stays a mere fragment,
  and names nothing.
-/
theorem same_document_references
    {base fragment : String}
    (hBase : isAbsolute base.toList = true)
    (hGiven : fragment ≠ "")
    (hFragment :
      allEncoded isFragmentChar fragment.toList = true) :
    (StaysIn base fragment ↔
        (Components.of base.toList).IsRegular ∧
          ∀ d ∈ fragment.toList.getLast?, Text.isBlank d = false) ∧
      (isAmong hierarchicalSchemes
            (Components.of base.toList).lowerScheme =
          false →
        ¬Unreadable base.toList →
          resolve base ("#" ++ fragment) =
              .ok (Text.trim ("#" ++ fragment)) ∧
            ∀ (x : Environment) (labels : NodeSupply),
              x.base = base →
                x.IsReference ("#" ++ fragment) →
                  x.resource? labels ("#" ++ fragment) = none) := by
  rcases isValid_of_isAbsolute hBase with ⟨hValid, hText⟩
  generalize Components.of base.toList = c at hValid hText ⊢
  have hVisible :=
    visible_of_allEncoded (fun _ => visible_of_isFragmentChar) hFragment
  have hDocument : documentOf base = String.ofList c.document.text := by
    unfold documentOf
    rw [← hText, c.text_eq_document,
      Text.cutAtChar_afterMark hValid.hash_notMem_document]
  have hKeeps :=
    keeps_document_iff hValid hText hGiven hVisible
  rw [← hDocument] at hKeeps
  refine ⟨⟨fun h => hKeeps.mp ⟨h.empty, h.mark⟩, ?_⟩, ?_⟩
  · intro hRegular
    rcases hKeeps.mpr hRegular with ⟨hEmpty, hMark⟩
    refine ⟨hEmpty, hMark, ?_⟩
    rintro x labels rfl hReference
    constructor
    · have hIri : isAbsolute (documentOf x.base).toList = true := by
        rw [hDocument, String.toList_ofList]
        exact hValid.document.isAbsolute_text
      rw [resource?_of_resolve labels x.isReference_empty hEmpty,
        if_pos hIri]
    · have hIri :
          isAbsolute (documentOf x.base ++ "#" ++ fragment).toList =
            true := by
        rw [hDocument, c.toList_document_hash]
        exact (hValid.withFragment hFragment).isAbsolute_text
      rw [resource?_of_resolve labels hReference hMark, if_pos hIri]
  · intro hOpaque hReadable
    rw [← hText, hValid.unreadable_iff] at hReadable
    have hResolve :
        resolve base ("#" ++ fragment) =
          .ok (Text.trim ("#" ++ fragment)) := by
      rw [resolve_fragment hValid hText hReadable hVisible, hOpaque]
      rfl
    refine ⟨hResolve, ?_⟩
    rintro x labels rfl hReference
    have hNone :
        ¬isAbsolute (Text.trim ("#" ++ fragment)).toList = true := by
      rw [Text.trim_hash]
      exact Bool.false_ne_true
    rw [resource?_of_resolve labels hReference hResolve, if_neg hNone]

/- A fragment of a web page, and a mere fragment of a name. -/
theorem fragment_of_page_and_name :
    StaysIn "http://ex/a;p?q#old" "f" ∧
      resolve "urn:x:y" "#f" = .ok "#f" ∧
        ∀ (x : Environment) (labels : NodeSupply),
          x.base = "urn:x:y" → x.IsReference "#f" →
            x.resource? labels "#f" = none := by
  have hPage :=
    @same_document_references "http://ex/a;p?q#old" "f"
      (by decide) (by decide) (by decide)
  have hName :=
    @same_document_references "urn:x:y" "f"
      (by decide) (by decide) (by decide)
  refine ⟨hPage.1.mpr ⟨⟨by decide, ⟨"ex".toList, by decide, ?_⟩, ?_,
    by decide⟩, ?_⟩, hName.2 (by decide) ?_⟩
  · exact checkAuthority_ok_iff.mp rfl
  · intro _
    exact rejoined_eq_iff.mp (by decide)
  · rintro d ⟨⟩
    decide
  · have hSplit :
        split [] "urn:x:y".toList =
          .ok ⟨"urn".toList, [], "x:y".toList, [], [], []⟩ := by
      rfl
    exact not_unreadable_of_split hSplit

/- A name that is not known to be hierarchical keeps no fragment. -/
theorem not_fragmentsStay :
    ¬FragmentsStay := by
  intro h
  have hMark :=
    (h "urn:x:y" "f" (by decide) (by decide) (by decide)).mark
  revert hMark
  decide

end Iri
end LinkedMarkup
