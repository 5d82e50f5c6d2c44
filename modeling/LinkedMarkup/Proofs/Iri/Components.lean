import LinkedMarkup.Proofs.Iri.Authority
import LinkedMarkup.Proofs.Text.Cutting

/-
  This file proves which parts an absolute IRI is put together
  of, and that reading it as a reference finds these parts. A
  part that is left out is told from one that is empty. Few
  of the authorities that the grammar allows are ambiguous.

  Key definitions include:
    * `Iri.HasBrackets`
    * `Iri.Components`
    * `Iri.Components.text`
    * `Iri.Components.IsValid`
    * `Iri.Components.reference`
    * `Iri.Components.of`

  Main declarations:
    * `Iri.visible_of_isAuthority`
    * `Iri.ambiguous_iff_of_isAuthority`
    * `Iri.Components.IsValid.isAbsolute_text`
    * `Iri.components_of_isAbsolute`
    * `Iri.Components.IsValid.unreadable_iff`
    * `Iri.Components.IsValid.split_text`
    * `Iri.isValid_of_isAbsolute`
-/

namespace LinkedMarkup
namespace Iri

------------------------------------------------------------
-- Characters of an IRI
------------------------------------------------------------

/- A character that is neither a control nor a space. -/
def IsVisible
    (c : Char) : Prop :=
  32 < c.toNat

instance :
    DecidablePred IsVisible :=
  fun c => inferInstanceAs (Decidable (32 < c.toNat))

theorem IsVisible.of_le
    {a c : Char}
    (hLe : a ≤ c)
    (h : IsVisible a) :
    IsVisible c :=
  Nat.lt_of_lt_of_le h hLe

theorem visible_of_isAsciiDigit
    {c : Char}
    (h : Text.isAsciiDigit c = true) :
    IsVisible c := by
  unfold Text.isAsciiDigit at h
  rw [Bool.and_eq_true, decide_eq_true_eq] at h
  exact .of_le h.1 (by decide)

theorem visible_of_isHexDigit
    {c : Char}
    (h : Text.isHexDigit c = true) :
    IsVisible c := by
  unfold Text.isHexDigit at h
  simp only [Bool.or_eq_true, Bool.and_eq_true, decide_eq_true_eq] at h
  rcases h with (hDigit | ⟨hLow, _⟩) | ⟨hLow, _⟩
  · exact visible_of_isAsciiDigit hDigit
  · exact .of_le hLow (by decide)
  · exact .of_le hLow (by decide)

theorem visible_of_isAsciiAlphanumeric
    {c : Char}
    (h : Text.isAsciiAlphanumeric c = true) :
    IsVisible c := by
  unfold Text.isAsciiAlphanumeric Text.isAsciiLetter at h
  simp only [Bool.or_eq_true, Bool.and_eq_true, decide_eq_true_eq] at h
  rcases h with (⟨hLow, _⟩ | ⟨hLow, _⟩) | hDigit
  · exact .of_le hLow (by decide)
  · exact .of_le hLow (by decide)
  · exact visible_of_isAsciiDigit hDigit

/- Ranges that start beyond the space hold visible characters. -/
theorem visible_of_inRanges
    {ranges : List (Nat × Nat)}
    (hRanges : ∀ r ∈ ranges, 32 < r.1)
    {c : Char}
    (h : Text.inRanges ranges c.toNat = true) :
    IsVisible c := by
  rcases List.any_eq_true.mp h with ⟨r, hMem, hIn⟩
  rw [Bool.and_eq_true, decide_eq_true_eq] at hIn
  exact Nat.lt_of_lt_of_le (hRanges r hMem) hIn.1

theorem visible_of_isUserChar
    {c : Char}
    (h : isUserChar c = true) :
    IsVisible c := by
  have hMarks :
      "!$&'()*+,-.;=_~".toList.all (fun d => decide (IsVisible d)) =
        true := by
    decide
  unfold isUserChar isUnreservedOrSubDelim at h
  simp only [Bool.or_eq_true, beq_iff_eq] at h
  rcases h with ((hLetter | hMark) | hOther) | rfl
  · exact visible_of_isAsciiAlphanumeric hLetter
  · exact of_decide_eq_true
      (List.all_eq_true.mp hMarks c (List.contains_iff_mem.mp hMark))
  · exact visible_of_inRanges (by decide) hOther
  · decide

theorem visible_of_isFragmentChar
    {c : Char}
    (h : isFragmentChar c = true) :
    IsVisible c := by
  unfold isFragmentChar isPathChar at h
  simp only [Bool.or_eq_true, beq_iff_eq] at h
  rcases h with ((hUser | rfl) | rfl) | rfl
  · exact visible_of_isUserChar hUser
  · decide
  · decide
  · decide

theorem visible_of_isPathChar
    {c : Char}
    (h : isPathChar c = true) :
    IsVisible c := by
  refine visible_of_isFragmentChar ?_
  unfold isFragmentChar
  rw [h, Bool.true_or]

theorem visible_of_isQueryChar
    {c : Char}
    (h : isQueryChar c = true) :
    IsVisible c := by
  unfold isQueryChar at h
  rcases Bool.or_eq_true_iff.mp h with hFragment | hPrivate
  · exact visible_of_isFragmentChar hFragment
  · exact visible_of_inRanges (by decide) hPrivate

theorem visible_of_isSchemeChar
    {c : Char}
    (h : isSchemeChar c = true) :
    IsVisible c := by
  unfold isSchemeChar at h
  simp only [Bool.or_eq_true, beq_iff_eq] at h
  rcases h with ((hLetter | rfl) | rfl) | rfl
  · exact visible_of_isAsciiAlphanumeric hLetter
  · decide
  · decide
  · decide

/- What holds of a class and of percent encodings holds of both. -/
theorem forall_of_allEncoded
    {valid : Char → Bool}
    {P : Char → Prop}
    (hValid : ∀ c, valid c = true → P c)
    (hHex : ∀ c, Text.isHexDigit c = true → P c)
    (hPercent : P '%')
    {cs : List Char}
    (h : allEncoded valid cs = true) :
    ∀ c ∈ cs, P c := by
  induction cs using allEncoded.induct with
  | case1 =>
      intro c hMem
      cases hMem
  | case2 a b rest ih =>
      unfold allEncoded at h
      simp only [Bool.and_eq_true] at h
      intro c hMem
      simp only [List.mem_cons] at hMem
      rcases hMem with rfl | rfl | rfl | hRest
      · exact hPercent
      · exact hHex _ h.1.1
      · exact hHex _ h.1.2
      · exact ih h.2 c hRest
  | case3 d rest hOther ih =>
      unfold allEncoded at h
      split at h
      · next hNil => cases hNil
      · next hCons =>
          cases hCons
          exact absurd rfl (hOther _ _ _ rfl)
      · next hCons =>
          cases hCons
          rw [Bool.and_eq_true] at h
          intro c hMem
          rcases List.mem_cons.mp hMem with rfl | hRest
          · exact hValid _ h.1
          · exact ih h.2 c hRest

theorem visible_of_allEncoded
    {valid : Char → Bool}
    (hValid : ∀ c, valid c = true → IsVisible c)
    {cs : List Char}
    (h : allEncoded valid cs = true) :
    ∀ c ∈ cs, IsVisible c :=
  forall_of_allEncoded hValid (fun _ => visible_of_isHexDigit)
    (by decide) h

/- A class without a mark has no texts with it. -/
theorem notMem_of_allEncoded
    {valid : Char → Bool}
    {mark : Char}
    (hValid : valid mark = false)
    (hHex : Text.isHexDigit mark = false)
    (hPercent : '%' ≠ mark)
    {cs : List Char}
    (h : allEncoded valid cs = true) :
    mark ∉ cs := by
  have hNone : ∀ c ∈ cs, c ≠ mark := by
    refine forall_of_allEncoded ?_ ?_ hPercent h
    · rintro c hClass rfl
      rw [hClass] at hValid
      cases hValid
    · rintro c hDigit rfl
      rw [hDigit] at hHex
      cases hHex
  exact fun hMem => hNone mark hMem rfl

------------------------------------------------------------
-- Characters of an authority
------------------------------------------------------------

theorem visible_of_all_isAsciiDigit
    {cs : List Char}
    (h : cs.all Text.isAsciiDigit = true) :
    ∀ c ∈ cs, IsVisible c :=
  fun c hMem => visible_of_isAsciiDigit (List.all_eq_true.mp h c hMem)

theorem visible_of_isAddress6
    {cs : List Char}
    (h : isAddress6 cs = true) :
    ∀ c ∈ cs, IsVisible c :=
  forall_of_isAddress6 (fun _ => visible_of_isHexDigit) (by decide)
    (by decide) h

theorem visible_of_isAddressFuture
    {cs : List Char}
    (h : isAddressFuture cs = true) :
    ∀ c ∈ cs, IsVisible c := by
  unfold isAddressFuture at h
  split at h
  · cases h
  · next v rest =>
      rcases Text.cutAtChar_cases '.' rest with
        ⟨front, tail, _, hRest, hCut⟩
      rw [Bool.and_eq_true, Bool.or_eq_true, hCut] at h
      rcases h with ⟨hVersion, hParts⟩
      have hLetter : IsVisible v := by
        rcases hVersion with hSmall | hCapital
        · rw [eq_of_beq hSmall]
          decide
        · rw [eq_of_beq hCapital]
          decide
      cases tail with
      | none => cases hParts
      | some address =>
          simp only [Bool.and_eq_true] at hParts
          intro c hMem
          rw [hRest, Text.afterMark] at hMem
          simp only [List.mem_cons, List.mem_append] at hMem
          rcases hMem with rfl | hFront | rfl | hBack
          · exact hLetter
          · exact visible_of_isHexDigit
              (List.all_eq_true.mp hParts.1.1.1 c hFront)
          · decide
          · exact visible_of_isUserChar
              (List.all_eq_true.mp hParts.2 c hBack)

theorem visible_of_isPort
    {cs : List Char}
    (h : isPort cs = true) :
    ∀ c ∈ cs, IsVisible c := by
  unfold isPort at h
  split at h
  · intro c hMem
    cases hMem
  · next d digits =>
      rw [Bool.and_eq_true] at h
      intro c hMem
      rcases List.mem_cons.mp hMem with rfl | hDigits
      · rw [eq_of_beq h.1]
        decide
      · exact visible_of_all_isAsciiDigit h.2 c hDigits

theorem visible_of_isUnreservedOrSubDelim
    {c : Char}
    (h : isUnreservedOrSubDelim c = true) :
    IsVisible c := by
  refine visible_of_isUserChar ?_
  unfold isUserChar
  rw [h, Bool.true_or]

theorem visible_of_isHost
    {cs : List Char}
    (h : isHost cs = true) :
    ∀ c ∈ cs, IsVisible c := by
  unfold isHost at h
  split at h
  · next rest =>
      rcases Text.cutAtChar_cases ']' rest with
        ⟨front, tail, _, hRest, hCut⟩
      rw [hCut] at h
      cases tail with
      | none => cases h
      | some port =>
          simp only [Bool.and_eq_true, Bool.or_eq_true] at h
          intro c hMem
          rw [hRest, Text.afterMark] at hMem
          simp only [List.mem_cons, List.mem_append] at hMem
          rcases hMem with rfl | hFront | rfl | hBack
          · decide
          · rcases h.1 with hFuture | hAddress
            · exact visible_of_isAddressFuture hFuture c hFront
            · exact visible_of_isAddress6 hAddress c hFront
          · decide
          · exact visible_of_isPort h.2 c hBack
  · rcases Text.cutAtChar_cases ':' cs with
      ⟨front, tail, _, hWhole, hCut⟩
    rw [hCut] at h
    dsimp only at h
    rw [Bool.and_eq_true] at h
    have hFront :=
      visible_of_allEncoded
        (fun _ => visible_of_isUnreservedOrSubDelim) h.1
    cases tail with
    | none =>
        rw [hWhole, Text.afterMark, List.append_nil]
        exact hFront
    | some port =>
        intro c hMem
        rw [hWhole, Text.afterMark] at hMem
        simp only [List.mem_cons, List.mem_append] at hMem
        rcases hMem with hIn | rfl | hBack
        · exact hFront c hIn
        · decide
        · exact visible_of_all_isAsciiDigit h.2 c hBack

/- An authority holds neither controls nor spaces. -/
theorem visible_of_isAuthority
    {cs : List Char}
    (h : isAuthority cs = true) :
    ∀ c ∈ cs, IsVisible c := by
  unfold isAuthority at h
  split at h
  · next user host hCut =>
      rw [Bool.and_eq_true] at h
      intro c hMem
      rw [Text.eq_append_of_cutAt hCut] at hMem
      simp only [List.mem_cons, List.mem_append] at hMem
      rcases hMem with hFront | rfl | hBack
      · exact visible_of_allEncoded
          (fun _ => visible_of_isUserChar) h.1 c hFront
      · decide
      · exact visible_of_isHost h.2 c hBack
  · exact visible_of_isHost h

------------------------------------------------------------
-- Brackets of an authority
------------------------------------------------------------

/-
  An authority with brackets: they stand around an address,
  and what comes before them has none.
-/
def HasBrackets
    (cs address : List Char) : Prop :=
  ∃ front port,
    cs = front ++ '[' :: (address ++ ']' :: port) ∧ '[' ∉ front ∧
      ']' ∉ address ∧
        (isAddressFuture address = true ∨ isAddress6 address = true)

/- A host has no brackets, or an address in them. -/
theorem brackets_of_isHost
    {cs : List Char}
    (h : isHost cs = true) :
    ('[' ∉ cs ∧ ']' ∉ cs) ∨ ∃ address, HasBrackets cs address := by
  unfold isHost at h
  split at h
  · next rest =>
      rcases Text.cutAtChar_cases ']' rest with
        ⟨front, tail, hFront, hRest, hCut⟩
      rw [hCut] at h
      cases tail with
      | none => cases h
      | some port =>
          simp only [Bool.and_eq_true, Bool.or_eq_true] at h
          exact .inr ⟨front, [], port, by rw [hRest]; rfl,
            List.not_mem_nil, hFront, h.1⟩
  · rcases Text.cutAtChar_cases ':' cs with
      ⟨front, tail, _, hWhole, hCut⟩
    rw [hCut] at h
    dsimp only at h
    rw [Bool.and_eq_true] at h
    have hNone :
        ∀ mark : Char, isUnreservedOrSubDelim mark = false →
          Text.isHexDigit mark = false →
          Text.isAsciiDigit mark = false →
          '%' ≠ mark → ':' ≠ mark → mark ∉ cs := by
      intro mark hClass hHex hDigit hPercent hColon hMem
      have hFront := notMem_of_allEncoded hClass hHex hPercent h.1
      rw [hWhole] at hMem
      rcases List.mem_append.mp hMem with hIn | hIn
      · exact hFront hIn
      · cases tail with
        | none => cases hIn
        | some port =>
            rcases List.mem_cons.mp hIn with rfl | hPort
            · exact hColon rfl
            · rw [List.all_eq_true.mp h.2 mark hPort] at hDigit
              cases hDigit
    exact .inl
      ⟨hNone '[' (by decide) (by decide) (by decide) (by decide)
          (by decide),
        hNone ']' (by decide) (by decide) (by decide) (by decide)
          (by decide)⟩

/- So does an authority, whose user has no brackets either. -/
theorem brackets_of_isAuthority
    {cs : List Char}
    (h : isAuthority cs = true) :
    ('[' ∉ cs ∧ ']' ∉ cs) ∨ ∃ address, HasBrackets cs address := by
  unfold isAuthority at h
  split at h
  · next user host hCut =>
      rw [Bool.and_eq_true] at h
      have hWhole := Text.eq_append_of_cutAt hCut
      have hUser :
          ∀ mark : Char, isUserChar mark = false →
            Text.isHexDigit mark = false → '%' ≠ mark → mark ∉ user :=
        fun mark hClass hHex hPercent =>
          notMem_of_allEncoded hClass hHex hPercent h.1
      have hOpen : '[' ∉ user :=
        hUser '[' (by decide) (by decide) (by decide)
      have hClose : ']' ∉ user :=
        hUser ']' (by decide) (by decide) (by decide)
      rcases brackets_of_isHost h.2 with
        ⟨hNoOpen, hNoClose⟩ | ⟨address, front, port, rfl, hFront, hIs⟩
      · refine .inl ⟨?_, ?_⟩
        · simp [hWhole, hOpen, hNoOpen]
        · simp [hWhole, hClose, hNoClose]
      · refine .inr ⟨address, user ++ '@' :: front, port, ?_, ?_, hIs⟩
        · simp [hWhole]
        · simp [hOpen, hFront]
  · exact brackets_of_isHost h

/- The brackets are found where they stand. -/
theorem HasBrackets.bracketed_eq
    {cs address : List Char}
    (h : HasBrackets cs address) :
    Reference.bracketed cs = address := by
  rcases h with ⟨front, port, rfl, hFront, hAddress, _⟩
  unfold Reference.bracketed
  rw [Text.cutAtChar_append hFront, Option.getD_some,
    Text.cutAtChar_append hAddress]

/-
  The grammar lets the version of an address begin with a
  capital, but no such address may stand in brackets.
-/
theorem isAddress_iff_of_valid
    {address : List Char}
    (h : isAddressFuture address = true ∨ isAddress6 address = true) :
    Reference.IsAddress address ↔ address.head? ≠ some 'V' := by
  have hFirst :
      ∀ {cs : List Char},
        isAddress6 cs = true → ∀ rest, (cs ++ rest).head? ≠ some 'V' :=
    fun hIs =>
      head?_ne_of_isAddress6 (by decide) (by decide) (by decide) hIs
  constructor
  · intro hAddress
    cases hAddress with
    | groups hIs => simpa using hFirst hIs []
    | zoned hIs _ _ => exact hFirst hIs _
    | future _ _ _ => simp
  · intro hSmall
    rcases h with hFuture | hIs
    · unfold isAddressFuture at hFuture
      split at hFuture
      · cases hFuture
      · next v rest =>
          rcases Text.cutAtChar_cases '.' rest with
            ⟨version, tail, _, hRest, hCut⟩
          rw [Bool.and_eq_true, Bool.or_eq_true, hCut] at hFuture
          have hLetter : v = 'v' := by
            rcases hFuture.1 with hIs | hIs
            · exact eq_of_beq hIs
            · exact absurd (by rw [eq_of_beq hIs]; rfl) hSmall
          cases tail with
          | none => cases hFuture.2
          | some user =>
              have hParts := hFuture.2
              simp only [Bool.and_eq_true, Bool.not_eq_true',
                List.isEmpty_eq_false_iff, List.all_eq_true] at hParts
              rw [hLetter, hRest, Text.afterMark]
              exact .future hParts.1.1.2 hParts.1.1.1 hParts.1.2
    · exact .groups hIs

/-
  An authority of the grammar is ambiguous only for what looks
  like a delimiter, or for a version with a capital.
-/
theorem ambiguous_iff_of_isAuthority
    {cs : List Char}
    (h : isAuthority cs = true) :
    Reference.Ambiguous cs ↔
      (∃ c ∈ cs, c.toNat ∈ Reference.delimiterLookalikes) ∨
        (Reference.bracketed cs).head? = some 'V' := by
  rcases brackets_of_isAuthority h with
    ⟨hOpen, hClose⟩ | ⟨address, hBrackets⟩
  · constructor
    · intro hAmbiguous
      cases hAmbiguous with
      | unclosed hIn _ => exact absurd hIn hOpen
      | unopened _ hIn => exact absurd hIn hClose
      | unaddressed hIn _ _ => exact absurd hIn hOpen
      | lookalike hMem hLike => exact .inl ⟨_, hMem, hLike⟩
    · rintro (⟨c, hMem, hLike⟩ | hCapital)
      · exact .lookalike hMem hLike
      · unfold Reference.bracketed at hCapital
        rw [Text.cutAtChar_of_not_mem hOpen] at hCapital
        cases hCapital
  · have hFound := hBrackets.bracketed_eq
    rcases hBrackets with ⟨front, port, rfl, _, _, hValid⟩
    rw [hFound]
    constructor
    · intro hAmbiguous
      cases hAmbiguous with
      | unclosed _ hNone => exact absurd (by simp) hNone
      | unopened hNone _ => exact absurd (by simp) hNone
      | unaddressed _ _ hHost =>
          rw [hFound, isAddress_iff_of_valid hValid, not_not] at hHost
          exact .inr hHost
      | lookalike hMem hLike => exact .inl ⟨_, hMem, hLike⟩
    · rintro (⟨c, hMem, hLike⟩ | hCapital)
      · exact .lookalike hMem hLike
      · refine .unaddressed (by simp) (by simp) ?_
        rw [hFound, isAddress_iff_of_valid hValid]
        exact fun hSmall => hSmall hCapital

------------------------------------------------------------
-- Parts of an IRI
------------------------------------------------------------

/- The parts of an absolute IRI, of which some may be missing. -/
structure Components where
  scheme : List Char
  authority : Option (List Char)
  path : List Char
  query : Option (List Char)
  fragment : Option (List Char)
  deriving DecidableEq, Repr

namespace Components

/- The path with the query and the fragment. -/
def tail
    (c : Components) : List Char :=
  c.path ++ Text.afterMark '?' c.query ++ Text.afterMark '#' c.fragment

/- What follows the scheme. -/
def body
    (c : Components) : List Char :=
  match c.authority with
  | none => c.tail
  | some authority => '/' :: '/' :: (authority ++ c.tail)

/- The text that the parts are put together to. -/
def text
    (c : Components) : List Char :=
  c.scheme ++ ':' :: c.body

/-
  Parts of an absolute IRI: each is of its characters, a path
  after an authority starts with a slash, and one without an
  authority does not start like an authority.
-/
structure IsValid
    (c : Components) : Prop where
  scheme : IsScheme c.scheme
  authority :
    ∀ a, c.authority = some a →
      isAuthority a = true ∧ ∀ d ∈ a, endsAuthority d = false
  path : allEncoded isPathChar c.path = true
  rooted :
    c.authority ≠ none → ∀ d, c.path.head? = some d → d = '/'
  unslashed :
    c.authority = none → ∀ rest, c.path ≠ '/' :: '/' :: rest
  query : ∀ q, c.query = some q → allEncoded isQueryChar q = true
  fragment :
    ∀ f, c.fragment = some f → allEncoded isFragmentChar f = true

section Valid

variable {c : Components}

theorem IsValid.hash_notMem_path
    (h : c.IsValid) :
    '#' ∉ c.path :=
  notMem_of_allEncoded (by decide) (by decide) (by decide) h.path

theorem IsValid.mark_notMem_path
    (h : c.IsValid) :
    '?' ∉ c.path :=
  notMem_of_allEncoded (by decide) (by decide) (by decide) h.path

theorem IsValid.hash_notMem_query
    (h : c.IsValid) :
    '#' ∉ c.path ++ Text.afterMark '?' c.query := by
  intro hMem
  rcases List.mem_append.mp hMem with hPath | hQuery
  · exact h.hash_notMem_path hPath
  · cases hGiven : c.query with
    | none =>
        rw [hGiven] at hQuery
        cases hQuery
    | some q =>
        rw [hGiven] at hQuery
        rcases List.mem_cons.mp hQuery with hMark | hIn
        · cases hMark
        · exact notMem_of_allEncoded (by decide) (by decide) (by decide)
            (h.query q hGiven) hIn

/- A text without marks of its own ends where a mark follows. -/
theorem head?_afterMark
    {mark d : Char}
    {part : Option (List Char)}
    (h : (Text.afterMark mark part).head? = some d) :
    d = mark := by
  cases part with
  | none => cases h
  | some cs =>
      cases h
      rfl

/- What follows a path starts with the mark of a query or fragment. -/
theorem head?_afterPath
    {query fragment : Option (List Char)}
    {d : Char}
    (h :
      (Text.afterMark '?' query ++
          Text.afterMark '#' fragment).head? =
        some d) :
    d = '?' ∨ d = '#' := by
  cases query with
  | none => exact .inr (head?_afterMark h)
  | some q =>
      cases h
      exact .inl rfl

/- After an authority comes what ends it. -/
theorem IsValid.ends_tail
    (h : c.IsValid)
    (hAuthority : c.authority ≠ none) :
    ∀ d ∈ c.tail.head?, endsAuthority d = true := by
  intro d hHead
  unfold tail at hHead
  rw [List.append_assoc] at hHead
  cases hPath : c.path with
  | nil =>
      rw [hPath] at hHead
      rcases head?_afterPath hHead with rfl | rfl
      · decide
      · decide
  | cons e rest =>
      rw [hPath] at hHead
      cases hHead
      have hRoot : d = '/' := h.rooted hAuthority d (by rw [hPath]; rfl)
      rw [hRoot]
      decide

/- Without an authority, nothing looks like one. -/
theorem IsValid.tail_ne_slashes
    (h : c.IsValid)
    (hAuthority : c.authority = none)
    (rest : List Char) :
    c.tail ≠ '/' :: '/' :: rest := by
  intro hTail
  unfold tail at hTail
  rw [List.append_assoc] at hTail
  cases hPath : c.path with
  | nil =>
      rw [hPath, List.nil_append] at hTail
      have hHead := head?_afterPath (congrArg List.head? hTail)
      revert hHead
      decide
  | cons e more =>
      cases more with
      | nil =>
          rw [hPath] at hTail
          have hHead :=
            head?_afterPath (congrArg List.head? (List.cons.inj hTail).2)
          revert hHead
          decide
      | cons e' more =>
          rw [hPath] at hTail
          cases hTail
          exact h.unslashed hAuthority _ hPath

theorem IsValid.scheme?_text
    (h : c.IsValid) :
    scheme? c.text = some (c.scheme, c.body) :=
  scheme?_eq_some_iff.mpr ⟨h.scheme, rfl⟩

/- What stands before the fragment of the tail, and the fragment. -/
theorem IsValid.cut_tail
    (h : c.IsValid) :
    Text.cutAtChar '#' c.tail =
      (c.path ++ Text.afterMark '?' c.query, c.fragment) :=
  Text.cutAtChar_afterMark h.hash_notMem_query c.fragment

/- The path and the query before a fragment. -/
theorem IsValid.cut_path
    (h : c.IsValid) :
    Text.cutAtChar '?' (c.path ++ Text.afterMark '?' c.query) =
      (c.path, c.query) :=
  Text.cutAtChar_afterMark h.mark_notMem_path c.query

end Valid

------------------------------------------------------------
-- Absolute IRIs
------------------------------------------------------------

/- What follows an authority, which ends where it has to. -/
theorem dropWhile_authority
    {authority rest : List Char}
    (hWhole : ∀ d ∈ authority, endsAuthority d = false)
    (hRest : ∀ d ∈ rest.head?, endsAuthority d = true) :
    (authority ++ rest).dropWhile (fun d => !endsAuthority d) = rest := by
  have hParts :=
    List.takeWhile_append_dropWhile
      (p := fun d => !endsAuthority d) (l := authority ++ rest)
  rw [Reference.takeWhile_authority hWhole hRest] at hParts
  exact List.append_cancel_left hParts

theorem IsValid.isPathQueryFragment_tail
    {c : Components}
    (h : c.IsValid) :
    isPathQueryFragment c.tail = true := by
  unfold isPathQueryFragment
  rw [h.cut_tail]
  dsimp only
  rw [h.cut_path]
  simp only [h.path, Bool.true_and, Bool.and_eq_true]
  constructor
  · cases hQuery : c.query with
    | none => rfl
    | some q => exact h.query q hQuery
  · cases hFragment : c.fragment with
    | none => rfl
    | some f => exact h.fragment f hFragment

/- Valid parts make an absolute IRI. -/
theorem IsValid.isAbsolute_text
    {c : Components}
    (h : c.IsValid) :
    isAbsolute c.text = true := by
  unfold isAbsolute
  rw [h.scheme?_text]
  cases hAuthority : c.authority with
  | none =>
      have hBody : c.body = c.tail := by
        unfold body
        rw [hAuthority]
      rw [hBody]
      split
      · next hNone => cases hNone
      · next hSlashes =>
          have hTail := congrArg Prod.snd (Option.some.inj hSlashes)
          exact absurd hTail (h.tail_ne_slashes hAuthority _)
      · next hSome =>
          cases hSome
          exact h.isPathQueryFragment_tail
  | some a =>
      have hBody : c.body = '/' :: '/' :: (a ++ c.tail) := by
        unfold body
        rw [hAuthority]
      have hEnds := h.ends_tail (by simp [hAuthority])
      have hWhole := (h.authority a hAuthority).2
      rw [hBody]
      simp only [Reference.takeWhile_authority hWhole hEnds,
        dropWhile_authority hWhole hEnds, (h.authority a hAuthority).1,
        h.isPathQueryFragment_tail, Bool.and_self]

end Components

/- A path with query and fragment has these parts. -/
theorem parts_of_isPathQueryFragment
    {cs : List Char}
    (h : isPathQueryFragment cs = true) :
    ∃ path query fragment,
      cs =
          path ++ Text.afterMark '?' query ++
            Text.afterMark '#' fragment ∧
        allEncoded isPathChar path = true ∧
        (∀ q, query = some q → allEncoded isQueryChar q = true) ∧
        ∀ f, fragment = some f → allEncoded isFragmentChar f = true := by
  rcases Text.cutAtChar_cases '#' cs with
    ⟨front, fragment, _, hWhole, hOuter⟩
  rcases Text.cutAtChar_cases '?' front with
    ⟨path, query, _, hFront, hInner⟩
  unfold isPathQueryFragment at h
  rw [hOuter] at h
  dsimp only at h
  rw [hInner, Bool.and_eq_true, Bool.and_eq_true] at h
  refine ⟨path, query, fragment, by rw [hWhole, hFront], h.1.1, ?_, ?_⟩
  · rintro q rfl
    exact h.1.2
  · rintro f rfl
    exact h.2

/- A path that ends an authority starts with a stroke. -/
theorem eq_slash_of_head?
    {rest path more : List Char}
    (hPath : allEncoded isPathChar path = true)
    (hTail :
      rest.dropWhile (fun d => !endsAuthority d) = path ++ more)
    {d : Char}
    (hHead : path.head? = some d) :
    d = '/' := by
  have hEnds :=
    List.head?_dropWhile_not (fun d => !endsAuthority d) rest
  have hFirst : (path ++ more).head? = some d := by
    rw [List.head?_append, hHead, Option.some_or]
  rw [hTail, hFirst] at hEnds
  have hMem := List.mem_of_mem_head? (Option.mem_def.mpr hHead)
  have hNone :
      ∀ mark : Char, isPathChar mark = false →
        Text.isHexDigit mark = false → '%' ≠ mark → d ≠ mark := by
    rintro mark hValid hHex hPercent rfl
    exact notMem_of_allEncoded hValid hHex hPercent hPath hMem
  have hMark := hNone '?' (by decide) (by decide) (by decide)
  have hHash := hNone '#' (by decide) (by decide) (by decide)
  simpa [endsAuthority, hMark, hHash] using hEnds

/- An absolute IRI is put together of valid parts. -/
theorem components_of_isAbsolute
    {text : List Char}
    (h : isAbsolute text = true) :
    ∃ c : Components, c.IsValid ∧ c.text = text := by
  unfold isAbsolute at h
  split at h
  · cases h
  · next scheme rest hScheme =>
      rcases scheme?_eq_some_iff.mp hScheme with ⟨hIsScheme, rfl⟩
      rw [Bool.and_eq_true] at h
      rcases parts_of_isPathQueryFragment h.2 with
        ⟨path, query, fragment, hTail, hPath, hQuery, hFragment⟩
      have hWhole :=
        List.takeWhile_append_dropWhile
          (p := fun d => !endsAuthority d) (l := rest)
      refine
        ⟨⟨scheme, some (rest.takeWhile (fun d => !endsAuthority d)),
            path, query, fragment⟩,
          ⟨hIsScheme, ?_, hPath, ?_, (fun hNone => nomatch hNone),
            hQuery, hFragment⟩, ?_⟩
      · rintro _ ⟨⟩
        refine ⟨h.1, fun d hMem => ?_⟩
        simpa using List.mem_takeWhile_imp hMem
      · rw [List.append_assoc] at hTail
        exact fun _ d hHead => eq_slash_of_head? hPath hTail hHead
      · unfold Components.text Components.body Components.tail
        dsimp only
        rw [← hTail, hWhole]
  · next scheme rest hNot hScheme =>
      rcases scheme?_eq_some_iff.mp hScheme with ⟨hIsScheme, rfl⟩
      rcases parts_of_isPathQueryFragment h with
        ⟨path, query, fragment, rfl, hPath, hQuery, hFragment⟩
      refine ⟨⟨scheme, none, path, query, fragment⟩,
        ⟨hIsScheme, nofun, hPath, fun hGiven => absurd rfl hGiven, ?_,
          hQuery, hFragment⟩, rfl⟩
      rintro - more hSlashes
      refine hNot
        (more ++ Text.afterMark '?' query ++
          Text.afterMark '#' fragment) ?_
      dsimp only at hSlashes
      rw [hSlashes]
      rfl

end Iri

namespace Reference

------------------------------------------------------------
-- IRIs as references
------------------------------------------------------------

/- The scheme of a text, or a default one, and what follows it. -/
def schemed
    (defaultScheme text : List Char) : List Char × List Char :=
  match Iri.scheme? text with
  | some (scheme, rest) => (scheme.map Text.asciiLowerChar, rest)
  | none => (defaultScheme, text)

/- What follows the authority that a text begins with. -/
def afterAuthority :
    List Char → List Char
  | '/' :: '/' :: rest =>
      rest.dropWhile (fun c => !Iri.endsAuthority c)
  | rest => rest

theorem leadingAuthority_of_ne
    {text : List Char}
    (h : ∀ rest, text = '/' :: '/' :: rest → False) :
    leadingAuthority text = [] := by
  unfold leadingAuthority
  split
  · exact (h _ rfl).elim
  · rfl

theorem afterAuthority_of_ne
    {text : List Char}
    (h : ∀ rest, text = '/' :: '/' :: rest → False) :
    afterAuthority text = text := by
  unfold afterAuthority
  split
  · exact (h _ rfl).elim
  · rfl

/- The path and the parameters that a scheme has. -/
def withParams
    (scheme path : List Char) : List Char × List Char :=
  if isAmong paramSchemes scheme then
    splitParams path
  else
    (path, [])

/- The parts of a text, given where it is cut. -/
theorem split_of_cuts
    {defaultScheme text scheme body front path : List Char}
    {query fragment : Option (List Char)}
    (hScheme : schemed defaultScheme (clean text) = (scheme, body))
    (hReadable : ¬Ambiguous (leadingAuthority body))
    (hOuter :
      Text.cutAtChar '#' (afterAuthority body) = (front, fragment))
    (hInner : Text.cutAtChar '?' front = (path, query)) :
    split defaultScheme text =
      .ok
        { scheme := scheme
          authority := leadingAuthority body
          path := (withParams scheme path).1
          params := (withParams scheme path).2
          query := query.getD []
          fragment := fragment.getD [] } := by
  have hCheck : checkAuthority (leadingAuthority body) = .ok () :=
    checkAuthority_ok_iff.mpr hReadable
  unfold split
  extract_lets cleaned headed located outer inner lasting
  have hHeaded : headed = (scheme, body) := hScheme
  have hLocated :
      located = (leadingAuthority body, afterAuthority body) := by
    unfold located
    rw [hHeaded]
    dsimp only
    split
    · rfl
    · next hSlashes =>
        rw [leadingAuthority_of_ne hSlashes,
          afterAuthority_of_ne hSlashes]
  have hCut : outer = (front, fragment) := by
    unfold outer
    rw [hLocated, hOuter]
  have hLast : inner = (path, query) := by
    unfold inner
    rw [hCut, hInner]
  unfold lasting
  rw [hLocated, hCheck, hLast, hCut, hHeaded]
  rfl

end Reference

namespace Iri

namespace Components

section Valid

variable {c : Components}

theorem visible_of_afterMark
    {mark : Char}
    {part : Option (List Char)}
    (hMark : IsVisible mark)
    (h : ∀ cs, part = some cs → ∀ d ∈ cs, IsVisible d) :
    ∀ d ∈ Text.afterMark mark part, IsVisible d := by
  intro d hMem
  cases part with
  | none => cases hMem
  | some cs =>
      rcases List.mem_cons.mp hMem with rfl | hIn
      · exact hMark
      · exact h cs rfl d hIn

/- An absolute IRI holds neither controls nor spaces. -/
theorem IsValid.visible_text
    (h : c.IsValid) :
    ∀ d ∈ c.text, IsVisible d := by
  have hTail : ∀ d ∈ c.tail, IsVisible d := by
    intro d hMem
    unfold tail at hMem
    simp only [List.mem_append] at hMem
    rcases hMem with (hPath | hQuery) | hFragment
    · exact visible_of_allEncoded (fun _ => visible_of_isPathChar)
        h.path d hPath
    · exact visible_of_afterMark (by decide)
        (fun q hq => visible_of_allEncoded
          (fun _ => visible_of_isQueryChar) (h.query q hq)) d hQuery
    · exact visible_of_afterMark (by decide)
        (fun f hf => visible_of_allEncoded
          (fun _ => visible_of_isFragmentChar) (h.fragment f hf))
        d hFragment
  have hBody : ∀ d ∈ c.body, IsVisible d := by
    unfold body
    cases hAuthority : c.authority with
    | none => exact hTail
    | some a =>
        intro d hMem
        simp only [List.mem_cons, List.mem_append] at hMem
        rcases hMem with rfl | rfl | hIn | hIn
        · decide
        · decide
        · exact visible_of_isAuthority (h.authority a hAuthority).1 d hIn
        · exact hTail d hIn
  intro d hMem
  unfold text at hMem
  rcases List.mem_append.mp hMem with hScheme | hRest
  · exact visible_of_isSchemeChar (h.scheme.chars d hScheme)
  · rcases List.mem_cons.mp hRest with rfl | hIn
    · decide
    · exact hBody d hIn

/- Nothing is dropped from a text of visible characters. -/
theorem clean_of_visible
    {cs : List Char}
    (h : ∀ d ∈ cs, IsVisible d) :
    Reference.clean cs = cs := by
  have hDrop : cs.dropWhile (fun d => decide (d.toNat ≤ 32)) = cs := by
    cases cs with
    | nil => rfl
    | cons d rest =>
        have hVisible : 32 < d.toNat := h d List.mem_cons_self
        rw [List.dropWhile_cons, if_neg (by simpa using hVisible)]
  unfold Reference.clean
  rw [hDrop]
  refine List.filter_eq_self.mpr ?_
  intro d hMem
  have hNone :
      ∀ other : Char, ¬IsVisible other → (d != other) = true := by
    rintro other hOther
    rw [bne_iff_ne]
    rintro rfl
    exact hOther (h d hMem)
  rw [hNone '\t' (by decide), hNone '\r' (by decide),
    hNone '\n' (by decide)]
  rfl

/-
  The parts of an IRI as a reference has them: in it, a part
  that is missing is an empty one, the scheme is in lower case,
  and some schemes have parameters in the path.
-/
def reference
    (c : Components) : Reference :=
  let scheme := c.scheme.map Text.asciiLowerChar
  { scheme := scheme
    authority := c.authority.getD []
    path := (Reference.withParams scheme c.path).1
    params := (Reference.withParams scheme c.path).2
    query := c.query.getD []
    fragment := c.fragment.getD [] }

/- The authority is what stands between the slashes and its end. -/
theorem IsValid.leadingAuthority_body
    (h : c.IsValid) :
    Reference.leadingAuthority c.body = c.authority.getD [] := by
  unfold body
  cases hAuthority : c.authority with
  | none =>
      unfold Reference.leadingAuthority
      split
      · next hSlashes =>
          exact absurd hSlashes (h.tail_ne_slashes hAuthority _)
      · rfl
  | some a =>
      exact Reference.takeWhile_authority (h.authority a hAuthority).2
        (h.ends_tail (by simp [hAuthority]))

theorem IsValid.afterAuthority_body
    (h : c.IsValid) :
    Reference.afterAuthority c.body = c.tail := by
  unfold body
  cases hAuthority : c.authority with
  | none =>
      unfold Reference.afterAuthority
      split
      · next hSlashes =>
          exact absurd hSlashes (h.tail_ne_slashes hAuthority _)
      · rfl
  | some a =>
      exact dropWhile_authority (h.authority a hAuthority).2
        (h.ends_tail (by simp [hAuthority]))

/- An IRI cannot be taken apart exactly if its authority is ambiguous. -/
theorem IsValid.unreadable_iff
    (h : c.IsValid) :
    Reference.Unreadable c.text ↔
      Reference.Ambiguous (c.authority.getD []) := by
  rw [Reference.unreadable_iff, clean_of_visible h.visible_text]
  unfold Reference.afterScheme
  rw [h.scheme?_text]
  dsimp only
  rw [h.leadingAuthority_body]

/- A readable IRI is taken apart into its parts. -/
theorem IsValid.split_text
    (h : c.IsValid)
    (hReadable : ¬Reference.Ambiguous (c.authority.getD [])) :
    Reference.split [] c.text = .ok c.reference := by
  rw [← h.leadingAuthority_body] at hReadable
  have hScheme :
      Reference.schemed [] (Reference.clean c.text) =
        (c.scheme.map Text.asciiLowerChar, c.body) := by
    unfold Reference.schemed
    rw [clean_of_visible h.visible_text, h.scheme?_text]
  rw [Reference.split_of_cuts hScheme hReadable
      (by rw [h.afterAuthority_body, h.cut_tail]) h.cut_path,
    h.leadingAuthority_body]
  rfl

/- The parts of a text, as they are cut. -/
def of
    (text : List Char) : Components :=
  let body := Reference.afterScheme text
  let outer := Text.cutAtChar '#' (Reference.afterAuthority body)
  let inner := Text.cutAtChar '?' outer.1
  { scheme := ((scheme? text).map Prod.fst).getD []
    authority :=
      match body with
      | '/' :: '/' :: _ => some (Reference.leadingAuthority body)
      | _ => none
    path := inner.1
    query := inner.2
    fragment := outer.2 }

/- Valid parts are found in the text that they make. -/
theorem IsValid.of_text
    (h : c.IsValid) :
    of c.text = c := by
  have hBody : Reference.afterScheme c.text = c.body := by
    unfold Reference.afterScheme
    rw [h.scheme?_text]
  have hGiven :
      (match c.body with
        | '/' :: '/' :: _ => some (Reference.leadingAuthority c.body)
        | _ => none) =
        c.authority := by
    rw [h.leadingAuthority_body]
    cases hAuthority : c.authority with
    | none =>
        split
        · next hSlashes =>
            unfold body at hSlashes
            rw [hAuthority] at hSlashes
            exact absurd hSlashes (h.tail_ne_slashes hAuthority _)
        · rfl
    | some a =>
        unfold body
        rw [hAuthority]
        rfl
  unfold of
  rw [hBody, h.scheme?_text]
  dsimp only
  rw [h.afterAuthority_body, h.cut_tail]
  dsimp only
  rw [h.cut_path]
  exact congrArg
    (fun a => Components.mk c.scheme a c.path c.query c.fragment) hGiven

end Valid

end Components

/- An absolute IRI has the parts that it is cut into. -/
theorem isValid_of_isAbsolute
    {text : List Char}
    (h : isAbsolute text = true) :
    (Components.of text).IsValid ∧ (Components.of text).text = text := by
  rcases components_of_isAbsolute h with ⟨c, hValid, rfl⟩
  rw [hValid.of_text]
  exact ⟨hValid, rfl⟩

end Iri
end LinkedMarkup
