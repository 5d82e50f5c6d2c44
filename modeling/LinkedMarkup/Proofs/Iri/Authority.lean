import LinkedMarkup.Iri.Reference
import LinkedMarkup.Proofs.Text.Cutting
import Mathlib.Data.List.DropRight
import Mathlib.Data.List.TakeWhile

/-
  This file proves which references cannot be resolved: the
  only texts that have no parts are those whose authority
  could be read in two ways, or has no address in its
  brackets, and a reference fails exactly if such a text has
  to be taken apart for it.

  Key definitions include:
    * `Iri.IsScheme`
    * `Reference.IsAddress`
    * `Reference.Ambiguous`
    * `Reference.HasAuthority`
    * `Reference.Unreadable`
    * `Reference.leadingAuthority`
    * `Iri.Unresolvable`

  Main declarations:
    * `Iri.scheme?_eq_some_iff`
    * `Iri.forall_of_isAddress6`
    * `Reference.checkBracketed_ok_iff`
    * `Reference.checkAuthority_error_iff`
    * `Reference.hasAuthority_iff`
    * `Reference.split_error_iff`
    * `Reference.not_unreadable_of_plain`
    * `Iri.resolve_error_iff`
-/

namespace LinkedMarkup

------------------------------------------------------------
-- Trimmed texts
------------------------------------------------------------

namespace Text

/- A front of a text without leading blanks has none. -/
theorem trimLeft_of_isPrefix
    {front cs : List Char}
    (h : front.IsPrefix (trimLeft cs)) :
    trimLeft front = front := by
  cases front with
  | nil => rfl
  | cons c rest =>
      rcases h with ⟨tail, hTail⟩
      have hHead : (trimLeft cs).head? = some c := by
        rw [← hTail]
        rfl
      have hNot : isBlank c = false := by
        by_contra hBlank
        have hDrop := List.head?_dropWhile_not isBlank cs
        unfold trimLeft at hHead
        rw [hHead] at hDrop
        simp_all
      unfold trimLeft
      rw [List.dropWhile_cons, hNot]
      rfl

/- A trimmed text has nothing to trim. -/
theorem trim_trim
    (text : String) :
    trim (trim text) = trim text := by
  have hRight :
      ∀ cs : List Char,
        trimChars cs = (trimLeft cs).rdropWhile isBlank :=
    fun _ => rfl
  unfold trim
  rw [String.toList_ofList, hRight (trimChars text.toList),
    hRight text.toList,
    trimLeft_of_isPrefix (List.rdropWhile_prefix isBlank _),
    List.rdropWhile_idempotent]

end Text

------------------------------------------------------------
-- Schemes
------------------------------------------------------------

namespace Iri

/- A letter and characters that a scheme may hold. -/
structure IsScheme
    (scheme : List Char) : Prop where
  letter : ∃ c rest, scheme = c :: rest ∧ Text.isAsciiLetter c = true
  chars : ∀ c ∈ scheme, isSchemeChar c = true

/- A text has a scheme if one stands before its first colon. -/
theorem scheme?_eq_some_iff
    {text scheme rest : List Char} :
    scheme? text = some (scheme, rest) ↔
      IsScheme scheme ∧ text = scheme ++ ':' :: rest := by
  constructor
  · intro h
    unfold scheme? at h
    cases text with
    | nil => cases h
    | cons c tail =>
        dsimp only at h
        split at h
        · rename_i hLetter
          split at h
          · rename_i hCut
            cases h
            have hFront :
                (c :: tail).takeWhile (fun d => !!isSchemeChar d) =
                  scheme :=
              congrArg Prod.fst hCut
            simp only [Bool.not_not] at hFront
            have hChar : isSchemeChar c = true := by
              unfold isSchemeChar Text.isAsciiAlphanumeric
              rw [hLetter]
              rfl
            refine ⟨⟨?_, ?_⟩, Text.eq_append_of_cutAt hCut⟩
            · rw [← hFront, List.takeWhile_cons, if_pos hChar]
              exact ⟨c, _, rfl, hLetter⟩
            · intro d hMem
              rw [← hFront] at hMem
              exact List.mem_takeWhile_imp hMem
          · cases h
        · cases h
  · rintro ⟨⟨⟨c, tail, rfl, hLetter⟩, hChars⟩, rfl⟩
    have hColon : isSchemeChar ':' = false := by decide
    unfold scheme? Text.cutAt
    rw [List.cons_append]
    dsimp only
    rw [if_pos hLetter, ← List.cons_append]
    simp only [Bool.not_not]
    rw [List.takeWhile_append_of_pos hChars,
      List.dropWhile_append_of_pos hChars]
    simp [hColon]

/- A text that starts with a slash has no scheme. -/
theorem scheme?_slash
    (rest : List Char) :
    scheme? ('/' :: rest) = none :=
  rfl

end Iri

------------------------------------------------------------
-- Characters of an address
------------------------------------------------------------

namespace Iri

section Characters

variable {P : Char → Prop}

/- What holds of a separator and of pieces holds of a text. -/
theorem forall_of_splitOn
    {mark : Char}
    {cs : List Char}
    (hMark : P mark)
    (h : ∀ piece ∈ Text.splitOn mark cs, ∀ c ∈ piece, P c) :
    ∀ c ∈ cs, P c := by
  intro c hMem
  rcases Text.mem_splitOn mark hMem with
    rfl | ⟨piece, hPiece, hIn⟩
  · exact hMark
  · exact h piece hPiece c hIn

/- A dotted address has digits and dots only. -/
theorem forall_of_isAddress4
    {cs : List Char}
    (hDigit : ∀ c, Text.isAsciiDigit c = true → P c)
    (hDot : P '.')
    (h : isAddress4 cs = true) :
    ∀ c ∈ cs, P c := by
  unfold isAddress4 at h
  rw [Bool.and_eq_true] at h
  apply forall_of_splitOn hDot
  intro piece hPiece c hMem
  have hOctet := List.all_eq_true.mp h.2 piece hPiece
  unfold isOctet at hOctet
  simp only [Bool.and_eq_true] at hOctet
  exact hDigit c (List.all_eq_true.mp hOctet.1.1.1.1 c hMem)

variable
  (hHex : ∀ c, Text.isHexDigit c = true → P c)
  (hColon : P ':')
  (hDot : P '.')

include hHex

theorem forall_of_isGroup
    {cs : List Char}
    (h : isGroup cs = true) :
    ∀ c ∈ cs, P c := by
  unfold isGroup at h
  simp only [Bool.and_eq_true] at h
  exact fun c hMem => hHex c (List.all_eq_true.mp h.1.1 c hMem)

include hDot

theorem forall_of_groupCount?
    {dotted : Bool}
    {pieces : List (List Char)}
    {n : Nat}
    (h : groupCount? dotted pieces = some n) :
    ∀ piece ∈ pieces, ∀ c ∈ piece, P c := by
  have hDigit : ∀ c, Text.isAsciiDigit c = true → P c := by
    intro c hIs
    apply hHex
    unfold Text.isHexDigit
    rw [hIs]
    rfl
  induction pieces generalizing n with
  | nil =>
      intro piece hPiece
      cases hPiece
  | cons piece rest ih =>
      intro other hOther
      cases rest with
      | nil =>
          cases List.mem_singleton.mp hOther
          unfold groupCount? at h
          split at h
          · next hGroup => exact forall_of_isGroup hHex hGroup
          · split at h
            · next hDotted =>
                exact forall_of_isAddress4 hDigit hDot
                  (Bool.and_eq_true_iff.mp hDotted).2
            · cases h
      | cons next more =>
          unfold groupCount? at h
          split at h
          · next hGroup =>
              rcases Option.map_eq_some_iff.mp h with ⟨m, hRest, _⟩
              rcases List.mem_cons.mp hOther with rfl | hIn
              · exact forall_of_isGroup hHex hGroup
              · exact ih hRest other hIn
          · cases h

include hColon

theorem forall_of_groupPieces
    {dotted : Bool}
    {cs : List Char}
    {n : Nat}
    (h : groupCount? dotted (groupPieces cs) = some n) :
    ∀ c ∈ cs, P c := by
  unfold groupPieces at h
  split at h
  · next hEmpty =>
      intro c hMem
      rw [List.isEmpty_iff.mp hEmpty] at hMem
      cases hMem
  · exact forall_of_splitOn hColon (forall_of_groupCount? hHex hDot h)

/- An address of eight groups has hex digits, colons and dots only. -/
theorem forall_of_isAddress6
    {cs : List Char}
    (h : isAddress6 cs = true) :
    ∀ c ∈ cs, P c := by
  unfold isAddress6 at h
  split at h
  · exact forall_of_groupPieces hHex hColon hDot (eq_of_beq h)
  · next head tail hCut =>
      split at h
      · next n m hHead hTail =>
          intro c hMem
          rw [Text.eq_append_of_cutAtText hCut] at hMem
          simp only [List.mem_append] at hMem
          rcases hMem with (hFront | hMark) | hBack
          · exact
              forall_of_groupPieces hHex hColon hDot hHead c hFront
          · rcases List.mem_pair.mp hMark with rfl | rfl <;> exact hColon
          · exact
              forall_of_groupPieces hHex hColon hDot hTail c hBack
      · cases h

end Characters

/- An address of eight groups has a colon. -/
theorem colon_mem_of_isAddress6
    {cs : List Char}
    (h : isAddress6 cs = true) :
    ':' ∈ cs := by
  unfold isAddress6 at h
  split at h
  · by_contra hNone
    have hCount : groupCount? true (groupPieces cs) ≠ some 8 := by
      unfold groupPieces
      rw [Text.splitOn_of_not_mem hNone]
      split
      · simp [groupCount?]
      · unfold groupCount?
        split
        · simp
        · split <;> simp
    exact hCount (eq_of_beq h)
  · next head tail hCut =>
      rw [Text.eq_append_of_cutAtText hCut]
      simp

/- It is no dotted address, and has no other characters. -/
theorem not_isAddress4_of_isAddress6
    {cs : List Char}
    (h : isAddress6 cs = true) :
    isAddress4 cs = false := by
  rw [← Bool.not_eq_true]
  intro hDotted
  have hNone : ∀ c ∈ cs, c ≠ ':' := by
    refine forall_of_isAddress4 (P := (· ≠ ':')) ?_ (by decide) hDotted
    rintro c hDigit rfl
    revert hDigit
    decide
  exact hNone ':' (colon_mem_of_isAddress6 h) rfl

theorem notMem_of_isAddress6
    {cs : List Char}
    {mark : Char}
    (hHex : Text.isHexDigit mark = false)
    (hColon : ':' ≠ mark)
    (hDot : '.' ≠ mark)
    (h : isAddress6 cs = true) :
    mark ∉ cs := by
  have hNone : ∀ c ∈ cs, c ≠ mark := by
    refine forall_of_isAddress6 (P := (· ≠ mark)) ?_ hColon hDot h
    rintro c hIs rfl
    rw [hIs] at hHex
    cases hHex
  exact fun hMem => hNone mark hMem rfl

/- Nor does a text with an address in front start with another. -/
theorem head?_ne_of_isAddress6
    {cs : List Char}
    {mark : Char}
    (hHex : Text.isHexDigit mark = false)
    (hColon : ':' ≠ mark)
    (hDot : '.' ≠ mark)
    (h : isAddress6 cs = true)
    (rest : List Char) :
    (cs ++ rest).head? ≠ some mark := by
  have hNone : mark ∉ cs := notMem_of_isAddress6 hHex hColon hDot h
  cases cs with
  | nil => cases h
  | cons c more =>
      intro hHead
      cases hHead
      exact hNone List.mem_cons_self

end Iri

------------------------------------------------------------
-- Hosts in brackets
------------------------------------------------------------

namespace Reference

/-
  A host that may stand in brackets: an address of eight
  groups, maybe with a zone, or one of a future version.
-/
inductive IsAddress : List Char → Prop where
  | groups
      {address : List Char}
      (h : Iri.isAddress6 address = true) :
      IsAddress address
  | zoned
      {address zone : List Char}
      (h : Iri.isAddress6 address = true)
      (hGiven : zone ≠ [])
      (hMark : '%' ∉ zone) :
      IsAddress (address ++ '%' :: zone)
  | future
      {version address : List Char}
      (hVersion : version ≠ [])
      (hDigits : ∀ c ∈ version, Text.isHexDigit c = true)
      (hGiven : address ≠ []) :
      IsAddress ('v' :: (version ++ '.' :: address))

section Hosts

variable {host : List Char}

theorem isZonedAddress6_iff :
    isZonedAddress6 host = true ↔
      Iri.isAddress6 host = true ∨
        ∃ address zone,
          host = address ++ '%' :: zone ∧
            Iri.isAddress6 address = true ∧ zone ≠ [] ∧
              '%' ∉ zone := by
  have hNone :
      ∀ {address : List Char},
        Iri.isAddress6 address = true → '%' ∉ address :=
    fun h =>
      Iri.notMem_of_isAddress6 (by decide) (by decide) (by decide) h
  constructor
  · intro h
    rcases Text.cutAtChar_cases '%' host with
      ⟨address, zone, _, hHost, hCut⟩
    unfold isZonedAddress6 at h
    rw [hCut] at h
    cases zone with
    | none =>
        rw [Text.afterMark, List.append_nil] at hHost
        rw [hHost]
        exact .inl h
    | some zone =>
        simp only [Bool.and_eq_true, Bool.not_eq_true',
          List.isEmpty_eq_false_iff, List.contains_eq_mem,
          decide_eq_false_iff_not] at h
        exact .inr ⟨address, zone, hHost, h.1.1, h.1.2, h.2⟩
  · unfold isZonedAddress6
    rintro (h | ⟨address, zone, rfl, h, hGiven, hMark⟩)
    · rw [Text.cutAtChar_of_not_mem (hNone h)]
      exact h
    · rw [Text.cutAtChar_append (hNone h)]
      simp [h, hGiven, hMark]

theorem isFutureHost_iff :
    isFutureHost host = true ↔
      ∃ version address,
        host = 'v' :: (version ++ '.' :: address) ∧
          version ≠ [] ∧
          (∀ c ∈ version, Text.isHexDigit c = true) ∧
            address ≠ [] := by
  have hDot : Text.isHexDigit '.' = false := by decide
  constructor
  · intro h
    unfold isFutureHost at h
    split at h
    · next rest =>
        rcases Text.cutAtChar_cases '.' rest with
          ⟨version, address, _, hRest, hCut⟩
        rw [hCut] at h
        cases address with
        | none => cases h
        | some address =>
            simp only [Bool.and_eq_true, Bool.not_eq_true',
              List.isEmpty_eq_false_iff, List.all_eq_true] at h
            exact ⟨version, address, by rw [hRest, Text.afterMark],
              h.1.2, h.1.1, h.2⟩
    · cases h
  · rintro ⟨version, address, rfl, hVersion, hDigits, hGiven⟩
    have hCut :
        Text.cutAtChar '.' (version ++ '.' :: address) =
          (version, some address) := by
      apply Text.cutAtChar_append
      intro hMem
      have hIs := hDigits '.' hMem
      rw [hDot] at hIs
      cases hIs
    unfold isFutureHost
    simpa [hCut, hVersion, hGiven] using hDigits

/- Only addresses of a future version start with a `v`. -/
theorem isAddress_iff_of_future
    (h : host.head? = some 'v') :
    IsAddress host ↔ isFutureHost host = true := by
  have hFirst :
      ∀ {address : List Char},
        Iri.isAddress6 address = true →
          ∀ rest, (address ++ rest).head? ≠ some 'v' :=
    fun hIs =>
      Iri.head?_ne_of_isAddress6 (by decide) (by decide) (by decide) hIs
  rw [isFutureHost_iff]
  constructor
  · intro hAddress
    cases hAddress with
    | groups hIs => exact absurd h (by simpa using hFirst hIs [])
    | zoned hIs _ _ => exact absurd h (hFirst hIs _)
    | future hVersion hDigits hGiven =>
        exact ⟨_, _, rfl, hVersion, hDigits, hGiven⟩
  · rintro ⟨version, address, rfl, hVersion, hDigits, hGiven⟩
    exact .future hVersion hDigits hGiven

/- All others have groups, and maybe a zone. -/
theorem isAddress_iff_of_groups
    (h : host.head? ≠ some 'v') :
    IsAddress host ↔ isZonedAddress6 host = true := by
  rw [isZonedAddress6_iff]
  constructor
  · intro hAddress
    cases hAddress with
    | groups hIs => exact .inl hIs
    | zoned hIs hGiven hMark =>
        exact .inr ⟨_, _, rfl, hIs, hGiven, hMark⟩
    | future _ _ _ => exact absurd rfl h
  · rintro (hIs | ⟨address, zone, rfl, hIs, hGiven, hMark⟩)
    · exact .groups hIs
    · exact .zoned hIs hGiven hMark

/- An address with groups, and maybe a zone, is not dotted. -/
theorem not_isZonedAddress6_of_isAddress4
    (h : Iri.isAddress4 host = true) :
    isZonedAddress6 host = false := by
  rw [← Bool.not_eq_true, isZonedAddress6_iff]
  rintro (hIs | ⟨address, zone, rfl, _, _, _⟩)
  · rw [Iri.not_isAddress4_of_isAddress6 hIs] at h
    cases h
  · have hNone : ∀ c ∈ address ++ '%' :: zone, c ≠ '%' := by
      refine
        Iri.forall_of_isAddress4 (P := (· ≠ '%')) ?_ (by decide) h
      rintro c hDigit rfl
      revert hDigit
      decide
    exact hNone '%' (by simp) rfl

/- What stands in brackets is refused unless it is an address. -/
theorem checkBracketed_ok_iff :
    checkBracketed host = .ok () ↔ IsAddress host := by
  unfold checkBracketed
  by_cases hFuture : host.head? = some 'v'
  · rw [if_pos (by rw [hFuture]; rfl), isAddress_iff_of_future hFuture]
    split <;> simp_all
  · rw [if_neg (by simpa using hFuture),
      isAddress_iff_of_groups hFuture]
    by_cases hDotted : Iri.isAddress4 host = true
    · rw [if_pos hDotted, not_isZonedAddress6_of_isAddress4 hDotted]
      simp
    · rw [if_neg hDotted]
      split <;> simp_all

end Hosts

------------------------------------------------------------
-- Authorities
------------------------------------------------------------

/-
  An authority that could be read in two ways: it has only
  one kind of bracket, brackets without an address in them, or
  a character that may be taken for the end of it.
-/
inductive Ambiguous
    (authority : List Char) : Prop where
  | unclosed
      (hOpen : '[' ∈ authority)
      (hClose : ']' ∉ authority) :
      Ambiguous authority
  | unopened
      (hOpen : '[' ∉ authority)
      (hClose : ']' ∈ authority) :
      Ambiguous authority
  | unaddressed
      (hOpen : '[' ∈ authority)
      (hClose : ']' ∈ authority)
      (hHost : ¬IsAddress (bracketed authority)) :
      Ambiguous authority
  | lookalike
      {c : Char}
      (hMem : c ∈ authority)
      (hLike : c.toNat ∈ delimiterLookalikes) :
      Ambiguous authority

/-
  A text with an authority: it follows two slashes at the
  front or after a scheme, and goes on to the next slash, mark
  of a query, or mark of a fragment.
-/
structure HasAuthority
    (text authority : List Char) : Prop where
  parts :
    ∃ head rest,
      text = head ++ '/' :: '/' :: (authority ++ rest) ∧
        (head = [] ∨
          ∃ scheme, Iri.IsScheme scheme ∧ head = scheme ++ [':']) ∧
        ∀ c ∈ rest.head?, Iri.endsAuthority c = true
  whole : ∀ c ∈ authority, Iri.endsAuthority c = false

/- A text that cannot be taken apart, for its authority. -/
def Unreadable
    (text : List Char) : Prop :=
  ∃ authority, HasAuthority (clean text) authority ∧ Ambiguous authority

theorem Ambiguous.ne_nil
    {authority : List Char}
    (h : Ambiguous authority) :
    authority ≠ [] := by
  rintro rfl
  cases h with
  | unclosed hOpen _ => cases hOpen
  | unopened _ hClose => cases hClose
  | unaddressed hOpen _ _ => cases hOpen
  | lookalike hMem _ => cases hMem

/- Brackets pass if there are none, or both around an address. -/
theorem checkBrackets_ok_iff
    {authority : List Char} :
    checkBrackets authority = .ok () ↔
      ('[' ∈ authority ↔ ']' ∈ authority) ∧
        ('[' ∈ authority → IsAddress (bracketed authority)) := by
  unfold checkBrackets
  rw [← checkBracketed_ok_iff]
  by_cases hOpen : '[' ∈ authority
  · by_cases hClose : ']' ∈ authority
    · simp [hOpen, hClose]
    · simp [hOpen, hClose]
  · by_cases hClose : ']' ∈ authority
    · simp [hOpen, hClose]
    · simp [hOpen, hClose]

/- An authority passes exactly if it is not ambiguous. -/
theorem checkAuthority_ok_iff
    {authority : List Char} :
    checkAuthority authority = .ok () ↔ ¬Ambiguous authority := by
  have hLike :
      authority.any (fun c => delimiterLookalikes.contains c.toNat) =
          true ↔
        ∃ c ∈ authority, c.toNat ∈ delimiterLookalikes := by
    simp only [List.any_eq_true, List.contains_iff_mem]
  unfold checkAuthority
  constructor
  · intro h hAmbiguous
    cases hBrackets : checkBrackets authority with
    | error fault =>
        rw [hBrackets] at h
        cases h
    | ok _ =>
        rw [hBrackets] at h
        rcases checkBrackets_ok_iff.mp hBrackets with ⟨hBoth, hHost⟩
        cases hAmbiguous with
        | unclosed hOpen hClose => exact hClose (hBoth.mp hOpen)
        | unopened hOpen hClose => exact hOpen (hBoth.mpr hClose)
        | unaddressed hOpen _ hNone => exact hNone (hHost hOpen)
        | lookalike hMem hIn =>
            dsimp only at h
            rw [if_pos (hLike.mpr ⟨_, hMem, hIn⟩)] at h
            cases h
  · intro hReadable
    have hBrackets : checkBrackets authority = .ok () := by
      refine checkBrackets_ok_iff.mpr ⟨⟨?_, ?_⟩, ?_⟩
      · intro hOpen
        by_contra hClose
        exact hReadable (.unclosed hOpen hClose)
      · intro hClose
        by_contra hOpen
        exact hReadable (.unopened hOpen hClose)
      · intro hOpen
        by_contra hNone
        by_cases hClose : ']' ∈ authority
        · exact hReadable (.unaddressed hOpen hClose hNone)
        · exact hReadable (.unclosed hOpen hClose)
    rw [hBrackets]
    dsimp only
    rw [if_neg]
    rintro hAny
    rcases hLike.mp hAny with ⟨c, hMem, hIn⟩
    exact hReadable (.lookalike hMem hIn)

/- An authority is refused exactly if it is ambiguous. -/
theorem checkAuthority_error_iff
    {authority : List Char} :
    (∃ fault, checkAuthority authority = .error fault) ↔
      Ambiguous authority := by
  rw [← not_iff_not, ← checkAuthority_ok_iff]
  cases checkAuthority authority with
  | error fault => simp
  | ok _ => simp

/- What follows two slashes, up to the end of an authority. -/
theorem takeWhile_authority
    {authority rest : List Char}
    (hWhole : ∀ c ∈ authority, Iri.endsAuthority c = false)
    (hRest : ∀ c ∈ rest.head?, Iri.endsAuthority c = true) :
    (authority ++ rest).takeWhile (fun c => !Iri.endsAuthority c) =
      authority := by
  rw [List.takeWhile_append_of_pos (by simpa using hWhole)]
  cases rest with
  | nil => simp
  | cons c tail => simp [hRest c rfl]

theorem hasAuthority_of_slashes
    {head rest : List Char}
    (hHead :
      head = [] ∨ ∃ scheme, Iri.IsScheme scheme ∧ head = scheme ++ [':']) :
    HasAuthority (head ++ '/' :: '/' :: rest)
      (rest.takeWhile (fun c => !Iri.endsAuthority c)) where
  parts := by
    refine ⟨head, rest.dropWhile (fun c => !Iri.endsAuthority c), ?_,
      hHead, ?_⟩
    · rw [List.takeWhile_append_dropWhile]
    · intro c hFirst
      have hNot :=
        List.head?_dropWhile_not (fun c => !Iri.endsAuthority c) rest
      rw [Option.mem_def.mp hFirst] at hNot
      simpa using hNot
  whole := by
    intro c hMem
    simpa using List.mem_takeWhile_imp hMem

------------------------------------------------------------
-- Finding authorities
------------------------------------------------------------

/- What follows the scheme of a text, or the whole text. -/
def afterScheme
    (text : List Char) : List Char :=
  match Iri.scheme? text with
  | some (_, rest) => rest
  | none => text

/- The authority that a text without a scheme begins with. -/
def leadingAuthority :
    List Char → List Char
  | '/' :: '/' :: rest =>
      rest.takeWhile (fun c => !Iri.endsAuthority c)
  | _ => []

/- The text from its scheme on, if a front is no part of it. -/
theorem afterScheme_cases
    (text : List Char) :
    ∃ head,
      text = head ++ afterScheme text ∧
        (head = [] ∨
          ∃ scheme, Iri.IsScheme scheme ∧ head = scheme ++ [':']) := by
  unfold afterScheme
  cases hScheme : Iri.scheme? text with
  | none => exact ⟨[], rfl, .inl rfl⟩
  | some parts =>
      rcases parts with ⟨scheme, rest⟩
      rcases Iri.scheme?_eq_some_iff.mp hScheme with
        ⟨hIsScheme, hText⟩
      exact ⟨scheme ++ [':'], by simp [hText],
        .inr ⟨scheme, hIsScheme, rfl⟩⟩

theorem afterScheme_slash
    {head rest : List Char}
    (hHead :
      head = [] ∨
        ∃ scheme, Iri.IsScheme scheme ∧ head = scheme ++ [':']) :
    afterScheme (head ++ '/' :: rest) = '/' :: rest := by
  unfold afterScheme
  rcases hHead with rfl | ⟨scheme, hIsScheme, rfl⟩
  · rw [List.nil_append, Iri.scheme?_slash]
  · have hScheme :
        Iri.scheme? (scheme ++ [':'] ++ '/' :: rest) =
          some (scheme, '/' :: rest) :=
      Iri.scheme?_eq_some_iff.mpr ⟨hIsScheme, by simp⟩
    rw [hScheme]

/- An authority that is not empty is found where the text has it. -/
theorem hasAuthority_iff
    {text authority : List Char}
    (hGiven : authority ≠ []) :
    HasAuthority text authority ↔
      leadingAuthority (afterScheme text) = authority := by
  constructor
  · rintro ⟨⟨head, rest, rfl, hHead, hRest⟩, hWhole⟩
    rw [afterScheme_slash hHead]
    exact takeWhile_authority hWhole hRest
  · intro hFound
    rcases afterScheme_cases text with ⟨head, hText, hHead⟩
    unfold leadingAuthority at hFound
    split at hFound
    · rename_i rest hSlashes
      rw [hText, hSlashes, ← hFound]
      exact hasAuthority_of_slashes hHead
    · exact absurd hFound.symm hGiven

theorem unreadable_iff
    {text : List Char} :
    Unreadable text ↔
      Ambiguous (leadingAuthority (afterScheme (clean text))) := by
  constructor
  · rintro ⟨authority, hAuthority, hAmbiguous⟩
    rw [(hasAuthority_iff hAmbiguous.ne_nil).mp hAuthority]
    exact hAmbiguous
  · intro hAmbiguous
    exact ⟨_, (hasAuthority_iff hAmbiguous.ne_nil).mpr rfl, hAmbiguous⟩

/- A text has no parts exactly if it is unreadable. -/
theorem split_error_iff
    {scheme text : List Char} :
    (∃ fault, split scheme text = .error fault) ↔ Unreadable text := by
  rw [unreadable_iff, ← checkAuthority_error_iff]
  unfold split
  extract_lets cleaned headed located
  have hHeaded : headed.2 = afterScheme cleaned := by
    unfold headed afterScheme
    cases Iri.scheme? cleaned with
    | none => rfl
    | some parts => rfl
  have hLocated : located.1 = leadingAuthority (afterScheme cleaned) := by
    unfold located
    rw [hHeaded]
    generalize afterScheme cleaned = rest
    split
    · rfl
    · rename_i hSlashes
      unfold leadingAuthority
      split
      · exact absurd rfl (hSlashes _)
      · rfl
  rw [← hLocated]
  cases checkAuthority located.1 with
  | error fault => exact iff_of_true ⟨fault, rfl⟩ ⟨fault, rfl⟩
  | ok _ => simp

------------------------------------------------------------
-- Readable texts
------------------------------------------------------------

/- A text that was taken apart is readable. -/
theorem not_unreadable_of_split
    {scheme text : List Char}
    {r : Reference}
    (h : split scheme text = .ok r) :
    ¬ Unreadable text := by
  intro hUnreadable
  rcases split_error_iff.mpr hUnreadable with ⟨fault, hError⟩
  rw [h] at hError
  cases hError

/- A text without brackets and lookalikes can be taken apart. -/
theorem not_unreadable_of_plain
    {text : List Char}
    (hOpen : '[' ∉ text)
    (hClose : ']' ∉ text)
    (hLike : ∀ c ∈ text, c.toNat ∉ delimiterLookalikes) :
    ¬ Unreadable text := by
  rintro ⟨authority, ⟨⟨head, rest, hText, _, _⟩, _⟩, hAmbiguous⟩
  have hPart : ∀ c ∈ authority, c ∈ text := by
    intro c hMem
    have hClean : c ∈ clean text := by
      rw [hText]
      simp [hMem]
    exact (List.dropWhile_suffix _).subset
      (List.mem_of_mem_filter hClean)
  cases hAmbiguous with
  | unclosed hMem _ => exact hOpen (hPart _ hMem)
  | unopened _ hMem => exact hClose (hPart _ hMem)
  | unaddressed hMem _ _ => exact hOpen (hPart _ hMem)
  | lookalike hMem hIn => exact hLike _ (hPart _ hMem) hIn

theorem not_unreadable_nil :
    ¬ Unreadable [] :=
  not_unreadable_of_plain (by simp) (by simp) (by simp)

/- Both texts are taken apart, unless one of them is empty. -/
theorem against_error_iff
    {base text : List Char} :
    (∃ fault, against base text = .error fault) ↔
      base ≠ [] ∧ text ≠ [] ∧ (Unreadable base ∨ Unreadable text) := by
  unfold against
  cases base with
  | nil => simp
  | cons b base =>
      cases text with
      | nil => simp
      | cons c text =>
          simp only [List.isEmpty_cons, Bool.false_eq_true, if_false,
            ne_eq, reduceCtorEq, not_false_eq_true, true_and]
          cases hBase : split [] (b :: base) with
          | error fault =>
              exact iff_of_true ⟨fault, rfl⟩
                (.inl (split_error_iff.mp ⟨fault, hBase⟩))
          | ok r =>
              dsimp only
              cases hText : split r.scheme (c :: text) with
              | error fault =>
                  exact iff_of_true ⟨fault, rfl⟩
                    (.inr (split_error_iff.mp ⟨fault, hText⟩))
              | ok q =>
                  refine iff_of_false ?_ ?_
                  · rintro ⟨fault, hError⟩
                    dsimp only at hError
                    split at hError
                    · cases hError
                    · split at hError
                      · cases hError
                      · split at hError <;> cases hError
                  · rintro (hUnreadable | hUnreadable)
                    · exact not_unreadable_of_split hBase hUnreadable
                    · exact not_unreadable_of_split hText hUnreadable

end Reference

------------------------------------------------------------
-- Resolution
------------------------------------------------------------

namespace Iri

/-
  References that a base cannot resolve: the empty one if the
  base has a fragment and is unreadable, and others without a
  scheme if one of the two is unreadable.
-/
inductive Unresolvable
    (base : String) : String → Prop where
  | document
      (hMark : '#' ∈ base.toList)
      (hBase : Reference.Unreadable base.toList) :
      Unresolvable base ""
  | base
      {reference : String}
      (hGiven : reference ≠ "")
      (hRelative : scheme? reference.toList = none)
      (hBase : Reference.Unreadable base.toList) :
      Unresolvable base reference
  | reference
      {reference : String}
      (hBase : base ≠ "")
      (hRelative : scheme? reference.toList = none)
      (hReference : Reference.Unreadable reference.toList) :
      Unresolvable base reference

/- A fragment is taken off by taking the text apart. -/
theorem withoutFragment_error_iff
    {text : String} :
    (∃ fault, withoutFragment text = .error fault) ↔
      '#' ∈ text.toList ∧ Reference.Unreadable text.toList := by
  unfold withoutFragment
  by_cases hMark : '#' ∈ text.toList
  · rw [if_pos (List.contains_iff_mem.mpr hMark),
      ← Reference.split_error_iff]
    cases Reference.split [] text.toList with
    | error fault => exact iff_of_true ⟨fault, rfl⟩ ⟨hMark, fault, rfl⟩
    | ok r => simp
  · rw [if_neg (fun hIn => hMark (List.contains_iff_mem.mp hIn))]
    simp [hMark]

/- The empty reference only needs to take off a fragment. -/
theorem unresolvable_empty_iff
    {base : String} :
    Unresolvable base "" ↔
      '#' ∈ base.toList ∧ Reference.Unreadable base.toList := by
  constructor
  · intro h
    cases h with
    | document hMark hBase => exact ⟨hMark, hBase⟩
    | base hGiven _ _ => exact absurd rfl hGiven
    | reference _ _ hReference =>
        exact absurd hReference Reference.not_unreadable_nil
  · rintro ⟨hMark, hBase⟩
    exact .document hMark hBase

/- Another one without a scheme is taken apart with its base. -/
theorem unresolvable_iff_of_relative
    {base reference : String}
    (hGiven : reference ≠ "")
    (hRelative : scheme? reference.toList = none) :
    Unresolvable base reference ↔
      base ≠ "" ∧
        (Reference.Unreadable base.toList ∨
          Reference.Unreadable reference.toList) := by
  constructor
  · intro h
    cases h with
    | document _ _ => exact absurd rfl hGiven
    | base _ _ hBase =>
        refine ⟨?_, .inl hBase⟩
        rintro rfl
        exact Reference.not_unreadable_nil hBase
    | reference hBase _ hReference => exact ⟨hBase, .inr hReference⟩
  · rintro ⟨hBase, hUnreadable | hUnreadable⟩
    · exact .base hGiven hRelative hUnreadable
    · exact .reference hBase hRelative hUnreadable

/- A reference with a scheme names itself. -/
theorem not_unresolvable_of_scheme
    {base reference : String}
    (h : (scheme? reference.toList).isSome = true) :
    ¬ Unresolvable base reference := by
  intro hUnresolvable
  cases hUnresolvable with
  | document _ _ => cases h
  | base _ hRelative _ =>
      rw [hRelative] at h
      cases h
  | reference _ hRelative _ =>
      rw [hRelative] at h
      cases h

/- A reference fails to resolve exactly if it is unresolvable. -/
theorem resolve_error_iff
    {base reference : String} :
    (∃ fault, resolve base reference = .error fault) ↔
      Unresolvable base (Text.trim reference) := by
  unfold resolve
  generalize Text.trim reference = trimmed
  dsimp only
  by_cases hEmpty : trimmed = ""
  · rw [if_pos (by simp [hEmpty]), withoutFragment_error_iff, hEmpty,
      unresolvable_empty_iff]
  · rw [if_neg (by simpa using hEmpty)]
    by_cases hScheme : (scheme? trimmed.toList).isSome = true
    · rw [if_pos hScheme]
      exact iff_of_false (by simp) (not_unresolvable_of_scheme hScheme)
    · have hRelative := Option.not_isSome_iff_eq_none.mp hScheme
      have hAgainst :
          (∃ fault,
            Reference.against base.toList trimmed.toList =
              .error fault) ↔
            Unresolvable base trimmed := by
        rw [Reference.against_error_iff,
          unresolvable_iff_of_relative hEmpty hRelative]
        simp [hEmpty]
      rw [if_neg hScheme, ← hAgainst]
      cases Reference.against base.toList trimmed.toList with
      | error fault => exact iff_of_true ⟨fault, rfl⟩ ⟨fault, rfl⟩
      | ok text => simp

end Iri
end LinkedMarkup
