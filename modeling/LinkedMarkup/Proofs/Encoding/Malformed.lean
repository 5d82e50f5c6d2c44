import LinkedMarkup.Proofs.Encoding.Sequences

/-
  This file proves when malformed bytes are marked by a
  replacement character: always, except for sequences that
  are read as their value although they are longer than need
  be or give a surrogate. Where nothing is replaced, the
  bytes can be told from what is read, unless such a sequence
  is among them.

  Key definitions include:
    * `Utf8.Disguised`
    * `Utf8.Genuine`
    * `Utf8.MarksMalformed`
    * `Utf8.PassesUnmarked`

  Main declarations:
    * `Utf8.Sequence.isCharacter_or_disguised`
    * `Utf8.isCharacter_of_within`
    * `Utf8.marksMalformed_iff`
    * `Utf8.malformed_marked_unless_disguised`
    * `Utf8.not_malformedMarked`
-/

namespace LinkedMarkup
namespace Utf8

------------------------------------------------------------
-- Disguised sequences
------------------------------------------------------------

/-
  A sequence that is no character, but is read as its value:
  it is longer than need be, or a surrogate.
-/
structure Disguised
    (s : List Nat)
    (value : Nat) : Prop where
  sequence : Sequence s value
  bound : value ≤ 0x10FFFF
  misfit :
    (encodeScalar value).length < s.length ∨ IsHigh value ∨ IsLow value

theorem IsCharacter.sequence
    {character : List Nat}
    (h : IsCharacter character) :
    ∃ value, Sequence character value := by
  cases h with
  | one ha => exact ⟨_, .intro (.one (by omega)) (by simp)⟩
  | two ha hb =>
      exact ⟨_, .intro (.two (by omega)) (by simp [hb])⟩
  | three ha hb hc =>
      exact ⟨_, .intro (.three (by omega)) (by simp [hb, hc])⟩
  | four ha hb hc hd =>
      exact ⟨_, .intro (.four (by omega)) (by simp [hb, hc, hd])⟩

/- A character is no disguised sequence. -/
theorem Disguised.not_isCharacter
    {s : List Nat}
    {value : Nat}
    (h : Disguised s value) :
    ¬ IsCharacter s := by
  intro hCharacter
  rcases exists_char_of_isCharacter hCharacter with ⟨c, rfl⟩
  have hBound : c.toNat ≤ 0x10FFFF := by
    have hRange := toNat_range c
    omega
  have hRead := decodeFrom_encodeScalar hBound []
  have hSame := decode_sequence h.sequence []
  rw [complete_of_le h.bound] at hSame
  have hValue : c.toNat = value :=
    (List.cons.inj (hRead.symm.trans hSame)).1
  subst hValue
  rcases h.misfit with hLength | hHigh | hLow
  · exact Nat.lt_irrefl _ hLength
  · exact not_isHigh_toNat c hHigh
  · exact not_isLow_toNat c hLow

/- What takes several bytes to write is not small. -/
theorem least_of_length
    {count n : Nat}
    (h : count ≤ (encodeScalar n).length) :
    (2 ≤ count → 0x80 ≤ n) ∧ (3 ≤ count → 0x800 ≤ n) ∧
      (4 ≤ count → 0x10000 ≤ n) := by
  have hLength :
      (encodeScalar n).length =
        if n < 0x80 then 1
        else if n < 0x800 then 2
        else if n < 0x10000 then 3
        else 4 := by
    rw [encodeScalar_eq]
    split_ifs <;> rfl
  rw [hLength] at h
  split_ifs at h <;> omega

/-
  A sequence is a character unless it is disguised. Each
  number of bytes puts its value together from them, and the
  ranges of the grammar say that it needs as many.
-/
theorem Sequence.isCharacter_or_disguised
    {s : List Nat}
    {value : Nat}
    (h : Sequence s value)
    (hBound : value ≤ 0x10FFFF) :
    IsCharacter s ∨ Disguised s value := by
  by_cases hMisfit :
      (encodeScalar value).length < s.length ∨ IsHigh value ∨ IsLow value
  · exact .inr ⟨h, hBound, hMisfit⟩
  left
  rw [not_or, Nat.not_lt] at hMisfit
  rcases least_of_length hMisfit.1 with ⟨hTwo, hThree, hFour⟩
  have hUnit := hMisfit.2
  unfold IsHigh IsLow at hUnit
  rcases h with ⟨hFirst, hTails⟩
  rename_i first bits tails
  rcases tails with _ | ⟨b, _ | ⟨c, _ | ⟨d, _ | ⟨e, tails⟩⟩⟩⟩
  · cases hFirst
    exact .one (by omega)
  · have hb := hTails b (by simp)
    have hLeast := hTwo (Nat.le_refl 2)
    rcases hb.exists_bits with ⟨x, hx, rfl⟩
    rw [joined_cons, joined_nil] at hLeast
    cases hFirst with
    | two hByte => exact .two (by omega) hb
  · have hb := hTails b (by simp)
    have hc := hTails c (by simp)
    have hLeast := hThree (Nat.le_refl 3)
    rcases hb.exists_bits with ⟨x, hx, rfl⟩
    rcases hc.exists_bits with ⟨y, hy, rfl⟩
    rw [joined_cons, joined_cons, joined_nil] at hLeast hUnit
    cases hFirst with
    | three hByte => exact .three (by omega) hb hc (by omega) (by omega)
  · have hb := hTails b (by simp)
    have hc := hTails c (by simp)
    have hd := hTails d (by simp)
    have hLeast := hFour (Nat.le_refl 4)
    rcases hb.exists_bits with ⟨x, hx, rfl⟩
    rcases hc.exists_bits with ⟨y, hy, rfl⟩
    rcases hd.exists_bits with ⟨z, hz, rfl⟩
    rw [joined_cons, joined_cons, joined_cons, joined_nil]
      at hBound hLeast
    cases hFirst with
    | four hByte => exact .four (by omega) hb hc hd (by omega) (by omega)
  · cases hFirst

/- All bytes of a character but the first are tails. -/
theorem isTail_of_isCharacter
    {first : Nat}
    {rest : List Nat}
    (h : IsCharacter (first :: rest)) :
    ∀ byte ∈ rest, IsTail byte := by
  cases h <;> simp [*]

/- Sequences that begin the same bytes are the same. -/
theorem Sequence.unique
    {s s' rest rest' : List Nat}
    {value value' : Nat}
    (h : Sequence s value)
    (h' : Sequence s' value')
    (hSame : s ++ rest = s' ++ rest') :
    s = s' := by
  rcases h with ⟨hFirst, _⟩
  rcases h' with ⟨hFirst', _⟩
  rw [List.cons_append, List.cons_append] at hSame
  rcases List.cons.inj hSame with ⟨rfl, hTails⟩
  rw [(List.append_inj hTails (hFirst.unique hFirst').1).1]

/- A sequence among well-formed bytes is a character. -/
theorem isCharacter_of_within
    {bytes s : List Nat}
    {value : Nat}
    (hBytes : WellFormed bytes)
    (h : Sequence s value)
    (hInfix : s <:+: bytes) :
    IsCharacter s := by
  induction hBytes with
  | nil =>
      rw [List.infix_nil] at hInfix
      subst hInfix
      cases h
  | @cons character rest hCharacter _ ih =>
      rcases hInfix with ⟨before, after, hWhole⟩
      rw [List.append_assoc] at hWhole
      rcases List.append_eq_append_iff.mp hWhole with
        ⟨excess, hOver, hRest⟩ | ⟨excess, rfl, hRest⟩
      · cases before with
        | nil =>
            -- The sequence begins where the character does.
            rcases hCharacter.sequence with ⟨value', hSequence⟩
            rw [h.unique hSequence hWhole]
            exact hCharacter
        | cons first before =>
            -- It cannot begin inside of the character.
            cases excess with
            | nil => exact ih ⟨[], after, by simpa using hRest⟩
            | cons byte excess =>
                rcases h with ⟨hFirst, _⟩
                rw [List.cons_append] at hRest
                rcases List.cons.inj hRest with ⟨rfl, _⟩
                rw [hOver] at hCharacter
                have hTail :=
                  isTail_of_isCharacter hCharacter _
                    (List.mem_append_right before List.mem_cons_self)
                exact absurd hTail.top hFirst.top_ne
      · -- It begins after the character.
        exact ih ⟨excess, after, by rw [List.append_assoc, ← hRest]⟩

/- Bytes that hold no disguised sequence. -/
def Genuine
    (bytes : List Nat) : Prop :=
  ∀ s value, s <:+: bytes → ¬ Disguised s value

theorem WellFormed.genuine
    {bytes : List Nat}
    (h : WellFormed bytes) :
    Genuine bytes := by
  intro s value hInfix hDisguised
  exact
    hDisguised.not_isCharacter
      (isCharacter_of_within h hDisguised.sequence hInfix)

theorem Genuine.within
    {bytes part : List Nat}
    (h : Genuine bytes)
    (hPart : part <:+: bytes) :
    Genuine part :=
  fun s value hInfix => h s value (hInfix.trans hPart)

/- A value is read as itself or as a replacement. -/
theorem complete_cases
    (value : Nat) :
    value ≤ 0x10FFFF ∧ complete value = value ∨
      complete value = replacement := by
  unfold complete
  split
  · exact .inr rfl
  · rename_i hValue
    exact .inl ⟨Nat.le_of_not_lt hValue, rfl⟩

------------------------------------------------------------
-- What is marked
------------------------------------------------------------

/- Without a replacement, all pieces are characters or disguised. -/
theorem Pieces.wellFormed
    {bytes : List Nat}
    {points : List CodePoint}
    (h : Pieces bytes points)
    (hFree : replacement ∉ points)
    (hGenuine : Genuine bytes) :
    WellFormed bytes := by
  induction h with
  | nil => exact .nil
  | cons hPiece _ ih =>
      rw [List.mem_cons, not_or] at hFree
      have hRest := ih hFree.2
        (hGenuine.within (List.suffix_append _ _).isInfix)
      cases hPiece with
      | broken _ => exact absurd rfl hFree.1
      | @sequence value hSequence =>
          rcases complete_cases value with ⟨hBound, _⟩ | hReplaced
          · rcases hSequence.isCharacter_or_disguised hBound with
              hCharacter | hDisguised
            · exact .cons hCharacter hRest
            · exact
                absurd hDisguised
                  (hGenuine _ value (List.prefix_append _ _).isInfix)
          · exact absurd hReplaced.symm hFree.1

/- Only a disguised sequence is read as a surrogate. -/
theorem Pieces.exists_surrogate
    {bytes : List Nat}
    {points : List CodePoint}
    (h : Pieces bytes points)
    {c : CodePoint}
    (hMem : c ∈ points)
    (hUnit : IsHigh c ∨ IsLow c) :
    ∃ s, s <:+: bytes ∧ Disguised s c := by
  have hReplacement : ¬ (IsHigh replacement ∨ IsLow replacement) := by
    unfold IsHigh IsLow replacement
    omega
  induction h with
  | nil => cases hMem
  | cons hPiece _ ih =>
      rcases List.mem_cons.mp hMem with rfl | hLater
      · cases hPiece with
        | broken _ => exact absurd hUnit hReplacement
        | @sequence value hSequence =>
            rcases complete_cases value with ⟨hBound, hSame⟩ | hReplaced
            · rw [hSame] at hUnit ⊢
              exact
                ⟨_, (List.prefix_append _ _).isInfix, hSequence, hBound,
                  .inr hUnit⟩
            · rw [hReplaced] at hUnit
              exact absurd hUnit hReplacement
      · rcases ih hLater with ⟨s, hInfix, hDisguised⟩
        exact
          ⟨s, hInfix.trans (List.suffix_append _ _).isInfix, hDisguised⟩

/- Code points without surrogates are those of a text. -/
theorem exists_text
    {points : List CodePoint}
    (hBound : ∀ c ∈ points, c ≤ 0x10FFFF)
    (hUnit : ∀ c ∈ points, ¬ (IsHigh c ∨ IsLow c)) :
    ∃ text : String, points = codes text := by
  induction points with
  | nil => exact ⟨"", rfl⟩
  | cons c points ih =>
      rcases exists_char (hUnit c List.mem_cons_self)
          (hBound c List.mem_cons_self) with ⟨d, rfl⟩
      rcases ih (fun e hMem => hBound e (List.mem_cons_of_mem _ hMem))
          (fun e hMem => hUnit e (List.mem_cons_of_mem _ hMem)) with
        ⟨text, rfl⟩
      exact ⟨String.ofList (d :: text.toList), by simp [codes]⟩

/-
  Malformed bytes are marked if what is read for them is a
  text in which something is replaced.
-/
def MarksMalformed
    (bytes : List Nat) : Prop :=
  ¬ WellFormed bytes →
    replacement ∈ decode bytes ∧ ∃ text : String, decode bytes = codes text

/-
  Bytes with a disguised sequence that is not marked: what is
  read for it is no character, or nothing at all is replaced.
-/
inductive PassesUnmarked
    (bytes : List Nat) : Prop where
  | intro
      {s : List Nat}
      {value : Nat}
      (hInfix : s <:+: bytes)
      (hDisguised : Disguised s value)
      (hUnmarked :
        (IsHigh value ∨ IsLow value) ∨ replacement ∉ decode bytes) :
      PassesUnmarked bytes

theorem marksMalformed_iff
    {bytes : List Nat}
    (hBytes : ∀ byte ∈ bytes, byte < 0x100) :
    MarksMalformed bytes ↔ ¬ PassesUnmarked bytes := by
  have hPieces := pieces_decode hBytes
  constructor
  · rintro hMarks ⟨hInfix, hDisguised, hUnmarked⟩
    have hMalformed : ¬ WellFormed bytes :=
      fun h => h.genuine _ _ hInfix hDisguised
    rcases hMarks hMalformed with ⟨hReplaced, text, hText⟩
    rcases hUnmarked with hUnit | hFree
    · have hMem := mem_decode_of_within hDisguised.sequence hInfix
      rw [complete_of_le hDisguised.bound, hText] at hMem
      rcases List.mem_map.mp hMem with ⟨c, _, rfl⟩
      exact hUnit.elim (not_isHigh_toNat c) (not_isLow_toNat c)
    · exact hFree hReplaced
  · intro hPasses hMalformed
    constructor
    · by_contra hFree
      refine hMalformed (hPieces.wellFormed hFree ?_)
      intro s value hInfix hDisguised
      exact hPasses ⟨hInfix, hDisguised, .inr hFree⟩
    · apply exists_text (fun c hMem => le_of_mem_decodeFrom hMem)
      intro c hMem hUnit
      rcases hPieces.exists_surrogate hMem hUnit with
        ⟨s, hInfix, hDisguised⟩
      exact hPasses ⟨hInfix, hDisguised, .inl hUnit⟩

/- Without a replacement, what is read is written back if genuine. -/
theorem encode_decode_eq_iff_genuine
    {bytes : List Nat}
    (hBytes : ∀ byte ∈ bytes, byte < 0x100)
    (hFree : replacement ∉ decode bytes) :
    encode (decode bytes) = bytes ↔ Genuine bytes := by
  constructor
  · intro h
    rw [← h]
    exact
      (wellFormed_encode
        (fun c hMem => le_of_mem_decodeFrom hMem)).genuine
  · intro hGenuine
    exact
      encode_decode_of_wellFormed
        ((pieces_decode hBytes).wellFormed hFree hGenuine)

/-
  Malformed bytes are marked, unless a disguised sequence is
  in them and is not marked. If nothing is replaced, then the
  bytes come back exactly if no sequence in them is disguised,
  and no other bytes of that kind are read as the same.
-/
theorem malformed_marked_unless_disguised
    {bytes : List Nat}
    (hBytes : ∀ byte ∈ bytes, byte < 0x100) :
    (MarksMalformed bytes ↔ ¬ PassesUnmarked bytes) ∧
    (replacement ∉ decode bytes →
      (encode (decode bytes) = bytes ↔ Genuine bytes) ∧
      ∀ other : List Nat,
        (∀ byte ∈ other, byte < 0x100) →
          decode other = decode bytes →
            Genuine bytes → Genuine other → other = bytes) := by
  refine ⟨marksMalformed_iff hBytes, ?_⟩
  intro hFree
  refine ⟨encode_decode_eq_iff_genuine hBytes hFree, ?_⟩
  intro other hOther hSame hGenuine hGenuine'
  have hFree' : replacement ∉ decode other := by
    rw [hSame]
    exact hFree
  calc
    other = encode (decode other) :=
      ((encode_decode_eq_iff_genuine hOther hFree').mpr hGenuine').symm
    _ = encode (decode bytes) := by rw [hSame]
    _ = bytes := (encode_decode_eq_iff_genuine hBytes hFree).mpr hGenuine

/- A slash in two bytes is a disguised sequence. -/
theorem disguised_slash :
    Disguised [0xC0, 0xAF] 0x2F := by
  have hTails : ∀ tail ∈ [0xAF], IsTail tail := by
    intro tail hMem
    rw [List.mem_singleton] at hMem
    rw [hMem]
    exact ⟨by decide, by decide⟩
  have hSequence : Sequence [0xC0, 0xAF] (joined 0 [0xAF]) :=
    .intro (.two (by decide)) hTails
  exact ⟨hSequence, by decide, .inl (by decide)⟩

/- It is read as a slash, and not marked. -/
theorem slash_passes_unmarked :
    (∀ byte ∈ [0x2E, 0xC0, 0xAF], byte < 0x100) ∧
      decode [0x2E, 0xC0, 0xAF] = codes "./" ∧
      ¬ MarksMalformed [0x2E, 0xC0, 0xAF] ∧
      encode (decode [0x2E, 0xC0, 0xAF]) ≠ [0x2E, 0xC0, 0xAF] := by
  have hBytes : ∀ byte ∈ [0x2E, 0xC0, 0xAF], byte < 0x100 := by decide
  have hRead : decode [0x2E, 0xC0, 0xAF] = codes "./" := by decide
  have hFree : replacement ∉ decode [0x2E, 0xC0, 0xAF] := by decide
  have hInfix : [0xC0, 0xAF] <:+: [0x2E, 0xC0, 0xAF] := ⟨[0x2E], [], rfl⟩
  rcases malformed_marked_unless_disguised hBytes with
    ⟨hMarks, hBack⟩
  refine ⟨hBytes, hRead, ?_, ?_⟩
  · rw [hMarks, not_not]
    exact ⟨hInfix, disguised_slash, .inr hFree⟩
  · intro hSame
    exact (hBack hFree).1.mp hSame _ _ hInfix disguised_slash

/- So malformed bytes may go unmarked. -/
theorem not_malformedMarked :
    ¬ ∀ bytes : List Nat,
        (∀ byte ∈ bytes, byte < 0x100) → MarksMalformed bytes := by
  intro hMarked
  have hBytes : ∀ byte ∈ [0xC0, 0xAF], byte < 0x100 := by decide
  have hFree : replacement ∉ decode [0xC0, 0xAF] := by decide
  exact
    (marksMalformed_iff hBytes).mp (hMarked _ hBytes)
      ⟨List.infix_rfl, disguised_slash, .inr hFree⟩

end Utf8
end LinkedMarkup
