import LinkedMarkup.Proofs.Encoding.Scanning

/-
  This file proves which bytes come back unchanged when they
  are read and written again: exactly the well-formed ones,
  which are the UTF-8 of the texts. What is well-formed is
  told by a grammar of bytes alone.

  Key definitions include:
    * `Utf8.IsTail`
    * `Utf8.IsCharacter`
    * `Utf8.WellFormed`

  Main declarations:
    * `Utf8.exists_char_of_isCharacter`
    * `Utf8.wellFormed_iff`
    * `Utf8.wellFormed_encode`
    * `Utf8.encode_decode_eq_iff`
    * `Utf8.strict?_bytesOf`
    * `Utf8.strict?_eq_none`
-/

namespace LinkedMarkup
namespace Utf8

------------------------------------------------------------
-- The grammar
------------------------------------------------------------

/- The bytes of a character after its first. -/
def IsTail
    (byte : Nat) : Prop :=
  0x80 ≤ byte ∧ byte ≤ 0xBF

/-
  The bytes of one character. Some first bytes narrow the
  range of the second: it must not be so low that fewer bytes
  would do, nor so high that the character is a surrogate or
  lies beyond the last one.
-/
inductive IsCharacter : List Nat → Prop where
  | one
      {a : Nat}
      (ha : a ≤ 0x7F) :
      IsCharacter [a]
  | two
      {a b : Nat}
      (ha : 0xC2 ≤ a ∧ a ≤ 0xDF)
      (hb : IsTail b) :
      IsCharacter [a, b]
  | three
      {a b c : Nat}
      (ha : 0xE0 ≤ a ∧ a ≤ 0xEF)
      (hb : IsTail b)
      (hc : IsTail c)
      (hShortest : a = 0xE0 → 0xA0 ≤ b)
      (hSurrogate : a = 0xED → b ≤ 0x9F) :
      IsCharacter [a, b, c]
  | four
      {a b c d : Nat}
      (ha : 0xF0 ≤ a ∧ a ≤ 0xF4)
      (hb : IsTail b)
      (hc : IsTail c)
      (hd : IsTail d)
      (hShortest : a = 0xF0 → 0x90 ≤ b)
      (hLast : a = 0xF4 → b ≤ 0x8F) :
      IsCharacter [a, b, c, d]

/- Well-formed bytes are those of characters, one by one. -/
inductive WellFormed : List Nat → Prop where
  | nil :
      WellFormed []
  | cons
      {character rest : List Nat}
      (hCharacter : IsCharacter character)
      (hRest : WellFormed rest) :
      WellFormed (character ++ rest)

------------------------------------------------------------
-- Characters
------------------------------------------------------------

/- What is written for a character has its grammar. -/
theorem isCharacter_encodeScalar
    (c : Char) :
    IsCharacter (encodeScalar c.toNat) := by
  have hRange := toNat_range c
  rw [encodeScalar_eq]
  generalize c.toNat = n at hRange ⊢
  by_cases hOne : n < 0x80
  · rw [if_pos hOne]
    exact .one (by omega)
  rw [if_neg hOne]
  by_cases hTwo : n < 0x800
  · rw [if_pos hTwo]
    exact .two (by omega) ⟨by omega, by omega⟩
  rw [if_neg hTwo]
  by_cases hThree : n < 0x10000
  · rw [if_pos hThree]
    exact
      .three (by omega) ⟨by omega, by omega⟩ ⟨by omega, by omega⟩
        (by omega) (by omega)
  · rw [if_neg hThree]
    exact
      .four (by omega) ⟨by omega, by omega⟩ ⟨by omega, by omega⟩
        ⟨by omega, by omega⟩ (by omega) (by omega)

/-
  What has the grammar of a character is written for one. The
  bits of the bytes put its number together, and the ranges
  of the bytes tell that it takes as many bytes.
-/
theorem exists_char_of_isCharacter
    {bytes : List Nat}
    (h : IsCharacter bytes) :
    ∃ c : Char, encodeScalar c.toNat = bytes := by
  have hWritten :
      ∀ n : Nat,
        n ≤ 0x10FFFF →
          ¬ (IsHigh n ∨ IsLow n) →
            encodeScalar n = bytes →
              ∃ c : Char, encodeScalar c.toNat = bytes := by
    intro n hBound hUnit hBytes
    rcases exists_char hUnit hBound with ⟨c, rfl⟩
    exact ⟨c, hBytes⟩
  unfold IsHigh IsLow at hWritten
  cases h with
  | @one a ha =>
      apply hWritten a (by omega) (by omega)
      rw [encodeScalar_eq, if_pos (by omega)]
  | @two a b ha hb =>
      rcases hb with ⟨hb, hb'⟩
      obtain ⟨n, hn⟩ :
          ∃ n, n = (a - 0xC0) * 0x40 + (b - 0x80) := ⟨_, rfl⟩
      have hFirst : 0xC0 + n / 0x40 = a := by omega
      have hSecond : 0x80 + n % 0x40 = b := by omega
      apply hWritten n (by omega) (by omega)
      rw [encodeScalar_eq, if_neg (by omega), if_pos (by omega),
        hFirst, hSecond]
  | @three a b c ha hb hc hShortest hSurrogate =>
      rcases hb with ⟨hb, hb'⟩
      rcases hc with ⟨hc, hc'⟩
      obtain ⟨n, hn⟩ :
          ∃ n, n =
            ((a - 0xE0) * 0x40 + (b - 0x80)) * 0x40 + (c - 0x80) :=
        ⟨_, rfl⟩
      have hFirst : 0xE0 + n / 0x1000 = a := by omega
      have hSecond : 0x80 + n / 0x40 % 0x40 = b := by omega
      have hThird : 0x80 + n % 0x40 = c := by omega
      apply hWritten n (by omega) (by omega)
      rw [encodeScalar_eq, if_neg (by omega), if_neg (by omega),
        if_pos (by omega), hFirst, hSecond, hThird]
  | @four a b c d ha hb hc hd hShortest hLast =>
      rcases hb with ⟨hb, hb'⟩
      rcases hc with ⟨hc, hc'⟩
      rcases hd with ⟨hd, hd'⟩
      obtain ⟨n, hn⟩ :
          ∃ n, n =
            (((a - 0xF0) * 0x40 + (b - 0x80)) * 0x40 + (c - 0x80)) *
              0x40 + (d - 0x80) :=
        ⟨_, rfl⟩
      have hFirst : 0xF0 + n / 0x40000 = a := by omega
      have hSecond : 0x80 + n / 0x1000 % 0x40 = b := by omega
      have hThird : 0x80 + n / 0x40 % 0x40 = c := by omega
      have hFourth : 0x80 + n % 0x40 = d := by omega
      apply hWritten n (by omega) (by omega)
      rw [encodeScalar_eq, if_neg (by omega), if_neg (by omega),
        if_neg (by omega), hFirst, hSecond, hThird, hFourth]

------------------------------------------------------------
-- Texts
------------------------------------------------------------

theorem wellFormed_bytesOf
    (text : String) :
    WellFormed (bytesOf text) := by
  rw [bytesOf_eq, codes]
  induction text.toList with
  | nil => exact .nil
  | cons c rest ih => exact .cons (isCharacter_encodeScalar c) ih

/- The well-formed bytes are the UTF-8 of the texts. -/
theorem wellFormed_iff
    (bytes : List Nat) :
    WellFormed bytes ↔ ∃ text : String, bytesOf text = bytes := by
  constructor
  · intro h
    induction h with
    | nil => exact ⟨"", rfl⟩
    | cons hCharacter _ ih =>
        rcases exists_char_of_isCharacter hCharacter with ⟨c, rfl⟩
        rcases ih with ⟨text, rfl⟩
        refine ⟨String.ofList (c :: text.toList), ?_⟩
        simp [bytesOf_eq, codes]
  · rintro ⟨text, rfl⟩
    exact wellFormed_bytesOf text

/- Well-formed bytes are read as a text, which has those bytes. -/
theorem decode_of_wellFormed
    {bytes : List Nat}
    (h : WellFormed bytes) :
    ∃ text : String, bytesOf text = bytes ∧ decode bytes = codes text := by
  rcases (wellFormed_iff bytes).mp h with ⟨text, rfl⟩
  exact ⟨text, rfl, decode_bytesOf text⟩

/- Reading and writing leaves well-formed bytes as they are. -/
theorem encode_decode_of_wellFormed
    {bytes : List Nat}
    (h : WellFormed bytes) :
    encode (decode bytes) = bytes := by
  rcases decode_of_wellFormed h with ⟨text, hBytes, hText⟩
  exact
    (congrArg encode hText).trans
      ((encode_of_scanned (scanned_codes text.toList)).trans hBytes)

------------------------------------------------------------
-- First bytes
------------------------------------------------------------

/-
  What the first byte of a sequence tells its reader: how
  many bytes come after it, and the bits that it carries.
-/
inductive Announces : Nat → Nat → Nat → Prop where
  | one
      {byte : Nat}
      (hByte : byte < 0x80) :
      Announces byte 0 byte
  | two
      {byte : Nat}
      (hByte : 0xC0 ≤ byte ∧ byte < 0xE0) :
      Announces byte 1 (byte - 0xC0)
  | three
      {byte : Nat}
      (hByte : 0xE0 ≤ byte ∧ byte < 0xF0) :
      Announces byte 2 (byte - 0xE0)
  | four
      {byte : Nat}
      (hByte : 0xF0 ≤ byte ∧ byte < 0xF8) :
      Announces byte 3 (byte - 0xF0)

/-
  A byte between sequences is a code point, opens a sequence,
  or can do neither and is replaced.
-/
theorem lead_cases
    (byte : Nat) :
    (∃ bits, Announces byte 0 bits ∧ lead byte = ([bits], none)) ∨
    (∃ owed bits,
      Announces byte (owed + 1) bits ∧
        lead byte = ([], some ⟨owed, bits⟩)) ∨
    ((∀ count bits, ¬ Announces byte count bits) ∧
      lead byte = ([replacement], none)) := by
  unfold lead
  by_cases hOne : byte < 0x80
  · rw [if_pos hOne]
    exact .inl ⟨byte, .one hOne, rfl⟩
  rw [if_neg hOne]
  by_cases hTail : byte < 0xC0
  · rw [if_pos hTail]
    refine .inr (.inr ⟨?_, rfl⟩)
    rintro count bits (_ | _ | _ | _) <;> omega
  rw [if_neg hTail]
  by_cases hTwo : byte < 0xE0
  · have hBits : byte % 0x20 = byte - 0xC0 := by omega
    rw [if_pos hTwo, hBits]
    exact .inr (.inl ⟨0, _, .two (by omega), rfl⟩)
  rw [if_neg hTwo]
  by_cases hThree : byte < 0xF0
  · have hBits : byte % 0x10 = byte - 0xE0 := by omega
    rw [if_pos hThree, hBits]
    exact .inr (.inl ⟨1, _, .three (by omega), rfl⟩)
  rw [if_neg hThree]
  by_cases hFour : byte < 0xF8
  · have hBits : byte % 0x08 = byte - 0xF0 := by omega
    rw [if_pos hFour, hBits]
    exact .inr (.inl ⟨2, _, .four (by omega), rfl⟩)
  · rw [if_neg hFour]
    refine .inr (.inr ⟨?_, rfl⟩)
    rintro count bits (_ | _ | _ | _) <;> omega

------------------------------------------------------------
-- Bounds
------------------------------------------------------------

theorem le_of_mem_lead
    {byte c : Nat}
    (h : c ∈ (lead byte).1) :
    c ≤ 0x10FFFF := by
  rcases lead_cases byte with
    ⟨bits, hBits, hLead⟩ | ⟨owed, bits, _, hLead⟩ | ⟨_, hLead⟩
  · rw [hLead, List.mem_singleton] at h
    cases hBits
    omega
  · rw [hLead] at h
    cases h
  · rw [hLead, List.mem_singleton] at h
    rw [h]
    decide

theorem complete_le
    (value : Nat) :
    complete value ≤ 0x10FFFF := by
  unfold complete
  split
  · decide
  · rename_i hValue
    exact Nat.le_of_not_lt hValue

theorem le_of_mem_step
    {open? : Option Partial}
    {byte c : Nat}
    (h : c ∈ (step open? byte).1) :
    c ≤ 0x10FFFF := by
  unfold step at h
  split at h
  · exact le_of_mem_lead h
  · rename_i owed value
    split at h
    · cases owed with
      | zero =>
          rw [List.mem_singleton] at h
          rw [h]
          exact complete_le _
      | succ owed => cases h
    · rcases List.mem_cons.mp h with rfl | hLead
      · decide
      · exact le_of_mem_lead hLead

/- Whatever is read is within the range of code points. -/
theorem le_of_mem_decodeFrom
    {open? : Option Partial}
    {bytes : List Nat}
    {c : Nat}
    (h : c ∈ decodeFrom open? bytes) :
    c ≤ 0x10FFFF := by
  induction bytes generalizing open? with
  | nil =>
      cases open? with
      | none => cases h
      | some p =>
          rw [decodeFrom, finish, List.mem_singleton] at h
          rw [h]
          decide
  | cons byte rest ih =>
      rw [decodeFrom, List.mem_append] at h
      rcases h with hStep | hRest
      · exact le_of_mem_step hStep
      · exact ih hRest

------------------------------------------------------------
-- Reading and writing
------------------------------------------------------------

/- Only well-formed bytes are written. -/
theorem wellFormed_encode
    {points : List CodePoint}
    (hPoints : ∀ c ∈ points, c ≤ 0x10FFFF) :
    WellFormed (encode points) := by
  rcases exists_scanned points hPoints with ⟨text, hText⟩
  have hScanned : Scanned points (String.ofList text).toList := by
    rw [String.toList_ofList]
    exact hText
  rw [encode_of_scanned hScanned]
  exact wellFormed_bytesOf _

/-
  The bytes that come back unchanged when they are read and
  written again are the well-formed ones.
-/
theorem encode_decode_eq_iff
    (bytes : List Nat) :
    encode (decode bytes) = bytes ↔ WellFormed bytes := by
  constructor
  · intro h
    rw [← h]
    exact wellFormed_encode (fun c hMem => le_of_mem_decodeFrom hMem)
  · exact encode_decode_of_wellFormed

------------------------------------------------------------
-- Strict reading
------------------------------------------------------------

/- The bytes of a text are read as that text. -/
theorem strict?_bytesOf
    (text : String) :
    strict? (bytesOf text) = some text := by
  have hSame :
      encode (decode (bytesOf text)) = bytesOf text :=
    encode_decode_of_wellFormed (wellFormed_bytesOf text)
  unfold strict?
  dsimp only
  rw [if_pos (beq_iff_eq.mpr hSame), decode_bytesOf, codes,
    List.map_map]
  simp [Function.comp_def]

/- No other bytes are read as a text. -/
theorem strict?_eq_none
    {bytes : List Nat}
    (h : ¬ WellFormed bytes) :
    strict? bytes = none := by
  unfold strict?
  dsimp only
  rw [if_neg]
  intro hSame
  apply h
  rw [← eq_of_beq hSame]
  exact wellFormed_encode (fun c hMem => le_of_mem_decodeFrom hMem)

end Utf8
end LinkedMarkup
