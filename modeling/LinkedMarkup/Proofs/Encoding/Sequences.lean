import LinkedMarkup.Proofs.Encoding.Grammar

/-
  This file proves how any bytes are cut up when they are
  read. Reading starts afresh at every byte that cannot
  continue a sequence, so what is broken does not touch what
  comes after it. A complete sequence is read as its value,
  wherever it stands, and every other piece as a replacement.

  Key definitions include:
    * `Utf8.StartsAfresh`
    * `Utf8.Sequence`
    * `Utf8.Pieces`

  Main declarations:
    * `Utf8.decodeFrom_append`
    * `Utf8.reading_resynchronises`
    * `Utf8.decode_sequence`
    * `Utf8.mem_decode_of_within`
    * `Utf8.pieces_decode`
-/

namespace LinkedMarkup
namespace Utf8

------------------------------------------------------------
-- Starting afresh
------------------------------------------------------------

/- Bytes that do not begin with the top bits `10`. -/
def StartsAfresh
    (bytes : List Nat) : Prop :=
  ∀ byte ∈ bytes.head?, byte / 0x40 % 4 ≠ 2

/- A byte that starts afresh ends an open sequence. -/
theorem step_afresh
    {byte : Nat}
    (hByte : byte / 0x40 % 4 ≠ 2)
    (open? : Option Partial) :
    step open? byte = (finish open? ++ (lead byte).1, (lead byte).2) := by
  have hNot : isContinuation byte = false := by
    simpa [isContinuation] using hByte
  cases open? with
  | none => rfl
  | some p => simp [step, hNot, finish]

theorem decodeFrom_afresh
    {bytes : List Nat}
    (h : StartsAfresh bytes)
    (open? : Option Partial) :
    decodeFrom open? bytes = finish open? ++ decode bytes := by
  cases bytes with
  | nil => simp [decode, decodeFrom, finish]
  | cons byte rest =>
      have hByte : byte / 0x40 % 4 ≠ 2 := h byte rfl
      have hNone : finish none = [] := rfl
      rw [decode, decodeFrom, decodeFrom, step_afresh hByte,
        step_afresh hByte, hNone]
      simp

/-
  Bytes that start afresh are read as if nothing came before
  them, even if a sequence is open.
-/
theorem decodeFrom_append
    (before : List Nat)
    {after : List Nat}
    (hAfter : StartsAfresh after)
    (open? : Option Partial) :
    decodeFrom open? (before ++ after) =
      decodeFrom open? before ++ decode after := by
  induction before generalizing open? with
  | nil => exact decodeFrom_afresh hAfter open?
  | cons byte rest ih =>
      rw [List.cons_append, decodeFrom, decodeFrom, ih,
        List.append_assoc]

/- Every byte has a reading, whatever is open. -/
theorem decodeWideFrom_ofNat
    (bytes : List Nat)
    (open? : Option Partial) :
    decodeWideFrom open? (bytes.map Int.ofNat) =
      some (decodeFrom open? bytes) := by
  induction bytes generalizing open? with
  | nil => rfl
  | cons byte rest ih =>
      rw [List.map_cons, decodeWideFrom, ih, decodeFrom]
      rfl

/- A character starts afresh. -/
theorem IsCharacter.startsAfresh
    {character : List Nat}
    (h : IsCharacter character)
    (rest : List Nat) :
    StartsAfresh (character ++ rest) := by
  intro byte hHead
  cases h <;> cases hHead <;> omega

theorem WellFormed.startsAfresh
    {bytes : List Nat}
    (h : WellFormed bytes) :
    StartsAfresh bytes := by
  cases h with
  | nil =>
      intro byte hHead
      cases hHead
  | cons hCharacter _ => exact hCharacter.startsAfresh _

/-
  All bytes have a reading, in code points, and reading starts
  afresh wherever a sequence may begin. So bytes that are cut
  off or malformed leave the characters after them as they
  are.
-/
theorem reading_resynchronises :
    (∀ bytes : List Nat,
      decodeWide (bytes.map Int.ofNat) = some (decode bytes) ∧
        ∀ c ∈ decode bytes, c ≤ 0x10FFFF) ∧
    (∀ before after : List Nat,
      StartsAfresh after →
        decode (before ++ after) = decode before ++ decode after) ∧
    (∀ (before : List Nat) (text : String),
      decode (before ++ bytesOf text) =
        decode before ++ codes text) := by
  refine ⟨?_, ?_, ?_⟩
  · intro bytes
    exact
      ⟨decodeWideFrom_ofNat bytes none,
        fun c hMem => le_of_mem_decodeFrom hMem⟩
  · intro before after hAfter
    exact decodeFrom_append before hAfter none
  · intro before text
    have hAfter := (wellFormed_bytesOf text).startsAfresh
    rw [← decode_bytesOf text]
    exact decodeFrom_append before hAfter none

/-
  A sequence of three bytes is cut off before a letter, and
  one of two bytes before a sequence of its own.
-/
theorem letter_after_truncated_sequence :
    StartsAfresh [0x62] ∧
      decode ([0x61, 0xE2, 0x82] ++ [0x62]) = [0x61, 0xFFFD, 0x62] ∧
      decode ([0xC3] ++ bytesOf "é") = [0xFFFD, 0xE9] := by
  have hAfter : StartsAfresh [0x62] := by
    intro byte hHead
    cases hHead
    decide
  refine ⟨hAfter, ?_, ?_⟩
  · rw [reading_resynchronises.2.1 _ _ hAfter]
    decide
  · rw [reading_resynchronises.2.2]
    decide

------------------------------------------------------------
-- Sequences
------------------------------------------------------------

/- The value of bits and of the bytes that continue them. -/
def joined
    (bits : Nat)
    (tails : List Nat) : Nat :=
  tails.foldl (fun value tail => value * 0x40 + (tail - 0x80)) bits

/-
  A sequence with its value: a first byte, and as many bytes
  after it as it announces.
-/
inductive Sequence : List Nat → Nat → Prop where
  | intro
      {first bits : Nat}
      {tails : List Nat}
      (hFirst : Announces first tails.length bits)
      (hTails : ∀ tail ∈ tails, IsTail tail) :
      Sequence (first :: tails) (joined bits tails)

theorem Announces.unique
    {byte count count' bits bits' : Nat}
    (h : Announces byte count bits)
    (h' : Announces byte count' bits') :
    count = count' ∧ bits = bits' := by
  cases h <;> cases h' <;> omega

/- What opens a sequence does not continue one. -/
theorem Announces.top_ne
    {byte count bits : Nat}
    (h : Announces byte count bits) :
    byte / 0x40 % 4 ≠ 2 := by
  cases h <;> omega

theorem IsTail.top
    {tail : Nat}
    (h : IsTail tail) :
    tail / 0x40 % 4 = 2 := by
  unfold IsTail at h
  omega

theorem IsTail.exists_bits
    {tail : Nat}
    (h : IsTail tail) :
    ∃ bits, bits < 0x40 ∧ tail = 0x80 + bits := by
  rcases h with ⟨hLow, hHigh⟩
  exact ⟨tail - 0x80, by omega, by omega⟩

theorem joined_nil
    (bits : Nat) :
    joined bits [] = bits :=
  rfl

theorem joined_cons
    (bits value : Nat)
    (tails : List Nat) :
    joined value ((0x80 + bits) :: tails) =
      joined (value * 0x40 + bits) tails := by
  rw [joined, List.foldl_cons, Nat.add_sub_cancel_left, joined]

/- A sequence that is completed is read as its value. -/
theorem decodeFrom_tails
    {owed : Nat}
    {tails : List Nat}
    (hLength : tails.length = owed + 1)
    (hTails : ∀ tail ∈ tails, IsTail tail)
    (value : Nat)
    (rest : List Nat) :
    decodeFrom (some ⟨owed, value⟩) (tails ++ rest) =
      complete (joined value tails) :: decode rest := by
  induction tails generalizing owed value with
  | nil => cases hLength
  | cons tail tails ih =>
      rcases (hTails tail List.mem_cons_self).exists_bits with
        ⟨bits, hBits, rfl⟩
      rw [joined_cons]
      cases tails with
      | nil =>
          cases hLength
          exact decodeFrom_cons (step_last hBits value) rest
      | cons next tails =>
          cases owed with
          | zero => cases hLength
          | succ owed =>
              rw [List.cons_append,
                decodeFrom_cons (step_continue hBits owed value)]
              exact
                ih (Nat.succ.inj hLength)
                  (fun t hMem => hTails t (List.mem_cons_of_mem _ hMem)) _

/- A sequence that is cut off is read as a replacement. -/
theorem decodeFrom_truncated
    {owed : Nat}
    {tails : List Nat}
    (hLength : tails.length ≤ owed)
    (hTails : ∀ tail ∈ tails, IsTail tail)
    (value : Nat) :
    decodeFrom (some ⟨owed, value⟩) tails = [replacement] := by
  induction tails generalizing owed value with
  | nil => rfl
  | cons tail tails ih =>
      rcases (hTails tail List.mem_cons_self).exists_bits with
        ⟨bits, hBits, rfl⟩
      cases owed with
      | zero => cases hLength
      | succ owed =>
          rw [decodeFrom_cons (step_continue hBits owed value)]
          exact
            ih (Nat.le_of_succ_le_succ hLength)
              (fun t hMem => hTails t (List.mem_cons_of_mem _ hMem)) _

theorem complete_of_announces
    {byte bits : Nat}
    (h : Announces byte 0 bits) :
    complete bits = bits := by
  cases h
  exact complete_of_le (by omega)

/- Sequences are read one by one. -/
theorem decode_sequence
    {s : List Nat}
    {value : Nat}
    (h : Sequence s value)
    (rest : List Nat) :
    decode (s ++ rest) = complete value :: decode rest := by
  rcases h with ⟨hFirst, hTails⟩
  rename_i first bits tails
  rcases lead_cases first with
    ⟨bits', hBits, hLead⟩ | ⟨owed, bits', hBits, hLead⟩ | ⟨hNone, _⟩
  · rcases hFirst.unique hBits with ⟨hLength, rfl⟩
    rw [List.length_eq_zero_iff] at hLength
    subst hLength
    have hStep : step none first = ([bits], none) := hLead
    rw [joined, List.foldl_nil, complete_of_announces hBits]
    exact decodeFrom_cons hStep rest
  · rcases hFirst.unique hBits with ⟨hLength, rfl⟩
    have hStep : step none first = ([], some ⟨owed, bits⟩) := hLead
    exact
      (decodeFrom_cons hStep (tails ++ rest)).trans
        (decodeFrom_tails hLength hTails bits rest)
  · exact absurd hFirst (hNone _ _)

theorem Sequence.startsAfresh
    {s : List Nat}
    {value : Nat}
    (h : Sequence s value)
    (rest : List Nat) :
    StartsAfresh (s ++ rest) := by
  rcases h with ⟨hFirst, _⟩
  intro byte hHead
  cases hHead
  exact hFirst.top_ne

/- A sequence is read as its value wherever it stands. -/
theorem mem_decode_of_within
    {s bytes : List Nat}
    {value : Nat}
    (h : Sequence s value)
    (hInfix : s <:+: bytes) :
    complete value ∈ decode bytes := by
  rcases hInfix with ⟨before, after, rfl⟩
  have hWhole :
      decode (before ++ (s ++ after)) =
        decode before ++ decode (s ++ after) :=
    decodeFrom_append before (h.startsAfresh after) none
  rw [List.append_assoc, hWhole, decode_sequence h]
  simp

------------------------------------------------------------
-- Pieces
------------------------------------------------------------

/-
  A piece of bytes with what is read for it: a sequence is
  read as its value, and what is none as a replacement.
-/
inductive Piece : List Nat → CodePoint → Prop where
  | sequence
      {s : List Nat}
      {value : Nat}
      (hSequence : Sequence s value) :
      Piece s (complete value)
  | broken
      {s : List Nat}
      (hBroken : ∀ value, ¬ Sequence s value) :
      Piece s replacement

/- Bytes cut into pieces, with what is read for them. -/
inductive Pieces : List Nat → List CodePoint → Prop where
  | nil :
      Pieces [] []
  | cons
      {s rest : List Nat}
      {c : CodePoint}
      {points : List CodePoint}
      (hPiece : Piece s c)
      (hRest : Pieces rest points) :
      Pieces (s ++ rest) (c :: points)

/- Bytes begin with as many tails as are owed, or with less. -/
theorem exists_tails
    (count : Nat)
    {bytes : List Nat}
    (hBytes : ∀ byte ∈ bytes, byte < 0x100) :
    ∃ tails rest,
      bytes = tails ++ rest ∧
        (∀ tail ∈ tails, IsTail tail) ∧
        (tails.length = count ∨
          tails.length < count ∧ StartsAfresh rest) := by
  induction count generalizing bytes with
  | zero => exact ⟨[], bytes, rfl, by simp, .inl rfl⟩
  | succ count ih =>
      by_cases hAfresh : StartsAfresh bytes
      · exact
          ⟨[], bytes, rfl, by simp, .inr ⟨Nat.succ_pos count, hAfresh⟩⟩
      · cases bytes with
        | nil =>
            refine absurd ?_ hAfresh
            intro byte hHead
            cases hHead
        | cons byte bytes =>
            have hTail : IsTail byte := by
              have hByte := hBytes byte List.mem_cons_self
              have hTop : byte / 0x40 % 4 = 2 := by
                by_contra hNot
                apply hAfresh
                intro first hHead
                cases hHead
                exact hNot
              exact ⟨by omega, by omega⟩
            rcases ih
                (fun b hMem => hBytes b (List.mem_cons_of_mem _ hMem))
              with ⟨tails, rest, rfl, hTails, hLength⟩
            refine ⟨byte :: tails, rest, rfl, ?_, ?_⟩
            · intro tail hMem
              rcases List.mem_cons.mp hMem with rfl | hMore
              · exact hTail
              · exact hTails tail hMore
            · simpa using hLength

/- What is read first is read for a piece, and the rest after it. -/
theorem exists_piece
    (first : Nat)
    {bytes : List Nat}
    (hBytes : ∀ byte ∈ bytes, byte < 0x100) :
    ∃ tails rest c,
      bytes = tails ++ rest ∧ Piece (first :: tails) c ∧
        decode (first :: bytes) = c :: decode rest := by
  rcases lead_cases first with
    ⟨bits, hBits, _⟩ | ⟨owed, bits, hBits, hLead⟩ | ⟨hNone, hLead⟩
  · have hSequence : Sequence [first] bits :=
      .intro hBits (by simp)
    exact
      ⟨[], bytes, _, rfl, .sequence hSequence,
        decode_sequence hSequence bytes⟩
  · have hStep : step none first = ([], some ⟨owed, bits⟩) := hLead
    rcases exists_tails (owed + 1) hBytes with
      ⟨tails, rest, rfl, hTails, hWhole | ⟨hShort, hAfresh⟩⟩
    · have hSequence :
          Sequence (first :: tails) (joined bits tails) := by
        apply Sequence.intro _ hTails
        rw [hWhole]
        exact hBits
      exact
        ⟨tails, rest, _, rfl, .sequence hSequence,
          decode_sequence hSequence rest⟩
    · refine ⟨tails, rest, replacement, rfl, .broken ?_, ?_⟩
      · rintro value ⟨hFirst, _⟩
        rcases hFirst.unique hBits with ⟨hCount, _⟩
        omega
      · rw [decode, decodeFrom_cons hStep,
          decodeFrom_append tails hAfresh,
          decodeFrom_truncated (Nat.le_of_lt_succ hShort) hTails]
        rfl
  · have hStep : step none first = ([replacement], none) := hLead
    refine ⟨[], bytes, replacement, rfl, .broken ?_, ?_⟩
    · rintro value ⟨hFirst, _⟩
      exact hNone _ _ hFirst
    · exact decodeFrom_cons hStep bytes

/- Bytes are read piece by piece. -/
theorem pieces_decode
    {bytes : List Nat}
    (hBytes : ∀ byte ∈ bytes, byte < 0x100) :
    Pieces bytes (decode bytes) := by
  induction hSize : bytes.length using Nat.strongRecOn
    generalizing bytes with
  | ind size ih =>
  cases bytes with
  | nil => exact .nil
  | cons first bytes =>
      have hMore : ∀ byte ∈ bytes, byte < 0x100 :=
        fun b hMem => hBytes b (List.mem_cons_of_mem first hMem)
      rcases exists_piece first hMore with
        ⟨tails, rest, c, rfl, hPiece, hRead⟩
      rw [hRead]
      refine .cons (s := first :: tails) hPiece (ih _ ?_ ?_ rfl)
      · rw [← hSize, List.length_cons, List.length_append]
        omega
      · intro byte hMem
        exact hMore byte (List.mem_append_right tails hMem)

end Utf8
end LinkedMarkup
