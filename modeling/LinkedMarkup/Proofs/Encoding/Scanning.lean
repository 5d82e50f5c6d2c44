import LinkedMarkup.Encoding.Utf8
import Mathlib.Data.List.Basic

/-
  This file proves what the encoder writes and what the
  decoder reads back. Code points are scanned from left to
  right into the text that they stand for, and what is
  written is the UTF-8 of that text.

  Key definitions include:
    * `Utf8.IsHigh`
    * `Utf8.IsLow`
    * `Utf8.Scanned`
    * `Utf8.Split`
    * `Utf8.codes`
    * `Utf8.bytesOf`

  Main declarations:
    * `Utf8.scalars_of_scanned`
    * `Utf8.exists_scanned`
    * `Utf8.encodeScalar_toNat`
    * `Utf8.decodeFrom_encodeScalar`
    * `Utf8.writes_the_scanned_text`
-/

namespace LinkedMarkup
namespace Utf8

------------------------------------------------------------
-- Scanned texts
------------------------------------------------------------

/- The range of leading surrogates. -/
def IsHigh
    (unit : Nat) : Prop :=
  0xD800 ≤ unit ∧ unit ≤ 0xDBFF

/- The range of trailing surrogates. -/
def IsLow
    (unit : Nat) : Prop :=
  0xDC00 ≤ unit ∧ unit ≤ 0xDFFF

/-
  The text that code points stand for, scanned from left to
  right. A high surrogate directly followed by a low one is
  one character, and any other surrogate is the replacement
  character.
-/
inductive Scanned : List CodePoint → List Char → Prop where
  | nil :
      Scanned [] []
  | pair
      {high low : Nat}
      {points : List CodePoint}
      {c : Char}
      {text : List Char}
      (hHigh : IsHigh high)
      (hLow : IsLow low)
      (hValue :
        c.toNat = 0x10000 + (high - 0xD800) * 0x400 + (low - 0xDC00))
      (hRest : Scanned points text) :
      Scanned (high :: low :: points) (c :: text)
  | lone
      {unit : Nat}
      {points : List CodePoint}
      {text : List Char}
      (hUnit : IsHigh unit ∨ IsLow unit)
      (hLone : IsHigh unit → ∀ low ∈ points.head?, ¬ IsLow low)
      (hRest : Scanned points text) :
      Scanned (unit :: points) ('\uFFFD' :: text)
  | scalar
      (c : Char)
      {points : List CodePoint}
      {text : List Char}
      (hRest : Scanned points text) :
      Scanned (c.toNat :: points) (c :: text)

/-
  Ways to write a text as code points, where a supplementary
  character may be split into its surrogate pair.
-/
inductive Split : List Char → List CodePoint → Prop where
  | nil :
      Split [] []
  | whole
      (c : Char)
      {text : List Char}
      {points : List CodePoint}
      (hRest : Split text points) :
      Split (c :: text) (c.toNat :: points)
  | pair
      {c : Char}
      {text : List Char}
      {points : List CodePoint}
      (hSupplementary : 0x10000 ≤ c.toNat)
      (hRest : Split text points) :
      Split (c :: text)
        ((0xD800 + (c.toNat - 0x10000) / 0x400) ::
          (0xDC00 + (c.toNat - 0x10000) % 0x400) :: points)

/- The scalar values of a text. -/
def codes
    (text : String) : List CodePoint :=
  text.toList.map Char.toNat

/- The UTF-8 of a text. -/
def bytesOf
    (text : String) : List Nat :=
  text.toUTF8.data.toList.map UInt8.toNat

------------------------------------------------------------
-- Surrogates
------------------------------------------------------------

theorem isHighSurrogate_iff
    (unit : Nat) :
    isHighSurrogate unit = true ↔ IsHigh unit := by
  unfold isHighSurrogate IsHigh
  simp only [Bool.and_eq_true, decide_eq_true_eq]
  omega

theorem isLowSurrogate_iff
    (unit : Nat) :
    isLowSurrogate unit = true ↔ IsLow unit := by
  unfold isLowSurrogate IsLow
  simp only [Bool.and_eq_true, decide_eq_true_eq]
  omega

theorem isSurrogate_iff
    (unit : Nat) :
    (isHighSurrogate unit || isLowSurrogate unit) = true ↔
      IsHigh unit ∨ IsLow unit := by
  rw [Bool.or_eq_true, isHighSurrogate_iff, isLowSurrogate_iff]

theorem isPair_iff
    (high low : Nat) :
    (isHighSurrogate high && isLowSurrogate low) = true ↔
      IsHigh high ∧ IsLow low := by
  rw [Bool.and_eq_true, isHighSurrogate_iff, isLowSurrogate_iff]

/- A character is below the surrogates or above them. -/
theorem toNat_range
    (c : Char) :
    c.toNat < 0xD800 ∨ 0xDFFF < c.toNat ∧ c.toNat ≤ 0x10FFFF := by
  have h := c.valid
  unfold UInt32.isValidChar Nat.isValidChar at h
  unfold Char.toNat
  omega

theorem not_isHigh_toNat
    (c : Char) :
    ¬ IsHigh c.toNat := by
  unfold IsHigh
  have hRange := toNat_range c
  omega

theorem not_isLow_toNat
    (c : Char) :
    ¬ IsLow c.toNat := by
  unfold IsLow
  have hRange := toNat_range c
  omega

/- The low ten bits of a pair are its distances from the ranges. -/
theorem combineSurrogates_eq
    {high low : Nat}
    (hHigh : IsHigh high)
    (hLow : IsLow low) :
    combineSurrogates high low =
      0x10000 + (high - 0xD800) * 0x400 + (low - 0xDC00) := by
  unfold IsHigh at hHigh
  unfold IsLow at hLow
  have hHighBits : ((high : Int) % 0x400).toNat = high - 0xD800 := by
    omega
  have hLowBits : ((low : Int) % 0x400).toNat = low - 0xDC00 := by
    omega
  rw [combineSurrogates, hHighBits, hLowBits]

------------------------------------------------------------
-- Scanning
------------------------------------------------------------

theorem scalars_pair
    {high low : Nat}
    (hHigh : IsHigh high)
    (hLow : IsLow low)
    (points : List CodePoint) :
    scalars (high :: low :: points) =
      combineSurrogates high low :: scalars points := by
  rw [scalars, if_pos ((isPair_iff high low).mpr ⟨hHigh, hLow⟩)]

theorem scalars_lone
    {unit : Nat}
    {points : List CodePoint}
    (hUnit : IsHigh unit ∨ IsLow unit)
    (hLone : IsHigh unit → ∀ low ∈ points.head?, ¬ IsLow low) :
    scalars (unit :: points) = replacement :: scalars points := by
  have hEither := (isSurrogate_iff unit).mpr hUnit
  cases points with
  | nil => simp [scalars, hEither]
  | cons next rest =>
      have hNotPair :
          ¬ (isHighSurrogate unit && isLowSurrogate next) = true := by
        rw [isPair_iff]
        rintro ⟨hHigh, hLow⟩
        exact hLone hHigh next rfl hLow
      rw [scalars, if_neg hNotPair, if_pos hEither]

theorem scalars_other
    {c : Nat}
    (hHigh : ¬ IsHigh c)
    (hLow : ¬ IsLow c)
    (points : List CodePoint) :
    scalars (c :: points) = c :: scalars points := by
  have hHigh' : isHighSurrogate c = false :=
    Bool.eq_false_iff.mpr (mt (isHighSurrogate_iff c).mp hHigh)
  have hLow' : isLowSurrogate c = false :=
    Bool.eq_false_iff.mpr (mt (isLowSurrogate_iff c).mp hLow)
  cases points with
  | nil => simp [scalars, hHigh', hLow']
  | cons next rest => simp [scalars, hHigh', hLow']

/- The scalar values of code points are those of their text. -/
theorem scalars_of_scanned
    {points : List CodePoint}
    {text : List Char}
    (h : Scanned points text) :
    scalars points = text.map Char.toNat := by
  induction h with
  | nil => rfl
  | pair hHigh hLow hValue _ ih =>
      rw [scalars_pair hHigh hLow, combineSurrogates_eq hHigh hLow, ih,
        List.map_cons, hValue]
  | lone hUnit hLone _ ih =>
      rw [scalars_lone hUnit hLone, ih]
      rfl
  | scalar c _ ih =>
      rw [scalars_other (not_isHigh_toNat c) (not_isLow_toNat c), ih,
        List.map_cons]

/- Code points stand for one text only. -/
theorem scanned_unique
    {points : List CodePoint}
    {text text' : List Char}
    (h : Scanned points text)
    (h' : Scanned points text') :
    text = text' := by
  have hCodes :=
    (scalars_of_scanned h).symm.trans (scalars_of_scanned h')
  refine List.map_injective_iff.mpr ?_ hCodes
  intro c c' hToNat
  exact Char.toNat_inj.mp hToNat

theorem exists_char
    {n : Nat}
    (hUnit : ¬ (IsHigh n ∨ IsLow n))
    (hBound : n ≤ 0x10FFFF) :
    ∃ c : Char, c.toNat = n := by
  have hValid : n.isValidChar := by
    unfold IsHigh IsLow at hUnit
    unfold Nat.isValidChar
    omega
  refine ⟨Char.ofNat n, ?_⟩
  rw [Char.ofNat, dif_pos hValid]
  rfl

/- A surrogate pair stands for a supplementary character. -/
theorem exists_supplementary
    {high low : Nat}
    (hHigh : IsHigh high)
    (hLow : IsLow low) :
    ∃ c : Char,
      c.toNat = 0x10000 + (high - 0xD800) * 0x400 + (low - 0xDC00) := by
  unfold IsHigh at hHigh
  unfold IsLow at hLow
  apply exists_char
  · unfold IsHigh IsLow
    omega
  · omega

/- Any code points stand for a text. -/
theorem exists_scanned
    (points : List CodePoint)
    (hPoints : ∀ c ∈ points, c ≤ 0x10FFFF) :
    ∃ text, Scanned points text := by
  induction points using scalars.induct with
  | case1 => exact ⟨[], .nil⟩
  | case2 c hUnit =>
      rw [isSurrogate_iff] at hUnit
      exact ⟨_, .lone hUnit (by simp) .nil⟩
  | case3 c hUnit =>
      rw [isSurrogate_iff] at hUnit
      rcases exists_char hUnit (hPoints c (by simp)) with ⟨d, rfl⟩
      exact ⟨_, .scalar d .nil⟩
  | case4 c low rest hPair ih =>
      rw [isPair_iff] at hPair
      rcases exists_supplementary hPair.1 hPair.2 with ⟨d, hValue⟩
      rcases ih (fun e hMem => hPoints e (by simp [hMem]))
        with ⟨text, hText⟩
      exact ⟨_, .pair hPair.1 hPair.2 hValue hText⟩
  | case5 c next rest hNotPair hUnit ih =>
      rw [isSurrogate_iff] at hUnit
      rw [isPair_iff] at hNotPair
      rcases ih (fun e hMem => hPoints e (List.mem_cons_of_mem c hMem))
        with ⟨text, hText⟩
      refine ⟨_, .lone hUnit ?_ hText⟩
      intro hHigh low hHead hLow
      cases hHead
      exact hNotPair ⟨hHigh, hLow⟩
  | case6 c next rest _ hUnit ih =>
      rw [isSurrogate_iff] at hUnit
      rcases exists_char hUnit (hPoints c (by simp)) with ⟨d, rfl⟩
      rcases ih (fun e hMem => hPoints e (List.mem_cons_of_mem _ hMem))
        with ⟨text, hText⟩
      exact ⟨_, .scalar d hText⟩

theorem scanned_codes
    (text : List Char) :
    Scanned (text.map Char.toNat) text := by
  induction text with
  | nil => exact .nil
  | cons c text ih => exact .scalar c ih

/- Splitting characters into pairs does not change the text. -/
theorem scanned_of_split
    {text : List Char}
    {points : List CodePoint}
    (h : Split text points) :
    Scanned points text := by
  induction h with
  | nil => exact .nil
  | whole c _ ih => exact .scalar c ih
  | @pair c text points hSupplementary _ ih =>
      have hRange := toNat_range c
      refine .pair ?_ ?_ ?_ ih
      · unfold IsHigh
        omega
      · unfold IsLow
        omega
      · omega

------------------------------------------------------------
-- Written characters
------------------------------------------------------------

theorem encodeScalar_eq
    (n : Nat) :
    encodeScalar n =
      if n < 0x80 then
        [n]
      else if n < 0x800 then
        [0xC0 + n / 0x40, 0x80 + n % 0x40]
      else if n < 0x10000 then
        [0xE0 + n / 0x1000, 0x80 + n / 0x40 % 0x40, 0x80 + n % 0x40]
      else
        [0xF0 + n / 0x40000, 0x80 + n / 0x1000 % 0x40,
          0x80 + n / 0x40 % 0x40, 0x80 + n % 0x40] :=
  rfl

/- The bytes of a character are those of UTF-8. -/
theorem encodeScalar_toNat
    (c : Char) :
    encodeScalar c.toNat = (String.utf8EncodeChar c).map UInt8.toNat := by
  have hRange := toNat_range c
  have hVal : c.val.toNat = c.toNat := rfl
  rw [encodeScalar_eq, String.utf8EncodeChar.eq_1, hVal]
  generalize c.toNat = n at hRange ⊢
  by_cases hOne : n < 0x80
  · rw [if_pos hOne, if_pos (show n ≤ 127 by omega)]
    simp
    omega
  rw [if_neg hOne, if_neg (show ¬ n ≤ 127 by omega)]
  by_cases hTwo : n < 0x800
  · rw [if_pos hTwo, if_pos (show n ≤ 2047 by omega)]
    simp
    omega
  rw [if_neg hTwo, if_neg (show ¬ n ≤ 2047 by omega)]
  by_cases hThree : n < 0x10000
  · rw [if_pos hThree, if_pos (show n ≤ 65535 by omega)]
    simp
    omega
  · rw [if_neg hThree, if_neg (show ¬ n ≤ 65535 by omega)]
    simp
    omega

/- The UTF-8 of a text, character by character. -/
theorem bytesOf_eq
    (text : String) :
    bytesOf text = (codes text).flatMap encodeScalar := by
  have hBytes :
      text.toUTF8.data.toList =
        text.toList.flatMap String.utf8EncodeChar := by
    rw [String.toUTF8_eq_toByteArray, ← String.ofList_toList (s := text),
      String.toByteArray_ofList, String.ofList_toList, List.utf8Encode,
      List.data_toByteArray]
  unfold bytesOf codes
  rw [hBytes, List.map_flatMap, List.flatMap_map]
  simp only [encodeScalar_toNat]

/- What is written is the UTF-8 of the scanned text. -/
theorem encode_of_scanned
    {points : List CodePoint}
    {text : String}
    (h : Scanned points text.toList) :
    encode points = bytesOf text := by
  rw [encode, scalars_of_scanned h, bytesOf_eq, codes]

------------------------------------------------------------
-- Read characters
------------------------------------------------------------

theorem decodeFrom_cons
    {open? next : Option Partial}
    {byte : Nat}
    {points : List CodePoint}
    (hStep : step open? byte = (points, next))
    (rest : List Nat) :
    decodeFrom open? (byte :: rest) = points ++ decodeFrom next rest := by
  rw [decodeFrom, hStep]

theorem step_ascii
    {byte : Nat}
    (hByte : byte < 0x80) :
    step none byte = ([byte], none) := by
  simp [step, lead, hByte]

/- The lead byte of a sequence of two bytes. -/
theorem step_leadTwo
    {bits : Nat}
    (hBits : bits < 0x20) :
    step none (0xC0 + bits) = ([], some ⟨0, bits⟩) := by
  have hMod : (0xC0 + bits) % 0x20 = bits := by omega
  rw [step, lead, if_neg (by omega), if_neg (by omega),
    if_pos (by omega), hMod]

/- The lead byte of a sequence of three bytes. -/
theorem step_leadThree
    {bits : Nat}
    (hBits : bits < 0x10) :
    step none (0xE0 + bits) = ([], some ⟨1, bits⟩) := by
  have hMod : (0xE0 + bits) % 0x10 = bits := by omega
  rw [step, lead, if_neg (by omega), if_neg (by omega),
    if_neg (by omega), if_pos (by omega), hMod]

/- The lead byte of a sequence of four bytes. -/
theorem step_leadFour
    {bits : Nat}
    (hBits : bits < 0x08) :
    step none (0xF0 + bits) = ([], some ⟨2, bits⟩) := by
  have hMod : (0xF0 + bits) % 0x08 = bits := by omega
  rw [step, lead, if_neg (by omega), if_neg (by omega),
    if_neg (by omega), if_neg (by omega), if_pos (by omega), hMod]

theorem isContinuation_add
    {bits : Nat}
    (hBits : bits < 0x40) :
    isContinuation (0x80 + bits) = true := by
  have hTop : (0x80 + bits) / 0x40 % 4 = 2 := by omega
  rw [isContinuation, hTop]
  rfl

/- A continuation byte before the last of its sequence. -/
theorem step_continue
    {bits : Nat}
    (hBits : bits < 0x40)
    (owed value : Nat) :
    step (some ⟨owed + 1, value⟩) (0x80 + bits) =
      ([], some ⟨owed, value * 0x40 + bits⟩) := by
  have hMod : (0x80 + bits) % 0x40 = bits := by omega
  simp only [step, isContinuation_add hBits, if_true, hMod]

/- The last byte of a sequence. -/
theorem step_last
    {bits : Nat}
    (hBits : bits < 0x40)
    (value : Nat) :
    step (some ⟨0, value⟩) (0x80 + bits) =
      ([complete (value * 0x40 + bits)], none) := by
  have hMod : (0x80 + bits) % 0x40 = bits := by omega
  simp only [step, isContinuation_add hBits, if_true, hMod]

theorem complete_of_le
    {value : Nat}
    (hValue : value ≤ 0x10FFFF) :
    complete value = value := by
  rw [complete, if_neg (by omega)]

/-
  The bytes of a code point are read back as it, whatever
  comes after them. Every number of bytes is put together
  again from the bits that they carry.
-/
theorem decodeFrom_encodeScalar
    {n : Nat}
    (hBound : n ≤ 0x10FFFF)
    (rest : List Nat) :
    decodeFrom none (encodeScalar n ++ rest) =
      n :: decodeFrom none rest := by
  rw [encodeScalar_eq]
  by_cases hOne : n < 0x80
  · rw [if_pos hOne]
    exact decodeFrom_cons (step_ascii hOne) rest
  rw [if_neg hOne]
  by_cases hTwo : n < 0x800
  · have hValue : n / 0x40 * 0x40 + n % 0x40 = n := by omega
    rw [if_pos hTwo]
    simp only [List.cons_append, List.nil_append]
    rw [decodeFrom_cons (step_leadTwo (by omega)),
      decodeFrom_cons (step_last (by omega) _), hValue,
      complete_of_le hBound]
    rfl
  rw [if_neg hTwo]
  by_cases hThree : n < 0x10000
  · have hValue :
        (n / 0x1000 * 0x40 + n / 0x40 % 0x40) * 0x40 + n % 0x40 = n := by
      omega
    rw [if_pos hThree]
    simp only [List.cons_append, List.nil_append]
    rw [decodeFrom_cons (step_leadThree (by omega)),
      decodeFrom_cons (step_continue (by omega) 0 _),
      decodeFrom_cons (step_last (by omega) _), hValue,
      complete_of_le hBound]
    rfl
  · have hValue :
        ((n / 0x40000 * 0x40 + n / 0x1000 % 0x40) * 0x40 +
          n / 0x40 % 0x40) * 0x40 + n % 0x40 = n := by
      omega
    rw [if_neg hThree]
    simp only [List.cons_append, List.nil_append]
    rw [decodeFrom_cons (step_leadFour (by omega)),
      decodeFrom_cons (step_continue (by omega) 1 _),
      decodeFrom_cons (step_continue (by omega) 0 _),
      decodeFrom_cons (step_last (by omega) _), hValue,
      complete_of_le hBound]
    rfl

/- The UTF-8 of a text is read back as its scalar values. -/
theorem decode_bytesOf
    (text : String) :
    decode (bytesOf text) = codes text := by
  rw [bytesOf_eq, codes, decode]
  induction text.toList with
  | nil => rfl
  | cons c text ih =>
      have hBound : c.toNat ≤ 0x10FFFF := by
        have hRange := toNat_range c
        omega
      rw [List.map_cons, List.flatMap_cons,
        decodeFrom_encodeScalar hBound, ih]

------------------------------------------------------------
-- Encoding and decoding
------------------------------------------------------------

/-
  Code points, surrogates included, stand for exactly one
  text. What is written is its UTF-8, and this is read back
  as its scalar values. So a text survives the round trip,
  and a text that is written with surrogate pairs in the
  place of characters has the same bytes.
-/
theorem writes_the_scanned_text :
    (∀ points : List CodePoint, (∀ c ∈ points, c ≤ 0x10FFFF) →
      ∃ text : String,
        Scanned points text.toList ∧
        (∀ other, Scanned points other → other = text.toList) ∧
        encode points = bytesOf text ∧
        decode (encode points) = codes text) ∧
    (∀ text : String, decode (encode (codes text)) = codes text) ∧
    (∀ (text : String) (points : List CodePoint),
      Split text.toList points →
        encode points = encode (codes text)) := by
  have hCodes :
      ∀ text : String, encode (codes text) = bytesOf text :=
    fun text => encode_of_scanned (scanned_codes text.toList)
  refine ⟨?_, ?_, ?_⟩
  · intro points hPoints
    rcases exists_scanned points hPoints with ⟨text, hText⟩
    have hScanned : Scanned points (String.ofList text).toList := by
      rw [String.toList_ofList]
      exact hText
    refine ⟨String.ofList text, hScanned, ?_,
      encode_of_scanned hScanned, ?_⟩
    · intro other hOther
      exact scanned_unique hOther hScanned
    · rw [encode_of_scanned hScanned, decode_bytesOf]
  · intro text
    rw [hCodes, decode_bytesOf]
  · intro text points hSplit
    rw [encode_of_scanned (scanned_of_split hSplit), hCodes]

/-
  A pair between a letter and a high surrogate that is
  followed by no low one.
-/
theorem writes_pair_and_lone_surrogate :
    (∀ c ∈ [0x41, 0xD83D, 0xDE00, 0xD83D, 0x20AC], c ≤ 0x10FFFF) ∧
      (∃ text : String,
        encode [0x41, 0xD83D, 0xDE00, 0xD83D, 0x20AC] = bytesOf text ∧
        codes text = [0x41, 0x1F600, 0xFFFD, 0x20AC]) ∧
      encode [0xD83D, 0xDE00] = encode (codes "😀") := by
  have hPoints :
      ∀ c ∈ [0x41, 0xD83D, 0xDE00, 0xD83D, 0x20AC], c ≤ 0x10FFFF := by
    decide
  refine ⟨hPoints, ?_, ?_⟩
  · rcases writes_the_scanned_text.1 _ hPoints
      with ⟨text, _, _, hBytes, hCodes⟩
    exact ⟨text, hBytes, hCodes.symm.trans (by decide)⟩
  · exact writes_the_scanned_text.2.2 "😀" _
      (.pair (by decide) .nil)

end Utf8
end LinkedMarkup
