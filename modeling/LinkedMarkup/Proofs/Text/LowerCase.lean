import LinkedMarkup.Text.Case
import Mathlib.Data.List.Basic

/-
  This file proves what lower-casing makes of texts: nothing
  else of ASCII than its capital letters changes, no blank
  does, and a text whose lower case is ASCII stays as it is
  once it is in lower case.

  Main declarations:
    * `Text.lowerAfter_of_ascii`
    * `Text.lowerChar_of_isBlank`
    * `Text.asciiLowerChar_of_mem_lower`
    * `Text.lower_lower_of_ascii`
-/

namespace LinkedMarkup
namespace Text

------------------------------------------------------------
-- Lower case of ASCII
------------------------------------------------------------

/- What holds of all ASCII characters can be checked one by one. -/
theorem forall_ascii
    {P : Char → Prop}
    (h : ∀ n < 128, P (Char.ofNat n))
    {c : Char}
    (hAscii : c.toNat < 128) :
    P c := by
  have hChar := h c.toNat hAscii
  rw [Char.ofNat_toNat] at hChar
  exact hChar

/- In ASCII each character has a lower case of its own. -/
theorem lowerAfter_of_ascii
    {cs : List Char}
    (h : ∀ c ∈ cs, c.toNat < 128)
    (before : List Char) :
    lowerAfter before cs = cs.map asciiLowerChar := by
  induction cs generalizing before with
  | nil => rfl
  | cons c rest ih =>
      rcases List.forall_mem_cons.mp h with ⟨hChar, hRest⟩
      rw [lowerAfter, ih hRest, lowerChar, if_pos hChar]
      rfl

theorem lower_toList
    (s : String) :
    (lower s).toList = lowerAfter [] s.toList :=
  String.toList_ofList

theorem lower_of_ascii
    {s : String}
    (h : ∀ c ∈ s.toList, c.toNat < 128) :
    (lower s).toList = s.toList.map asciiLowerChar := by
  rw [lower_toList, lowerAfter_of_ascii h]

/- An ASCII character that is no capital letter stays the same. -/
theorem lowerChar_of_ascii
    {c : Char}
    (hAscii : c.toNat < 128)
    (hLower : asciiLowerChar c = c)
    (before after : List Char) :
    lowerChar before c after = [c] := by
  rw [lowerChar, if_pos hAscii, hLower]

/- A character that has a lower case keeps it among others. -/
theorem mem_lowerAfter
    {c : Char}
    (h : ∀ before after, lowerChar before c after = [c])
    {cs : List Char}
    (hMem : c ∈ cs)
    (before : List Char) :
    c ∈ lowerAfter before cs := by
  induction cs generalizing before with
  | nil => cases hMem
  | cons d rest ih =>
      rw [lowerAfter, List.mem_append]
      rcases List.mem_cons.mp hMem with rfl | hRest
      · left
        rw [h]
        exact List.mem_singleton_self c
      · exact .inr (ih hRest _)

------------------------------------------------------------
-- Blanks
------------------------------------------------------------

/- No blank is a letter, nor one of those with forms of their own. -/
theorem blankRanges_apart :
    ∀ b ∈ blankRanges,
      (b.2 < 304 ∨ 304 < b.1) ∧ (b.2 < 931 ∨ 931 < b.1) ∧
        ∀ r ∈ lowerRuns, b.2 < r.1 ∨ r.2.1 < b.1 := by
  decide +kernel

theorem exists_range_of_isBlank
    {c : Char}
    (h : isBlank c = true) :
    ∃ b ∈ blankRanges, b.1 ≤ c.toNat ∧ c.toNat ≤ b.2 := by
  unfold isBlank inRanges at h
  rcases List.any_eq_true.mp h with ⟨b, hMem, hIn⟩
  rw [Bool.and_eq_true, decide_eq_true_eq, decide_eq_true_eq] at hIn
  exact ⟨b, hMem, hIn⟩

theorem lowerPoint_of_forall_not_mem
    {point : Nat}
    (h : ∀ r ∈ lowerRuns, point < r.1 ∨ r.2.1 < point) :
    lowerPoint point = point := by
  have hNone :
      lowerRuns.find? (fun r =>
          r.1 ≤ point && point ≤ r.2.1 &&
            (point - r.1) % r.2.2.1 == 0) =
        none := by
    rw [List.find?_eq_none]
    intro r hMem
    simp only [Bool.and_eq_true, decide_eq_true_eq, not_and]
    intro hIn
    have hOut := h r hMem
    omega
  unfold lowerPoint
  rw [hNone]

/- Blanks have no case. -/
theorem lowerChar_of_isBlank
    {c : Char}
    (h : isBlank c = true)
    (before after : List Char) :
    lowerChar before c after = [c] := by
  rcases exists_range_of_isBlank h with ⟨b, hMem, hMin, hMax⟩
  rcases blankRanges_apart b hMem with ⟨hDotted, hSigma, hRuns⟩
  have hPoint : lowerPoint c.toNat = c.toNat := by
    refine lowerPoint_of_forall_not_mem (fun r hRun => ?_)
    have hApart := hRuns r hRun
    omega
  have hNotSigma : c.toNat ≠ 931 := by omega
  have hNotDotted : c.toNat ≠ 304 := by omega
  unfold lowerChar
  rw [if_neg hNotSigma, if_neg hNotDotted, hPoint, Char.ofNat_toNat]
  split
  · rename_i hAscii
    have hCapital : ¬ ('A' ≤ c && c ≤ 'Z') = true := by
      simp only [Bool.and_eq_true, decide_eq_true_eq, Char.le_def,
        UInt32.le_iff_toNat_le]
      intro hLetter
      have hFirst : (65, 90, 1, (32 : Int)) ∈ lowerRuns := by decide
      have hApart := hRuns _ hFirst
      have hMin' : 65 ≤ c.toNat := hLetter.1
      have hMax' : c.toNat ≤ 90 := hLetter.2
      dsimp only at hApart
      omega
    unfold asciiLowerChar
    rw [if_neg hCapital]
  · rfl

------------------------------------------------------------
-- Texts in lower case
------------------------------------------------------------

theorem asciiLowerChar_of_toNat
    {c : Char}
    (h : c.toNat < 65 ∨ 90 < c.toNat) :
    asciiLowerChar c = c := by
  unfold asciiLowerChar
  rw [if_neg]
  simp only [Bool.and_eq_true, decide_eq_true_eq, Char.le_def,
    UInt32.le_iff_toNat_le]
  intro hLetter
  have hMin : 65 ≤ c.toNat := hLetter.1
  have hMax : c.toNat ≤ 90 := hLetter.2
  omega

/- Letters outside of ASCII have no capital ones as lower case. -/
theorem lowerRuns_above :
    ∀ r ∈ lowerRuns, r.2.1 < 128 ∨ 91 ≤ (r.1 : Int) + r.2.2.2 := by
  decide +kernel

theorem lt_lowerPoint
    {point : Nat}
    (h : 128 ≤ point) :
    90 < lowerPoint point := by
  unfold lowerPoint
  split
  · rename_i r hFound
    have hMem := List.mem_of_find?_eq_some hFound
    have hIn := List.find?_some hFound
    simp only [Bool.and_eq_true, decide_eq_true_eq] at hIn
    have hAbove := lowerRuns_above r hMem
    rw [Int.ofNat_eq_natCast]
    omega
  · omega

theorem asciiLowerChar_idem
    (c : Char) :
    asciiLowerChar (asciiLowerChar c) = asciiLowerChar c := by
  by_cases hLetter : c.toNat < 65 ∨ 90 < c.toNat
  · rw [asciiLowerChar_of_toNat hLetter, asciiLowerChar_of_toNat hLetter]
  · have hAscii : c.toNat < 128 := by omega
    exact forall_ascii
      (P := fun c => asciiLowerChar (asciiLowerChar c) = asciiLowerChar c)
      (by decide +kernel) hAscii

/- Code points above the capital letters, and what is none. -/
theorem asciiLowerChar_ofNat
    {point : Nat}
    (h : 90 < point) :
    asciiLowerChar (Char.ofNat point) = Char.ofNat point := by
  apply asciiLowerChar_of_toNat
  by_cases hValid : point.isValidChar
  · right
    rw [Char.ofNat, dif_pos hValid]
    exact h
  · left
    rw [Char.ofNat, dif_neg hValid]
    decide

theorem asciiLowerChar_of_mem_lowerChar
    {before after : List Char}
    {c d : Char}
    (h : d ∈ lowerChar before c after) :
    asciiLowerChar d = d := by
  unfold lowerChar at h
  split at h
  · rw [List.mem_singleton.mp h]
    exact asciiLowerChar_idem c
  · rename_i hAscii
    split at h
    · split at h <;>
        · rw [List.mem_singleton.mp h]
          decide
    · split at h
      · simp only [List.mem_cons, List.not_mem_nil, or_false] at h
        rcases h with rfl | rfl <;> decide
      · rw [List.mem_singleton.mp h]
        exact asciiLowerChar_ofNat (lt_lowerPoint (by omega))

/- No ASCII capital letter is left in lower case. -/
theorem asciiLowerChar_of_mem_lower
    {s : String}
    {d : Char}
    (h : d ∈ (lower s).toList) :
    asciiLowerChar d = d := by
  rw [lower_toList] at h
  generalize [] = before at h
  generalize s.toList = cs at h
  induction cs generalizing before with
  | nil => cases h
  | cons c rest ih =>
      rw [lowerAfter, List.mem_append] at h
      rcases h with hHere | hRest
      · exact asciiLowerChar_of_mem_lowerChar hHere
      · exact ih _ hRest

/- What is in lower case, and ASCII, stays the same. -/
theorem lower_lower_of_ascii
    {s : String}
    (h : ∀ c ∈ (lower s).toList, c.toNat < 128) :
    lower (lower s) = lower s := by
  rw [← String.toList_inj, lower_of_ascii h]
  have hFixed :=
    List.map_congr_left (fun d hMem =>
      asciiLowerChar_of_mem_lower (s := s) (d := d) hMem)
  exact hFixed.trans (List.map_id' _)

end Text
end LinkedMarkup
