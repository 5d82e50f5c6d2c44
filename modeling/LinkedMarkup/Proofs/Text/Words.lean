import LinkedMarkup.Text.Blank
import Mathlib.Data.List.Basic

/-
  This file proves which words a text has: those that it is
  made of once the blanks around and between them are left
  out. A text is made of words in one way only.

  Key definitions include:
    * `Text.IsWord`
    * `Text.IsGap`
    * `Text.EndsWord`
    * `Text.Spaced`

  Main declarations:
    * `Text.IsWord.append_inj`
    * `Text.IsGap.append_inj`
    * `Text.spaced_iff`
-/

namespace LinkedMarkup
namespace Text

------------------------------------------------------------
-- Words and gaps
------------------------------------------------------------

/- Characters without a blank, at least one. -/
structure IsWord
    (cs : List Char) : Prop where
  nonempty : cs ≠ []
  chars : ∀ c ∈ cs, isBlank c = false

/- Characters that are all blank, at least one. -/
structure IsGap
    (cs : List Char) : Prop where
  nonempty : cs ≠ []
  blanks : ∀ c ∈ cs, isBlank c = true

/- What may follow a word: nothing, or a blank. -/
def EndsWord
    (rest : List Char) : Prop :=
  ∀ c ∈ rest.head?, isBlank c = true

instance
    (cs : List Char) :
    Decidable (IsWord cs) :=
  decidable_of_iff (cs ≠ [] ∧ cs.all (fun c => !isBlank c) = true)
    ⟨fun h => ⟨h.1, by simpa using h.2⟩,
      fun h => ⟨h.nonempty, by simpa using h.chars⟩⟩

instance
    (cs : List Char) :
    Decidable (IsGap cs) :=
  decidable_of_iff (cs ≠ [] ∧ cs.all isBlank = true)
    ⟨fun h => ⟨h.1, List.all_eq_true.mp h.2⟩,
      fun h => ⟨h.nonempty, List.all_eq_true.mpr h.blanks⟩⟩

instance
    (rest : List Char) :
    Decidable (EndsWord rest) :=
  decidable_of_iff (rest.head?.all isBlank = true)
    (Option.all_eq_true isBlank rest.head?)

/-
  Characters that are made of words: the first one after any
  blanks, the others after at least one, and blanks at the end.
-/
inductive Spaced :
    List (List Char) → List Char → Prop where
  | blank
      {cs : List Char}
      (hBlanks : ∀ c ∈ cs, isBlank c = true) :
      Spaced [] cs
  | word
      {gap w rest : List Char}
      {words : List (List Char)}
      (hGap : ∀ c ∈ gap, isBlank c = true)
      (hWord : IsWord w)
      (hEnds : EndsWord rest)
      (hRest : Spaced words rest) :
      Spaced (w :: words) (gap ++ (w ++ rest))

section Cuts

variable {w w' gap gap' rest rest' : List Char}

theorem IsGap.endsWord
    (h : IsGap gap)
    (rest : List Char) :
    EndsWord (gap ++ rest) := by
  cases gap with
  | nil => exact absurd rfl h.nonempty
  | cons c gap =>
      intro d hHead
      cases hHead
      exact h.blanks c List.mem_cons_self

theorem IsWord.takeWhile_append
    (h : IsWord w)
    (hRest : EndsWord rest) :
    (w ++ rest).takeWhile (fun c => !isBlank c) = w := by
  have hNone : rest.takeWhile (fun c => !isBlank c) = [] := by
    cases rest with
    | nil => rfl
    | cons c rest =>
        rw [List.takeWhile_cons, hRest c rfl]
        rfl
  rw [List.takeWhile_append_of_pos (by simpa using h.chars), hNone,
    List.append_nil]

/- Where a word ends, only that word does. -/
theorem IsWord.append_inj
    (h : IsWord w)
    (h' : IsWord w')
    (hRest : EndsWord rest)
    (hRest' : EndsWord rest')
    (hEq : w ++ rest = w' ++ rest') :
    w = w' ∧ rest = rest' := by
  have hWord : w = w' := by
    rw [← h.takeWhile_append hRest, hEq, h'.takeWhile_append hRest']
  subst hWord
  exact ⟨rfl, List.append_cancel_left hEq⟩

theorem takeWhile_gap_append
    (h : ∀ c ∈ gap, isBlank c = true)
    (hWord : IsWord w)
    (rest : List Char) :
    (gap ++ (w ++ rest)).takeWhile isBlank = gap := by
  have hNone : (w ++ rest).takeWhile isBlank = [] := by
    cases w with
    | nil => exact absurd rfl hWord.nonempty
    | cons c w =>
        rw [List.cons_append, List.takeWhile_cons,
          hWord.chars c List.mem_cons_self]
        rfl
  rw [List.takeWhile_append_of_pos h, hNone, List.append_nil]

/- Where blanks end before a word, only these blanks do. -/
theorem IsGap.append_inj
    (h : IsGap gap)
    (h' : IsGap gap')
    (hWord : IsWord w)
    (hWord' : IsWord w')
    (hEq : gap ++ (w ++ rest) = gap' ++ (w' ++ rest')) :
    gap = gap' ∧ w ++ rest = w' ++ rest' := by
  have hGap : gap = gap' := by
    rw [← takeWhile_gap_append h.blanks hWord rest, hEq,
      takeWhile_gap_append h'.blanks hWord' rest']
  subst hGap
  exact ⟨rfl, List.append_cancel_left hEq⟩

/- What fits into a text from a word on is no longer than it. -/
theorem IsWord.length_le
    (h : IsWord w)
    (h' : IsWord w')
    (hRest' : EndsWord rest')
    (hEq : w ++ rest = w' ++ rest') :
    w.length ≤ w'.length := by
  have hTake : w <+: (w ++ rest).takeWhile (fun c => !isBlank c) := by
    rw [List.takeWhile_append_of_pos (by simpa using h.chars)]
    exact List.prefix_append _ _
  rw [hEq, h'.takeWhile_append hRest'] at hTake
  exact hTake.length_le

end Cuts

------------------------------------------------------------
-- The words of a text
------------------------------------------------------------

theorem runsOutside_blanks_append
    {gap : List Char}
    (h : ∀ c ∈ gap, isBlank c = true)
    (rest : List Char) :
    runsOutside isBlank [] (gap ++ rest) =
      runsOutside isBlank [] rest := by
  induction gap with
  | nil => rfl
  | cons c gap ih =>
      rcases List.forall_mem_cons.mp h with ⟨hChar, hGap⟩
      rw [List.cons_append, runsOutside, if_pos hChar, ih hGap]

theorem runsOutside_append
    {w : List Char}
    (h : ∀ c ∈ w, isBlank c = false)
    (current rest : List Char) :
    runsOutside isBlank current (w ++ rest) =
      runsOutside isBlank (w.reverse ++ current) rest := by
  induction w generalizing current with
  | nil => rfl
  | cons c w ih =>
      rcases List.forall_mem_cons.mp h with ⟨hChar, hWord⟩
      have hNot : ¬ isBlank c = true := Bool.eq_false_iff.mp hChar
      rw [List.reverse_cons, List.append_assoc, List.cons_append]
      cases current with
      | nil =>
          rw [runsOutside, if_neg hNot, ih hWord]
          rfl
      | cons d current =>
          rw [runsOutside, if_neg hNot, ih hWord]
          rfl

theorem runsOutside_of_endsWord
    {current rest : List Char}
    (h : current ≠ [])
    (hRest : EndsWord rest) :
    runsOutside isBlank current rest =
      current.reverse :: runsOutside isBlank [] rest := by
  cases current with
  | nil => exact absurd rfl h
  | cons d current =>
      cases rest with
      | nil => rfl
      | cons c rest =>
          have hBlank := hRest c rfl
          rw [runsOutside, if_pos hBlank, runsOutside, if_pos hBlank]

theorem Spaced.cons_word
    {words : List (List Char)}
    {w rest : List Char}
    (hRest : Spaced words rest)
    (hWord : IsWord w)
    (hEnds : EndsWord rest) :
    Spaced (w :: words) (w ++ rest) :=
  @Spaced.word [] w rest words (fun c hMem => by cases hMem) hWord hEnds
    hRest

theorem Spaced.cons_blank
    {words : List (List Char)}
    {cs : List Char}
    (h : Spaced words cs)
    {c : Char}
    (hBlank : isBlank c = true) :
    Spaced words (c :: cs) := by
  cases h with
  | blank hBlanks =>
      exact .blank (List.forall_mem_cons.mpr ⟨hBlank, hBlanks⟩)
  | word hGap hWord hEnds hRest =>
      rw [← List.cons_append]
      exact .word (List.forall_mem_cons.mpr ⟨hBlank, hGap⟩) hWord hEnds
        hRest

/- Whatever is read of a word so far, the text is spaced. -/
theorem spaced_runsOutside
    {current : List Char}
    (h : ∀ c ∈ current, isBlank c = false)
    (cs : List Char) :
    Spaced (runsOutside isBlank current cs) (current.reverse ++ cs) := by
  have hReverse : ∀ c ∈ current.reverse, isBlank c = false :=
    fun c hMem => h c (List.mem_reverse.mp hMem)
  induction cs generalizing current with
  | nil =>
      cases current with
      | nil => exact .blank (fun c hMem => by cases hMem)
      | cons d current =>
          have hNil : Spaced [] [] := .blank (fun c hMem => by cases hMem)
          exact hNil.cons_word ⟨by simp, hReverse⟩
            (fun c hMem => by cases hMem)
  | cons c rest ih =>
      have hNothing : ∀ d ∈ ([] : List Char), isBlank d = false :=
        fun d hMem => by cases hMem
      by_cases hBlank : isBlank c = true
      · have hRest := (ih hNothing hNothing).cons_blank hBlank
        cases current with
        | nil =>
            rw [runsOutside, if_pos hBlank]
            exact hRest
        | cons d current =>
            rw [runsOutside, if_pos hBlank]
            refine hRest.cons_word ⟨by simp, hReverse⟩ ?_
            intro e hHead
            cases hHead
            exact hBlank
      · have hChar : isBlank c = false := Bool.eq_false_iff.mpr hBlank
        have hMore : ∀ d ∈ c :: current, isBlank d = false :=
          List.forall_mem_cons.mpr ⟨hChar, h⟩
        have hRest :=
          ih hMore (fun d hMem => hMore d (List.mem_reverse.mp hMem))
        rw [List.reverse_cons, List.append_assoc] at hRest
        cases current with
        | nil =>
            rw [runsOutside, if_neg hBlank]
            exact hRest
        | cons d current =>
            rw [runsOutside, if_neg hBlank]
            exact hRest

/- The words of a text are those that it is made of. -/
theorem spaced_iff
    {words : List (List Char)}
    {cs : List Char} :
    Spaced words cs ↔ words = runsOutside isBlank [] cs := by
  constructor
  · intro h
    induction h with
    | @blank cs hBlanks =>
        have hSkip := runsOutside_blanks_append hBlanks []
        rw [List.append_nil] at hSkip
        exact hSkip.symm
    | @word gap w rest words hGap hWord hEnds _ ih =>
        have hCurrent : w.reverse ++ [] ≠ [] := by
          simpa using hWord.nonempty
        rw [runsOutside_blanks_append hGap,
          runsOutside_append hWord.chars,
          runsOutside_of_endsWord hCurrent hEnds, ← ih]
        simp
  · rintro rfl
    exact spaced_runsOutside (fun c hMem => by cases hMem) cs

theorem words_eq_of_spaced
    {words : List (List Char)}
    {s : String}
    (h : Spaced words s.toList) :
    Text.words s = words.map String.ofList := by
  unfold Text.words
  rw [spaced_iff.mp h]

end Text
end LinkedMarkup
