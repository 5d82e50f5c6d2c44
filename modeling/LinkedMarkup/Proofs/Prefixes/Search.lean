import LinkedMarkup.Annotation.Prefixes
import LinkedMarkup.Proofs.Text.Words
import Mathlib.Data.List.Infix

/-
  This file defines what a search for declared pairs finds
  that starts over wherever the last pair it has found ends: a
  word and a colon, blanks, and another word. It may start
  inside of a word, still what it finds are the pairs among
  the words of the text.

  Key definitions include:
    * `Prefixes.Fits`
    * `Prefixes.FitsFirst`
    * `Prefixes.CanFit`
    * `Prefixes.Finds`

  Main declarations:
    * `Prefixes.Fits.of_word`
    * `Prefixes.Finds.unique`
    * `Prefixes.finds_iff`
-/

namespace LinkedMarkup
namespace Prefixes

open Text (IsWord IsGap EndsWord Spaced)

------------------------------------------------------------
-- The search
------------------------------------------------------------

/-
  A way for a pair to fit at the start of a text: a name and a
  colon, a gap, a start, and what is left of the text.
-/
structure Fits
    (cs name gap start rest : List Char) : Prop where
  whole : cs = name ++ ':' :: (gap ++ (start ++ rest))
  name : IsWord name
  gap : IsGap gap
  start : IsWord start

/- Whether a pair fits at the start of a text. -/
def CanFit
    (cs : List Char) : Prop :=
  ∃ name gap start rest, Fits cs name gap start rest

/-
  The way for a pair to fit that comes before all others: of
  those with the shortest name, those with the longest gap,
  and of these the one with the longest start.
-/
structure FitsFirst
    (cs name gap start rest : List Char) : Prop where
  fits : Fits cs name gap start rest
  first :
    ∀ name' gap' start' rest', Fits cs name' gap' start' rest' →
      name.length < name'.length ∨
        name.length = name'.length ∧
          (gap'.length < gap.length ∨
            gap'.length = gap.length ∧ start'.length ≤ start.length)

/-
  What a search through a text finds: nothing, if no pair fits
  anywhere; or the pair that fits at the first place where any
  does, and what is found in the text after it.
-/
inductive Finds :
    List Char → List (String × String) → Prop where
  | nothing
      {cs : List Char}
      (hNone : ∀ later, later <:+ cs → ¬ CanFit later) :
      Finds cs []
  | found
      {skipped here name gap start rest : List Char}
      {pairs : List (String × String)}
      (hSkipped :
        ∀ later, later <:+ skipped ++ here →
          here.length < later.length → ¬ CanFit later)
      (hHere : FitsFirst here name gap start rest)
      (hRest : Finds rest pairs) :
      Finds (skipped ++ here)
        ((String.ofList name, String.ofList start) :: pairs)

------------------------------------------------------------
-- One result
------------------------------------------------------------

/- A text is not fitted by two pairs that come first. -/
theorem FitsFirst.unique
    {cs name gap start rest name' gap' start' rest' : List Char}
    (h : FitsFirst cs name gap start rest)
    (h' : FitsFirst cs name' gap' start' rest') :
    name = name' ∧ start = start' ∧ rest = rest' := by
  have hFirst := h.first _ _ _ _ h'.fits
  have hFirst' := h'.first _ _ _ _ h.fits
  have hLengths :
      name.length = name'.length ∧ gap.length = gap'.length ∧
        start.length = start'.length := by
    omega
  have hWhole := h.fits.whole.symm.trans h'.fits.whole
  rcases List.append_inj hWhole hLengths.1 with ⟨hName, hTail⟩
  rcases List.append_inj (List.cons.inj hTail).2 hLengths.2.1 with
    ⟨_, hLast⟩
  rcases List.append_inj hLast hLengths.2.2 with ⟨hStart, hRest⟩
  exact ⟨hName, hStart, hRest⟩

/- A search has one result. -/
theorem Finds.unique
    {cs : List Char}
    {found found' : List (String × String)}
    (h : Finds cs found)
    (h' : Finds cs found') :
    found = found' := by
  induction h generalizing found' with
  | @nothing cs hNone =>
      cases h' with
      | nothing _ => rfl
      | found _ hHere _ =>
          exact absurd ⟨_, _, _, _, hHere.fits⟩
            (hNone _ (List.suffix_append _ _))
  | @found skipped here name gap start rest pairs hSkipped hHere _ ih =>
      generalize hWhole : skipped ++ here = cs at h' hSkipped
      cases h' with
      | nothing hNone =>
          refine absurd ⟨_, _, _, _, hHere.fits⟩ (hNone here ?_)
          rw [← hWhole]
          exact List.suffix_append _ _
      | @found skipped' here' name' gap' start' rest' pairs'
          hSkipped' hHere' hRest' =>
          have hShort : here.length ≤ here'.length := by
            refine not_lt.mp (fun hLt => ?_)
            refine hSkipped' here ?_ hLt ⟨_, _, _, _, hHere.fits⟩
            rw [← hWhole]
            exact List.suffix_append _ _
          have hLong : here'.length ≤ here.length := by
            refine not_lt.mp (fun hLt => ?_)
            exact hSkipped here' (List.suffix_append _ _) hLt
              ⟨_, _, _, _, hHere'.fits⟩
          have hSame : here = here' :=
            (List.append_inj' hWhole (Nat.le_antisymm hShort hLong)).2
          subst hSame
          rcases hHere.unique hHere' with ⟨rfl, rfl, rfl⟩
          rw [ih hRest']

------------------------------------------------------------
-- Where pairs fit
------------------------------------------------------------

theorem isBlank_colon :
    Text.isBlank ':' = false := by
  decide

theorem isWord_concat_colon
    {name : List Char}
    (h : IsWord name) :
    IsWord (name ++ [':']) := by
  refine ⟨by simp, ?_⟩
  intro c hMem
  rcases List.mem_append.mp hMem with hName | hColon
  · exact h.chars c hName
  · rw [List.mem_singleton.mp hColon]
    exact isBlank_colon

/- A pair that fits at a word takes all of it up to its colon. -/
theorem Fits.of_word
    {w tail name gap start rest : List Char}
    (h : Fits (w ++ tail) name gap start rest)
    (hWord : IsWord w)
    (hEnds : EndsWord tail) :
    w = name ++ [':'] ∧ tail = gap ++ (start ++ rest) := by
  have hWhole : w ++ tail = name ++ [':'] ++ (gap ++ (start ++ rest)) := by
    rw [h.whole, List.append_assoc]
    rfl
  exact hWord.append_inj (isWord_concat_colon h.name) hEnds
    (h.gap.endsWord _) hWhole

/- No pair fits where a blank stands. -/
theorem not_canFit_of_blank
    {c : Char}
    (h : Text.isBlank c = true)
    (cs : List Char) :
    ¬ CanFit (c :: cs) := by
  rintro ⟨name, gap, start, rest, hFits⟩
  cases hName : name with
  | nil => exact hFits.name.nonempty hName
  | cons d name' =>
      have hWhole := hFits.whole
      rw [hName] at hWhole
      have hChar : Text.isBlank d = false :=
        hFits.name.chars d (hName ▸ List.mem_cons_self)
      rw [← (List.cons.inj hWhole).1, h] at hChar
      cases hChar

/- No pair fits where there are but blanks. -/
theorem not_canFit_of_blanks
    {cs later : List Char}
    (h : ∀ c ∈ cs, Text.isBlank c = true)
    (hLater : later <:+ cs) :
    ¬ CanFit later := by
  cases later with
  | nil =>
      rintro ⟨name, gap, start, rest, hFits⟩
      have hWhole := hFits.whole
      simp at hWhole
  | cons c later =>
      exact not_canFit_of_blank
        (h c (hLater.subset List.mem_cons_self)) later

/- A later place in a text is in its front or in the rest. -/
theorem exists_of_longer_suffix
    {front cs later : List Char}
    (h : later <:+ front ++ cs)
    (hLonger : cs.length < later.length) :
    ∃ piece, piece ≠ [] ∧ piece <:+ front ∧ later = piece ++ cs := by
  rcases List.suffix_of_suffix_length_le (List.suffix_append front cs) h
      (Nat.le_of_lt hLonger) with ⟨piece, rfl⟩
  rcases h with ⟨before, hBefore⟩
  refine ⟨piece, ?_, ⟨before, ?_⟩, rfl⟩
  · rintro rfl
    exact Nat.lt_irrefl _ hLonger
  · rw [← List.append_assoc] at hBefore
    exact List.append_cancel_right hBefore

/- A front where no pair fits makes no difference to a search. -/
theorem Finds.skip
    {front cs : List Char}
    {pairs : List (String × String)}
    (h : Finds cs pairs)
    (hFront :
      ∀ piece, piece ≠ [] → piece <:+ front → ¬ CanFit (piece ++ cs)) :
    Finds (front ++ cs) pairs := by
  have hLonger :
      ∀ later, later <:+ front ++ cs → cs.length < later.length →
        ¬ CanFit later := by
    intro later hLater hLt
    rcases exists_of_longer_suffix hLater hLt with
      ⟨piece, hPiece, hSuffix, rfl⟩
    exact hFront piece hPiece hSuffix
  have hShorter :
      ∀ later, later <:+ front ++ cs → later.length ≤ cs.length →
        later <:+ cs :=
    fun later hLater hLe =>
      List.suffix_of_suffix_length_le hLater (List.suffix_append _ _) hLe
  cases h with
  | nothing hNone =>
      refine .nothing (fun later hLater => ?_)
      rcases Nat.lt_or_ge cs.length later.length with hLt | hLe
      · exact hLonger later hLater hLt
      · exact hNone later (hShorter later hLater hLe)
  | @found skipped here name gap start rest pairs hSkipped hHere hRest =>
      rw [← List.append_assoc]
      refine .found (fun later hLater hLt => ?_) hHere hRest
      rw [List.append_assoc] at hLater
      rcases Nat.lt_or_ge (skipped ++ here).length later.length with
        hLong | hLe
      · exact hLonger later hLater hLong
      · exact hSkipped later (hShorter later hLater hLe) hLt

------------------------------------------------------------
-- Words that open pairs
------------------------------------------------------------

/- A word that names what follows: it ends in its last colon. -/
def Opens
    (w : List Char) : Prop :=
  ∃ name, IsWord name ∧ w = name ++ [':']

/- No pair fits before or inside of a word that opens none. -/
theorem not_canFit_word
    {gap w tail piece : List Char}
    (hGap : ∀ c ∈ gap, Text.isBlank c = true)
    (hWord : IsWord w)
    (hEnds : EndsWord tail)
    (hNot : Opens w → ∀ c ∈ tail, Text.isBlank c = true)
    (hPiece : piece ≠ [])
    (hSuffix : piece <:+ gap ++ w) :
    ¬ CanFit (piece ++ tail) := by
  rcases Nat.lt_or_ge w.length piece.length with hLong | hShort
  · rcases exists_of_longer_suffix hSuffix hLong with
      ⟨blanks, hBlanks, hBlank, rfl⟩
    cases blanks with
    | nil => exact absurd rfl hBlanks
    | cons c blanks =>
        exact not_canFit_of_blank
          (hGap c (hBlank.subset List.mem_cons_self)) _
  · have hInside : piece <:+ w :=
      List.suffix_of_suffix_length_le hSuffix (List.suffix_append _ _)
        hShort
    have hPieceWord : IsWord piece :=
      ⟨hPiece, fun c hMem => hWord.chars c (hInside.subset hMem)⟩
    rintro ⟨name, gap', start, rest, hFits⟩
    rcases hFits.of_word hPieceWord hEnds with ⟨hName, hTail⟩
    rcases hInside with ⟨before, hBefore⟩
    have hOpens : Opens w := by
      refine ⟨before ++ name, ⟨?_, ?_⟩, ?_⟩
      · simp [hFits.name.nonempty]
      · intro c hMem
        refine hWord.chars c ?_
        rw [← hBefore, hName, ← List.append_assoc]
        exact List.mem_append_left _ hMem
      · rw [← hBefore, hName, List.append_assoc]
    cases hStart : start with
    | nil => exact hFits.start.nonempty hStart
    | cons c start' =>
        have hChar := hFits.start.chars c (hStart ▸ List.mem_cons_self)
        have hMem : c ∈ tail := by
          rw [hTail, hStart]
          simp
        rw [hNot hOpens c hMem] at hChar
        cases hChar

/- At a word that opens a pair the next word is its start. -/
theorem fitsFirst_of_words
    {name gap start rest : List Char}
    (hName : IsWord name)
    (hGap : ∀ c ∈ gap, Text.isBlank c = true)
    (hStart : IsWord start)
    (hEnds : EndsWord rest)
    (hApart : EndsWord (gap ++ (start ++ rest))) :
    FitsFirst (name ++ [':'] ++ (gap ++ (start ++ rest))) name gap start
      rest := by
  have hBetween : IsGap gap := by
    refine ⟨?_, hGap⟩
    rintro rfl
    cases start with
    | nil => exact hStart.nonempty rfl
    | cons c start =>
        have hBlank := hApart c rfl
        rw [hStart.chars c List.mem_cons_self] at hBlank
        cases hBlank
  refine ⟨⟨by simp, hName, hBetween, hStart⟩, ?_⟩
  intro name' gap' start' rest' hFits
  rcases hFits.of_word (isWord_concat_colon hName) hApart with
    ⟨hSame, hTail⟩
  rcases hBetween.append_inj hFits.gap hStart hFits.start hTail with
    ⟨rfl, hLast⟩
  rw [List.append_cancel_right hSame]
  have hLength := hFits.start.length_le hStart hEnds hLast.symm
  exact .inr ⟨rfl, .inr ⟨rfl, hLength⟩⟩

------------------------------------------------------------
-- Pairs among words
------------------------------------------------------------

theorem pairs_of_opens
    {name : List Char}
    (h : IsWord name)
    (second : String)
    (rest : List String) :
    pairs (String.ofList (name ++ [':']) :: second :: rest) =
      (String.ofList name, second) :: pairs rest := by
  have hLength := List.length_pos_iff.mpr h.nonempty
  have hCond :
      ((String.ofList (name ++ [':'])).toList.getLast? == some ':' &&
        (String.ofList (name ++ [':'])).length ≥ 2) = true := by
    rw [String.length_ofList, String.toList_ofList,
      List.getLast?_concat, List.length_append]
    simp
    omega
  rw [pairs, if_pos hCond, String.toList_ofList,
    List.dropLast_concat]

theorem pairs_of_not_opens
    {w : List Char}
    (hWord : IsWord w)
    (h : ¬ Opens w)
    (second : String)
    (rest : List String) :
    pairs (String.ofList w :: second :: rest) = pairs (second :: rest) := by
  have hCond :
      ¬ ((String.ofList w).toList.getLast? == some ':' &&
        (String.ofList w).length ≥ 2) = true := by
    rw [String.length_ofList, String.toList_ofList]
    intro hBoth
    simp only [Bool.and_eq_true, beq_iff_eq, decide_eq_true_eq] at hBoth
    rcases List.getLast?_eq_some_iff.mp hBoth.1 with ⟨name, rfl⟩
    rw [List.length_append, List.length_singleton] at hBoth
    refine h ⟨name, ⟨?_, ?_⟩, rfl⟩
    · rw [← List.length_pos_iff]
      omega
    · exact fun c hMem =>
        hWord.chars c (List.mem_append_left _ hMem)
  rw [pairs, if_neg hCond]

/-
  A search finds the pairs among the words of a text. After a
  pair it goes on with the words that are left; a word that
  opens none is skipped, with all places inside of it.
-/
theorem finds_pairs
    (words : List (List Char))
    {cs : List Char}
    (h : Spaced words cs) :
    Finds cs (pairs (words.map String.ofList)) := by
  induction hCount : words.length using Nat.strongRecOn
    generalizing words cs with
  | ind count ih =>
      subst hCount
      cases h with
      | blank hBlanks =>
          exact .nothing (fun later => not_canFit_of_blanks hBlanks)
      | @word gap first tail more hGap hFirst hEnds hMore =>
          rw [← List.append_assoc]
          cases hMore with
          | blank hBlanks =>
              refine Finds.skip (.nothing ?_) ?_
              · exact fun later => not_canFit_of_blanks hBlanks
              · exact fun piece =>
                  not_canFit_word hGap hFirst hEnds (fun _ => hBlanks)
          | @word gap' second rest others hGap' hSecond hEnds' hOthers =>
              by_cases hOpens : Opens first
              · rcases hOpens with ⟨name, hName, rfl⟩
                have hHere :=
                  fitsFirst_of_words hName hGap' hSecond hEnds' hEnds
                have hRest :=
                  ih others.length (by simp only [List.length_cons]; omega)
                    others hOthers rfl
                rw [List.map_cons, List.map_cons, pairs_of_opens hName,
                  List.append_assoc]
                refine .found (fun later hLater hLt => ?_) hHere hRest
                rcases exists_of_longer_suffix hLater hLt with
                  ⟨blanks, hBlanks, hSuffix, rfl⟩
                cases blanks with
                | nil => exact absurd rfl hBlanks
                | cons c blanks =>
                    exact not_canFit_of_blank
                      (hGap c (hSuffix.subset List.mem_cons_self)) _
              · have hNext := ih (second :: others).length (by simp)
                  (second :: others) (.word hGap' hSecond hEnds' hOthers)
                  rfl
                rw [List.map_cons, List.map_cons,
                  pairs_of_not_opens hFirst hOpens]
                refine Finds.skip hNext ?_
                exact fun piece =>
                  not_canFit_word hGap hFirst hEnds
                    (fun hIs => absurd hIs hOpens)

/- What is found in a text are the pairs among its words. -/
theorem finds_iff
    {s : String}
    {found : List (String × String)} :
    Finds s.toList found ↔ found = pairs (Text.words s) := by
  have hPairs : Finds s.toList (pairs (Text.words s)) :=
    finds_pairs _ (Text.spaced_iff.mpr rfl)
  constructor
  · exact fun h => h.unique hPairs
  · rintro rfl
    exact hPairs

end Prefixes
end LinkedMarkup
