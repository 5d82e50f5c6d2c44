import LinkedMarkup.Iri.Reference
import LinkedMarkup.Proofs.Text.Cutting
import Mathlib.Data.List.TakeWhile

/-
  This file proves that a text has no fragment once it is
  taken off, so taking it off twice is taking it off once.

  Main declarations:
    * `Reference.hash_not_mem_split`
    * `Reference.hash_not_mem_join`
    * `Iri.withoutFragment_idem`
-/

namespace LinkedMarkup

------------------------------------------------------------
-- Lower case
------------------------------------------------------------

namespace Text

/- Lowering a letter gives no mark. -/
theorem asciiLowerChar_ne_hash
    {c : Char}
    (h : c ≠ '#') :
    asciiLowerChar c ≠ '#' := by
  have hLetters : ∀ n < 123, 97 ≤ n → Char.ofNat n ≠ '#' := by
    decide
  unfold asciiLowerChar
  split
  · rename_i hUpper
    rw [Bool.and_eq_true, decide_eq_true_eq, decide_eq_true_eq] at hUpper
    have hLow : 'A'.toNat ≤ c.toNat := hUpper.1
    have hHigh : c.toNat ≤ 'Z'.toNat := hUpper.2
    have hA : 'A'.toNat = 65 := rfl
    have hZ : 'Z'.toNat = 90 := rfl
    exact hLetters (c.toNat + 32) (by omega) (by omega)
  · exact h

end Text

------------------------------------------------------------
-- Parts of a reference
------------------------------------------------------------

namespace Reference

/- The parts of a path are parts of it. -/
theorem mem_splitParams
    {c : Char}
    {path : List Char}
    (h : c ∈ (splitParams path).1 ∨ c ∈ (splitParams path).2) :
    c ∈ path := by
  have hLast :
      ∀ d ∈ (path.reverse.takeWhile (· != '/')).reverse, d ∈ path := by
    intro d hMem
    have hTake := List.mem_reverse.mp hMem
    exact List.mem_reverse.mp ((List.takeWhile_prefix _).subset hTake)
  unfold splitParams at h
  dsimp only at h
  split at h
  · simpa using h
  · rename_i segment params hCut
    rcases h with hFront | hParams
    · rcases List.mem_append.mp hFront with hTake | hSegment
      · exact List.mem_of_mem_take hTake
      · have hFst :
            c ∈ (Text.cutAtChar ';'
              (path.reverse.takeWhile (· != '/')).reverse).1 := by
          rw [hCut]
          exact hSegment
        exact hLast c (Text.mem_cutAtChar_fst hFst).1
    · have hSnd :
          (Text.cutAtChar ';'
            (path.reverse.takeWhile (· != '/')).reverse).2 =
              some params := by
        rw [hCut]
      exact hLast c (Text.mem_cutAtChar_snd hSnd hParams)

/- A scheme has no fragment mark. -/
theorem hash_not_mem_scheme
    {text scheme rest : List Char}
    (h : Iri.scheme? text = some (scheme, rest)) :
    '#' ∉ scheme := by
  unfold Iri.scheme? at h
  split at h
  · cases h
  · split at h
    · split at h
      · rename_i found rest' hCut
        cases h
        intro hMem
        have hFst := congrArg Prod.fst hCut
        dsimp only at hFst
        rw [← hFst] at hMem
        have hChar := List.mem_takeWhile_imp hMem
        revert hChar
        decide
      · cases h
    · cases h

/- The parts of a text before its fragment have no fragment mark. -/
theorem hash_not_mem_split
    {text : List Char}
    {r : Reference}
    (h : split [] text = .ok r) :
    '#' ∉ r.scheme ∧ '#' ∉ r.authority ∧ '#' ∉ r.path ∧
      '#' ∉ r.params ∧ '#' ∉ r.query := by
  unfold split at h
  extract_lets cleaned headed located outer inner lasting at h
  have hOuter : '#' ∉ outer.1 :=
    fun hMem => (Text.mem_cutAtChar_fst hMem).2 rfl
  have hInner : '#' ∉ inner.1 :=
    fun hMem => hOuter (Text.mem_cutAtChar_fst hMem).1
  have hScheme : '#' ∉ headed.1 := by
    unfold headed
    split
    · rename_i scheme rest hFound
      intro hMem
      rcases List.mem_map.mp hMem with ⟨c, hChar, hLower⟩
      refine Text.asciiLowerChar_ne_hash ?_ hLower
      rintro rfl
      exact hash_not_mem_scheme hFound hChar
    · simp
  have hAuthority : '#' ∉ located.1 := by
    unfold located
    split
    · intro hMem
      have hNot := List.mem_takeWhile_imp hMem
      revert hNot
      decide
    · simp
  have hQuery : '#' ∉ inner.2.getD [] := by
    cases hTail : inner.2 with
    | none => simp
    | some query =>
        intro hMem
        exact hOuter (Text.mem_cutAtChar_snd hTail hMem)
  have hLasting : '#' ∉ lasting.1 ∧ '#' ∉ lasting.2 := by
    unfold lasting
    split
    · exact ⟨fun hMem => hInner (mem_splitParams (.inl hMem)),
        fun hMem => hInner (mem_splitParams (.inr hMem))⟩
    · exact ⟨hInner, by simp⟩
  split at h
  · cases h
  · cases h
    exact ⟨hScheme, hAuthority, hLasting.1, hLasting.2, hQuery⟩

/- Only the parts of a reference put fragment marks in its text. -/
theorem hash_not_mem_join
    {r : Reference}
    (hScheme : '#' ∉ r.scheme)
    (hAuthority : '#' ∉ r.authority)
    (hPath : '#' ∉ r.path)
    (hParams : '#' ∉ r.params)
    (hQuery : '#' ∉ r.query) :
    '#' ∉ join { r with fragment := [] } := by
  have hMarked :
      ∀ (mark : Char) (part : List Char), mark ≠ '#' → '#' ∉ part →
        '#' ∉ marked mark part := by
    intro mark part hMark hPart hMem
    unfold marked at hMem
    split at hMem
    · cases hMem
    · rcases List.mem_cons.mp hMem with hHead | hTail
      · exact hMark hHead.symm
      · exact hPart hTail
  unfold join
  extract_lets path rooted located headed
  have hWhole : '#' ∉ path := by
    intro hMem
    rcases List.mem_append.mp hMem with hFront | hBack
    · exact hPath hFront
    · exact hMarked ';' r.params (by decide) hParams hBack
  have hRooted : '#' ∉ rooted := by
    unfold rooted
    split
    · simp [hWhole]
    · exact hWhole
  have hLocated : '#' ∉ located := by
    unfold located
    split
    · simp [hAuthority, hRooted]
    · exact hWhole
  have hHeaded : '#' ∉ headed := by
    unfold headed
    split
    · exact hLocated
    · simp [hScheme, hLocated]
  intro hMem
  rcases List.mem_append.mp hMem with hFront | hBack
  · rcases List.mem_append.mp hFront with hHead | hAsked
    · exact hHeaded hHead
    · exact hMarked '?' r.query (by decide) hQuery hAsked
  · cases hBack

end Reference

------------------------------------------------------------
-- Texts without fragments
------------------------------------------------------------

namespace Iri

theorem hash_not_mem_withoutFragment
    {text document : String}
    (h : withoutFragment text = .ok document) :
    '#' ∉ document.toList := by
  unfold withoutFragment at h
  split at h
  · split at h
    · cases h
    · rename_i r hSplit
      cases h
      rcases Reference.hash_not_mem_split hSplit with
        ⟨hScheme, hAuthority, hPath, hParams, hQuery⟩
      rw [String.toList_ofList]
      exact Reference.hash_not_mem_join hScheme hAuthority hPath
        hParams hQuery
  · rename_i hContains
    cases h
    simpa using hContains

/- A text without its fragment has none to take off. -/
theorem withoutFragment_idem
    {text document : String}
    (h : withoutFragment text = .ok document) :
    withoutFragment document = .ok document := by
  have hHash := hash_not_mem_withoutFragment h
  unfold withoutFragment
  rw [if_neg (by simpa using hHash)]

end Iri
end LinkedMarkup
