import LinkedMarkup.Text.Split
import Mathlib.Data.List.TakeWhile

/-
  This file proves what cutting a text at a mark gives: the
  text up to its first mark and what follows it. So a text is
  cut at a given place in one way only.

  Key definitions include:
    * `Text.afterMark`
    * `Text.Stops`

  Main declarations:
    * `Text.eq_append_of_cutAt`
    * `Text.cutAtChar_append`
    * `Text.cutAtChar_afterMark`
    * `Text.eq_of_append_cons`
    * `Text.eq_of_append_stops`
    * `Text.mem_splitOn`
    * `Text.splitOn_of_not_mem`
    * `Text.eq_append_of_cutAtText`
-/

namespace LinkedMarkup
namespace Text

------------------------------------------------------------
-- Cutting at a mark
------------------------------------------------------------

/- A text that is cut is made of its front and what follows. -/
theorem eq_append_of_cutAt
    {stops : Char → Bool}
    {cs front rest : List Char}
    {c : Char}
    (h : cutAt stops cs = (front, some (c, rest))) :
    cs = front ++ c :: rest := by
  have hFront := congrArg Prod.fst h
  have hRest := congrArg Prod.snd h
  have hWhole :=
    List.takeWhile_append_dropWhile (p := fun d => !stops d) (l := cs)
  unfold cutAt at hFront hRest
  dsimp only at hFront hRest
  split at hRest
  · cases hRest
  · next hDrop =>
      cases hRest
      rw [hFront, hDrop] at hWhole
      exact hWhole.symm

/- A text without a mark is not cut. -/
theorem cutAtChar_of_not_mem
    {mark : Char}
    {cs : List Char}
    (h : mark ∉ cs) :
    cutAtChar mark cs = (cs, none) := by
  have hStays : ∀ c ∈ cs, (!(c == mark)) = true := by
    intro c hMem
    have hNe : c ≠ mark := fun hEq => h (hEq ▸ hMem)
    simp [hNe]
  unfold cutAtChar cutAt
  rw [List.takeWhile_eq_self_iff.mpr hStays,
    List.dropWhile_eq_nil_iff.mpr hStays]
  rfl

/- A text is cut at its first mark. -/
theorem cutAtChar_append
    {mark : Char}
    {front : List Char}
    (h : mark ∉ front)
    (tail : List Char) :
    cutAtChar mark (front ++ mark :: tail) = (front, some tail) := by
  have hStays : ∀ c ∈ front, (!(c == mark)) = true := by
    intro c hMem
    have hNe : c ≠ mark := fun hEq => h (hEq ▸ hMem)
    simp [hNe]
  unfold cutAtChar cutAt
  rw [List.takeWhile_append_of_pos hStays,
    List.dropWhile_append_of_pos hStays]
  simp

/- A mark and what follows it, if there is a mark. -/
def afterMark
    (mark : Char) :
    Option (List Char) → List Char
  | none => []
  | some part => mark :: part

/- A text that may have a mark is cut where it has it. -/
theorem cutAtChar_afterMark
    {mark : Char}
    {front : List Char}
    (h : mark ∉ front)
    (tail : Option (List Char)) :
    cutAtChar mark (front ++ afterMark mark tail) = (front, tail) := by
  cases tail with
  | none =>
      unfold afterMark
      rw [List.append_nil]
      exact cutAtChar_of_not_mem h
  | some part => exact cutAtChar_append h part

/- What comes before a mark is part of the text, without it. -/
theorem mem_cutAtChar_fst
    {mark c : Char}
    {cs : List Char}
    (h : c ∈ (cutAtChar mark cs).1) :
    c ∈ cs ∧ c ≠ mark := by
  have hTake : c ∈ cs.takeWhile (fun d => !(d == mark)) := h
  refine ⟨(List.takeWhile_prefix _).subset hTake, ?_⟩
  have hNot := List.mem_takeWhile_imp hTake
  intro hEq
  simp [hEq] at hNot

/- What comes after a mark is part of the text. -/
theorem mem_cutAtChar_snd
    {mark c : Char}
    {cs tail : List Char}
    (hTail : (cutAtChar mark cs).2 = some tail)
    (h : c ∈ tail) :
    c ∈ cs := by
  unfold cutAtChar cutAt at hTail
  dsimp only at hTail
  cases hDrop : cs.dropWhile (fun d => !(d == mark)) with
  | nil =>
      rw [hDrop] at hTail
      cases hTail
  | cons d rest =>
      rw [hDrop] at hTail
      cases hTail
      have hSuffix : c ∈ cs.dropWhile (fun d => !(d == mark)) := by
        rw [hDrop]
        exact List.mem_cons_of_mem d h
      exact (List.dropWhile_suffix _).subset hSuffix

/- Each text is cut into a front without marks and the rest. -/
theorem cutAtChar_cases
    (mark : Char)
    (cs : List Char) :
    ∃ front tail,
      mark ∉ front ∧ cs = front ++ afterMark mark tail ∧
        cutAtChar mark cs = (front, tail) := by
  refine ⟨(cutAtChar mark cs).1, (cutAtChar mark cs).2,
    fun hMem => (mem_cutAtChar_fst hMem).2 rfl, ?_, rfl⟩
  have hWhole :=
    List.takeWhile_append_dropWhile (p := fun d => !(d == mark)) (l := cs)
  unfold cutAtChar cutAt
  dsimp only
  cases hDrop : cs.dropWhile (fun d => !(d == mark)) with
  | nil =>
      rw [hDrop] at hWhole
      exact hWhole.symm
  | cons d rest =>
      have hHead := List.head?_dropWhile_not (fun d => !(d == mark)) cs
      rw [hDrop] at hHead hWhole
      have hMark : d = mark := by simpa using hHead
      subst hMark
      exact hWhole.symm

/- A text has one front that ends at the first mark. -/
theorem eq_of_append_cons
    {mark : Char}
    {a b x y : List Char}
    (ha : mark ∉ a)
    (hb : mark ∉ b)
    (h : a ++ mark :: x = b ++ mark :: y) :
    a = b ∧ x = y := by
  have hCut := congrArg (cutAtChar mark) h
  rw [cutAtChar_append ha, cutAtChar_append hb] at hCut
  exact ⟨congrArg Prod.fst hCut,
    Option.some.inj (congrArg Prod.snd hCut)⟩

------------------------------------------------------------
-- Reading up to a class
------------------------------------------------------------

/- Text that is empty or begins with a character that stops. -/
def Stops
    (stop : Char → Prop)
    (text : List Char) : Prop :=
  ∀ c, text.head? = some c → stop c

/- What stands before the first stop is the same in one text. -/
theorem eq_of_append_stops
    {stop : Char → Prop}
    {a b x y : List Char}
    (ha : ∀ c ∈ a, ¬stop c)
    (hb : ∀ c ∈ b, ¬stop c)
    (hx : Stops stop x)
    (hy : Stops stop y)
    (h : a ++ x = b ++ y) :
    a = b ∧ x = y := by
  induction a generalizing b with
  | nil =>
      cases b with
      | nil => exact ⟨rfl, h⟩
      | cons d b =>
          rw [List.nil_append] at h
          rw [h] at hx
          exact absurd (hx d rfl) (hb d List.mem_cons_self)
  | cons c a ih =>
      cases b with
      | nil =>
          rw [List.nil_append] at h
          rw [← h] at hy
          exact absurd (hy c rfl) (ha c List.mem_cons_self)
      | cons d b =>
          rcases List.cons.inj h with ⟨rfl, hTail⟩
          rcases ih (fun e he => ha e (List.mem_cons_of_mem _ he))
              (fun e he => hb e (List.mem_cons_of_mem _ he)) hTail with
            ⟨rfl, hRest⟩
          exact ⟨rfl, hRest⟩

------------------------------------------------------------
-- Pieces
------------------------------------------------------------

/- Each character of a text is a separator or in a piece of it. -/
theorem mem_splitOn
    (mark : Char)
    {c : Char}
    {cs : List Char}
    (h : c ∈ cs) :
    c = mark ∨ ∃ piece ∈ splitOn mark cs, c ∈ piece := by
  induction cs with
  | nil => cases h
  | cons d rest ih =>
      unfold splitOn
      rcases List.mem_cons.mp h with rfl | hRest
      · split
        · next hMark => exact .inl (eq_of_beq hMark)
        · split
          · exact .inr ⟨_, List.mem_cons_self, List.mem_cons_self⟩
          · exact .inr ⟨_, List.mem_cons_self, List.mem_cons_self⟩
      · rcases ih hRest with hMark | ⟨piece, hPiece, hMem⟩
        · exact .inl hMark
        · right
          split
          · exact ⟨piece, List.mem_cons_of_mem _ hPiece, hMem⟩
          · split
            · next hNone =>
                rw [hNone] at hPiece
                cases hPiece
            · next first others hSome =>
                rw [hSome] at hPiece
                rcases List.mem_cons.mp hPiece with rfl | hOther
                · exact ⟨_, List.mem_cons_self,
                    List.mem_cons_of_mem _ hMem⟩
                · exact ⟨piece, List.mem_cons_of_mem _ hOther, hMem⟩

/- A text without separators is its only piece. -/
theorem splitOn_of_not_mem
    {mark : Char}
    {cs : List Char}
    (h : mark ∉ cs) :
    splitOn mark cs = [cs] := by
  induction cs with
  | nil => rfl
  | cons c rest ih =>
      rw [List.mem_cons, not_or] at h
      have hOther : (c == mark) = false :=
        beq_false_of_ne (fun hSame => h.1 hSame.symm)
      unfold splitOn
      rw [hOther, ih h.2]
      rfl

theorem eq_append_of_dropFront?
    {front cs rest : List Char}
    (h : dropFront? front cs = some rest) :
    cs = front ++ rest := by
  induction front generalizing cs with
  | nil =>
      cases h
      rfl
  | cons f front ih =>
      cases cs with
      | nil => cases h
      | cons c cs =>
          unfold dropFront? at h
          split at h
          · next hSame => rw [ih h, eq_of_beq hSame, List.cons_append]
          · cases h

/- A text that is cut at another is made of both sides and it. -/
theorem eq_append_of_cutAtText
    {mark cs head tail : List Char}
    (h : cutAtText mark cs = some (head, tail)) :
    cs = head ++ mark ++ tail := by
  induction cs generalizing head with
  | nil =>
      unfold cutAtText at h
      split at h <;> cases h
      rfl
  | cons c cs ih =>
      unfold cutAtText at h
      split at h
      · next hDrop =>
          cases h
          exact eq_append_of_dropFront? hDrop
      · rcases Option.map_eq_some_iff.mp h with ⟨⟨front, rest⟩, hCut, hEq⟩
        cases hEq
        rw [ih hCut]
        simp

end Text
end LinkedMarkup
