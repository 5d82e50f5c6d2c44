import LinkedMarkup.Proofs.Lists.Writing

/-
  This file proves that a list mapping which nothing fills is
  of no consequence. Beside a run that made one more mapping,
  the mappings made later have numbers that are one higher;
  their lists are filled and written alike.

  Key definitions include:
    * `ListForest.past`
    * `ListForest.Padded`

  Main declarations:
    * `ListForest.Padded.setLists`
    * `ListForest.Padded.flush`
    * `ListForest.padded_child`
-/

namespace LinkedMarkup
namespace ListForest

------------------------------------------------------------
-- Numbers
------------------------------------------------------------

/- The number of a mapping where a spare one was made as well. -/
def past
    (spare l : Nat) : Nat :=
  if l < spare then l else l + 1

theorem past_of_lt
    {spare l : Nat}
    (h : l < spare) :
    past spare l = l := by
  simp [past, h]

theorem past_of_le
    {spare l : Nat}
    (h : spare ≤ l) :
    past spare l = l + 1 := by
  simp [past, Nat.not_lt_of_le h]

theorem past_ne
    (spare l : Nat) :
    past spare l ≠ spare := by
  unfold past
  split <;> omega

@[simp] theorem past_inj
    {spare l k : Nat} :
    past spare l = past spare k ↔ l = k := by
  unfold past
  constructor
  · intro hEq
    split at hEq <;> split at hEq <;> omega
  · rintro rfl
    rfl

theorem past_lt_succ_iff
    {spare l n : Nat}
    (h : spare ≤ n) :
    past spare l < n + 1 ↔ l < n := by
  unfold past
  split <;> omega

------------------------------------------------------------
-- Forests with a spare mapping
------------------------------------------------------------

variable {P V : Type}

/-
  The second forest has the mappings of the first and a spare
  one, which owns no list.
-/
structure Padded
    (spare : Nat)
    (f f' : ListForest P V) : Prop where
  size : f'.slots.size = f.slots.size + 1
  spare_le : spare ≤ f.slots.size
  slots :
    ∀ l, f'.slot (past spare l) =
      { f.slot l with owner := past spare (f.slot l).owner }
  empty : (f'.slot spare).lists = []

variable {spare : Nat} {f f' : ListForest P V}

theorem Padded.past_size
    (h : Padded spare f f') :
    past spare f.slots.size = f'.slots.size := by
  rw [past_of_le h.spare_le, h.size]

theorem Padded.past_lt_iff
    (h : Padded spare f f')
    (l : Nat) :
    past spare l < f'.slots.size ↔ l < f.slots.size := by
  rw [h.size]
  exact past_lt_succ_iff h.spare_le

theorem Padded.owner_eq
    (h : Padded spare f f')
    (l : Nat) :
    (f'.slot (past spare l)).owner = past spare (f.slot l).owner := by
  rw [h.slots]

theorem Padded.lists_eq
    (h : Padded spare f f')
    (l : Nat) :
    f'.lists (past spare l) = f.lists l := by
  unfold lists
  rw [h.owner_eq, h.slots]

theorem Padded.flushed_eq
    (h : Padded spare f f')
    (l : Nat) :
    f'.flushed (past spare l) = f.flushed l := by
  unfold flushed
  rw [h.slots]

/- New lists of a mapping are new lists of its counterpart. -/
theorem Padded.setLists
    (h : Padded spare f f')
    (l : Nat)
    (lists : List (P × List V)) :
    Padded spare (f.setLists l lists)
      (f'.setLists (past spare l) lists) where
  size := by
    rw [(sameShape_setLists f' _ _).size_eq,
      (sameShape_setLists f l lists).size_eq]
    exact h.size
  spare_le := by
    rw [(sameShape_setLists f l lists).size_eq]
    exact h.spare_le
  slots i := by
    simp only [slot_setLists, past_inj, h.past_lt_iff, h.slots]
    split <;> rfl
  empty := by
    rw [slot_setLists, h.owner_eq, if_neg]
    · exact h.empty
    · rintro ⟨hEq, _⟩
      exact past_ne _ _ hEq.symm

/- A mapping that is added to both gets the next number in each. -/
theorem Padded.push
    (h : Padded spare f f')
    (s : ListSlot P V) :
    Padded spare ⟨f.slots.push s⟩
      ⟨f'.slots.push { s with owner := past spare s.owner }⟩ where
  size := by simp [h.size]
  spare_le := by
    rw [Array.size_push]
    exact Nat.le_succ_of_le h.spare_le
  slots i := by
    have hOld := h.slots i
    unfold slot at hOld ⊢
    rw [Array.getElem?_push, Array.getElem?_push, ← h.past_size]
    by_cases hNew : i = f.slots.size
    · simp [hNew]
    · simpa [hNew] using hOld
  empty := by
    have hOld := h.empty
    have hNe : spare ≠ f'.slots.size := by
      rw [h.size]
      have hLe := h.spare_le
      omega
    unfold slot at hOld ⊢
    rw [Array.getElem?_push, if_neg hNe]
    exact hOld

theorem Padded.root
    (h : Padded spare f f')
    (collects : Bool) :
    Padded spare (f.root collects).2 (f'.root collects).2 := by
  have hPushed := h.push ⟨f.slots.size, collects, false, []⟩
  rw [h.past_size] at hPushed
  exact hPushed

theorem Padded.child
    (h : Padded spare f f')
    (l : Nat) :
    Padded spare (f.child l).2 (f'.child (past spare l)).2 := by
  unfold ListForest.child
  rw [h.slots]
  exact h.push ⟨(f.slot l).owner, (f.slot l).collects, false, []⟩

theorem Padded.marked
    (h : Padded spare f f')
    (l : Nat) :
    Padded spare (f.marked l) (f'.marked (past spare l)) where
  size := by simp [h.size]
  spare_le := by simpa using h.spare_le
  slots i := by
    simp only [slot_marked, past_inj, h.past_lt_iff, h.slots]
    split <;> rfl
  empty := by simpa using h.empty

/- The spare mapping may be flushed alone. -/
theorem Padded.marked_spare
    (h : Padded spare f f') :
    Padded spare f (f'.marked spare) where
  size := by simp [h.size]
  spare_le := h.spare_le
  slots i := by
    rw [slot_marked, if_neg (fun hBoth => past_ne spare i hBoth.1)]
    exact h.slots i
  empty := by simpa using h.empty

/-
  A forest is padded by one more mapping, if the mappings that
  it has are owned by mappings that it has.
-/
theorem padded_child
    (hOwned :
      ∀ l, l < f.slots.size → (f.slot l).owner < f.slots.size)
    (id : Nat) :
    Padded f.slots.size f (f.child id).2 where
  size := by simp
  spare_le := Nat.le_refl _
  slots i := by
    rw [slot_child, if_neg (past_ne _ i)]
    by_cases hLt : i < f.slots.size
    · rw [past_of_lt hLt, past_of_lt (hOwned i hLt)]
    · have hLe : f.slots.size ≤ i := Nat.le_of_not_lt hLt
      rw [slot_of_size_le hLe, past_of_le hLe,
        slot_of_size_le (Nat.le_succ_of_le hLe)]
  empty := by simp [slot_child]

/- A mapping and its counterpart are written alike. -/
theorem Padded.flush
    [AsTerm P]
    [AsTerm V]
    (h : Padded spare f f')
    (l : Nat)
    (subject : Option Term)
    (supply : NodeSupply) :
    (f'.flush (past spare l) subject supply).1 =
        (f.flush l subject supply).1 ∧
      (f'.flush (past spare l) subject supply).2.2 =
        (f.flush l subject supply).2.2 ∧
      Padded spare (f.flush l subject supply).2.1
        (f'.flush (past spare l) subject supply).2.1 := by
  have hMarked :
      Padded spare (f.setSlot l { f.slot l with flushed := true })
        (f'.setSlot (past spare l)
          { f'.slot (past spare l) with flushed := true }) :=
    h.marked l
  unfold ListForest.flush
  simp only [h.slots] at hMarked ⊢
  split
  · exact ⟨rfl, rfl, h⟩
  · split
    · exact ⟨rfl, rfl, hMarked⟩
    · split
      · exact ⟨rfl, rfl, hMarked⟩
      · exact ⟨rfl, rfl, hMarked⟩

end ListForest
end LinkedMarkup
