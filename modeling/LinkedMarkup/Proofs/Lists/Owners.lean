import LinkedMarkup.Proofs.Coupling.Keeping
import LinkedMarkup.Proofs.Lists.Writing

/-
  This file proves that lists are held by owners only: a
  mapping that is chained to another has no lists of its own,
  whatever is filled, made or flushed.

  Key definitions include:
    * `ListForest.Ordered`
    * `Work.Ordered`

  Main declarations:
    * `Work.keeps_ordered`
    * `Work.keepsFilling_ordered`
    * `Work.keepsMaking_ordered`
-/

namespace LinkedMarkup

------------------------------------------------------------
-- Forests
------------------------------------------------------------

namespace ListForest

variable {P V : Type}

/-
  A forest in which owners exist and own themselves, and in
  which only owners hold lists.
-/
structure Ordered
    (f : ListForest P V) : Prop where
  owner :
    ∀ l, l < f.slots.size →
      (f.slot l).owner < f.slots.size ∧
        (f.slot (f.slot l).owner).owner = (f.slot l).owner
  lists : ∀ l, (f.slot l).owner ≠ l → (f.slot l).lists = []

theorem ordered_empty : Ordered (empty : ListForest P V) where
  owner l hLt := by simp [empty] at hLt
  lists l _ := by
    rw [slot_of_size_le (by simp [empty])]

/- Filling the lists of an owner leaves the others without. -/
theorem Ordered.setLists
    {f : ListForest P V}
    (h : Ordered f)
    (id : Nat)
    (lists : List (P × List V)) :
    Ordered (f.setLists id lists) := by
  have hShape := sameShape_setLists f id lists
  refine ⟨?_, ?_⟩
  · intro l hLt
    rw [hShape.size_eq] at hLt ⊢
    rw [hShape.owner_eq, hShape.owner_eq]
    exact h.owner l hLt
  · intro l hChained
    rw [hShape.owner_eq] at hChained
    rw [slot_setLists, if_neg]
    · exact h.lists l hChained
    · rintro ⟨rfl, hLt⟩
      by_cases hId : id < f.slots.size
      · exact hChained (h.owner id hId).2
      · rw [slot_of_size_le (Nat.le_of_not_lt hId)] at hLt
        exact hId hLt

/- So does a new mapping that owns itself or has an owner. -/
theorem Ordered.pushed
    {f g : ListForest P V}
    {owner : Nat}
    {collects : Bool}
    (h : Ordered f)
    (hSize : g.slots.size = f.slots.size + 1)
    (hSlot :
      ∀ l, g.slot l =
        if l = f.slots.size then
          ⟨owner, collects, false, []⟩
        else
          f.slot l)
    (hOwner :
      owner = f.slots.size ∨
        (owner < f.slots.size ∧ (f.slot owner).owner = owner)) :
    Ordered g := by
  refine ⟨?_, ?_⟩
  · intro l hLt
    rw [hSize] at hLt ⊢
    rw [hSlot l]
    split
    · rw [hSlot]
      dsimp only
      rcases hOwner with rfl | ⟨hOwnerLt, hOwns⟩
      · rw [if_pos rfl]
        exact ⟨Nat.lt_succ_self _, rfl⟩
      · rw [if_neg (Nat.ne_of_lt hOwnerLt)]
        exact ⟨Nat.lt_succ_of_lt hOwnerLt, hOwns⟩
    · rcases h.owner l (by omega) with ⟨hOwnerLt, hOwns⟩
      rw [hSlot, if_neg (Nat.ne_of_lt hOwnerLt)]
      exact ⟨Nat.lt_succ_of_lt hOwnerLt, hOwns⟩
  · intro l hChained
    rw [hSlot] at hChained ⊢
    split at hChained
    · rename_i hNew
      rw [if_pos hNew]
    · rename_i hOld
      rw [if_neg hOld]
      exact h.lists l hChained

theorem Ordered.root
    {f : ListForest P V}
    (h : Ordered f)
    (collects : Bool) :
    Ordered (f.root collects).2 :=
  h.pushed (size_root f collects) (slot_root f collects) (.inl rfl)

theorem Ordered.child
    {f : ListForest P V}
    (h : Ordered f)
    {id : Nat}
    (hLt : id < f.slots.size) :
    Ordered (f.child id).2 :=
  h.pushed (size_child f id) (slot_child f id) (.inr (h.owner id hLt))

theorem Ordered.marked
    {f : ListForest P V}
    (h : Ordered f)
    (id : Nat) :
    Ordered (f.marked id) := by
  refine ⟨?_, ?_⟩
  · intro l hLt
    rw [size_marked] at hLt ⊢
    rw [owner_marked, owner_marked]
    exact h.owner l hLt
  · intro l hChained
    rw [owner_marked] at hChained
    rw [lists_marked]
    exact h.lists l hChained

end ListForest

------------------------------------------------------------
-- Sessions
------------------------------------------------------------

namespace Work

/- A session whose lists are ordered, where those in use exist. -/
structure Ordered
    (W : Nat → Prop)
    (s : Session) : Prop where
  used : ∀ l, W l → l < s.lists.slots.size
  lists : s.lists.Ordered

theorem keeps_ordered : Work.Keeps Ordered (fun _ => True) where
  quad _ _ _ h := ⟨h.used, h.lists⟩
  line _ _ _ h := ⟨h.used, h.lists⟩
  fresh _ _ h := ⟨h.used, h.lists⟩
  labelled _ _ _ h := ⟨h.used, h.lists⟩
  value _ _ := trivial

theorem Ordered.setLists
    {W : Nat → Prop}
    {s t : Session}
    (h : Ordered W s)
    {id : Nat}
    {lists : List (Iri × List Object)}
    (hSession : t.lists = s.lists.setLists id lists) :
    Ordered W t := by
  refine ⟨?_, ?_⟩
  · intro l hl
    rw [hSession, (ListForest.sameShape_setLists ..).size_eq]
    exact h.used l hl
  · rw [hSession]
    exact h.lists.setLists id lists

theorem keepsFilling_ordered :
    Work.KeepsFilling Ordered (fun _ => True) where
  ensure _ _ _ _ h _ _ := h.setLists rfl
  append _ _ _ _ _ h _ _ := h.setLists rfl
  flushed _ _ _ _ _ _ _ := trivial

theorem keepsMaking_ordered
    (collects : Bool) :
    Work.KeepsMaking Ordered collects where
  root W s h := by
    refine ⟨?_, h.lists.root collects⟩
    intro l hl
    dsimp only
    rw [ListForest.size_root]
    rcases hl with hl | rfl
    · exact Nat.lt_succ_of_lt (h.used l hl)
    · exact Nat.lt_succ_self _
  child W s id h hId := by
    refine ⟨?_, h.lists.child (h.used id hId)⟩
    intro l hl
    dsimp only
    rw [ListForest.size_child]
    rcases hl with hl | rfl
    · exact Nat.lt_succ_of_lt (h.used l hl)
    · exact Nat.lt_succ_self _

end Work
end LinkedMarkup
