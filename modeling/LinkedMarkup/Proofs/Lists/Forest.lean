import LinkedMarkup.Annotation.ListForest

/-
  This file proves what each operation on lists under
  construction does to the mappings: which mapping it adds or
  changes, and that all others stay as they are.

  Key definitions include:
    * `ListForest.SameShape`
    * `ListForest.values`

  Main declarations:
    * `ListForest.slot_setLists`
    * `ListForest.sameShape_setLists`
    * `ListForest.setLists_setLists`
    * `ListForest.values_extended`
    * `ListForest.values_opened`
    * `ListForest.mem_of_values_ne_nil`
-/

namespace LinkedMarkup
namespace ListForest

variable {P V : Type}

------------------------------------------------------------
-- Slots
------------------------------------------------------------

@[simp] theorem size_setSlot
    (f : ListForest P V)
    (id : Nat)
    (s : ListSlot P V) :
    (f.setSlot id s).slots.size = f.slots.size := by
  simp [setSlot]

/- Replacing a mapping changes no other mapping. -/
theorem slot_setSlot
    (f : ListForest P V)
    (id i : Nat)
    (s : ListSlot P V) :
    (f.setSlot id s).slot i =
      if i = id ∧ id < f.slots.size then s else f.slot i := by
  by_cases hEq : i = id
  · subst hEq
    by_cases hLt : i < f.slots.size
    · simp [slot, setSlot, hLt]
    · simp [slot, setSlot, hLt]
  · have hNe : id ≠ i := fun h => hEq h.symm
    simp [slot, setSlot, hEq, Array.getElem?_setIfInBounds_ne hNe]

/- A mapping that does not exist is empty and stands alone. -/
theorem slot_of_size_le
    {f : ListForest P V}
    {id : Nat}
    (h : f.slots.size ≤ id) :
    f.slot id = ⟨id, false, false, []⟩ := by
  simp [slot, h]

@[simp] theorem size_root
    (f : ListForest P V)
    (collects : Bool) :
    (f.root collects).2.slots.size = f.slots.size + 1 := by
  simp [root]

@[simp] theorem size_child
    (f : ListForest P V)
    (id : Nat) :
    (f.child id).2.slots.size = f.slots.size + 1 := by
  simp [child]

/- A mapping that is added leaves the others as they are. -/
theorem slot_root
    (f : ListForest P V)
    (collects : Bool)
    (i : Nat) :
    (f.root collects).2.slot i =
      if i = f.slots.size then
        ⟨f.slots.size, collects, false, []⟩
      else
        f.slot i := by
  by_cases hEq : i = f.slots.size
  · simp [slot, root, hEq]
  · simp [slot, root, hEq, Array.getElem?_push]

theorem slot_child
    (f : ListForest P V)
    (id i : Nat) :
    (f.child id).2.slot i =
      if i = f.slots.size then
        ⟨(f.slot id).owner, (f.slot id).collects, false, []⟩
      else
        f.slot i := by
  by_cases hEq : i = f.slots.size
  · simp [slot, child, hEq]
  · simp [slot, child, hEq, Array.getElem?_push]

theorem flushed_of_size_le
    {f : ListForest P V}
    {id : Nat}
    (h : f.slots.size ≤ id) :
    f.flushed id = false := by
  unfold flushed
  rw [slot_of_size_le h]

/- A mapping that is added has not been flushed. -/
theorem flushed_root
    (f : ListForest P V)
    (collects : Bool)
    (i : Nat) :
    (f.root collects).2.flushed i = f.flushed i := by
  unfold flushed
  rw [slot_root]
  split
  · rename_i hNew
    rw [slot_of_size_le (Nat.le_of_eq hNew.symm)]
  · rfl

theorem flushed_child
    (f : ListForest P V)
    (id i : Nat) :
    (f.child id).2.flushed i = f.flushed i := by
  unfold flushed
  rw [slot_child]
  split
  · rename_i hNew
    rw [slot_of_size_le (Nat.le_of_eq hNew.symm)]
  · rfl

------------------------------------------------------------
-- Shape
------------------------------------------------------------

/-
  Two forests with the same mappings, which may hold other
  members.
-/
structure SameShape
    (f g : ListForest P V) : Prop where
  size_eq : g.slots.size = f.slots.size
  owner_eq : ∀ id, (g.slot id).owner = (f.slot id).owner
  collects_eq : ∀ id, (g.slot id).collects = (f.slot id).collects
  flushed_eq : ∀ id, g.flushed id = f.flushed id

theorem SameShape.refl
    (f : ListForest P V) :
    SameShape f f :=
  ⟨rfl, fun _ => rfl, fun _ => rfl, fun _ => rfl⟩

theorem SameShape.trans
    {f g h : ListForest P V}
    (hFG : SameShape f g)
    (hGH : SameShape g h) :
    SameShape f h where
  size_eq := hGH.size_eq.trans hFG.size_eq
  owner_eq id := (hGH.owner_eq id).trans (hFG.owner_eq id)
  collects_eq id :=
    (hGH.collects_eq id).trans (hFG.collects_eq id)
  flushed_eq id := (hGH.flushed_eq id).trans (hFG.flushed_eq id)

/- Only the owner of a mapping gets the mapping's new lists. -/
theorem slot_setLists
    (f : ListForest P V)
    (id i : Nat)
    (lists : List (P × List V)) :
    (f.setLists id lists).slot i =
      if i = (f.slot id).owner ∧
          (f.slot id).owner < f.slots.size then
        { f.slot i with lists := lists }
      else
        f.slot i := by
  unfold setLists
  rw [slot_setSlot]
  by_cases hOwner :
      i = (f.slot id).owner ∧ (f.slot id).owner < f.slots.size
  · rw [if_pos hOwner, if_pos hOwner, hOwner.1]
  · rw [if_neg hOwner, if_neg hOwner]

theorem sameShape_setLists
    (f : ListForest P V)
    (id : Nat)
    (lists : List (P × List V)) :
    SameShape f (f.setLists id lists) where
  size_eq := by simp [setLists]
  owner_eq i := by
    rw [slot_setLists]
    split <;> rfl
  collects_eq i := by
    rw [slot_setLists]
    split <;> rfl
  flushed_eq i := by
    unfold flushed
    rw [slot_setLists]
    split <;> rfl

/- A mapping whose lists are filled with themselves stays. -/
theorem setLists_lists
    (f : ListForest P V)
    (id : Nat) :
    f.setLists id (f.lists id) = f := by
  unfold setLists setSlot lists
  refine congrArg ListForest.mk (Array.ext_getElem? ?_)
  intro i
  rw [Array.getElem?_setIfInBounds]
  split
  · next hSame =>
      rw [hSame]
      split
      · next hLt => simp [slot, hLt]
      · next hLe => simp [hLe]
  · rfl

/- Of the lists that a mapping is filled with, the last stay. -/
theorem setLists_setLists
    (f : ListForest P V)
    (id : Nat)
    (first last : List (P × List V)) :
    (f.setLists id first).setLists id last = f.setLists id last := by
  have hOwner := (sameShape_setLists f id first).owner_eq id
  have hSlot :
      ∀ s : ListSlot P V,
        (f.setLists id first).setSlot (f.slot id).owner s =
          f.setSlot (f.slot id).owner s := by
    intro s
    unfold setLists setSlot
    rw [Array.setIfInBounds_setIfInBounds]
  have hLast :
      (f.setLists id first).setLists id last =
        (f.setLists id first).setSlot (f.slot id).owner
          { (f.setLists id first).slot (f.slot id).owner with
            lists := last } := by
    rw [← hOwner]
    rfl
  rw [hLast, hSlot, slot_setLists]
  split <;> rfl

------------------------------------------------------------
-- Members
------------------------------------------------------------

section Members

variable [DecidableEq P]

/- The members of a predicate's list; no list has no members. -/
def values
    (lists : List (P × List V))
    (predicate : P) : List V :=
  (members? lists predicate).getD []

/- A member that is added comes last in its own list only. -/
theorem values_extended
    (lists : List (P × List V))
    (predicate p : P)
    (value : V) :
    values (extended lists predicate value) p =
      if p = predicate then
        values lists p ++ [value]
      else
        values lists p := by
  induction lists with
  | nil =>
      by_cases hEq : p = predicate
      · subst hEq
        simp [values, extended, members?]
      · have hNe : predicate ≠ p := fun h => hEq h.symm
        simp [values, extended, members?, hEq, hNe]
  | cons entry rest ih =>
      rcases entry with ⟨q, members⟩
      unfold values at ih
      by_cases hHead : q = predicate
      · subst hHead
        by_cases hEq : p = q
        · subst hEq
          simp [values, extended, members?]
        · have hNe : q ≠ p := fun h => hEq h.symm
          simp [values, extended, members?, hEq, hNe]
      · by_cases hEq : q = p
        · subst hEq
          simp [values, extended, members?, hHead]
        · simp [values, extended, members?, hHead, hEq, ih]

/- Opening a list adds no member to any. -/
theorem values_opened
    (lists : List (P × List V))
    (predicate p : P) :
    values (opened lists predicate) p = values lists p := by
  unfold opened
  cases hMembers : members? lists predicate with
  | some members => rfl
  | none =>
      induction lists with
      | nil =>
          by_cases hEq : predicate = p
          · simp [values, members?, hEq]
          · simp [values, members?, hEq]
      | cons entry rest ih =>
          rcases entry with ⟨q, members⟩
          unfold values at ih
          by_cases hHead : q = predicate
          · simp [members?, hHead] at hMembers
          · simp only [members?, if_neg hHead] at hMembers
            by_cases hEq : q = p
            · simp [values, members?, hEq]
            · simpa [values, members?, hEq] using ih hMembers

/- A predicate has no list if it is none of the keys. -/
theorem not_mem_keys_of_members?_eq_none
    {lists : List (P × List V)}
    {predicate : P}
    (h : members? lists predicate = none) :
    predicate ∉ lists.map Prod.fst := by
  induction lists with
  | nil => simp
  | cons entry rest ih =>
      rcases entry with ⟨q, members⟩
      by_cases hHead : q = predicate
      · simp [members?, hHead] at h
      · simp only [members?, if_neg hHead] at h
        have hNe : predicate ≠ q := fun hEq => hHead hEq.symm
        simpa [hNe] using ih h

theorem nodup_keys_opened
    {lists : List (P × List V)}
    (h : (lists.map Prod.fst).Nodup)
    (predicate : P) :
    ((opened lists predicate).map Prod.fst).Nodup := by
  unfold opened
  cases hMembers : members? lists predicate with
  | some members => exact h
  | none =>
      rw [List.map_append]
      refine List.nodup_append.mpr ⟨h, by simp, ?_⟩
      intro p hp q hq hEq
      have hPredicate : q = predicate := by simpa using hq
      rw [hEq, hPredicate] at hp
      exact not_mem_keys_of_members?_eq_none hMembers hp

theorem mem_keys_extended
    {lists : List (P × List V)}
    {predicate p : P}
    {value : V}
    (h : p ∈ (extended lists predicate value).map Prod.fst) :
    p = predicate ∨ p ∈ lists.map Prod.fst := by
  induction lists with
  | nil => simpa [extended] using h
  | cons entry rest ih =>
      rcases entry with ⟨q, members⟩
      unfold extended at h
      split at h
      · exact .inr (by simpa using h)
      · rcases List.mem_cons.mp h with hHead | hTail
        · exact .inr (by simp [hHead])
        · rcases ih hTail with hEq | hOld
          · exact .inl hEq
          · exact .inr (List.mem_cons_of_mem _ hOld)

theorem nodup_keys_extended
    {lists : List (P × List V)}
    (h : (lists.map Prod.fst).Nodup)
    (predicate : P)
    (value : V) :
    ((extended lists predicate value).map Prod.fst).Nodup := by
  induction lists with
  | nil => simp [extended]
  | cons entry rest ih =>
      rcases entry with ⟨q, members⟩
      rw [List.map_cons, List.nodup_cons] at h
      unfold extended
      split
      · rw [List.map_cons, List.nodup_cons]
        exact h
      · rename_i hNe
        rw [List.map_cons, List.nodup_cons]
        refine ⟨?_, ih h.2⟩
        intro hMem
        rcases mem_keys_extended hMem with hEq | hOld
        · exact hNe hEq
        · exact h.1 hOld

/- A predicate whose list has a member has that list. -/
theorem mem_of_values_ne_nil
    {lists : List (P × List V)}
    {predicate : P}
    (h : values lists predicate ≠ []) :
    (predicate, values lists predicate) ∈ lists := by
  unfold values at h ⊢
  induction lists with
  | nil => simp [members?] at h
  | cons entry rest ih =>
      rcases entry with ⟨q, others⟩
      by_cases hHead : q = predicate
      · simp [members?, hHead]
      · simp only [members?, if_neg hHead] at h ⊢
        exact List.mem_cons_of_mem _ (ih h)

end Members

end ListForest
end LinkedMarkup
