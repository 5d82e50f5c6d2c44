import LinkedMarkup.Proofs.Coupling.Basic
import LinkedMarkup.Proofs.Lists.Writing
import LinkedMarkup.Proofs.Renaming.Supply

/-
  This file proves that the list mappings of two runs can be
  kept in step. Mappings below a base are common to both runs,
  which may have filled them differently; above it the second
  run's numbers are shifted, and the contents correspond.

  Key definitions include:
    * `Layout`
    * `Layout.Maps`
    * `ListForest.SlotsMatch`
    * `ListForest.Paired`

  Main declarations:
    * `ListForest.Paired.lists_match`
    * `ListForest.Paired.setLists`
    * `ListForest.Paired.root`
    * `ListForest.Paired.child`
    * `ListForest.Paired.marked`
-/

namespace LinkedMarkup

/-
  How the mappings of two runs are laid out: where those that
  are not common begin, by how much the second run's numbers
  are ahead from there, and how each run writes its lists.
-/
structure Layout where
  base : Nat
  shift : Nat
  collects : Bool
  collects' : Bool

/- The mappings of two runs that belong together. -/
def Layout.Maps
    (κ : Layout)
    (l l' : Nat) : Prop :=
  (l < κ.base ∧ l' = l) ∨ (κ.base ≤ l ∧ l' = l + κ.shift)

namespace Layout

variable {κ : Layout}

/- A mapping belongs to one of the other run, and only to one. -/
theorem Maps.iff
    {l l' m m' : Nat}
    (hL : κ.Maps l l')
    (hM : κ.Maps m m') :
    l = m ↔ l' = m' := by
  unfold Maps at hL hM
  omega

end Layout

------------------------------------------------------------
-- Entries
------------------------------------------------------------

/- Lists of one predicate with corresponding members. -/
def EntriesMatch
    (N : BlankNode → BlankNode → Prop)
    (x x' : Iri × List Object) : Prop :=
  x.1 = x'.1 ∧ List.Forall₂ (Object.Match N) x.2 x'.2

theorem EntriesMatch.mono
    {N N' : BlankNode → BlankNode → Prop}
    (hN : ∀ b b', N b b' → N' b b')
    {x x' : Iri × List Object}
    (h : EntriesMatch N x x') :
    EntriesMatch N' x x' :=
  ⟨h.1, h.2.imp (fun _ _ hOne => hOne.mono hN)⟩

namespace ListForest

variable {N : BlankNode → BlankNode → Prop}
variable {lists lists' : List (Iri × List Object)}

/- Corresponding lists are there for the same predicates. -/
theorem members?_isSome_eq
    (h : List.Forall₂ (EntriesMatch N) lists lists')
    (predicate : Iri) :
    (members? lists predicate).isSome =
      (members? lists' predicate).isSome := by
  induction h with
  | nil => rfl
  | @cons x x' rest rest' hHead _ ih =>
      rcases x with ⟨p, members⟩
      rcases x' with ⟨p', members'⟩
      have hEq : p = p' := hHead.1
      subst hEq
      by_cases hP : p = predicate
      · simp [members?, hP]
      · simpa [members?, hP] using ih

theorem opened_match
    (h : List.Forall₂ (EntriesMatch N) lists lists')
    (predicate : Iri) :
    List.Forall₂ (EntriesMatch N) (opened lists predicate)
      (opened lists' predicate) := by
  have hSame := members?_isSome_eq h predicate
  unfold opened
  cases hLeft : members? lists predicate with
  | some members =>
      rw [hLeft] at hSame
      cases hRight : members? lists' predicate with
      | some members' => exact h
      | none =>
          rw [hRight] at hSame
          cases hSame
  | none =>
      rw [hLeft] at hSame
      cases hRight : members? lists' predicate with
      | some members' =>
          rw [hRight] at hSame
          cases hSame
      | none => exact List.rel_append h (.cons ⟨rfl, .nil⟩ .nil)

theorem extended_match
    (h : List.Forall₂ (EntriesMatch N) lists lists')
    (predicate : Iri)
    {value value' : Object}
    (hValue : Object.Match N value value') :
    List.Forall₂ (EntriesMatch N) (extended lists predicate value)
      (extended lists' predicate value') := by
  induction h with
  | nil => exact .cons ⟨rfl, .cons hValue .nil⟩ .nil
  | @cons x x' rest rest' hHead hTail ih =>
      rcases x with ⟨p, members⟩
      rcases x' with ⟨p', members'⟩
      rcases hHead with ⟨hEq, hMembers⟩
      dsimp only at hEq hMembers
      subst hEq
      unfold extended
      split
      · exact .cons
          ⟨rfl, List.rel_append hMembers (.cons hValue .nil)⟩ hTail
      · exact .cons ⟨rfl, hMembers⟩ ih

------------------------------------------------------------
-- Forests in step
------------------------------------------------------------

/-
  Mappings in step: their owners belong together, both are
  flushed or none is, and beyond the base they own
  corresponding lists.
-/
structure SlotsMatch
    (κ : Layout)
    (N : BlankNode → BlankNode → Prop)
    (l : Nat)
    (x x' : ListSlot Iri Object) : Prop where
  owner : κ.Maps x.owner x'.owner
  flushed : x.flushed = x'.flushed
  lists :
    κ.base ≤ l → List.Forall₂ (EntriesMatch N) x.lists x'.lists

/-
  Two forests in step: every mapping of the first has one in
  the second that it is in step with.
-/
structure Paired
    (κ : Layout)
    (N : BlankNode → BlankNode → Prop)
    (mappings : Nat)
    (f f' : ListForest Iri Object) : Prop where
  size : f'.slots.size = f.slots.size + κ.shift
  base : κ.base ≤ f.slots.size
  mappings : mappings ≤ f.slots.size
  owned : ∀ l, l < f.slots.size → (f.slot l).owner < f.slots.size
  slots :
    ∀ l l', κ.Maps l l' → l < f.slots.size →
      SlotsMatch κ N l (f.slot l) (f'.slot l')
  collects : ∀ l, l < f.slots.size → (f.slot l).collects = κ.collects
  collects' :
    ∀ l, l < f'.slots.size → (f'.slot l).collects = κ.collects'

variable {κ : Layout} {mappings : Nat}
variable {f f' : ListForest Iri Object}

theorem Paired.mono
    {N' : BlankNode → BlankNode → Prop}
    (hN : ∀ b b', N b b' → N' b b')
    (h : Paired κ N mappings f f') :
    Paired κ N' mappings f f' :=
  { h with
    slots := by
      intro l l' hMaps hLt
      have hSlots := h.slots l l' hMaps hLt
      exact
        { hSlots with
          lists := fun hBase =>
            (hSlots.lists hBase).imp (fun _ _ hOne => hOne.mono hN) } }

/- Mappings that belong together exist in both forests. -/
theorem Paired.lt_size
    (h : Paired κ N mappings f f')
    {l l' : Nat}
    (hMaps : κ.Maps l l')
    (hLt : l < f.slots.size) :
    l' < f'.slots.size := by
  have hSizes := h.size
  unfold Layout.Maps at hMaps
  omega

theorem Paired.flushed_eq
    (h : Paired κ N mappings f f')
    {l l' : Nat}
    (hMaps : κ.Maps l l')
    (hLt : l < f.slots.size) :
    f.flushed l = f'.flushed l' :=
  (h.slots l l' hMaps hLt).flushed

/- The lists that corresponding mappings fill correspond. -/
theorem Paired.lists_match
    (h : Paired κ N mappings f f')
    {l l' : Nat}
    (hMaps : κ.Maps l l')
    (hLt : l < f.slots.size)
    (hBase : κ.base ≤ (f.slot l).owner) :
    List.Forall₂ (EntriesMatch N) (f.lists l) (f'.lists l') := by
  have hOwner := (h.slots l l' hMaps hLt).owner
  exact (h.slots _ _ hOwner (h.owned l hLt)).lists hBase

/- Filling corresponding mappings alike keeps forests in step. -/
theorem Paired.setLists
    (h : Paired κ N mappings f f')
    {l l' : Nat}
    (hMaps : κ.Maps l l')
    (hLt : l < f.slots.size)
    {lists lists' : List (Iri × List Object)}
    (hLists :
      κ.base ≤ (f.slot l).owner →
        List.Forall₂ (EntriesMatch N) lists lists') :
    Paired κ N mappings (f.setLists l lists)
      (f'.setLists l' lists') := by
  have hShape := sameShape_setLists f l lists
  have hShape' := sameShape_setLists f' l' lists'
  have hOwner := (h.slots l l' hMaps hLt).owner
  have hOwned := h.owned l hLt
  refine
    { size := ?_
      base := ?_
      mappings := ?_
      owned := ?_
      slots := ?_
      collects := ?_
      collects' := ?_ }
  · rw [hShape.size_eq, hShape'.size_eq]
    exact h.size
  · rw [hShape.size_eq]
    exact h.base
  · rw [hShape.size_eq]
    exact h.mappings
  · intro m hm
    rw [hShape.size_eq] at hm ⊢
    rw [hShape.owner_eq]
    exact h.owned m hm
  · intro m m' hM hm
    rw [hShape.size_eq] at hm
    rw [slot_setLists, slot_setLists]
    have hSlots := h.slots m m' hM hm
    have hSame := hM.iff hOwner
    have hOwned' := h.lt_size hOwner hOwned
    by_cases hEq : m = (f.slot l).owner
    · rw [if_pos ⟨hEq, hOwned⟩, if_pos ⟨hSame.mp hEq, hOwned'⟩]
      refine { hSlots with lists := ?_ }
      intro hBase
      apply hLists
      rw [← hEq]
      exact hBase
    · rw [if_neg (fun hBoth => hEq hBoth.1),
        if_neg (fun hBoth => hEq (hSame.mpr hBoth.1))]
      exact hSlots
  · intro m hm
    rw [hShape.size_eq] at hm
    rw [hShape.collects_eq]
    exact h.collects m hm
  · intro m hm
    rw [hShape'.size_eq] at hm
    rw [hShape'.collects_eq]
    exact h.collects' m hm

/- New mappings on both sides belong together. -/
theorem Paired.pushed
    (h : Paired κ N mappings f f')
    {g g' : ListForest Iri Object}
    (owner owner' : Nat)
    (hSize : g.slots.size = f.slots.size + 1)
    (hSize' : g'.slots.size = f'.slots.size + 1)
    (hNew : g.slot f.slots.size = ⟨owner, κ.collects, false, []⟩)
    (hNew' :
      g'.slot f'.slots.size = ⟨owner', κ.collects', false, []⟩)
    (hOld : ∀ l, l ≠ f.slots.size → g.slot l = f.slot l)
    (hOld' : ∀ l, l ≠ f'.slots.size → g'.slot l = f'.slot l)
    (hOwner : κ.Maps owner owner')
    (hOwned : owner < f.slots.size + 1) :
    Paired κ N (f.slots.size + 1) g g' := by
  have hBase := h.base
  have hSizes := h.size
  refine
    { size := by omega
      base := by omega
      mappings := by omega
      owned := ?_
      slots := ?_
      collects := ?_
      collects' := ?_ }
  · intro l hl
    by_cases hEq : l = f.slots.size
    · rw [hEq, hNew, hSize]
      exact hOwned
    · have hOwnedOld := h.owned l (by omega)
      rw [hOld l hEq, hSize]
      omega
  · intro l l' hMaps hl
    have hSame : l = f.slots.size ↔ l' = f'.slots.size := by
      unfold Layout.Maps at hMaps
      omega
    by_cases hEq : l = f.slots.size
    · rw [hEq, hSame.mp hEq, hNew, hNew']
      exact ⟨hOwner, rfl, fun _ => .nil⟩
    · rw [hOld l hEq, hOld' l' (fun hNew => hEq (hSame.mpr hNew))]
      exact h.slots l l' hMaps (by omega)
  · intro l hl
    by_cases hEq : l = f.slots.size
    · rw [hEq, hNew]
    · rw [hOld l hEq]
      exact h.collects l (by omega)
  · intro l hl
    by_cases hEq : l = f'.slots.size
    · rw [hEq, hNew']
    · rw [hOld' l hEq]
      exact h.collects' l (by omega)

theorem Paired.root
    (h : Paired κ N mappings f f') :
    Paired κ N (f.slots.size + 1) (f.root κ.collects).2
      (f'.root κ.collects').2 := by
  have hSizes := h.size
  have hBase := h.base
  refine h.pushed f.slots.size f'.slots.size (size_root f _)
    (size_root f' _) ?_ ?_ ?_ ?_ ?_ ?_
  · rw [slot_root, if_pos rfl]
  · rw [slot_root, if_pos rfl]
  · intro l hNe
    rw [slot_root, if_neg hNe]
  · intro l hNe
    rw [slot_root, if_neg hNe]
  · unfold Layout.Maps
    omega
  · omega

theorem Paired.child
    (h : Paired κ N mappings f f')
    {l l' : Nat}
    (hMaps : κ.Maps l l')
    (hLt : l < f.slots.size) :
    Paired κ N (f.slots.size + 1) (f.child l).2 (f'.child l').2 := by
  have hLt' := h.lt_size hMaps hLt
  refine h.pushed (f.slot l).owner (f'.slot l').owner
    (size_child f _) (size_child f' _) ?_ ?_ ?_ ?_ ?_ ?_
  · rw [slot_child, if_pos rfl, h.collects l hLt]
  · rw [slot_child, if_pos rfl, h.collects' l' hLt']
  · intro m hNe
    rw [slot_child, if_neg hNe]
  · intro m hNe
    rw [slot_child, if_neg hNe]
  · exact (h.slots l l' hMaps hLt).owner
  · exact Nat.lt_succ_of_lt (h.owned l hLt)

/- Flushing corresponding mappings keeps forests in step. -/
theorem Paired.marked
    (h : Paired κ N mappings f f')
    {l l' : Nat}
    (hMaps : κ.Maps l l')
    (hLt : l < f.slots.size) :
    Paired κ N mappings (f.marked l) (f'.marked l') := by
  have hLt' := h.lt_size hMaps hLt
  refine
    { size := ?_
      base := ?_
      mappings := ?_
      owned := ?_
      slots := ?_
      collects := ?_
      collects' := ?_ }
  · rw [size_marked, size_marked]
    exact h.size
  · rw [size_marked]
    exact h.base
  · rw [size_marked]
    exact h.mappings
  · intro m hm
    rw [size_marked] at hm ⊢
    rw [owner_marked]
    exact h.owned m hm
  · intro m m' hM hm
    rw [size_marked] at hm
    rw [slot_marked, slot_marked]
    have hSlots := h.slots m m' hM hm
    have hSame := hM.iff hMaps
    by_cases hEq : m = l
    · rw [if_pos ⟨hEq, hLt⟩, if_pos ⟨hSame.mp hEq, hLt'⟩]
      exact { hSlots with flushed := rfl }
    · rw [if_neg (fun hBoth => hEq hBoth.1),
        if_neg (fun hBoth => hEq (hSame.mpr hBoth.1))]
      exact hSlots
  · intro m hm
    rw [size_marked] at hm
    rw [collects_marked]
    exact h.collects m hm
  · intro m hm
    rw [size_marked] at hm
    rw [collects_marked]
    exact h.collects' m hm

end ListForest
end LinkedMarkup
