import LinkedMarkup.Proofs.Lists.Histories

/-
  This file proves that the owner which is stored with a
  mapping is the mapping where its links end. So filling the
  lists of the owner is filling those that are found, or made,
  by following the links, whatever was done before.

  Key definitions include:
    * `ListForest.Follows`
    * `ListForest.useAlong`
    * `ListForest.History.forestAlong`

  Main declarations:
    * `ListForest.Follows.outermostAlong_eq`
    * `ListForest.Follows.holderAlong?_eq`
    * `ListForest.Follows.ensureAlong_eq`
    * `ListForest.Follows.appendAlong_eq`
    * `ListForest.History.follows`
    * `ListForest.History.forestAlong_eq`
-/

namespace LinkedMarkup
namespace ListForest

------------------------------------------------------------
-- Links of a forest
------------------------------------------------------------

/-
  Links that the mappings of a forest have: they lead to
  mappings that were made before. What is chained to another
  has its owner and no lists, and all else owns itself.
-/
structure Follows
    (parent? : Nat → Option Nat)
    (f : ListForest Iri Object) : Prop where
  before : ∀ {k m}, parent? k = some m → m < k
  owner :
    ∀ {k m}, parent? k = some m → (f.slot k).owner = (f.slot m).owner
  lists : ∀ {k m}, parent? k = some m → (f.slot k).lists = []
  outer : ∀ {k}, parent? k = none → (f.slot k).owner = k

namespace Follows

variable {parent? : Nat → Option Nat}
variable {f : ListForest Iri Object}

/- The owner of a mapping is chained to none. -/
theorem parent?_owner
    (h : Follows parent? f)
    (id : Nat) :
    parent? (f.slot id).owner = none := by
  induction id using Nat.strongRecOn with
  | ind id ih =>
      cases hParent : parent? id with
      | none =>
          rw [h.outer hParent]
          exact hParent
      | some m =>
          rw [h.owner hParent]
          exact ih m (h.before hParent)

theorem owner_le
    (h : Follows parent? f)
    (id : Nat) :
    (f.slot id).owner ≤ id := by
  induction id using Nat.strongRecOn with
  | ind id ih =>
      cases hParent : parent? id with
      | none => exact Nat.le_of_eq (h.outer hParent)
      | some m =>
          have hBefore := h.before hParent
          rw [h.owner hParent]
          exact Nat.le_trans (ih m hBefore) (Nat.le_of_lt hBefore)

/- Filling lists leaves the links as they are. -/
theorem setLists
    (h : Follows parent? f)
    (id : Nat)
    (lists : List (Iri × List Object)) :
    Follows parent? (f.setLists id lists) where
  before := h.before
  owner hParent := by
    rw [(sameShape_setLists ..).owner_eq, (sameShape_setLists ..).owner_eq]
    exact h.owner hParent
  lists := by
    intro k m hParent
    have hChained : k ≠ (f.slot id).owner := by
      rintro rfl
      rw [h.parent?_owner] at hParent
      cases hParent
    rw [slot_setLists, if_neg (fun hBoth => hChained hBoth.1)]
    exact h.lists hParent
  outer hParent := by
    rw [(sameShape_setLists ..).owner_eq]
    exact h.outer hParent

------------------------------------------------------------
-- Following them
------------------------------------------------------------

/- The links from a mapping end at its owner. -/
theorem outermostAlong_eq
    (h : Follows parent? f)
    (id : Nat) :
    outermostAlong parent? id = (f.slot id).owner := by
  induction id using Nat.strongRecOn with
  | ind id ih =>
      unfold outermostAlong
      cases hParent : parent? id with
      | none => exact (h.outer hParent).symm
      | some m =>
          have hBefore := h.before hParent
          dsimp only
          rw [if_pos hBefore, ih m hBefore, h.owner hParent]

/- A list is found along the links exactly if the owner has it. -/
theorem holderAlong?_eq
    (h : Follows parent? f)
    (id : Nat)
    (predicate : Iri) :
    f.holderAlong? parent? id predicate =
      (members? (f.lists id) predicate).map
        (fun _ => (f.slot id).owner) := by
  induction id using Nat.strongRecOn with
  | ind id ih =>
      unfold holderAlong?
      cases hParent : parent? id with
      | none =>
          unfold ListForest.lists
          rw [h.outer hParent]
          cases members? (f.slot id).lists predicate <;> rfl
      | some m =>
          have hBefore := h.before hParent
          have hNone : members? (f.slot id).lists predicate = none := by
            rw [h.lists hParent]
            rfl
          have hSame : f.lists id = f.lists m := by
            unfold ListForest.lists
            rw [h.owner hParent]
          rw [hNone]
          dsimp only
          rw [if_pos hBefore, ih m hBefore, hSame, h.owner hParent]

theorem containsAlong_eq
    (h : Follows parent? f)
    (id : Nat)
    (predicate : Iri) :
    f.containsAlong parent? id predicate = f.contains id predicate := by
  unfold containsAlong contains
  rw [h.holderAlong?_eq, Option.isSome_map]

/- Making sure of a list along the links is doing so at the owner. -/
theorem ensureAlong_eq
    (h : Follows parent? f)
    (id : Nat)
    (predicate : Iri) :
    f.ensureAlong parent? id predicate = f.ensure id predicate := by
  unfold ensureAlong ensure
  split
  · rfl
  · rw [h.holderAlong?_eq]
    unfold opened
    cases hMembers : members? (f.lists id) predicate with
    | some members =>
        have hHeld :
            members? (f.slot (f.slot id).owner).lists predicate =
              some members :=
          hMembers
        dsimp only [Option.map_some]
        rw [hHeld, setLists_lists]
    | none =>
        dsimp only [Option.map_none]
        rw [h.outermostAlong_eq]
        rfl

theorem extended_opened
    (lists : List (Iri × List Object))
    (predicate : Iri)
    (value : Object) :
    extended (opened lists predicate) predicate value =
      extended lists predicate value := by
  unfold opened
  cases hMembers : members? lists predicate with
  | some members => rfl
  | none =>
      dsimp only
      induction lists with
      | nil => simp [extended]
      | cons entry rest ih =>
          rcases entry with ⟨q, others⟩
          unfold members? at hMembers
          split at hMembers
          · cases hMembers
          · next hOther =>
              rw [List.cons_append, extended, extended, if_neg hOther,
                if_neg hOther, ih hMembers]

/- Adding a member along the links is adding it at the owner. -/
theorem appendAlong_eq
    (h : Follows parent? f)
    {id : Nat}
    (hLt : id < f.slots.size)
    (predicate : Iri)
    (value : Object) :
    f.appendAlong parent? id predicate value =
      f.append id predicate value := by
  have hOwner : (f.slot id).owner < f.slots.size :=
    Nat.lt_of_le_of_lt (h.owner_le id) hLt
  unfold appendAlong
  rw [h.ensureAlong_eq]
  unfold ensure append
  cases f.flushed id with
  | true => rfl
  | false =>
      have hFollows := h.setLists id (opened (f.lists id) predicate)
      have hLists :
          (f.setLists id (opened (f.lists id) predicate)).lists id =
            opened (f.lists id) predicate := by
        rw [lists_setLists hOwner, if_pos rfl]
      have hHeld :
          (members? (opened (f.lists id) predicate) predicate).isSome =
            true :=
        isSome_members?_opened (.inl rfl)
      have hLast :
          (f.setLists id (opened (f.lists id) predicate)).setLists id
              (extended (opened (f.lists id) predicate) predicate
                value) =
            f.setLists id (extended (f.lists id) predicate value) := by
        rw [extended_opened, setLists_setLists]
      rcases Option.isSome_iff_exists.mp hHeld with ⟨members, hMembers⟩
      simp only [Bool.false_eq_true, if_false]
      generalize f.setLists id (opened (f.lists id) predicate) = g
        at hFollows hLists hLast ⊢
      rw [← hLists] at hLast hMembers
      rw [hFollows.holderAlong?_eq, hMembers, ← hLast]
      rfl

end Follows

------------------------------------------------------------
-- Histories
------------------------------------------------------------

/- The mappings after a use that follows the links. -/
def useAlong
    (parent? : Nat → Option Nat)
    (f : ListForest Iri Object)
    (id : Nat)
    (u : Use) : Except Fault (ListForest Iri Object) :=
  match u.value? with
  | none => (f.ensureAlong parent? id u.predicate).map Prod.snd
  | some v => f.appendAlong parent? id u.predicate v

namespace History

variable {n : Nat}

/- The links that were made are those of the mappings. -/
theorem follows
    (h : History n) :
    Follows h.parent? h.forest where
  before hParent := (parent?_lt hParent).1
  owner hParent := by
    rw [owner_forest, owner_forest]
    exact outermost_of_parent? hParent
  lists hParent := lists_of_parent? (by simp [hParent])
  outer hOuter := by
    rw [owner_forest]
    exact outermost_of_parent?_eq_none hOuter

/- The mappings after a history whose uses follow the links. -/
def forestAlong {n : Nat} :
    History n → ListForest Iri Object
  | start => .empty
  | root past collects => (past.forestAlong.root collects).2
  | child past list => (past.forestAlong.child list).2
  | use past list u =>
      match past.forestAlong.useAlong past.parent? list u with
      | .ok f => f
      | .error _ => past.forestAlong
  | flush past list subject supply =>
      (past.forestAlong.flush list subject supply).2.1

/- A use that follows the links is one of the owner's lists. -/
theorem useAlong_eq
    (h : History n)
    (list : Fin n)
    (u : Use) :
    h.forest.useAlong h.parent? list u = h.forest.use list u := by
  have hLt : list.val < h.forest.slots.size := by
    rw [size_forest]
    exact list.isLt
  unfold useAlong ListForest.use
  cases u.value? with
  | none =>
      dsimp only
      rw [h.follows.ensureAlong_eq]
  | some v => exact h.follows.appendAlong_eq hLt u.predicate v

/- So following the links makes the same mappings. -/
theorem forestAlong_eq
    (h : History n) :
    h.forestAlong = h.forest := by
  induction h with
  | start => rfl
  | root past collects ih => rw [forestAlong, ih, forest]
  | child past list ih => rw [forestAlong, ih, forest]
  | use past list u ih =>
      rw [forestAlong, ih, useAlong_eq]
      rfl
  | flush past list subject supply ih => rw [forestAlong, ih, forest]

end History
end ListForest
end LinkedMarkup
