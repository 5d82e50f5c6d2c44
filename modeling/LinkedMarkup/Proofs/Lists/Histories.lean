import LinkedMarkup.Proofs.Lists.FailedFlushes
import LinkedMarkup.Proofs.Lists.Uses
import Mathlib.Logic.Relation

/-
  This file defines what was done with list mappings, and
  proves what they hold after it: a mapping belongs to the
  outermost one of its chain, which holds the lists that come
  of the uses in its tree.

  Key definitions include:
    * `ListForest.use`
    * `ListForest.History`
    * `ListForest.History.forest`
    * `ListForest.History.parent?`
    * `ListForest.History.Chained`
    * `ListForest.History.outermost`
    * `ListForest.History.firstFlush?`
    * `ListForest.History.uses`

  Main declarations:
    * `ListForest.History.outermost_eq_iff`
    * `ListForest.History.owner_forest`
    * `ListForest.History.flushed_forest`
    * `ListForest.History.use_ok_iff`
    * `ListForest.History.lists_forest`
-/

namespace LinkedMarkup
namespace ListForest

------------------------------------------------------------
-- Histories
------------------------------------------------------------

/-
  What was done with mappings since there were none. The
  number is that of the mappings made so far, so that only
  mappings that exist are used. A use without a value ensures
  a list, one with a value appends it. A flush is done for a
  subject, with a supply of nodes.
-/
inductive History : Nat → Type where
  | start : History 0
  | root {n : Nat}
      (past : History n)
      (collects : Bool) : History (n + 1)
  | child {n : Nat}
      (past : History n)
      (list : Fin n) : History (n + 1)
  | use {n : Nat}
      (past : History n)
      (list : Fin n)
      (u : Use) : History n
  | flush {n : Nat}
      (past : History n)
      (list : Fin n)
      (subject : Option Term)
      (supply : NodeSupply) : History n

/- The mappings after a use, unless it is refused. -/
def use
    (f : ListForest Iri Object)
    (id : Nat)
    (u : Use) : Except Fault (ListForest Iri Object) :=
  match u.value? with
  | none => (f.ensure id u.predicate).map Prod.snd
  | some v => f.append id u.predicate v

namespace History

/- The mappings after a history; what is refused does nothing. -/
def forest {n : Nat} :
    History n → ListForest Iri Object
  | start => .empty
  | root past collects => (past.forest.root collects).2
  | child past list => (past.forest.child list).2
  | use past list u =>
      match past.forest.use list u with
      | .ok f => f
      | .error _ => past.forest
  | flush past list subject supply =>
      (past.forest.flush list subject supply).2.1

/- The mapping that a mapping was chained to. -/
def parent? {n : Nat} :
    History n → Nat → Option Nat
  | start, _ => none
  | root past _, m => past.parent? m
  | @child k past list, m =>
      if m = k then some list else past.parent? m
  | use past _ _, m => past.parent? m
  | flush past _ _ _, m => past.parent? m

/- Whether a mapping is another or chained to it by links. -/
def Chained {n : Nat}
    (h : History n) : Nat → Nat → Prop :=
  Relation.ReflTransGen (fun k m => h.parent? k = some m)

/- The outermost mapping that a mapping is chained to. -/
def outermost {n : Nat} :
    History n → Nat → Nat
  | start, m => m
  | root past _, m => past.outermost m
  | @child k past list, m =>
      if m = k then past.outermost list else past.outermost m
  | use past _ _, m => past.outermost m
  | flush past _ _ _, m => past.outermost m

/- Whether the lists of a mapping are written as collections. -/
def collects {n : Nat} :
    History n → Nat → Bool
  | start, _ => false
  | @root k past style, m =>
      if m = k then style else past.collects m
  | @child k past list, m =>
      if m = k then past.collects list else past.collects m
  | use past _ _, m => past.collects m
  | flush past _ _ _, m => past.collects m

/- The subject and the supply of a mapping's first flush. -/
def firstFlush? {n : Nat} :
    History n → Nat → Option (Option Term × NodeSupply)
  | start, _ => none
  | root past _, m => past.firstFlush? m
  | child past _, m => past.firstFlush? m
  | use past _ _, m => past.firstFlush? m
  | flush past list subject supply, m =>
      (past.firstFlush? m).or
        (if list.val = m then some (subject, supply) else none)

/-
  What a use through a mapping adds to the uses of an
  outermost one: itself, if the mapping is in its tree and
  does not refuse, with whether the outermost one was flushed.
-/
def taken {n : Nat}
    (h : History n)
    (list : Fin n)
    (u : Use)
    (m : Nat) : List (Use × Bool) :=
  if h.outermost list = m ∧ (h.forest.use list u).isOk = true then
    [(u, (h.firstFlush? m).isSome)]
  else
    []

/-
  The uses that were accepted in the tree of an outermost
  mapping, each with whether that had been flushed before.
-/
def accepted {n : Nat} :
    History n → Nat → List (Use × Bool)
  | start, _ => []
  | root past _, m => past.accepted m
  | child past _, m => past.accepted m
  | use past list u, m =>
      past.accepted m ++ past.taken list u m
  | flush past _ _ _, m => past.accepted m

/- The uses that were accepted in a mapping's tree, in order. -/
def uses {n : Nat}
    (h : History n)
    (m : Nat) : List Use :=
  (h.accepted m).map Prod.fst

/- The uses that were accepted before the mapping's flush. -/
def earlyUses {n : Nat}
    (h : History n)
    (m : Nat) : List Use :=
  ((h.accepted m).filter (fun use => !use.2)).map Prod.fst

/- The uses that were accepted although it had been flushed. -/
def lateUses {n : Nat}
    (h : History n)
    (m : Nat) : List Use :=
  ((h.accepted m).filter (fun use => use.2)).map Prod.fst

------------------------------------------------------------
-- Chains
------------------------------------------------------------

section Chains

variable {n : Nat} {h : History n}

/- Mappings are chained to ones that were made before. -/
theorem parent?_lt
    {k m : Nat}
    (hParent : h.parent? k = some m) :
    m < k ∧ k < n := by
  induction h with
  | start => cases hParent
  | root past _ ih => exact ⟨(ih hParent).1, Nat.lt_succ_of_lt (ih hParent).2⟩
  | child past list ih =>
      unfold parent? at hParent
      split at hParent
      · rename_i hNew
        cases hParent
        rw [hNew]
        exact ⟨list.isLt, Nat.lt_succ_self _⟩
      · exact ⟨(ih hParent).1, Nat.lt_succ_of_lt (ih hParent).2⟩
  | use past _ _ ih => exact ih hParent
  | flush past _ _ _ ih => exact ih hParent

/- A mapping has the outermost one of what it is chained to. -/
theorem outermost_of_parent?
    {k m : Nat}
    (hParent : h.parent? k = some m) :
    h.outermost k = h.outermost m := by
  induction h with
  | start => cases hParent
  | root past _ ih => exact ih hParent
  | child past list ih =>
      unfold parent? at hParent
      unfold outermost
      split at hParent
      · rename_i hNew
        cases hParent
        rw [if_pos hNew, if_neg (Nat.ne_of_lt list.isLt)]
      · rename_i hOld
        have hLt := parent?_lt hParent
        rw [if_neg hOld, if_neg (by omega)]
        exact ih hParent
  | use past _ _ ih => exact ih hParent
  | flush past _ _ _ ih => exact ih hParent

theorem outermost_of_parent?_eq_none
    {m : Nat}
    (hOuter : h.parent? m = none) :
    h.outermost m = m := by
  induction h with
  | start => rfl
  | root past _ ih => exact ih hOuter
  | child past list ih =>
      unfold parent? at hOuter
      unfold outermost
      split at hOuter
      · cases hOuter
      · rename_i hOld
        rw [if_neg hOld]
        exact ih hOuter
  | use past _ _ ih => exact ih hOuter
  | flush past _ _ _ ih => exact ih hOuter

/- Following the links from a mapping ends at its outermost one. -/
theorem chained_outermost
    (h : History n)
    (k : Nat) :
    h.Chained k (h.outermost k) ∧ h.parent? (h.outermost k) = none := by
  induction k using Nat.strongRecOn with
  | ind k ih =>
      cases hParent : h.parent? k with
      | none =>
          rw [outermost_of_parent?_eq_none hParent]
          exact ⟨Relation.ReflTransGen.refl, hParent⟩
      | some m =>
          rcases ih m (parent?_lt hParent).1 with ⟨hChained, hOuter⟩
          rw [outermost_of_parent? hParent]
          exact ⟨Relation.ReflTransGen.head hParent hChained, hOuter⟩

/- It is the one of its chain that is chained to none. -/
theorem outermost_eq_iff
    {k m : Nat} :
    h.outermost k = m ↔ h.Chained k m ∧ h.parent? m = none := by
  constructor
  · rintro rfl
    exact chained_outermost h k
  · rintro ⟨hChained, hOuter⟩
    induction hChained using Relation.ReflTransGen.head_induction_on with
    | refl => exact outermost_of_parent?_eq_none hOuter
    | head hParent _ ih =>
        rw [outermost_of_parent? hParent]
        exact ih

theorem outermost_le
    (h : History n)
    (k : Nat) :
    h.outermost k ≤ k := by
  induction k using Nat.strongRecOn with
  | ind k ih =>
      cases hParent : h.parent? k with
      | none => rw [outermost_of_parent?_eq_none hParent]
      | some m =>
          rw [outermost_of_parent? hParent]
          have hLt := (parent?_lt hParent).1
          have hLe := ih m hLt
          omega

/- A mapping that was not made stands alone. -/
theorem outermost_of_le
    {m : Nat}
    (hNew : n ≤ m) :
    h.outermost m = m := by
  apply outermost_of_parent?_eq_none
  rw [← Option.not_isSome_iff_eq_none]
  intro hSome
  rcases Option.isSome_iff_exists.mp hSome with ⟨j, hParent⟩
  have hLt := (parent?_lt hParent).2
  omega

end Chains

------------------------------------------------------------
-- Mappings after a history
------------------------------------------------------------

section Forest

variable {n : Nat}

/- Mappings that were flushed refuse uses. -/
theorem use_of_flushed
    {f : ListForest Iri Object}
    {id : Nat}
    (hFlushed : f.flushed id = true)
    (u : Use) :
    f.use id u = .error (.listFlushed u.predicate.text) := by
  have hForfeited := forfeited_of_flushed hFlushed
  unfold ListForest.use
  cases u.value? with
  | none =>
      dsimp only
      rw [hForfeited.ensure]
      rfl
  | some v =>
      dsimp only
      rw [hForfeited.append]
      rfl

/- The others take them. -/
theorem use_of_open
    {f : ListForest Iri Object}
    {id : Nat}
    (hOpen : f.flushed id = false)
    (u : Use) :
    f.use id u = .ok (f.setLists id (u.grown (f.lists id))) := by
  unfold ListForest.use Use.grown ensure append
  rw [hOpen]
  cases u.value? with
  | none => rfl
  | some v => rfl

theorem forest_use
    (past : History n)
    (list : Fin n)
    (u : Use) :
    (past.use list u).forest =
      if past.forest.flushed list then
        past.forest
      else
        past.forest.setLists list (u.grown (past.forest.lists list)) := by
  rw [forest]
  cases hFlushed : past.forest.flushed list with
  | true =>
      rw [use_of_flushed hFlushed]
      rfl
  | false =>
      rw [use_of_open hFlushed]
      rfl

theorem forest_flush
    (past : History n)
    (list : Fin n)
    (subject : Option Term)
    (supply : NodeSupply) :
    (past.flush list subject supply).forest =
      if past.forest.flushed list then
        past.forest
      else
        past.forest.marked list :=
  forest_of_flush past.forest list subject supply

theorem size_forest
    (h : History n) :
    h.forest.slots.size = n := by
  induction h with
  | start => rfl
  | root past collects ih =>
      exact (size_root _ collects).trans (congrArg (· + 1) ih)
  | child past list ih =>
      exact (size_child _ list).trans (congrArg (· + 1) ih)
  | use past list u ih =>
      rw [forest_use]
      split
      · exact ih
      · exact (sameShape_setLists _ _ _).size_eq.trans ih
  | flush past list subject supply ih =>
      rw [forest_flush]
      split
      · exact ih
      · exact (size_marked _ _).trans ih

/- A mapping that was added after a history, and the others. -/
theorem slot_forest_root
    (past : History n)
    (collects : Bool)
    (m : Nat) :
    (past.root collects).forest.slot m =
      if m = n then ⟨n, collects, false, []⟩ else past.forest.slot m := by
  change (past.forest.root collects).2.slot m = _
  rw [slot_root, size_forest]

theorem slot_forest_child
    (past : History n)
    (list : Fin n)
    (m : Nat) :
    (past.child list).forest.slot m =
      if m = n then
        ⟨(past.forest.slot list).owner, (past.forest.slot list).collects,
          false, []⟩
      else
        past.forest.slot m := by
  change (past.forest.child list).2.slot m = _
  rw [slot_child, size_forest]

/- The lists of a mapping are held by its outermost one. -/
theorem owner_forest
    (h : History n)
    (m : Nat) :
    (h.forest.slot m).owner = h.outermost m := by
  induction h generalizing m with
  | start => rfl
  | @root k past collects ih =>
      rw [slot_forest_root]
      unfold outermost
      split
      · rename_i hNew
        rw [hNew, outermost_of_le (Nat.le_refl k)]
      · exact ih m
  | child past list ih =>
      rw [slot_forest_child]
      unfold outermost
      split
      · exact ih list
      · exact ih m
  | use past list u ih =>
      rw [forest_use]
      split
      · exact ih m
      · exact ((sameShape_setLists _ _ _).owner_eq m).trans (ih m)
  | flush past list subject supply ih =>
      rw [forest_flush]
      split
      · exact ih m
      · exact (owner_marked _ _ m).trans (ih m)

theorem collects_forest
    (h : History n)
    (m : Nat) :
    (h.forest.slot m).collects = h.collects m := by
  induction h generalizing m with
  | start => rfl
  | root past collects ih =>
      rw [slot_forest_root]
      unfold History.collects
      split
      · rfl
      · exact ih m
  | child past list ih =>
      rw [slot_forest_child]
      unfold History.collects
      split
      · exact ih list
      · exact ih m
  | use past list u ih =>
      rw [forest_use]
      split
      · exact ih m
      · exact ((sameShape_setLists _ _ _).collects_eq m).trans (ih m)
  | flush past list subject supply ih =>
      rw [forest_flush]
      split
      · exact ih m
      · exact (collects_marked _ _ m).trans (ih m)

theorem firstFlush?_of_le
    {h : History n}
    {m : Nat}
    (hNew : n ≤ m) :
    h.firstFlush? m = none := by
  induction h with
  | start => rfl
  | root past _ ih => exact ih (by omega)
  | child past _ ih => exact ih (by omega)
  | use past _ _ ih => exact ih hNew
  | flush past list subject supply ih =>
      have hNe : ¬ list.val = m := by
        have hLt := list.isLt
        omega
      unfold firstFlush?
      rw [ih hNew, if_neg hNe]
      rfl

/- A mapping is marked exactly if it was flushed before. -/
theorem flushed_forest
    (h : History n)
    (m : Nat) :
    h.forest.flushed m = (h.firstFlush? m).isSome := by
  induction h generalizing m with
  | start => rfl
  | root past collects ih => exact (flushed_root _ collects m).trans (ih m)
  | child past list ih => exact (flushed_child _ list m).trans (ih m)
  | use past list u ih =>
      rw [forest_use]
      split
      · exact ih m
      · exact ((sameShape_setLists _ _ _).flushed_eq m).trans (ih m)
  | flush past list subject supply ih =>
      rw [forest_flush]
      unfold firstFlush?
      rw [Option.isSome_or, ← ih m]
      by_cases hEq : list.val = m
      · subst hEq
        split
        · rename_i hFlushed
          rw [hFlushed]
          rfl
        · rw [flushed_marked, if_pos ⟨rfl, by simp [size_forest]⟩]
          simp
      · have hNe : ¬ m = list.val := fun h => hEq h.symm
        rw [if_neg hEq, Option.isSome_none, Bool.or_false]
        split
        · rfl
        · rw [flushed_marked, if_neg (fun hBoth => hNe hBoth.1)]

/- A mapping takes uses exactly as long as it was not flushed. -/
theorem use_ok_iff
    (h : History n)
    (k : Nat)
    (u : Use) :
    (∃ f, h.forest.use k u = .ok f) ↔ h.firstFlush? k = none := by
  have hSome := flushed_forest h k
  cases hFlush : h.firstFlush? k with
  | none =>
      rw [hFlush] at hSome
      rw [use_of_open hSome]
      exact ⟨fun _ => rfl, fun _ => ⟨_, rfl⟩⟩
  | some first =>
      rw [hFlush] at hSome
      rw [use_of_flushed hSome]
      constructor
      · rintro ⟨f, hOk⟩
        cases hOk
      · intro hNone
        cases hNone

/- Filling the lists of a mapping fills those of its owner. -/
theorem slot_setLists_forest
    (h : History n)
    (list : Fin n)
    (lists : List (Iri × List Object))
    (m : Nat) :
    ((h.forest.setLists list lists).slot m).lists =
      if h.outermost list = m then lists else (h.forest.slot m).lists := by
  have hLt : h.outermost list < n :=
    Nat.lt_of_le_of_lt (outermost_le h list) list.isLt
  rw [slot_setLists, owner_forest, size_forest]
  by_cases hEq : h.outermost list = m
  · rw [if_pos ⟨hEq.symm, hLt⟩, if_pos hEq]
  · rw [if_neg (fun hBoth => hEq hBoth.1.symm), if_neg hEq]

/-
  A mapping holds the lists that come of the uses that were
  accepted in its tree. One that is chained to another has
  no tree of its own, and holds none.
-/
theorem lists_forest
    (h : History n)
    (m : Nat) :
    (h.forest.slot m).lists = Use.lists (h.uses m) := by
  induction h generalizing m with
  | start => rfl
  | root past collects ih =>
      rw [slot_forest_root]
      change _ = Use.lists (past.uses m)
      split
      · rename_i hNew
        rw [← ih, hNew, slot_of_size_le (Nat.le_of_eq (size_forest past))]
      · exact ih m
  | child past list ih =>
      rw [slot_forest_child]
      change _ = Use.lists (past.uses m)
      split
      · rename_i hNew
        rw [← ih, hNew, slot_of_size_le (Nat.le_of_eq (size_forest past))]
      · exact ih m
  | use past list u ih =>
      have hGrown :
          u.grown (past.forest.lists list) =
            Use.lists (past.uses (past.outermost list) ++ [u]) := by
        unfold ListForest.lists
        rw [owner_forest, ih, Use.grown_lists]
      have hUses :
          (past.use list u).uses m =
            past.uses m ++ (past.taken list u m).map Prod.fst :=
        List.map_append
      rw [forest_use, hUses]
      unfold taken
      cases hFlushed : past.forest.flushed list with
      | false =>
          rw [if_neg (by simp), slot_setLists_forest,
            use_of_open hFlushed]
          by_cases hTree : past.outermost list = m
          · rw [if_pos hTree, if_pos ⟨hTree, rfl⟩, hGrown, hTree]
            rfl
          · rw [if_neg hTree, if_neg (fun hBoth => hTree hBoth.1), ih]
            simp
      | true =>
          rw [if_pos rfl, use_of_flushed hFlushed,
            if_neg (fun hBoth => Bool.noConfusion hBoth.2), ih]
          simp
  | flush past list subject supply ih =>
      rw [forest_flush]
      change _ = Use.lists (past.uses m)
      split
      · exact ih m
      · exact (lists_marked _ _ m).trans (ih m)

/- A mapping sees the lists of the tree that it is in. -/
theorem lists_eq
    (h : History n)
    (m : Nat) :
    h.forest.lists m = Use.lists (h.uses (h.outermost m)) := by
  unfold ListForest.lists
  rw [owner_forest, lists_forest]

theorem outer_of_taken
    {h : History n}
    {list : Fin n}
    {u : Use}
    {m : Nat}
    {x : Use × Bool}
    (hMem : x ∈ h.taken list u m) :
    m < n ∧ h.parent? m = none := by
  unfold taken at hMem
  split at hMem
  · rename_i hTree
    rw [← hTree.1]
    refine ⟨?_, (chained_outermost h list).2⟩
    exact Nat.lt_of_le_of_lt (outermost_le h list) list.isLt
  · cases hMem

/- Uses are accepted in the trees of outermost mappings. -/
theorem outer_of_accepted
    {h : History n}
    {m : Nat}
    {x : Use × Bool}
    (hMem : x ∈ h.accepted m) :
    m < n ∧ h.parent? m = none := by
  induction h with
  | start => cases hMem
  | root past collects ih =>
      exact ⟨Nat.lt_succ_of_lt (ih hMem).1, (ih hMem).2⟩
  | child past list ih =>
      rcases ih hMem with ⟨hLt, hOuter⟩
      refine ⟨Nat.lt_succ_of_lt hLt, ?_⟩
      unfold parent?
      rw [if_neg (Nat.ne_of_lt hLt)]
      exact hOuter
  | use past list u ih =>
      rcases List.mem_append.mp hMem with hOld | hNew
      · exact ih hOld
      · have hOuter := outer_of_taken hNew
        exact hOuter
  | flush past list subject supply ih => exact ih hMem

/- What is chained to another holds no lists. -/
theorem lists_of_parent?
    {h : History n}
    {m : Nat}
    (hChained : h.parent? m ≠ none) :
    (h.forest.slot m).lists = [] := by
  have hNone : h.accepted m = [] := by
    rw [List.eq_nil_iff_forall_not_mem]
    intro x hMem
    exact hChained (outer_of_accepted hMem).2
  rw [lists_forest, uses, hNone]
  rfl

end Forest

end History
end ListForest
end LinkedMarkup
