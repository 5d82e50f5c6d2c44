import LinkedMarkup.Annotation.NodeSupply
import Mathlib.Data.Nat.Basic

/-
  This file proves that two supplies of blank nodes that hand
  out different numbers can be kept in step: a pairing of
  their numbers grows with every node that both make, stays
  one to one, and leaves out the numbers that only the second
  supply uses.

  Key definitions include:
    * `Pairing`
    * `Pairing.Extends`
    * `Pairing.joined`
    * `NodeSupply.Paired`

  Main declarations:
    * `NodeSupply.node_injective`
    * `NodeSupply.Paired.labelled`
    * `NodeSupply.Paired.freshMany`
    * `NodeSupply.Paired.reserve`
-/

namespace LinkedMarkup

------------------------------------------------------------
-- Node numbers
------------------------------------------------------------

namespace NodeSupply

/- Nodes with different numbers are different. -/
theorem node_injective :
    Function.Injective node := by
  intro i j hEq
  have hLabel : "b" ++ Nat.repr i = "b" ++ Nat.repr j :=
    congrArg BlankNode.label hEq
  have hRepr : Nat.repr i = Nat.repr j :=
    (String.append_right_inj "b").mp hLabel
  have hDigits : Nat.toDigits 10 i = Nat.toDigits 10 j := by
    rw [← Nat.toList_repr, ← Nat.toList_repr, hRepr]
  rw [← Nat.ofDigitChars_ten_toDigits (n := i), hDigits,
    Nat.ofDigitChars_ten_toDigits]

theorem number?_cons
    (count : Nat)
    (labels : List (String × Nat))
    (label other : String)
    (n : Nat) :
    number? ⟨count, (label, n) :: labels⟩ other =
      if label = other then
        some n
      else
        number? ⟨count, labels⟩ other := by
  unfold number?
  by_cases hEq : label = other
  · simp [hEq]
  · simp [hEq]

end NodeSupply

------------------------------------------------------------
-- Pairings
------------------------------------------------------------

/-
  Which node numbers of two runs belong together, which ones
  of the second run never will, and how many list mappings
  both runs have made.
-/
structure Pairing where
  pairs : Nat → Nat → Prop
  reserved : Nat → Prop
  mappings : Nat

namespace Pairing

/- A pairing with all that another one has. -/
structure Extends
    (V W : Pairing) : Prop where
  pairs : ∀ i j, V.pairs i j → W.pairs i j
  reserved : ∀ j, V.reserved j → W.reserved j
  mappings : V.mappings ≤ W.mappings

theorem Extends.refl
    (W : Pairing) :
    Extends W W :=
  ⟨fun _ _ h => h, fun _ h => h, Nat.le_refl _⟩

theorem Extends.trans
    {U V W : Pairing}
    (hUV : Extends U V)
    (hVW : Extends V W) :
    Extends U W where
  pairs i j h := hVW.pairs i j (hUV.pairs i j h)
  reserved j h := hVW.reserved j (hUV.reserved j h)
  mappings := Nat.le_trans hUV.mappings hVW.mappings

/- A pairing with some successive numbers paired as well. -/
def joined
    (W : Pairing)
    (i j n : Nat) : Pairing :=
  { W with
    pairs := fun a b =>
      W.pairs a b ∨ ∃ k, k < n ∧ a = i + k ∧ b = j + k }

/- A pairing with some successive numbers reserved as well. -/
def reserving
    (W : Pairing)
    (j n : Nat) : Pairing :=
  { W with reserved := fun b => W.reserved b ∨ (j ≤ b ∧ b < j + n) }

/- A pairing of runs that have made more mappings. -/
def mapped
    (W : Pairing)
    (n : Nat) : Pairing :=
  { W with mappings := n }

theorem extends_joined
    (W : Pairing)
    (i j n : Nat) :
    W.Extends (W.joined i j n) :=
  ⟨fun _ _ h => .inl h, fun _ h => h, Nat.le_refl _⟩

theorem extends_reserving
    (W : Pairing)
    (j n : Nat) :
    W.Extends (W.reserving j n) :=
  ⟨fun _ _ h => h, fun _ h => .inl h, Nat.le_refl _⟩

theorem extends_mapped
    {W : Pairing}
    {n : Nat}
    (h : W.mappings ≤ n) :
    W.Extends (W.mapped n) :=
  ⟨fun _ _ hPair => hPair, fun _ hReserved => hReserved, h⟩

/- The nodes of two runs that belong together. -/
def Nodes
    (W : Pairing)
    (b b' : BlankNode) : Prop :=
  ∃ i j, W.pairs i j ∧ b = NodeSupply.node i ∧ b' = NodeSupply.node j

theorem Nodes.mono
    {V W : Pairing}
    (h : V.Extends W)
    {b b' : BlankNode}
    (hNodes : V.Nodes b b') :
    W.Nodes b b' := by
  rcases hNodes with ⟨i, j, hPair, rfl, rfl⟩
  exact ⟨i, j, h.pairs i j hPair, rfl, rfl⟩

end Pairing

------------------------------------------------------------
-- Supplies in step
------------------------------------------------------------

namespace NodeSupply

/-
  Two supplies whose numbers a pairing matches one to one.
  Labels that the first has seen stand for paired numbers; one
  that only the second has seen stands for a number that is
  free to be paired.
-/
structure Paired
    (W : Pairing)
    (s s' : NodeSupply) : Prop where
  bounded : ∀ i j, W.pairs i j → i < s.count ∧ j < s'.count
  functional : ∀ i j j', W.pairs i j → W.pairs i j' → j = j'
  injective : ∀ i i' j, W.pairs i j → W.pairs i' j → i = i'
  unreserved : ∀ i j, W.pairs i j → ¬ W.reserved j
  reserved : ∀ j, W.reserved j → j < s'.count
  seen :
    ∀ label i, s.number? label = some i →
      ∃ j, s'.number? label = some j ∧ W.pairs i j
  unseen :
    ∀ label j, s.number? label = none → s'.number? label = some j →
      ∀ i, ¬ W.pairs i j
  named :
    ∀ label j, s'.number? label = some j →
      j < s'.count ∧ ¬ W.reserved j
  distinct :
    ∀ label label' j, s'.number? label = some j →
      s'.number? label' = some j → label = label'

variable {W : Pairing} {s s' : NodeSupply}

/- Nodes are equal in one run exactly when they are in the other. -/
theorem Paired.node_iff
    (h : Paired W s s')
    {a a' b b' : BlankNode}
    (hA : W.Nodes a a')
    (hB : W.Nodes b b') :
    a = b ↔ a' = b' := by
  rcases hA with ⟨i, j, hIJ, rfl, rfl⟩
  rcases hB with ⟨k, l, hKL, rfl, rfl⟩
  rw [node_injective.eq_iff, node_injective.eq_iff]
  constructor
  · rintro rfl
    exact h.functional i j l hIJ hKL
  · rintro rfl
    exact h.injective i k j hIJ hKL

/- Supplies do not depend on the mappings that were made. -/
theorem Paired.mapped
    (h : Paired W s s')
    (n : Nat) :
    Paired (W.mapped n) s s' where
  bounded := h.bounded
  functional := h.functional
  injective := h.injective
  unreserved := h.unreserved
  reserved := h.reserved
  seen := h.seen
  unseen := h.unseen
  named := h.named
  distinct := h.distinct

/- Several new nodes on both sides belong together in order. -/
theorem Paired.freshMany
    (h : Paired W s s')
    (n : Nat) :
    Paired (W.joined s.count s'.count n) (s.freshMany n).2
      (s'.freshMany n).2 where
  bounded i j hPair := by
    rcases hPair with hOld | ⟨k, hk, rfl, rfl⟩
    · have hLt := h.bounded i j hOld
      exact ⟨Nat.lt_add_right n hLt.1, Nat.lt_add_right n hLt.2⟩
    · exact ⟨Nat.add_lt_add_left hk _, Nat.add_lt_add_left hk _⟩
  functional i j j' hPair hPair' := by
    rcases hPair with hOld | ⟨k, _, rfl, rfl⟩
    · have hLt := h.bounded i j hOld
      rcases hPair' with hOld' | ⟨k', _, rfl, rfl⟩
      · exact h.functional i j j' hOld hOld'
      · omega
    · rcases hPair' with hOld' | ⟨k', _, hEq, rfl⟩
      · have hLt := h.bounded _ _ hOld'
        omega
      · omega
  injective i i' j hPair hPair' := by
    rcases hPair with hOld | ⟨k, _, rfl, rfl⟩
    · have hLt := h.bounded i j hOld
      rcases hPair' with hOld' | ⟨k', _, rfl, rfl⟩
      · exact h.injective i i' j hOld hOld'
      · omega
    · rcases hPair' with hOld' | ⟨k', _, rfl, hEq⟩
      · have hLt := h.bounded _ _ hOld'
        omega
      · omega
  unreserved i j hPair hReserved := by
    rcases hPair with hOld | ⟨k, _, rfl, rfl⟩
    · exact h.unreserved i j hOld hReserved
    · have hLt := h.reserved _ hReserved
      omega
  reserved j hReserved :=
    Nat.lt_add_right n (h.reserved j hReserved)
  seen label i hSeen := by
    rcases h.seen label i hSeen with ⟨j, hj, hPair⟩
    exact ⟨j, hj, .inl hPair⟩
  unseen label j hNone hSome i hPair := by
    rcases hPair with hOld | ⟨k, _, rfl, rfl⟩
    · exact h.unseen label j hNone hSome i hOld
    · have hLt := (h.named label _ hSome).1
      omega
  named label j hSome :=
    ⟨Nat.lt_add_right n (h.named label j hSome).1,
      (h.named label j hSome).2⟩
  distinct := h.distinct

/- Nodes that only the second run makes stay without a partner. -/
theorem Paired.reserve
    (h : Paired W s s')
    (n : Nat) :
    Paired (W.reserving s'.count n) s (s'.freshMany n).2 where
  bounded i j hPair := by
    have hLt := h.bounded i j hPair
    exact ⟨hLt.1, Nat.lt_add_right n hLt.2⟩
  functional := h.functional
  injective := h.injective
  unreserved i j hPair hReserved := by
    rcases hReserved with hOld | hNew
    · exact h.unreserved i j hPair hOld
    · have hLt := (h.bounded i j hPair).2
      omega
  reserved j hReserved := by
    rcases hReserved with hOld | hNew
    · exact Nat.lt_add_right n (h.reserved j hOld)
    · exact hNew.2
  seen := h.seen
  unseen := h.unseen
  named label j hSome := by
    have hNamed := h.named label j hSome
    refine ⟨Nat.lt_add_right n hNamed.1, ?_⟩
    rintro (hOld | hNew)
    · exact hNamed.2 hOld
    · omega
  distinct := h.distinct

/- Numbers that are paired already stay so. -/
theorem joined_of_pairs
    {i j : Nat}
    (h : W.pairs i j) :
    W.joined i j 1 = W := by
  have hPairs : (W.joined i j 1).pairs = W.pairs := by
    funext a b
    refine propext ⟨?_, .inl⟩
    rintro (hOld | ⟨k, hk, rfl, rfl⟩)
    · exact hOld
    · obtain rfl : k = 0 := by omega
      exact h
  calc
    W.joined i j 1 = { W with pairs := (W.joined i j 1).pairs } := rfl
    _ = W := by rw [hPairs]

/- A label that is new on both sides stands for paired numbers. -/
theorem Paired.label_both
    (h : Paired W s s')
    {i j : Nat}
    {label : String}
    (hPair : W.pairs i j)
    (hFresh : ∀ other, s'.number? other ≠ some j) :
    Paired W ⟨s.count, (label, i) :: s.labels⟩
      ⟨s'.count, (label, j) :: s'.labels⟩ where
  bounded := h.bounded
  functional := h.functional
  injective := h.injective
  unreserved := h.unreserved
  reserved := h.reserved
  seen other n hSeen := by
    rw [number?_cons] at hSeen ⊢
    split at hSeen
    · rename_i hEq
      cases hSeen
      exact ⟨j, if_pos hEq, hPair⟩
    · rename_i hNe
      rw [if_neg hNe]
      exact h.seen other n hSeen
  unseen other n hNone hSome := by
    rw [number?_cons] at hNone hSome
    split at hNone
    · cases hNone
    · rename_i hNe
      rw [if_neg hNe] at hSome
      exact h.unseen other n hNone hSome
  named other n hSome := by
    rw [number?_cons] at hSome
    split at hSome
    · cases hSome
      exact ⟨(h.bounded i j hPair).2, h.unreserved i j hPair⟩
    · exact h.named other n hSome
  distinct one other n hOne hOther := by
    rw [number?_cons] at hOne hOther
    split at hOne
    · rename_i hEq
      cases hOne
      split at hOther
      · rename_i hEq'
        exact hEq.symm.trans hEq'
      · exact absurd hOther (hFresh other)
    · split at hOther
      · cases hOther
        exact absurd hOne (hFresh one)
      · exact h.distinct one other n hOne hOther

/-
  A label that only the second side has seen stands for a
  number that a new node of the first side can be paired with.
-/
theorem Paired.label_left
    (h : Paired W s s')
    {j : Nat}
    {label : String}
    (hNew : s.number? label = none)
    (hSeen : s'.number? label = some j) :
    Paired (W.joined s.count j 1)
      ⟨s.count + 1, (label, s.count) :: s.labels⟩ s' := by
  have hFree : ∀ i, ¬ W.pairs i j := h.unseen label j hNew hSeen
  have hNamed := h.named label j hSeen
  have hCases :
      ∀ a b, (W.joined s.count j 1).pairs a b →
        W.pairs a b ∨ (a = s.count ∧ b = j) := by
    rintro a b (hOld | ⟨k, hk, rfl, rfl⟩)
    · exact .inl hOld
    · obtain rfl : k = 0 := by omega
      exact .inr ⟨rfl, rfl⟩
  have hJoin : (W.joined s.count j 1).pairs s.count j :=
    .inr ⟨0, Nat.one_pos, rfl, rfl⟩
  refine
    { bounded := ?_
      functional := ?_
      injective := ?_
      unreserved := ?_
      reserved := h.reserved
      seen := ?_
      unseen := ?_
      named := h.named
      distinct := h.distinct }
  · intro a b hPair
    rcases hCases a b hPair with hOld | ⟨rfl, rfl⟩
    · have hLt := h.bounded a b hOld
      exact ⟨Nat.lt_succ_of_lt hLt.1, hLt.2⟩
    · exact ⟨Nat.lt_succ_self _, hNamed.1⟩
  · intro a b b' hPair hPair'
    rcases hCases a b hPair with hOld | ⟨hA, rfl⟩
    · rcases hCases a b' hPair' with hOld' | ⟨rfl, rfl⟩
      · exact h.functional a b b' hOld hOld'
      · have hLt := (h.bounded _ _ hOld).1
        omega
    · rcases hCases a b' hPair' with hOld' | ⟨_, rfl⟩
      · have hLt := (h.bounded _ _ hOld').1
        omega
      · rfl
  · intro a a' b hPair hPair'
    rcases hCases a b hPair with hOld | ⟨rfl, rfl⟩
    · rcases hCases a' b hPair' with hOld' | ⟨rfl, rfl⟩
      · exact h.injective a a' b hOld hOld'
      · exact absurd hOld (hFree a)
    · rcases hCases a' b hPair' with hOld' | ⟨rfl, _⟩
      · exact absurd hOld' (hFree a')
      · rfl
  · intro a b hPair
    rcases hCases a b hPair with hOld | ⟨rfl, rfl⟩
    · exact h.unreserved a b hOld
    · exact hNamed.2
  · intro other n hOther
    rw [number?_cons] at hOther
    split at hOther
    · rename_i hEq
      cases hOther
      exact ⟨j, by rw [← hEq, hSeen], hJoin⟩
    · rcases h.seen other n hOther with ⟨m, hm, hPair⟩
      exact ⟨m, hm, .inl hPair⟩
  · intro other n hNone hSome a hPair
    rw [number?_cons] at hNone
    split at hNone
    · cases hNone
    · rename_i hNe
      rcases hCases a n hPair with hOld | ⟨_, rfl⟩
      · exact h.unseen other n hNone hSome a hOld
      · exact hNe (h.distinct label other n hSeen hSome)

/- The nodes that a label stands for belong together. -/
theorem Paired.labelled
    (h : Paired W s s')
    (label : String) :
    ∃ i j,
      Paired (W.joined i j 1) (s.labelled label).2
          (s'.labelled label).2 ∧
        (s.labelled label).1 = node i ∧
        (s'.labelled label).1 = node j := by
  unfold NodeSupply.labelled
  cases hLeft : s.number? label with
  | some i =>
      rcases h.seen label i hLeft with ⟨j, hRight, hPair⟩
      rw [hRight]
      refine ⟨i, j, ?_, rfl, rfl⟩
      rw [joined_of_pairs hPair]
      exact h
  | none =>
      cases hRight : s'.number? label with
      | some j =>
          exact ⟨s.count, j, h.label_left hLeft hRight, rfl, rfl⟩
      | none =>
          refine ⟨s.count, s'.count, ?_, rfl, rfl⟩
          refine (h.freshMany 1).label_both ?_ ?_
          · exact .inr ⟨0, Nat.one_pos, rfl, rfl⟩
          · intro other hSome
            exact Nat.lt_irrefl _ (h.named other s'.count hSome).1

end NodeSupply
end LinkedMarkup
