import LinkedMarkup.Proofs.Evaluation.Advances
import Mathlib.Data.List.Nodup

/-
  This file proves what a supply has made on its way from one
  state to another: new nodes, the nodes of labels that are
  used for the first time, and the links of lists, all with
  numbers of their own, which are those in between.

  Key definitions include:
    * `Mint`
    * `NodeSupply.Makes`
    * `NodeSupply.Leads`
    * `NodeSupply.Made`

  Main declarations:
    * `NodeSupply.Makes.nodes_eq`
    * `NodeSupply.Makes.number?_iff`
    * `NodeSupply.Makes.label_eq_iff`
    * `NodeSupply.made_iff_of_makes`
-/

namespace LinkedMarkup

/-
  The making of one node: a new one, that of a label which is
  used for the first time, or a link of a list.
-/
inductive Mint where
  | fresh (node : BlankNode)
  | label (label : String) (node : BlankNode)
  | link (node : BlankNode)
  deriving DecidableEq, Repr

/- The node that is made. -/
def Mint.node :
    Mint → BlankNode
  | fresh b => b
  | label _ b => b
  | link b => b

namespace NodeSupply

------------------------------------------------------------
-- What supplies make
------------------------------------------------------------

/-
  What a supply makes, in order, until it is another one: it
  is asked for new nodes, for the nodes of labels that it has
  not seen, and for the links of lists.
-/
inductive Makes
    (s : NodeSupply) : List Mint → NodeSupply → Prop where
  | nothing : Makes s [] s
  | fresh
      {log : List Mint}
      {t : NodeSupply}
      (h : Makes s log t) :
      Makes s (log ++ [.fresh t.fresh.1]) t.fresh.2
  | label
      {log : List Mint}
      {t : NodeSupply}
      {label : String}
      (h : Makes s log t)
      (hUnseen : t.number? label = none) :
      Makes s (log ++ [.label label (t.labelled label).1])
        (t.labelled label).2
  | links
      {log : List Mint}
      {t : NodeSupply}
      (h : Makes s log t)
      (n : Nat) :
      Makes s (log ++ (t.freshMany n).1.map .link)
        (t.freshMany n).2

/- A supply that becomes another one by making some nodes. -/
def Leads
    (P : Mint → Prop)
    (s t : NodeSupply) : Prop :=
  ∃ log, Makes s log t ∧ ∀ m ∈ log, P m

/- A node with a number that a supply has given away. -/
def Made
    (s : NodeSupply)
    (b : BlankNode) : Prop :=
  ∃ i, i < s.count ∧ b = node i

/- A label that has not been seen is given the next number. -/
theorem labelled_of_unseen
    {s : NodeSupply}
    {label : String}
    (h : s.number? label = none) :
    s.labelled label =
      (node s.count, ⟨s.count + 1, (label, s.count) :: s.labels⟩) := by
  unfold labelled
  rw [h]

section Making

variable {s t u : NodeSupply} {log more : List Mint}

theorem Makes.trans
    (h : Makes s log t)
    (hMore : Makes t more u) :
    Makes s (log ++ more) u := by
  induction hMore with
  | nothing =>
      rw [List.append_nil]
      exact h
  | fresh _ ih =>
      rw [← List.append_assoc]
      exact ih.fresh
  | label _ hUnseen ih =>
      rw [← List.append_assoc]
      exact ih.label hUnseen
  | links _ n ih =>
      rw [← List.append_assoc]
      exact ih.links n

/- Supplies only go forward. -/
theorem Makes.extends
    (h : Makes s log t) :
    s.Extends t := by
  induction h with
  | nothing => exact .refl s
  | @fresh _ t _ ih => exact ih.trans t.extends_fresh
  | @label _ t label _ _ ih => exact ih.trans (t.extends_labelled label)
  | @links _ t _ n ih => exact ih.trans (t.extends_freshMany n)

theorem Makes.bounded
    (h : Makes s log t)
    (hBounded : s.Bounded) :
    t.Bounded := by
  induction h with
  | nothing => exact hBounded
  | fresh _ ih => exact ih.fresh
  | label _ _ ih => exact ih.labelled _
  | links _ n ih =>
      exact fun label i hNumber =>
        Nat.lt_add_right n (ih label i hNumber)

/- One number is used for each node, whatever it is made for. -/
theorem Makes.count_eq
    (h : Makes s log t) :
    t.count = s.count + log.length := by
  induction h with
  | nothing => rfl
  | fresh _ ih =>
      rw [List.length_append, List.length_singleton, ← Nat.add_assoc,
        ← ih]
      rfl
  | label _ hUnseen ih =>
      rw [labelled_of_unseen hUnseen, List.length_append,
        List.length_singleton, ← Nat.add_assoc, ← ih]
  | @links _ t _ n ih =>
      have hLength : ((t.freshMany n).1.map Mint.link).length = n := by
        simp [freshMany]
      rw [List.length_append, hLength, ← Nat.add_assoc, ← ih]
      rfl

/- The nodes that are made have the next numbers, in order. -/
theorem Makes.nodes_eq
    (h : Makes s log t) :
    log.map Mint.node =
      (List.range' s.count log.length).map node := by
  induction h with
  | nothing => rfl
  | fresh hBefore ih =>
      rw [List.length_append, List.length_singleton,
        List.range'_1_concat, ← hBefore.count_eq, List.map_append,
        List.map_append, ih]
      rfl
  | label hBefore hUnseen ih =>
      rw [labelled_of_unseen hUnseen, List.length_append,
        List.length_singleton, List.range'_1_concat,
        ← hBefore.count_eq, List.map_append, List.map_append, ih]
      rfl
  | @links _ t hBefore n ih =>
      have hLinks :
          ((t.freshMany n).1.map Mint.link).map Mint.node =
            (List.range' t.count n).map node := by
        rw [List.map_map]
        exact List.map_id _
      have hLength : ((t.freshMany n).1.map Mint.link).length = n := by
        simp [freshMany]
      rw [List.length_append, hLength, List.map_append, ih, hLinks,
        hBefore.count_eq, ← List.map_append, List.range'_append_1]

/- So no node is made twice. -/
theorem Makes.nodup
    (h : Makes s log t) :
    (log.map Mint.node).Nodup := by
  rw [h.nodes_eq]
  exact List.Nodup.map node_injective List.nodup_range'

------------------------------------------------------------
-- Labels
------------------------------------------------------------

/- The labels of a supply are those before, and those it made. -/
theorem Makes.number?_iff
    (h : Makes s log t)
    (label : String)
    (i : Nat) :
    t.number? label = some i ↔
      s.number? label = some i ∨ .label label (node i) ∈ log := by
  induction h with
  | nothing => simp
  | fresh _ ih =>
      rw [List.mem_append, List.mem_singleton]
      simp only [reduceCtorEq, or_false]
      exact ih
  | @label log t other _ hUnseen ih =>
      rw [labelled_of_unseen hUnseen, number?_cons, List.mem_append,
        List.mem_singleton, ← or_assoc, ← ih, Mint.label.injEq]
      by_cases hEq : other = label
      · subst hEq
        rw [if_pos rfl, hUnseen, node_injective.eq_iff]
        simp [eq_comm]
      · rw [if_neg hEq]
        simp only [Ne.symm hEq, false_and, or_false]
        exact Iff.rfl
  | @links log t _ n ih =>
      have hNone :
          Mint.label label (node i) ∉ (t.freshMany n).1.map .link := by
        simp
      rw [List.mem_append, or_iff_left hNone]
      exact ih

/- A label that is made by a supply without any keeps its node. -/
theorem Makes.number?_of_mem
    (h : Makes .empty log t)
    {label : String}
    {b : BlankNode}
    (hMem : .label label b ∈ log) :
    ∃ i, t.number? label = some i ∧ b = node i := by
  have hNode : b ∈ log.map Mint.node := List.mem_map_of_mem hMem
  rw [h.nodes_eq] at hNode
  rcases List.mem_map.mp hNode with ⟨i, _, rfl⟩
  exact ⟨i, (h.number?_iff label i).mpr (.inr hMem), rfl⟩

/- Labels are made once, and each has a node of its own. -/
theorem Makes.label_eq_iff
    (h : Makes .empty log t)
    {label label' : String}
    {b b' : BlankNode}
    (hMem : .label label b ∈ log)
    (hMem' : .label label' b' ∈ log) :
    b = b' ↔ label = label' := by
  constructor
  · intro hEq
    have hSame :=
      List.inj_on_of_nodup_map h.nodup hMem hMem' hEq
    exact (Mint.label.inj hSame).1
  · rintro rfl
    rcases h.number?_of_mem hMem with ⟨i, hNumber, rfl⟩
    rcases h.number?_of_mem hMem' with ⟨j, hNumber', rfl⟩
    rw [hNumber] at hNumber'
    cases hNumber'
    rfl

/- The nodes of a supply are those that it made from nothing. -/
theorem made_iff_of_makes
    (h : Makes .empty log t)
    (b : BlankNode) :
    t.Made b ↔ b ∈ log.map Mint.node := by
  have hCount : t.count = log.length := by
    rw [h.count_eq]
    exact Nat.zero_add _
  rw [h.nodes_eq, List.mem_map]
  constructor
  · rintro ⟨i, hi, rfl⟩
    refine ⟨i, ?_, rfl⟩
    rw [List.mem_range'_1, ← hCount]
    exact ⟨Nat.zero_le i, by rwa [empty, Nat.zero_add]⟩
  · rintro ⟨i, hi, rfl⟩
    rw [List.mem_range'_1, ← hCount] at hi
    exact ⟨i, by simpa [empty] using hi.2, rfl⟩

end Making

------------------------------------------------------------
-- Supplies that lead to others
------------------------------------------------------------

section Leading

variable {P : Mint → Prop} {s t u : NodeSupply}

theorem Leads.refl
    (s : NodeSupply) :
    Leads P s s :=
  ⟨[], .nothing, by simp⟩

theorem Leads.trans
    (h : Leads P s t)
    (hNext : Leads P t u) :
    Leads P s u := by
  rcases h with ⟨log, hLog, hMints⟩
  rcases hNext with ⟨more, hMore, hOthers⟩
  refine ⟨log ++ more, hLog.trans hMore, ?_⟩
  exact List.forall_mem_append.mpr ⟨hMints, hOthers⟩

theorem Leads.extends
    (h : Leads P s t) :
    s.Extends t := by
  rcases h with ⟨_, hLog, _⟩
  exact hLog.extends

theorem Leads.bounded
    (h : Leads P s t)
    (hBounded : s.Bounded) :
    t.Bounded := by
  rcases h with ⟨_, hLog, _⟩
  exact hLog.bounded hBounded

theorem leads_fresh
    (h : ∀ b, P (.fresh b))
    (s : NodeSupply) :
    Leads P s s.fresh.2 :=
  ⟨_, .fresh .nothing, by simp [h]⟩

/- A label that has been seen does not need a node. -/
theorem leads_labelled
    (h : ∀ label b, P (.label label b))
    (s : NodeSupply)
    (label : String) :
    Leads P s (s.labelled label).2 := by
  cases hSeen : s.number? label with
  | some i =>
      have hSame : (s.labelled label).2 = s := by
        unfold labelled
        rw [hSeen]
      rw [hSame]
      exact .refl s
  | none => exact ⟨_, .label .nothing hSeen, by simp [h]⟩

theorem leads_freshMany
    (h : ∀ b, P (.link b))
    (s : NodeSupply)
    (n : Nat) :
    Leads P s (s.freshMany n).2 :=
  ⟨_, .links .nothing n, by simp [h]⟩

theorem Made.mono
    (h : s.Extends t)
    {b : BlankNode}
    (hMade : s.Made b) :
    t.Made b := by
  rcases hMade with ⟨i, hi, rfl⟩
  exact ⟨i, Nat.lt_of_lt_of_le hi h.count, rfl⟩

theorem made_fresh
    (s : NodeSupply) :
    s.fresh.2.Made s.fresh.1 :=
  ⟨s.count, Nat.lt_succ_self _, rfl⟩

theorem made_labelled
    (hBounded : s.Bounded)
    (label : String) :
    (s.labelled label).2.Made (s.labelled label).1 := by
  rcases s.number?_labelled label with ⟨i, hNode, hNumber⟩
  exact ⟨i, hBounded.labelled label label i hNumber, hNode⟩

end Leading

end NodeSupply
end LinkedMarkup
