import LinkedMarkup.Proofs.Renaming.Emissions
import Mathlib.Logic.Function.Basic

/-
  This file turns a pairing of two runs into a renaming of all
  blank nodes. It takes each node of the first run to the one
  that belongs to it, and every other node out of the way, so
  it is injective and never gives a reserved node.

  Key definitions include:
    * `Quad.renamed`
    * `Emission.renamed`
    * `Pairing.rename`

  Main declarations:
    * `Pairing.rename_injective`
    * `Pairing.rename_ne_of_reserved`
    * `Quad.eq_map_renamed`
    * `Emission.eq_map_renamed`
-/

namespace LinkedMarkup

------------------------------------------------------------
-- Renamed values
------------------------------------------------------------

variable (r : BlankNode → BlankNode)

/- A subject with its node renamed, if it is one. -/
def Subject.renamed :
    Subject → Subject
  | .iri i => .iri i
  | .blank b => .blank (r b)

/- An object with its node renamed, if it is one. -/
def Object.renamed :
    Object → Object
  | .iri i => .iri i
  | .blank b => .blank (r b)
  | .literal l => .literal l

/- A quad with its nodes renamed. -/
def Quad.renamed
    (q : Quad) : Quad :=
  { q with
    subject := q.subject.renamed r
    object := q.object.renamed r }

/- An emission with its nodes renamed. -/
def Emission.renamed :
    Emission → Emission
  | .stated q => .stated (q.renamed r)
  | .list s p members =>
      .list (s.renamed r) p (members.map (Object.renamed r))

section Matching

variable {N : BlankNode → BlankNode → Prop} {r}

/- What corresponds is a renaming, if nodes are renamed alike. -/
theorem Subject.Match.eq_renamed
    (hR : ∀ b b', N b b' → r b = b')
    {x x' : Subject}
    (h : Subject.Match N x x') :
    x' = x.renamed r := by
  cases h with
  | iri i => rfl
  | blank hNode => rw [renamed, hR _ _ hNode]

theorem Object.Match.eq_renamed
    (hR : ∀ b b', N b b' → r b = b')
    {x x' : Object}
    (h : Object.Match N x x') :
    x' = x.renamed r := by
  cases h with
  | iri i => rfl
  | blank hNode => rw [renamed, hR _ _ hNode]
  | literal l => rfl

theorem Quad.Match.eq_renamed
    (hR : ∀ b b', N b b' → r b = b')
    {q q' : Quad}
    (h : Quad.Match N q q') :
    q' = q.renamed r := by
  cases h with
  | triple p hSubject hObject =>
      rw [hSubject.eq_renamed hR, hObject.eq_renamed hR]
      rfl

/- Lists whose members are renamings are a renamed list. -/
theorem eq_map_of_forall₂
    {α : Type}
    {R : α → α → Prop}
    {f : α → α}
    (hR : ∀ a a', R a a' → a' = f a)
    {values values' : List α}
    (h : List.Forall₂ R values values') :
    values' = values.map f := by
  induction h with
  | nil => rfl
  | cons hHead _ ih => rw [List.map_cons, hR _ _ hHead, ih]

theorem Emission.Match.eq_renamed
    (hR : ∀ b b', N b b' → r b = b')
    {e e' : Emission}
    (h : Emission.Match N e e') :
    e' = e.renamed r := by
  cases h with
  | stated hQuad => rw [renamed, hQuad.eq_renamed hR]
  | list p hSubject hMembers =>
      rw [renamed, hSubject.eq_renamed hR,
        eq_map_of_forall₂ (fun _ _ hOne => hOne.eq_renamed hR)
          hMembers]

theorem Quad.eq_map_renamed
    (hR : ∀ b b', N b b' → r b = b')
    {quads quads' : List Quad}
    (h : List.Forall₂ (Quad.Match N) quads quads') :
    quads' = quads.map (Quad.renamed r) :=
  eq_map_of_forall₂ (fun _ _ hOne => hOne.eq_renamed hR) h

theorem Emission.eq_map_renamed
    (hR : ∀ b b', N b b' → r b = b')
    {emissions emissions' : List Emission}
    (h : List.Forall₂ (Emission.Match N) emissions emissions') :
    emissions' = emissions.map (Emission.renamed r) :=
  eq_map_of_forall₂ (fun _ _ hOne => hOne.eq_renamed hR) h

end Matching

------------------------------------------------------------
-- The renaming of a pairing
------------------------------------------------------------

namespace Pairing

open Classical in
/-
  The renaming of a pairing. A node that belongs to none is
  given a label that no numbered node has.
-/
noncomputable def rename
    (W : Pairing)
    (b : BlankNode) : BlankNode :=
  if h : ∃ b', W.Nodes b b' then
    h.choose
  else
    ⟨"x" ++ b.label⟩

variable {W : Pairing} {s s' : NodeSupply} {b b' : BlankNode}

theorem rename_of_nodes
    (h : NodeSupply.Paired W s s')
    (hNodes : W.Nodes b b') :
    W.rename b = b' := by
  have hSome : ∃ b', W.Nodes b b' := ⟨b', hNodes⟩
  unfold rename
  rw [dif_pos hSome]
  exact (h.node_iff hSome.choose_spec hNodes).mp rfl

theorem rename_of_not_nodes
    (hNone : ¬ ∃ b', W.Nodes b b') :
    W.rename b = ⟨"x" ++ b.label⟩ := by
  unfold rename
  rw [dif_neg hNone]

/- A node that belongs to none is not taken to a numbered one. -/
theorem node_ne_of_not_nodes
    (i : Nat)
    (hNone : ¬ ∃ b', W.Nodes b b') :
    W.rename b ≠ NodeSupply.node i := by
  rw [rename_of_not_nodes hNone]
  intro hEq
  have hLabel : "x" ++ b.label = "b" ++ Nat.repr i :=
    congrArg BlankNode.label hEq
  have hList := congrArg String.toList hLabel
  rw [String.toList_append, String.toList_append] at hList
  have hHead := (List.cons.inj hList).1
  revert hHead
  decide

/- Different nodes are renamed differently. -/
theorem rename_injective
    (h : NodeSupply.Paired W s s') :
    Function.Injective W.rename := by
  intro a b hEq
  by_cases hA : ∃ a', W.Nodes a a'
  · rcases hA with ⟨a', hA⟩
    by_cases hB : ∃ b', W.Nodes b b'
    · rcases hB with ⟨b', hB⟩
      rw [rename_of_nodes h hA, rename_of_nodes h hB] at hEq
      exact (h.node_iff hA hB).mpr hEq
    · rw [rename_of_nodes h hA] at hEq
      rcases hA with ⟨_, j, _, _, rfl⟩
      exact absurd hEq.symm (node_ne_of_not_nodes j hB)
  · by_cases hB : ∃ b', W.Nodes b b'
    · rcases hB with ⟨b', hB⟩
      rw [rename_of_nodes h hB] at hEq
      rcases hB with ⟨_, j, _, _, rfl⟩
      exact absurd hEq (node_ne_of_not_nodes j hA)
    · rw [rename_of_not_nodes hA, rename_of_not_nodes hB] at hEq
      have hLabel : "x" ++ a.label = "x" ++ b.label :=
        congrArg BlankNode.label hEq
      have hSame : a.label = b.label :=
        (String.append_right_inj "x").mp hLabel
      cases a
      cases b
      exact congrArg BlankNode.mk hSame

/- No node is renamed to a reserved one. -/
theorem rename_ne_of_reserved
    (h : NodeSupply.Paired W s s')
    {j : Nat}
    (hReserved : W.reserved j)
    (b : BlankNode) :
    W.rename b ≠ NodeSupply.node j := by
  by_cases hB : ∃ b', W.Nodes b b'
  · rcases hB with ⟨b', hB⟩
    rw [rename_of_nodes h hB]
    rcases hB with ⟨i, j', hPair, _, rfl⟩
    intro hEq
    cases NodeSupply.node_injective hEq
    exact h.unreserved i j hPair hReserved
  · exact node_ne_of_not_nodes j hB

end Pairing
end LinkedMarkup
