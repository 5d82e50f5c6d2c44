import LinkedMarkup.Proofs.Evaluation.Emission
import LinkedMarkup.Proofs.Renaming.Sessions

/-
  This file proves that corresponding lists are written alike:
  in one style with corresponding nodes, and if only the
  second run collects its lists, with nodes that no node of
  the first run ever corresponds to.

  Key definitions include:
    * `Emission.Match`
    * `Layout.SameOrCollects`
    * `Pairing.taking`

  Main declarations:
    * `Emission.written_match`
    * `NodeSupply.Paired.taking`
    * `Work.flushLists_paired`
-/

namespace LinkedMarkup

/- Emissions of corresponding nodes. -/
inductive Emission.Match
    (N : BlankNode → BlankNode → Prop) :
    Emission → Emission → Prop where
  | stated
      {q q' : Quad}
      (h : Quad.Match N q q') :
      Match N (.stated q) (.stated q')
  | list
      {x x' : Subject}
      {members members' : List Object}
      (p : Iri)
      (hSubject : Subject.Match N x x')
      (hMembers : List.Forall₂ (Object.Match N) members members') :
      Match N (.list x p members) (.list x' p members')

------------------------------------------------------------
-- Written forms
------------------------------------------------------------

section Written

variable {N N' : BlankNode → BlankNode → Prop}

theorem Emission.Match.mono
    (hN : ∀ b b', N b b' → N' b b')
    {e e' : Emission}
    (h : Emission.Match N e e') :
    Emission.Match N' e e' := by
  cases h with
  | stated hQuad => exact .stated (hQuad.mono hN)
  | list p hSubject hMembers =>
      exact .list p (hSubject.mono hN)
        (hMembers.imp (fun _ _ hOne => hOne.mono hN))

theorem Quad.ofMembers_match
    {x x' : Subject}
    {members members' : List Object}
    (p : Iri)
    (hSubject : Subject.Match N x x')
    (hMembers : List.Forall₂ (Object.Match N) members members') :
    List.Forall₂ (Quad.Match N) (ofMembers x p members)
      (ofMembers x' p members') := by
  have hEach :
      List.Forall₂ (Quad.Match N) (members.map (Quad.triple x p))
        (members'.map (Quad.triple x' p)) := by
    rw [List.forall₂_map_left_iff, List.forall₂_map_right_iff]
    exact hMembers.imp (fun _ _ hOne => .triple p hSubject hOne)
  cases hMembers with
  | nil => exact .cons (.triple p hSubject (.iri Rdf.nil)) .nil
  | cons hHead hTail => exact hEach

theorem Quad.ofLinks_match
    {pairs pairs' : List (BlankNode × Object)}
    (h :
      List.Forall₂
        (fun pair pair' =>
          N pair.1 pair'.1 ∧ Object.Match N pair.2 pair'.2)
        pairs pairs') :
    List.Forall₂ (Quad.Match N) (ofLinks pairs) (ofLinks pairs') := by
  induction h with
  | nil => exact .nil
  | @cons pair pair' rest rest' hHead hTail ih =>
      rcases pair with ⟨node, member⟩
      rcases pair' with ⟨node', member'⟩
      refine .cons (.triple Rdf.first (.blank hHead.1) hHead.2)
        (.cons ?_ ih)
      cases hTail with
      | nil => exact .triple Rdf.rest (.blank hHead.1) (.iri Rdf.nil)
      | cons hNext _ =>
          exact .triple Rdf.rest (.blank hHead.1) (.blank hNext.1)

theorem Quad.ofCollection_match
    {x x' : Subject}
    {nodes nodes' : List BlankNode}
    {members members' : List Object}
    (p : Iri)
    (hSubject : Subject.Match N x x')
    (hNodes : List.Forall₂ N nodes nodes')
    (hMembers : List.Forall₂ (Object.Match N) members members') :
    List.Forall₂ (Quad.Match N) (ofCollection x p nodes members)
      (ofCollection x' p nodes' members') := by
  have hZip :
      List.Forall₂
        (fun pair pair' =>
          N pair.1 pair'.1 ∧ Object.Match N pair.2 pair'.2)
        (nodes.zip members) (nodes'.zip members') := by
    clear hSubject
    induction hNodes generalizing members members' with
    | nil => exact .nil
    | cons hHead _ ih =>
        cases hMembers with
        | nil => exact .nil
        | cons hFirst hRest => exact .cons ⟨hHead, hFirst⟩ (ih hRest)
  cases hNodes with
  | nil => exact .cons (.triple p hSubject (.iri Rdf.nil)) .nil
  | cons hHead _ =>
      exact .cons (.triple p hSubject (.blank hHead))
        (ofLinks_match hZip)

namespace Emission

variable {emissions emissions' : List Emission}

theorem nodeCount_eq_of_match
    (h : List.Forall₂ (Match N) emissions emissions') :
    nodeCount emissions = nodeCount emissions' := by
  induction h with
  | nil => rfl
  | @cons e e' rest rest' hHead _ ih =>
      have hSize : e.size = e'.size := by
        cases hHead with
        | stated _ => rfl
        | list _ _ hMembers => exact hMembers.length_eq
      rw [nodeCount, nodeCount, hSize, ih]

/- Corresponding quads are emitted as they are stated. -/
theorem stated_match
    {quads quads' : List Quad}
    (h : List.Forall₂ (Quad.Match N) quads quads') :
    List.Forall₂ (Match N) (quads.map stated) (quads'.map stated) := by
  rw [List.forall₂_map_left_iff, List.forall₂_map_right_iff]
  exact h.imp (fun _ _ hOne => .stated hOne)

theorem asMembers_match
    (h : List.Forall₂ (Match N) emissions emissions') :
    List.Forall₂ (Quad.Match N) (emissions.flatMap asMembers)
      (emissions'.flatMap asMembers) := by
  induction h with
  | nil => exact .nil
  | cons hHead _ ih =>
      rw [List.flatMap_cons, List.flatMap_cons]
      refine List.rel_append ?_ ih
      cases hHead with
      | stated hQuad => exact .cons hQuad .nil
      | list p hSubject hMembers =>
          exact Quad.ofMembers_match p hSubject hMembers

theorem asCollections_match
    (h : List.Forall₂ (Match N) emissions emissions')
    {nodes nodes' : List BlankNode}
    (hNodes : List.Forall₂ N nodes nodes') :
    List.Forall₂ (Quad.Match N) (asCollections emissions nodes)
      (asCollections emissions' nodes') := by
  induction h generalizing nodes nodes' with
  | nil => exact .nil
  | cons hHead _ ih =>
      cases hHead with
      | stated hQuad => exact .cons hQuad (ih hNodes)
      | list p hSubject hMembers =>
          simp only [asCollections]
          rw [← hMembers.length_eq]
          exact List.rel_append
            (Quad.ofCollection_match p hSubject
              (List.forall₂_take _ hNodes) hMembers)
            (ih (List.forall₂_drop _ hNodes))

/- Successive numbers stand for corresponding nodes in order. -/
theorem numbered_match
    {i j n : Nat}
    (h :
      ∀ k, k < n →
        N (NodeSupply.node (i + k)) (NodeSupply.node (j + k))) :
    List.Forall₂ N ((List.range' i n).map NodeSupply.node)
      ((List.range' j n).map NodeSupply.node) := by
  rw [List.forall₂_map_left_iff, List.forall₂_map_right_iff]
  induction n generalizing i j with
  | zero => exact .nil
  | succ n ih =>
      rw [List.range'_succ, List.range'_succ]
      refine .cons (h 0 (Nat.succ_pos n)) (ih ?_)
      intro k hk
      rw [Nat.add_right_comm, Nat.add_right_comm j]
      exact h (k + 1) (Nat.succ_lt_succ hk)

/-
  Corresponding emissions in one style are corresponding
  quads, if the nodes that collections take correspond.
-/
theorem written_match
    (h : List.Forall₂ (Match N) emissions emissions')
    (collects : Bool)
    {i j : Nat}
    (hNodes :
      collects = true →
        ∀ k, k < nodeCount emissions →
          N (NodeSupply.node (i + k)) (NodeSupply.node (j + k))) :
    List.Forall₂ (Quad.Match N) (written collects emissions i)
      (written collects emissions' j) := by
  unfold written
  cases collects with
  | false => exact asMembers_match h
  | true =>
      apply asCollections_match h
      rw [← nodeCount_eq_of_match h]
      exact numbered_match (hNodes rfl)

/- Corresponding lists of corresponding owners are emitted alike. -/
theorem ofLists_match
    {subject subject' : Option Subject}
    {lists lists' : List (Iri × List Object)}
    (hSubject : Option.Rel (Subject.Match N) subject subject')
    (hLists : List.Forall₂ (EntriesMatch N) lists lists') :
    List.Forall₂ (Match N) (ofLists subject lists)
      (ofLists subject' lists') := by
  cases hSubject with
  | none => exact .nil
  | some hSome =>
      unfold ofLists
      dsimp only
      rw [List.forall₂_map_left_iff, List.forall₂_map_right_iff]
      apply hLists.imp
      rintro ⟨p, members⟩ ⟨p', members'⟩ ⟨hEq, hMembers⟩
      dsimp only at hEq hMembers ⊢
      subst hEq
      exact .list p hSome hMembers

end Emission
end Written

------------------------------------------------------------
-- Flushing
------------------------------------------------------------

/-
  Layouts of runs in one style, and of runs of which only the
  second collects its lists.
-/
def Layout.SameOrCollects
    (κ : Layout) : Prop :=
  κ.collects = true → κ.collects' = true

/-
  A pairing after the nodes of collections have been taken:
  they correspond if both runs take them, and are reserved if
  only the second run does.
-/
def Pairing.taking
    (W : Pairing)
    (κ : Layout)
    (i j n : Nat) : Pairing :=
  if κ.collects then
    W.joined i j n
  else if κ.collects' then
    W.reserving j n
  else
    W

/- What a pairing knows of the nodes that collections take. -/
structure Pairing.Takes
    (κ : Layout)
    (W : Pairing)
    (i j n : Nat) : Prop where
  paired :
    κ.collects = true → ∀ k, k < n → W.pairs (i + k) (j + k)
  reserved :
    κ.collects = false → κ.collects' = true →
      ∀ k, k < n → W.reserved (j + k)

namespace Pairing

variable {κ : Layout} {V W : Pairing} {i j n : Nat}

theorem Takes.mono
    (h : Takes κ V i j n)
    (hExtends : V.Extends W) :
    Takes κ W i j n where
  paired hBoth k hk := hExtends.pairs _ _ (h.paired hBoth k hk)
  reserved hLeft hRight k hk :=
    hExtends.reserved _ (h.reserved hLeft hRight k hk)

/- Nothing needs to be known if no node is taken. -/
theorem takes_zero
    (κ : Layout)
    (W : Pairing)
    (i j : Nat) :
    Takes κ W i j 0 where
  paired _ k hk := absurd hk (Nat.not_lt_zero k)
  reserved _ _ k hk := absurd hk (Nat.not_lt_zero k)

theorem extends_taking
    (W : Pairing)
    (κ : Layout)
    (i j n : Nat) :
    W.Extends (W.taking κ i j n) := by
  unfold taking
  split
  · exact W.extends_joined i j n
  · split
    · exact W.extends_reserving j n
    · exact .refl W

theorem mappings_taking
    (W : Pairing)
    (κ : Layout)
    (i j n : Nat) :
    (W.taking κ i j n).mappings = W.mappings := by
  unfold taking
  split
  · rfl
  · split <;> rfl

theorem takes_taking
    (W : Pairing)
    (κ : Layout)
    (i j n : Nat) :
    Takes κ (W.taking κ i j n) i j n where
  paired hBoth k hk := by
    unfold taking
    rw [if_pos hBoth]
    exact .inr ⟨k, hk, rfl, rfl⟩
  reserved hLeft hRight k hk := by
    unfold taking
    rw [if_neg (by rw [hLeft]; exact Bool.false_ne_true),
      if_pos hRight]
    exact .inr ⟨Nat.le_add_right j k, Nat.add_lt_add_left hk j⟩

end Pairing

/-
  Supplies stay in step when lists are written, in a pairing
  that knows of the nodes that they take.
-/
theorem NodeSupply.Paired.taking
    {κ : Layout}
    {W : Pairing}
    {s s' : NodeSupply}
    {emissions emissions' : List Emission}
    (h : Paired W s s')
    (hStyles : κ.SameOrCollects)
    (hCount :
      Emission.nodeCount emissions = Emission.nodeCount emissions') :
    ∃ V : Pairing,
      W.Extends V ∧ V.mappings = W.mappings ∧
        Pairing.Takes κ V s.count s'.count
          (Emission.nodeCount emissions) ∧
        Paired V (Emission.supplyAfter κ.collects emissions s)
          (Emission.supplyAfter κ.collects' emissions' s') := by
  refine ⟨W.taking κ s.count s'.count (Emission.nodeCount emissions),
    W.extends_taking κ _ _ _, W.mappings_taking κ _ _ _,
    W.takes_taking κ _ _ _, ?_⟩
  unfold Emission.supplyAfter Pairing.taking
  by_cases hLeft : κ.collects = true
  · rw [if_pos hLeft, if_pos hLeft, if_pos (hStyles hLeft), ← hCount]
    exact h.freshMany _
  · rw [if_neg hLeft, if_neg hLeft]
    by_cases hRight : κ.collects' = true
    · rw [if_pos hRight, if_pos hRight, ← hCount]
      exact h.reserve _
    · rw [if_neg hRight, if_neg hRight]
      exact h

/-
  Flushing corresponding mappings: what they emit corresponds,
  and either both are written, or both lack a subject.
-/
theorem Work.flushLists_paired
    {κ : Layout}
    {W : Pairing}
    {s s' : Session}
    {l l' : Nat}
    {x x' : Option Subject}
    (hs : Session.Paired κ W s s')
    (hStyles : κ.SameOrCollects)
    (hList : (Coupling.pairing κ).list W l l')
    (hBase : κ.base ≤ l)
    (hOpen : s.lists.flushed l = false)
    (hSubject : (Coupling.pairing κ).Optional W x x') :
    List.Forall₂ (Emission.Match W.Nodes)
        (Emission.ofLists x (s.lists.slot l).lists)
        (Emission.ofLists x' (s'.lists.slot l').lists) ∧
      ((∃ t t' V,
          flushLists l x s = (.ok (), t) ∧
            flushLists l' x' s' = (.ok (), t') ∧
            W.Extends V ∧
            Pairing.Takes κ V s.supply.count s'.supply.count
              (Emission.nodeCount
                (Emission.ofLists x (s.lists.slot l).lists)) ∧
            NodeSupply.Paired V t.supply t'.supply ∧
            ListForest.Paired κ V.Nodes V.mappings t.lists t'.lists) ∨
        ∃ fault t t',
          flushLists l x s = (.error fault, t) ∧
            flushLists l' x' s' = (.error fault, t')) := by
  have hLt := Coupling.lt_size_of_list hs hList
  have hLt' := hs.lists.lt_size hList.1 hLt
  have hOpen' : s'.lists.flushed l' = false := by
    rw [← hs.lists.flushed_eq hList.1 hLt]
    exact hOpen
  have hLists := (hs.lists.slots l l' hList.1 hLt).lists hBase
  have hEmissions := Emission.ofLists_match hSubject hLists
  refine ⟨hEmissions, ?_⟩
  rcases hs.supply.taking hStyles
      (Emission.nodeCount_eq_of_match hEmissions) with
    ⟨V, hExtends, hMappings, hTakes, hSupply⟩
  have hMarked :=
    (hs.lists.marked hList.1 hLt).mono
      (fun _ _ hNodes => hNodes.mono hExtends)
  rw [← hMappings] at hMarked
  cases hSubject with
  | some hSome =>
      left
      refine ⟨_, _, V, flushLists_eq hOpen _, flushLists_eq hOpen' _,
        hExtends, hTakes, ?_, hMarked⟩
      dsimp only
      rw [Emission.ofLists_eq_written, Emission.ofLists_eq_written,
        hs.lists.collects l hLt, hs.lists.collects' l' hLt']
      exact hSupply
  | none =>
      by_cases hNil : (s.lists.slot l).lists = []
      · left
        have hNil' : (s'.lists.slot l').lists = [] := by
          rw [hNil] at hLists
          exact List.forall₂_nil_left_iff.mp hLists
        rw [Emission.ofLists, Emission.ofLists,
          Emission.supplyAfter_nil, Emission.supplyAfter_nil]
          at hSupply
        exact ⟨_, _, V, flushLists_of_lists_eq_nil hOpen hNil _,
          flushLists_of_lists_eq_nil hOpen' hNil' _, hExtends, hTakes,
          hSupply, hMarked⟩
      · right
        have hNil' : (s'.lists.slot l').lists ≠ [] := by
          intro hEq
          rw [hEq] at hLists
          exact hNil (List.forall₂_nil_right_iff.mp hLists)
        refine ⟨.listWithoutSubject, _, _, flushLists_none hOpen hNil,
          flushLists_none hOpen' hNil'⟩

end LinkedMarkup
