import LinkedMarkup.Proofs.Renaming.Lists

/-
  This file proves that sessions whose nodes are paired and
  whose lists are in step stay so under every primitive step.
  The pairing is thus a coupling, and whatever is proved for
  all couplings holds for two runs that number their nodes
  and their list mappings differently.

  Key definitions include:
    * `Quad.Match`
    * `Note.Match`
    * `Session.Paired`
    * `Coupling.pairing`

  Main declarations:
    * `Coupling.pairing_sound`
    * `Coupling.pairing_fills`
    * `Coupling.pairing_makes`
-/

namespace LinkedMarkup

------------------------------------------------------------
-- Notes
------------------------------------------------------------

/- Quads of one predicate with corresponding ends. -/
inductive Quad.Match
    (N : BlankNode → BlankNode → Prop) : Quad → Quad → Prop where
  | triple
      {x x' : Subject}
      {o o' : Object}
      (p : Iri)
      (hSubject : Subject.Match N x x')
      (hObject : Object.Match N o o') :
      Match N (.triple x p o) (.triple x' p o')

/- Notes that tell the same of corresponding nodes and lists. -/
inductive Note.Match
    (κ : Layout)
    (N : BlankNode → BlankNode → Prop) : Note → Note → Prop where
  | quad
      {q q' : Quad}
      (h : Quad.Match N q q') :
      Match κ N (.quad q) (.quad q')
  | line (l : LogLine) : Match κ N (.line l) (.line l)
  | filed
      {l l' : Nat}
      {v v' : Object}
      (p : Iri)
      (hList : κ.Maps l l')
      (hValue : Object.Match N v v') :
      Match κ N (.filed ⟨l, p, v⟩) (.filed ⟨l', p, v'⟩)

section Growing

variable {κ : Layout}
variable {N N' : BlankNode → BlankNode → Prop}

theorem Quad.Match.mono
    (hN : ∀ b b', N b b' → N' b b')
    {q q' : Quad}
    (h : Quad.Match N q q') :
    Quad.Match N' q q' := by
  cases h with
  | triple p hSubject hObject =>
      exact .triple p (hSubject.mono hN) (hObject.mono hN)

theorem Note.Match.mono
    (hN : ∀ b b', N b b' → N' b b')
    {n n' : Note}
    (h : Note.Match κ N n n') :
    Note.Match κ N' n n' := by
  cases h with
  | quad hQuad => exact .quad (hQuad.mono hN)
  | line l => exact .line l
  | filed p hList hValue => exact .filed p hList (hValue.mono hN)

/- Notes that correspond tell corresponding quads. -/
theorem Note.quads_match
    {notes notes' : List Note}
    (h : List.Forall₂ (Note.Match κ N) notes notes') :
    List.Forall₂ (Quad.Match N) (quads notes) (quads notes') := by
  induction h with
  | nil => exact .nil
  | cons hHead _ ih =>
      cases hHead with
      | quad hQuad => exact .cons hQuad ih
      | line l => exact ih
      | filed p hList hValue => exact ih

end Growing

------------------------------------------------------------
-- Sessions in step
------------------------------------------------------------

/- Sessions whose nodes, lists and notes correspond. -/
structure Session.Paired
    (κ : Layout)
    (W : Pairing)
    (s s' : Session) : Prop where
  supply : NodeSupply.Paired W s.supply s'.supply
  lists :
    ListForest.Paired κ W.Nodes W.mappings s.lists s'.lists
  notes :
    List.Forall₂ (Note.Match κ W.Nodes) s.notes.toList
      s'.notes.toList

namespace Session

variable {κ : Layout} {W V : Pairing} {s s' : Session}

/- New notes that correspond keep sessions in step. -/
theorem Paired.noted
    (h : Paired κ W s s')
    {n n' : Note}
    (hNote : Note.Match κ W.Nodes n n') :
    Paired κ W { s with notes := s.notes.push n }
      { s' with notes := s'.notes.push n' } where
  supply := h.supply
  lists := h.lists
  notes := by
    simp only [Array.toList_push]
    exact List.rel_append h.notes (.cons hNote .nil)

/- More nodes, paired in a larger pairing, keep them in step. -/
theorem Paired.supplied
    (h : Paired κ W s s')
    (hExtends : W.Extends V)
    (hMappings : V.mappings = W.mappings)
    {supply supply' : NodeSupply}
    (hSupply : NodeSupply.Paired V supply supply') :
    Paired κ V { s with supply := supply }
      { s' with supply := supply' } where
  supply := hSupply
  lists := by
    rw [hMappings]
    exact h.lists.mono (fun _ _ hNodes => hNodes.mono hExtends)
  notes :=
    h.notes.imp
      (fun _ _ hOne => hOne.mono (fun _ _ hN => hN.mono hExtends))

/- More mappings on both sides keep them in step. -/
theorem Paired.mapped
    (h : Paired κ W s s')
    {n : Nat}
    {lists lists' : ListForest Iri Object}
    (hLists : ListForest.Paired κ W.Nodes n lists lists') :
    Paired κ (W.mapped n) { s with lists := lists }
      { s' with lists := lists' } where
  supply := h.supply.mapped n
  lists := hLists
  notes := h.notes

end Session

------------------------------------------------------------
-- The coupling
------------------------------------------------------------

namespace Coupling

/-
  The comparison of two runs under a layout. Any fault may end
  both of them, as long as it is the same.
-/
def pairing
    (κ : Layout) : Coupling where
  World := Pairing
  grows := Pairing.Extends
  node := Pairing.Nodes
  list W l l' := κ.Maps l l' ∧ l < W.mappings
  session := Session.Paired κ
  fault _ := True

variable {κ : Layout}

/- A mapping that is known to a pairing exists in its session. -/
theorem lt_size_of_list
    {W : Pairing}
    {s s' : Session}
    (hs : Session.Paired κ W s s')
    {l l' : Nat}
    (h : (pairing κ).list W l l') :
    l < s.lists.slots.size :=
  Nat.lt_of_lt_of_le h.2 hs.lists.mappings

theorem pairing_sound : (pairing κ).Sound where
  refl := Pairing.Extends.refl
  trans _ _ _ := Pairing.Extends.trans
  node_mono _ _ _ _ hW hNode := hNode.mono hW
  list_mono _ _ _ _ hW hList :=
    ⟨hList.1, Nat.lt_of_lt_of_le hList.2 hW.mappings⟩
  node_iff _ _ _ _ _ _ _ hs hA hB := hs.supply.node_iff hA hB
  quad W x x' p o o' hSubject hObject s s' hs :=
    ⟨W, .refl W, hs.noted (.quad (.triple p hSubject hObject)),
      trivial⟩
  line W l s s' hs := ⟨W, .refl W, hs.noted (.line l), trivial⟩
  fresh W s s' hs := by
    refine ⟨W.joined s.supply.count s'.supply.count 1,
      W.extends_joined _ _ _, ?_, ?_⟩
    · exact hs.supplied (W.extends_joined _ _ _) rfl
        (hs.supply.freshMany 1)
    · exact ⟨s.supply.count, s'.supply.count,
        .inr ⟨0, Nat.one_pos, rfl, rfl⟩, rfl, rfl⟩
  labelled W label s s' hs := by
    rcases hs.supply.labelled label with ⟨i, j, hPaired, hI, hJ⟩
    refine ⟨W.joined i j 1, W.extends_joined _ _ _, ?_, ?_⟩
    · exact hs.supplied (W.extends_joined _ _ _) rfl hPaired
    · exact ⟨i, j, .inr ⟨0, Nat.one_pos, rfl, rfl⟩, hI, hJ⟩
  value _ _ := trivial

/- Filling lists that belong together keeps sessions in step. -/
theorem pairing_fills : (pairing κ).Fills where
  ensure W l l' p hList s s' hs := by
    have hLt := lt_size_of_list hs hList
    have hFlushed := hs.lists.flushed_eq hList.1 hLt
    unfold Work.ensureList ListForest.ensure
    rw [← hFlushed]
    cases s.lists.flushed l with
    | true => exact ⟨⟨rfl, trivial⟩, W, .refl W, hs⟩
    | false =>
        refine ⟨W, .refl W, ⟨hs.supply, ?_, hs.notes⟩, trivial⟩
        refine hs.lists.setLists hList.1 hLt ?_
        intro hBase
        exact ListForest.opened_match
          (hs.lists.lists_match hList.1 hLt hBase) p
  append W l l' p v v' hList hValue s s' hs := by
    have hLt := lt_size_of_list hs hList
    have hFlushed := hs.lists.flushed_eq hList.1 hLt
    unfold Work.appendToList ListForest.append
    rw [← hFlushed]
    cases s.lists.flushed l with
    | true => exact ⟨⟨rfl, trivial⟩, W, .refl W, hs⟩
    | false =>
        have hFilled :
            Session.Paired κ W
              { s with
                lists :=
                  s.lists.setLists l
                    (ListForest.extended (s.lists.lists l) p v) }
              { s' with
                lists :=
                  s'.lists.setLists l'
                    (ListForest.extended (s'.lists.lists l') p v') } := by
          refine ⟨hs.supply, ?_, hs.notes⟩
          refine hs.lists.setLists hList.1 hLt ?_
          intro hBase
          exact ListForest.extended_match
            (hs.lists.lists_match hList.1 hLt hBase) p hValue
        exact ⟨W, .refl W, hFilled.noted (.filed p hList.1 hValue),
          trivial⟩

/- New list mappings on both sides belong together. -/
theorem pairing_makes :
    (pairing κ).Makes κ.collects κ.collects' where
  root W s s' hs := by
    have hMaps : κ.Maps s.lists.slots.size s'.lists.slots.size :=
      .inr ⟨hs.lists.base, hs.lists.size⟩
    exact ⟨W.mapped (s.lists.slots.size + 1),
      Pairing.extends_mapped (Nat.le_succ_of_le hs.lists.mappings),
      hs.mapped hs.lists.root, hMaps, Nat.lt_succ_self _⟩
  child W l l' hList s s' hs := by
    have hMaps : κ.Maps s.lists.slots.size s'.lists.slots.size :=
      .inr ⟨hs.lists.base, hs.lists.size⟩
    exact ⟨W.mapped (s.lists.slots.size + 1),
      Pairing.extends_mapped (Nat.le_succ_of_le hs.lists.mappings),
      hs.mapped (hs.lists.child hList.1 (lt_size_of_list hs hList)),
      hMaps, Nat.lt_succ_self _⟩

end Coupling
end LinkedMarkup
