import LinkedMarkup.Proofs.Evaluation.Emission

/-
  This file proves that lists hold what was filed in them:
  the members of a predicate's list are the values filed for
  it through any mapping of the list's owner, in the order in
  which they came.

  Key definitions include:
    * `ListForest.filedUnder`
    * `ListForest.Accounts`
    * `Work.Accounted`

  Main declarations:
    * `ListForest.Accounts.append`
    * `Work.keeps_accounted`
-/

namespace LinkedMarkup

------------------------------------------------------------
-- Forests
------------------------------------------------------------

namespace ListForest

/- The values filed for a predicate of an owner, in order. -/
def filedUnder
    (f : ListForest Iri Object)
    (filings : List Filing)
    (owner : Nat)
    (predicate : Iri) : List Object :=
  (filings.filter (fun x =>
    (f.slot x.list).owner = owner ∧ x.predicate = predicate)).map
      Filing.value

/-
  Lists that are accounted for by what was filed. Owners are
  owned by themselves, and every list is written by member.
-/
structure Accounts
    (filings : List Filing)
    (f : ListForest Iri Object) : Prop where
  filed : ∀ x ∈ filings, x.list < f.slots.size
  owner :
    ∀ l, l < f.slots.size →
      (f.slot l).owner < f.slots.size ∧
        (f.slot (f.slot l).owner).owner = (f.slot l).owner
  collects : ∀ l, (f.slot l).collects = false
  keys : ∀ l, ((f.slot l).lists.map Prod.fst).Nodup
  values :
    ∀ l p, values (f.slot l).lists p = f.filedUnder filings l p

/- Only who owns the lists decides what is filed under them. -/
theorem filedUnder_congr
    {f g : ListForest Iri Object}
    {filings : List Filing}
    (h : ∀ x ∈ filings, (g.slot x.list).owner = (f.slot x.list).owner)
    (owner : Nat)
    (predicate : Iri) :
    g.filedUnder filings owner predicate =
      f.filedUnder filings owner predicate := by
  unfold filedUnder
  congr 1
  apply List.filter_congr
  intro x hMem
  rw [h x hMem]

theorem accounts_empty :
    Accounts [] ListForest.empty where
  filed := by simp
  owner l hLt := by simp [ListForest.empty] at hLt
  collects l := by
    rw [slot_of_size_le (by simp [ListForest.empty])]
  keys l := by
    rw [slot_of_size_le (by simp [ListForest.empty])]
    simp
  values l p := by
    rw [slot_of_size_le (by simp [ListForest.empty])]
    rfl

section Steps

variable {filings : List Filing} {f : ListForest Iri Object}

/- Nothing is filed under a mapping that does not exist. -/
theorem Accounts.filedUnder_size
    (h : Accounts filings f)
    (p : Iri) :
    f.filedUnder filings f.slots.size p = [] := by
  unfold filedUnder
  rw [List.map_eq_nil_iff, List.filter_eq_nil_iff]
  intro x hMem
  have hOwner := (h.owner x.list (h.filed x hMem)).1
  have hNe : (f.slot x.list).owner ≠ f.slots.size := by omega
  simp [hNe]

/-
  A new mapping without lists is accounted for, if it owns
  itself or belongs to an owner.
-/
theorem Accounts.pushed
    {g : ListForest Iri Object}
    {owner : Nat}
    (h : Accounts filings f)
    (hSize : g.slots.size = f.slots.size + 1)
    (hNew : g.slot f.slots.size = ⟨owner, false, false, []⟩)
    (hOld : ∀ l, l ≠ f.slots.size → g.slot l = f.slot l)
    (hOwner :
      owner = f.slots.size ∨
        (owner < f.slots.size ∧ (f.slot owner).owner = owner)) :
    Accounts filings g where
  filed x hMem := by
    rw [hSize]
    exact Nat.lt_succ_of_lt (h.filed x hMem)
  owner l hLt := by
    by_cases hEq : l = f.slots.size
    · rw [hEq, hNew, hSize]
      dsimp only
      rcases hOwner with rfl | ⟨hOwnerLt, hOwns⟩
      · rw [hNew]
        exact ⟨Nat.lt_succ_self _, rfl⟩
      · rw [hOld owner (by omega)]
        exact ⟨Nat.lt_succ_of_lt hOwnerLt, hOwns⟩
    · have hIn : l < f.slots.size := by omega
      rcases h.owner l hIn with ⟨hOwnerLt, hOwns⟩
      rw [hOld l hEq, hSize, hOld _ (by omega)]
      exact ⟨Nat.lt_succ_of_lt hOwnerLt, hOwns⟩
  collects l := by
    by_cases hEq : l = f.slots.size
    · rw [hEq, hNew]
    · rw [hOld l hEq]
      exact h.collects l
  keys l := by
    by_cases hEq : l = f.slots.size
    · rw [hEq, hNew]
      simp
    · rw [hOld l hEq]
      exact h.keys l
  values l p := by
    have hSame :
        g.filedUnder filings l p = f.filedUnder filings l p := by
      refine filedUnder_congr ?_ l p
      intro x hMem
      have hLt := h.filed x hMem
      rw [hOld x.list (by omega)]
    rw [hSame]
    by_cases hEq : l = f.slots.size
    · rw [hEq, hNew, h.filedUnder_size p]
      rfl
    · rw [hOld l hEq]
      exact h.values l p

theorem Accounts.root
    (h : Accounts filings f) :
    Accounts filings (f.root false).2 := by
  refine h.pushed (size_root f false) ?_ ?_ (.inl rfl)
  · rw [slot_root, if_pos rfl]
  · intro l hNe
    rw [slot_root, if_neg hNe]

theorem Accounts.child
    (h : Accounts filings f)
    {list : Nat}
    (hList : list < f.slots.size) :
    Accounts filings (f.child list).2 := by
  refine h.pushed (size_child f list) ?_ ?_ (.inr (h.owner list hList))
  · rw [slot_child, if_pos rfl, h.collects list]
  · intro l hNe
    rw [slot_child, if_neg hNe]

theorem Accounts.ensure
    (h : Accounts filings f)
    (list : Nat)
    (predicate : Iri) :
    Accounts filings
      (f.setLists list (opened (f.lists list) predicate)) := by
  have hShape :=
    sameShape_setLists f list (opened (f.lists list) predicate)
  refine
    { filed := ?_
      owner := ?_
      collects := ?_
      keys := ?_
      values := ?_ }
  · intro x hMem
    rw [hShape.size_eq]
    exact h.filed x hMem
  · intro l hLt
    rw [hShape.size_eq] at hLt ⊢
    rw [hShape.owner_eq, hShape.owner_eq]
    exact h.owner l hLt
  · intro l
    rw [hShape.collects_eq]
    exact h.collects l
  · intro l
    rw [slot_setLists]
    split
    · exact nodup_keys_opened (h.keys _) predicate
    · exact h.keys l
  · intro l p
    rw [filedUnder_congr (fun x _ => hShape.owner_eq x.list),
      slot_setLists]
    split
    · rename_i hOwner
      rw [values_opened, hOwner.1]
      exact h.values _ p
    · exact h.values l p

/- What is filed is added to its list, and nowhere else. -/
theorem Accounts.append
    (h : Accounts filings f)
    {list : Nat}
    (hList : list < f.slots.size)
    (predicate : Iri)
    (value : Object) :
    Accounts (filings ++ [⟨list, predicate, value⟩])
      (f.setLists list
        (extended (f.lists list) predicate value)) := by
  have hShape :=
    sameShape_setLists f list
      (extended (f.lists list) predicate value)
  refine
    { filed := ?_
      owner := ?_
      collects := ?_
      keys := ?_
      values := ?_ }
  · intro x hMem
    rw [hShape.size_eq]
    rcases List.mem_append.mp hMem with hOld | hNew
    · exact h.filed x hOld
    · rw [List.mem_singleton.mp hNew]
      exact hList
  · intro l hLt
    rw [hShape.size_eq] at hLt ⊢
    rw [hShape.owner_eq, hShape.owner_eq]
    exact h.owner l hLt
  · intro l
    rw [hShape.collects_eq]
    exact h.collects l
  · intro l
    rw [slot_setLists]
    split
    · exact nodup_keys_extended (h.keys _) predicate value
    · exact h.keys l
  · intro l p
    rw [filedUnder_congr (fun x _ => hShape.owner_eq x.list),
      slot_setLists]
    have hSplit :
        f.filedUnder (filings ++ [⟨list, predicate, value⟩]) l p =
          f.filedUnder filings l p ++
            f.filedUnder [⟨list, predicate, value⟩] l p := by
      unfold filedUnder
      rw [List.filter_append, List.map_append]
    rw [hSplit, ← h.values l p]
    have hBound := (h.owner list hList).1
    split
    · rename_i hOwner
      rw [values_extended, hOwner.1]
      by_cases hEq : p = predicate
      · simp [filedUnder, hEq, lists]
      · have hNe : predicate ≠ p := fun hSame => hEq hSame.symm
        simp [filedUnder, hEq, hNe, lists]
    · rename_i hOwner
      have hNe : (f.slot list).owner ≠ l := by
        intro hEq
        exact hOwner ⟨hEq.symm, hBound⟩
      simp [filedUnder, hNe]

theorem Accounts.marked
    (h : Accounts filings f)
    (list : Nat) :
    Accounts filings (f.marked list) := by
  refine
    { filed := ?_
      owner := ?_
      collects := ?_
      keys := ?_
      values := ?_ }
  · intro x hMem
    rw [size_marked]
    exact h.filed x hMem
  · intro l hLt
    rw [size_marked] at hLt ⊢
    rw [owner_marked, owner_marked]
    exact h.owner l hLt
  · intro l
    rw [collects_marked]
    exact h.collects l
  · intro l
    rw [lists_marked]
    exact h.keys l
  · intro l p
    rw [filedUnder_congr (fun x _ => owner_marked f list x.list),
      lists_marked]
    exact h.values l p

end Steps

end ListForest

------------------------------------------------------------
-- Sessions
------------------------------------------------------------

namespace Work

/-
  A session whose lists are accounted for by what was filed
  before it and by its own notes.
-/
def Accounted
    (past : List Note)
    (W : Nat → Prop)
    (s : Session) : Prop :=
  (∀ l, W l → l < s.lists.slots.size) ∧
    s.lists.Accounts (Note.filings (past ++ s.notes.toList))

theorem filings_push_of_filing?_eq_none
    (past : List Note)
    (notes : Array Note)
    (n : Note)
    (h : Note.filings [n] = []) :
    Note.filings (past ++ (notes.push n).toList) =
      Note.filings (past ++ notes.toList) := by
  rw [Array.toList_push, ← List.append_assoc, Note.filings_append, h,
    List.append_nil]

theorem keeps_accounted
    (past : List Note) :
    Work.Keeps (Accounted past) (fun _ => True) where
  quad W s q h := by
    refine ⟨h.1, ?_⟩
    rw [filings_push_of_filing?_eq_none past s.notes _ rfl]
    exact h.2
  line W s l h := by
    refine ⟨h.1, ?_⟩
    rw [filings_push_of_filing?_eq_none past s.notes _ rfl]
    exact h.2
  fresh _ _ h := h
  labelled _ _ _ h := h
  value _ _ := trivial

theorem keepsFilling_accounted
    (past : List Note) :
    Work.KeepsFilling (Accounted past) (fun _ => True) where
  ensure W s l p h _ _ := by
    refine ⟨?_, h.2.ensure l p⟩
    intro i hi
    dsimp only
    rw [(ListForest.sameShape_setLists _ _ _).size_eq]
    exact h.1 i hi
  append W s l p v h hl _ := by
    constructor
    · intro i hi
      dsimp only
      rw [(ListForest.sameShape_setLists _ _ _).size_eq]
      exact h.1 i hi
    · dsimp only
      rw [Array.toList_push, ← List.append_assoc,
        Note.filings_append]
      exact h.2.append (h.1 l hl) p v
  flushed _ _ _ _ _ _ _ := trivial

theorem keepsMaking_accounted
    (past : List Note) :
    Work.KeepsMaking (Accounted past) false where
  root W s h := by
    refine ⟨?_, h.2.root⟩
    intro l hl
    dsimp only
    rw [ListForest.size_root]
    rcases hl with hl | rfl
    · exact Nat.lt_succ_of_lt (h.1 l hl)
    · exact Nat.lt_succ_self _
  child W s list h hList := by
    refine ⟨?_, h.2.child (h.1 list hList)⟩
    intro l hl
    dsimp only
    rw [ListForest.size_child]
    rcases hl with hl | rfl
    · exact Nat.lt_succ_of_lt (h.1 l hl)
    · exact Nat.lt_succ_self _

end Work
end LinkedMarkup
