import LinkedMarkup.Proofs.Evaluation.Growth
import LinkedMarkup.Proofs.Lists.Accounts

/-
  This file proves what a mapping sees of its lists while
  lists are filled: values that are put in come last in their
  list, and a predicate that has a list keeps it, whatever
  happens afterwards.

  Key definitions include:
    * `ListForest.filedInto`
    * `Work.Holds`

  Main declarations:
    * `ListForest.values_filedInto`
    * `ListForest.isSome_members?_iff`
    * `Evaluation.holds_of_process`
-/

namespace LinkedMarkup

------------------------------------------------------------
-- Forests
------------------------------------------------------------

namespace ListForest

/- A mapping sees new lists exactly if it has their owner. -/
theorem lists_setLists
    {f : ListForest Iri Object}
    {id : Nat}
    (hOwner : (f.slot id).owner < f.slots.size)
    (i : Nat)
    (lists : List (Iri × List Object)) :
    (f.setLists id lists).lists i =
      if (f.slot i).owner = (f.slot id).owner then
        lists
      else
        f.lists i := by
  have hShape := sameShape_setLists f id lists
  unfold ListForest.lists
  rw [hShape.owner_eq, slot_setLists]
  by_cases hSame : (f.slot i).owner = (f.slot id).owner
  · rw [if_pos ⟨hSame, hOwner⟩, if_pos hSame]
  · rw [if_neg (fun hBoth => hSame hBoth.1), if_neg hSame]

/- A forest after values are put in its lists, in order. -/
def filedInto
    (f : ListForest Iri Object)
    (filings : List Filing) : ListForest Iri Object :=
  filings.foldl
    (fun f x =>
      f.setLists x.list (extended (f.lists x.list) x.predicate x.value))
    f

theorem filedInto_append
    (f : ListForest Iri Object)
    (first second : List Filing) :
    f.filedInto (first ++ second) =
      (f.filedInto first).filedInto second :=
  List.foldl_append ..

theorem sameShape_filedInto
    (f : ListForest Iri Object)
    (filings : List Filing) :
    SameShape f (f.filedInto filings) := by
  induction filings generalizing f with
  | nil => exact .refl f
  | cons x rest ih => exact (sameShape_setLists f x.list _).trans (ih _)

/- Values put in through one mapping come last in their lists. -/
theorem values_filedInto
    {f : ListForest Iri Object}
    {list : Nat}
    (hOwner : (f.slot list).owner < f.slots.size)
    {filings : List Filing}
    (hFilings : ∀ x ∈ filings, x.list = list)
    (p : Iri) :
    values ((f.filedInto filings).lists list) p =
      values (f.lists list) p ++
        (filings.filter (fun x => x.predicate = p)).map
          Filing.value := by
  induction filings generalizing f with
  | nil => exact (List.append_nil _).symm
  | cons x rest ih =>
      have hList : x.list = list := hFilings x List.mem_cons_self
      have hShape :=
        sameShape_setLists f list
          (extended (f.lists list) x.predicate x.value)
      have hNext :
          values
              ((f.setLists list
                (extended (f.lists list) x.predicate x.value)).lists
                  list) p =
            if p = x.predicate then
              values (f.lists list) p ++ [x.value]
            else
              values (f.lists list) p := by
        rw [lists_setLists hOwner, if_pos rfl, values_extended]
      change values ((ListForest.filedInto (f.setLists x.list _)
        rest).lists list) p = _
      rw [hList, ih ?_ (fun y hMem =>
        hFilings y (List.mem_cons_of_mem x hMem)), hNext]
      · by_cases hEq : p = x.predicate
        · simp [hEq]
        · have hNe : x.predicate ≠ p := fun hSame => hEq hSame.symm
          simp [hEq, hNe]
      · rw [hShape.owner_eq, hShape.size_eq]
        exact hOwner

------------------------------------------------------------
-- Lists that are there
------------------------------------------------------------

section Keys

variable {lists : List (Iri × List Object)} {p : Iri}

/- The predicates that have a list are the keys. -/
theorem isSome_members?_iff :
    (members? lists p).isSome = true ↔ p ∈ lists.map Prod.fst := by
  induction lists with
  | nil => simp [members?]
  | cons entry rest ih =>
      rcases entry with ⟨q, others⟩
      by_cases hHead : q = p
      · simp [members?, hHead]
      · have hNe : p ≠ q := fun hEq => hHead hEq.symm
        rw [members?, if_neg hHead, ih, List.map_cons, List.mem_cons]
        simp [hNe]

/- A list that is made is there, and so are those before. -/
theorem isSome_members?_opened
    {predicate : Iri}
    (h : p = predicate ∨ (members? lists p).isSome = true) :
    (members? (opened lists predicate) p).isSome = true := by
  unfold opened
  cases hMembers : members? lists predicate with
  | some members =>
      rcases h with rfl | hOld
      · simp [hMembers]
      · exact hOld
  | none =>
      rw [isSome_members?_iff] at h ⊢
      rw [List.map_append, List.mem_append]
      rcases h with rfl | hOld
      · exact .inr (by simp)
      · exact .inl hOld

theorem isSome_members?_extended
    (h : (members? lists p).isSome = true)
    (predicate : Iri)
    (value : Object) :
    (members? (extended lists predicate value) p).isSome = true := by
  rw [isSome_members?_iff] at h ⊢
  induction lists with
  | nil => cases h
  | cons entry rest ih =>
      unfold extended
      split
      · exact h
      · rcases List.mem_cons.mp h with hHead | hTail
        · exact List.mem_cons.mpr (.inl hHead)
        · exact List.mem_cons_of_mem _ (ih hTail)

/- With different keys, one entry alone has a given key. -/
theorem filter_key_eq_singleton
    (hKeys : (lists.map Prod.fst).Nodup)
    {members : List Object}
    (hMem : (p, members) ∈ lists) :
    lists.filter (fun entry => entry.1 = p) = [(p, members)] := by
  induction lists with
  | nil => cases hMem
  | cons entry rest ih =>
      rw [List.map_cons, List.nodup_cons] at hKeys
      rcases List.mem_cons.mp hMem with rfl | hTail
      · have hRest : rest.filter (fun entry => entry.1 = p) = [] := by
          rw [List.filter_eq_nil_iff]
          intro other hOther hEq
          apply hKeys.1
          exact List.mem_map.mpr ⟨other, hOther, of_decide_eq_true hEq⟩
        rw [List.filter_cons_of_pos (by simp), hRest]
      · have hNe : ¬ entry.1 = p := by
          intro hEq
          apply hKeys.1
          exact List.mem_map.mpr ⟨_, hTail, hEq.symm⟩
        rw [List.filter_cons_of_neg (by simpa using hNe)]
        exact ih hKeys.2 hTail

/- The members of a predicate's list are those listed for it. -/
theorem values_of_mem
    (hKeys : (lists.map Prod.fst).Nodup)
    {members : List Object}
    (hMem : (p, members) ∈ lists) :
    values lists p = members := by
  unfold values
  induction lists with
  | nil => cases hMem
  | cons entry rest ih =>
      rw [List.map_cons, List.nodup_cons] at hKeys
      rcases List.mem_cons.mp hMem with rfl | hTail
      · simp [members?]
      · have hNe : ¬ entry.1 = p := by
          intro hEq
          apply hKeys.1
          exact List.mem_map.mpr ⟨_, hTail, hEq.symm⟩
        rw [members?, if_neg hNe]
        exact ih hKeys.2 hTail

end Keys

end ListForest

------------------------------------------------------------
-- Sessions
------------------------------------------------------------

namespace Work

/- A mapping that exists, with its owner, and sees a list. -/
def Holds
    (list : Nat)
    (predicate : Iri)
    (_ : Nat → Prop)
    (s : Session) : Prop :=
  list < s.lists.slots.size ∧
    (s.lists.slot list).owner < s.lists.slots.size ∧
    s.lists.contains list predicate = true

theorem Holds.setLists
    {list : Nat}
    {p : Iri}
    {W : Nat → Prop}
    {s t : Session}
    (h : Holds list p W s)
    {id : Nat}
    {lists : List (Iri × List Object)}
    (hLists :
      ∀ q, (ListForest.members? (s.lists.lists id) q).isSome = true →
        (ListForest.members? lists q).isSome = true)
    (hSession : t.lists = s.lists.setLists id lists) :
    Holds list p W t := by
  have hShape := ListForest.sameShape_setLists s.lists id lists
  refine ⟨?_, ?_, ?_⟩
  · rw [hSession, hShape.size_eq]
    exact h.1
  · rw [hSession, hShape.owner_eq, hShape.size_eq]
    exact h.2.1
  · have hSees : (ListForest.members? (s.lists.lists list) p).isSome =
        true := h.2.2
    unfold ListForest.contains
    rw [hSession]
    unfold ListForest.lists at hSees ⊢
    rw [hShape.owner_eq, ListForest.slot_setLists]
    split
    · rename_i hOwner
      apply hLists
      rw [hOwner.1] at hSees
      exact hSees
    · exact hSees

theorem keeps_holds
    (list : Nat)
    (predicate : Iri) :
    Work.Keeps (Holds list predicate) (fun _ => True) where
  quad _ _ _ h := h
  line _ _ _ h := h
  fresh _ _ h := h
  labelled _ _ _ h := h
  value _ _ := trivial

theorem keepsFilling_holds
    (list : Nat)
    (predicate : Iri) :
    Work.KeepsFilling (Holds list predicate) (fun _ => True) where
  ensure _ _ _ _ h _ _ :=
    h.setLists
      (fun _ hSome => ListForest.isSome_members?_opened (.inr hSome))
      rfl
  append _ _ _ p v h _ _ :=
    h.setLists
      (fun _ hSome => ListForest.isSome_members?_extended hSome p v) rfl
  flushed _ _ _ _ _ _ _ := trivial

/- A forest with one mapping more leaves what others see. -/
theorem Holds.pushed
    {list : Nat}
    {p : Iri}
    {V W : Nat → Prop}
    {s t : Session}
    (h : Holds list p V s)
    (hSize : t.lists.slots.size = s.lists.slots.size + 1)
    (hOld :
      ∀ l, l ≠ s.lists.slots.size → t.lists.slot l = s.lists.slot l) :
    Holds list p W t := by
  rcases h with ⟨hList, hOwner, hSees⟩
  have hSame : t.lists.slot list = s.lists.slot list :=
    hOld list (by omega)
  refine ⟨by omega, by rw [hSame]; omega, ?_⟩
  unfold ListForest.contains ListForest.lists at hSees ⊢
  rw [hSame, hOld _ (by omega)]
  exact hSees

theorem keepsMaking_holds
    (list : Nat)
    (predicate : Iri)
    (collects : Bool) :
    Work.KeepsMaking (Holds list predicate) collects where
  root W s h := by
    refine h.pushed (ListForest.size_root _ _) ?_
    intro l hNe
    dsimp only
    rw [ListForest.slot_root, if_neg hNe]
  child W s id h _ := by
    refine h.pushed (ListForest.size_child _ _) ?_
    intro l hNe
    dsimp only
    rw [ListForest.slot_child, if_neg hNe]

end Work

namespace Evaluation

open Work

/- No event takes a list away. -/
theorem holds_of_process
    {list : Nat}
    {p : Iri}
    {d d' : State}
    {event : Event}
    {notes : List Note}
    (hHoused : Housed d)
    (hHolds : Holds list p (fun _ => True) d.session)
    (h : process d event = (.ok d', notes)) :
    Holds list p (fun _ => True) d'.session := by
  have hFresh : Holds list p (fun _ => True) d.fresh := hHolds
  rcases process_ok_cases h with
    ⟨name, attributes, depth, e, t, rfl, hOpen, rfl, _⟩ |
      ⟨data, rfl, rfl, _⟩ |
      ⟨name, depth, e, rest, m, t, rfl, hElements, _, hComplete,
        hFlush, rfl, _⟩
  · rcases (keeps_holds list p).openElement (keepsFilling_holds list p)
        (keepsMaking_holds list p _) (uses_true d.scope)
        (.inl ⟨trivial, trivial⟩ :
          _ ∨ Anchored d.settings d.scope d.elements.isEmpty)
        hFresh name attributes with
      ⟨hOk, _⟩
    rcases hOk e t hOpen with ⟨_, _, hAfter, _⟩
    exact hAfter
  · exact hFresh
  · have hUses : e.Uses (fun _ => True) :=
      ⟨uses_true e.scope, trivial, fun _ _ => trivial⟩
    rcases (keeps_holds list p).completeElement
        (keepsFilling_holds list p) hUses hFresh with
      ⟨hOk, _⟩
    rcases hOk () m hComplete with ⟨_, _, hBetween⟩
    have hMarked :=
      lists_of_flushLists (hHoused.unflushed hElements hComplete) hFlush
    rcases hBetween with ⟨hList, hOwner, hSees⟩
    change _ < t.lists.slots.size ∧
      (t.lists.slot list).owner < t.lists.slots.size ∧
      t.lists.contains list p = true
    unfold ListForest.contains ListForest.lists at hSees ⊢
    rw [hMarked, ListForest.size_marked, ListForest.owner_marked,
      ListForest.lists_marked]
    exact ⟨hList, hOwner, hSees⟩

theorem holds_of_run
    {list : Nat}
    {p : Iri}
    {d d' : State}
    {events : List Event}
    {sections : List (List Note)}
    (hHoused : Housed d)
    (hHolds : Holds list p (fun _ => True) d.session)
    (h : Run d events sections d') :
    Holds list p (fun _ => True) d'.session := by
  induction h with
  | nil _ => exact hHolds
  | cons hStep _ ih =>
      exact ih (housed_of_process hHoused hStep)
        (holds_of_process hHoused hHolds hStep)

end Evaluation
end LinkedMarkup
