import LinkedMarkup.Proofs.Lists.Returns

/-
  This file proves what becomes of values that are added after
  the outermost mapping of a chain was flushed. A mapping only
  refuses them if it was flushed itself. Those it takes join
  the lists of the outermost one, and are never returned; only
  the values that were added before are.

  Key definitions include:
    * `ListForest.LateUsesRefused`

  Main declarations:
    * `Quad.exists_object_ofLists`
    * `ListForest.History.late_uses_not_returned`
-/

namespace LinkedMarkup

------------------------------------------------------------
-- Members that are written
------------------------------------------------------------

namespace Quad

section Members

variable {members : List Object} {v : Object}

theorem exists_object_ofMembers
    (subject : Subject)
    (predicate : Iri)
    (hMem : v ∈ members) :
    ∃ q ∈ ofMembers subject predicate members, q.object = v := by
  unfold ofMembers
  cases members with
  | nil => cases hMem
  | cons first rest =>
      exact ⟨.triple subject predicate v, List.mem_map_of_mem hMem, rfl⟩

theorem exists_object_ofLinks
    {pairs : List (BlankNode × Object)}
    (hMem : v ∈ pairs.map Prod.snd) :
    ∃ q ∈ ofLinks pairs, q.object = v := by
  induction pairs with
  | nil => cases hMem
  | cons pair rest ih =>
      rcases pair with ⟨node, member⟩
      unfold ofLinks
      rcases List.mem_cons.mp hMem with rfl | hRest
      · exact ⟨_, List.mem_cons_self, rfl⟩
      · rcases ih hRest with ⟨q, hq, hObject⟩
        exact ⟨q, List.mem_cons_of_mem _ (List.mem_cons_of_mem _ hq),
          hObject⟩

theorem exists_object_ofCollection
    (subject : Subject)
    (predicate : Iri)
    {nodes : List BlankNode}
    (hLength : nodes.length = members.length)
    (hMem : v ∈ members) :
    ∃ q ∈ ofCollection subject predicate nodes members,
      q.object = v := by
  have hSnd : (nodes.zip members).map Prod.snd = members :=
    List.map_snd_zip (Nat.le_of_eq hLength.symm)
  rw [← hSnd] at hMem
  rcases exists_object_ofLinks hMem with ⟨q, hq, hObject⟩
  unfold ofCollection
  cases nodes with
  | nil => cases hMem
  | cons head rest => exact ⟨q, List.mem_cons_of_mem _ hq, hObject⟩

/- Every member of a list is the object of one of its quads. -/
theorem exists_object_ofLists
    (collects : Bool)
    (subject : Subject)
    {lists : List (Iri × List Object)}
    {entry : Iri × List Object}
    (hEntry : entry ∈ lists)
    (hMem : v ∈ entry.2)
    (supply : NodeSupply) :
    ∃ q ∈ (ofLists collects subject lists supply).1,
      q.object = v := by
  induction lists generalizing supply with
  | nil => cases hEntry
  | cons first rest ih =>
      unfold ofLists
      cases collects with
      | true =>
          rcases List.mem_cons.mp hEntry with rfl | hRest
          · have hLength :
                (supply.freshMany entry.2.length).1.length =
                  entry.2.length := by
              simp [NodeSupply.freshMany]
            rcases exists_object_ofCollection subject entry.1 hLength
                hMem with
              ⟨q, hq, hObject⟩
            exact ⟨q, List.mem_append.mpr (.inl hq), hObject⟩
          · rcases ih hRest _ with ⟨q, hq, hObject⟩
            exact ⟨q, List.mem_append.mpr (.inr hq), hObject⟩
      | false =>
          rcases List.mem_cons.mp hEntry with rfl | hRest
          · rcases exists_object_ofMembers subject entry.1 hMem with
              ⟨q, hq, hObject⟩
            exact ⟨q, List.mem_append.mpr (.inl hq), hObject⟩
          · rcases ih hRest supply with ⟨q, hq, hObject⟩
            exact ⟨q, List.mem_append.mpr (.inr hq), hObject⟩

end Members

end Quad

namespace ListForest

------------------------------------------------------------
-- Late uses
------------------------------------------------------------

/-
  No value is lost: once the outermost mapping of a chain was
  flushed, all that are chained to it refuse further uses, and
  what was added before is returned.
-/
def LateUsesRefused : Prop :=
  ∀ (n : Nat) (h : History n) (m : Nat),
    h.parent? m = none → h.firstFlush? m ≠ none →
      (∀ k : Fin n, h.Chained k m → ∀ u, ∃ fault,
        h.forest.use k u = .error fault ∧ fault.IsInvariant) ∧
      ∀ (subject : Subject) supply,
        h.firstFlush? m = some (some subject.toTerm, supply) →
          ∀ u ∈ h.uses m, ∀ v, u.value? = some v →
            ∃ q ∈ h.returned m, q.object = v

namespace History

variable {n : Nat} {h : History n} {m : Nat}

/- A late use that is taken joins the late uses. -/
theorem lateUses_use
    (hFlushed : h.firstFlush? m ≠ none)
    {k : Fin n}
    (hTree : h.outermost k = m)
    {u : Use}
    {f : ListForest Iri Object}
    (hTaken : h.forest.use k u = .ok f) :
    (h.use k u).lateUses m = h.lateUses m ++ [u] := by
  have hLate : (h.firstFlush? m).isSome = true :=
    Option.isSome_iff_ne_none.mpr hFlushed
  have hNew : h.taken k u m = [(u, true)] := by
    unfold taken
    rw [if_pos ⟨hTree, by rw [hTaken]; rfl⟩, hLate]
  unfold lateUses
  rw [accepted, hNew, List.filter_append, List.map_append]
  rfl

/-
  Once the outermost mapping of a chain was flushed, those
  chained to it refuse uses exactly if they were flushed
  themselves; what they take joins the late uses. All flushes
  of the chain return the lists of the early uses, with every
  value that was added, and none of the late ones, which still
  are in the lists; and further flushes return nothing.
-/
theorem late_uses_not_returned
    (hOuter : h.parent? m = none)
    (hFlushed : h.firstFlush? m ≠ none) :
    (∀ k : Fin n, h.Chained k m → ∀ u,
      (h.firstFlush? k ≠ none →
        h.forest.use k u =
          .error (.listFlushed u.predicate.text)) ∧
      (h.firstFlush? k = none →
        (∃ f, h.forest.use k u = .ok f) ∧
          (h.use k u).lateUses m = h.lateUses m ++ [u])) ∧
    h.forest.lists m =
      Use.lists (h.earlyUses m ++ h.lateUses m) ∧
    (∀ (subject : Subject) supply,
      h.firstFlush? m = some (some subject.toTerm, supply) →
        h.returned m =
          (Quad.ofLists (h.collects m) subject
            (Use.lists (h.earlyUses m)) supply).1 ∧
        ∀ u ∈ h.earlyUses m, ∀ v, u.value? = some v →
          ∃ q ∈ h.returned m, q.object = v) ∧
    ∀ k, h.Chained k m → ∀ subject supply,
      (h.forest.flush k subject supply).1 = .ok [] := by
  refine ⟨?_, ?_, ?_, ?_⟩
  · intro k hChained u
    have hTree := outermost_eq_iff.mpr ⟨hChained, hOuter⟩
    constructor
    · intro hSelf
      apply use_of_flushed
      rw [flushed_forest]
      exact Option.isSome_iff_ne_none.mpr hSelf
    · intro hSelf
      rcases (use_ok_iff h k u).mpr hSelf with ⟨f, hTaken⟩
      exact ⟨⟨f, hTaken⟩, lateUses_use hFlushed hTree hTaken⟩
  · rw [lists_eq, outermost_of_parent?_eq_none hOuter, uses_eq_append]
  · intro subject supply hFlush
    have hReturned := returned_eq hOuter hFlush
    refine ⟨hReturned, ?_⟩
    intro u hMem v hValue
    rcases Use.mem_lists hMem hValue with ⟨entry, hEntry, hv⟩
    rw [hReturned]
    exact Quad.exists_object_ofLists _ subject hEntry hv supply
  · intro k hChained subject supply
    cases hParent : h.parent? k with
    | some parent =>
        exact flush_of_parent? (by simp [hParent]) subject supply
    | none =>
        have hSame : k = m := by
          rw [← outermost_eq_iff.mpr ⟨hChained, hOuter⟩,
            outermost_of_parent?_eq_none hParent]
        rw [hSame]
        exact flush_of_firstFlush? hFlushed subject supply

end History

/- A mapping that was flushed, with a chained one that was not. -/
def flushedAbove : History 2 :=
  .flush
    (.child
      (.use (.root .start false) (Fin.last 0)
        ⟨⟨"http://ex.org/item"⟩, some (.literal (.plain "one"))⟩)
      (Fin.last 0))
    (Fin.last 0).castSucc (some (.iri ⟨"http://ex/#list"⟩)) .empty

/- A use that comes after the flush. -/
def lateUse : Use :=
  ⟨⟨"http://ex.org/item"⟩, some (.literal (.plain "two"))⟩

/- It is taken, and its value is not returned. -/
theorem flushedAbove_loses_value :
    flushedAbove.parent? 0 = none ∧
      flushedAbove.firstFlush? 0 =
        some (some (Subject.iri ⟨"http://ex/#list"⟩).toTerm, .empty) ∧
      flushedAbove.Chained 1 0 ∧
      (∃ f, flushedAbove.forest.use 1 lateUse = .ok f) ∧
      (flushedAbove.use (Fin.last 1) lateUse).lateUses 0 = [lateUse] ∧
      flushedAbove.returned 0 =
        [.triple (.iri ⟨"http://ex/#list"⟩) ⟨"http://ex.org/item"⟩
          (.literal (.plain "one"))] := by
  have hChained : flushedAbove.Chained 1 0 :=
    (History.outermost_eq_iff.mp
      (rfl : flushedAbove.outermost 1 = 0)).1
  have hFlush :
      flushedAbove.firstFlush? 0 =
        some (some (Subject.iri ⟨"http://ex/#list"⟩).toTerm, .empty) :=
    rfl
  have hFlushed : flushedAbove.firstFlush? 0 ≠ none := by
    rw [hFlush]
    exact Option.some_ne_none _
  have hOuter : flushedAbove.parent? 0 = none := rfl
  rcases History.late_uses_not_returned hOuter hFlushed with
    ⟨hUses, _, hReturned, _⟩
  rcases (hUses (Fin.last 1) hChained lateUse).2 rfl with ⟨hTaken, hLate⟩
  refine ⟨hOuter, hFlush, hChained, hTaken, hLate, ?_⟩
  rw [(hReturned (.iri ⟨"http://ex/#list"⟩) .empty hFlush).1]
  decide

theorem not_lateUsesRefused :
    ¬ LateUsesRefused := by
  intro hRefused
  have hChained : flushedAbove.Chained 1 0 :=
    (History.outermost_eq_iff.mp
      (rfl : flushedAbove.outermost 1 = 0)).1
  rcases (hRefused 2 flushedAbove 0 rfl (Option.some_ne_none _)).1
      (Fin.last 1) hChained lateUse with
    ⟨fault, hUse, _⟩
  cases hUse

end ListForest
end LinkedMarkup
