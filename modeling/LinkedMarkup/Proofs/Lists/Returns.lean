import LinkedMarkup.Proofs.Lists.Histories

/-
  This file proves what the flushes of mappings return over a
  history. Those of a tree return the lists that its uses had
  made when its outermost mapping was first flushed, and they
  return them once. If nothing is used after that, they are
  the lists of all uses.

  Key definitions include:
    * `Quad.ofUses`
    * `ListForest.History.returned`
    * `ListForest.History.Orderly`

  Main declarations:
    * `ListForest.History.uses_eq_append`
    * `ListForest.History.returned_eq`
    * `ListForest.History.orderly_returns_uses`
-/

namespace LinkedMarkup

------------------------------------------------------------
-- Quads of uses
------------------------------------------------------------

namespace Quad

open ListForest

/-
  The quads of uses by member: the values of each predicate,
  in order of first use, or the empty list if it has none.
-/
def ofUses
    (subject : Subject)
    (uses : List Use) : List Quad :=
  (Use.predicates uses).flatMap
    (fun p => ofMembers subject p (Use.values uses p))

theorem ofLists_members
    (subject : Subject)
    (lists : List (Iri × List Object))
    (supply : NodeSupply) :
    (ofLists false subject lists supply).1 =
      lists.flatMap (fun entry => ofMembers subject entry.1 entry.2) := by
  induction lists with
  | nil => rfl
  | cons entry rest ih =>
      rw [List.flatMap_cons, ← ih]
      rfl

theorem ofLists_uses
    (subject : Subject)
    (uses : List Use)
    (supply : NodeSupply) :
    (ofLists false subject (Use.lists uses) supply).1 =
      ofUses subject uses := by
  rw [ofLists_members]
  unfold Use.lists ofUses
  rw [List.flatMap_map]

end Quad

namespace ListForest
namespace History

------------------------------------------------------------
-- Early and late uses
------------------------------------------------------------

section Uses

variable {n : Nat} {h : History n} {m : Nat}

/- A use is late if the outermost mapping was flushed before. -/
theorem late_of_taken
    {list : Fin n}
    {u : Use}
    {x : Use × Bool}
    (hMem : x ∈ h.taken list u m) :
    x.2 = (h.firstFlush? m).isSome := by
  unfold taken at hMem
  split at hMem
  · rw [List.mem_singleton.mp hMem]
  · cases hMem

/- There are late uses only of what was flushed. -/
theorem firstFlush?_of_late
    {x : Use × Bool}
    (hMem : x ∈ h.accepted m)
    (hLate : x.2 = true) :
    (h.firstFlush? m).isSome = true := by
  induction h with
  | start => cases hMem
  | root past collects ih => exact ih hMem
  | child past list ih => exact ih hMem
  | use past list u ih =>
      rcases List.mem_append.mp hMem with hOld | hNew
      · exact ih hOld
      · exact (late_of_taken hNew).symm.trans hLate
  | flush past list subject supply ih =>
      unfold firstFlush?
      rw [Option.isSome_or, ih hMem]
      rfl

/- After a late use, all are late. -/
theorem sorted_accepted
    (h : History n)
    (m : Nat) :
    (h.accepted m).Pairwise (fun x y => x.2 = true → y.2 = true) := by
  induction h with
  | start => exact List.Pairwise.nil
  | root past collects ih => exact ih
  | child past list ih => exact ih
  | use past list u ih =>
      refine List.pairwise_append.mpr ⟨ih, ?_, ?_⟩
      · unfold taken
        split
        · exact List.pairwise_singleton _ _
        · exact List.Pairwise.nil
      · intro x hOld y hNew hLate
        exact (late_of_taken hNew).trans (firstFlush?_of_late hOld hLate)
  | flush past list subject supply ih => exact ih

/- The uses are the early ones, and then the late ones. -/
theorem uses_eq_append
    (h : History n)
    (m : Nat) :
    h.uses m = h.earlyUses m ++ h.lateUses m := by
  have hSplit :
      ∀ xs : List (Use × Bool),
        xs.Pairwise (fun x y => x.2 = true → y.2 = true) →
          xs.filter (fun x => !x.2) ++ xs.filter (fun x => x.2) = xs := by
    intro xs hSorted
    induction xs with
    | nil => rfl
    | cons x rest ih =>
        rw [List.pairwise_cons] at hSorted
        cases hLate : x.2 with
        | false => simpa [hLate] using ih hSorted.2
        | true =>
            have hNone : rest.filter (fun y => !y.2) = [] := by
              rw [List.filter_eq_nil_iff]
              intro y hMem
              simp [hSorted.1 y hMem hLate]
            have hAll : rest.filter (fun y => y.2) = rest := by
              rw [List.filter_eq_self]
              exact fun y hMem => hSorted.1 y hMem hLate
            simp [hLate, hNone, hAll]
  unfold uses earlyUses lateUses
  rw [← List.map_append, hSplit _ (sorted_accepted h m)]

/- Nothing is late as long as there was no flush. -/
theorem lateUses_of_open
    (hOpen : h.firstFlush? m = none) :
    h.lateUses m = [] := by
  unfold lateUses
  rw [List.map_eq_nil_iff, List.filter_eq_nil_iff]
  intro x hMem hLate
  have hFlushed := firstFlush?_of_late hMem hLate
  rw [hOpen] at hFlushed
  cases hFlushed

theorem earlyUses_of_open
    (hOpen : h.firstFlush? m = none) :
    h.earlyUses m = h.uses m := by
  rw [uses_eq_append, lateUses_of_open hOpen, List.append_nil]

/- A use after the flush is not among the early ones. -/
theorem earlyUses_use
    (hFlushed : h.firstFlush? m ≠ none)
    (list : Fin n)
    (u : Use) :
    (h.use list u).earlyUses m = h.earlyUses m := by
  have hNone : (h.taken list u m).filter (fun x => !x.2) = [] := by
    rw [List.filter_eq_nil_iff]
    intro x hMem
    rw [late_of_taken hMem, Option.isSome_iff_ne_none.mpr hFlushed]
    simp
  unfold earlyUses
  rw [accepted, List.filter_append, hNone, List.append_nil]

end Uses

------------------------------------------------------------
-- Returned quads
------------------------------------------------------------

section Returns

variable {n : Nat}

/-
  The quads that the flushes of an outermost mapping, and of
  those in its tree, returned in turn.
-/
def returned {n : Nat} :
    History n → Nat → List Quad
  | start, _ => []
  | root past _, m => past.returned m
  | child past _, m => past.returned m
  | use past _ _, m => past.returned m
  | flush past list subject supply, m =>
      past.returned m ++
        if past.outermost list = m then
          (past.forest.flush list subject supply).1.toOption.getD []
        else
          []

/- A mapping in another's tree returns nothing. -/
theorem flush_of_parent?
    {h : History n}
    {k : Nat}
    (hChained : h.parent? k ≠ none)
    (subject : Option Term)
    (supply : NodeSupply) :
    (h.forest.flush k subject supply).1 = .ok [] := by
  cases hFlushed : h.forest.flushed k with
  | true => rw [flush_of_flushed hFlushed]
  | false =>
      rw [flush_of_lists_eq_nil hFlushed (lists_of_parent? hChained)]

/- A mapping that was flushed returns nothing more. -/
theorem flush_of_firstFlush?
    {h : History n}
    {k : Nat}
    (hFlushed : h.firstFlush? k ≠ none)
    (subject : Option Term)
    (supply : NodeSupply) :
    (h.forest.flush k subject supply).1 = .ok [] := by
  rw [flush_of_flushed]
  rw [flushed_forest]
  exact Option.isSome_iff_ne_none.mpr hFlushed

/- The first flush of a mapping returns the lists that it holds. -/
theorem flush_of_open
    {h : History n}
    {m : Nat}
    (hOpen : h.firstFlush? m = none)
    (subject : Subject)
    (supply : NodeSupply) :
    (h.forest.flush m (some subject.toTerm) supply).1 =
      .ok (Quad.ofLists (h.collects m) subject
        (Use.lists (h.uses m)) supply).1 := by
  have hFlushed : h.forest.flushed m = false := by
    rw [flushed_forest, hOpen]
    rfl
  rw [flush_eq hFlushed, collects_forest, lists_forest]

/- Before its outermost mapping is flushed, a tree returns nothing. -/
theorem returned_of_open
    {h : History n}
    {m : Nat}
    (hOpen : h.firstFlush? m = none) :
    h.returned m = [] := by
  induction h with
  | start => rfl
  | root past collects ih => exact ih hOpen
  | child past list ih => exact ih hOpen
  | use past list u ih => exact ih hOpen
  | flush past list subject supply ih =>
      unfold firstFlush? at hOpen
      rcases Option.or_eq_none_iff.mp hOpen with ⟨hBefore, hNow⟩
      unfold returned
      rw [ih hBefore, List.nil_append]
      split
      · rename_i hTree
        have hChained : past.parent? list ≠ none := by
          intro hOuter
          rw [outermost_of_parent?_eq_none hOuter] at hTree
          rw [if_pos hTree] at hNow
          cases hNow
        rw [flush_of_parent? hChained]
        rfl
      · rfl

/-
  Then it returns the lists of the uses that were accepted
  before, and it does so once, whatever is done afterwards.
-/
theorem returned_eq
    {h : History n}
    {m : Nat}
    {subject : Subject}
    {supply : NodeSupply}
    (hOuter : h.parent? m = none)
    (hFlush : h.firstFlush? m = some (some subject.toTerm, supply)) :
    h.returned m =
      (Quad.ofLists (h.collects m) subject
        (Use.lists (h.earlyUses m)) supply).1 := by
  induction h with
  | start => cases hFlush
  | @root k past collects ih =>
      have hNe : ¬ m = k := by
        rintro rfl
        unfold firstFlush? at hFlush
        rw [firstFlush?_of_le (Nat.le_refl _)] at hFlush
        cases hFlush
      unfold History.collects
      rw [if_neg hNe]
      exact ih hOuter hFlush
  | @child k past list ih =>
      unfold parent? at hOuter
      split at hOuter
      · cases hOuter
      · rename_i hNe
        unfold History.collects
        rw [if_neg hNe]
        exact ih hOuter hFlush
  | use past list u ih =>
      have hFlushed : past.firstFlush? m ≠ none := by
        intro hNone
        exact Option.some_ne_none _ (hFlush.symm.trans hNone)
      rw [earlyUses_use hFlushed]
      exact ih hOuter hFlush
  | flush past list s t ih =>
      change past.parent? m = none at hOuter
      unfold firstFlush? at hFlush
      unfold returned
      change _ = (Quad.ofLists (past.collects m) subject
        (Use.lists (past.earlyUses m)) supply).1
      cases hBefore : past.firstFlush? m with
      | none =>
          -- This is the first flush, so nothing was returned before.
          rw [hBefore, Option.none_or] at hFlush
          split at hFlush
          · rename_i hList
            cases hFlush
            rw [returned_of_open hBefore, List.nil_append, hList,
              outermost_of_parent?_eq_none hOuter, if_pos rfl,
              flush_of_open hBefore, earlyUses_of_open hBefore]
            rfl
          · cases hFlush
      | some first =>
          rw [hBefore, Option.some_or] at hFlush
          rw [ih hOuter (hBefore.trans hFlush)]
          split
          · rename_i hTree
            have hNothing :
                (past.forest.flush list s t).1 = .ok [] := by
              cases hParent : past.parent? list with
              | some parent =>
                  exact flush_of_parent? (by simp [hParent]) s t
              | none =>
                  apply flush_of_firstFlush?
                  rw [outermost_of_parent?_eq_none hParent] at hTree
                  rw [hTree, hBefore]
                  exact Option.some_ne_none _
            rw [hNothing]
            exact List.append_nil _
          · exact List.append_nil _

------------------------------------------------------------
-- Orderly histories
------------------------------------------------------------

/- Nothing is used after its outermost mapping was flushed. -/
def Orderly {n : Nat} :
    History n → Prop
  | start => True
  | root past _ => past.Orderly
  | child past _ => past.Orderly
  | use past list _ =>
      past.Orderly ∧ past.firstFlush? (past.outermost list) = none
  | flush past _ _ _ => past.Orderly

theorem lateUses_of_orderly
    {h : History n}
    (hOrderly : h.Orderly)
    (m : Nat) :
    h.lateUses m = [] := by
  induction h with
  | start => rfl
  | root past collects ih => exact ih hOrderly
  | child past list ih => exact ih hOrderly
  | use past list u ih =>
      have hNone : (past.taken list u m).filter (fun x => x.2) = [] := by
        unfold taken
        split
        · rename_i hTree
          have hOpen := hOrderly.2
          rw [hTree.1] at hOpen
          simp [hOpen]
        · rfl
      unfold lateUses
      rw [accepted, List.filter_append, hNone, List.append_nil]
      exact ih hOrderly.1
  | flush past list subject supply ih => exact ih hOrderly

/- What a mapping sees are the predicates used in its tree. -/
theorem contains_iff
    {h : History n}
    {k m : Nat}
    (hChained : h.Chained k m)
    (hOuter : h.parent? m = none)
    (p : Iri) :
    h.forest.contains k p = true ↔ ∃ u ∈ h.uses m, u.predicate = p := by
  unfold contains
  rw [lists_eq, outermost_eq_iff.mpr ⟨hChained, hOuter⟩,
    isSome_members?_iff, Use.keys_lists, Use.mem_predicates]

/-
  Mappings take uses until they are flushed. If they write
  their lists by member, and are used before the outermost
  one is flushed only, that one returns, when it is flushed,
  the values that were added in its tree, by predicate in
  order of first use. Those chained to another, or flushed
  before, return nothing; so that these values are all that a
  tree returns in a history. All its mappings contain the
  predicates that were used in it.
-/
theorem orderly_returns_uses
    {h : History n}
    {m : Nat}
    (hOrderly : h.Orderly)
    (hOuter : h.parent? m = none)
    (hMembers : h.collects m = false) :
    (∀ k u,
      (∃ f, h.forest.use k u = .ok f) ↔ h.firstFlush? k = none) ∧
    (∀ (subject : Subject) supply,
      h.firstFlush? m = none →
        (h.forest.flush m (some subject.toTerm) supply).1 =
          .ok (Quad.ofUses subject (h.uses m))) ∧
    (∀ k subject supply,
      h.parent? k ≠ none ∨ h.firstFlush? k ≠ none →
        (h.forest.flush k subject supply).1 = .ok []) ∧
    (∀ (subject : Subject) supply,
      h.firstFlush? m = some (some subject.toTerm, supply) →
        h.returned m = Quad.ofUses subject (h.uses m)) ∧
    ∀ k p,
      h.Chained k m →
        (h.forest.contains k p = true ↔
          ∃ u ∈ h.uses m, u.predicate = p) := by
  refine ⟨use_ok_iff h, ?_, ?_, ?_, ?_⟩
  · intro subject supply hOpen
    rw [flush_of_open hOpen, hMembers, Quad.ofLists_uses]
  · intro k subject supply hSilent
    rcases hSilent with hChained | hFlushed
    · exact flush_of_parent? hChained subject supply
    · exact flush_of_firstFlush? hFlushed subject supply
  · intro subject supply hFlush
    rw [returned_eq hOuter hFlush, hMembers, Quad.ofLists_uses,
      uses_eq_append, lateUses_of_orderly hOrderly, List.append_nil]
  · intro k p hChained
    exact contains_iff hChained hOuter p

end Returns

/- Three lists, one of them empty, filled through three mappings. -/
def filledBelow : History 3 :=
  .flush
    (.flush
      (.use
        (.use
          (.use
            (.child
              (.child
                (.use (.root .start false) (Fin.last 0)
                  ⟨⟨"http://ex.org/item"⟩, some (.literal (.plain "one"))⟩)
                (Fin.last 0))
              (Fin.last 1))
            (Fin.last 2) ⟨⟨"http://ex.org/other"⟩, none⟩)
          (Fin.last 2)
          ⟨⟨"http://ex.org/item"⟩, some (.literal (.plain "two"))⟩)
        (Fin.last 1).castSucc
        ⟨⟨"http://ex.org/last"⟩, some (.literal (.plain "x"))⟩)
      (Fin.last 1).castSucc (some (.iri ⟨"http://ex/#list"⟩)) .empty)
    (Fin.last 0).castSucc.castSucc (some (.iri ⟨"http://ex/#list"⟩))
    .empty

theorem filledBelow_returns_uses :
    filledBelow.Orderly ∧
      filledBelow.parent? 0 = none ∧
      filledBelow.collects 0 = false ∧
      filledBelow.firstFlush? 0 =
        some (some (Subject.iri ⟨"http://ex/#list"⟩).toTerm, .empty) ∧
      filledBelow.returned 0 =
        [.triple (.iri ⟨"http://ex/#list"⟩) ⟨"http://ex.org/item"⟩
            (.literal (.plain "one")),
          .triple (.iri ⟨"http://ex/#list"⟩) ⟨"http://ex.org/item"⟩
            (.literal (.plain "two")),
          .triple (.iri ⟨"http://ex/#list"⟩) ⟨"http://ex.org/other"⟩
            (.iri Rdf.nil),
          .triple (.iri ⟨"http://ex/#list"⟩) ⟨"http://ex.org/last"⟩
            (.literal (.plain "x"))] ∧
      filledBelow.Chained 2 0 ∧
      filledBelow.forest.contains 2 ⟨"http://ex.org/last"⟩ = true := by
  have hOrderly : filledBelow.Orderly := by
    exact ⟨⟨⟨⟨trivial, rfl⟩, rfl⟩, rfl⟩, rfl⟩
  have hChained : filledBelow.Chained 2 0 :=
    (outermost_eq_iff.mp (rfl : filledBelow.outermost 2 = 0)).1
  rcases orderly_returns_uses hOrderly (m := 0) rfl rfl with
    ⟨_, _, _, hReturned, hContains⟩
  refine ⟨hOrderly, rfl, rfl, rfl, ?_, hChained, ?_⟩
  · rw [hReturned (.iri ⟨"http://ex/#list"⟩) .empty rfl]
    decide
  · exact (hContains 2 _ hChained).mpr
      ⟨⟨⟨"http://ex.org/last"⟩, some (.literal (.plain "x"))⟩,
        by decide, rfl⟩

end History
end ListForest
end LinkedMarkup
