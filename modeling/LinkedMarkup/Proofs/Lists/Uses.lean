import LinkedMarkup.Proofs.Lists.Contents
import Mathlib.Data.List.Induction

/-
  This file defines uses of lists, and proves what lists come
  of them: one for every predicate that was used, in order of
  first use, with the values that were added to it, in order.

  Key definitions include:
    * `ListForest.Use`
    * `ListForest.Use.predicates`
    * `ListForest.Use.values`
    * `ListForest.Use.grown`
    * `ListForest.Use.lists`

  Main declarations:
    * `ListForest.Use.nodup_keys_lists`
    * `ListForest.Use.grown_lists`
-/

namespace LinkedMarkup
namespace ListForest

------------------------------------------------------------
-- Uses of lists
------------------------------------------------------------

/-
  A use of a list: its predicate, and the value that was
  added to it, if one was.
-/
structure Use where
  predicate : Iri
  value? : Option Object
  deriving DecidableEq, Repr

namespace Use

/- The predicates of uses, in order of first use. -/
def predicates
    (uses : List Use) : List Iri :=
  (uses.map Use.predicate).eraseDups

/- The values that uses added for a predicate, in order. -/
def values
    (uses : List Use)
    (p : Iri) : List Object :=
  uses.filterMap (fun u => if u.predicate = p then u.value? else none)

/- The lists after one more use. -/
def grown
    (u : Use)
    (lists : List (Iri × List Object)) : List (Iri × List Object) :=
  match u.value? with
  | none => opened lists u.predicate
  | some v => extended lists u.predicate v

/- The lists that come of uses. -/
def lists
    (uses : List Use) : List (Iri × List Object) :=
  (predicates uses).map (fun p => (p, values uses p))

theorem mem_predicates
    {uses : List Use}
    {p : Iri} :
    p ∈ predicates uses ↔ ∃ u ∈ uses, u.predicate = p := by
  unfold predicates
  rw [List.mem_eraseDups, List.mem_map]

/- A use comes last unless its predicate was used before. -/
theorem predicates_concat
    (uses : List Use)
    (u : Use) :
    predicates (uses ++ [u]) =
      if u.predicate ∈ predicates uses then
        predicates uses
      else
        predicates uses ++ [u.predicate] := by
  unfold predicates
  rw [List.map_append, List.eraseDups_append]
  by_cases hMem : u.predicate ∈ uses.map Use.predicate
  · have hNone : [u.predicate].removeAll (uses.map Use.predicate) = [] := by
      unfold List.removeAll
      rw [List.filter_cons_of_neg (by simpa using hMem), List.filter_nil]
    rw [if_pos (List.mem_eraseDups.mpr hMem), List.map_singleton, hNone]
    exact List.append_nil _
  · have hNew :
        [u.predicate].removeAll (uses.map Use.predicate) =
          [u.predicate] := by
      unfold List.removeAll
      rw [List.filter_cons_of_pos (by simpa using hMem), List.filter_nil]
    rw [if_neg (fun hErased => hMem (List.mem_eraseDups.mp hErased)),
      List.map_singleton, hNew]
    rfl

theorem nodup_predicates
    (uses : List Use) :
    (predicates uses).Nodup := by
  induction uses using List.reverseRecOn with
  | nil => exact List.nodup_nil
  | append_singleton uses u ih =>
      rw [predicates_concat]
      split
      · exact ih
      · rename_i hNew
        refine List.nodup_append.mpr ⟨ih, by simp, ?_⟩
        intro p hOld q hLast hEq
        rw [List.mem_singleton.mp hLast] at hEq
        exact hNew (hEq ▸ hOld)

theorem values_concat
    (uses : List Use)
    (u : Use)
    (p : Iri) :
    values (uses ++ [u]) p =
      if u.predicate = p then
        values uses p ++ u.value?.toList
      else
        values uses p := by
  unfold values
  rw [List.filterMap_append]
  by_cases hEq : u.predicate = p
  · rw [if_pos hEq]
    cases hValue : u.value? with
    | none => simp [hEq, hValue]
    | some v => simp [hEq, hValue]
  · simp [hEq]

/- A predicate that was not used has no values. -/
theorem values_of_not_mem
    {uses : List Use}
    {p : Iri}
    (h : p ∉ predicates uses) :
    values uses p = [] := by
  unfold values
  rw [List.filterMap_eq_nil_iff]
  intro u hMem
  rw [if_neg]
  intro hEq
  exact h (mem_predicates.mpr ⟨u, hMem, hEq⟩)

theorem keys_lists
    (uses : List Use) :
    (lists uses).map Prod.fst = predicates uses := by
  unfold lists
  rw [List.map_map]
  exact List.map_id _

theorem nodup_keys_lists
    (uses : List Use) :
    ((lists uses).map Prod.fst).Nodup := by
  rw [keys_lists]
  exact nodup_predicates uses

/- A value that was added is a member of its predicate's list. -/
theorem mem_lists
    {uses : List Use}
    {u : Use}
    (hMem : u ∈ uses)
    {v : Object}
    (hValue : u.value? = some v) :
    ∃ entry ∈ lists uses, v ∈ entry.2 := by
  refine ⟨(u.predicate, values uses u.predicate), ?_, ?_⟩
  · exact List.mem_map_of_mem (mem_predicates.mpr ⟨u, hMem, rfl⟩)
  · refine List.mem_filterMap.mpr ⟨u, hMem, ?_⟩
    rw [if_pos rfl, hValue]

/- Using a predicate without a value opens its list. -/
theorem opened_lists
    (uses : List Use)
    (p : Iri) :
    opened (lists uses) p = lists (uses ++ [⟨p, none⟩]) := by
  have hValues :
      ∀ q, values (uses ++ [⟨p, none⟩]) q = values uses q := by
    intro q
    rw [values_concat]
    simp
  have hSome :
      (members? (lists uses) p).isSome = true ↔ p ∈ predicates uses := by
    rw [isSome_members?_iff, keys_lists]
  unfold opened
  by_cases hMem : p ∈ predicates uses
  · rcases Option.isSome_iff_exists.mp (hSome.mpr hMem) with
      ⟨members, hMembers⟩
    rw [hMembers]
    simp only [lists, predicates_concat, hMem, if_true, hValues]
  · have hNone : members? (lists uses) p = none := by
      rw [← Option.not_isSome_iff_eq_none]
      exact fun h => hMem (hSome.mp h)
    rw [hNone]
    simp only [lists, predicates_concat, hMem, if_false, hValues,
      List.map_append, List.map_cons, List.map_nil,
      values_of_not_mem hMem]

/- Adding a value to one of several lists. -/
theorem extended_map
    {ps : List Iri}
    (hNodup : ps.Nodup)
    (g : Iri → List Object)
    (p : Iri)
    (v : Object) :
    extended (ps.map (fun q => (q, g q))) p v =
      if p ∈ ps then
        ps.map (fun q => (q, if p = q then g q ++ [v] else g q))
      else
        ps.map (fun q => (q, g q)) ++ [(p, [v])] := by
  induction ps with
  | nil => simp [extended]
  | cons q rest ih =>
      rw [List.nodup_cons] at hNodup
      by_cases hEq : q = p
      · subst hEq
        have hRest :
            ∀ r ∈ rest,
              (r, if q = r then g r ++ [v] else g r) = (r, g r) := by
          intro r hMem
          rw [if_neg]
          rintro rfl
          exact hNodup.1 hMem
        simp [extended, List.map_congr_left hRest]
      · have hNe : ¬ p = q := fun h => hEq h.symm
        rw [List.map_cons, extended, if_neg hEq, ih hNodup.2]
        by_cases hMem : p ∈ rest
        · simp [hMem, hNe]
        · simp [hMem, hNe]

/- Using a predicate with a value adds the value to its list. -/
theorem extended_lists
    (uses : List Use)
    (p : Iri)
    (v : Object) :
    extended (lists uses) p v = lists (uses ++ [⟨p, some v⟩]) := by
  have hValues :
      ∀ q, values (uses ++ [⟨p, some v⟩]) q =
        if p = q then values uses q ++ [v] else values uses q := by
    intro q
    rw [values_concat]
    rfl
  unfold lists
  rw [extended_map (nodup_predicates uses), predicates_concat]
  by_cases hMem : p ∈ predicates uses
  · simp only [hMem, if_true, hValues]
  · have hOld :
        ∀ q ∈ predicates uses,
          (q, values uses q) =
            (q, if p = q then values uses q ++ [v] else values uses q) := by
      intro q hq
      rw [if_neg]
      rintro rfl
      exact hMem hq
    simp only [hMem, if_false, hValues, List.map_append,
      List.map_cons, List.map_nil, if_true, values_of_not_mem hMem,
      List.nil_append, List.map_congr_left hOld]

/- Each use makes what the lists of all of them are. -/
theorem grown_lists
    (uses : List Use)
    (u : Use) :
    u.grown (lists uses) = lists (uses ++ [u]) := by
  rcases u with ⟨p, value⟩
  cases value with
  | none => exact opened_lists uses p
  | some v => exact extended_lists uses p v

end Use

end ListForest
end LinkedMarkup
