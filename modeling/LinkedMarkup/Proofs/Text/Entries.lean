import LinkedMarkup.Text.Entries

/-
  This file proves what maps from texts to texts hold once
  entries are added: a key that is there keeps its place, and
  maps that are added one after the other may be added first
  to each other.

  Key definitions include:
    * `Entries.keys`

  Main declarations:
    * `Entries.has_merge`
    * `Entries.merge_set`
    * `Entries.merge_merge`
    * `Entries.mem_of_mem_merge`
    * `Entries.get?_merge`
    * `Entries.merge_eq_append`
-/

namespace LinkedMarkup
namespace Entries

------------------------------------------------------------
-- Single entries
------------------------------------------------------------

theorem get?_set
    (entries : Entries)
    (key value other : String) :
    get? (set entries key value) other =
      if key = other then some value else get? entries other := by
  induction entries with
  | nil => simp [set, get?]
  | cons entry rest ih =>
      rcases entry with ⟨k, v⟩
      by_cases hKey : k = key
      · subst hKey
        by_cases hOther : k = other <;> simp [set, get?, hOther]
      · by_cases hOther : k = other
        · subst hOther
          have hNe : ¬ key = k := fun hEq => hKey hEq.symm
          simp [set, get?, hKey, hNe]
        · simp [set, get?, hKey, hOther, ih]

theorem has_set
    (entries : Entries)
    (key value other : String) :
    has (set entries key value) other =
      (decide (key = other) || has entries other) := by
  unfold has
  rw [get?_set]
  by_cases hOther : key = other <;> simp [hOther]

/- What a set entry leaves is that entry, or was there before. -/
theorem mem_of_mem_set
    {entries : Entries}
    {key value : String}
    {entry : String × String}
    (h : entry ∈ set entries key value) :
    entry = (key, value) ∨ entry ∈ entries := by
  induction entries with
  | nil => exact .inl (List.mem_singleton.mp h)
  | cons first rest ih =>
      rcases first with ⟨k, v⟩
      unfold set at h
      split at h
      · next hKey =>
          rcases List.mem_cons.mp h with hFirst | hRest
          · exact .inl (by rw [hFirst, hKey])
          · exact .inr (List.mem_cons_of_mem _ hRest)
      · rcases List.mem_cons.mp h with hFirst | hRest
        · exact .inr (by rw [hFirst]; exact List.mem_cons_self)
        · exact (ih hRest).imp_right (List.mem_cons_of_mem _)

/- A key keeps its value where others are left out. -/
theorem get?_filter_of_pos
    {p : String → Bool}
    {key : String}
    (h : p key = true)
    (entries : Entries) :
    get? (entries.filter (fun entry => p entry.1)) key =
      get? entries key := by
  induction entries with
  | nil => rfl
  | cons entry rest ih =>
      by_cases hEntry : p entry.1 = true
      · rw [List.filter_cons, if_pos hEntry]
        unfold get?
        rw [ih]
      · have hNe : ¬ entry.1 = key := by
          rintro rfl
          exact hEntry h
        rw [List.filter_cons, if_neg hEntry, ih]
        exact (if_neg hNe).symm

/- The keys of a map, in order. -/
def keys
    (entries : Entries) : List String :=
  entries.map Prod.fst

theorem has_eq_true_iff
    (entries : Entries)
    (key : String) :
    has entries key = true ↔ key ∈ keys entries := by
  unfold has keys
  induction entries with
  | nil => simp [get?]
  | cons entry rest ih =>
      rcases entry with ⟨k, v⟩
      by_cases hKey : k = key
      · simp [get?, hKey]
      · have hNe : ¬ key = k := fun hEq => hKey hEq.symm
        simp [get?, hKey, hNe, ih]

theorem nodup_keys_set
    {entries : Entries}
    (h : (keys entries).Nodup)
    (key value : String) :
    (keys (set entries key value)).Nodup := by
  induction entries with
  | nil => simp [set, keys]
  | cons entry rest ih =>
      rcases entry with ⟨k, v⟩
      have hParts : k ∉ keys rest ∧ (keys rest).Nodup :=
        List.nodup_cons.mp h
      by_cases hKey : k = key
      · simpa [set, hKey, keys] using h
      · have hNew : k ∉ keys (set rest key value) := by
          rw [← has_eq_true_iff, has_set]
          simpa [has_eq_true_iff, Ne.symm hKey] using hParts.1
        rw [set, if_neg hKey]
        exact List.nodup_cons.mpr ⟨hNew, ih hParts.2⟩

/- The last of two values for a key replaces the first. -/
theorem set_set
    (entries : Entries)
    (key first second : String) :
    set (set entries key first) key second =
      set entries key second := by
  induction entries with
  | nil => simp [set]
  | cons entry rest ih =>
      rcases entry with ⟨k, v⟩
      by_cases hKey : k = key <;> simp [set, hKey, ih]

/- A key that is there keeps its place whatever is added. -/
theorem set_comm
    {entries : Entries}
    {key other : String}
    (h : has entries key = true)
    (hNe : key ≠ other)
    (value more : String) :
    set (set entries key value) other more =
      set (set entries other more) key value := by
  induction entries with
  | nil => simp [has, get?] at h
  | cons entry rest ih =>
      rcases entry with ⟨k, v⟩
      by_cases hKey : k = key
      · subst hKey
        simp [set, hNe]
      · have hRest : has rest key = true := by
          simpa [has, get?, hKey] using h
        by_cases hOther : k = other
        · simp [set, hOther, Ne.symm hNe]
        · simp [set, hKey, hOther, ih hRest]

------------------------------------------------------------
-- Several entries
------------------------------------------------------------

/- Adding entries takes no key away. -/
theorem has_merge
    {entries : Entries}
    {key : String}
    (h : has entries key = true)
    (more : Entries) :
    has (merge entries more) key = true := by
  unfold merge
  induction more generalizing entries with
  | nil => exact h
  | cons entry rest ih =>
      apply ih
      rw [has_set, h, Bool.or_true]

/- A key that is there may be set before others are added. -/
theorem set_merge
    {entries more : Entries}
    {key : String}
    (h : has entries key = true)
    (hMore : key ∉ keys more)
    (value : String) :
    set (merge entries more) key value =
      merge (set entries key value) more := by
  unfold merge
  induction more generalizing entries with
  | nil => rfl
  | cons entry rest ih =>
      rcases entry with ⟨k, v⟩
      have hParts : key ≠ k ∧ key ∉ keys rest := by
        simpa [keys] using hMore
      have hHas : has (set entries k v) key = true := by
        rw [has_set, h, Bool.or_true]
      rw [List.foldl_cons, List.foldl_cons, ih hHas hParts.2,
        set_comm h hParts.1]

/- Setting an entry of what is added sets it after adding. -/
theorem merge_set
    {more : Entries}
    (hMore : (keys more).Nodup)
    (entries : Entries)
    (key value : String) :
    merge entries (set more key value) =
      set (merge entries more) key value := by
  induction more generalizing entries with
  | nil => rfl
  | cons entry rest ih =>
      rcases entry with ⟨k, v⟩
      have hParts : k ∉ keys rest ∧ (keys rest).Nodup :=
        List.nodup_cons.mp hMore
      by_cases hKey : k = key
      · subst hKey
        have hHas : has (set entries k v) k = true := by
          simp [has_set]
        have hSame := set_merge hHas hParts.1 value
        rw [set_set] at hSame
        rw [set, if_pos rfl]
        exact hSame.symm
      · rw [set, if_neg hKey]
        exact ih hParts.2 (set entries k v)

/- Maps may be added to each other before they are added. -/
theorem merge_merge
    {more : Entries}
    (hMore : (keys more).Nodup)
    (entries last : Entries) :
    merge entries (merge more last) =
      merge (merge entries more) last := by
  induction last generalizing more with
  | nil => rfl
  | cons entry rest ih =>
      have hStep := ih (nodup_keys_set hMore entry.1 entry.2)
      rw [merge_set hMore] at hStep
      exact hStep

theorem merge_append
    (entries more last : Entries) :
    merge entries (more ++ last) =
      merge (merge entries more) last :=
  List.foldl_append

------------------------------------------------------------
-- Distinct keys
------------------------------------------------------------

theorem mem_of_get?
    {entries : Entries}
    {key value : String}
    (h : get? entries key = some value) :
    (key, value) ∈ entries := by
  induction entries with
  | nil => cases h
  | cons entry rest ih =>
      rcases entry with ⟨k, v⟩
      by_cases hKey : k = key
      · subst hKey
        simp only [get?, if_true, Option.some.injEq] at h
        rw [h]
        exact List.mem_cons_self
      · simp only [get?, if_neg hKey] at h
        exact List.mem_cons_of_mem _ (ih h)

/- If keys are distinct, each entry is the one of its key. -/
theorem get?_eq_some_iff
    {entries : Entries}
    (hKeys : (keys entries).Nodup)
    {key value : String} :
    get? entries key = some value ↔ (key, value) ∈ entries := by
  refine ⟨mem_of_get?, fun hMem => ?_⟩
  induction entries with
  | nil => cases hMem
  | cons entry rest ih =>
      rcases entry with ⟨k, v⟩
      have hParts : k ∉ keys rest ∧ (keys rest).Nodup :=
        List.nodup_cons.mp hKeys
      rcases List.mem_cons.mp hMem with hFirst | hRest
      · cases hFirst
        simp [get?]
      · have hNe : ¬ k = key := by
          rintro rfl
          exact hParts.1 (List.mem_map_of_mem hRest)
        rw [get?, if_neg hNe]
        exact ih hParts.2 hRest

/- Distinct keys lose their values where entries are left out. -/
theorem get?_filter
    {entries : Entries}
    (hKeys : (keys entries).Nodup)
    (p : String × String → Bool)
    (key : String) :
    get? (entries.filter p) key =
      (get? entries key).filter (fun value => p (key, value)) := by
  have hFiltered : (keys (entries.filter p)).Nodup :=
    hKeys.sublist (List.filter_sublist.map _)
  ext value
  rw [get?_eq_some_iff hFiltered, List.mem_filter,
    Option.filter_eq_some_iff, get?_eq_some_iff hKeys]

theorem get?_append
    (entries more : Entries)
    (key : String) :
    get? (entries ++ more) key =
      (get? entries key).or (get? more key) := by
  induction entries with
  | nil => rfl
  | cons entry rest ih =>
      rcases entry with ⟨k, v⟩
      by_cases hKey : k = key <;> simp [get?, hKey, ih]

/- What merged entries hold was in one of both. -/
theorem mem_of_mem_merge
    {entries more : Entries}
    {entry : String × String}
    (h : entry ∈ merge entries more) :
    entry ∈ entries ∨ entry ∈ more := by
  unfold merge at h
  induction more generalizing entries with
  | nil => exact .inl h
  | cons first rest ih =>
      rw [List.foldl_cons] at h
      rcases ih h with hSet | hRest
      · rcases mem_of_mem_set hSet with rfl | hOld
        · exact .inr List.mem_cons_self
        · exact .inl hOld
      · exact .inr (List.mem_cons_of_mem _ hRest)

/- Entries with distinct keys take the place of what was there. -/
theorem get?_merge
    {more : Entries}
    (hMore : (keys more).Nodup)
    (entries : Entries)
    (key : String) :
    get? (merge entries more) key =
      (get? more key).or (get? entries key) := by
  unfold merge
  induction more generalizing entries with
  | nil => rfl
  | cons entry rest ih =>
      rcases entry with ⟨k, v⟩
      have hParts : k ∉ keys rest ∧ (keys rest).Nodup :=
        List.nodup_cons.mp hMore
      rw [List.foldl_cons, ih hParts.2, get?_set]
      by_cases hKey : k = key
      · subst hKey
        have hNone : get? rest k = none := by
          rw [← Option.not_isSome_iff_eq_none]
          exact fun hHas => hParts.1 ((has_eq_true_iff rest k).mp hHas)
        simp [get?, hNone]
      · simp [get?, hKey]

theorem set_of_not_mem
    {entries : Entries}
    {key : String}
    (h : key ∉ keys entries)
    (value : String) :
    set entries key value = entries ++ [(key, value)] := by
  induction entries with
  | nil => rfl
  | cons entry rest ih =>
      rcases entry with ⟨k, v⟩
      have hParts : key ≠ k ∧ key ∉ keys rest := by
        simpa [keys] using h
      rw [set, if_neg hParts.1.symm, ih hParts.2]
      rfl

/- Entries whose keys are all new come after the others. -/
theorem merge_eq_append
    {entries more : Entries}
    (h : (keys (entries ++ more)).Nodup) :
    merge entries more = entries ++ more := by
  unfold merge
  induction more generalizing entries with
  | nil => exact (List.append_nil entries).symm
  | cons entry rest ih =>
      rcases entry with ⟨k, v⟩
      have hSplit : entries ++ (k, v) :: rest =
          entries ++ [(k, v)] ++ rest := by simp
      have hNew : k ∉ keys entries := by
        unfold keys at h ⊢
        rw [List.map_append, List.nodup_append] at h
        exact fun hMem => h.2.2 k hMem k List.mem_cons_self rfl
      rw [hSplit] at h ⊢
      rw [List.foldl_cons, set_of_not_mem hNew]
      exact ih h

end Entries
end LinkedMarkup
