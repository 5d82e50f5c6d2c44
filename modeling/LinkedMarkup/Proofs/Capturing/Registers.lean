import LinkedMarkup.Annotation.Register
import LinkedMarkup.Proofs.Evaluation.Ownership
import Mathlib.Data.List.Pairwise

/-
  This file proves what the operations of a register do to
  the elements that it shares. As long as exactly the open
  elements that wait for content capture it, an event reaches
  the same elements through the list of those that capture as
  it does through all that are open, and the innermost element
  is taken off both lists.

  Key definitions include:
    * `Register.InOrder`
    * `Register.Apart`
    * `Register.closed`

  Main declarations:
    * `Register.InOrder.elements_capture`
    * `Register.InOrder.elements_opened`
    * `Register.InOrder.apart`
    * `Register.InOrder.release_eq`
-/

namespace LinkedMarkup

------------------------------------------------------------
-- Same contents
------------------------------------------------------------

theorem Entries.alike_self
    (a : Entries) :
    a.alike a = true := by
  unfold Entries.alike
  rw [List.all_eq_true]
  intro entry _
  exact beq_self_eq_true _

theorem Scope.alike_self
    (a : Scope) :
    a.alike a = true := by
  unfold Scope.alike
  simp only [beq_self_eq_true, Entries.alike_self, Bool.and_self]

namespace Sheet

theorem alike_self
    (s : Sheet) :
    s.alike s = true := by
  unfold alike
  simp only [beq_self_eq_true, Scope.alike_self, Bool.and_self]

/- Sheets with the same contents have the same list mapping. -/
theorem list_eq_of_alike
    {s t : Sheet}
    (h : s.alike t = true) :
    s.element.list = t.element.list := by
  unfold alike at h
  simp only [Bool.and_eq_true, beq_iff_eq] at h
  exact h.1.1.2

------------------------------------------------------------
-- Captured pieces
------------------------------------------------------------

/- An element has just been opened: it captured nothing yet. -/
theorem joined_blank
    (e : Element) :
    (Sheet.mk e []).joined = e := by
  have hJoin : ∀ text : String, text ++ String.join [] = text := by
    simp [String.join]
  unfold joined
  simp only [hJoin]
  rw [Option.map_id']

/- A piece at the end is text at the end. -/
theorem joined_capture
    (event : Event)
    (s : Sheet) :
    (s.capture event).joined = s.joined.capture event := by
  unfold joined capture Element.capture
  cases s.element.pending with
  | none => rfl
  | some p =>
      simp only [Option.map_some, Option.bind_some, String.join_append]
      unfold Pending.capture Pending.piece?
      split
      · simp [String.join, String.append_assoc]
      · split
        · simp [String.join, String.append_assoc]
        · simp [String.join]

/- Nothing is added to a sheet on which no value waits. -/
theorem capture_of_not_waits
    {s : Sheet}
    (h : s.waits = false)
    (event : Event) :
    s.capture event = s := by
  unfold waits at h
  have hNone : s.element.pending = none := by
    simpa using h
  unfold capture
  rw [hNone]
  simp

end Sheet

------------------------------------------------------------
-- Registers in order
------------------------------------------------------------

namespace Register

/-
  A register in which the open elements have sheets of their
  own, and those that capture are the ones among them that
  wait for content, in the order of the stack.
-/
structure InOrder
    (r : Register) : Prop where
  sheet : ∀ n ∈ r.stack, n < r.sheets.size
  nodup : r.stack.Nodup
  capturing : r.capturing = r.stack.filter r.waits

/- No two open elements have the same contents. -/
def Apart
    (r : Register) : Prop :=
  ∀ m ∈ r.stack, ∀ n ∈ r.stack, r.alike m n = true ↔ m = n

/- The register without its innermost element. -/
def closed
    (r : Register) : Register :=
  { r with
    stack := r.stack.dropLast
    capturing := r.stack.dropLast.filter r.waits }

theorem inOrder_empty :
    empty.InOrder where
  sheet := by simp [empty]
  nodup := List.nodup_nil
  capturing := rfl

theorem elements_empty :
    empty.elements = [] :=
  rfl

variable {r : Register}

theorem InOrder.nodup_capturing
    (h : r.InOrder) :
    r.capturing.Nodup := by
  rw [h.capturing]
  exact h.nodup.filter _

theorem mem_stack_of_concat
    {below : List Nat}
    {n : Nat}
    (h : r.stack = below ++ [n]) :
    n ∈ r.stack := by
  rw [h]
  exact List.mem_concat_self

/- An open element has a sheet. -/
theorem InOrder.exists_sheet
    (h : r.InOrder)
    {n : Nat}
    (hMem : n ∈ r.stack) :
    ∃ s, r.sheets[n]? = some s :=
  ⟨_, Array.getElem?_eq_getElem (h.sheet n hMem)⟩

------------------------------------------------------------
-- The innermost element
------------------------------------------------------------

/- Nothing is open, or some element is the innermost one. -/
theorem InOrder.stack_cases
    (h : r.InOrder) :
    r.stack = [] ∨
      ∃ below n s, r.stack = below ++ [n] ∧ r.sheets[n]? = some s := by
  rcases List.eq_nil_or_concat r.stack with hNil | ⟨below, n, hStack⟩
  · exact .inl hNil
  · rw [List.concat_eq_append] at hStack
    rcases h.exists_sheet (mem_stack_of_concat hStack) with
      ⟨s, hSheet⟩
    exact .inr ⟨below, n, s, hStack, hSheet⟩

theorem innermost?_of_nil
    (h : r.stack = []) :
    r.innermost? = none := by
  unfold innermost?
  rw [h]
  rfl

theorem elements_of_nil
    (h : r.stack = []) :
    r.elements = [] := by
  unfold elements
  rw [h]
  rfl

section Innermost

variable {below : List Nat} {n : Nat} {s : Sheet}

theorem innermost?_of_concat
    (hStack : r.stack = below ++ [n])
    (hSheet : r.sheets[n]? = some s) :
    r.innermost? = some (n, s) := by
  unfold innermost?
  rw [hStack, List.getLast?_concat, Option.bind_some, hSheet]
  rfl

theorem elements_of_concat
    (hStack : r.stack = below ++ [n])
    (hSheet : r.sheets[n]? = some s) :
    r.elements = s.joined :: r.closed.elements := by
  unfold elements closed
  rw [hStack, List.dropLast_concat, List.reverse_concat]
  exact List.filterMap_cons_some (by rw [hSheet]; rfl)

theorem waits_of_sheet
    (hSheet : r.sheets[n]? = some s) :
    r.waits n = s.waits := by
  unfold waits
  rw [hSheet]
  rfl

end Innermost

/- Captured text is no part of the scope inside an element. -/
theorem InOrder.scope_eq
    (h : r.InOrder)
    (outer : Scope) :
    r.scope outer = Evaluation.innermost outer r.elements := by
  unfold scope
  rcases h.stack_cases with hNil | ⟨below, n, s, hStack, hSheet⟩
  · rw [innermost?_of_nil hNil, elements_of_nil hNil]
    rfl
  · rw [innermost?_of_concat hStack hSheet,
      elements_of_concat hStack hSheet]
    rfl

theorem InOrder.isEmpty_eq
    (h : r.InOrder) :
    r.stack.isEmpty = r.elements.isEmpty := by
  rcases h.stack_cases with hNil | ⟨below, n, s, hStack, hSheet⟩
  · rw [hNil, elements_of_nil hNil]
    rfl
  · rw [hStack, elements_of_concat hStack hSheet]
    simp

------------------------------------------------------------
-- Capturing an event
------------------------------------------------------------

/- Changing some sheets one by one changes each of them once. -/
theorem getElem?_foldl_modify
    (f : Sheet → Sheet)
    {numbers : List Nat}
    (hNodup : numbers.Nodup)
    (sheets : Array Sheet)
    (m : Nat) :
    (numbers.foldl (fun done n => done.modify n f) sheets)[m]? =
      if m ∈ numbers then sheets[m]?.map f else sheets[m]? := by
  induction numbers generalizing sheets with
  | nil => simp
  | cons n rest ih =>
      rcases List.nodup_cons.mp hNodup with ⟨hNew, hRest⟩
      rw [List.foldl_cons, ih hRest, Array.getElem?_modify]
      -- A number that comes again would be changed a second time.
      by_cases hHere : n = m
      · subst hHere
        rw [if_neg hNew, if_pos rfl, if_pos List.mem_cons_self]
      · have hOther : m ∈ n :: rest ↔ m ∈ rest := by
          simp [Ne.symm hHere]
        rw [if_neg hHere]
        simp only [hOther]

theorem size_foldl_modify
    (f : Sheet → Sheet)
    (numbers : List Nat)
    (sheets : Array Sheet) :
    (numbers.foldl (fun done n => done.modify n f) sheets).size =
      sheets.size := by
  induction numbers generalizing sheets with
  | nil => rfl
  | cons n rest ih => rw [List.foldl_cons, ih, Array.size_modify]

/-
  Every open element captures an event. Those that are not
  told of it would take nothing from it.
-/
theorem InOrder.sheet_capture
    (h : r.InOrder)
    (event : Event)
    {n : Nat}
    (hMem : n ∈ r.stack) :
    (r.capture event).sheets[n]? =
      r.sheets[n]?.map (Sheet.capture event) := by
  unfold capture
  rw [getElem?_foldl_modify _ h.nodup_capturing]
  split
  · rfl
  · rename_i hSilent
    rcases h.exists_sheet hMem with ⟨s, hSheet⟩
    rw [h.capturing, List.mem_filter, waits_of_sheet hSheet] at hSilent
    have hWaits : s.waits = false := by
      simpa [hMem] using hSilent
    rw [hSheet, Option.map_some, Sheet.capture_of_not_waits hWaits]

theorem InOrder.waits_capture
    (h : r.InOrder)
    (event : Event)
    {n : Nat}
    (hMem : n ∈ r.stack) :
    (r.capture event).waits n = r.waits n := by
  unfold waits
  rw [h.sheet_capture event hMem, Option.any_map]
  rfl

theorem InOrder.capture
    (h : r.InOrder)
    (event : Event) :
    (r.capture event).InOrder where
  sheet := by
    intro n hMem
    change n < Array.size (List.foldl _ _ _)
    rw [size_foldl_modify]
    exact h.sheet n hMem
  nodup := h.nodup
  capturing := by
    change r.capturing = r.stack.filter _
    rw [h.capturing]
    exact List.filter_congr
      (fun n hMem => (h.waits_capture event hMem).symm)

/- An event reaches what is open through what captures. -/
theorem InOrder.elements_capture
    (h : r.InOrder)
    (event : Event) :
    (r.capture event).elements =
      Evaluation.captureAll event r.elements := by
  unfold elements Evaluation.captureAll
  rw [List.map_filterMap]
  apply List.filterMap_congr
  intro n hMem
  have hOpen : n ∈ r.stack := List.mem_reverse.mp hMem
  rw [h.sheet_capture event hOpen, Option.map_map, Option.map_map]
  exact congrArg (fun f => r.sheets[n]?.map f)
    (funext (Sheet.joined_capture event))

------------------------------------------------------------
-- Opening an element
------------------------------------------------------------

theorem sheet_opened_of_lt
    (e : Element)
    {n : Nat}
    (h : n < r.sheets.size) :
    (r.opened e).sheets[n]? = r.sheets[n]? := by
  change (r.sheets.push _)[n]? = _
  rw [Array.getElem?_push_lt h, Array.getElem?_eq_getElem h]

theorem sheet_opened_size
    (r : Register)
    (e : Element) :
    (r.opened e).sheets[r.sheets.size]? = some ⟨e, []⟩ :=
  Array.getElem?_push_size

theorem InOrder.waits_opened
    (h : r.InOrder)
    (e : Element)
    {n : Nat}
    (hMem : n ∈ r.stack) :
    (r.opened e).waits n = r.waits n := by
  unfold waits
  rw [sheet_opened_of_lt e (h.sheet n hMem)]

theorem InOrder.opened
    (h : r.InOrder)
    (e : Element) :
    (r.opened e).InOrder where
  sheet := by
    intro n hMem
    change n < (r.sheets.push _).size
    rw [Array.size_push]
    rcases List.mem_append.mp hMem with hOld | hNew
    · exact Nat.lt_succ_of_lt (h.sheet n hOld)
    · rw [List.mem_singleton.mp hNew]
      exact Nat.lt_succ_self _
  nodup := by
    apply List.nodup_append.mpr
    refine ⟨h.nodup, List.pairwise_singleton _ _, ?_⟩
    intro n hOld m hNew
    rw [List.mem_singleton.mp hNew]
    exact Nat.ne_of_lt (h.sheet n hOld)
  capturing := by
    have hOld :
        r.stack.filter (r.opened e).waits = r.capturing := by
      rw [h.capturing]
      exact List.filter_congr
        (fun n hMem => h.waits_opened e hMem)
    have hNew :
        (r.opened e).waits r.sheets.size = e.pending.isSome :=
      waits_of_sheet (sheet_opened_size r e)
    change (if _ then _ else _) = (r.stack ++ [r.sheets.size]).filter _
    rw [List.filter_append, hOld]
    cases hPending : e.pending.isSome with
    | true =>
        rw [if_pos rfl, List.filter_singleton, hNew, hPending]
        rfl
    | false =>
        rw [List.filter_singleton, hNew, hPending]
        simp

/- The new element is the innermost one. -/
theorem InOrder.elements_opened
    (h : r.InOrder)
    (e : Element) :
    (r.opened e).elements = e :: r.elements := by
  rw [elements_of_concat rfl (sheet_opened_size r e),
    Sheet.joined_blank]
  unfold elements closed
  change e :: (r.stack ++ [_]).dropLast.reverse.filterMap _ = _
  rw [List.dropLast_concat]
  congr 1
  apply List.filterMap_congr
  intro n hMem
  rw [sheet_opened_of_lt e (h.sheet n (List.mem_reverse.mp hMem))]

------------------------------------------------------------
-- Closing an element
------------------------------------------------------------

theorem InOrder.closed
    (h : r.InOrder) :
    r.closed.InOrder where
  sheet n hMem := h.sheet n ((List.dropLast_sublist _).subset hMem)
  nodup := h.nodup.sublist (List.dropLast_sublist _)
  capturing := rfl

/-
  Elements with list mappings of their own have contents of
  their own.
-/
theorem InOrder.apart
    (h : r.InOrder)
    (hLists :
      r.elements.Pairwise (fun e e' => e.list ≠ e'.list)) :
    r.Apart := by
  -- Whatever else two sheets share, the mapping tells them apart.
  let differ : Nat → Nat → Prop := fun m n =>
    ∀ s t, r.sheets[m]? = some s → r.sheets[n]? = some t →
      s.element.list ≠ t.element.list
  have hSymm : Std.Symm differ :=
    ⟨fun _ _ hDiffer s t hs ht => (hDiffer t s ht hs).symm⟩
  have hDiffer : r.stack.Pairwise differ := by
    unfold elements at hLists
    rw [List.pairwise_filterMap, List.pairwise_reverse] at hLists
    apply hLists.imp
    intro m n hPair s t hs ht
    refine (hPair t.joined ?_ s.joined ?_).symm
    · rw [ht, Option.map_some]
    · rw [hs, Option.map_some]
  intro m hm n hn
  rcases h.exists_sheet hm with ⟨s, hs⟩
  rcases h.exists_sheet hn with ⟨t, ht⟩
  unfold alike
  rw [hs, ht]
  constructor
  · intro hAlike
    by_contra hNe
    exact hDiffer.forall hm hn hNe s t hs ht
      (Sheet.list_eq_of_alike hAlike)
  · rintro rfl
    rw [hs] at ht
    cases ht
    exact s.alike_self

section Release

variable {below : List Nat} {n : Nat} {s : Sheet}

/- The innermost element is the last of those that capture. -/
theorem InOrder.capturing_of_waits
    (h : r.InOrder)
    (hStack : r.stack = below ++ [n])
    (hWaits : r.waits n = true) :
    r.capturing = r.closed.capturing ++ [n] := by
  unfold Register.closed
  rw [h.capturing, hStack, List.filter_append, List.dropLast_concat,
    List.filter_singleton, hWaits]
  rfl

theorem InOrder.capturing_of_not_waits
    (h : r.InOrder)
    (hStack : r.stack = below ++ [n])
    (hWaits : r.waits n = false) :
    r.capturing = r.closed.capturing := by
  unfold Register.closed
  rw [h.capturing, hStack, List.filter_append, List.dropLast_concat,
    List.filter_singleton, hWaits]
  exact List.append_nil _

/- Of those that capture, only that element has its contents. -/
theorem InOrder.not_alike_of_mem
    (h : r.InOrder)
    (hApart : r.Apart)
    (hStack : r.stack = below ++ [n]) :
    ∀ m ∈ r.closed.capturing, ¬ r.alike m n = true := by
  intro m hMem hAlike
  have hBelow : m ∈ below := by
    have hOpen := (List.mem_filter.mp hMem).1
    rw [hStack, List.dropLast_concat] at hOpen
    exact hOpen
  have hm : m ∈ r.stack := by
    rw [hStack]
    exact List.mem_append_left _ hBelow
  have hn := mem_stack_of_concat hStack
  have hNodup := h.nodup
  rw [hStack, List.nodup_append] at hNodup
  exact hNodup.2.2 m hBelow n (List.mem_singleton_self n)
    ((hApart m hm n hn).mp hAlike)

/- Looking for its contents finds the innermost element. -/
theorem InOrder.find?_alike
    (h : r.InOrder)
    (hApart : r.Apart)
    (hStack : r.stack = below ++ [n])
    (hWaits : r.waits n = true) :
    r.capturing.find? (fun m => r.alike m n) = some n := by
  have hn := mem_stack_of_concat hStack
  rw [h.capturing_of_waits hStack hWaits, List.find?_append,
    List.find?_eq_none.mpr (h.not_alike_of_mem hApart hStack),
    Option.none_or]
  exact List.find?_cons_of_pos ((hApart n hn n hn).mpr rfl)

/- Taking out what is found leaves all the others. -/
theorem InOrder.eraseP_alike
    (h : r.InOrder)
    (hApart : r.Apart)
    (hStack : r.stack = below ++ [n])
    (hWaits : r.waits n = true) :
    r.capturing.eraseP (fun m => r.alike m n) =
      r.closed.capturing := by
  have hn := mem_stack_of_concat hStack
  have hLast : [n].eraseP (fun m => r.alike m n) = [] :=
    List.eraseP_cons_of_pos ((hApart n hn n hn).mpr rfl)
  rw [h.capturing_of_waits hStack hWaits,
    List.eraseP_append_right _ (h.not_alike_of_mem hApart hStack),
    hLast, List.append_nil]

/-
  So the end tag of the innermost element completes its value,
  if one waits, and takes it off both lists.
-/
theorem InOrder.release_eq
    (h : r.InOrder)
    (hApart : r.Apart)
    (hStack : r.stack = below ++ [n])
    (hSheet : r.sheets[n]? = some s) :
    r.release n s =
      (do
        Evaluation.completeElement s.joined
        return r.closed) := by
  unfold release
  cases hWaits : s.waits with
  | true =>
      rw [← waits_of_sheet hSheet] at hWaits
      have hAny : r.capturing.any (fun m => r.alike m n) = true := by
        rw [List.any_eq_true, ← List.find?_isSome,
          h.find?_alike hApart hStack hWaits]
        rfl
      rw [if_pos rfl, if_pos hAny, h.eraseP_alike hApart hStack hWaits]
      rfl
  | false =>
      have hDone : Evaluation.completeElement s.joined = pure () := by
        unfold Sheet.waits at hWaits
        unfold Evaluation.completeElement Sheet.joined
        rw [Option.isSome_eq_false_iff, Option.isNone_iff_eq_none]
          at hWaits
        rw [hWaits]
        rfl
      rw [← waits_of_sheet hSheet] at hWaits
      rw [if_neg Bool.false_ne_true, hDone, pure_bind,
        h.capturing_of_not_waits hStack hWaits]
      rfl

end Release

end Register
end LinkedMarkup
