import LinkedMarkup.Proofs.Evaluation.Opening
import LinkedMarkup.Proofs.Evaluation.Run
import LinkedMarkup.Proofs.Lists.Writing

/-
  This file proves that the open elements of an evaluation
  only fill lists that are still to be flushed. Every start
  tag adds a list of its own to those in use around it, and
  its end tag takes that one away again.

  Key definitions include:
    * `Evaluation.Usable`
    * `Evaluation.Lodged`
    * `Evaluation.Housed`

  Main declarations:
    * `Evaluation.housed_initial`
    * `Evaluation.housed_of_process`
-/

namespace LinkedMarkup
namespace Evaluation

open Work

------------------------------------------------------------
-- Lists in use
------------------------------------------------------------

/- Lists in use that exist and have not been flushed. -/
def Usable
    (W : Nat → Prop)
    (s : Session) : Prop :=
  ∀ l, W l → l < s.lists.slots.size ∧ s.lists.flushed l = false

/-
  Open elements, innermost first, with the lists that are in
  use inside the innermost one. Each element adds its own list
  to those around it, so flushing that one leaves the others.
-/
inductive Lodged
    (outer : Scope) : (Nat → Prop) → List Element → Prop where
  | nil
      {W : Nat → Prop}
      (hOuter : outer.Uses W) :
      Lodged outer W []
  | cons
      {V W : Nat → Prop}
      {e : Element}
      {rest : List Element}
      (hRest : Lodged outer V rest)
      (hGrows : ∀ l, V l → W l)
      (hUses : e.Uses W)
      (hOwn : ¬ V e.list) :
      Lodged outer W (e :: rest)

/- Open elements that only fill lists still to be flushed. -/
def Housed
    (d : State) : Prop :=
  ∃ W, Lodged d.outer W d.elements ∧ Usable W d.session

theorem Usable.sameShape
    {W : Nat → Prop}
    {s t : Session}
    (h : Usable W s)
    (hShape : s.lists.SameShape t.lists) :
    Usable W t := by
  intro l hl
  rw [hShape.size_eq, hShape.flushed_eq]
  exact h l hl

theorem keeps_usable
    {E : Fault → Prop}
    (hValue : ∀ fault, fault.kind = .value → E fault) :
    Work.Keeps Usable E where
  quad _ _ _ h := h
  line _ _ _ h := h
  fresh _ _ h := h
  labelled _ _ _ h := h
  value := hValue

/- The only faults that this leaves room for are of addresses. -/
theorem keeps_usable_value :
    Work.Keeps Usable (fun fault => fault.kind = .value) :=
  keeps_usable (fun _ hKind => hKind)

theorem keepsFilling_usable
    (E : Fault → Prop) :
    Work.KeepsFilling Usable E where
  ensure _ s l _ h _ _ :=
    h.sameShape (ListForest.sameShape_setLists s.lists l _)
  append _ s l _ _ h _ _ :=
    h.sameShape (ListForest.sameShape_setLists s.lists l _)
  flushed W s l p h hl hFlushed := by
    rw [(h l hl).2] at hFlushed
    cases hFlushed

theorem keepsMaking_usable
    (collects : Bool) :
    Work.KeepsMaking Usable collects where
  root W s h l hl := by
    dsimp only
    rw [ListForest.size_root, ListForest.flushed_root]
    rcases hl with hOld | rfl
    · exact ⟨Nat.lt_succ_of_lt (h l hOld).1, (h l hOld).2⟩
    · exact ⟨Nat.lt_succ_self _,
        ListForest.flushed_of_size_le (Nat.le_refl _)⟩
  child W s list h _ l hl := by
    dsimp only
    rw [ListForest.size_child, ListForest.flushed_child]
    rcases hl with hOld | rfl
    · exact ⟨Nat.lt_succ_of_lt (h l hOld).1, (h l hOld).2⟩
    · exact ⟨Nat.lt_succ_self _,
        ListForest.flushed_of_size_le (Nat.le_refl _)⟩

/- Flushing one list leaves the others usable. -/
theorem Usable.marked
    {W : Nat → Prop}
    {s t : Session}
    {list : Nat}
    (h : Usable W s)
    (hList : ¬ W list)
    (hMarked : t.lists = s.lists.marked list) :
    Usable W t := by
  intro l hl
  have hNe : l ≠ list := by
    rintro rfl
    exact hList hl
  rw [hMarked, ListForest.flushed_marked,
    if_neg (fun hEq => hNe hEq.1)]
  refine ⟨?_, (h l hl).2⟩
  rw [ListForest.size_marked]
  exact (h l hl).1

------------------------------------------------------------
-- Captured text
------------------------------------------------------------

theorem uses_capture
    {W : Nat → Prop}
    {e : Element}
    (h : e.Uses W)
    (event : Event) :
    (e.capture event).Uses W where
  scope := h.scope
  list := h.list
  pending := by
    intro p hSome
    rcases Option.map_eq_some_iff.mp hSome with ⟨q, hq, rfl⟩
    have hList : (q.capture event).bare.list = q.bare.list :=
      congrArg Pending.list (Pending.bare_capture q event)
    have hOld : W q.bare.list := h.pending q hq
    rw [← hList] at hOld
    exact hOld

theorem Lodged.captureAll
    {outer : Scope}
    {W : Nat → Prop}
    {elements : List Element}
    (h : Lodged outer W elements)
    (event : Event) :
    Lodged outer W (captureAll event elements) := by
  induction h with
  | nil hOuter => exact .nil hOuter
  | cons _ hGrows hUses hOwn ih =>
      exact .cons ih hGrows (uses_capture hUses event) hOwn

------------------------------------------------------------
-- Single events
------------------------------------------------------------

theorem Lodged.uses_scope
    {d : State}
    {W : Nat → Prop}
    (h : Lodged d.outer W d.elements) :
    d.scope.Uses W := by
  unfold State.scope
  cases hElements : d.elements with
  | nil =>
      rw [hElements] at h
      cases h with
      | nil hOuter => exact hOuter
  | cons e rest =>
      rw [hElements] at h
      cases h with
      | cons _ _ hUses _ => exact hUses.scope

theorem usable_fresh
    {W : Nat → Prop}
    {d : State}
    (h : Usable W d.session) :
    Usable W d.fresh :=
  h

/- A flush that succeeds marks its mapping. -/
theorem lists_of_flushLists
    {s t : Session}
    {list : Nat}
    {subject : Option Subject}
    (hOpen : s.lists.flushed list = false)
    (h : flushLists list subject s = (.ok (), t)) :
    t.lists = s.lists.marked list := by
  cases subject with
  | some x =>
      rw [flushLists_eq hOpen x] at h
      cases h
      rfl
  | none =>
      by_cases hLists : (s.lists.slot list).lists = []
      · rw [flushLists_of_lists_eq_nil hOpen hLists] at h
        cases h
        rfl
      · rw [flushLists_none hOpen hLists] at h
        cases h

/- Completing an element leaves every list in use usable. -/
theorem usable_of_completeElement
    {W : Nat → Prop}
    {e : Element}
    {s t : Session}
    (hUsable : Usable W s)
    (hUses : e.Uses W)
    (h : completeElement e s = (.ok (), t)) :
    Usable W t := by
  rcases (keeps_usable (fun _ _ => trivial)).completeElement
      (keepsFilling_usable (fun _ => True)) hUses hUsable with
    ⟨hOk, _⟩
  rcases hOk () t h with ⟨V, hGrows, hAfter⟩
  exact fun l hl => hAfter l (hGrows l hl)

/- Every event that is processed leaves the elements housed. -/
theorem housed_of_process
    {d d' : State}
    {event : Event}
    {notes : List Note}
    (hHoused : Housed d)
    (h : process d event = (.ok d', notes)) :
    Housed d' := by
  rcases hHoused with ⟨W, hLodged, hUsable⟩
  rcases process_ok_cases h with
    ⟨name, attributes, depth, e, t, rfl, hOpen, rfl, _⟩ |
      ⟨data, rfl, rfl, _⟩ |
      ⟨name, depth, e, rest, m, t, rfl, hElements, _, hComplete,
        hFlush, rfl, _⟩
  · have hOpened :=
      openElement_opened _ _ _ name attributes d.fresh e t hOpen
    rcases (keeps_usable (fun _ _ => trivial)).openElement
        (keepsFilling_usable (fun _ => True)) (keepsMaking_usable _)
        hLodged.uses_scope (.inl ⟨trivial, trivial⟩)
        (usable_fresh hUsable) name attributes with
      ⟨hOk, _⟩
    rcases hOk e t hOpen with ⟨V, hGrows, hAfter, hUses⟩
    have hOwn : ¬ W e.list := by
      intro hOld
      have hLt := (hUsable e.list hOld).1
      rw [hOpened.list_eq] at hLt
      exact Nat.lt_irrefl _ hLt
    exact ⟨V, .cons (hLodged.captureAll _) hGrows hUses hOwn, hAfter⟩
  · exact ⟨W, hLodged.captureAll _, usable_fresh hUsable⟩
  · rw [hElements] at hLodged
    cases hLodged with
    | @cons V _ _ _ hRest hGrows hUses hOwn =>
        have hBetween : Usable W m :=
          usable_of_completeElement (usable_fresh hUsable) hUses
            hComplete
        have hMarked :=
          lists_of_flushLists (hBetween e.list hUses.list).2 hFlush
        have hInner : Usable V m :=
          fun l hl => hBetween l (hGrows l hl)
        exact ⟨V, hRest.captureAll _, hInner.marked hOwn hMarked⟩

theorem housed_of_run
    {d d' : State}
    {events : List Event}
    {sections : List (List Note)}
    (hHoused : Housed d)
    (h : Run d events sections d') :
    Housed d' := by
  induction h with
  | nil _ => exact hHoused
  | cons hStep _ ih => exact ih (housed_of_process hHoused hStep)

/- The scope of a housed evaluation only uses lists that exist. -/
theorem Housed.uses_scope
    {d : State}
    (h : Housed d) :
    d.scope.Uses (fun l => l < d.session.lists.slots.size) := by
  rcases h with ⟨W, hLodged, hUsable⟩
  have hUses := hLodged.uses_scope
  exact ⟨(hUsable _ hUses.list).1,
    fun p l hMem => (hUsable l (hUses.listed p l hMem)).1⟩

/- The innermost element only uses lists that exist. -/
theorem Housed.uses_top
    {d : State}
    {e : Element}
    {rest : List Element}
    (h : Housed d)
    (hElements : d.elements = e :: rest) :
    e.Uses (fun l => l < d.session.lists.slots.size) := by
  rcases h with ⟨W, hLodged, hUsable⟩
  rw [hElements] at hLodged
  cases hLodged with
  | cons _ _ hUses _ =>
      refine ⟨⟨?_, ?_⟩, ?_, ?_⟩
      · exact (hUsable _ hUses.scope.list).1
      · intro p l hMem
        exact (hUsable l (hUses.scope.listed p l hMem)).1
      · exact (hUsable _ hUses.list).1
      · intro p hPending
        exact (hUsable _ (hUses.pending p hPending)).1

/- Its list has not been flushed when the element is complete. -/
theorem Housed.unflushed
    {d : State}
    {e : Element}
    {rest : List Element}
    {m : Session}
    (h : Housed d)
    (hElements : d.elements = e :: rest)
    (hComplete : completeElement e d.fresh = (.ok (), m)) :
    m.lists.flushed e.list = false := by
  rcases h with ⟨W, hLodged, hUsable⟩
  rw [hElements] at hLodged
  cases hLodged with
  | cons _ _ hUses _ =>
      exact (usable_of_completeElement (usable_fresh hUsable) hUses
        hComplete e.list hUses.list).2

/- Nor can its value fail to be noted or put in a list. -/
theorem Housed.kind_of_complete_error
    {d : State}
    {e : Element}
    {rest : List Element}
    {fault : Fault}
    {t : Session}
    (h : Housed d)
    (hElements : d.elements = e :: rest)
    (hComplete : completeElement e d.fresh = (.error fault, t)) :
    fault.kind = .value := by
  rcases h with ⟨W, hLodged, hUsable⟩
  rw [hElements] at hLodged
  cases hLodged with
  | cons _ _ hUses _ =>
      exact
        (keeps_usable_value.completeElement (keepsFilling_usable _)
          hUses (usable_fresh hUsable)).2 fault t hComplete

/- Before the first event only the outermost list is in use. -/
theorem housed_initial
    (settings : Settings)
    (document : String)
    (iri : Iri) :
    Housed (State.initial settings document iri) := by
  have hUsable :=
    (keepsMaking_usable
      (settings.options.listStyle == .collection)).root
      (fun _ => False) Session.start (fun _ hl => hl.elim)
  exact ⟨_, .nil ⟨.inr rfl, by simp [State.initial, Scope.initial]⟩,
    hUsable⟩

theorem housed_of_start
    {settings : Settings}
    {base : String}
    {first : State}
    (h : start settings base = .ok first) :
    Housed first := by
  rcases start_eq_ok h with ⟨document, iri, _, _, rfl⟩
  exact housed_initial settings document iri

end Evaluation
end LinkedMarkup
