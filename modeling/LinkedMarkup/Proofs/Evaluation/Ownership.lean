import LinkedMarkup.Proofs.Evaluation.Completion
import LinkedMarkup.Proofs.Evaluation.Contribution
import LinkedMarkup.Proofs.Evaluation.Safety

/-
  This file proves who owns the lists that are filled while
  HTML is read. The root of a document owns lists, so every
  list in use belongs to an element that is still open. What
  no open element owns stays as it is.

  Key definitions include:
    * `Evaluation.OwnedWithin`
    * `Evaluation.Tied`
    * `Evaluation.Spares`
    * `Evaluation.Orderly`

  Main declarations:
    * `Evaluation.openElement_rehung`
    * `Evaluation.orderly_of_process`
    * `Evaluation.spares_of_process`
-/

namespace LinkedMarkup

theorem Element.Uses.mono
    {V W : Nat → Prop}
    {e : Element}
    (h : e.Uses V)
    (hVW : ∀ l, V l → W l) :
    e.Uses W where
  scope :=
    ⟨hVW _ h.scope.list,
      fun p l hMem => hVW _ (h.scope.listed p l hMem)⟩
  list := hVW _ h.list
  pending p hSome := hVW _ (h.pending p hSome)

namespace Evaluation

open Work Coupling

------------------------------------------------------------
-- Owners of lists in use
------------------------------------------------------------

/- A list that one of some open elements owns. -/
def OwnedWithin
    (f : ListForest Iri Object)
    (elements : List Element)
    (l : Nat) : Prop :=
  l < f.slots.size ∧ (f.slot l).owner ∈ elements.map Element.list

/-
  Open elements, innermost first, of which each only fills
  lists that it owns or that an element around it owns.
-/
inductive Tied
    (f : ListForest Iri Object) : List Element → Prop where
  | nil : Tied f []
  | cons
      {e : Element}
      {rest : List Element}
      (hRest : Tied f rest)
      (hUses : e.Uses (OwnedWithin f (e :: rest))) :
      Tied f (e :: rest)

/- Lists of a forest that has gone on keep their owners. -/
theorem Tied.extend
    {f g : ListForest Iri Object}
    (hSize : f.slots.size ≤ g.slots.size)
    (hOwner :
      ∀ l, l < f.slots.size → (g.slot l).owner = (f.slot l).owner)
    {elements : List Element}
    (h : Tied f elements) :
    Tied g elements := by
  induction h with
  | nil => exact .nil
  | cons _ hUses ih =>
      refine .cons ih (hUses.mono ?_)
      rintro l ⟨hLt, hOwned⟩
      refine ⟨Nat.lt_of_lt_of_le hLt hSize, ?_⟩
      rw [hOwner l hLt]
      exact hOwned

theorem map_list_captureAll
    (event : Event)
    (elements : List Element) :
    (captureAll event elements).map Element.list =
      elements.map Element.list := by
  unfold captureAll
  rw [List.map_map]
  rfl

theorem Tied.captureAll
    {f : ListForest Iri Object}
    {elements : List Element}
    (h : Tied f elements)
    (event : Event) :
    Tied f (captureAll event elements) := by
  induction h with
  | nil => exact .nil
  | @cons e rest _ hUses ih =>
      refine .cons ih ((uses_capture hUses event).mono ?_)
      rintro l ⟨hLt, hOwned⟩
      refine ⟨hLt, ?_⟩
      change _ ∈ (Evaluation.captureAll event (e :: rest)).map Element.list
      rw [map_list_captureAll]
      exact hOwned

/- What the innermost element hands on is owned as well. -/
theorem Tied.uses_innermost
    {f : ListForest Iri Object}
    {elements : List Element}
    (h : Tied f elements)
    (hSome : elements ≠ [])
    (outer : Scope) :
    (innermost outer elements).Uses (OwnedWithin f elements) := by
  cases h with
  | nil => exact absurd rfl hSome
  | cons _ hUses => exact hUses.scope

/- The lists of a new element are its own, or those around it. -/
theorem Tied.opened
    {settings : Settings}
    {parent : Scope}
    {isRoot : Bool}
    {name : String}
    {s t : Session}
    {e : Element}
    {elements : List Element}
    (h : Tied s.lists elements)
    (hOpened : Opened settings parent isRoot name s t e)
    (hParent :
      ¬ OwnsLists parent e.subject →
        parent.Uses (OwnedWithin s.lists elements)) :
    Tied t.lists (e :: elements) := by
  have hSize := hOpened.size_eq
  have hNew := hOpened.list_eq
  have hOld :
      ∀ l, OwnedWithin s.lists elements l →
        OwnedWithin t.lists (e :: elements) l := by
    rintro l ⟨hLt, hOwned⟩
    refine ⟨by omega, ?_⟩
    rw [hOpened.owner_eq hLt]
    exact List.mem_cons_of_mem _ hOwned
  have hOwn : OwnedWithin t.lists (e :: elements) e.list := by
    refine ⟨by omega, ?_⟩
    by_cases hOwns : OwnsLists parent e.subject
    · rw [hOpened.owner_self hOwns]
      exact List.mem_cons_self
    · rw [(hOpened.child hOwns).owner_eq, ListForest.slot_child, hNew,
        if_pos rfl]
      exact List.mem_cons_of_mem _ (hParent hOwns).list.2
  refine .cons (h.extend (by omega) (fun l hLt => hOpened.owner_eq hLt))
    ⟨?_, hOwn, ?_⟩
  · rcases hOpened.scope with hPasses | hHands
    · have hChained : ¬ OwnsLists parent e.subject :=
        fun hOwns => hOwns.2 hPasses.subject
      have hUses := hParent hChained
      refine ⟨?_, ?_⟩
      · rw [hPasses.scope.list]
        exact hOld _ hUses.list
      · intro p l hMem
        rw [hPasses.scope.incomplete] at hMem
        exact hOld l (hUses.listed p l hMem)
    · refine ⟨?_, ?_⟩
      · rw [hHands.list]
        exact hOwn
      · intro p l hMem
        rw [hHands.listed p l hMem]
        exact hOwn
  · intro p hPending
    rw [(hOpened.pending p hPending).1]
    exact hOwn

------------------------------------------------------------
-- The list around a root
------------------------------------------------------------

/-
  An element that owns lists where there is no object around
  it is the same wherever else lists are in force.
-/
theorem openElement_rehung
    {settings : Settings}
    {parent : Scope}
    {isRoot : Bool}
    {name : String}
    {attributes : Entries}
    {s t : Session}
    {e : Element}
    (hObject : parent.object = none)
    (hOwns : OwnsLists parent e.subject)
    (h :
      openElement settings parent isRoot name attributes s =
        (.ok e, t))
    (list : Nat) :
    openElement settings (parent.rehung list parent.incomplete) isRoot
        name attributes s = (.ok e, t) := by
  rw [openElement_eq] at h ⊢
  rcases andThen_eq_ok h with ⟨tag, m, hRead, hBuild⟩
  rcases readTag_yields _ _ _ _ _ _ _ _ hRead with
    ⟨hScope, _, _, hSkips⟩
  have hSubject := (buildElement_yields hScope _ _ _ _ _ hBuild).1
  have hNot : tag.parts.skips = false := by
    rw [← Bool.not_eq_true, hSkips, hObject]
    simp
  rw [readTag_rehung, bind_of_ok (bind_of_ok hRead _) _, ← hBuild]
  have hList :
      listFor settings (parent.rehung list parent.incomplete)
          tag.parts.subject =
        listFor settings parent tag.parts.subject := by
    rw [hSubject] at hOwns
    have hTrue :
        (tag.parts.subject.isSome &&
          tag.parts.subject != parent.object) = true := by
      simp [hOwns.1, hOwns.2]
    unfold listFor
    change (if (_ && tag.parts.subject != parent.object) = true then _
      else _) = _
    rw [if_pos hTrue, if_pos hTrue]
  have hEnclose :
      ∀ object own incomplete pending,
        enclose (parent.rehung list parent.incomplete)
            (tag.scope.rehung list parent.incomplete) name tag.parts
            object own incomplete pending =
          enclose parent tag.scope name tag.parts object own incomplete
            pending := by
    intro object own incomplete pending
    unfold enclose
    rw [hNot]
    rfl
  unfold buildElement Reading.rehung
  simp only [hList, readProperty_rehung, hEnclose]

------------------------------------------------------------
-- Lists that nothing fills
------------------------------------------------------------

/-
  A mapping whose lists have not changed, and that owns no
  list in use and none that anything was put in.
-/
structure Spares
    (n : Nat)
    (lists : List (Iri × List Object))
    (W : Nat → Prop)
    (s : Session) : Prop where
  exists_slot : n < s.lists.slots.size
  unused : ∀ l, W l → (s.lists.slot l).owner ≠ n
  same : (s.lists.slot n).lists = lists
  unfiled :
    ∀ x ∈ Note.filings s.notes.toList, (s.lists.slot x.list).owner ≠ n

section Sparing

variable {n : Nat} {lists : List (Iri × List Object)}
variable {W : Nat → Prop} {s : Session}

/- Notes that file nothing make no difference. -/
theorem Spares.push
    (h : Spares n lists W s)
    {note : Note}
    (hNote : Note.filings [note] = []) :
    Spares n lists W { s with notes := s.notes.push note } where
  exists_slot := h.exists_slot
  unused := h.unused
  same := h.same
  unfiled := by
    intro x hMem
    dsimp only at hMem
    rw [Array.toList_push, Note.filings_append, hNote,
      List.append_nil] at hMem
    exact h.unfiled x hMem

/- Filling a list of another owner makes none either. -/
theorem Spares.setLists
    (h : Spares n lists W s)
    {l : Nat}
    (hUsed : W l)
    (more : List (Iri × List Object))
    {notes : Array Note}
    (hNotes :
      ∀ x ∈ Note.filings notes.toList,
        x ∈ Note.filings s.notes.toList ∨ x.list = l) :
    Spares n lists W
      { s with lists := s.lists.setLists l more, notes := notes } := by
  have hShape := ListForest.sameShape_setLists s.lists l more
  have hNe := h.unused l hUsed
  refine ⟨?_, ?_, ?_, ?_⟩
  · dsimp only
    rw [hShape.size_eq]
    exact h.exists_slot
  · intro i hi
    dsimp only
    rw [hShape.owner_eq]
    exact h.unused i hi
  · dsimp only
    rw [ListForest.slot_setLists, if_neg (fun hBoth => hNe hBoth.1.symm)]
    exact h.same
  · intro x hMem
    dsimp only
    rw [hShape.owner_eq]
    rcases hNotes x hMem with hOld | hNew
    · exact h.unfiled x hOld
    · rw [hNew]
      exact hNe

/- Nor does a new mapping that another mapping owns. -/
theorem Spares.pushed
    (h : Spares n lists W s)
    {f : ListForest Iri Object}
    (hSize : f.slots.size = s.lists.slots.size + 1)
    (hNew : (f.slot s.lists.slots.size).owner ≠ n)
    (hOld :
      ∀ l, l ≠ s.lists.slots.size → f.slot l = s.lists.slot l) :
    Spares n lists (fun l => W l ∨ l = s.lists.slots.size)
      { s with lists := f } := by
  have hOwner :
      ∀ l, (s.lists.slot l).owner ≠ n → (f.slot l).owner ≠ n := by
    intro l hNe
    by_cases hEq : l = s.lists.slots.size
    · rw [hEq]
      exact hNew
    · rw [hOld l hEq]
      exact hNe
  have hLt := h.exists_slot
  refine ⟨?_, ?_, ?_, ?_⟩
  · dsimp only
    omega
  · rintro l (hl | rfl)
    · exact hOwner l (h.unused l hl)
    · exact hNew
  · dsimp only
    rw [hOld n (by omega)]
    exact h.same
  · intro x hMem
    exact hOwner x.list (h.unfiled x hMem)

theorem keeps_spares
    (n : Nat)
    (lists : List (Iri × List Object)) :
    Work.Keeps (Spares n lists) (fun _ => True) where
  quad _ _ _ h := h.push rfl
  line _ _ _ h := h.push rfl
  fresh _ _ h := ⟨h.exists_slot, h.unused, h.same, h.unfiled⟩
  labelled _ _ _ h := ⟨h.exists_slot, h.unused, h.same, h.unfiled⟩
  value _ _ := trivial

theorem keepsFilling_spares
    (n : Nat)
    (lists : List (Iri × List Object)) :
    Work.KeepsFilling (Spares n lists) (fun _ => True) where
  ensure _ _ _ _ h hUsed _ :=
    h.setLists hUsed _ (fun _ hMem => .inl hMem)
  append _ s _ _ _ h hUsed _ := by
    apply h.setLists hUsed
    intro x hMem
    rw [Array.toList_push, Note.filings_append] at hMem
    rcases List.mem_append.mp hMem with hOld | hNew
    · exact .inl hOld
    · exact .inr (congrArg Filing.list (List.mem_singleton.mp hNew))
  flushed _ _ _ _ _ _ _ := trivial

theorem keepsMaking_spares
    (n : Nat)
    (lists : List (Iri × List Object))
    (collects : Bool) :
    Work.KeepsMaking (Spares n lists) collects where
  root W s h := by
    refine h.pushed (ListForest.size_root _ _) ?_ ?_
    · have hLt := h.exists_slot
      rw [ListForest.slot_root, if_pos rfl]
      dsimp only
      omega
    · intro l hNe
      rw [ListForest.slot_root, if_neg hNe]
  child W s l h hUsed := by
    refine h.pushed (ListForest.size_child _ _) ?_ ?_
    · rw [ListForest.slot_child, if_pos rfl]
      exact h.unused l hUsed
    · intro l hNe
      rw [ListForest.slot_child, if_neg hNe]

end Sparing

------------------------------------------------------------
-- Single events
------------------------------------------------------------

/-
  An evaluation of HTML in which every list in use belongs to
  an open element, and lists of all others have been flushed.
-/
structure Orderly
    (d : State) : Prop where
  guarded : Guarded d
  outside : d.outer.object = none
  nothing : d.outer.incomplete = []
  tied : Tied d.session.lists d.elements
  settled :
    ∀ l, l < d.session.lists.slots.size →
      l ∈ d.elements.map Element.list ∨
        d.session.lists.flushed l = true ∨
        (d.session.lists.slot l).lists = []

/- An element where there is no object around it owns lists. -/
theorem Orderly.owns_root
    {d : State}
    (h : Orderly d)
    (hNone : d.elements = [])
    {e : Element}
    (hSubject : e.subject.isSome = true) :
    d.scope.object = none ∧ OwnsLists d.scope e.subject := by
  have hScope : d.scope = d.outer := by
    unfold State.scope
    rw [hNone]
  refine ⟨by rw [hScope]; exact h.outside, hSubject, ?_⟩
  rw [hScope, h.outside]
  rintro hEq
  rw [hEq] at hSubject
  cases hSubject

/- Where lists are not owned, an open element owns those in use. -/
theorem Orderly.uses_scope
    {d : State}
    (h : Orderly d)
    {e : Element}
    (hSubject : e.subject.isSome = true)
    (hNot : ¬ OwnsLists d.scope e.subject) :
    d.scope.Uses (OwnedWithin d.session.lists d.elements) := by
  rw [scope_eq_innermost]
  apply h.tied.uses_innermost
  intro hNone
  exact hNot (h.owns_root hNone hSubject).2

theorem spares_of_openElement
    {d : State}
    {name : String}
    {attributes : Entries}
    {e : Element}
    {t : Session}
    (hOrderly : Orderly d)
    {n : Nat}
    (hLt : n < d.session.lists.slots.size)
    (hFree : n ∉ d.elements.map Element.list)
    (hOpen :
      openElement d.settings d.scope d.elements.isEmpty name attributes
        d.fresh = (.ok e, t)) :
    ∃ W, Spares n (d.session.lists.slot n).lists W t := by
  have hOpened :=
    openElement_opened _ _ _ name attributes d.fresh e t hOpen
  have hSubject := hOpened.anchored hOrderly.guarded.anchored
  -- Some scope that only uses lists of other owners gives the same.
  have hElsewhere :
      ∃ parent,
        openElement d.settings parent d.elements.isEmpty name attributes
            d.fresh = (.ok e, t) ∧
          Scope.Uses (fun l => (d.session.lists.slot l).owner ≠ n)
            parent := by
    by_cases hNone : d.elements = []
    · rcases hOrderly.owns_root hNone hSubject with ⟨hObject, hOwns⟩
      have hScope : d.scope = d.outer := by
        unfold State.scope
        rw [hNone]
      refine ⟨d.scope.rehung d.session.lists.slots.size
        d.scope.incomplete, openElement_rehung hObject hOwns hOpen _,
        ?_, ?_⟩
      · change (d.session.lists.slot d.session.lists.slots.size).owner ≠ n
        rw [ListForest.slot_of_size_le (Nat.le_refl _)]
        dsimp only
        omega
      · intro p l hMem
        change _ ∈ d.scope.incomplete at hMem
        rw [hScope, hOrderly.nothing] at hMem
        cases hMem
    · have hUses :=
        hOrderly.tied.uses_innermost hNone d.outer
      rw [← scope_eq_innermost] at hUses
      have hOther :
          ∀ l, OwnedWithin d.session.lists d.elements l →
            (d.session.lists.slot l).owner ≠ n := by
        rintro l ⟨_, hOwned⟩ rfl
        exact hFree hOwned
      exact ⟨d.scope, hOpen, hOther _ hUses.list,
        fun p l hMem => hOther l (hUses.listed p l hMem)⟩
  rcases hElsewhere with ⟨parent, hSame, hParent⟩
  have hFresh :
      Spares n (d.session.lists.slot n).lists
        (fun l => (d.session.lists.slot l).owner ≠ n) d.fresh :=
    ⟨hLt, fun _ hNe => hNe, rfl, by simp [State.fresh, Note.filings]⟩
  rcases (keeps_spares n _).openElement (keepsFilling_spares n _)
      (keepsMaking_spares n _ _) hParent
      (.inl ⟨trivial, trivial⟩ :
        _ ∨ Anchored d.settings parent d.elements.isEmpty)
      hFresh name attributes with
    ⟨hOk, _⟩
  rcases hOk e t hSame with ⟨V, _, hAfter, _⟩
  exact ⟨V, hAfter⟩

/- The innermost element is completed with lists in use only. -/
theorem spares_of_completeElement
    {d : State}
    {e : Element}
    {rest : List Element}
    {m : Session}
    (hOrderly : Orderly d)
    (hElements : d.elements = e :: rest)
    {n : Nat}
    (hLt : n < d.session.lists.slots.size)
    (hFree : n ∉ d.elements.map Element.list)
    (hComplete : completeElement e d.fresh = (.ok (), m)) :
    ∃ W, Spares n (d.session.lists.slot n).lists W m := by
  have hTied := hOrderly.tied
  rw [hElements] at hTied hFree
  cases hTied with
  | cons _ hUses =>
      have hFresh :
          Spares n (d.session.lists.slot n).lists
            (OwnedWithin d.session.lists (e :: rest)) d.fresh := by
        refine ⟨hLt, ?_, rfl, by simp [State.fresh, Note.filings]⟩
        rintro l ⟨_, hOwned⟩ rfl
        exact hFree hOwned
      rcases (keeps_spares n _).completeElement
          (keepsFilling_spares n _) hUses hFresh with
        ⟨hOk, _⟩
      rcases hOk () m hComplete with ⟨V, _, hAfter⟩
      exact ⟨V, hAfter⟩

/-
  No event changes the lists of a mapping that is not that of
  an open element, or puts anything in them.
-/
theorem spares_of_process
    {d d' : State}
    {event : Event}
    {notes : List Note}
    (hOrderly : Orderly d)
    {n : Nat}
    (hLt : n < d.session.lists.slots.size)
    (hFree : n ∉ d.elements.map Element.list)
    (h : process d event = (.ok d', notes)) :
    (d'.session.lists.slot n).lists = (d.session.lists.slot n).lists ∧
      ∀ x ∈ Note.filings notes,
        (d'.session.lists.slot x.list).owner ≠ n := by
  rcases process_ok_cases h with
    ⟨name, attributes, depth, e, t, rfl, hOpen, rfl, rfl⟩ |
      ⟨data, rfl, rfl, rfl⟩ |
      ⟨name, depth, e, rest, m, t, rfl, hElements, _, hComplete,
        hFlush, rfl, rfl⟩
  · rcases spares_of_openElement hOrderly hLt hFree hOpen with
      ⟨_, hSpares⟩
    exact ⟨hSpares.same, hSpares.unfiled⟩
  · exact ⟨rfl, by simp [Note.filings]⟩
  · rcases spares_of_completeElement hOrderly hElements hLt hFree
        hComplete with
      ⟨_, hSpares⟩
    have hUnflushed :=
      hOrderly.guarded.housed.unflushed hElements hComplete
    have hMarked := lists_of_flushLists hUnflushed hFlush
    have hFilings := filings_of_flush hUnflushed hFlush []
    rw [List.nil_append, List.nil_append] at hFilings
    change (t.lists.slot n).lists = _ ∧
      ∀ x ∈ Note.filings t.notes.toList,
        (t.lists.slot x.list).owner ≠ n
    rw [hFilings, hMarked, ListForest.lists_marked]
    refine ⟨hSpares.same, ?_⟩
    intro x hMem
    rw [ListForest.owner_marked]
    exact hSpares.unfiled x hMem

/- Lists of open elements are still to be flushed. -/
theorem Lodged.mem_of_mem
    {outer : Scope}
    {W : Nat → Prop}
    {elements : List Element}
    (h : Lodged outer W elements)
    {e : Element}
    (hMem : e ∈ elements) :
    W e.list := by
  induction h with
  | nil _ => cases hMem
  | cons _ hGrows hUses _ ih =>
      rcases List.mem_cons.mp hMem with rfl | hTail
      · exact hUses.list
      · exact hGrows _ (ih hTail)

theorem Housed.not_mem_of_flushed
    {d : State}
    (h : Housed d)
    {n : Nat}
    (hFlushed : d.session.lists.flushed n = true) :
    n ∉ d.elements.map Element.list := by
  rintro hMem
  rcases List.mem_map.mp hMem with ⟨e, hOpen, rfl⟩
  rcases h with ⟨W, hLodged, hUsable⟩
  rw [(hUsable _ (hLodged.mem_of_mem hOpen)).2] at hFlushed
  cases hFlushed

theorem Orderly.opened
    {d : State}
    {name : String}
    {attributes : Entries}
    {e : Element}
    {t : Session}
    {event : Event}
    (h : Orderly d)
    (hOpen :
      openElement d.settings d.scope d.elements.isEmpty name attributes
        d.fresh = (.ok e, t))
    (hGuarded :
      Guarded (d.after (e :: captureAll event d.elements) t)) :
    Orderly (d.after (e :: captureAll event d.elements) t) := by
  have hOpened :=
    openElement_opened _ _ _ name attributes d.fresh e t hOpen
  have hSubject := hOpened.anchored h.guarded.anchored
  have hExtends := extends_of_openElement hOpen
  have hNew : e.list = d.session.lists.slots.size := hOpened.list_eq
  have hSize : t.lists.slots.size = d.session.lists.slots.size + 1 :=
    hOpened.size_eq
  refine ⟨hGuarded, h.outside, h.nothing, ?_, ?_⟩
  · have hTied : Tied d.fresh.lists (captureAll event d.elements) :=
      h.tied.captureAll event
    apply hTied.opened hOpened
    intro hNot
    have hUses := h.uses_scope hSubject hNot
    unfold OwnedWithin at hUses ⊢
    rw [map_list_captureAll]
    exact hUses
  · intro l hl
    change l < t.lists.slots.size at hl
    change l ∈ (e :: captureAll event d.elements).map Element.list ∨
      t.lists.flushed l = true ∨ (t.lists.slot l).lists = []
    rw [List.map_cons, map_list_captureAll]
    by_cases hOld : l < d.session.lists.slots.size
    · by_cases hMem : l ∈ d.elements.map Element.list
      · exact .inl (List.mem_cons_of_mem _ hMem)
      · right
        rcases h.settled l hOld with hIn | hFlushed | hNil
        · exact absurd hIn hMem
        · left
          rw [hExtends.flushed l hOld]
          exact hFlushed
        · right
          rcases spares_of_openElement h hOld hMem hOpen with
            ⟨_, hSpares⟩
          rw [hSpares.same]
          exact hNil
    · left
      have hEq : l = e.list := by omega
      rw [hEq]
      exact List.mem_cons_self

theorem Orderly.closed
    {d : State}
    {e : Element}
    {rest : List Element}
    {m t : Session}
    {event : Event}
    (h : Orderly d)
    (hElements : d.elements = e :: rest)
    (hComplete : completeElement e d.fresh = (.ok (), m))
    (hFlush : flushLists e.list e.subject m = (.ok (), t))
    (hGuarded : Guarded (d.after (captureAll event rest) t)) :
    Orderly (d.after (captureAll event rest) t) := by
  have hShape := sameShape_of_completeElement hComplete
  have hMarked :=
    lists_of_flushLists
      (h.guarded.housed.unflushed hElements hComplete) hFlush
  have hSize :
      t.lists.slots.size = d.session.lists.slots.size := by
    rw [hMarked, ListForest.size_marked]
    exact hShape.size_eq
  refine ⟨hGuarded, h.outside, h.nothing, ?_, ?_⟩
  · have hTied := h.tied
    rw [hElements] at hTied
    cases hTied with
    | cons hRest _ =>
        refine Tied.extend (Nat.le_of_eq hSize.symm) ?_
          (hRest.captureAll event)
        intro l _
        rw [hMarked, ListForest.owner_marked]
        exact hShape.owner_eq l
  · intro l hl
    change l < t.lists.slots.size at hl
    change l ∈ (captureAll event rest).map Element.list ∨
      t.lists.flushed l = true ∨ (t.lists.slot l).lists = []
    rw [map_list_captureAll]
    have hFlushedOf :
        t.lists.flushed l =
          if l = e.list ∧ e.list < m.lists.slots.size then
            true
          else
            d.session.lists.flushed l := by
      rw [hMarked, ListForest.flushed_marked, hShape.flushed_eq]
      rfl
    have hList : e.list < m.lists.slots.size := by
      rw [hShape.size_eq]
      exact (h.guarded.housed.uses_top hElements).list
    rw [hSize] at hl
    by_cases hMem : l ∈ d.elements.map Element.list
    · rw [hElements, List.map_cons, List.mem_cons] at hMem
      rcases hMem with hTop | hIn
      · right; left
        rw [hFlushedOf, if_pos ⟨hTop, hList⟩]
      · exact .inl hIn
    · right
      rcases h.settled l hl with hIn | hFlushed | hNil
      · exact absurd hIn hMem
      · left
        rw [hFlushedOf, hFlushed, ite_self]
      · right
        rcases spares_of_completeElement h hElements hl hMem
            hComplete with
          ⟨_, hSpares⟩
        rw [hMarked, ListForest.lists_marked, hSpares.same]
        exact hNil

/- Every event that is processed leaves things in order. -/
theorem orderly_of_process
    {d d' : State}
    {event : Event}
    {notes : List Note}
    (hOrderly : Orderly d)
    (h : process d event = (.ok d', notes)) :
    Orderly d' := by
  have hGuarded := guarded_of_process hOrderly.guarded h
  rcases process_ok_cases h with
    ⟨name, attributes, depth, e, t, rfl, hOpen, rfl, _⟩ |
      ⟨data, rfl, rfl, _⟩ |
      ⟨name, depth, e, rest, m, t, rfl, hElements, _, hComplete,
        hFlush, rfl, _⟩
  · exact hOrderly.opened hOpen hGuarded
  · refine ⟨hGuarded, hOrderly.outside, hOrderly.nothing,
      hOrderly.tied.captureAll _, ?_⟩
    intro l hl
    change l ∈ (captureAll _ d.elements).map Element.list ∨ _
    rw [map_list_captureAll]
    exact hOrderly.settled l hl
  · exact hOrderly.closed hElements hComplete hFlush hGuarded

/- At the start no list is in use. -/
theorem orderly_initial
    {settings : Settings}
    {document : String}
    {iri : Iri}
    (hGuarded : Guarded (State.initial settings document iri)) :
    Orderly (State.initial settings document iri) := by
  refine ⟨hGuarded, rfl, rfl, .nil, ?_⟩
  intro l hl
  right; right
  have hSize :
      (State.initial settings document iri).session.lists.slots.size =
        1 :=
    ListForest.size_root _ _
  rw [hSize, Nat.lt_one_iff] at hl
  rw [hl]
  rfl

theorem orderly_of_start
    {settings : Settings}
    {base : String}
    {first : State}
    (hHtml : settings.isHtml = true)
    (hStart : start settings base = .ok first) :
    Orderly first := by
  have hGuarded := guarded_start hHtml hStart
  rcases start_eq_ok hStart with ⟨document, iri, _, _, rfl⟩
  exact orderly_initial hGuarded

theorem orderly_of_run
    {d d' : State}
    {events : List Event}
    {sections : List (List Note)}
    (hOrderly : Orderly d)
    (h : Run d events sections d') :
    Orderly d' := by
  induction h with
  | nil _ => exact hOrderly
  | cons hStep _ ih => exact ih (orderly_of_process hOrderly hStep)

end Evaluation
end LinkedMarkup
