import LinkedMarkup.Proofs.Evaluation.History
import LinkedMarkup.Proofs.Evaluation.Ownership

/-
  This file proves how lists are written in a run over HTML: a
  mapping that has been flushed has had each of its lists
  written as one block, at one event, as it still is; a
  mapping that has not been flushed has none written.

  Key definitions include:
    * `Evaluation.Block`
    * `Evaluation.blocks`
    * `Evaluation.stated`
    * `Evaluation.written`
    * `Evaluation.Balanced`

  Main declarations:
    * `Evaluation.quads_eq_blocks`
    * `Evaluation.mem_written`
    * `Evaluation.balanced_of_process`
    * `Evaluation.balanced_of_run`
-/

namespace LinkedMarkup
namespace Evaluation

open Work

------------------------------------------------------------
-- Blocks
------------------------------------------------------------

/- A list as it is written: its owner, and what it relates. -/
structure Block where
  list : Nat
  subject : Subject
  predicate : Iri
  members : List Object
  deriving DecidableEq, Repr

namespace Block

/- The quads of a block that is written by member. -/
def quads
    (b : Block) : List Quad :=
  Quad.ofMembers b.subject b.predicate b.members

/- The blocks of the lists of a mapping, if it has a subject. -/
def ofLists
    (list : Nat)
    (subject : Option Subject)
    (lists : List (Iri × List Object)) : List Block :=
  match subject with
  | none => []
  | some x => lists.map (fun entry => ⟨list, x, entry.1, entry.2⟩)

theorem list_of_mem_ofLists
    {list : Nat}
    {subject : Option Subject}
    {lists : List (Iri × List Object)}
    {b : Block}
    (h : b ∈ ofLists list subject lists) :
    b.list = list := by
  cases subject with
  | none => cases h
  | some x =>
      rcases List.mem_map.mp h with ⟨entry, _, rfl⟩
      rfl

theorem mem_of_mem_ofLists
    {list : Nat}
    {subject : Option Subject}
    {lists : List (Iri × List Object)}
    {b : Block}
    (h : b ∈ ofLists list subject lists) :
    (b.predicate, b.members) ∈ lists := by
  cases subject with
  | none => cases h
  | some x =>
      rcases List.mem_map.mp h with ⟨entry, hMem, rfl⟩
      exact hMem

theorem flatMap_quads_ofLists
    (list : Nat)
    (subject : Option Subject)
    (lists : List (Iri × List Object)) :
    (ofLists list subject lists).flatMap quads =
      (Emission.ofLists subject lists).flatMap Emission.asMembers := by
  cases subject with
  | none => rfl
  | some x =>
      unfold ofLists Emission.ofLists
      rw [List.flatMap_map, List.flatMap_map]
      rfl

end Block

/- The blocks that an event writes. -/
def blocks
    (d : State)
    (event : Event) : List Block :=
  match closing? d event with
  | none => []
  | some o =>
      Block.ofLists o.list o.subject
        ((completeElement o d.fresh).2.lists.slot o.list).lists

/- The quads that an event states on their own. -/
def stated
    (d : State)
    (event : Event) : List Quad :=
  match closing? d event with
  | none => Note.quads (process d event).2
  | some o => Note.quads (completeElement o d.fresh).2.notes.toList

/- An event writes its blocks after its other quads. -/
theorem quads_eq_blocks
    {d d' : State}
    {event : Event}
    {notes : List Note}
    (hHoused : Housed d)
    (hCollects : ∀ l, (d.session.lists.slot l).collects = false)
    (h : process d event = (.ok d', notes)) :
    Note.quads notes =
      stated d event ++ (blocks d event).flatMap Block.quads := by
  rw [quads_eq_written hHoused (fun l _ => hCollects l) h]
  unfold Emission.written emissions stated blocks
  simp only [Bool.false_eq_true, if_false]
  cases closing? d event with
  | none =>
      dsimp only
      rw [Emission.asMembers_stated]
      exact (List.append_nil _).symm
  | some o =>
      dsimp only
      rw [List.flatMap_append, Emission.asMembers_stated,
        Block.flatMap_quads_ofLists]

theorem blocks_of_closing
    {d : State}
    {event : Event}
    {o : Element}
    {m : Session}
    (hClosing : closing? d event = some o)
    (hComplete : completeElement o d.fresh = (.ok (), m)) :
    blocks d event =
      Block.ofLists o.list o.subject (m.lists.slot o.list).lists := by
  have hSession : (completeElement o d.fresh).2 = m :=
    congrArg Prod.snd hComplete
  unfold blocks
  rw [hClosing]
  dsimp only
  rw [hSession]

/- Only the end tag of an element writes blocks: those it owns. -/
theorem closing_of_mem_blocks
    {d : State}
    {event : Event}
    {b : Block}
    (h : b ∈ blocks d event) :
    ∃ name depth o rest,
      event = .closed name depth ∧ d.elements = o :: rest ∧
        b.list = o.list := by
  unfold blocks closing? at h
  split at h
  · cases h
  · rename_i o hClosing
    split at hClosing
    · rename_i name depth e rest hElements
      split at hClosing
      · cases hClosing
        exact ⟨name, depth, o, rest, rfl, hElements,
          Block.list_of_mem_ofLists h⟩
      · cases hClosing
    · cases hClosing

------------------------------------------------------------
-- Written blocks
------------------------------------------------------------

/- The blocks that events write, with the positions of these. -/
def written
    (first : State)
    (events : List Event) : List (Nat × Block) :=
  events.zipIdx.flatMap (fun entry =>
    (blocks (first.before events entry.2) entry.1).map
      (fun b => (entry.2, b)))

theorem written_concat
    {first d : State}
    {events : List Event}
    {sections : List (List Note)}
    (hRun : Run first events sections d)
    (event : Event) :
    written first (events ++ [event]) =
      written first events ++
        (blocks d event).map (fun b => (events.length, b)) := by
  unfold written
  rw [List.zipIdx_append, List.flatMap_append]
  congr 1
  · apply List.flatMap_congr
    rintro ⟨e, j⟩ hMem
    have hEvent := List.mem_zipIdx_iff_getElem?.mp hMem
    have hLt : j < events.length :=
      (List.getElem?_eq_some_iff.mp hEvent).1
    dsimp only
    rw [before_append first events [event] (Nat.le_of_lt hLt)]
  · have hState :
        first.before (events ++ [event]) events.length = d := by
      rw [before_append first events [event] (Nat.le_refl _),
        hRun.before_length]
    simp [hState]

theorem mem_written
    {first : State}
    {events : List Event}
    {j : Nat}
    {b : Block} :
    (j, b) ∈ written first events ↔
      ∃ event, events[j]? = some event ∧
        b ∈ blocks (first.before events j) event := by
  unfold written
  rw [List.mem_flatMap]
  constructor
  · rintro ⟨⟨event, k⟩, hMem, hBlock⟩
    rcases List.mem_map.mp hBlock with ⟨c, hc, hEq⟩
    cases hEq
    exact ⟨event, List.mem_zipIdx_iff_getElem?.mp hMem, hc⟩
  · rintro ⟨event, hEvent, hBlock⟩
    exact ⟨(event, j), List.mem_zipIdx_iff_getElem?.mpr hEvent,
      List.mem_map.mpr ⟨b, hBlock, rfl⟩⟩

------------------------------------------------------------
-- The balance of lists and blocks
------------------------------------------------------------

/- The blocks of one mapping among those written. -/
def blocksOf
    (done : List (Nat × Block))
    (list : Nat) : List (Nat × Block) :=
  done.filter (fun w => w.2.list = list)

/-
  What has been written of each mapping: nothing before it is
  flushed, and all of its lists at once when it is.
-/
structure Balanced
    (d : State)
    (done : List (Nat × Block)) : Prop where
  unflushed :
    ∀ l, d.session.lists.flushed l = false → blocksOf done l = []
  flushed :
    ∀ l, d.session.lists.flushed l = true →
      ∃ j subject,
        blocksOf done l =
            (Block.ofLists l subject
              (d.session.lists.slot l).lists).map
                (fun b => (j, b)) ∧
          ((d.session.lists.slot l).lists ≠ [] →
            subject.isSome = true)

theorem blocksOf_append
    (done more : List (Nat × Block))
    (list : Nat) :
    blocksOf (done ++ more) list =
      blocksOf done list ++ blocksOf more list :=
  List.filter_append ..

theorem blocksOf_ofLists
    (j list l : Nat)
    (subject : Option Subject)
    (lists : List (Iri × List Object)) :
    blocksOf
        ((Block.ofLists list subject lists).map (fun b => (j, b))) l =
      if l = list then
        (Block.ofLists list subject lists).map (fun b => (j, b))
      else
        [] := by
  unfold blocksOf
  by_cases hEq : l = list
  · rw [if_pos hEq, List.filter_eq_self]
    intro w hMem
    rcases List.mem_map.mp hMem with ⟨b, hb, rfl⟩
    simp [hEq, Block.list_of_mem_ofLists hb]
  · rw [if_neg hEq, List.filter_eq_nil_iff]
    intro w hMem
    rcases List.mem_map.mp hMem with ⟨b, hb, rfl⟩
    have hList := Block.list_of_mem_ofLists hb
    have hNe : list ≠ l := fun hSame => hEq hSame.symm
    simp [hList, hNe]

/- Opening an element flushes no mapping. -/
theorem Opened.flushed_eq
    {settings : Settings}
    {parent : Scope}
    {isRoot : Bool}
    {name : String}
    {s t : Session}
    {e : Element}
    (h : Opened settings parent isRoot name s t e)
    (l : Nat) :
    t.lists.flushed l = s.lists.flushed l := by
  by_cases hOwns : OwnsLists parent e.subject
  · rw [(h.root hOwns).flushed_eq, ListForest.flushed_root]
  · rw [(h.child hOwns).flushed_eq, ListForest.flushed_child]

/- A mapping that has been flushed exists. -/
theorem lt_size_of_flushed
    {f : ListForest Iri Object}
    {l : Nat}
    (h : f.flushed l = true) :
    l < f.slots.size := by
  by_contra hNot
  rw [ListForest.flushed_of_size_le (Nat.le_of_not_lt hNot)] at h
  cases h

/- Events that flush nothing keep the balance. -/
theorem Balanced.unchanged
    {d d' : State}
    {event : Event}
    {notes : List Note}
    {done : List (Nat × Block)}
    (hOrderly : Orderly d)
    (h : Balanced d done)
    (hStep : process d event = (.ok d', notes))
    (hFlushed :
      ∀ l, d'.session.lists.flushed l = d.session.lists.flushed l) :
    Balanced d' done where
  unflushed l hl := by
    rw [hFlushed] at hl
    exact h.unflushed l hl
  flushed l hl := by
    rw [hFlushed] at hl
    have hSame :=
      (spares_of_process hOrderly (lt_size_of_flushed hl)
        (hOrderly.guarded.housed.not_mem_of_flushed hl) hStep).1
    rw [hSame]
    exact h.flushed l hl

/- An end tag writes the lists of the mapping that it flushes. -/
theorem Balanced.closed
    {d : State}
    {e : Element}
    {rest : List Element}
    {m t : Session}
    {event : Event}
    {done : List (Nat × Block)}
    (hOrderly : Orderly d)
    (h : Balanced d done)
    (hElements : d.elements = e :: rest)
    (hComplete : completeElement e d.fresh = (.ok (), m))
    (hFlush : flushLists e.list e.subject m = (.ok (), t))
    (j : Nat) :
    Balanced (d.after (captureAll event rest) t)
      (done ++
        (Block.ofLists e.list e.subject
          (m.lists.slot e.list).lists).map (fun b => (j, b))) := by
  have hShape := sameShape_of_completeElement hComplete
  have hUnflushed :=
    hOrderly.guarded.housed.unflushed hElements hComplete
  have hMarked := lists_of_flushLists hUnflushed hFlush
  have hOpen : d.session.lists.flushed e.list = false := by
    have hSame := hShape.flushed_eq e.list
    rw [hUnflushed] at hSame
    exact hSame.symm
  have hLists :
      ∀ l, (t.lists.slot l).lists = (m.lists.slot l).lists := by
    intro l
    rw [hMarked, ListForest.lists_marked]
  have hFlushed :
      ∀ l, l ≠ e.list →
        t.lists.flushed l = d.session.lists.flushed l := by
    intro l hNe
    rw [hMarked, ListForest.flushed_marked,
      if_neg (fun hBoth => hNe hBoth.1)]
    exact hShape.flushed_eq l
  constructor
  · intro l hl
    change t.lists.flushed l = false at hl
    have hNe : l ≠ e.list := by
      rintro rfl
      have hList : e.list < m.lists.slots.size := by
        rw [hShape.size_eq]
        exact (hOrderly.guarded.housed.uses_top hElements).list
      rw [hMarked, ListForest.flushed_marked, if_pos ⟨rfl, hList⟩] at hl
      cases hl
    rw [hFlushed l hNe] at hl
    rw [blocksOf_append, h.unflushed l hl, blocksOf_ofLists, if_neg hNe]
    rfl
  · intro l hl
    change t.lists.flushed l = true at hl
    change ∃ j subject,
      _ = (Block.ofLists l subject (t.lists.slot l).lists).map
          (fun b => (j, b)) ∧
        ((t.lists.slot l).lists ≠ [] → _)
    rw [hLists l, blocksOf_append, blocksOf_ofLists]
    by_cases hEq : l = e.list
    · rw [hEq, if_pos rfl, h.unflushed _ hOpen]
      refine ⟨j, e.subject, rfl, ?_⟩
      intro hSome
      rcases flush_cases hUnflushed hFlush with
        ⟨x, hSubject, _⟩ | ⟨_, hNil, _⟩
      · rw [hSubject]
        rfl
      · exact absurd hNil hSome
    · rw [if_neg hEq, List.append_nil]
      rw [hFlushed l hEq] at hl
      rcases spares_of_completeElement hOrderly hElements
          (lt_size_of_flushed hl)
          (hOrderly.guarded.housed.not_mem_of_flushed hl) hComplete with
        ⟨_, hSpares⟩
      rw [hSpares.same]
      exact h.flushed l hl

/- Every event that is processed keeps the balance. -/
theorem balanced_of_process
    {d d' : State}
    {event : Event}
    {notes : List Note}
    {done : List (Nat × Block)}
    (hOrderly : Orderly d)
    (hBalanced : Balanced d done)
    (h : process d event = (.ok d', notes))
    (j : Nat) :
    Balanced d' (done ++ (blocks d event).map (fun b => (j, b))) := by
  have hStep := h
  rcases process_ok_cases h with
    ⟨name, attributes, depth, e, t, rfl, hOpen, rfl, _⟩ |
      ⟨data, rfl, rfl, _⟩ |
      ⟨name, depth, e, rest, m, t, rfl, hElements, hName, hComplete,
        hFlush, rfl, _⟩
  · have hOpened :=
      openElement_opened _ _ _ name attributes d.fresh e t hOpen
    have hNone : blocks d (.opened name attributes depth) = [] := rfl
    rw [hNone, List.map_nil, List.append_nil]
    exact hBalanced.unchanged hOrderly hStep
      (fun l => hOpened.flushed_eq l)
  · have hNone : blocks d (.text data) = [] := rfl
    rw [hNone, List.map_nil, List.append_nil]
    exact hBalanced.unchanged hOrderly hStep (fun _ => rfl)
  · rw [blocks_of_closing (closing?_eq_some hElements hName depth)
      hComplete]
    exact hBalanced.closed hOrderly hElements hComplete hFlush j

/- Nothing has been written at the start. -/
theorem balanced_of_start
    {settings : Settings}
    {base : String}
    {first : State}
    (hStart : start settings base = .ok first) :
    Balanced first [] := by
  rcases start_eq_ok hStart with ⟨document, iri, _, _, rfl⟩
  refine ⟨fun _ _ => rfl, ?_⟩
  intro l hl
  have hLt := lt_size_of_flushed hl
  have hSize :
      (State.initial settings document iri).session.lists.slots.size =
        1 :=
    ListForest.size_root _ _
  rw [hSize, Nat.lt_one_iff] at hLt
  rw [hLt] at hl
  cases hl

/- A whole run over HTML keeps the balance. -/
theorem balanced_of_run
    {settings : Settings}
    {base : String}
    {first d : State}
    {events : List Event}
    {sections : List (List Note)}
    (hHtml : settings.isHtml = true)
    (hStart : start settings base = .ok first)
    (hRun : Run first events sections d) :
    Balanced d (written first events) := by
  refine Run.concat_induction
    (P := fun events _ d => Balanced d (written first events))
    (balanced_of_start hStart) ?_ hRun
  intro events sections d event notes d' hBefore hBalanced hStep
  rw [written_concat hBefore]
  exact balanced_of_process
    (orderly_of_run (orderly_of_start hHtml hStart) hBefore) hBalanced
    hStep events.length

end Evaluation
end LinkedMarkup
