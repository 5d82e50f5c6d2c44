import LinkedMarkup.Proofs.Evaluation.Blocks
import LinkedMarkup.Proofs.Evaluation.Obligations

/-
  This file proves that reading a whole HTML document writes
  every list exactly once, by member. Whatever is put in a
  list comes out at the end tag of the element that owns it,
  in the order in which it was put in; a list in which nothing
  was put comes out as the empty list; nothing is left over.

  Key definitions include:
    * `Evaluation.WrittenOnce`

  Main declarations:
    * `Evaluation.writtenOnce_of_mem_lists`
    * `Evaluation.writtenOnce_of_filed`
    * `Evaluation.writtenOnce_of_hangs`
    * `Evaluation.lists_written_once`
-/

namespace LinkedMarkup
namespace Evaluation

open Work

------------------------------------------------------------
-- Blocks with different predicates
------------------------------------------------------------

/- With different predicates, a block alone has its predicate. -/
theorem filter_block_eq_singleton
    {done : List (Nat × Block)}
    {list j : Nat}
    {x : Subject}
    {lists : List (Iri × List Object)}
    (hBlocks :
      blocksOf done list =
        (Block.ofLists list (some x) lists).map (fun b => (j, b)))
    (hKeys : (lists.map Prod.fst).Nodup)
    {p : Iri}
    {members : List Object}
    (hMem : (p, members) ∈ lists) :
    done.filter (fun w => w.2.list = list ∧ w.2.predicate = p) =
      [(j, ⟨list, x, p, members⟩)] := by
  have hSplit :
      done.filter (fun w => w.2.list = list ∧ w.2.predicate = p) =
        (blocksOf done list).filter (fun w => w.2.predicate = p) := by
    unfold blocksOf
    rw [List.filter_filter]
    apply List.filter_congr
    intro w _
    rw [Bool.decide_and, Bool.and_comm]
  rw [hSplit, hBlocks]
  unfold Block.ofLists
  rw [List.map_map, List.filter_map]
  change List.map _
    (lists.filter (fun entry => decide (entry.1 = p))) = _
  rw [ListForest.filter_key_eq_singleton hKeys hMem]
  rfl

------------------------------------------------------------
-- What stays as events go on
------------------------------------------------------------

/- Mappings keep their owners, and stay flushed. -/
structure GoesOn
    (f g : ListForest Iri Object) : Prop where
  size : f.slots.size ≤ g.slots.size
  owner :
    ∀ l, l < f.slots.size → (g.slot l).owner = (f.slot l).owner
  flushed : ∀ l, f.flushed l = true → g.flushed l = true

theorem GoesOn.trans
    {f g h : ListForest Iri Object}
    (hFG : GoesOn f g)
    (hGH : GoesOn g h) :
    GoesOn f h where
  size := Nat.le_trans hFG.size hGH.size
  owner l hl := by
    rw [hGH.owner l (Nat.lt_of_lt_of_le hl hFG.size)]
    exact hFG.owner l hl
  flushed l hl := hGH.flushed l (hFG.flushed l hl)

theorem goesOn_of_sameShape
    {f g : ListForest Iri Object}
    (h : f.SameShape g) :
    GoesOn f g where
  size := Nat.le_of_eq h.size_eq.symm
  owner l _ := h.owner_eq l
  flushed l hl := (h.flushed_eq l).trans hl

theorem goesOn_marked
    (f : ListForest Iri Object)
    (list : Nat) :
    GoesOn f (f.marked list) where
  size := by simp
  owner l _ := ListForest.owner_marked f list l
  flushed l hl := by
    rw [ListForest.flushed_marked]
    split
    · rfl
    · exact hl

theorem Opened.goesOn
    {settings : Settings}
    {parent : Scope}
    {isRoot : Bool}
    {name : String}
    {s t : Session}
    {e : Element}
    (h : Opened settings parent isRoot name s t e) :
    GoesOn s.lists t.lists where
  size := by
    have hSize := h.size_eq
    omega
  owner _ hl := h.owner_eq hl
  flushed l hl := (h.flushed_eq l).trans hl

theorem goesOn_of_process
    {d d' : State}
    {event : Event}
    {notes : List Note}
    (hHoused : Housed d)
    (h : process d event = (.ok d', notes)) :
    GoesOn d.session.lists d'.session.lists := by
  rcases process_ok_cases h with
    ⟨name, attributes, depth, e, t, rfl, hOpen, rfl, _⟩ |
      ⟨data, rfl, rfl, _⟩ |
      ⟨name, depth, e, rest, m, t, rfl, hElements, _, hComplete,
        hFlush, rfl, _⟩
  · exact (openElement_opened _ _ _ name attributes d.fresh e t
      hOpen).goesOn
  · exact goesOn_of_sameShape (.refl _)
  · have hMarked :=
      lists_of_flushLists (hHoused.unflushed hElements hComplete) hFlush
    change GoesOn d.session.lists t.lists
    rw [hMarked]
    exact (goesOn_of_sameShape
      (sameShape_of_completeElement hComplete)).trans
        (goesOn_marked m.lists e.list)

theorem goesOn_of_run
    {d d' : State}
    {events : List Event}
    {sections : List (List Note)}
    (hHoused : Housed d)
    (h : Run d events sections d') :
    GoesOn d.session.lists d'.session.lists := by
  induction h with
  | nil _ => exact goesOn_of_sameShape (.refl _)
  | cons hStep _ ih =>
      exact (goesOn_of_process hHoused hStep).trans
        (ih (housed_of_process hHoused hStep))

/- What an event writes belongs to a mapping that it flushes. -/
theorem flushed_of_mem_blocks
    {d d' : State}
    {event : Event}
    {notes : List Note}
    (hHoused : Housed d)
    (h : process d event = (.ok d', notes))
    {b : Block}
    (hMem : b ∈ blocks d event) :
    d'.session.lists.flushed b.list = true := by
  rcases closing_of_mem_blocks hMem with
    ⟨name, depth, o, rest, rfl, hElements, hList⟩
  rcases process_closed h with
    ⟨_, _, m, t, hTop, _, hComplete, hFlush, rfl, _⟩
  rw [hElements] at hTop
  cases hTop
  have hMarked :=
    lists_of_flushLists (hHoused.unflushed hElements hComplete) hFlush
  have hLt : o.list < m.lists.slots.size := by
    rw [(sameShape_of_completeElement hComplete).size_eq]
    exact (hHoused.uses_top hElements).list
  change t.lists.flushed b.list = true
  rw [hMarked, ListForest.flushed_marked, hList, if_pos ⟨rfl, hLt⟩]

------------------------------------------------------------
-- Lists at the end
------------------------------------------------------------

/-
  A predicate's list of an owner that is written in just one
  block, with all that was ever put in it, at the end tag of
  the element whose list mapping is the owner.
-/
structure WrittenOnce
    (first : State)
    (events : List Event)
    (filings : List Filing)
    (final : State)
    (list : Nat)
    (predicate : Iri)
    (position : Nat)
    (b : Block) : Prop where
  only :
    (written first events).filter
        (fun w => w.2.list = list ∧ w.2.predicate = predicate) =
      [(position, b)]
  members :
    b.members = final.session.lists.filedUnder filings list predicate
  closes :
    ∃ name depth tag tags y,
      events[position]? = some (.closed name depth) ∧
        Event.openTags (events.take position) = tag :: tags ∧
        startTagAt first events tag.position = some y ∧
        y.element.list = list

theorem WrittenOnce.mem
    {first final : State}
    {events : List Event}
    {filings : List Filing}
    {list j : Nat}
    {p : Iri}
    {b : Block}
    (h : WrittenOnce first events filings final list p j b) :
    (j, b) ∈ written first events ∧ b.list = list ∧
      b.predicate = p := by
  have hIn :
      (j, b) ∈
        (written first events).filter
          (fun w => w.2.list = list ∧ w.2.predicate = p) := by
    rw [h.only]
    exact List.mem_singleton.mpr rfl
  rcases List.mem_filter.mp hIn with ⟨hMem, hBoth⟩
  exact ⟨hMem, of_decide_eq_true hBoth⟩

section Runs

variable {settings : Settings} {base : String}
variable {first final : State}
variable {events : List Event} {sections : List (List Note)}

/- A run only goes through states in which lists may be used. -/
theorem housed_before
    (hStart : start settings base = .ok first)
    (hRun : Run first events sections final)
    (position : Nat) :
    Housed (first.before events position) := by
  rcases hRun.between (Nat.zero_le position) with ⟨_, hBefore⟩
  exact housed_of_run (housed_of_start hStart) hBefore

/- Who owns a mapping never changes once it is there. -/
theorem owner_before
    (hStart : start settings base = .ok first)
    (hRun : Run first events sections final)
    {position : Nat}
    (hLe : position ≤ events.length)
    {list : Nat}
    (hList :
      list < (first.before events position).session.lists.slots.size) :
    (final.session.lists.slot list).owner =
      ((first.before events position).session.lists.slot
        list).owner := by
  rcases hRun.between hLe with ⟨_, hRest⟩
  rw [hRun.before_length] at hRest
  exact (goesOn_of_run (housed_before hStart hRun position)
    hRest).owner list hList

/- After a block has been written, its owner is flushed. -/
theorem flushed_of_mem_written
    (hStart : start settings base = .ok first)
    (hRun : Run first events sections final)
    {j : Nat}
    {b : Block}
    (hWritten : (j, b) ∈ written first events)
    {position : Nat}
    (hLater : j < position) :
    (first.before events position).session.lists.flushed b.list =
      true := by
  rcases mem_written.mp hWritten with ⟨event, hEvent, hBlock⟩
  rcases hRun.step_at hEvent with ⟨_, _, _, hClose⟩
  rcases hRun.between (Nat.succ_le_of_lt hLater) with ⟨_, hMiddle⟩
  have hFlushed :=
    flushed_of_mem_blocks (housed_before hStart hRun j) hClose hBlock
  exact (goesOn_of_run (housed_before hStart hRun (j + 1))
    hMiddle).flushed _ hFlushed

/- All lists of a run by member are accounted for. -/
theorem accounts_of_run
    (hStyle : settings.options.listStyle = .members)
    (hStart : start settings base = .ok first)
    (hRun : Run first events sections final) :
    final.session.lists.Accounts (Note.filings sections.flatten) := by
  rcases start_eq_ok hStart with ⟨document, iri, _, _, rfl⟩
  have hLedger := ledger_of_run hRun (ledger_initial hStyle document iri)
  rw [List.nil_append] at hLedger
  exact hLedger.accounts

/- A block is written at the end tag of its owner. -/
theorem closes_of_mem_written
    (hStart : start settings base = .ok first)
    (hRun : Run first events sections final)
    {j : Nat}
    {b : Block}
    (hMem : (j, b) ∈ written first events) :
    ∃ name depth tag tags y,
      events[j]? = some (.closed name depth) ∧
        Event.openTags (events.take j) = tag :: tags ∧
        startTagAt first events tag.position = some y ∧
        y.element.list = b.list := by
  rcases mem_written.mp hMem with ⟨event, hEvent, hBlock⟩
  rcases closing_of_mem_blocks hBlock with
    ⟨name, depth, o, rest, rfl, hElements, hList⟩
  have hAligned :=
    (hRun.aligned_before (blank_of_start hStart).1 j).2
  rw [hElements] at hAligned
  generalize hTags : Event.openTags (events.take j) = tags at hAligned
  cases hAligned with
  | @cons tag tags _ _ y _ hTag _ _ hBare =>
      refine ⟨name, depth, tag, tags, y, hEvent, rfl, hTag, ?_⟩
      have hSame : o.bare.list = y.element.bare.list := by rw [hBare]
      exact hSame.symm.trans hList.symm

/- At the end, all mappings with lists have been flushed. -/
theorem flushed_of_lists_ne_nil
    (hHtml : settings.isHtml = true)
    (hStart : start settings base = .ok first)
    (hRun : Run first events sections final)
    (hEnd : final.elements = [])
    {list : Nat}
    (hSome : (final.session.lists.slot list).lists ≠ []) :
    final.session.lists.flushed list = true := by
  have hLt : list < final.session.lists.slots.size := by
    by_contra hNot
    rw [ListForest.slot_of_size_le (Nat.le_of_not_lt hNot)] at hSome
    exact hSome rfl
  have hOrderly := orderly_of_run (orderly_of_start hHtml hStart) hRun
  rcases hOrderly.settled list hLt with hOpen | hFlushed | hNil
  · rw [hEnd] at hOpen
    cases hOpen
  · exact hFlushed
  · exact absurd hNil hSome

/- Every list that is there at the end was written once. -/
theorem writtenOnce_of_mem_lists
    (hHtml : settings.isHtml = true)
    (hStyle : settings.options.listStyle = .members)
    (hStart : start settings base = .ok first)
    (hRun : Run first events sections final)
    (hEnd : final.elements = [])
    {list : Nat}
    {p : Iri}
    {members : List Object}
    (hMem : (p, members) ∈ (final.session.lists.slot list).lists) :
    ∃ j b,
      b.members = members ∧
        WrittenOnce first events (Note.filings sections.flatten) final
          list p j b := by
  have hSome := List.ne_nil_of_mem hMem
  have hAccounts := accounts_of_run hStyle hStart hRun
  have hFlushed :=
    flushed_of_lists_ne_nil hHtml hStart hRun hEnd hSome
  rcases (balanced_of_run hHtml hStart hRun).flushed list hFlushed with
    ⟨j, subject, hBlocks, hSubject⟩
  rcases Option.isSome_iff_exists.mp (hSubject hSome) with ⟨x, rfl⟩
  have hOnly :=
    filter_block_eq_singleton hBlocks (hAccounts.keys list) hMem
  have hWritten : (j, ⟨list, x, p, members⟩) ∈ written first events := by
    apply List.mem_of_mem_filter
    rw [hOnly]
    exact List.mem_singleton.mpr rfl
  refine ⟨j, ⟨list, x, p, members⟩, rfl, hOnly, ?_,
    closes_of_mem_written hStart hRun hWritten⟩
  rw [← hAccounts.values list p]
  exact (ListForest.values_of_mem (hAccounts.keys list) hMem).symm

/-
  What is put in a list is not written before it is: the list
  has not been flushed by then.
-/
theorem le_of_filed
    (hHtml : settings.isHtml = true)
    (hStyle : settings.options.listStyle = .members)
    (hStart : start settings base = .ok first)
    (hRun : Run first events sections final)
    {k j : Nat}
    {notes : List Note}
    {x : Filing}
    (hSection : sections[k]? = some notes)
    (hFiled : x ∈ Note.filings notes)
    {b : Block}
    (hWritten : (j, b) ∈ written first events)
    (hOwner : (final.session.lists.slot x.list).owner = b.list) :
    k ≤ j := by
  by_contra hLater
  rw [Nat.not_le] at hLater
  have hLt : k < events.length := by
    rw [← hRun.length_eq]
    exact (List.getElem?_eq_some_iff.mp hSection).1
  rcases hRun.step_at (List.getElem?_eq_getElem hLt) with
    ⟨_, hSame, hBefore, hStep⟩
  rw [hSection] at hSame
  cases hSame
  have hNow := orderly_of_run (orderly_of_start hHtml hStart) hBefore
  -- The owner is flushed when the block is written, and stays so.
  have hFlushed := flushed_of_mem_written hStart hRun hWritten hLater
  have hUnfiled :=
    (spares_of_process hNow (lt_size_of_flushed hFlushed)
      (hNow.guarded.housed.not_mem_of_flushed hFlushed) hStep).2 x
        hFiled
  apply hUnfiled
  rw [← hOwner]
  have hBound :
      x.list <
        (first.before events (k + 1)).session.lists.slots.size := by
    apply (accounts_of_run hStyle hStart (hBefore.concat hStep)).filed
    rw [List.flatten_append, Note.filings_append]
    apply List.mem_append_right
    simpa using hFiled
  exact (owner_before hStart hRun (Nat.succ_le_of_lt hLt) hBound).symm

/-
  Lists that a start tag makes for what waits are not written
  before it either: an element that is still open owns them.
-/
theorem lt_of_hanging
    (hHtml : settings.isHtml = true)
    (hStart : start settings base = .ok first)
    (hRun : Run first events sections final)
    {k j : Nat}
    {x : StartTag}
    (hTag : startTagAt first events k = some x)
    {b : Block}
    (hWritten : (j, b) ∈ written first events)
    (hOwner :
      (final.session.lists.slot x.element.list).owner = b.list) :
    k < j := by
  by_contra hNot
  rw [Nat.not_lt] at hNot
  rcases Option.bind_eq_some_iff.mp hTag with ⟨event, hEvent, hRead⟩
  rcases reads_of_startTag? hRead with ⟨name, depth, _, _, rfl, _⟩
  rcases hRun.step_at hEvent with ⟨_, _, hBefore, hStep⟩
  have hNow :=
    orderly_of_process
      (orderly_of_run (orderly_of_start hHtml hStart) hBefore) hStep
  have hFlushed :=
    flushed_of_mem_written hStart hRun hWritten (Nat.lt_succ_of_le hNot)
  apply hNow.guarded.housed.not_mem_of_flushed hFlushed
  rcases process_startTag hStep with
    ⟨y, m, t, hSame, _, _, _, _, hNext, _⟩
  rw [hRead] at hSame
  cases hSame
  have hTied := hNow.tied
  have hElements :
      (first.before events (k + 1)).elements =
        x.element :: captureAll (.opened name x.attributes depth)
          (first.before events k).elements := by
    rw [hNext]
    rfl
  rw [hElements] at hTied ⊢
  cases hTied with
  | cons _ hUses =>
      rcases hUses.list with ⟨hBound, hOwned⟩
      have hLt : k < events.length :=
        (List.getElem?_eq_some_iff.mp hEvent).1
      rw [← hOwner,
        owner_before hStart hRun (Nat.succ_le_of_lt hLt) hBound]
      exact hOwned

/- An event of a run writes its blocks after its other quads. -/
theorem quads_eq_blocks_of_run
    (hStyle : settings.options.listStyle = .members)
    (hStart : start settings base = .ok first)
    (hRun : Run first events sections final)
    {j : Nat}
    {event : Event}
    {notes : List Note}
    (hEvent : events[j]? = some event)
    (hSection : sections[j]? = some notes) :
    Note.quads notes =
      stated (first.before events j) event ++
        (blocks (first.before events j) event).flatMap
          Block.quads := by
  rcases hRun.step_at hEvent with ⟨_, hSame, hBefore, hStep⟩
  rw [hSection] at hSame
  cases hSame
  exact quads_eq_blocks (housed_before hStart hRun j)
    (accounts_of_run hStyle hStart hBefore).collects hStep

/- What is put in a list is written later, with its list. -/
theorem writtenOnce_of_filed
    (hHtml : settings.isHtml = true)
    (hStyle : settings.options.listStyle = .members)
    (hStart : start settings base = .ok first)
    (hRun : Run first events sections final)
    (hEnd : final.elements = [])
    {k : Nat}
    {notes : List Note}
    {x : Filing}
    (hSection : sections[k]? = some notes)
    (hFiled : x ∈ Note.filings notes) :
    ∃ j b,
      k ≤ j ∧ x.value ∈ b.members ∧
        b.quads =
          b.members.map (Quad.triple b.subject x.predicate) ∧
        WrittenOnce first events (Note.filings sections.flatten) final
          (final.session.lists.slot x.list).owner x.predicate j b := by
  have hMem : x ∈ Note.filings sections.flatten := by
    unfold Note.filings at hFiled ⊢
    rcases List.mem_filterMap.mp hFiled with ⟨n, hn, hx⟩
    apply List.mem_filterMap.mpr
    exact ⟨n, List.mem_flatten_of_mem
      (List.mem_of_getElem? hSection) hn, hx⟩
  rcases mem_lists_of_filed (accounts_of_run hStyle hStart hRun) hMem
      rfl with
    ⟨members, hList, hValue⟩
  rcases writtenOnce_of_mem_lists hHtml hStyle hStart hRun hEnd
      hList with
    ⟨j, b, rfl, hOnce⟩
  rcases hOnce.mem with ⟨hWritten, hOwner, hPredicate⟩
  refine ⟨j, b, ?_, hValue, ?_, hOnce⟩
  · exact le_of_filed hHtml hStyle hStart hRun hSection hFiled
      hWritten hOwner.symm
  · unfold Block.quads Quad.ofMembers
    rw [hPredicate]
    cases hMembers : b.members with
    | nil => simp [hMembers] at hValue
    | cons member others => rfl

/- A list made for a relation that waits is written later. -/
theorem writtenOnce_of_hangs
    (hHtml : settings.isHtml = true)
    (hStyle : settings.options.listStyle = .members)
    (hStart : start settings base = .ok first)
    (hRun : Run first events sections final)
    (hEnd : final.elements = [])
    {k : Nat}
    {x : StartTag}
    (hTag : startTagAt first events k = some x)
    (hHangs : x.Hangs)
    (hInList : x.attributes.has "inlist" = true)
    {p : Iri}
    (hMem : p ∈ x.reading.rel) :
    ∃ j b,
      k < j ∧
        WrittenOnce first events (Note.filings sections.flatten) final
          (final.session.lists.slot x.element.list).owner p j b ∧
        (b.members = [] →
          b.quads = [.triple b.subject p (.iri Rdf.nil)]) := by
  have hLt : k < events.length := by
    rcases Option.bind_eq_some_iff.mp hTag with ⟨event, hEvent, _⟩
    exact (List.getElem?_eq_some_iff.mp hEvent).1
  have hHolds :=
    holds_of_startTagAt hStart hRun hTag hHangs hInList hMem hLt
  rw [hRun.before_length] at hHolds
  rcases List.mem_map.mp
      (ListForest.isSome_members?_iff.mp hHolds.2.2) with
    ⟨⟨_, members⟩, hList, rfl⟩
  rcases writtenOnce_of_mem_lists hHtml hStyle hStart hRun hEnd
      hList with
    ⟨j, b, rfl, hOnce⟩
  rcases hOnce.mem with ⟨hWritten, hOwner, hPredicate⟩
  refine ⟨j, b, ?_, hOnce, ?_⟩
  · exact lt_of_hanging hHtml hStart hRun hTag hWritten hOwner.symm
  · intro hNone
    unfold Block.quads
    rw [hNone, hPredicate]
    rfl

/-
  Reading a whole HTML document writes every list once. Each
  event writes its blocks after its other quads. What is put
  in a list is in the one block of its owner and predicate,
  which is written at the owner's end tag and has all that was
  put in it, in order. So it is with lists that are made for
  relations that wait: without members they come out as the
  empty list. At the end all lists have been written.
-/
theorem lists_written_once
    (hHtml : settings.isHtml = true)
    (hStyle : settings.options.listStyle = .members)
    (hNested : Event.Nested events)
    (hStart : start settings base = .ok first)
    (hRun : Run first events sections final) :
    (∀ j event notes, events[j]? = some event →
      sections[j]? = some notes →
        Note.quads notes =
          stated (first.before events j) event ++
            (blocks (first.before events j) event).flatMap
              Block.quads) ∧
    (∀ k notes x, sections[k]? = some notes →
      x ∈ Note.filings notes →
        ∃ j b,
          k ≤ j ∧ x.value ∈ b.members ∧
            b.quads =
              b.members.map (Quad.triple b.subject x.predicate) ∧
            WrittenOnce first events (Note.filings sections.flatten)
              final (final.session.lists.slot x.list).owner
              x.predicate j b) ∧
    (∀ k x, startTagAt first events k = some x → x.Hangs →
      x.attributes.has "inlist" = true → ∀ p ∈ x.reading.rel,
        ∃ j b,
          k < j ∧
            WrittenOnce first events (Note.filings sections.flatten)
              final (final.session.lists.slot x.element.list).owner p
              j b ∧
            (b.members = [] →
              b.quads = [.triple b.subject p (.iri Rdf.nil)])) ∧
    ∀ list p members,
      (p, members) ∈ (final.session.lists.slot list).lists →
        ∃ j b,
          b.members = members ∧
            WrittenOnce first events (Note.filings sections.flatten)
              final list p j b := by
  have hEnd :=
    elements_of_finish (finish_of_run_nested hStart hNested hRun)
  refine ⟨?_, ?_, ?_, ?_⟩
  · intro j event notes hEvent hSection
    exact quads_eq_blocks_of_run hStyle hStart hRun hEvent hSection
  · intro k notes x hSection hFiled
    exact writtenOnce_of_filed hHtml hStyle hStart hRun hEnd hSection
      hFiled
  · intro k x hTag hHangs hInList p hMem
    exact writtenOnce_of_hangs hHtml hStyle hStart hRun hEnd hTag
      hHangs hInList hMem
  · intro list p members hMem
    exact writtenOnce_of_mem_lists hHtml hStyle hStart hRun hEnd hMem

end Runs

namespace Unanswered

def settings : Settings :=
  ⟨.html, ⟨.members, true, [("f", "http://f/")], []⟩⟩

def first : State :=
  State.initial settings "http://ex/" ⟨"http://ex/"⟩

/- A relation that goes to a list, and nothing that answers it. -/
def events : List Event :=
  [.opened "div" [("about", "#a")] 0,
    .opened "p" [("rel", "f:p"), ("inlist", "")] 1,
    .closed "p" 1,
    .opened "b" [("property", "f:q"), ("inlist", "")] 1,
    .text "X", .closed "b" 1, .closed "div" 0]

def tag : StartTag :=
  (startTagAt first events 1).get (by decide +kernel)

def filings : List Filing :=
  Note.filings (Extraction.evaluate first events).1.flatten

theorem start_eq :
    start settings "http://ex/" = .ok first :=
  start_of_document (by decide +kernel) (by decide +kernel) settings

theorem nested_events :
    Event.Nested events :=
  .element "div" _ 0 0
    (.element "p" _ 1 1 .nil
      (.element "b" _ 1 1 (.text "X" .nil) .nil)) .nil

theorem hangs_tag :
    tag.Hangs :=
  ⟨by decide +kernel, .inl (by decide +kernel)⟩

theorem run_events :
    Run first events (Extraction.evaluate first events).1
      (first.through events) :=
  run_through (by decide +kernel)

end Unanswered

open Unanswered in
/- Its list comes out empty at the end tag of the outer element. -/
theorem unanswered_list_written_empty :
    ∃ j b,
      1 < j ∧
        WrittenOnce first events filings (first.through events)
          ((first.through events).session.lists.slot
            tag.element.list).owner ⟨"http://f/p"⟩ j b ∧
        b.quads = [.triple b.subject ⟨"http://f/p"⟩ (.iri Rdf.nil)] := by
  rcases lists_written_once rfl rfl nested_events start_eq
      run_events with
    ⟨_, _, hHanging, _⟩
  rcases hHanging 1 tag (Option.some_get _).symm hangs_tag
      (by decide +kernel) ⟨"http://f/p"⟩ (by decide +kernel) with
    ⟨j, b, hLater, hOnce, hQuads⟩
  refine ⟨j, b, hLater, hOnce, hQuads ?_⟩
  rw [hOnce.members]
  decide +kernel

end Evaluation
end LinkedMarkup
