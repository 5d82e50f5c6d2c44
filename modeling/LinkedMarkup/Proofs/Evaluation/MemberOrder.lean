import LinkedMarkup.Proofs.Evaluation.WrittenOnce
import Mathlib.Data.List.Sort

/-
  This file proves in which order the members of lists are
  written: in the order in which they were put in. That is the
  order of the start tags of the elements that put them there,
  but for elements inside each other. A literal that is taken
  from content is put in a list at an end tag, and so comes
  after the members of all elements within that content.

  Key definitions include:
    * `Event.origin`
    * `Event.Encloses`
    * `Evaluation.Contribution`
    * `Evaluation.contributions`
    * `Evaluation.MembersInTagOrder`

  Main declarations:
    * `Event.origin_lt_iff`
    * `Evaluation.members_of_mem_written`
    * `Evaluation.members_written_as_filed`
    * `Evaluation.not_membersInTagOrder`
-/

namespace LinkedMarkup

------------------------------------------------------------
-- The elements that events belong to
------------------------------------------------------------

namespace Event

/-
  The position of the start tag that an event goes back to: an
  end tag goes back to that of the element it closes, and any
  other event to itself.
-/
def origin
    (events : List Event)
    (position : Nat) : Nat :=
  match events[position]?, openTags (events.take position) with
  | some (.closed _ _), tag :: _ => tag.position
  | _, _ => position

/-
  That the element of one event is open when the start tag is
  read that another event goes back to.
-/
def Encloses
    (events : List Event)
    (outer inner : Nat) : Prop :=
  origin events outer ∈
    (openTags (events.take (origin events inner))).map
      OpenTag.position

instance
    (events : List Event)
    (outer inner : Nat) :
    Decidable (Encloses events outer inner) :=
  inferInstanceAs (Decidable (_ ∈ _))

/- Only end tags go back to other events, which are open tags. -/
theorem origin_cases
    (events : List Event)
    (position : Nat) :
    origin events position = position ∨
      ∃ tag ∈ openTags (events.take position),
        origin events position = tag.position := by
  unfold origin
  split
  · rename_i tag tags _ hTags
    right
    exact ⟨tag, by simp [hTags], rfl⟩
  · exact .inl rfl

/- Open start tags stand before the position they are open at. -/
theorem position_lt_of_mem_take
    {events : List Event}
    {k : Nat}
    {tag : OpenTag}
    (h : tag ∈ openTags (events.take k)) :
    tag.position < k := by
  apply Nat.lt_of_lt_of_le (position_lt_length h)
  rw [List.length_take]
  exact Nat.min_le_left _ _

/- No event comes before the start tag that it goes back to. -/
theorem origin_le
    (events : List Event)
    (position : Nat) :
    origin events position ≤ position := by
  rcases origin_cases events position with hSelf | ⟨tag, hTag, hSame⟩
  · omega
  · have hLt := position_lt_of_mem_take hTag
    omega

/- A start tag that is open has been open ever since it came. -/
theorem mem_openTags_take
    {events : List Event}
    {tag : OpenTag}
    {i k : Nat}
    (hPosition : tag.position < i)
    (hLe : i ≤ k)
    (h : tag ∈ openTags (events.take k)) :
    tag ∈ openTags (events.take i) := by
  induction k, hLe using Nat.le_induction with
  | base => exact h
  | succ k hLe ih =>
      apply ih
      rw [List.take_add_one] at h
      cases hEvent : events[k]? with
      | none => simpa [hEvent] using h
      | some event =>
          have hLt : k < events.length :=
            (List.getElem?_eq_some_iff.mp hEvent).1
          rw [hEvent, Option.toList_some, openTags_concat,
            List.length_take, Nat.min_eq_left (Nat.le_of_lt hLt)] at h
          cases event with
          | opened name attributes depth =>
              rcases List.mem_cons.mp h with rfl | hOld
              · dsimp only at hPosition
                omega
              · exact hOld
          | text data => exact h
          | closed name depth => exact List.mem_of_mem_tail h
          | unknown description => exact h

/-
  An event goes back to before what an earlier event goes back
  to exactly if its element is around that of the other.
-/
theorem origin_lt_iff
    (events : List Event)
    {i k : Nat}
    (hLe : i ≤ k) :
    origin events k < origin events i ↔ Encloses events k i := by
  constructor
  · intro hBefore
    have hBound := origin_le events i
    rcases origin_cases events k with hSelf | ⟨tag, hTag, hSame⟩
    · omega
    · apply List.mem_map.mpr
      refine ⟨tag, ?_, hSame.symm⟩
      apply mem_openTags_take _ (Nat.le_trans hBound hLe) hTag
      omega
  · intro hOpen
    rcases List.mem_map.mp hOpen with ⟨tag, hTag, hSame⟩
    rw [← hSame]
    exact position_lt_of_mem_take hTag

end Event

namespace Evaluation

open Work

------------------------------------------------------------
-- Contributions
------------------------------------------------------------

/- What an event put in a list, with the event's position. -/
structure Contribution where
  position : Nat
  filing : Filing
  deriving DecidableEq, Repr

/- What events put in lists, in order. -/
def contributions
    (sections : List (List Note)) : List Contribution :=
  sections.zipIdx.flatMap (fun entry =>
    (Note.filings entry.1).map (fun x => ⟨entry.2, x⟩))

/- Those of them that went to a predicate's list of an owner. -/
def contributionsTo
    (f : ListForest Iri Object)
    (sections : List (List Note))
    (list : Nat)
    (predicate : Iri) : List Contribution :=
  (contributions sections).filter (fun c =>
    (f.slot c.filing.list).owner = list ∧
      c.filing.predicate = predicate)

theorem contributions_concat
    (sections : List (List Note))
    (notes : List Note) :
    contributions (sections ++ [notes]) =
      contributions sections ++
        (Note.filings notes).map (fun x => ⟨sections.length, x⟩) := by
  unfold contributions
  rw [List.zipIdx_append, List.flatMap_append]
  simp

theorem map_filing_contributions
    (sections : List (List Note)) :
    (contributions sections).map Contribution.filing =
      Note.filings sections.flatten := by
  induction sections using List.reverseRecOn with
  | nil => rfl
  | append_singleton sections notes ih =>
      rw [contributions_concat, List.map_append, ih, List.map_map,
        List.flatten_append, Note.filings_append]
      simp [Function.comp_def]

theorem position_lt_of_mem_contributions
    {sections : List (List Note)}
    {c : Contribution}
    (h : c ∈ contributions sections) :
    c.position < sections.length := by
  rcases List.mem_flatMap.mp h with ⟨⟨notes, k⟩, hMem, hFiled⟩
  rcases List.mem_map.mp hFiled with ⟨x, _, rfl⟩
  have hSection := List.mem_zipIdx_iff_getElem?.mp hMem
  exact (List.getElem?_eq_some_iff.mp hSection).1

/- Contributions come in the order of the events. -/
theorem pairwise_contributions
    (sections : List (List Note)) :
    (contributions sections).Pairwise
      (fun c c' => c.position ≤ c'.position) := by
  induction sections using List.reverseRecOn with
  | nil => exact .nil
  | append_singleton sections notes ih =>
      rw [contributions_concat, List.pairwise_append]
      refine ⟨ih, ?_, ?_⟩
      · rw [List.pairwise_map]
        exact List.pairwise_of_forall (fun _ _ => Nat.le_refl _)
      · intro c hOld c' hNew
        rcases List.mem_map.mp hNew with ⟨x, _, rfl⟩
        exact Nat.le_of_lt (position_lt_of_mem_contributions hOld)

/- What is filed under an owner are the values contributed. -/
theorem filedUnder_eq_contributions
    (f : ListForest Iri Object)
    (sections : List (List Note))
    (list : Nat)
    (predicate : Iri) :
    f.filedUnder (Note.filings sections.flatten) list predicate =
      (contributionsTo f sections list predicate).map
        (fun c => c.filing.value) := by
  unfold ListForest.filedUnder contributionsTo
  rw [← map_filing_contributions, List.filter_map, List.map_map]
  rfl

------------------------------------------------------------
-- The members of blocks
------------------------------------------------------------

section Runs

variable {settings : Settings} {base : String}
variable {first final : State}
variable {events : List Event} {sections : List (List Note)}

/- A block has what was filed under its owner up to its end tag. -/
theorem members_of_mem_written
    (hStyle : settings.options.listStyle = .members)
    (hStart : start settings base = .ok first)
    (hRun : Run first events sections final)
    {j : Nat}
    {b : Block}
    (hWritten : (j, b) ∈ written first events) :
    b.members =
      final.session.lists.filedUnder
        (Note.filings (sections.take (j + 1)).flatten) b.list
          b.predicate := by
  rcases mem_written.mp hWritten with ⟨event, hEvent, hBlock⟩
  rcases closing_of_mem_blocks hBlock with
    ⟨name, depth, _, _, rfl, _, _⟩
  rcases hRun.step_at hEvent with ⟨notes, hSection, hBefore, hStep⟩
  rcases process_closed hStep with
    ⟨o, rest, m, t, hElements, hName, hComplete, hFlush, _, rfl⟩
  have hHoused := housed_before hStart hRun j
  have hAccounts :=
    accounts_of_completeElement hHoused
      (accounts_of_run hStyle hStart hBefore) hElements hComplete
  have hShape := sameShape_of_completeElement hComplete
  have hFilings :
      Note.filings (sections.take (j + 1)).flatten =
        Note.filings
          ((sections.take j).flatten ++ m.notes.toList) := by
    rw [List.take_add_one, hSection, Option.toList_some,
      List.flatten_append, List.flatten_singleton]
    exact filings_of_flush (hHoused.unflushed hElements hComplete)
      hFlush _
  -- Who owns the lists is settled once they have been filled.
  have hOwner :
      ∀ l, l < m.lists.slots.size →
        (final.session.lists.slot l).owner =
          (m.lists.slot l).owner := by
    intro l hl
    rw [hShape.size_eq] at hl
    have hLe : j ≤ events.length :=
      Nat.le_of_lt (List.getElem?_eq_some_iff.mp hEvent).1
    rw [owner_before hStart hRun hLe hl]
    exact (hShape.owner_eq l).symm
  rw [blocks_of_closing (closing?_eq_some hElements hName depth)
    hComplete] at hBlock
  have hList := Block.list_of_mem_ofLists hBlock
  have hMembers := Block.mem_of_mem_ofLists hBlock
  rw [hFilings, hList,
    ListForest.filedUnder_congr
      (fun x hMem => hOwner x.list (hAccounts.filed x hMem)),
    ← hAccounts.values]
  exact (ListForest.values_of_mem (hAccounts.keys _) hMembers).symm

/-
  The members of a list are written in the order in which they
  were put in it. Two of them are not in the order of the start
  tags of the elements that they come from exactly if the
  element of the later one is around that of the other one. So
  members are in the order of start tags unless that happens.
-/
theorem members_written_as_filed
    (hStyle : settings.options.listStyle = .members)
    (hStart : start settings base = .ok first)
    (hRun : Run first events sections final)
    {j : Nat}
    {b : Block}
    (hWritten : (j, b) ∈ written first events)
    {filed : List Contribution}
    (hFiled :
      filed =
        contributionsTo final.session.lists (sections.take (j + 1))
          b.list b.predicate) :
    b.members = filed.map (fun c => c.filing.value) ∧
    filed.Pairwise (fun c c' =>
      c.position ≤ c'.position ∧
        (Event.origin events c'.position <
            Event.origin events c.position ↔
          Event.Encloses events c'.position c.position)) ∧
    (filed.Pairwise (fun c c' =>
        ¬ Event.Encloses events c'.position c.position) →
      b.members =
        (filed.insertionSort (fun c c' =>
          Event.origin events c.position ≤
            Event.origin events c'.position)).map
              (fun c => c.filing.value)) := by
  have hMembers : b.members = filed.map (fun c => c.filing.value) := by
    rw [members_of_mem_written hStyle hStart hRun hWritten,
      filedUnder_eq_contributions, hFiled]
  have hOrder :
      filed.Pairwise (fun c c' =>
        c.position ≤ c'.position ∧
          (Event.origin events c'.position <
              Event.origin events c.position ↔
            Event.Encloses events c'.position c.position)) := by
    have hSections := pairwise_contributions (sections.take (j + 1))
    rw [hFiled]
    apply (hSections.filter _).imp
    intro c c' hLe
    exact ⟨hLe, Event.origin_lt_iff events hLe⟩
  refine ⟨hMembers, hOrder, ?_⟩
  intro hApart
  rw [hMembers, List.Pairwise.insertionSort_eq]
  apply (hOrder.and hApart).imp
  rintro c c' ⟨⟨_, hIff⟩, hNot⟩
  rw [← hIff, Nat.not_lt] at hNot
  exact hNot

end Runs

/-
  That the members of a list are written in the order of the
  start tags of the elements that put them there.
-/
def MembersInTagOrder : Prop :=
  ∀ (settings : Settings) (base : String) (first final : State)
    (events : List Event) (sections : List (List Note)) (j : Nat)
    (b : Block),
    settings.options.listStyle = .members →
      Event.Nested events →
      start settings base = .ok first →
      Run first events sections final →
      (j, b) ∈ written first events →
        b.members =
          ((contributionsTo final.session.lists
              (sections.take (j + 1)) b.list b.predicate).insertionSort
            (fun c c' =>
              Event.origin events c.position ≤
                Event.origin events c'.position)).map
                  (fun c => c.filing.value)

/-
  An element takes a member of a list from its content, which
  has another element with a member of that list.
-/
namespace Enclosing

def settings : Settings :=
  ⟨.html, ⟨.members, true, [("f", "http://f/")], []⟩⟩

def first : State :=
  State.initial settings "http://ex/" ⟨"http://ex/"⟩

def events : List Event :=
  [.opened "div" [("about", "#a")] 0,
    .opened "span" [("property", "f:n"), ("inlist", "")] 1,
    .text "A",
    .opened "b" [("property", "f:n"), ("inlist", "")] 2,
    .text "B", .closed "b" 2, .closed "span" 1, .closed "div" 0]

/- The list as it is written. -/
def block : Block :=
  ⟨1, .iri ⟨"http://ex/#a"⟩, ⟨"http://f/n"⟩,
    [.literal (.plain "B"), .literal (.plain "AB")]⟩

/- What was put in it, at the end tags of both elements. -/
def filed : List Contribution :=
  [⟨5, 3, ⟨"http://f/n"⟩, .literal (.plain "B")⟩,
    ⟨6, 2, ⟨"http://f/n"⟩, .literal (.plain "AB")⟩]

theorem start_eq :
    start settings "http://ex/" = .ok first :=
  start_of_document (by decide +kernel) (by decide +kernel) settings

theorem nested_events :
    Event.Nested events :=
  .element "div" _ 0 0
    (.element "span" _ 1 1
      (.text "A" (.element "b" _ 2 2 (.text "B" .nil) .nil)) .nil)
    .nil

theorem run_events :
    Run first events (Extraction.evaluate first events).1
      (first.through events) :=
  run_through (by decide +kernel)

theorem block_written :
    (7, block) ∈ written first events := by
  decide +kernel

theorem filed_eq :
    filed =
      contributionsTo (first.through events).session.lists
        ((Extraction.evaluate first events).1.take 8) block.list
          block.predicate := by
  decide +kernel

end Enclosing

open Enclosing in
/- The element around the other one has the later member. -/
theorem enclosing_member_written_last :
    block.members = filed.map (fun c => c.filing.value) ∧
      Event.origin events 6 < Event.origin events 5 ∧
        Event.Encloses events 6 5 := by
  rcases members_written_as_filed rfl start_eq run_events
      block_written filed_eq with
    ⟨hMembers, hOrder, _⟩
  rcases hOrder with _ | ⟨hLater, _⟩
  have hIff := (hLater _ (List.mem_singleton.mpr rfl)).2
  have hEncloses : Event.Encloses events 6 5 := by decide +kernel
  exact ⟨hMembers, hIff.mpr hEncloses, hEncloses⟩

open Enclosing in
/- So members are not always in the order of start tags. -/
theorem not_membersInTagOrder :
    ¬ MembersInTagOrder := by
  intro hOrder
  have hSame :=
    hOrder settings "http://ex/" first _ events _ 7 block rfl
      nested_events start_eq run_events block_written
  rw [← filed_eq] at hSame
  revert hSame
  decide +kernel

end Evaluation
end LinkedMarkup
