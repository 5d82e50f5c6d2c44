import LinkedMarkup.Proofs.Lists.Accounts

/-
  This file proves for which subject the members of lists are
  written. An element that has another subject than is around
  it owns its lists. Any other one is chained to the mapping
  around it, whose owner need not have the same subject: it
  does exactly if the object around the element is the
  owner's subject.

  Key definitions include:
    * `Evaluation.opening?`
    * `Evaluation.openings`
    * `Evaluation.Ledger`

  Main declarations:
    * `Evaluation.ledger_of_process`
    * `Evaluation.ledger_of_run`
    * `Evaluation.flushed_member_subject`
    * `Evaluation.not_membersKeepSubject`
-/

namespace LinkedMarkup
namespace Evaluation

open Work

------------------------------------------------------------
-- Openings
------------------------------------------------------------

/- The scope around a start tag, and the element it opens. -/
def opening?
    (d : State)
    (event : Event) : Option (Scope × Element) :=
  match event with
  | .opened name attributes _ =>
      match openElement d.settings d.scope d.elements.isEmpty name
          attributes d.fresh with
      | (.ok e, _) => some (d.scope, e)
      | (.error _, _) => none
  | _ => none

/- What the start tags among events opened, in order. -/
def openings
    (d : State) :
    List Event → List (Scope × Element)
  | [] => []
  | event :: rest =>
      match process d event with
      | (.error _, _) => []
      | (.ok m, _) => (opening? d event).toList ++ openings m rest

/-
  What is known of the elements opened so far and of what was
  filed: lists are accounted for, list mappings are told apart
  by the elements they were made for, and an element is its
  own owner or has the object around it as its subject.
-/
structure Ledger
    (d : State)
    (past : List Note)
    (opened : List (Scope × Element)) : Prop where
  style : d.settings.options.listStyle = .members
  housed : Housed d
  accounts : d.session.lists.Accounts (Note.filings past)
  stack :
    ∀ o ∈ d.elements, ∃ x ∈ opened,
      x.2.list = o.list ∧ x.2.subject = o.subject
  bound : ∀ x ∈ opened, x.2.list < d.session.lists.slots.size
  owner :
    ∀ x ∈ opened, OwnsLists x.1 x.2.subject →
      (d.session.lists.slot x.2.list).owner = x.2.list
  chained :
    ∀ x ∈ opened, ¬ OwnsLists x.1 x.2.subject →
      x.2.subject = x.1.object
  unique :
    ∀ x ∈ opened, ∀ y ∈ opened, x.2.list = y.2.list →
      x.2.subject = y.2.subject

------------------------------------------------------------
-- Single events
------------------------------------------------------------

/- An element that does not own lists has the object around it. -/
theorem Opened.chained
    {settings : Settings}
    {parent : Scope}
    {isRoot : Bool}
    {name : String}
    {s t : Session}
    {e : Element}
    (h : Opened settings parent isRoot name s t e)
    (hChained : ¬ OwnsLists parent e.subject) :
    e.subject = parent.object := by
  by_cases hSubject : e.subject.isSome = true
  · by_contra hNe
    exact hChained ⟨hSubject, hNe⟩
  · have hObject : ¬ parent.object.isSome = true :=
      fun hSome => hSubject (h.subject hSome)
    rw [Option.not_isSome_iff_eq_none] at hSubject hObject
    rw [hSubject, hObject]

/- Opening an element leaves the owners of all others. -/
theorem Opened.owner_eq
    {settings : Settings}
    {parent : Scope}
    {isRoot : Bool}
    {name : String}
    {s t : Session}
    {e : Element}
    (h : Opened settings parent isRoot name s t e)
    {l : Nat}
    (hOld : l < s.lists.slots.size) :
    (t.lists.slot l).owner = (s.lists.slot l).owner := by
  have hNe : l ≠ s.lists.slots.size := Nat.ne_of_lt hOld
  by_cases hOwns : OwnsLists parent e.subject
  · rw [(h.root hOwns).owner_eq, ListForest.slot_root, if_neg hNe]
  · rw [(h.child hOwns).owner_eq, ListForest.slot_child, if_neg hNe]

theorem Opened.size_eq
    {settings : Settings}
    {parent : Scope}
    {isRoot : Bool}
    {name : String}
    {s t : Session}
    {e : Element}
    (h : Opened settings parent isRoot name s t e) :
    t.lists.slots.size = s.lists.slots.size + 1 := by
  by_cases hOwns : OwnsLists parent e.subject
  · rw [(h.root hOwns).size_eq, ListForest.size_root]
  · rw [(h.child hOwns).size_eq, ListForest.size_child]

theorem Opened.owner_self
    {settings : Settings}
    {parent : Scope}
    {isRoot : Bool}
    {name : String}
    {s t : Session}
    {e : Element}
    (h : Opened settings parent isRoot name s t e)
    (hOwns : OwnsLists parent e.subject) :
    (t.lists.slot e.list).owner = e.list := by
  rw [(h.root hOwns).owner_eq, ListForest.slot_root, h.list_eq,
    if_pos rfl]

/- Captured text changes nothing that the ledger says. -/
theorem stack_captureAll
    {elements : List Element}
    {opened : List (Scope × Element)}
    (h :
      ∀ o ∈ elements, ∃ x ∈ opened,
        x.2.list = o.list ∧ x.2.subject = o.subject)
    (event : Event) :
    ∀ o ∈ captureAll event elements, ∃ x ∈ opened,
      x.2.list = o.list ∧ x.2.subject = o.subject := by
  intro o hMem
  rcases List.mem_map.mp hMem with ⟨e, hOld, rfl⟩
  exact h e hOld

theorem accounted_fresh
    {d : State}
    {past : List Note}
    (h : d.session.lists.Accounts (Note.filings past)) :
    Accounted past (fun l => l < d.session.lists.slots.size)
      d.fresh := by
  refine ⟨fun _ hl => hl, ?_⟩
  have hNotes : past ++ d.fresh.notes.toList = past :=
    List.append_nil past
  rw [hNotes]
  exact h

/- What completing an element leaves accounted for. -/
theorem accounts_of_completeElement
    {d : State}
    {past : List Note}
    {o : Element}
    {rest : List Element}
    {m : Session}
    (hHoused : Housed d)
    (hAccounts : d.session.lists.Accounts (Note.filings past))
    (hElements : d.elements = o :: rest)
    (hComplete : completeElement o d.fresh = (.ok (), m)) :
    m.lists.Accounts (Note.filings (past ++ m.notes.toList)) := by
  rcases (keeps_accounted past).completeElement
      (keepsFilling_accounted past) (hHoused.uses_top hElements)
      (accounted_fresh hAccounts) with
    ⟨hOk, _⟩
  rcases hOk () m hComplete with ⟨_, _, hAfter⟩
  exact hAfter.2

/- Flushing lists files nothing. -/
theorem filings_of_flush
    {s t : Session}
    {list : Nat}
    {subject : Option Subject}
    (hOpen : s.lists.flushed list = false)
    (h : flushLists list subject s = (.ok (), t))
    (past : List Note) :
    Note.filings (past ++ t.notes.toList) =
      Note.filings (past ++ s.notes.toList) := by
  rcases flush_cases hOpen h with
    ⟨x, _, _, hNotes⟩ | ⟨_, _, _, hNotes⟩
  · rw [hNotes, ← List.append_assoc, Note.filings_append,
      Note.filings_map_quad, List.append_nil]
  · rw [hNotes]

/- A start tag adds its element to the ledger. -/
theorem Ledger.opened
    {d : State}
    {past : List Note}
    {before : List (Scope × Element)}
    {name : String}
    {attributes : Entries}
    {e : Element}
    {t : Session}
    {event : Event}
    (hLedger : Ledger d past before)
    (hOpen :
      openElement d.settings d.scope d.elements.isEmpty name
        attributes d.fresh = (.ok e, t))
    (hHoused :
      Housed (d.after (e :: captureAll event d.elements) t)) :
    Ledger (d.after (e :: captureAll event d.elements) t)
      (past ++ t.notes.toList) (before ++ [(d.scope, e)]) := by
  have hOpened :=
    openElement_opened _ _ _ name attributes d.fresh e t hOpen
  have hMaking :
      Work.KeepsMaking (Accounted past)
        (d.settings.options.listStyle == .collection) := by
    rw [hLedger.style]
    exact keepsMaking_accounted past
  rcases (keeps_accounted past).openElement
      (keepsFilling_accounted past) hMaking
      hLedger.housed.uses_scope (.inl ⟨trivial, trivial⟩)
      (accounted_fresh hLedger.accounts) name attributes with
    ⟨hOk, _⟩
  rcases hOk e t hOpen with ⟨_, _, hAfter, _⟩
  have hSize : t.lists.slots.size = d.session.lists.slots.size + 1 :=
    hOpened.size_eq
  have hNew : e.list = d.session.lists.slots.size := hOpened.list_eq
  have hOld :
      ∀ x ∈ before, x.2.list < d.session.lists.slots.size :=
    hLedger.bound
  refine
    { style := hLedger.style
      housed := hHoused
      accounts := hAfter.2
      stack := ?_
      bound := ?_
      owner := ?_
      chained := ?_
      unique := ?_ }
  · intro o hMem
    rcases List.mem_cons.mp hMem with rfl | hTail
    · exact ⟨(d.scope, o), by simp, rfl, rfl⟩
    · rcases stack_captureAll hLedger.stack _ o hTail with
        ⟨x, hx, hSame⟩
      exact ⟨x, List.mem_append_left _ hx, hSame⟩
  · intro x hx
    change x.2.list < t.lists.slots.size
    rcases List.mem_append.mp hx with hx | hx
    · have hLt := hOld x hx
      omega
    · rw [List.mem_singleton.mp hx]
      dsimp only
      omega
  · intro x hx hOwns
    rcases List.mem_append.mp hx with hx | hx
    · exact (hOpened.owner_eq (hOld x hx)).trans
        (hLedger.owner x hx hOwns)
    · rw [List.mem_singleton.mp hx] at hOwns ⊢
      exact hOpened.owner_self hOwns
  · intro x hx hOwns
    rcases List.mem_append.mp hx with hx | hx
    · exact hLedger.chained x hx hOwns
    · rw [List.mem_singleton.mp hx] at hOwns ⊢
      exact hOpened.chained hOwns
  · intro x hx y hy hEq
    rcases List.mem_append.mp hx with hx | hx
    · rcases List.mem_append.mp hy with hy | hy
      · exact hLedger.unique x hx y hy hEq
      · rw [List.mem_singleton.mp hy] at hEq
        have hLt := hOld x hx
        dsimp only at hEq
        omega
    · rcases List.mem_append.mp hy with hy | hy
      · rw [List.mem_singleton.mp hx] at hEq
        have hLt := hOld y hy
        dsimp only at hEq
        omega
      · rw [List.mem_singleton.mp hx, List.mem_singleton.mp hy]

/- An end tag flushes lists, and so keeps what is in the ledger. -/
theorem Ledger.closed
    {d : State}
    {past : List Note}
    {before : List (Scope × Element)}
    {o : Element}
    {rest : List Element}
    {m t : Session}
    {event : Event}
    (hLedger : Ledger d past before)
    (hElements : d.elements = o :: rest)
    (hComplete : completeElement o d.fresh = (.ok (), m))
    (hFlush : flushLists o.list o.subject m = (.ok (), t))
    (hHoused : Housed (d.after (captureAll event rest) t)) :
    Ledger (d.after (captureAll event rest) t)
      (past ++ t.notes.toList) before := by
  have hAccounts :=
    accounts_of_completeElement hLedger.housed hLedger.accounts
      hElements hComplete
  have hShape := sameShape_of_completeElement hComplete
  have hUnflushed := hLedger.housed.unflushed hElements hComplete
  have hMarked := lists_of_flushLists hUnflushed hFlush
  have hSize :
      t.lists.slots.size = d.session.lists.slots.size := by
    rw [hMarked, ListForest.size_marked]
    exact hShape.size_eq
  have hOwner :
      ∀ l,
        (t.lists.slot l).owner =
          (d.session.lists.slot l).owner := by
    intro l
    rw [hMarked, ListForest.owner_marked]
    exact hShape.owner_eq l
  refine
    { style := hLedger.style
      housed := hHoused
      accounts := ?_
      stack := ?_
      bound := ?_
      owner := ?_
      chained := hLedger.chained
      unique := hLedger.unique }
  · rw [filings_of_flush hUnflushed hFlush past]
    change t.lists.Accounts _
    rw [hMarked]
    exact hAccounts.marked o.list
  · refine stack_captureAll ?_ _
    intro e hMem
    apply hLedger.stack e
    rw [hElements]
    exact List.mem_cons_of_mem o hMem
  · intro x hx
    change x.2.list < t.lists.slots.size
    rw [hSize]
    exact hLedger.bound x hx
  · intro x hx hOwns
    exact (hOwner x.2.list).trans (hLedger.owner x hx hOwns)

/- Every event that is processed keeps the ledger. -/
theorem ledger_of_process
    {d d' : State}
    {past notes : List Note}
    {opened : List (Scope × Element)}
    {event : Event}
    (hLedger : Ledger d past opened)
    (h : process d event = (.ok d', notes)) :
    Ledger d' (past ++ notes)
      (opened ++ (opening? d event).toList) := by
  have hHoused := housed_of_process hLedger.housed h
  rcases process_ok_cases h with
    ⟨name, attributes, depth, e, t, rfl, hOpen, rfl, rfl⟩ |
      ⟨data, rfl, rfl, rfl⟩ |
      ⟨name, depth, o, rest, m, t, rfl, hElements, _, hComplete,
        hFlush, rfl, rfl⟩
  · have hOpening :
        (opening? d (.opened name attributes depth)).toList =
          [(d.scope, e)] := by
      simp only [opening?, hOpen]
      rfl
    rw [hOpening]
    exact hLedger.opened hOpen hHoused
  · have hNone : (opening? d (.text data)).toList = [] := rfl
    rw [hNone, List.append_nil, List.append_nil]
    exact
      { hLedger with
        housed := hHoused
        stack := stack_captureAll hLedger.stack _ }
  · have hNone : (opening? d (.closed name depth)).toList = [] := rfl
    rw [hNone, List.append_nil]
    exact hLedger.closed hElements hComplete hFlush hHoused

------------------------------------------------------------
-- Runs
------------------------------------------------------------

/- Nothing is opened or filed before the first event. -/
theorem ledger_initial
    {settings : Settings}
    (hStyle : settings.options.listStyle = .members)
    (document : String)
    (iri : Iri) :
    Ledger (State.initial settings document iri) [] [] where
  style := hStyle
  housed := housed_initial settings document iri
  accounts := by
    unfold State.initial
    rw [hStyle]
    exact ListForest.accounts_empty.root
  stack := by simp [State.initial]
  bound := by simp
  owner := by simp
  chained := by simp
  unique := by simp

/- A whole run keeps the ledger. -/
theorem ledger_of_run
    {d final : State}
    {events : List Event}
    {sections : List (List Note)}
    (hRun : Run d events sections final)
    {past : List Note}
    {opened : List (Scope × Element)}
    (hLedger : Ledger d past opened) :
    Ledger final (past ++ sections.flatten)
      (opened ++ openings d events) := by
  induction hRun generalizing past opened with
  | nil d =>
      rw [List.flatten_nil, List.append_nil, openings, List.append_nil]
      exact hLedger
  | cons hStep _ ih =>
      have hNext := ih (ledger_of_process hLedger hStep)
      rw [openings, hStep, List.flatten_cons, ← List.append_assoc,
        ← List.append_assoc]
      exact hNext

------------------------------------------------------------
-- Flushed members
------------------------------------------------------------

/- What is filed under an owner is in one of its lists. -/
theorem mem_lists_of_filed
    {f : ListForest Iri Object}
    {filings : List Filing}
    {list : Nat}
    {filing : Filing}
    (hAccounts : f.Accounts filings)
    (hFiled : filing ∈ filings)
    (hOwner : (f.slot filing.list).owner = list) :
    ∃ members,
      (filing.predicate, members) ∈ (f.slot list).lists ∧
        filing.value ∈ members := by
  have hValue :
      filing.value ∈
        f.filedUnder filings list filing.predicate := by
    unfold ListForest.filedUnder
    apply List.mem_map.mpr
    refine ⟨filing, ?_, rfl⟩
    exact List.mem_filter.mpr ⟨hFiled, by simp [hOwner]⟩
  rw [← hAccounts.values] at hValue
  have hMem :=
    ListForest.mem_of_values_ne_nil (List.ne_nil_of_mem hValue)
  exact ⟨_, hMem, hValue⟩

/- A member of a list is the object of one of the list's quads. -/
theorem triple_mem_asMembers
    {x : Subject}
    {predicate : Iri}
    {members : List Object}
    {value : Object}
    (h : value ∈ members) :
    Quad.triple x predicate value ∈
      (Emission.list x predicate members).asMembers := by
  cases members with
  | nil => cases h
  | cons first others =>
      exact List.mem_map.mpr ⟨value, h, rfl⟩

/-
  The subject of an owner is that of an element chained to it
  exactly if the element owns its lists, being the owner, or
  if the object around it is the owner's subject.
-/
theorem Ledger.subject_iff
    {d : State}
    {past : List Note}
    {opened : List (Scope × Element)}
    {o e : Element}
    {rest : List Element}
    {around : Scope}
    {x : Subject}
    (hLedger : Ledger d past opened)
    (hElements : d.elements = o :: rest)
    (hOpening : (around, e) ∈ opened)
    (hOwner : (d.session.lists.slot e.list).owner = o.list)
    (hSubject : o.subject = some x) :
    e.subject = some x ↔
      OwnsLists around e.subject ∨ around.object = some x := by
  by_cases hOwns : OwnsLists around e.subject
  · have hSelf := hLedger.owner _ hOpening hOwns
    rw [hOwner] at hSelf
    rcases hLedger.stack o (by rw [hElements]; simp) with
      ⟨y, hy, hSameList, hSameSubject⟩
    have hSame :=
      hLedger.unique _ hOpening y hy
        (hSelf.symm.trans hSameList.symm)
    have hOwn : e.subject = some x := by
      rw [← hSubject, ← hSameSubject, ← hSame]
    constructor
    · intro _
      exact .inl hOwns
    · intro _
      exact hOwn
  · have hChained := hLedger.chained _ hOpening hOwns
    dsimp only at hChained
    rw [hChained]
    constructor
    · intro hObject
      exact .inr hObject
    · rintro (hOwn | hObject)
      · rw [hChained] at hOwns
        exact absurd hOwn hOwns
      · exact hObject

/-
  A member that an element filed is flushed when the owner of
  its list is closed, with the owner's subject. This is the
  element's own subject exactly if the element owns its lists,
  or if the object around it is the owner's subject.
-/
theorem flushed_member_subject
    {settings : Settings}
    {base : String}
    {d₀ d d' : State}
    {events : List Event}
    {sections : List (List Note)}
    {o e : Element}
    {rest : List Element}
    {around : Scope}
    {name : String}
    {depth : Nat}
    {notes : List Note}
    {filing : Filing}
    (hStyle : settings.options.listStyle = .members)
    (hStart : start settings base = .ok d₀)
    (hRun : Run d₀ events sections d)
    (hElements : d.elements = o :: rest)
    (hClose : process d (.closed name depth) = (.ok d', notes))
    (hOpening : (around, e) ∈ openings d₀ events)
    (hFiled : filing ∈ Note.filings (sections.flatten ++ notes))
    (hList : filing.list = e.list)
    (hOwner : (d.session.lists.slot e.list).owner = o.list) :
    ∃ x members,
      o.subject = some x ∧
        Emission.list x filing.predicate members ∈
          emissions d (.closed name depth) ∧
        filing.value ∈ members ∧
        Quad.triple x filing.predicate filing.value ∈
          Note.quads notes ∧
        (e.subject = some x ↔
          OwnsLists around e.subject ∨ around.object = some x) := by
  rcases start_eq_ok hStart with ⟨document, iri, _, _, rfl⟩
  have hLedger :=
    ledger_of_run hRun (ledger_initial hStyle document iri)
  rw [List.nil_append, List.nil_append] at hLedger
  rcases process_closed hClose with
    ⟨_, _, m, t, hTop, hName, hComplete, hFlush, _, rfl⟩
  rw [hElements] at hTop
  cases hTop
  have hUnflushed := hLedger.housed.unflushed hElements hComplete
  have hAccounts :=
    accounts_of_completeElement hLedger.housed hLedger.accounts
      hElements hComplete
  have hOwned : (m.lists.slot filing.list).owner = o.list := by
    rw [hList, (sameShape_of_completeElement hComplete).owner_eq]
    exact hOwner
  rw [filings_of_flush hUnflushed hFlush] at hFiled
  rcases mem_lists_of_filed hAccounts hFiled hOwned with
    ⟨members, hMem, hMember⟩
  rcases flush_cases hUnflushed hFlush with
    ⟨x, hSubject, _, _⟩ | ⟨_, hNil, _⟩
  · have hEmission :
        Emission.list x filing.predicate members ∈
          emissions d (.closed name depth) := by
      rw [emissions_of_closing
        (closing?_eq_some hElements hName depth) hComplete, hSubject]
      apply List.mem_append_right
      exact List.mem_map.mpr ⟨_, hMem, rfl⟩
    refine ⟨x, members, hSubject, hEmission, hMember, ?_,
      hLedger.subject_iff hElements hOpening hOwner hSubject⟩
    rw [quads_eq_written hLedger.housed
      (fun l _ => hLedger.accounts.collects l) hClose]
    apply List.mem_flatMap.mpr
    exact ⟨_, hEmission, triple_mem_asMembers hMember⟩
  · rw [hNil] at hMem
    cases hMem

/-
  That every member is flushed for the subject of the element
  that filed it.
-/
def MembersKeepSubject : Prop :=
  ∀ (settings : Settings) (base : String) (d₀ d d' : State)
    (events later : List Event) (sections : List (List Note))
    (o e : Element) (rest : List Element) (around : Scope)
    (name : String) (depth : Nat) (notes : List Note)
    (filing : Filing),
    settings.options.listStyle = .members →
      Event.Nested (events ++ .closed name depth :: later) →
      start settings base = .ok d₀ →
      Run d₀ events sections d →
      d.elements = o :: rest →
      process d (.closed name depth) = (.ok d', notes) →
      (around, e) ∈ openings d₀ events →
      filing ∈ Note.filings (sections.flatten ++ notes) →
      filing.list = e.list →
      (d.session.lists.slot e.list).owner = o.list →
        o.subject = e.subject

/-
  The subject of a relation owns a list, and an element inside
  is about the object of the relation, with a member of its
  own. That element is chained to the list of the subject.
-/
namespace Chained

def settings : Settings :=
  ⟨.html, ⟨.members, true, [("f", "http://f/")], []⟩⟩

def initial : State :=
  State.initial settings "http://ex/" ⟨"http://ex/"⟩

def events : List Event :=
  [.opened "div"
      [("about", "#a"), ("rel", "f:knows"), ("resource", "#b")] 0,
    .opened "span" [("property", "f:name"), ("inlist", "")] 1,
    .text "X",
    .closed "span" 1]

/- The state before the end tag of the outer element. -/
def state : State :=
  initial.through events

def owner : Subject :=
  .iri ⟨"http://ex/#a"⟩

def member : Subject :=
  .iri ⟨"http://ex/#b"⟩

/- The scope inside the outer element. -/
def scope : Scope :=
  { base := "http://ex/"
    subject := some owner
    object := some member
    prefixes := [("f", "http://f/")]
    terms := []
    vocab := none
    language := none
    list := 1
    incomplete := [] }

def outer : Element :=
  ⟨"div", scope, some owner, 1, none⟩

def inner : Element :=
  ⟨"span", { scope with subject := some member, list := 2 },
    some member, 2,
    some
      { subject := member
        predicates := [⟨"http://f/name"⟩]
        list := 2
        inList := true
        datatype := none
        language := none
        keepsMarkup := false
        infersMoment := false
        text := "" }⟩

def filing : Filing :=
  ⟨2, ⟨"http://f/name"⟩, .literal (.plain "X")⟩

theorem nested_events :
    Event.Nested (events ++ .closed "div" 0 :: []) :=
  .element "div" _ 0 0
    (.element "span" _ 1 1 (.text "X" .nil) .nil) .nil

theorem start_eq :
    start settings "http://ex/" = .ok initial :=
  start_of_document (by decide +kernel) (by decide +kernel) settings

theorem run_events :
    Run initial events (Extraction.evaluate initial events).1
      state :=
  run_through (by decide +kernel)

theorem process_end :
    ∃ d',
      process state (.closed "div" 0) =
        (.ok d', (process state (.closed "div" 0)).2) :=
  exists_ok_of_isOk (by decide +kernel)

theorem elements_state :
    state.elements = [outer] := by
  decide +kernel

theorem mem_openings :
    (scope, inner) ∈ openings initial events := by
  decide +kernel

theorem mem_filings :
    filing ∈
      Note.filings
        ((Extraction.evaluate initial events).1.flatten ++
          (process state (.closed "div" 0)).2) := by
  decide +kernel

theorem owner_inner :
    (state.session.lists.slot inner.list).owner = outer.list := by
  decide +kernel

end Chained

open Chained in
/- The member of the inner element is flushed for the outer one. -/
theorem chained_member_flushed :
    ∃ x members,
      outer.subject = some x ∧
        Emission.list x filing.predicate members ∈
          emissions state (.closed "div" 0) ∧
        filing.value ∈ members ∧
        Quad.triple x filing.predicate filing.value ∈
          Note.quads (process state (.closed "div" 0)).2 ∧
        (inner.subject = some x ↔
          OwnsLists scope inner.subject ∨ scope.object = some x) := by
  rcases process_end with ⟨d', hClose⟩
  exact flushed_member_subject rfl start_eq run_events elements_state
    hClose mem_openings mem_filings rfl owner_inner

open Chained in
/- So members do not always keep the subject of their element. -/
theorem not_membersKeepSubject :
    ¬ MembersKeepSubject := by
  intro hKeep
  rcases process_end with ⟨d', hClose⟩
  have hSame :=
    hKeep settings "http://ex/" initial state d' events [] _ outer
      inner [] scope "div" 0 _ filing rfl nested_events start_eq
      run_events elements_state hClose mem_openings mem_filings rfl
      owner_inner
  revert hSame
  decide

end Evaluation
end LinkedMarkup
