import LinkedMarkup.Proofs.Evaluation.Completion
import LinkedMarkup.Proofs.Evaluation.Siblings

/-
  This file proves that relations without an object are
  completed exactly once by every element that answers them:
  by those inside the element with the relations that do not
  just pass on what is around them, while all between do. No
  other event completes them. Those that go to lists find the
  lists that the element with the relations has made.

  Key definitions include:
    * `Evaluation.SkippedAt`
    * `Evaluation.Answers`

  Main declarations:
    * `Evaluation.Aligned.passes`
    * `Evaluation.Aligned.waiting`
    * `Evaluation.holds_of_startTagAt`
    * `Evaluation.relations_completed_once`
-/

namespace LinkedMarkup
namespace Evaluation

open Work Coupling

------------------------------------------------------------
-- Lists for what waits
------------------------------------------------------------

theorem lists_of_ensureList
    {list : Nat}
    {p : Iri}
    {s t : Session}
    (h : ensureList list p s = (.ok (), t)) :
    t.lists =
      s.lists.setLists list
        (ListForest.opened (s.lists.lists list) p) := by
  unfold ensureList ListForest.ensure at h
  cases hFlushed : s.lists.flushed list with
  | true =>
      simp only [hFlushed, if_true] at h
      cases h
  | false =>
      simp only [hFlushed, Bool.false_eq_true, if_false] at h
      cases h
      rfl

/- Lists that are made are there, and others stay. -/
theorem holds_of_forEach_ensureList
    {list : Nat}
    {predicates : List Iri}
    {s t : Session}
    (hList : list < s.lists.slots.size)
    (hOwner : (s.lists.slot list).owner < s.lists.slots.size)
    (h : forEach (ensureList list) predicates s = (.ok (), t))
    {p : Iri}
    (hThere :
      p ∈ predicates ∨ s.lists.contains list p = true) :
    Holds list p (fun _ => True) t := by
  induction predicates generalizing s with
  | nil =>
      cases h
      rcases hThere with hMem | hSees
      · cases hMem
      · exact ⟨hList, hOwner, hSees⟩
  | cons q rest ih =>
      rcases andThen_eq_ok h with ⟨_, m, hFirst, hRest⟩
      have hLists := lists_of_ensureList hFirst
      have hShape :=
        ListForest.sameShape_setLists s.lists list
          (ListForest.opened (s.lists.lists list) q)
      rw [← hLists] at hShape
      have hSees :
          m.lists.lists list =
            ListForest.opened (s.lists.lists list) q := by
        rw [hLists, ListForest.lists_setLists hOwner, if_pos rfl]
      refine ih ?_ ?_ hRest ?_
      · rw [hShape.size_eq]
        exact hList
      · rw [hShape.owner_eq, hShape.size_eq]
        exact hOwner
      · unfold ListForest.contains at hThere ⊢
        rw [hSees]
        rcases hThere with hMem | hOld
        · rcases List.mem_cons.mp hMem with rfl | hIn
          · exact .inr (ListForest.isSome_members?_opened (.inl rfl))
          · exact .inl hIn
        · exact .inr (ListForest.isSome_members?_opened (.inr hOld))

/-
  Once its relations are dealt with, the rest of a start tag
  keeps what filling lists keeps.
-/
theorem ensures_after_relate
    {J : Session → Prop}
    (hKeeps : Work.Keeps (fun _ => J) (fun _ => True))
    (hFilling : Work.KeepsFilling (fun _ => J) (fun _ => True))
    {s : Session}
    (hs : J s)
    (settings : Settings)
    (parent : Scope)
    (name : String)
    (attributes : Entries)
    (tag : Reading)
    (list : Nat)
    (incomplete : List Incomplete) :
    (do
      let object ← passedObject tag.parts tag.rel tag.rev
      let pending ← readProperty settings name attributes tag.scope
        tag.named tag.parts list (attributes.has "inlist")
        tag.hasRelations
      enclose parent tag.scope name tag.parts object list incomplete
        pending).Ensures s (fun e t => e.list = list ∧ J t) := by
  have hC := keeping_sound hKeeps
  have hFills := keeping_fills hFilling
  have hAny :
      ∀ x : Scope,
        (keeping (fun _ => J) (fun _ => True)).ScopesMatch
          (fun _ => True) x x :=
    fun x => scopesMatch_self (uses_true x)
  refine (ensures_of_keeping
    (passedObject_coupled hC (rolesMatch_self tag.parts) tag.rel
      tag.rev) hs).bind ?_
  intro object s₁ h₁
  refine (ensures_of_keeping
    (readProperty_coupled hC hFills (Settings.Agree.refl settings)
      (hAny tag.scope) (namedMatch_self tag.named)
      (rolesMatch_self tag.parts) ⟨rfl, trivial⟩ name attributes _
      tag.hasRelations) h₁).bind ?_
  intro pending s₂ h₂
  refine ((enclose_fields parent tag.scope name tag.parts object list
    incomplete pending s₂).mono (fun _ _ hFields => hFields.2.1)).and ?_
  exact ensures_of_keeping
    (enclose_coupled hC hFills (hAny parent) (hAny tag.scope)
      (rolesMatch_self tag.parts) (optional_self object) ⟨rfl, trivial⟩
      (hAny { tag.scope with incomplete := incomplete }).incomplete
      (rel_pending_self (fun _ _ => trivial)) name
      (.inl ⟨trivial, trivial⟩)) h₂

/- A start tag whose relations go to lists leaves these lists. -/
theorem buildElement_holds
    {settings : Settings}
    {parent : Scope}
    {attributes : Entries}
    {tag : Reading}
    {s : Session}
    (hOwned :
      (s.lists.slot parent.list).owner < s.lists.slots.size)
    (hObject : tag.parts.object = none)
    (hInList : attributes.has "inlist" = true)
    {p : Iri}
    (hMem : p ∈ tag.rel)
    (name : String) :
    (buildElement settings parent name attributes tag).Ensures s
      (fun e t => Holds e.list p (fun _ => True) t) := by
  unfold buildElement
  dsimp only
  refine (listFor_ensures settings parent tag.parts.subject s).bind ?_
  rintro list s₁ ⟨rfl, hRoot, hChild⟩
  have hExists :
      s.lists.slots.size < s₁.lists.slots.size ∧
        (s₁.lists.slot s.lists.slots.size).owner <
          s₁.lists.slots.size := by
    by_cases hOwns : OwnsLists parent tag.parts.subject
    · rw [hRoot hOwns, ListForest.size_root, ListForest.slot_root,
        if_pos rfl]
      exact ⟨Nat.lt_succ_self _, Nat.lt_succ_self _⟩
    · rw [hChild hOwns, ListForest.size_child, ListForest.slot_child,
        if_pos rfl]
      exact ⟨Nat.lt_succ_self _, Nat.lt_succ_of_lt hOwned⟩
  have hRelate :
      (relate tag.parts s.lists.slots.size (attributes.has "inlist")
        tag.rel tag.rev).Ensures s₁
          (fun _ t =>
            Holds s.lists.slots.size p (fun _ => True) t) := by
    unfold relate awaitRelations ensureLists
    rw [hObject, hInList]
    refine Ensures.bind (Q := fun _ t =>
      Holds s.lists.slots.size p (fun _ => True) t) ?_ ?_
    · intro _ t hRun
      exact holds_of_forEach_ensureList hExists.1 hExists.2 hRun
        (.inl hMem)
    · intro _ t hHolds
      exact ensures_pure hHolds
  -- From here on the list is there, and stays.
  refine hRelate.bind ?_
  intro incomplete s₂ h₂
  refine (ensures_after_relate (keeps_holds s.lists.slots.size p)
    (keepsFilling_holds s.lists.slots.size p) h₂ settings parent name
    attributes tag s.lists.slots.size incomplete).mono ?_
  rintro e t ⟨hList, hHolds⟩
  rw [hList]
  exact hHolds

------------------------------------------------------------
-- Answers
------------------------------------------------------------

/- A start tag at a position that skips its element. -/
def SkippedAt
    (first : State)
    (events : List Event)
    (position : Nat) : Prop :=
  ∃ y, startTagAt first events position = some y ∧ y.Skipped

/-
  The start tag at a later position answers the one at an
  earlier position: it skips nothing and stands inside that
  element, and all elements between are skipped.
-/
def Answers
    (first : State)
    (events : List Event)
    (earlier later : Nat) : Prop :=
  (∃ y, startTagAt first events later = some y ∧ ¬ y.Skipped) ∧
    ∃ between tag outer,
      Event.openTags (events.take later) = between ++ tag :: outer ∧
        tag.position = earlier ∧
        ∀ t ∈ between, SkippedAt first events t.position

theorem lawful_of_startTagAt
    {first : State}
    {events : List Event}
    {position : Nat}
    {x : StartTag}
    (h : startTagAt first events position = some x) :
    x.Lawful := by
  rcases Option.bind_eq_some_iff.mp h with ⟨event, _, hStart⟩
  exact lawful_of_startTag? hStart

/- Relations that hang keep an element from being skipped. -/
theorem StartTag.Hangs.skips_eq
    {x : StartTag}
    (h : x.Hangs)
    (hLawful : x.Lawful) :
    x.reading.parts.skips = false := by
  rw [← Bool.not_eq_true]
  intro hSkips
  have hUntold :=
    hLawful.untold (hLawful.skips_iff.mp hSkips).1.relations
  rcases h.relations with hRel | hRev
  · exact hRel hUntold.1
  · exact hRev hUntold.2

/- A start tag that leaves relations waiting hangs. -/
theorem StartTag.hangs_of_obligations
    {x : StartTag}
    (h : x.obligations ≠ []) :
    x.Hangs := by
  unfold StartTag.obligations at h
  cases hObject : x.reading.parts.object with
  | some object => simp [hObject] at h
  | none =>
      refine ⟨hObject, ?_⟩
      by_contra hNone
      rw [not_or, not_not, not_not] at hNone
      simp [hObject, hNone.1, hNone.2] at h

theorem Keeps.refl
    (x : Scope) :
    Keeps x x :=
  ⟨rfl, rfl, rfl, rfl⟩

theorem Keeps.trans
    {x y z : Scope}
    (hXY : Keeps x y)
    (hYZ : Keeps y z) :
    Keeps x z where
  subject := hYZ.subject.trans hXY.subject
  object := hYZ.object.trans hXY.object
  list := hYZ.list.trans hXY.list
  incomplete := hYZ.incomplete.trans hXY.incomplete

section Stacks

variable {first : State} {events : List Event}
variable {tags : List Event.OpenTag} {elements : List Element}

/- An open element has the scope that its start tag gave it. -/
theorem scope_eq_of_bare_eq
    {e o : Element}
    (h : e.bare = o.bare) :
    e.scope = o.scope := by
  have hScope : e.bare.scope = o.bare.scope := by rw [h]
  exact hScope

/- Inside an element there is an object, and always a subject. -/
theorem Aligned.filled
    (hOuter : first.outer.subject.isSome = true)
    (h : Aligned first events tags elements) :
    (innermost first.outer elements).subject.isSome = true ∧
      (elements ≠ [] →
        (innermost first.outer elements).object.isSome = true) := by
  induction h with
  | nil => exact ⟨hOuter, fun hNe => absurd rfl hNe⟩
  | @cons _ _ e rest x _ hStart _ hAround hBare ih =>
      have hLawful := lawful_of_startTagAt hStart
      change e.scope.subject.isSome = true ∧
        (_ → e.scope.object.isSome = true)
      rw [scope_eq_of_bare_eq hBare]
      rw [← hAround] at ih
      cases hSkips : x.reading.parts.skips with
      | true =>
          have hPasses := hLawful.passes hSkips
          rw [hPasses.subject, hPasses.object]
          exact ⟨ih.1, fun _ => (hLawful.skips_iff.mp hSkips).2⟩
      | false =>
          rcases hLawful.hands hSkips with ⟨hSubject, hObject, _⟩
          refine ⟨?_, fun _ => hObject ih.1⟩
          rw [hSubject, Option.isSome_or, ih.1, Bool.or_true]

/- A skipped element inside another one passes its scope on. -/
theorem Aligned.keeps_of_skipped
    (hOuter : first.outer.subject.isSome = true)
    {rest : List Element}
    (h : Aligned first events tags rest)
    (hRest : rest ≠ [])
    {position : Nat}
    {x : StartTag}
    (hStart : startTagAt first events position = some x)
    (hAround : x.around = innermost first.outer rest)
    (hSkipped : SkippedAt first events position) :
    Keeps (innermost first.outer rest) x.element.scope := by
  rcases hSkipped with ⟨y, hSame, hSkipped⟩
  rw [hStart] at hSame
  cases hSame
  have hLawful := lawful_of_startTagAt hStart
  have hObject := (h.filled hOuter).2 hRest
  rw [← hAround] at hObject ⊢
  exact hLawful.passes (hLawful.skips_iff.mpr ⟨hSkipped, hObject⟩)

/- What an element hands on goes through skipped elements. -/
theorem Aligned.passes
    (hOuter : first.outer.subject.isSome = true)
    {between outer : List Event.OpenTag}
    {tag : Event.OpenTag}
    (h : Aligned first events (between ++ tag :: outer) elements)
    (hBetween : ∀ t ∈ between, SkippedAt first events t.position)
    {x : StartTag}
    (hStart : startTagAt first events tag.position = some x) :
    Keeps x.element.scope (innermost first.outer elements) := by
  induction between generalizing elements with
  | nil =>
      cases h with
      | @cons _ _ e _ y _ hOther _ _ hBare =>
          rw [hStart] at hOther
          cases hOther
          change Keeps _ e.scope
          rw [scope_eq_of_bare_eq hBare]
          exact .refl _
  | cons t between ih =>
      cases h with
      | @cons _ _ e rest y hRest hOther _ hAround hBare =>
          have hNe : rest ≠ [] := by
            intro hNil
            have hLength := hRest.length_eq
            simp [hNil] at hLength
          have hKeeps :=
            hRest.keeps_of_skipped hOuter hNe hOther hAround
              (hBetween t List.mem_cons_self)
          change Keeps _ e.scope
          rw [scope_eq_of_bare_eq hBare]
          exact (ih hRest (fun s hMem =>
            hBetween s (List.mem_cons_of_mem t hMem))).trans hKeeps

/- What waits was left by the innermost element not skipped. -/
theorem Aligned.waiting
    (hOuter : first.outer.incomplete = [])
    (h : Aligned first events tags elements) :
    (innermost first.outer elements).incomplete = [] ∨
      ∃ between tag outer x,
        tags = between ++ tag :: outer ∧
          (∀ t ∈ between, SkippedAt first events t.position) ∧
          startTagAt first events tag.position = some x ∧
          x.Hangs := by
  induction h with
  | nil => exact .inl hOuter
  | @cons tag tags e rest x _ hStart _ hAround hBare ih =>
      have hLawful := lawful_of_startTagAt hStart
      change e.scope.incomplete = [] ∨ _
      rw [scope_eq_of_bare_eq hBare]
      cases hSkips : x.reading.parts.skips with
      | true =>
          rw [(hLawful.passes hSkips).incomplete, hAround]
          rcases ih with hNone | ⟨between, t, outer, y, rfl, hBetween, hY⟩
          · exact .inl hNone
          · refine .inr ⟨tag :: between, t, outer, y, rfl, ?_, hY⟩
            intro s hMem
            rcases List.mem_cons.mp hMem with rfl | hIn
            · exact ⟨x, hStart, (hLawful.skips_iff.mp hSkips).1⟩
            · exact hBetween s hIn
      | false =>
          rw [(hLawful.hands hSkips).2.2]
          by_cases hNone : x.obligations = []
          · exact .inl hNone
          · exact .inr
              ⟨[], tag, tags, x, rfl, by simp, hStart,
                StartTag.hangs_of_obligations hNone⟩

end Stacks

------------------------------------------------------------
-- Runs
------------------------------------------------------------

/- What holds of an evaluation that has just started. -/
theorem blank_of_start
    {settings : Settings}
    {base : String}
    {first : State}
    (h : start settings base = .ok first) :
    first.elements = [] ∧ first.outer.subject.isSome = true ∧
      first.outer.incomplete = [] := by
  rcases start_eq_ok h with ⟨document, iri, _, _, rfl⟩
  exact ⟨rfl, rfl, rfl⟩

/-
  There is always a subject for the next start tag to be read
  in, and an object too if an element is open.
-/
theorem scope_filled
    {settings : Settings}
    {base : String}
    {first d : State}
    {events : List Event}
    {sections : List (List Note)}
    (hStart : start settings base = .ok first)
    (hRun : Run first events sections d)
    (position : Nat) :
    (first.before events position).scope.subject.isSome = true ∧
      (Event.openTags (events.take position) ≠ [] →
        (first.before events position).scope.object.isSome =
          true) := by
  rcases blank_of_start hStart with ⟨hEmpty, hOuter, _⟩
  rcases hRun.aligned_before hEmpty position with ⟨hScope, hAligned⟩
  rw [hScope]
  refine ⟨(hAligned.filled hOuter).1, ?_⟩
  intro hOpen
  apply (hAligned.filled hOuter).2
  intro hNil
  apply hOpen
  rw [← List.length_eq_zero_iff, hAligned.length_eq, hNil]
  rfl

/-
  From a start tag on whose relations hang and go to lists,
  the lists it has made are there.
-/
theorem holds_of_startTagAt
    {settings : Settings}
    {base : String}
    {first d : State}
    {events : List Event}
    {sections : List (List Note)}
    (hStart : start settings base = .ok first)
    (hRun : Run first events sections d)
    {i k : Nat}
    {x : StartTag}
    (hTag : startTagAt first events i = some x)
    (hHangs : x.Hangs)
    (hInList : x.attributes.has "inlist" = true)
    {p : Iri}
    (hMem : p ∈ x.reading.rel)
    (hLater : i < k) :
    Holds x.element.list p (fun _ => True)
      (first.before events k).session := by
  rcases Option.bind_eq_some_iff.mp hTag with ⟨event, hEvent, hRead⟩
  rcases hRun.step_at hEvent with ⟨notes, _, hBefore, hStep⟩
  have hSound := sound_of_run hStart hBefore
  rcases hRun.between (Nat.succ_le_of_lt hLater) with ⟨middle, hMiddle⟩
  refine holds_of_run (housed_of_process hSound.housed hStep) ?_ hMiddle
  rcases reads_of_startTag? hRead with ⟨name, depth, _, _, rfl, _⟩
  rcases process_startTag hStep with
    ⟨y, m, t, hSame, -, -, hReads, hBuild, hNext, -⟩
  rw [hRead] at hSame
  cases hSame
  have hLists := (readTag_ensures _ _ _ _ _ _ _ _ hReads).1
  have hOwned :
      (m.lists.slot (first.before events i).scope.list).owner <
        m.lists.slots.size := by
    rw [hLists]
    exact hSound.owned _ hSound.housed.uses_scope.list
  rw [hNext]
  exact buildElement_holds hOwned hHangs.object hInList hMem name _ _
    hBuild

/- What an answering start tag puts in the lists that wait. -/
theorem values_of_obligations
    {x : StartTag}
    (hObject : x.reading.parts.object = none)
    (hInList : x.attributes.has "inlist" = true)
    (subject node : Subject)
    {f : ListForest Iri Object}
    (hOwner : (f.slot x.element.list).owner < f.slots.size)
    (p : Iri) :
    ListForest.values
        ((f.filedInto (Note.filings
          (x.obligations.map (completion subject node)))).lists
            x.element.list) p =
      ListForest.values (f.lists x.element.list) p ++
        List.replicate (x.reading.rel.count p) node.toObject := by
  have hFilings :
      Note.filings (x.obligations.map (completion subject node)) =
        x.reading.rel.map
          (fun q => ⟨x.element.list, q, node.toObject⟩) := by
    unfold StartTag.obligations
    rw [hObject, hInList]
    simp only [if_true, List.map_append, List.map_map,
      Note.filings_append]
    have hReverse :
        ∀ revs : List Iri,
          Note.filings
            (revs.map (completion subject node ∘ Incomplete.reverse)) =
              [] := by
      intro revs
      induction revs with
      | nil => rfl
      | cons q rest ih => exact ih
    rw [hReverse, List.append_nil]
    induction x.reading.rel with
    | nil => rfl
    | cons q rest ih => exact congrArg (List.cons _) ih
  rw [hFilings, ListForest.values_filedInto hOwner (by simp)]
  congr 1
  induction x.reading.rel with
  | nil => rfl
  | cons q rest ih =>
      by_cases hEq : q = p
      · simp [hEq, List.replicate_succ, ← ih]
      · simp [hEq, ← ih]

/-
  What a start tag completes for an earlier one: each of its
  relations once, with its own subject. If they go to lists,
  the subject comes last in these lists, once for each time
  that the relation is named.
-/
def Fulfilled
    (first : State)
    (events : List Event)
    (x : StartTag)
    (subject : Subject)
    (position : Nat)
    (free : State)
    (completed : List Note) : Prop :=
  ∃ y n,
    startTagAt first events position = some y ∧
      y.element.subject = some n ∧
      completed = x.obligations.map (completion subject n) ∧
      (x.attributes.has "inlist" = true →
        ∀ p ∈ x.reading.rel,
          ListForest.values
              ((first.before events
                (position + 1)).session.lists.lists
                  x.element.list) p =
            ListForest.values
                (free.session.lists.lists x.element.list) p ++
              List.replicate (x.reading.rel.count p) n.toObject)

section Answering

variable {settings : Settings} {base : String}
variable {first d : State}
variable {events : List Event} {sections : List (List Note)}

/- A start tag that answers completes what waits for it. -/
theorem fulfilled_of_answers
    (hStart : start settings base = .ok first)
    (hRun : Run first events sections d)
    {i j : Nat}
    {x : StartTag}
    (hTag : startTagAt first events i = some x)
    (hHangs : x.Hangs)
    {S : Subject}
    (hSubject : x.element.scope.subject = some S)
    (hAnswers : Answers first events i j)
    {event : Event}
    (hEvent : events[j]? = some event)
    {free : State}
    (hLists :
      (first.before events (j + 1)).session.lists =
        free.session.lists.filedInto
          (Note.filings
            (completedAt (first.before events j) event))) :
    Fulfilled first events x S j free
      (completedAt (first.before events j) event) := by
  rcases blank_of_start hStart with ⟨hEmpty, hOuter, _⟩
  rcases hAnswers with
    ⟨⟨y, hLater, hNot⟩, between, tag, outer, hOpen, hPosition, hBetween⟩
  rcases hRun.aligned_before hEmpty j with ⟨hScope, hAligned⟩
  rw [hOpen] at hAligned
  -- What waits at the later start tag is what the earlier one left.
  have hKeeps := hAligned.passes hOuter hBetween (hPosition ▸ hTag)
  have hLeft := (lawful_of_startTagAt hTag).hands
    (hHangs.skips_eq (lawful_of_startTagAt hTag))
  have hLawful := lawful_of_startTagAt hLater
  rw [startTagAt_of_event hEvent] at hLater
  have hObject : y.around.object.isSome = true := by
    rcases reads_of_startTag? hLater with ⟨_, _, _, _, _, hAround, _⟩
    rw [hAround]
    exact (scope_filled hStart hRun j).2 (by simp [hOpen])
  have hSkips : y.reading.parts.skips = false := by
    rw [← Bool.not_eq_true, hLawful.skips_iff]
    exact fun hBoth => hNot hBoth.1
  rcases Option.isSome_iff_exists.mp (hLawful.subject hObject) with
    ⟨n, hNode⟩
  have hCompleted :
      completedAt (first.before events j) event =
        x.obligations.map (completion S n) := by
    unfold completedAt completions
    rw [hLater]
    dsimp only
    rw [hSkips, hNode, hScope, hKeeps.subject, hSubject,
      hKeeps.incomplete, hLeft.2.2]
    rfl
  refine ⟨y, n, (startTagAt_of_event hEvent).trans hLater, hNode,
    hCompleted, ?_⟩
  intro hInList p hMem
  have hBefore : i < j := by
    have hTagMem : tag ∈ Event.openTags (events.take j) := by
      rw [hOpen]
      simp
    have hLt := Event.position_lt_length hTagMem
    rw [List.length_take] at hLt
    omega
  have hHolds :=
    holds_of_startTagAt hStart hRun hTag hHangs hInList hMem
      (Nat.lt_succ_of_lt hBefore)
  have hShape :=
    ListForest.sameShape_filedInto free.session.lists
      (Note.filings (completedAt (first.before events j) event))
  rw [← hLists] at hShape
  have hOwner := hHolds.2.1
  rw [hShape.owner_eq, hShape.size_eq] at hOwner
  rw [hLists, hCompleted]
  exact values_of_obligations hHangs.object hInList S n hOwner p

/- What is completed at all is what some start tag answers. -/
theorem exists_answered
    (hStart : start settings base = .ok first)
    (hRun : Run first events sections d)
    {j : Nat}
    {event : Event}
    (hEvent : events[j]? = some event)
    (hSome : completedAt (first.before events j) event ≠ []) :
    ∃ k z,
      startTagAt first events k = some z ∧ z.Hangs ∧
        Answers first events k j := by
  rcases blank_of_start hStart with ⟨hEmpty, hOuter, hNothing⟩
  rcases hRun.aligned_before hEmpty j with ⟨hScope, hAligned⟩
  unfold completedAt at hSome
  cases hLater : startTag? (first.before events j) event with
  | none => simp [hLater] at hSome
  | some y =>
      rw [hLater] at hSome
      dsimp only at hSome
      cases hSkips : y.reading.parts.skips with
      | true => simp [hSkips] at hSome
      | false =>
          rcases hAligned.waiting hNothing with
            hNone | ⟨between, tag, outer, z, hOpen, hBetween, hZ⟩
          · rw [← hScope] at hNone
            simp [hSkips, completions_eq_nil hNone] at hSome
          · have hLawful := lawful_of_startTag? hLater
            have hObject : y.around.object.isSome = true := by
              rcases reads_of_startTag? hLater with
                ⟨_, _, _, _, _, hAround, _⟩
              rw [hAround]
              exact (scope_filled hStart hRun j).2 (by simp [hOpen])
            refine ⟨tag.position, z, hZ.1, hZ.2, ⟨y, ?_, ?_⟩, between,
              tag, outer, hOpen, rfl, hBetween⟩
            · exact (startTagAt_of_event hEvent).trans hLater
            · intro hSkipped
              have hTrue := hLawful.skips_iff.mpr ⟨hSkipped, hObject⟩
              rw [hSkips] at hTrue
              cases hTrue

/- An element that is not skipped hands a subject on. -/
theorem exists_subject
    (hStart : start settings base = .ok first)
    (hRun : Run first events sections d)
    {i : Nat}
    {x : StartTag}
    (hTag : startTagAt first events i = some x)
    (hHangs : x.Hangs) :
    ∃ S, x.element.scope.subject = some S := by
  have hLawful := lawful_of_startTagAt hTag
  rcases Option.bind_eq_some_iff.mp hTag with ⟨event, _, hRead⟩
  rcases reads_of_startTag? hRead with ⟨_, _, _, _, _, hAround, _⟩
  rw [← Option.isSome_iff_exists,
    (hLawful.hands (hHangs.skips_eq hLawful)).1, Option.isSome_or,
    hAround, (scope_filled hStart hRun i).1, Bool.or_true]

/-
  In any run, the relations of an element that has no object
  for them are completed by each start tag that answers it:
  on top of what this does when nothing waits, it states every
  one of them once, or puts its subject in the list that was
  made for it. No other event completes any of them.
-/
theorem relations_completed_once
    (hStart : start settings base = .ok first)
    (hRun : Run first events sections d)
    {i : Nat}
    {x : StartTag}
    (hTag : startTagAt first events i = some x)
    (hHangs : x.Hangs) :
    ∃ S,
      x.element.scope.subject = some S ∧
        (x.attributes.has "inlist" = true →
          ∀ p ∈ x.reading.rel, ∀ k, i < k →
            (first.before events k).session.lists.contains
              x.element.list p = true) ∧
        ∀ j event notes, events[j]? = some event →
          sections[j]? = some notes →
            ∃ free own completed,
              process (first.before events j).unbound event =
                  (.ok free, own) ∧
                notes = own ++ completed ∧
                (Answers first events i j →
                  Fulfilled first events x S j free completed) ∧
                (¬ Answers first events i j →
                  completed = [] ∨
                    ∃ k z T,
                      k ≠ i ∧ startTagAt first events k = some z ∧
                        z.element.scope.subject = some T ∧
                        Answers first events k j ∧
                        Fulfilled first events z T j free
                          completed) := by
  rcases exists_subject hStart hRun hTag hHangs with ⟨S, hSubject⟩
  refine ⟨S, hSubject, ?_, ?_⟩
  · intro hInList p hMem k hLater
    exact (holds_of_startTagAt hStart hRun hTag hHangs hInList hMem
      hLater).2.2
  · intro j event notes hEvent hSection
    rcases hRun.step_at hEvent with ⟨_, hSame, _, hStep⟩
    rw [hSection] at hSame
    cases hSame
    rcases process_unbound (scope_filled hStart hRun j).1 hStep with
      ⟨free, own, hFree, hNotes, hLists⟩
    refine ⟨free, own, _, hFree, hNotes, ?_, ?_⟩
    · intro hAnswers
      exact fulfilled_of_answers hStart hRun hTag hHangs hSubject
        hAnswers hEvent hLists
    · intro hNot
      by_cases hNone : completedAt (first.before events j) event = []
      · exact .inl hNone
      · rcases exists_answered hStart hRun hEvent hNone with
          ⟨k, z, hOther, hWaits, hAnswers⟩
        rcases exists_subject hStart hRun hOther hWaits with ⟨T, hT⟩
        refine .inr ⟨k, z, T, ?_, hOther, hT, hAnswers, ?_⟩
        · rintro rfl
          exact hNot hAnswers
        · exact fulfilled_of_answers hStart hRun hOther hWaits hT
            hAnswers hEvent hLists

end Answering

namespace Hanging

def settings : Settings :=
  ⟨.html, ⟨.members, true, [("f", "http://f/")], []⟩⟩

def first : State :=
  State.initial settings "http://ex/" ⟨"http://ex/"⟩

/- An element with relations that hang, and two others inside. -/
def events : List Event :=
  [.opened "div"
      [("about", "#a"), ("rel", "f:p f:q f:p"), ("rev", "f:r"),
        ("inlist", "")] 0,
    .opened "span" [] 1,
    .opened "b" [("resource", "#b")] 2,
    .closed "b" 2, .closed "span" 1, .closed "div" 0]

def outer : StartTag :=
  (startTagAt first events 0).get (by decide +kernel)

def skipped : StartTag :=
  (startTagAt first events 1).get (by decide +kernel)

def inner : StartTag :=
  (startTagAt first events 2).get (by decide +kernel)

theorem start_eq :
    start settings "http://ex/" = .ok first :=
  start_of_document (by decide +kernel) (by decide +kernel) settings

theorem hangs_outer :
    outer.Hangs :=
  ⟨by decide +kernel, .inl (by decide +kernel)⟩

theorem skippedAt_span :
    SkippedAt first events 1 :=
  ⟨skipped, (Option.some_get _).symm, by decide +kernel,
    by decide +kernel, by decide +kernel, by decide +kernel⟩

theorem answers_inner :
    Answers first events 0 2 := by
  refine ⟨⟨inner, (Option.some_get _).symm, ?_⟩,
    [⟨1, []⟩], ⟨0, _⟩, [], rfl, rfl, ?_⟩
  · intro hSkipped
    have hNamed := hSkipped.named
    revert hNamed
    decide +kernel
  · intro t hMem
    rw [List.mem_singleton.mp hMem]
    exact skippedAt_span

end Hanging

open Hanging in
/- The innermost element completes what waits two levels up. -/
theorem inner_completes_outer :
    ∃ S free own completed,
      process (first.before events 2).unbound
          (.opened "b" [("resource", "#b")] 2) = (.ok free, own) ∧
        (Extraction.evaluate first events).1[2]? =
          some (own ++ completed) ∧
        Fulfilled first events outer S 2 free completed := by
  have hRun :
      Run first events (Extraction.evaluate first events).1
        (first.through events) :=
    run_through (by decide +kernel)
  rcases relations_completed_once start_eq hRun
      (Option.some_get _).symm hangs_outer with
    ⟨S, _, _, hAll⟩
  rcases Option.isSome_iff_exists.mp
      (show (Extraction.evaluate first events).1[2]?.isSome = true by
        decide +kernel) with
    ⟨notes, hNotes⟩
  rcases hAll 2 _ notes rfl hNotes with
    ⟨free, own, completed, hFree, rfl, hAnswered, _⟩
  exact ⟨S, free, own, completed, hFree, hNotes,
    hAnswered answers_inner⟩

end Evaluation
end LinkedMarkup
