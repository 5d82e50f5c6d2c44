import LinkedMarkup.Proofs.Coupling.Keeping

/-
  This file proves what a start tag opens: an element with a
  new list mapping, whose scope either passes on what is
  around it or hands on the element's own nodes and lists.

  Key definitions include:
    * `Evaluation.OwnsLists`
    * `Evaluation.PassesOn`
    * `Evaluation.HandsOn`
    * `Evaluation.Opened`
    * `Evaluation.Gathered`

  Main declarations:
    * `Evaluation.readTag_ensures`
    * `Evaluation.buildElement_opened`
    * `Evaluation.openElement_opened`
    * `Evaluation.sameShape_of_completeElement`
-/

namespace LinkedMarkup
namespace Evaluation

open Work Coupling

------------------------------------------------------------
-- What an element hands on
------------------------------------------------------------

/- An element that has another subject than is around it. -/
def OwnsLists
    (parent : Scope)
    (subject : Option Subject) : Prop :=
  subject.isSome = true ∧ subject ≠ parent.object

/- An element that only passes on what is around it. -/
structure PassesOn
    (parent : Scope)
    (e : Element) : Prop where
  subject : e.subject = parent.object
  object : parent.object.isSome = true
  scope : Keeps parent e.scope

/- An element that hands on its own nodes and lists. -/
structure HandsOn
    (parent : Scope)
    (e : Element) : Prop where
  subject : e.scope.subject = e.subject.or parent.subject
  object :
    ∃ passed : Option Subject,
      e.scope.object = (passed.or e.subject).or parent.subject
  list : e.scope.list = e.list
  listed :
    ∀ p l, Incomplete.listed p l ∈ e.scope.incomplete → l = e.list

/- What holds of an element and the session once it is open. -/
structure Opened
    (settings : Settings)
    (parent : Scope)
    (isRoot : Bool)
    (name : String)
    (s t : Session)
    (e : Element) : Prop where
  name_eq : e.name = name
  list_eq : e.list = s.lists.slots.size
  subject : parent.object.isSome = true → e.subject.isSome = true
  anchored : Anchored settings parent isRoot → e.subject.isSome = true
  root :
    OwnsLists parent e.subject →
      (s.lists.root
        (settings.options.listStyle == .collection)).2.SameShape
          t.lists
  child :
    ¬ OwnsLists parent e.subject →
      (s.lists.child parent.list).2.SameShape t.lists
  pending :
    ∀ p, e.pending = some p →
      p.list = e.list ∧ e.subject = some p.subject
  scope : PassesOn parent e ∨ HandsOn parent e

------------------------------------------------------------
-- Values that wait
------------------------------------------------------------

/- A value that waits keeps its subject and its list. -/
theorem propertyValue_yields
    (settings : Settings)
    (name : String)
    (attributes : Entries)
    (scope : Scope)
    (named : Named)
    (typed : Option Subject)
    (hasRelations : Bool)
    (pending : Pending) :
    (propertyValue settings name attributes scope named typed
      hasRelations pending).Yields
        (fun found =>
          ∀ p, found = .error p →
            p.list = pending.list ∧ p.subject = pending.subject) := by
  have hWaits :
      ∀ p : Pending,
        p.list = pending.list → p.subject = pending.subject →
          (pure (.error p) : Work (Except Pending Object)).Yields
            (fun found =>
              ∀ q, found = .error q →
                q.list = pending.list ∧
                  q.subject = pending.subject) := by
    intro p hList hSubject
    apply yields_pure
    intro q hEq
    cases hEq
    exact ⟨hList, hSubject⟩
  have hKnown :
      ∀ o : Object,
        (pure (.ok o) : Work (Except Pending Object)).Yields
          (fun found =>
            ∀ q, found = .error q →
              q.list = pending.list ∧
                q.subject = pending.subject) := by
    intro o
    apply yields_pure
    intro q hEq
    cases hEq
  unfold propertyValue
  apply yields_bind
  intro datatype
  cases datatype with
  | some d =>
      dsimp only
      split
      · exact hWaits _ rfl rfl
      · split
        · exact hWaits _ rfl rfl
        · apply yields_bind
          intro l
          exact hKnown _
  | none =>
      dsimp only
      split
      · split
        · exact hWaits _ rfl rfl
        · apply yields_bind
          intro l
          exact hKnown _
      · split
        · apply yields_bind
          intro l
          exact hKnown _
        · split
          · exact hKnown _
          · split
            · exact hKnown _
            · exact hWaits _ rfl rfl

theorem readProperty_yields
    (settings : Settings)
    (name : String)
    (attributes : Entries)
    (scope : Scope)
    (named : Named)
    (parts : Roles)
    (list : Nat)
    (inList hasRelations : Bool) :
    (readProperty settings name attributes scope named parts list
      inList hasRelations).Yields
        (fun pending =>
          ∀ p, pending = some p →
            p.list = list ∧ parts.subject = some p.subject) := by
  have hNothing :
      (pure none : Work (Option Pending)).Yields
        (fun pending =>
          ∀ p, pending = some p →
            p.list = list ∧ parts.subject = some p.subject) := by
    apply yields_pure
    intro p hEq
    cases hEq
  unfold readProperty
  split
  · rename_i value subject hValue hSubject
    apply yields_bind
    intro predicates
    split
    · exact hNothing
    · dsimp only
      refine (propertyValue_yields settings name attributes scope named
        parts.typed hasRelations _).bind ?_
      intro found hFound
      cases found with
      | error waiting =>
          apply yields_pure
          intro p hEq
          cases hEq
          rcases hFound _ rfl with ⟨hList, hOf⟩
          exact ⟨hList, by rw [hSubject, hOf]⟩
      | ok object =>
          apply yields_bind
          intro _
          exact hNothing
  · exact hNothing

------------------------------------------------------------
-- Relations that wait
------------------------------------------------------------

/- Relations only wait with the lists of their own element. -/
theorem relate_yields
    (parts : Roles)
    (list : Nat)
    (inList : Bool)
    (rel rev : List Iri) :
    (relate parts list inList rel rev).Yields
      (fun incomplete =>
        ∀ p l, Incomplete.listed p l ∈ incomplete → l = list) := by
  unfold relate
  split
  · apply yields_bind
    intro _
    exact yields_pure (by simp)
  · unfold awaitRelations
    apply yields_bind
    intro _
    apply yields_pure
    intro p l hMem
    rcases List.mem_append.mp hMem with hForward | hReverse
    · rcases List.mem_map.mp hForward with ⟨q, _, hEq⟩
      split at hEq
      · cases hEq
        rfl
      · cases hEq
    · rcases List.mem_map.mp hReverse with ⟨q, _, hEq⟩
      cases hEq

------------------------------------------------------------
-- Lists while a start tag is read
------------------------------------------------------------

/- Steps that touch no list leave them all as they are. -/
theorem keeps_lists
    (lists : ListForest Iri Object) :
    Work.Keeps (fun _ s => s.lists = lists) (fun _ => True) where
  quad _ _ _ h := h
  line _ _ _ h := h
  fresh _ _ h := h
  labelled _ _ _ h := h
  value _ _ := trivial

/- Filling lists makes no mapping and flushes none. -/
theorem keeps_shape
    (lists : ListForest Iri Object) :
    Work.Keeps (fun _ s => lists.SameShape s.lists)
      (fun _ => True) where
  quad _ _ _ h := h
  line _ _ _ h := h
  fresh _ _ h := h
  labelled _ _ _ h := h
  value _ _ := trivial

theorem keepsFilling_shape
    (lists : ListForest Iri Object) :
    Work.KeepsFilling (fun _ s => lists.SameShape s.lists)
      (fun _ => True) where
  ensure _ s l _ h _ _ :=
    h.trans (ListForest.sameShape_setLists s.lists l _)
  append _ s l _ _ h _ _ :=
    h.trans (ListForest.sameShape_setLists s.lists l _)
  flushed _ _ _ _ _ _ _ := trivial

/- A fact that does not depend on the lists in use is ensured. -/
theorem ensures_of_keeping
    {α : Type}
    {J : Session → Prop}
    {w : Work α}
    {Q : (Nat → Prop) → α → α → Prop}
    (h :
      (Coupling.keeping (fun _ => J) (fun _ => True)).Coupled
        (fun _ => True) w w Q)
    {s : Session}
    (hs : J s) :
    w.Ensures s (fun _ => J) :=
  (h.ensures (I := fun _ => J) hs).mono
    (fun _ _ hJ => hJ.choose_spec)

theorem uses_true
    (x : Scope) :
    x.Uses (fun _ => True) :=
  ⟨trivial, fun _ _ _ => trivial⟩

------------------------------------------------------------
-- Start tags
------------------------------------------------------------

/- The mapping of an element is new. -/
theorem listFor_ensures
    (settings : Settings)
    (parent : Scope)
    (subject : Option Subject)
    (s : Session) :
    (listFor settings parent subject).Ensures s
      (fun list t =>
        list = s.lists.slots.size ∧
          (OwnsLists parent subject →
            t.lists =
              (s.lists.root
                (settings.options.listStyle == .collection)).2) ∧
          (¬ OwnsLists parent subject →
            t.lists = (s.lists.child parent.list).2)) := by
  have hOwns :
      (subject.isSome && subject != parent.object) = true ↔
        OwnsLists parent subject := by
    simp [OwnsLists]
  intro list t hRun
  unfold listFor at hRun
  split at hRun
  · rename_i hTrue
    cases hRun
    exact ⟨rfl, fun _ => rfl, fun hNot => absurd (hOwns.mp hTrue) hNot⟩
  · rename_i hFalse
    cases hRun
    exact ⟨rfl, fun hOwn => absurd (hOwns.mpr hOwn) hFalse, fun _ => rfl⟩

/- What an element has beside its scope is as it was given. -/
theorem enclose_fields
    (parent scope : Scope)
    (name : String)
    (parts : Roles)
    (object : Option Subject)
    (list : Nat)
    (incomplete : List Incomplete)
    (pending : Option Pending) :
    (enclose parent scope name parts object list incomplete
      pending).Yields
        (fun e =>
          e.subject = parts.subject ∧ e.list = list ∧
            e.pending = pending) := by
  unfold enclose
  split
  · exact yields_pure ⟨rfl, rfl, rfl⟩
  · exact yields_bind (fun _ => yields_pure ⟨rfl, rfl, rfl⟩)

/- The element that encloses what follows has the parts read. -/
theorem enclose_yields
    {parent scope : Scope}
    {named : Named}
    {parts : Roles}
    (hScope : Keeps parent scope)
    (hParts : Settled parent named parts)
    {list : Nat}
    {incomplete : List Incomplete}
    (hIncomplete :
      ∀ p l, Incomplete.listed p l ∈ incomplete → l = list)
    (name : String)
    (object : Option Subject)
    (pending : Option Pending) :
    (enclose parent scope name parts object list incomplete
      pending).Yields
        (fun e =>
          e.name = name ∧ e.list = list ∧ e.pending = pending ∧
            e.subject = parts.subject ∧
            (PassesOn parent e ∨ HandsOn parent e)) := by
  unfold enclose
  split
  · rename_i hSkips
    rcases hParts.skips hSkips with ⟨hSubject, hObject, _⟩
    exact yields_pure
      ⟨rfl, rfl, rfl, rfl, .inl ⟨hSubject, hObject, hScope⟩⟩
  · apply yields_bind
    intro _
    exact yields_pure
      ⟨rfl, rfl, rfl, rfl,
        .inr ⟨rfl, ⟨object, rfl⟩, rfl, hIncomplete⟩⟩

/-
  What is read of a start tag before its list mapping is
  made: a scope and roles. No list is touched.
-/
theorem readNamed_ensures
    {settings : Settings}
    {parent scope : Scope}
    {lists : ListForest Iri Object}
    {s : Session}
    (hLists : s.lists = lists)
    (hBase : settings.isHtml = true → scope.base = parent.base)
    (isRoot : Bool)
    (name : String)
    (attributes : Entries) :
    (readNamed settings parent scope isRoot name attributes).Ensures s
      (fun named t =>
        t.lists = lists ∧
          (Anchored settings parent isRoot →
            named.about.isSome = true ∨
              parent.object.isSome = true)) := by
  have hFixed :
      (readNamed settings parent scope isRoot name attributes).Ensures
        s (fun _ t => t.lists = lists) :=
    ensures_of_keeping
      (Coupling.readNamed_coupled
        (Coupling.keeping_sound (keeps_lists lists))
        (Settings.Agree.refl settings)
        (Coupling.scopesMatch_self (uses_true parent))
        (Coupling.scopesMatch_self (uses_true scope)) isRoot name
        attributes)
      hLists
  apply hFixed.and
  intro named t hRun hAnchored
  rcases hAnchored.object with hObject | ⟨rfl, hHtml, hNames⟩
  · exact .inr hObject
  · rw [← hBase hHtml] at hNames
    exact .inl
      (readNamed_yields_root hNames settings parent name attributes
        s named t hRun)

/- What is known of the parts read of a start tag. -/
structure Gathered
    (settings : Settings)
    (parent : Scope)
    (isRoot : Bool)
    (tag : Reading) : Prop where
  scope : Keeps parent tag.scope
  settled : Settled parent tag.named tag.parts
  anchored :
    Anchored settings parent isRoot →
      tag.parts.subject.isSome = true

/- The first half of a start tag finds its parts and no list. -/
theorem readTag_ensures
    (settings : Settings)
    (parent : Scope)
    (isRoot : Bool)
    (name : String)
    (attributes : Entries)
    (s : Session) :
    (readTag settings parent isRoot name attributes).Ensures s
      (fun tag t =>
        t.lists = s.lists ∧ Gathered settings parent isRoot tag) := by
  have hC := Coupling.keeping_sound (keeps_lists s.lists)
  have hAgree := Settings.Agree.refl settings
  have hAny :
      ∀ x : Scope,
        (Coupling.keeping (fun _ t => t.lists = s.lists)
          (fun _ => True)).ScopesMatch (fun _ => True) x x :=
    fun x => Coupling.scopesMatch_self (uses_true x)
  unfold readTag
  dsimp only
  generalize
    ((relationTokens settings attributes "rel").isSome ||
      (relationTokens settings attributes "rev").isSome) =
      hasRelations
  generalize
    ((explicitContent settings attributes).1.isNone &&
      !attributes.has "datatype") = isBare
  have hRead :
      (readScope settings parent attributes).Ensures s
        (fun scope t =>
          t.lists = s.lists ∧ Keeps parent scope ∧
            (settings.isHtml = true → scope.base = parent.base)) :=
    (ensures_of_keeping
      (readScope_coupled hC hAgree (hAny parent) attributes) rfl).and
      ((readScope_yields settings parent attributes s).and
        (fun scope t hRun hHtml =>
          readScope_base hHtml parent attributes s scope t hRun))
  refine hRead.bind ?_
  rintro scope s₁ ⟨h₁, hScope, hBase⟩
  refine (ensures_of_keeping
    (relationTerms_coupled hC (hAny scope) _) h₁).bind ?_
  intro rel s₂ h₂
  refine (ensures_of_keeping
    (relationTerms_coupled hC (hAny scope) _) h₂).bind ?_
  intro rev s₃ h₃
  refine (readNamed_ensures h₃ hBase isRoot name attributes).bind ?_
  rintro named s₄ ⟨h₄, hAbout⟩
  refine ((ensures_of_keeping
    (roles_coupled hC (hAny parent) (namedMatch_self named)
      hasRelations _ _ isBare) h₄).and
      (roles_yields parent named hasRelations _ _ isBare s₄)).bind ?_
  rintro parts s₅ ⟨h₅, hParts⟩
  refine (ensures_of_keeping
    (stateTypes_coupled hC (hAny scope) attributes
      (optional_self parts.typed)) h₅).bind ?_
  intro _ s₆ h₆
  apply ensures_pure
  exact ⟨h₆, hScope, hParts,
    fun hAnchored => hParts.subject (hAbout hAnchored)⟩

/-
  The parts read of a start tag and a session with the lists
  of an earlier one build an element as `Opened` says.
-/
theorem buildElement_opened
    {settings : Settings}
    {parent : Scope}
    {isRoot : Bool}
    {tag : Reading}
    (hReading : Gathered settings parent isRoot tag)
    {s₀ s : Session}
    (hLists : s.lists = s₀.lists)
    (name : String)
    (attributes : Entries) :
    (buildElement settings parent name attributes tag).Ensures s
      (fun e t => Opened settings parent isRoot name s₀ t e) := by
  unfold buildElement
  dsimp only
  refine (listFor_ensures settings parent tag.parts.subject s).bind ?_
  rintro list s₁ ⟨hList, hRoot, hChild⟩
  rw [hLists] at hList hRoot hChild
  -- From here on lists are filled, and mappings stay as they are.
  have hC := Coupling.keeping_sound (keeps_shape s₁.lists)
  have hFills := Coupling.keeping_fills (keepsFilling_shape s₁.lists)
  have hAny :
      ∀ x : Scope,
        (Coupling.keeping (fun _ t => s₁.lists.SameShape t.lists)
          (fun _ => True)).ScopesMatch (fun _ => True) x x :=
    fun x => Coupling.scopesMatch_self (uses_true x)
  have hGaps :
      (Coupling.keeping (fun _ t => s₁.lists.SameShape t.lists)
        (fun _ => True)).AllowsGaps :=
    ⟨trivial, trivial⟩
  refine ((ensures_of_keeping
    (relate_coupled hC hFills _ tag.rel tag.rev
      (rolesMatch_self tag.parts) ⟨rfl, trivial⟩ (.inl hGaps))
    (ListForest.SameShape.refl _)).and
      (relate_yields tag.parts list _ tag.rel tag.rev s₁)).bind ?_
  rintro incomplete s₂ ⟨h₂, hIncomplete⟩
  refine (ensures_of_keeping
    (passedObject_coupled hC (rolesMatch_self tag.parts) tag.rel
      tag.rev) h₂).bind ?_
  intro object s₃ h₃
  refine ((ensures_of_keeping
    (readProperty_coupled hC hFills (Settings.Agree.refl settings)
      (hAny tag.scope) (namedMatch_self tag.named)
      (rolesMatch_self tag.parts) ⟨rfl, trivial⟩ name attributes _
      tag.hasRelations) h₃).and
      (readProperty_yields settings name attributes tag.scope
        tag.named tag.parts list _ tag.hasRelations s₃)).bind ?_
  rintro pending s₄ ⟨h₄, hPending⟩
  have hIncompletes :
      List.Forall₂
        ((Coupling.keeping (fun _ t => s₁.lists.SameShape t.lists)
          (fun _ => True)).IncompletesMatch (fun _ => True))
        incomplete incomplete :=
    (scopesMatch_self
      (uses_true
        { tag.scope with incomplete := incomplete })).incomplete
  refine ((ensures_of_keeping
    (enclose_coupled hC hFills (hAny parent) (hAny tag.scope)
      (rolesMatch_self tag.parts) (optional_self object)
      ⟨rfl, trivial⟩ hIncompletes
      (rel_pending_self (fun _ _ => trivial)) name (.inl hGaps)) h₄).and
      (enclose_yields hReading.scope hReading.settled hIncomplete name
        object pending s₄)).mono ?_
  rintro e t ⟨hShape, hName, hOwn, hWaits, hSubject, hPassed⟩
  exact
    { name_eq := hName
      list_eq := hOwn.trans hList
      subject := by
        intro hObject
        rw [hSubject]
        exact hReading.settled.subject (.inr hObject)
      anchored := by
        intro hAnchored
        rw [hSubject]
        exact hReading.anchored hAnchored
      root := by
        intro hOwns
        rw [hSubject] at hOwns
        rw [← hRoot hOwns]
        exact hShape
      child := by
        intro hOwns
        rw [hSubject] at hOwns
        rw [← hChild hOwns]
        exact hShape
      pending := by
        intro p hSome
        rw [hWaits] at hSome
        rw [hOwn, hSubject]
        exact hPending p hSome
      scope := hPassed }

/- A start tag opens an element as `Opened` says. -/
theorem openElement_opened
    (settings : Settings)
    (parent : Scope)
    (isRoot : Bool)
    (name : String)
    (attributes : Entries)
    (s : Session) :
    (openElement settings parent isRoot name attributes).Ensures s
      (fun e t => Opened settings parent isRoot name s t e) := by
  rw [openElement_eq]
  refine (readTag_ensures settings parent isRoot name attributes
    s).bind ?_
  rintro tag t ⟨hLists, hReading⟩
  exact buildElement_opened hReading hLists name attributes

/- Completing an element makes no mapping and flushes none. -/
theorem sameShape_of_completeElement
    {e : Element}
    {s t : Session}
    (h : completeElement e s = (.ok (), t)) :
    s.lists.SameShape t.lists := by
  have hUses : e.Uses (fun _ => True) :=
    ⟨uses_true e.scope, trivial, fun _ _ => trivial⟩
  rcases (keeps_shape s.lists).completeElement
      (keepsFilling_shape s.lists) hUses
      (ListForest.SameShape.refl s.lists) with
    ⟨hOk, _⟩
  rcases hOk () t h with ⟨_, _, hShape⟩
  exact hShape

end Evaluation
end LinkedMarkup
