import LinkedMarkup.Proofs.Evaluation.History
import LinkedMarkup.Proofs.Evaluation.Independence
import LinkedMarkup.Proofs.Lists.Contents

/-
  This file proves what one start tag does about relations
  that wait: it leaves its own to the elements inside it, and
  completes those that wait around it after everything else,
  unless it only passes on what is around it. Nothing else in
  the reading of a start tag depends on what waits.

  Key definitions include:
    * `Scope.unbound`
    * `Evaluation.completion`
    * `Evaluation.completions`
    * `Evaluation.StartTag.Skipped`
    * `Evaluation.StartTag.obligations`
    * `Evaluation.StartTag.Lawful`

  Main declarations:
    * `Evaluation.buildElement_unbound`
    * `Evaluation.completeRelations_ok`
    * `Evaluation.lawful_of_startTag?`
    * `Evaluation.process_unbound`
-/

namespace LinkedMarkup

/- A scope in which no relation waits. -/
def Scope.unbound
    (x : Scope) : Scope :=
  x.rehung x.list []

namespace Evaluation

open Work

------------------------------------------------------------
-- Start tags without what waits
------------------------------------------------------------

/-
  What an element that was read without what waits does about
  it: complete it, or leave it waiting further inside.
-/
def settle
    (parent : Scope)
    (skips : Bool)
    (e : Element) : Work Element :=
  if skips then
    return { e with
      scope := { e.scope with incomplete := parent.incomplete } }
  else do
    completeRelations parent e.subject
    return e

theorem completeRelations_unbound
    (parent : Scope)
    (node : Option Subject) :
    completeRelations parent.unbound node = pure () := by
  cases node <;> rfl

theorem enclose_unbound
    {parent scope : Scope}
    (h : Keeps parent scope)
    (name : String)
    (parts : Roles)
    (object : Option Subject)
    (list : Nat)
    (incomplete : List Incomplete)
    (pending : Option Pending) :
    enclose parent scope name parts object list incomplete pending =
      (enclose parent.unbound (scope.rehung parent.list []) name parts
        object list incomplete pending >>=
          settle parent parts.skips) := by
  unfold enclose settle
  cases parts.skips with
  | true =>
      simp only [if_true, pure_bind, Scope.rehung]
      rw [← h.list, ← h.incomplete]
  | false =>
      simp only [Bool.false_eq_true, if_false]
      rw [completeRelations_unbound]
      simp only [pure_bind]
      rfl

/- What waits is settled once all else of a start tag is done. -/
theorem buildElement_unbound
    {parent : Scope}
    {tag : Reading}
    (h : Keeps parent tag.scope)
    (settings : Settings)
    (name : String)
    (attributes : Entries) :
    buildElement settings parent name attributes tag =
      (buildElement settings parent.unbound name attributes
        (tag.rehung parent.list []) >>=
          settle parent tag.parts.skips) := by
  have hList :
      listFor settings parent.unbound tag.parts.subject =
        listFor settings parent tag.parts.subject := rfl
  unfold buildElement Reading.rehung
  simp only [bind_assoc, enclose_unbound h, readProperty_rehung, hList]

------------------------------------------------------------
-- Completed relations
------------------------------------------------------------

/-
  What is noted when a relation that waits at a subject is
  completed with a node.
-/
def completion
    (subject node : Subject)
    (incomplete : Incomplete) : Note :=
  match incomplete with
  | .forward p => .quad (.triple subject p node.toObject)
  | .reverse p => .quad (.triple node p subject.toObject)
  | .listed p list => .filed ⟨list, p, node.toObject⟩

/- What is noted when all that waits in a scope is completed. -/
def completions
    (around : Scope)
    (node : Option Subject) : List Note :=
  match around.subject, node with
  | some subject, some n => around.incomplete.map (completion subject n)
  | _, _ => []

theorem completions_eq_nil
    {around : Scope}
    (h : around.incomplete = [])
    (node : Option Subject) :
    completions around node = [] := by
  unfold completions
  rw [h]
  split <;> rfl

theorem completeRelation_ok
    {parent : Scope}
    {subject : Subject}
    (hSubject : parent.subject = some subject)
    {node : Subject}
    {incomplete : Incomplete}
    {s t : Session}
    (h : completeRelation parent node incomplete s = (.ok (), t)) :
    t.notes.toList =
        s.notes.toList ++ [completion subject node incomplete] ∧
      t.lists =
        s.lists.filedInto
          (Note.filings [completion subject node incomplete]) := by
  cases incomplete with
  | forward p =>
      unfold completeRelation at h
      dsimp only at h
      rw [hSubject, Coupling.state_some] at h
      cases h
      exact ⟨Array.toList_push, rfl⟩
  | reverse p =>
      unfold completeRelation at h
      dsimp only at h
      rw [hSubject, Option.map_some, Coupling.state_some] at h
      cases h
      exact ⟨Array.toList_push, rfl⟩
  | listed p list =>
      unfold completeRelation appendToList ListForest.append at h
      dsimp only at h
      cases hFlushed : s.lists.flushed list with
      | true =>
          simp only [hFlushed, if_true] at h
          cases h
      | false =>
          simp only [hFlushed, Bool.false_eq_true, if_false] at h
          cases h
          exact ⟨Array.toList_push, rfl⟩

theorem forEach_completeRelation_ok
    {parent : Scope}
    {subject : Subject}
    (hSubject : parent.subject = some subject)
    {node : Subject}
    {incomplete : List Incomplete}
    {s t : Session}
    (h :
      forEach (completeRelation parent node) incomplete s =
        (.ok (), t)) :
    t.notes.toList =
        s.notes.toList ++ incomplete.map (completion subject node) ∧
      t.lists =
        s.lists.filedInto
          (Note.filings (incomplete.map (completion subject node))) := by
  induction incomplete generalizing s with
  | nil =>
      cases h
      exact ⟨(List.append_nil _).symm, rfl⟩
  | cons first rest ih =>
      rcases andThen_eq_ok h with ⟨_, m, hFirst, hRest⟩
      rcases completeRelation_ok hSubject hFirst with ⟨hNotes, hLists⟩
      rcases ih hRest with ⟨hMore, hMoreLists⟩
      constructor
      · rw [hMore, hNotes, List.append_assoc]
        rfl
      · have hSplit :
            (first :: rest).map (completion subject node) =
              [completion subject node first] ++
                rest.map (completion subject node) := rfl
        rw [hMoreLists, hLists, hSplit, Note.filings_append]
        exact (ListForest.filedInto_append _ _ _).symm

/- Completing relations notes each of them once, in order. -/
theorem completeRelations_ok
    {parent : Scope}
    (hSubject : parent.subject.isSome = true)
    {node : Option Subject}
    {s t : Session}
    (h : completeRelations parent node s = (.ok (), t)) :
    t.notes.toList = s.notes.toList ++ completions parent node ∧
      t.lists =
        s.lists.filedInto
          (Note.filings (completions parent node)) := by
  rcases Option.isSome_iff_exists.mp hSubject with ⟨subject, hSome⟩
  unfold completions
  rw [hSome]
  cases node with
  | none =>
      cases h
      exact ⟨(List.append_nil _).symm, rfl⟩
  | some n => exact forEach_completeRelation_ok hSome h

------------------------------------------------------------
-- Start tags that skip
------------------------------------------------------------

namespace StartTag

/-
  A start tag that names no node and brings no relation, no
  property and no type.
-/
structure Skipped
    (x : StartTag) : Prop where
  named : x.reading.named = ⟨none, none, none, none⟩
  relations : x.reading.hasRelations = false
  property : x.attributes.has "property" = false
  typeof : x.attributes.has "typeof" = false

/- A start tag with relations and no object for them. -/
structure Hangs
    (x : StartTag) : Prop where
  object : x.reading.parts.object = none
  relations : x.reading.rel ≠ [] ∨ x.reading.rev ≠ []

/- The relations that a start tag leaves waiting. -/
def obligations
    (x : StartTag) : List Incomplete :=
  match x.reading.parts.object with
  | some _ => []
  | none =>
      x.reading.rel.map (fun p =>
        if x.attributes.has "inlist" then
          .listed p x.element.list
        else
          .forward p) ++
      x.reading.rev.map .reverse

/- What holds of every start tag that could be processed. -/
structure Lawful
    (x : StartTag) : Prop where
  skips_iff :
    x.reading.parts.skips = true ↔
      x.Skipped ∧ x.around.object.isSome = true
  untold :
    x.reading.hasRelations = false →
      x.reading.rel = [] ∧ x.reading.rev = []
  subject :
    x.around.object.isSome = true → x.element.subject.isSome = true
  passes :
    x.reading.parts.skips = true → Keeps x.around x.element.scope
  hands :
    x.reading.parts.skips = false →
      x.element.scope.subject = x.element.subject.or x.around.subject ∧
        (x.around.subject.isSome = true →
          x.element.scope.object.isSome = true) ∧
        x.element.scope.incomplete = x.obligations

end StartTag

theorem named_eq_iff
    (named : Named) :
    named = ⟨none, none, none, none⟩ ↔
      named.about.or named.target = none := by
  rcases named with ⟨about, resource, href, src⟩
  simp [Named.target, Option.or_eq_none_iff, and_assoc]

/- Which roles skip an element. -/
theorem roles_skips_iff
    (parent : Scope)
    (named : Named)
    (hasRelations hasProperty isTyped isBare : Bool) :
    (roles parent named hasRelations hasProperty isTyped
      isBare).Yields
        (fun parts =>
          parts.skips = true ↔
            named = ⟨none, none, none, none⟩ ∧ hasRelations = false ∧
              hasProperty = false ∧ isTyped = false ∧
              parent.object.isSome = true) := by
  rw [named_eq_iff]
  unfold roles
  cases hasRelations with
  | true =>
      unfold relationRoles
      apply yields_bind
      intro object
      exact yields_pure (by simp)
  | false =>
      cases hBoth : hasProperty && isBare with
      | true =>
          have hProperty : hasProperty = true :=
            (Bool.and_eq_true_iff.mp hBoth).1
          unfold propertyRoles
          simp only [Bool.false_eq_true, if_false, if_true]
          cases isTyped with
          | true =>
              apply yields_bind
              intro typed
              exact yields_pure (by simp)
          | false => exact yields_pure (by simp [hProperty])
      | false =>
          unfold plainRoles
          simp only [Bool.false_eq_true, if_false]
          cases hTarget : named.about.or named.target with
          | some s => exact yields_pure (by simp)
          | none =>
              cases isTyped with
              | true =>
                  apply yields_bind
                  intro s
                  exact yields_pure (by simp)
              | false =>
                  cases hObject : parent.object.isSome with
                  | true => exact yields_pure (by simp)
                  | false => exact yields_pure (by simp)

/- Without tokens there are no relations. -/
theorem relationTerms_none
    (scope : Scope) :
    relationTerms scope none = pure [] :=
  rfl

theorem relationTerms_yields
    (scope : Scope)
    (tokens : Option (List String)) :
    (relationTerms scope tokens).Yields
      (fun terms => tokens.isSome = false → terms = []) := by
  cases tokens with
  | none =>
      rw [relationTerms_none]
      exact yields_pure (fun _ => rfl)
  | some _ =>
      intro s terms t _ hNone
      cases hNone

/- What the first half of a start tag says about skipping. -/
theorem readTag_yields
    (settings : Settings)
    (parent : Scope)
    (isRoot : Bool)
    (name : String)
    (attributes : Entries) :
    (readTag settings parent isRoot name attributes).Yields
      (fun tag =>
        Keeps parent tag.scope ∧
          (parent.object.isSome = true →
            tag.parts.subject.isSome = true) ∧
          (tag.hasRelations = false → tag.rel = [] ∧ tag.rev = []) ∧
          (tag.parts.skips = true ↔
            tag.named = ⟨none, none, none, none⟩ ∧
              tag.hasRelations = false ∧
              attributes.has "property" = false ∧
              attributes.has "typeof" = false ∧
              parent.object.isSome = true)) := by
  unfold readTag
  refine (readScope_yields settings parent attributes).bind ?_
  intro scope hScope
  refine (relationTerms_yields scope _).bind ?_
  intro rel hRel
  refine (relationTerms_yields scope _).bind ?_
  intro rev hRev
  apply yields_bind
  intro named
  refine ((roles_yields parent named _ _ _ _).and
    (roles_skips_iff parent named _ _ _ _)).bind ?_
  rintro parts ⟨hSettled, hSkips⟩
  apply yields_bind
  intro _
  refine yields_pure
    ⟨hScope, fun hObject => hSettled.subject (.inr hObject), ?_,
      hSkips⟩
  intro hNone
  rw [Bool.or_eq_false_iff] at hNone
  exact ⟨hRel hNone.1, hRev hNone.2⟩

/- Relations without an object wait, and no others. -/
theorem relate_waits
    (around : Scope)
    (attributes : Entries)
    (tag : Reading)
    (e : Element) :
    (relate tag.parts e.list (attributes.has "inlist") tag.rel
      tag.rev).Yields
        (fun incomplete =>
          incomplete =
            (⟨around, attributes, tag, e⟩ : StartTag).obligations) := by
  unfold relate StartTag.obligations
  cases tag.parts.object with
  | some object =>
      apply yields_bind
      intro _
      exact yields_pure rfl
  | none =>
      unfold awaitRelations
      apply yields_bind
      intro _
      exact yields_pure rfl

/- What an element hands on, once its start tag is read. -/
theorem buildElement_yields
    {settings : Settings}
    {parent : Scope}
    {tag : Reading}
    (hScope : Keeps parent tag.scope)
    (name : String)
    (attributes : Entries) :
    (buildElement settings parent name attributes tag).Yields
      (fun e =>
        e.subject = tag.parts.subject ∧
          (tag.parts.skips = true → Keeps parent e.scope) ∧
          (tag.parts.skips = false →
            e.scope.subject = e.subject.or parent.subject ∧
              (parent.subject.isSome = true →
                e.scope.object.isSome = true) ∧
              e.scope.incomplete =
                (⟨parent, attributes, tag, e⟩ :
                  StartTag).obligations)) := by
  unfold buildElement
  apply yields_bind
  intro list
  -- The element is not there yet: any one with its list will do.
  refine (relate_waits parent attributes tag
    ⟨name, parent, none, list, none⟩).bind ?_
  intro incomplete hIncomplete
  apply yields_bind
  intro object
  apply yields_bind
  intro pending
  unfold enclose
  cases hSkips : tag.parts.skips with
  | true => exact yields_pure ⟨rfl, fun _ => hScope, by simp⟩
  | false =>
      apply yields_bind
      intro _
      refine yields_pure ⟨rfl, by simp, fun _ => ⟨rfl, ?_, ?_⟩⟩
      · intro hSubject
        simp [innerScope, hSubject]
      · exact hIncomplete

/- Every start tag that could be processed is lawful. -/
theorem lawful_of_startTag?
    {d : State}
    {event : Event}
    {x : StartTag}
    (h : startTag? d event = some x) :
    x.Lawful := by
  rcases reads_of_startTag? h with
    ⟨name, depth, m, t, _, hAround, hRead, hBuild⟩
  rw [← hAround] at hRead hBuild
  rcases readTag_yields _ _ _ _ _ _ _ _ hRead with
    ⟨hScope, hSubject, hUntold, hSkips⟩
  rcases buildElement_yields hScope _ _ _ _ _ hBuild with
    ⟨hOwn, hPasses, hHands⟩
  refine
    { skips_iff := ?_
      untold := hUntold
      subject := ?_
      passes := hPasses
      hands := hHands }
  · rw [hSkips]
    constructor
    · rintro ⟨hNamed, hRelations, hProperty, hTypeof, hObject⟩
      exact ⟨⟨hNamed, hRelations, hProperty, hTypeof⟩, hObject⟩
    · rintro ⟨hSkipped, hObject⟩
      exact ⟨hSkipped.named, hSkipped.relations, hSkipped.property,
        hSkipped.typeof, hObject⟩
  · intro hObject
    rw [hOwn]
    exact hSubject hObject

------------------------------------------------------------
-- Events
------------------------------------------------------------

/- An element inside which no relation waits. -/
def unboundElement
    (e : Element) : Element :=
  { e with scope := e.scope.unbound }

/- An evaluation in which no relation waits. -/
def State.unbound
    (d : State) : State :=
  { d with
    outer := d.outer.unbound
    elements := d.elements.map unboundElement }

theorem scope_unbound
    (d : State) :
    d.unbound.scope = d.scope.unbound := by
  unfold State.scope State.unbound
  cases d.elements <;> rfl

theorem isEmpty_unbound
    (d : State) :
    d.unbound.elements.isEmpty = d.elements.isEmpty := by
  unfold State.unbound
  cases d.elements <;> rfl

/-
  What an event completes of the relations that wait: all, if
  it is a start tag that does not just pass them on.
-/
def completedAt
    (d : State)
    (event : Event) : List Note :=
  match startTag? d event with
  | none => []
  | some x =>
      if x.reading.parts.skips then
        []
      else
        completions d.scope x.element.subject

/-
  What an event does is what it does when no relation waits,
  followed by the relations that it completes.
-/
theorem process_unbound
    {d d' : State}
    {event : Event}
    {notes : List Note}
    (hSubject : d.scope.subject.isSome = true)
    (h : process d event = (.ok d', notes)) :
    ∃ free own,
      process d.unbound event = (.ok free, own) ∧
        notes = own ++ completedAt d event ∧
        d'.session.lists =
          free.session.lists.filedInto
            (Note.filings (completedAt d event)) := by
  rcases process_ok_cases h with
    ⟨name, attributes, depth, _, _, rfl, _⟩ | ⟨data, rfl, rfl, rfl⟩ |
      ⟨name, depth, e, rest, m, t, rfl, hElements, rfl, hComplete,
        hFlush, rfl, rfl⟩
  · rcases process_startTag h with
      ⟨x, m, t, hStart, -, -, hRead, hBuild, rfl, rfl⟩
    have hScope := (readTag_yields _ _ _ _ _ _ _ _ hRead).1
    rw [buildElement_unbound hScope] at hBuild
    rcases andThen_eq_ok hBuild with ⟨e, u, hFree, hSettle⟩
    have hOpen :
        openElement d.unbound.settings d.unbound.scope
            d.unbound.elements.isEmpty name attributes
            d.unbound.fresh =
          (.ok e, u) := by
      rw [scope_unbound, isEmpty_unbound, openElement_eq,
        Scope.unbound, readTag_rehung]
      exact (bind_of_ok (bind_of_ok hRead _) _).trans hFree
    refine ⟨_, _, process_of_open hOpen depth, ?_⟩
    unfold completedAt
    rw [hStart]
    dsimp only
    unfold settle at hSettle
    cases hSkips : x.reading.parts.skips with
    | true =>
        rw [hSkips] at hSettle
        have hSame : u = t := congrArg Prod.snd hSettle
        rw [hSame]
        exact ⟨(List.append_nil _).symm, rfl⟩
    | false =>
        rw [hSkips] at hSettle
        rcases andThen_eq_ok hSettle with ⟨_, v, hCompletes, hEnd⟩
        have hSame : v = t := congrArg Prod.snd hEnd
        have hElement : e = x.element :=
          Except.ok.inj (congrArg Prod.fst hEnd)
        rw [hSame] at hCompletes
        rw [← hElement]
        exact completeRelations_ok hSubject hCompletes
  · exact ⟨_, _, rfl, rfl, rfl⟩
  · have hTop :
        d.unbound.elements =
          unboundElement e :: rest.map unboundElement := by
      unfold State.unbound
      rw [hElements]
      rfl
    have hClose :
        closeElement (unboundElement e) d.unbound.fresh =
          (.ok (), t) :=
      (closeElement_of_ok hComplete).trans hFlush
    refine ⟨_, _, process_of_close hTop hClose depth, ?_, rfl⟩
    exact (List.append_nil _).symm

end Evaluation
end LinkedMarkup
