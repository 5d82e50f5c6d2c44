import LinkedMarkup.Annotation.Evaluation
import LinkedMarkup.Proofs.Coupling.StartTag
import LinkedMarkup.Proofs.Lists.Forest

/-
  This file proves facts about one run by comparing it with
  itself. The world of such a comparison is the set of list
  mappings that are in use, and a fact that every primitive
  step keeps is kept by a whole start tag.

  Key definitions include:
    * `Coupling.keeping`
    * `Work.Keeps`
    * `Work.KeepsFilling`
    * `Work.KeepsMaking`
    * `Scope.Uses`
    * `Element.Uses`

  Main declarations:
    * `Coupling.keeping_sound`
    * `Coupling.scopesMatch_self`
    * `Work.Keeps.openElement`
    * `Work.Keeps.completeElement`
-/

namespace LinkedMarkup

------------------------------------------------------------
-- Lists in use
------------------------------------------------------------

/- Every list that an element in a scope may fill is in use. -/
structure Scope.Uses
    (W : Nat → Prop)
    (x : Scope) : Prop where
  list : W x.list
  listed : ∀ p l, Incomplete.listed p l ∈ x.incomplete → W l

/- Every list that an open element may fill is in use. -/
structure Element.Uses
    (W : Nat → Prop)
    (e : Element) : Prop where
  scope : e.scope.Uses W
  list : W e.list
  pending : ∀ p, e.pending = some p → W p.list

------------------------------------------------------------
-- Facts that steps keep
------------------------------------------------------------

namespace Work

/-
  A fact about a session and the lists in use that primitive
  steps keep. Addresses that cannot be read may end a run.
-/
structure Keeps
    (I : (Nat → Prop) → Session → Prop)
    (E : Fault → Prop) : Prop where
  quad :
    ∀ W s q, I W s → I W { s with notes := s.notes.push (.quad q) }
  line :
    ∀ W s l, I W s → I W { s with notes := s.notes.push (.line l) }
  fresh :
    ∀ W s, I W s → I W { s with supply := s.supply.fresh.2 }
  labelled :
    ∀ W s label, I W s →
      I W { s with supply := (s.supply.labelled label).2 }
  value : ∀ fault, fault.kind = .value → E fault

/- A fact that is kept when a list in use is filled. -/
structure KeepsFilling
    (I : (Nat → Prop) → Session → Prop)
    (E : Fault → Prop) : Prop where
  ensure :
    ∀ W s l p, I W s → W l → s.lists.flushed l = false →
      I W { s with
        lists :=
          s.lists.setLists l
            (ListForest.opened (s.lists.lists l) p) }
  append :
    ∀ W s l p v, I W s → W l → s.lists.flushed l = false →
      I W { s with
        lists :=
          s.lists.setLists l
            (ListForest.extended (s.lists.lists l) p v)
        notes := s.notes.push (.filed ⟨l, p, v⟩) }
  flushed :
    ∀ W s l p, I W s → W l → s.lists.flushed l = true →
      E (.listFlushed p)

/- A fact that is kept when list mappings are made. -/
structure KeepsMaking
    (I : (Nat → Prop) → Session → Prop)
    (collects : Bool) : Prop where
  root :
    ∀ W s, I W s →
      I (fun l => W l ∨ l = s.lists.slots.size)
        { s with lists := (s.lists.root collects).2 }
  child :
    ∀ W s l, I W s → W l →
      I (fun l => W l ∨ l = s.lists.slots.size)
        { s with lists := (s.lists.child l).2 }

end Work

------------------------------------------------------------
-- A run beside itself
------------------------------------------------------------

namespace Coupling

/- The comparison of a run with itself that keeps a fact. -/
def keeping
    (I : (Nat → Prop) → Session → Prop)
    (E : Fault → Prop) : Coupling where
  World := Nat → Prop
  grows W V := ∀ l, W l → V l
  node _ b b' := b = b'
  list W l l' := l = l' ∧ W l
  session W s s' := s = s' ∧ I W s
  fault := E

variable {I : (Nat → Prop) → Session → Prop} {E : Fault → Prop}

theorem subjectsMatch_keeping
    {W : Nat → Prop}
    {x x' : Subject}
    (h : (keeping I E).SubjectsMatch W x x') :
    x = x' :=
  Subject.Match.eq (fun _ _ hNode => hNode) h

theorem objectsMatch_keeping
    {W : Nat → Prop}
    {x x' : Object}
    (h : (keeping I E).ObjectsMatch W x x') :
    x = x' :=
  Object.Match.eq (fun _ _ hNode => hNode) h

theorem subjectsMatch_self
    {W : Nat → Prop}
    (x : Subject) :
    (keeping I E).SubjectsMatch W x x := by
  cases x with
  | iri i => exact .iri i
  | blank b => exact .blank rfl

theorem objectsMatch_self
    {W : Nat → Prop}
    (x : Object) :
    (keeping I E).ObjectsMatch W x x := by
  cases x with
  | iri i => exact .iri i
  | literal l => exact .literal l
  | blank b => exact .blank rfl

theorem optional_self
    {W : Nat → Prop}
    (x : Option Subject) :
    (keeping I E).Optional W x x := by
  cases x with
  | none => exact .none
  | some s => exact .some (subjectsMatch_self s)

/- A run keeps a fact that its primitive steps keep. -/
theorem keeping_sound
    (h : Work.Keeps I E) :
    (keeping I E).Sound where
  refl _ _ hl := hl
  trans _ _ _ hUV hVW l hl := hVW l (hUV l hl)
  node_mono _ _ _ _ _ hNode := hNode
  list_mono _ _ _ _ hW hList := ⟨hList.1, hW _ hList.2⟩
  node_iff _ _ _ _ _ _ _ _ hA hB := by
    cases hA
    cases hB
    rfl
  quad W x x' p o o' hx ho := by
    cases subjectsMatch_keeping hx
    cases objectsMatch_keeping ho
    rintro s _ ⟨rfl, hs⟩
    exact ⟨W, fun _ hl => hl, ⟨rfl, h.quad W s _ hs⟩, trivial⟩
  line W l := by
    rintro s _ ⟨rfl, hs⟩
    exact ⟨W, fun _ hl => hl, ⟨rfl, h.line W s l hs⟩, trivial⟩
  fresh W := by
    rintro s _ ⟨rfl, hs⟩
    exact ⟨W, fun _ hl => hl, ⟨rfl, h.fresh W s hs⟩, rfl⟩
  labelled W label := by
    rintro s _ ⟨rfl, hs⟩
    exact ⟨W, fun _ hl => hl, ⟨rfl, h.labelled W s label hs⟩, rfl⟩
  value := h.value

theorem keeping_fills
    (h : Work.KeepsFilling I E) :
    (keeping I E).Fills where
  ensure W l l' p hList := by
    rcases hList with ⟨rfl, hl⟩
    rintro s _ ⟨rfl, hs⟩
    unfold Work.ensureList ListForest.ensure
    cases hFlushed : s.lists.flushed l with
    | true =>
        exact ⟨⟨rfl, h.flushed W s l _ hs hl hFlushed⟩, W,
          fun _ hV => hV, rfl, hs⟩
    | false =>
        exact ⟨W, fun _ hV => hV,
          ⟨rfl, h.ensure W s l p hs hl hFlushed⟩, trivial⟩
  append W l l' p v v' hList hValue := by
    rcases hList with ⟨rfl, hl⟩
    cases objectsMatch_keeping hValue
    rintro s _ ⟨rfl, hs⟩
    unfold Work.appendToList ListForest.append
    cases hFlushed : s.lists.flushed l with
    | true =>
        exact ⟨⟨rfl, h.flushed W s l _ hs hl hFlushed⟩, W,
          fun _ hV => hV, rfl, hs⟩
    | false =>
        exact ⟨W, fun _ hV => hV,
          ⟨rfl, h.append W s l p v hs hl hFlushed⟩, trivial⟩

theorem keeping_makes
    {collects : Bool}
    (h : Work.KeepsMaking I collects) :
    (keeping I E).Makes collects collects where
  root W := by
    rintro s _ ⟨rfl, hs⟩
    exact ⟨fun l => W l ∨ l = s.lists.slots.size, fun _ hl => .inl hl,
      ⟨rfl, h.root W s hs⟩, rfl, .inr rfl⟩
  child W l l' hList := by
    rcases hList with ⟨rfl, hl⟩
    rintro s _ ⟨rfl, hs⟩
    exact ⟨fun l => W l ∨ l = s.lists.slots.size, fun _ hV => .inl hV,
      ⟨rfl, h.child W s l hs hl⟩, rfl, .inr rfl⟩

------------------------------------------------------------
-- Values beside themselves
------------------------------------------------------------

theorem scopesMatch_self
    {W : Nat → Prop}
    {x : Scope}
    (h : x.Uses W) :
    (keeping I E).ScopesMatch W x x where
  base := rfl
  prefixes := rfl
  terms := rfl
  vocab := rfl
  language := rfl
  subject := optional_self x.subject
  object := optional_self x.object
  list := ⟨rfl, h.list⟩
  incomplete := by
    rw [List.forall₂_same]
    intro waiting hMem
    cases waiting with
    | forward p => exact .forward p
    | reverse p => exact .reverse p
    | listed p l =>
        exact .listed (C := keeping I E) p ⟨rfl, h.listed p l hMem⟩

theorem ScopesMatch.uses
    {W : Nat → Prop}
    {x : Scope}
    (h : (keeping I E).ScopesMatch W x x) :
    x.Uses W where
  list := h.list.2
  listed p l hMem := by
    have hIncomplete := h.incomplete
    rw [List.forall₂_same] at hIncomplete
    cases hIncomplete _ hMem with
    | listed _ hList => exact hList.2

theorem ElementsMatch.uses
    {W : Nat → Prop}
    {e : Element}
    (h : (keeping I E).ElementsMatch W e e) :
    e.Uses W where
  scope := h.scope.uses
  list := h.list.2
  pending p hSome := by
    have hPending := h.pending
    rw [hSome] at hPending
    cases hPending with
    | some hOne => exact hOne.list.2

theorem namedMatch_self
    {W : Nat → Prop}
    (n : Evaluation.Named) :
    (keeping I E).NamedMatch W n n :=
  ⟨optional_self _, optional_self _, optional_self _,
    optional_self _⟩

theorem rolesMatch_self
    {W : Nat → Prop}
    (r : Evaluation.Roles) :
    (keeping I E).RolesMatch W r r :=
  ⟨optional_self _, optional_self _, optional_self _, rfl⟩

theorem pendingsMatch_self
    {W : Nat → Prop}
    {p : Pending}
    (h : W p.list) :
    (keeping I E).PendingsMatch W p p :=
  ⟨subjectsMatch_self _, rfl, ⟨rfl, h⟩, rfl, rfl, rfl, rfl, rfl, rfl⟩

theorem rel_pending_self
    {W : Nat → Prop}
    {p : Option Pending}
    (h : ∀ q, p = some q → W q.list) :
    Option.Rel ((keeping I E).PendingsMatch W) p p := by
  cases p with
  | none => exact .none
  | some q => exact .some (pendingsMatch_self (h q rfl))

/- What comparing a step with itself says of its outcome. -/
theorem Coupled.run
    {α : Type}
    {W : Nat → Prop}
    {w : Work α}
    {Q : (Nat → Prop) → α → α → Prop}
    (h : (keeping I E).Coupled W w w Q)
    {s : Session}
    (hs : I W s) :
    (∀ a t, w s = (.ok a, t) →
      ∃ V : Nat → Prop, (∀ l, W l → V l) ∧ I V t ∧ Q V a a) ∧
      ∀ fault t, w s = (.error fault, t) → E fault := by
  have hBoth := h s s ⟨rfl, hs⟩
  constructor
  · intro a t hRun
    rw [hRun] at hBoth
    rcases hBoth with ⟨V, hV, ht, hQ⟩
    exact ⟨V, hV, ht.2, hQ⟩
  · intro fault t hRun
    rw [hRun] at hBoth
    exact hBoth.1.2

/- A fact that is kept holds in the session after a step. -/
theorem Coupled.ensures
    {α : Type}
    {W : Nat → Prop}
    {w : Work α}
    {Q : (Nat → Prop) → α → α → Prop}
    (h : (keeping I E).Coupled W w w Q)
    {s : Session}
    (hs : I W s) :
    w.Ensures s (fun _ t => ∃ V, I V t) := by
  intro a t hRun
  rcases (h.run hs).1 a t hRun with ⟨V, _, ht, _⟩
  exact ⟨V, ht⟩

end Coupling

------------------------------------------------------------
-- Start and end tags
------------------------------------------------------------

namespace Work

open Evaluation

variable {I : (Nat → Prop) → Session → Prop} {E : Fault → Prop}
variable {W : Nat → Prop} {s t : Session}

/- The faults of quads that lack an end count, too. -/
def AllowsGaps
    (E : Fault → Prop) : Prop :=
  E (.badSubject (Term.describedOption none)) ∧
    E (.badObject (Term.describedOption none))

/- What a start tag leaves of a fact that primitive steps keep. -/
theorem Keeps.openElement
    {settings : Settings}
    (h : Keeps I E)
    (hFilling : KeepsFilling I E)
    (hMaking :
      KeepsMaking I (settings.options.listStyle == .collection))
    {parent : Scope}
    (hParent : parent.Uses W)
    {isRoot : Bool}
    (hEnds : AllowsGaps E ∨ Anchored settings parent isRoot)
    (hs : I W s)
    (name : String)
    (attributes : Entries) :
    (∀ e t,
      openElement settings parent isRoot name attributes s =
          (.ok e, t) →
        ∃ V : Nat → Prop, (∀ l, W l → V l) ∧ I V t ∧ e.Uses V) ∧
      ∀ fault t,
        openElement settings parent isRoot name attributes s =
            (.error fault, t) →
          E fault := by
  have hBoth :=
    Coupling.openElement_coupled (Coupling.keeping_sound h)
      (Coupling.keeping_fills hFilling) (Settings.Agree.refl settings)
      (Coupling.keeping_makes hMaking)
      (Coupling.scopesMatch_self hParent) isRoot hEnds name attributes
  refine ⟨?_, (hBoth.run hs).2⟩
  intro e t hRun
  rcases (hBoth.run hs).1 e t hRun with ⟨V, hV, ht, hMatch⟩
  exact ⟨V, hV, ht, hMatch.uses⟩

/- Completing the literal of an element keeps a fact as well. -/
theorem Keeps.completeElement
    (h : Keeps I E)
    (hFilling : KeepsFilling I E)
    {e : Element}
    (hUses : e.Uses W)
    (hs : I W s) :
    (∀ a t, Evaluation.completeElement e s = (.ok a, t) →
      ∃ V : Nat → Prop, (∀ l, W l → V l) ∧ I V t) ∧
      ∀ fault t,
        Evaluation.completeElement e s = (.error fault, t) →
          E fault := by
  have hBoth :=
    Coupling.completeElement_coupled (Coupling.keeping_sound h)
      (Coupling.keeping_fills hFilling)
      (Coupling.rel_pending_self hUses.pending)
  refine ⟨?_, (hBoth.run hs).2⟩
  intro a t hRun
  rcases (hBoth.run hs).1 a t hRun with ⟨V, hV, ht, _⟩
  exact ⟨V, hV, ht⟩

end Work
end LinkedMarkup
