import LinkedMarkup.Proofs.Evaluation.Growth

/-
  This file proves that the steps of a start tag only go
  forward: labels keep their nodes, new nodes are new, and
  what has been noted stays noted. So a value that a step
  finds can be told from the labels at any later time.

  Key definitions include:
    * `NodeSupply.Bounded`
    * `NodeSupply.IsNew`
    * `Session.Precedes`
    * `Work.Advances`
    * `Work.Reads`

  Main declarations:
    * `Work.Reads.bind`
    * `Work.advances_of_coupled`
    * `Evaluation.buildElement_precedes`
-/

namespace LinkedMarkup

------------------------------------------------------------
-- Labels within bounds
------------------------------------------------------------

namespace NodeSupply

/- No label stands for a node that has not been made. -/
def Bounded
    (s : NodeSupply) : Prop :=
  ∀ label i, s.number? label = some i → i < s.count

theorem Bounded.fresh
    {s : NodeSupply}
    (h : s.Bounded) :
    s.fresh.2.Bounded :=
  fun label i hNumber => Nat.lt_succ_of_lt (h label i hNumber)

theorem Bounded.labelled
    {s : NodeSupply}
    (h : s.Bounded)
    (label : String) :
    (s.labelled label).2.Bounded := by
  unfold NodeSupply.labelled
  cases hSeen : s.number? label with
  | some n => exact h
  | none =>
      intro other i hOther
      rw [number?_cons] at hOther
      split at hOther
      · cases hOther
        exact Nat.lt_succ_self _
      · exact Nat.lt_succ_of_lt (h other i hOther)

/- No label ever stands for a node that was made without one. -/
theorem Bounded.number?_ne_fresh
    {s later : NodeSupply}
    (h : s.Bounded)
    (hLater : s.fresh.2.Extends later)
    (label : String) :
    later.number? label ≠ some s.count := by
  intro hNumber
  cases hSeen : s.fresh.2.number? label with
  | none =>
      have hMade : s.count + 1 ≤ s.count :=
        hLater.made label s.count hSeen hNumber
      exact Nat.not_succ_le_self _ hMade
  | some i =>
      have hBefore : i < s.count := h label i hSeen
      have hKept := hLater.kept label i hSeen
      rw [hNumber] at hKept
      cases hKept
      exact Nat.lt_irrefl _ hBefore

/-
  A node that was made between two supplies, without a label:
  none stands for it later on.
-/
def IsNew
    (before after : NodeSupply)
    (b : BlankNode) : Prop :=
  ∃ n,
    b = node n ∧ before.count ≤ n ∧ n < after.count ∧
      ∀ later, after.Extends later →
        ∀ label, later.number? label ≠ some n

theorem isNew_fresh
    {s after : NodeSupply}
    (h : s.Bounded)
    (hAfter : s.fresh.2.Extends after) :
    IsNew s after s.fresh.1 :=
  ⟨s.count, rfl, Nat.le_refl _, hAfter.count,
    fun _ hLater => h.number?_ne_fresh (hAfter.trans hLater)⟩

theorem IsNew.mono
    {before s t after : NodeSupply}
    {b : BlankNode}
    (h : IsNew s t b)
    (hBefore : before.Extends s)
    (hAfter : t.Extends after) :
    IsNew before after b := by
  rcases h with ⟨n, rfl, hMade, hCount, hLabels⟩
  exact
    ⟨n, rfl, Nat.le_trans hBefore.count hMade,
      Nat.lt_of_lt_of_le hCount hAfter.count,
      fun later hLater => hLabels later (hAfter.trans hLater)⟩

/- A label that is read stands for a node from then on. -/
theorem number?_labelled
    (s : NodeSupply)
    (label : String) :
    ∃ n,
      (s.labelled label).1 = node n ∧
        (s.labelled label).2.number? label = some n := by
  unfold labelled
  cases hSeen : s.number? label with
  | some n => exact ⟨n, rfl, hSeen⟩
  | none => exact ⟨s.count, rfl, by rw [number?_cons, if_pos rfl]⟩

end NodeSupply

------------------------------------------------------------
-- Sessions that go on
------------------------------------------------------------

/- A session from which work has gone on to another one. -/
structure Session.Precedes
    (s t : Session) : Prop where
  supply : s.supply.Extends t.supply
  bounded : s.supply.Bounded → t.supply.Bounded
  notes : s.notes.toList <+: t.notes.toList

namespace Session.Precedes

theorem refl
    (s : Session) :
    s.Precedes s :=
  ⟨.refl s.supply, id, List.prefix_refl _⟩

theorem trans
    {s t u : Session}
    (hST : s.Precedes t)
    (hTU : t.Precedes u) :
    s.Precedes u where
  supply := hST.supply.trans hTU.supply
  bounded h := hTU.bounded (hST.bounded h)
  notes := hST.notes.trans hTU.notes

/- More notes and other lists change nothing else. -/
theorem noted
    {s t : Session}
    (h : s.Precedes t)
    (n : Note)
    (lists : ListForest Iri Object) :
    s.Precedes { t with lists := lists, notes := t.notes.push n } where
  supply := h.supply
  bounded := h.bounded
  notes := by
    rw [Array.toList_push]
    exact h.notes.trans (List.prefix_append _ _)

end Session.Precedes

namespace Work

theorem keeps_precedes
    (s : Session) :
    Work.Keeps (fun _ t => s.Precedes t) (fun _ => True) where
  quad _ t q h := h.noted (.quad q) t.lists
  line _ t l h := h.noted (.line l) t.lists
  fresh _ t h :=
    ⟨h.supply.trans t.supply.extends_fresh,
      fun hBounded => (h.bounded hBounded).fresh, h.notes⟩
  labelled _ t label h :=
    ⟨h.supply.trans (t.supply.extends_labelled label),
      fun hBounded => (h.bounded hBounded).labelled label, h.notes⟩
  value _ _ := trivial

theorem keepsFilling_precedes
    (s : Session) :
    Work.KeepsFilling (fun _ t => s.Precedes t) (fun _ => True) where
  ensure _ _ _ _ h _ _ := ⟨h.supply, h.bounded, h.notes⟩
  append _ _ _ _ _ h _ _ := h.noted _ _
  flushed _ _ _ _ _ _ _ := trivial

theorem keepsMaking_precedes
    (s : Session)
    (collects : Bool) :
    Work.KeepsMaking (fun _ t => s.Precedes t) collects where
  root _ _ h := ⟨h.supply, h.bounded, h.notes⟩
  child _ _ _ h _ := ⟨h.supply, h.bounded, h.notes⟩

------------------------------------------------------------
-- Steps that go forward
------------------------------------------------------------

variable {α β : Type}

/- A step that only goes forward, if it succeeds. -/
def Advances
    (w : Work α) : Prop :=
  ∀ s, w.Ensures s (fun _ t => s.Precedes t)

/- Comparing a step with itself tells that it goes forward. -/
theorem advances_of_coupled
    {w : Work α}
    {Q : Session → (Nat → Prop) → α → α → Prop}
    (h :
      ∀ s,
        (Coupling.keeping (fun _ t => Session.Precedes s t)
          (fun _ => True)).Coupled (fun _ => True) w w (Q s)) :
    w.Advances :=
  fun s => Evaluation.ensures_of_keeping (h s) (.refl s)

/-
  A step that goes forward and finds a value, which can be
  told from the labels at any time from then on.
-/
def Reads
    (w : Work α)
    (value : NodeSupply → α) : Prop :=
  ∀ s,
    w.Ensures s (fun a t =>
      s.Precedes t ∧
        ∀ later : NodeSupply, t.supply.Extends later → a = value later)

theorem reads_pure
    (a : α) :
    (pure a : Work α).Reads (fun _ => a) :=
  fun s => ensures_pure ⟨.refl s, fun _ _ => rfl⟩

/- What a step goes on with is told from the same labels. -/
theorem Reads.bind
    {w : Work α}
    {next : α → Work β}
    {value : NodeSupply → α}
    (h : w.Reads value)
    (result : α → NodeSupply → β)
    (hNext : ∀ a, (next a).Reads (result a)) :
    (w >>= next).Reads (fun later => result (value later) later) := by
  intro s
  refine (h s).bind ?_
  rintro a t ⟨hST, hValue⟩
  refine (hNext a t).mono ?_
  rintro b u ⟨hTU, hResult⟩
  refine ⟨hST.trans hTU, ?_⟩
  intro later hLater
  rw [hResult later hLater, hValue later (hTU.supply.trans hLater)]

theorem Reads.bind_pure
    {w : Work α}
    {value : NodeSupply → α}
    (h : w.Reads value)
    (f : α → β) :
    (w >>= fun a => pure (f a)).Reads (fun later => f (value later)) :=
  h.bind (fun a _ => f a) (fun a => reads_pure (f a))

/- Some steps find a value whatever the labels are. -/
theorem Advances.reads
    {w : Work α}
    {a : α}
    (h : w.Advances)
    (hYields : w.Yields (fun found => found = a)) :
    w.Reads (fun _ => a) := by
  intro s
  refine ((h s).and (hYields s)).mono ?_
  rintro found t ⟨hPrecedes, hFound⟩
  exact ⟨hPrecedes, fun _ _ => hFound⟩

end Work

------------------------------------------------------------
-- Parts of start tags
------------------------------------------------------------

namespace Evaluation

open Work Coupling

/- The comparison of a scope with itself from some session. -/
theorem scopesMatch_precedes
    (s : Session)
    (x : Scope) :
    (keeping (fun _ t => s.Precedes t) (fun _ => True)).ScopesMatch
      (fun _ => True) x x :=
  scopesMatch_self (uses_true x)

theorem readScope_advances
    (settings : Settings)
    (parent : Scope)
    (attributes : Entries) :
    (readScope settings parent attributes).Advances :=
  advances_of_coupled (fun s =>
    readScope_coupled (keeping_sound (keeps_precedes s))
      (Settings.Agree.refl settings) (scopesMatch_precedes s parent)
      attributes)

theorem plainRoles_advances
    (parent : Scope)
    (named : Named)
    (isTyped hasProperty : Bool) :
    (plainRoles parent named isTyped hasProperty).Advances :=
  advances_of_coupled (fun s =>
    plainRoles_coupled (keeping_sound (keeps_precedes s))
      (scopesMatch_precedes s parent) (namedMatch_self named) isTyped
      hasProperty)

theorem stateTypes_advances
    (scope : Scope)
    (attributes : Entries)
    (typed : Option Subject) :
    (stateTypes scope attributes typed).Advances :=
  advances_of_coupled (fun s =>
    stateTypes_coupled (keeping_sound (keeps_precedes s))
      (scopesMatch_precedes s scope) attributes (optional_self typed))

/- What was read of a start tag, compared with itself. -/
theorem readingsMatch_precedes
    (s : Session)
    (tag : Reading) :
    (keeping (fun _ t => s.Precedes t) (fun _ => True)).ReadingsMatch
      (fun _ => True) tag tag where
  scope := scopesMatch_precedes s tag.scope
  rel := rfl
  rev := rfl
  named := namedMatch_self tag.named
  parts := rolesMatch_self tag.parts
  hasRelations := rfl

/- The second half of a start tag goes forward even if it fails. -/
theorem buildElement_precedes
    (settings : Settings)
    (parent : Scope)
    (name : String)
    (attributes : Entries)
    (tag : Reading)
    (s : Session) :
    s.Precedes
      (buildElement settings parent name attributes tag s).2 := by
  have hBoth :=
    buildElement_coupled (keeping_sound (keeps_precedes s))
      (keeping_fills (keepsFilling_precedes s))
      (Settings.Agree.refl settings)
      (keeping_makes (keepsMaking_precedes s _))
      (scopesMatch_precedes s parent) (readingsMatch_precedes s tag)
      name attributes (.inl ⟨trivial, trivial⟩)
      (.inl ⟨trivial, trivial⟩)
  rcases hBoth.sessions ⟨rfl, .refl s⟩ with ⟨_, _, _, hAfter⟩
  exact hAfter

theorem buildElement_advances
    (settings : Settings)
    (parent : Scope)
    (name : String)
    (attributes : Entries)
    (tag : Reading) :
    (buildElement settings parent name attributes tag).Advances := by
  intro s e t hRun
  have hAfter :=
    buildElement_precedes settings parent name attributes tag s
  rw [hRun] at hAfter
  exact hAfter

end Evaluation
end LinkedMarkup
