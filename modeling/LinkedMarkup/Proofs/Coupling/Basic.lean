import LinkedMarkup.Annotation.Element
import LinkedMarkup.Proofs.Work.Ensures
import Mathlib.Data.List.Forall2
import Mathlib.Data.Option.Basic

/-
  This file defines what it means that two runs correspond,
  and proves rules for it. The runs may number their blank
  nodes and their list mappings differently; a world says
  which of them belong together, and grows as both runs make
  more. A run compared with itself gives facts about one run.

  Key definitions include:
    * `Subject.Match`
    * `Object.Match`
    * `Coupling`
    * `Coupling.Coupled`
    * `Coupling.Sound`
    * `Coupling.Fills`
    * `Coupling.Makes`
    * `Coupling.ScopesMatch`
    * `Coupling.ElementsMatch`

  Main declarations:
    * `Coupling.Coupled.bind`
    * `Coupling.Coupled.outcomes`
    * `Coupling.Coupled.sessions`
    * `Coupling.Coupled.forEach`
    * `Coupling.Coupled.collect`
    * `Coupling.state_coupled`
-/

namespace LinkedMarkup

/- Subjects that are the same IRI, or nodes that correspond. -/
inductive Subject.Match
    (N : BlankNode → BlankNode → Prop) : Subject → Subject → Prop where
  | iri (i : Iri) : Match N (.iri i) (.iri i)
  | blank {b b' : BlankNode} (h : N b b') :
      Match N (.blank b) (.blank b')

/- Objects that are the same value, or nodes that correspond. -/
inductive Object.Match
    (N : BlankNode → BlankNode → Prop) : Object → Object → Prop where
  | iri (i : Iri) : Match N (.iri i) (.iri i)
  | blank {b b' : BlankNode} (h : N b b') :
      Match N (.blank b) (.blank b')
  | literal (l : Literal) : Match N (.literal l) (.literal l)

theorem Subject.Match.mono
    {N N' : BlankNode → BlankNode → Prop}
    (hN : ∀ b b', N b b' → N' b b')
    {x x' : Subject}
    (h : Subject.Match N x x') :
    Subject.Match N' x x' := by
  cases h with
  | iri i => exact .iri i
  | blank hNode => exact .blank (hN _ _ hNode)

theorem Object.Match.mono
    {N N' : BlankNode → BlankNode → Prop}
    (hN : ∀ b b', N b b' → N' b b')
    {x x' : Object}
    (h : Object.Match N x x') :
    Object.Match N' x x' := by
  cases h with
  | iri i => exact .iri i
  | blank hNode => exact .blank (hN _ _ hNode)
  | literal l => exact .literal l

/- Where only equal nodes correspond, equal values do. -/
theorem Subject.Match.eq
    {N : BlankNode → BlankNode → Prop}
    (hN : ∀ b b', N b b' → b = b')
    {x x' : Subject}
    (h : Subject.Match N x x') :
    x = x' := by
  cases h with
  | iri i => rfl
  | blank hNode => rw [hN _ _ hNode]

theorem Object.Match.eq
    {N : BlankNode → BlankNode → Prop}
    (hN : ∀ b b', N b b' → b = b')
    {x x' : Object}
    (h : Object.Match N x x') :
    x = x' := by
  cases h with
  | iri i => rfl
  | blank hNode => rw [hN _ _ hNode]
  | literal l => rfl

/-
  A comparison of two runs: the worlds and how they grow,
  which blank nodes, list mappings and sessions correspond
  in a world, and the faults that may end both runs.
-/
structure Coupling where
  World : Type
  grows : World → World → Prop
  node : World → BlankNode → BlankNode → Prop
  list : World → Nat → Nat → Prop
  session : World → Session → Session → Prop
  fault : Fault → Prop

namespace Coupling

variable (C : Coupling)
variable {α β : Type}

------------------------------------------------------------
-- Values that correspond
------------------------------------------------------------

/- Subjects that correspond in a world. -/
abbrev SubjectsMatch
    (W : C.World) : Subject → Subject → Prop :=
  Subject.Match (C.node W)

/- Objects that correspond in a world. -/
abbrev ObjectsMatch
    (W : C.World) : Object → Object → Prop :=
  Object.Match (C.node W)

/- Relations that wait for corresponding ends. -/
inductive IncompletesMatch
    (W : C.World) : Incomplete → Incomplete → Prop where
  | forward (p : Iri) : IncompletesMatch W (.forward p) (.forward p)
  | reverse (p : Iri) : IncompletesMatch W (.reverse p) (.reverse p)
  | listed (p : Iri) {l l' : Nat} (h : C.list W l l') :
      IncompletesMatch W (.listed p l) (.listed p l')

/- Scopes that give the same names and corresponding nodes. -/
structure ScopesMatch
    (W : C.World)
    (x x' : Scope) : Prop where
  base : x.base = x'.base
  prefixes : x.prefixes = x'.prefixes
  terms : x.terms = x'.terms
  vocab : x.vocab = x'.vocab
  language : x.language = x'.language
  subject : Option.Rel (C.SubjectsMatch W) x.subject x'.subject
  object : Option.Rel (C.SubjectsMatch W) x.object x'.object
  list : C.list W x.list x'.list
  incomplete :
    List.Forall₂ (C.IncompletesMatch W) x.incomplete x'.incomplete

/- Literals that wait for the same content. -/
structure PendingsMatch
    (W : C.World)
    (p p' : Pending) : Prop where
  subject : C.SubjectsMatch W p.subject p'.subject
  predicates : p.predicates = p'.predicates
  list : C.list W p.list p'.list
  inList : p.inList = p'.inList
  datatype : p.datatype = p'.datatype
  language : p.language = p'.language
  keepsMarkup : p.keepsMarkup = p'.keepsMarkup
  infersMoment : p.infersMoment = p'.infersMoment
  text : p.text = p'.text

/- Open elements that correspond. -/
structure ElementsMatch
    (W : C.World)
    (e e' : Element) : Prop where
  name : e.name = e'.name
  scope : C.ScopesMatch W e.scope e'.scope
  subject : Option.Rel (C.SubjectsMatch W) e.subject e'.subject
  list : C.list W e.list e'.list
  pending : Option.Rel (C.PendingsMatch W) e.pending e'.pending

------------------------------------------------------------
-- Steps that correspond
------------------------------------------------------------

/-
  Two steps correspond in a world if they take sessions that
  do to sessions that do, in a world that may have grown, and
  give values for which `Q` holds there, or both end with the
  same fault.
-/
def Coupled
    (W : C.World)
    (w w' : Work α)
    (Q : C.World → α → α → Prop) : Prop :=
  ∀ s s', C.session W s s' →
    match w s, w' s' with
    | (.ok a, t), (.ok a', t') =>
        ∃ V, C.grows W V ∧ C.session V t t' ∧ Q V a a'
    | (.error fault, t), (.error fault', t') =>
        (fault = fault' ∧ C.fault fault) ∧
          ∃ V, C.grows W V ∧ C.session V t t'
    | _, _ => False

/- Nothing is asked of the values of steps. -/
def Any
    (_ : C.World)
    (_ _ : α) : Prop :=
  True

/- The same value on both sides. -/
def Same
    (_ : C.World)
    (a a' : α) : Prop :=
  a = a'

/- Nodes that may be missing, on both sides or on none. -/
def Optional
    (W : C.World)
    (x x' : Option Subject) : Prop :=
  Option.Rel (C.SubjectsMatch W) x x'

/- The faults of quads that lack an end may end both runs. -/
def AllowsGaps : Prop :=
  C.fault (.badSubject (Term.describedOption none)) ∧
    C.fault (.badObject (Term.describedOption none))

/-
  What a coupling needs so that steps that do not touch lists
  correspond. Nodes are equal on one side exactly when they
  are on the other, so both runs take the same branches.
-/
structure Sound : Prop where
  refl : ∀ W, C.grows W W
  trans : ∀ U V W, C.grows U V → C.grows V W → C.grows U W
  node_mono : ∀ V W b b', C.grows V W → C.node V b b' → C.node W b b'
  list_mono : ∀ V W l l', C.grows V W → C.list V l l' → C.list W l l'
  node_iff :
    ∀ W s s' a a' b b', C.session W s s' → C.node W a a' →
      C.node W b b' → (a = b ↔ a' = b')
  quad :
    ∀ W x x' p o o', C.SubjectsMatch W x x' →
      C.ObjectsMatch W o o' →
      C.Coupled W (Work.note (.quad (.triple x p o)))
        (Work.note (.quad (.triple x' p o'))) C.Any
  line :
    ∀ W l, C.Coupled W (Work.note (.line l)) (Work.note (.line l)) C.Any
  fresh : ∀ W, C.Coupled W Work.freshNode Work.freshNode C.node
  labelled :
    ∀ W label,
      C.Coupled W (Work.labelledNode label) (Work.labelledNode label)
        C.node
  value : ∀ fault, fault.kind = .value → C.fault fault

/- Filling corresponding lists with corresponding members. -/
structure Fills : Prop where
  ensure :
    ∀ W l l' p, C.list W l l' →
      C.Coupled W (Work.ensureList l p) (Work.ensureList l' p) C.Any
  append :
    ∀ W l l' p v v', C.list W l l' → C.ObjectsMatch W v v' →
      C.Coupled W (Work.appendToList l p v)
        (Work.appendToList l' p v') C.Any

/- Making list mappings, of two styles, that correspond. -/
structure Makes
    (collects collects' : Bool) : Prop where
  root :
    ∀ W, C.Coupled W (Work.rootList collects)
      (Work.rootList collects') C.list
  child :
    ∀ W l l', C.list W l l' →
      C.Coupled W (Work.childList l) (Work.childList l') C.list

section Rules

variable {C}
variable {V W : C.World}

------------------------------------------------------------
-- Growing worlds
------------------------------------------------------------

theorem SubjectsMatch.mono
    (hC : C.Sound)
    (hW : C.grows V W)
    {x x' : Subject}
    (h : C.SubjectsMatch V x x') :
    C.SubjectsMatch W x x' :=
  Subject.Match.mono (fun _ _ hNode => hC.node_mono V W _ _ hW hNode) h

theorem ObjectsMatch.mono
    (hC : C.Sound)
    (hW : C.grows V W)
    {x x' : Object}
    (h : C.ObjectsMatch V x x') :
    C.ObjectsMatch W x x' :=
  Object.Match.mono (fun _ _ hNode => hC.node_mono V W _ _ hW hNode) h

theorem rel_mono
    {R S : α → α → Prop}
    (hRS : ∀ a a', R a a' → S a a')
    {x x' : Option α}
    (h : Option.Rel R x x') :
    Option.Rel S x x' := by
  cases h with
  | some hSome => exact .some (hRS _ _ hSome)
  | none => exact .none

theorem Optional.mono
    (hC : C.Sound)
    (hW : C.grows V W)
    {x x' : Option Subject}
    (h : C.Optional V x x') :
    C.Optional W x x' :=
  rel_mono (fun _ _ hMatch => hMatch.mono hC hW) h

/-
  What waits corresponds in any coupling that relates at least
  the same lists; for whole scopes the nodes matter as well.
-/
theorem IncompletesMatch.transfer
    {D : Coupling}
    {U : D.World}
    (hList : ∀ l l', C.list V l l' → D.list U l l')
    {x x' : Incomplete}
    (h : C.IncompletesMatch V x x') :
    D.IncompletesMatch U x x' := by
  cases h with
  | forward p => exact .forward p
  | reverse p => exact .reverse p
  | listed p hOne => exact .listed p (hList _ _ hOne)

theorem ScopesMatch.transfer
    {D : Coupling}
    {U : D.World}
    (hNode : ∀ b b', C.node V b b' → D.node U b b')
    (hList : ∀ l l', C.list V l l' → D.list U l l')
    {x x' : Scope}
    (h : C.ScopesMatch V x x') :
    D.ScopesMatch U x x' :=
  { h with
    subject := rel_mono (fun _ _ => Subject.Match.mono hNode) h.subject
    object := rel_mono (fun _ _ => Subject.Match.mono hNode) h.object
    list := hList _ _ h.list
    incomplete :=
      h.incomplete.imp (fun _ _ hOne => hOne.transfer hList) }

/-
  A scope that corresponds to itself does in any coupling in
  which its own nodes and lists do.
-/
theorem ScopesMatch.transfer_self
    {D : Coupling}
    {U : D.World}
    (hNode : ∀ b, C.node V b b → D.node U b b)
    (hList : ∀ l, C.list V l l → D.list U l l)
    {x : Scope}
    (h : C.ScopesMatch V x x) :
    D.ScopesMatch U x x := by
  have hRel :
      ∀ y : Option Subject,
        Option.Rel (C.SubjectsMatch V) y y →
          Option.Rel (D.SubjectsMatch U) y y := by
    intro y hRel
    cases hRel with
    | none => exact .none
    | some hSome =>
        cases hSome with
        | iri i => exact .some (.iri i)
        | blank hOne => exact .some (.blank (hNode _ hOne))
  refine
    { h with
      subject := hRel _ h.subject
      object := hRel _ h.object
      list := hList _ h.list
      incomplete := ?_ }
  have hIncomplete := h.incomplete
  rw [List.forall₂_same] at hIncomplete ⊢
  intro waiting hMem
  cases hIncomplete waiting hMem with
  | forward p => exact .forward p
  | reverse p => exact .reverse p
  | listed p hOne => exact .listed p (hList _ hOne)

theorem IncompletesMatch.mono
    (hC : C.Sound)
    (hW : C.grows V W)
    {x x' : Incomplete}
    (h : C.IncompletesMatch V x x') :
    C.IncompletesMatch W x x' :=
  h.transfer (fun _ _ hList => hC.list_mono V W _ _ hW hList)

theorem ScopesMatch.mono
    (hC : C.Sound)
    (hW : C.grows V W)
    {x x' : Scope}
    (h : C.ScopesMatch V x x') :
    C.ScopesMatch W x x' :=
  h.transfer (fun _ _ hNode => hC.node_mono V W _ _ hW hNode)
    (fun _ _ hList => hC.list_mono V W _ _ hW hList)

theorem PendingsMatch.mono
    (hC : C.Sound)
    (hW : C.grows V W)
    {p p' : Pending}
    (h : C.PendingsMatch V p p') :
    C.PendingsMatch W p p' :=
  { h with
    subject := h.subject.mono hC hW
    list := hC.list_mono V W _ _ hW h.list }

theorem ElementsMatch.mono
    (hC : C.Sound)
    (hW : C.grows V W)
    {e e' : Element}
    (h : C.ElementsMatch V e e') :
    C.ElementsMatch W e e' where
  name := h.name
  scope := h.scope.mono hC hW
  subject := Optional.mono hC hW h.subject
  list := hC.list_mono V W _ _ hW h.list
  pending := rel_mono (fun _ _ hOne => hOne.mono hC hW) h.pending

------------------------------------------------------------
-- Rules
------------------------------------------------------------

variable {Q R : C.World → α → α → Prop}

theorem coupled_pure
    (hC : C.Sound)
    {a a' : α}
    (h : Q W a a') :
    C.Coupled W (pure a) (pure a') Q :=
  fun _ _ hs => ⟨W, hC.refl W, hs, h⟩

theorem coupled_done
    (hC : C.Sound)
    {a a' : α}
    (h : Q W a a') :
    C.Coupled W (Work.done a) (Work.done a') Q :=
  coupled_pure hC h

/- The same fault on both sides, if it may end runs. -/
theorem coupled_fail
    (hC : C.Sound)
    {fault : Fault}
    (hFault : C.fault fault) :
    C.Coupled W (Work.fail fault) (Work.fail fault) Q :=
  fun _ _ hs => ⟨⟨rfl, hFault⟩, W, hC.refl W, hs⟩

/- Steps that go on correspond if their parts do. -/
theorem Coupled.andThen
    {P : C.World → β → β → Prop}
    {w w' : Work α}
    {next next' : α → Work β}
    (hC : C.Sound)
    (h : C.Coupled W w w' Q)
    (hNext :
      ∀ V, C.grows W V → ∀ a a', Q V a a' →
        C.Coupled V (next a) (next' a') P) :
    C.Coupled W (Work.andThen w next) (Work.andThen w' next') P := by
  intro s s' hs
  have hFirst := h s s' hs
  unfold Work.andThen
  cases hRun : w s with
  | mk outcome t =>
      cases hRun' : w' s' with
      | mk outcome' t' =>
          rw [hRun, hRun'] at hFirst
          cases outcome with
          | error fault =>
              cases outcome' with
              | error fault' => exact hFirst
              | ok a' => exact hFirst.elim
          | ok a =>
              cases outcome' with
              | error fault' => exact hFirst.elim
              | ok a' =>
                  rcases hFirst with ⟨V, hV, ht, hQ⟩
                  have hSecond := hNext V hV a a' hQ t t' ht
                  dsimp only
                  revert hSecond
                  cases next a t with
                  | mk second u =>
                      cases next' a' t' with
                      | mk second' u' =>
                          cases second <;> cases second'
                          · rintro ⟨hFault, U, hU, hu⟩
                            exact
                              ⟨hFault, U, hC.trans W V U hV hU, hu⟩
                          · exact id
                          · exact id
                          · rintro ⟨U, hU, hRest⟩
                            exact ⟨U, hC.trans W V U hV hU, hRest⟩

theorem Coupled.bind
    {P : C.World → β → β → Prop}
    {w w' : Work α}
    {next next' : α → Work β}
    (hC : C.Sound)
    (h : C.Coupled W w w' Q)
    (hNext :
      ∀ V, C.grows W V → ∀ a a', Q V a a' →
        C.Coupled V (next a) (next' a') P) :
    C.Coupled W (w >>= next) (w' >>= next') P :=
  h.andThen hC hNext

/- How steps that correspond may end. -/
theorem Coupled.outcomes
    {w w' : Work α}
    (h : C.Coupled W w w' Q)
    {s s' : Session}
    (hs : C.session W s s') :
    (∃ a a' t t' V,
      w s = (.ok a, t) ∧ w' s' = (.ok a', t') ∧
        C.grows W V ∧ C.session V t t' ∧ Q V a a') ∨
      ∃ fault t t',
        w s = (.error fault, t) ∧ w' s' = (.error fault, t') := by
  have hBoth := h s s' hs
  revert hBoth
  cases w s with
  | mk outcome t =>
      cases w' s' with
      | mk outcome' t' =>
          cases outcome with
          | ok a =>
              cases outcome' with
              | ok a' =>
                  rintro ⟨V, hV, ht, hQ⟩
                  exact .inl ⟨a, a', t, t', V, rfl, rfl, hV, ht, hQ⟩
              | error fault' => exact fun hBoth => hBoth.elim
          | error fault =>
              cases outcome' with
              | ok a' => exact fun hBoth => hBoth.elim
              | error fault' =>
                  rintro ⟨⟨rfl, _⟩, _⟩
                  exact .inr ⟨fault, t, t', rfl, rfl⟩

/- However steps that correspond end, their sessions correspond. -/
theorem Coupled.sessions
    {w w' : Work α}
    (h : C.Coupled W w w' Q)
    {s s' : Session}
    (hs : C.session W s s') :
    ∃ V, C.grows W V ∧ C.session V (w s).2 (w' s').2 := by
  have hBoth := h s s' hs
  revert hBoth
  cases w s with
  | mk outcome t =>
      cases w' s' with
      | mk outcome' t' =>
          cases outcome <;> cases outcome'
          · exact fun hBoth => hBoth.2
          · exact fun hBoth => hBoth.elim
          · exact fun hBoth => hBoth.elim
          · rintro ⟨V, hV, ht, _⟩
            exact ⟨V, hV, ht⟩

/- Less may be asked of the values. -/
theorem Coupled.mono
    {w w' : Work α}
    (h : C.Coupled W w w' Q)
    (hQR : ∀ V a a', Q V a a' → R V a a') :
    C.Coupled W w w' R := by
  intro s s' hs
  have hBoth := h s s' hs
  revert hBoth
  cases w s with
  | mk outcome t =>
      cases w' s' with
      | mk outcome' t' =>
          cases outcome <;> cases outcome'
          · exact id
          · exact id
          · exact id
          · rintro ⟨V, hV, ht, hQ⟩
            exact ⟨V, hV, ht, hQR V _ _ hQ⟩

/- What holds of the sessions may be used to compare steps. -/
theorem coupled_of_session
    {w w' : Work α}
    (h : ∀ s s', C.session W s s' → C.Coupled W w w' Q) :
    C.Coupled W w w' Q :=
  fun s s' hs => h s s' hs s s' hs

/- What one step yields is known of it beside another, too. -/
theorem Coupled.and_left
    {P : α → Prop}
    {w w' : Work α}
    (h : C.Coupled W w w' Q)
    (hLeft : w.Yields P) :
    C.Coupled W w w' (fun V a a' => Q V a a' ∧ P a) := by
  intro s s' hs
  have hBoth := h s s' hs
  have hValue := hLeft s
  revert hBoth hValue
  unfold Work.Ensures
  cases w s with
  | mk outcome t =>
      cases w' s' with
      | mk outcome' t' =>
          cases outcome <;> cases outcome'
          · exact fun hBoth _ => hBoth
          · exact fun hBoth _ => hBoth
          · exact fun hBoth _ => hBoth
          · rintro ⟨V, hV, ht, hQ⟩ hValue
            exact ⟨V, hV, ht, hQ, hValue _ _ rfl⟩

/- The same outcome on both sides, if its fault may end runs. -/
theorem coupled_ofOutcome
    (hC : C.Sound)
    {outcome : Except Fault α}
    (hFault : ∀ fault, outcome = .error fault → C.fault fault) :
    C.Coupled W (Work.ofOutcome outcome) (Work.ofOutcome outcome)
      C.Same := by
  intro s s' hs
  unfold Work.ofOutcome
  cases outcome with
  | ok a => exact ⟨W, hC.refl W, hs, rfl⟩
  | error fault => exact ⟨⟨rfl, hFault fault rfl⟩, W, hC.refl W, hs⟩

/- Loops over corresponding values correspond. -/
theorem Coupled.forEach
    {P : C.World → β → β → Prop}
    {step step' : β → Work Unit}
    {values values' : List β}
    (hC : C.Sound)
    (hMono : ∀ V W b b', C.grows V W → P V b b' → P W b b')
    (hStep :
      ∀ V, C.grows W V → ∀ b b', P V b b' →
        C.Coupled V (step b) (step' b') C.Any)
    (hValues : List.Forall₂ (P W) values values') :
    C.Coupled W (Work.forEach step values)
      (Work.forEach step' values') C.Any := by
  induction values generalizing values' W with
  | nil =>
      cases hValues
      exact coupled_done hC trivial
  | cons b rest ih =>
      cases hValues with
      | cons hHead hTail =>
          refine (hStep W (hC.refl W) _ _ hHead).andThen hC ?_
          intro V hV _ _ _
          refine ih ?_ ?_
          · intro U hU
            exact hStep U (hC.trans W V U hV hU)
          · exact hTail.imp (fun _ _ hOne => hMono W V _ _ hV hOne)

/- Loops over the same values correspond. -/
theorem Coupled.forEach_same
    {step step' : β → Work Unit}
    {values : List β}
    (hC : C.Sound)
    (hStep :
      ∀ V, C.grows W V → ∀ b ∈ values,
        C.Coupled V (step b) (step' b) C.Any) :
    C.Coupled W (Work.forEach step values)
      (Work.forEach step' values) C.Any := by
  refine Coupled.forEach
    (P := fun _ b b' => b = b' ∧ b ∈ values) hC ?_ ?_ ?_
  · exact fun _ _ _ _ _ h => h
  · rintro V hV b b' ⟨rfl, hMem⟩
    exact hStep V hV b hMem
  · exact List.forall₂_same.mpr (fun b hMem => ⟨rfl, hMem⟩)

/- Searches that find the same values correspond. -/
theorem Coupled.collect
    {step step' : α → Work (Option β)}
    {values : List α}
    (hC : C.Sound)
    (hStep :
      ∀ V, C.grows W V → ∀ a,
        C.Coupled V (step a) (step' a) C.Same) :
    C.Coupled W (Work.collect step values)
      (Work.collect step' values) C.Same := by
  induction values generalizing W with
  | nil => exact coupled_done hC rfl
  | cons a rest ih =>
      refine (hStep W (hC.refl W) a).andThen hC ?_
      intro V hV found found' hFound
      refine (ih (fun U hU => hStep U (hC.trans W V U hV hU))).andThen
        hC ?_
      intro U hU more more' hMore
      apply coupled_done hC
      rw [Same] at hFound hMore ⊢
      rw [hFound, hMore]

------------------------------------------------------------
-- Statements
------------------------------------------------------------

theorem SubjectsMatch.toObject
    {x x' : Subject}
    (h : C.SubjectsMatch W x x') :
    C.ObjectsMatch W x.toObject x'.toObject := by
  cases h with
  | iri i => exact .iri i
  | blank hNode => exact .blank hNode

theorem Optional.toObject
    {x x' : Option Subject}
    (h : C.Optional W x x') :
    Option.Rel (C.ObjectsMatch W) (x.map Subject.toObject)
      (x'.map Subject.toObject) := by
  cases h with
  | some hSome => exact .some hSome.toObject
  | none => exact .none

/- What is chosen on the same condition corresponds. -/
theorem Optional.ite
    {condition : Prop}
    [Decidable condition]
    {x x' y y' : Option Subject}
    (hThen : C.Optional W x x')
    (hElse : C.Optional W y y') :
    C.Optional W (if condition then x else y)
      (if condition then x' else y') := by
  split
  · exact hThen
  · exact hElse

theorem Optional.isSome_eq
    {x x' : Option Subject}
    (h : C.Optional W x x') :
    x.isSome = x'.isSome := by
  cases h <;> rfl

theorem Optional.isNone_eq
    {x x' : Option Subject}
    (h : C.Optional W x x') :
    x.isNone = x'.isNone := by
  cases h <;> rfl

/- Either no run has a node, or both have and they correspond. -/
theorem Optional.none_or_some
    {x x' : Option Subject}
    (h : C.Optional W x x') :
    (x = none ∧ x' = none) ∨
      ∃ y y', x = some y ∧ x' = some y' ∧ C.SubjectsMatch W y y' := by
  cases h with
  | some hSome => exact .inr ⟨_, _, rfl, rfl, hSome⟩
  | none => exact .inl ⟨rfl, rfl⟩

/- The first of two nodes that is there corresponds. -/
theorem Optional.or
    {x x' y y' : Option Subject}
    (hx : C.Optional W x x')
    (hy : C.Optional W y y') :
    C.Optional W (x.or y) (x'.or y') := by
  cases hx with
  | some hSome => exact .some hSome
  | none => exact hy

/- Subjects are equal in one run exactly when in the other. -/
theorem SubjectsMatch.eq_iff
    (hC : C.Sound)
    {s s' : Session}
    (hs : C.session W s s')
    {x x' y y' : Subject}
    (hx : C.SubjectsMatch W x x')
    (hy : C.SubjectsMatch W y y') :
    x = y ↔ x' = y' := by
  cases hx with
  | iri i =>
      cases hy with
      | iri j => rfl
      | blank hNode => simp
  | blank hNode =>
      cases hy with
      | iri j => simp
      | blank hNode' =>
          simp [hC.node_iff W s s' _ _ _ _ hs hNode hNode']

theorem Optional.eq_iff
    (hC : C.Sound)
    {s s' : Session}
    (hs : C.session W s s')
    {x x' y y' : Option Subject}
    (hx : C.Optional W x x')
    (hy : C.Optional W y y') :
    x = y ↔ x' = y' := by
  cases hx with
  | none => cases hy <;> simp
  | some hSome =>
      cases hy with
      | none => simp
      | some hSome' =>
          simp [hSome.eq_iff hC hs hSome']

/- A quad with both ends is stated as it is. -/
theorem state_some
    (subject : Subject)
    (predicate : Iri)
    (object : Object) :
    Work.state (some subject) predicate (some object) =
      Work.note (.quad (.triple subject predicate object)) := by
  cases subject <;> cases object <;> rfl

/-
  Stating corresponding quads. It fails only if an end is
  missing, and then on both sides.
-/
theorem state_coupled
    (hC : C.Sound)
    {subject subject' : Option Subject}
    {object object' : Option Object}
    (predicate : Iri)
    (hSubject : C.Optional W subject subject')
    (hObject : Option.Rel (C.ObjectsMatch W) object object')
    (hEnds :
      C.AllowsGaps ∨ (subject.isSome = true ∧ object.isSome = true)) :
    C.Coupled W (Work.state subject predicate object)
      (Work.state subject' predicate object') C.Any := by
  cases hSubject with
  | none =>
      rcases hEnds with hGaps | hEnds
      · exact fun _ _ hs => ⟨⟨rfl, hGaps.1⟩, W, hC.refl W, hs⟩
      · simp at hEnds
  | @some x x' hSome =>
      cases hObject with
      | none =>
          rcases hEnds with hGaps | hEnds
          · cases hSome <;>
              exact fun _ _ hs => ⟨⟨rfl, hGaps.2⟩, W, hC.refl W, hs⟩
          · simp at hEnds
      | some hValue =>
          rw [state_some, state_some]
          exact hC.quad W _ _ predicate _ _ hSome hValue

theorem remark_coupled
    (hC : C.Sound)
    (text : String) :
    C.Coupled W (Work.remark text) (Work.remark text) C.Any :=
  hC.line W ⟨.debug, text⟩

end Rules

end Coupling
end LinkedMarkup
