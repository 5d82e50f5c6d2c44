import LinkedMarkup.Proofs.Coupling.Steps
import LinkedMarkup.Proofs.Evaluation.Emission
import LinkedMarkup.Proofs.Lists.Padding

/-
  This file compares a run with one that made one more list
  mapping, which nothing fills. Both make the same nodes and
  state the same quads, so that they are in step as long as
  the elements that are open in one are open in the other.

  Key definitions include:
    * `Session.Padded`
    * `Coupling.padding`

  Main declarations:
    * `Coupling.padding_sound`
    * `Coupling.padding_steps`
    * `Coupling.padding_scope`
    * `Coupling.padding_element`
-/

namespace LinkedMarkup

/- Sessions that differ in a spare mapping and in what is filed. -/
structure Session.Padded
    (spare : Nat)
    (s s' : Session) : Prop where
  supply : s'.supply = s.supply
  lists : ListForest.Padded spare s.lists s'.lists
  quads : Note.quads s'.notes.toList = Note.quads s.notes.toList

namespace Coupling

open ListForest

/- The comparison of a run with one that has a spare mapping. -/
def padding
    (spare : Nat) : Coupling where
  World := Unit
  grows _ _ := True
  node _ b b' := b = b'
  list _ l l' := l' = past spare l
  session _ := Session.Padded spare
  fault _ := True

variable {spare : Nat} {W : Unit}

theorem subjectsMatch_padding
    {x x' : Subject}
    (h : (padding spare).SubjectsMatch W x x') :
    x' = x :=
  (Subject.Match.eq (fun _ _ hNode => hNode) h).symm

theorem objectsMatch_padding
    {x x' : Object}
    (h : (padding spare).ObjectsMatch W x x') :
    x' = x :=
  (Object.Match.eq (fun _ _ hNode => hNode) h).symm

theorem optional_padding
    {x x' : Option Subject}
    (h : (padding spare).Optional W x x') :
    x' = x := by
  cases h with
  | none => rfl
  | some hSome => rw [subjectsMatch_padding hSome]

------------------------------------------------------------
-- Primitive steps
------------------------------------------------------------

/- Notes of the same quads keep sessions beside each other. -/
theorem padded_noted
    {s s' : Session}
    (h : Session.Padded spare s s')
    {notes notes' : List Note}
    (hNotes : Note.quads notes' = Note.quads notes) :
    Session.Padded spare
      { s with notes := s.notes ++ notes.toArray }
      { s' with notes := s'.notes ++ notes'.toArray } where
  supply := h.supply
  lists := h.lists
  quads := by
    simp only [Array.toList_append, Note.quads_append, h.quads,
      hNotes]

theorem padded_push
    {s s' : Session}
    (h : Session.Padded spare s s')
    {n n' : Note}
    (hNote : Note.quads [n'] = Note.quads [n]) :
    Session.Padded spare { s with notes := s.notes.push n }
      { s' with notes := s'.notes.push n' } := by
  simpa using padded_noted h hNote

/- The same nodes are made with a spare mapping as without. -/
theorem padding_sound : (padding spare).Sound where
  refl _ := trivial
  trans _ _ _ _ _ := trivial
  node_mono _ _ _ _ _ hNode := hNode
  list_mono _ _ _ _ _ hList := hList
  node_iff _ _ _ _ _ _ _ _ hA hB := by
    cases hA
    cases hB
    rfl
  quad W x x' p o o' hx ho := by
    rw [subjectsMatch_padding hx, objectsMatch_padding ho]
    exact fun s s' hs => ⟨W, trivial, padded_push hs rfl, trivial⟩
  line W l s s' hs := ⟨W, trivial, padded_push hs rfl, trivial⟩
  fresh W s s' hs := by
    refine ⟨W, trivial, ⟨?_, hs.lists, hs.quads⟩, ?_⟩
    · rw [hs.supply]
    · change s.supply.fresh.1 = s'.supply.fresh.1
      rw [hs.supply]
  labelled W label s s' hs := by
    refine ⟨W, trivial, ⟨?_, hs.lists, hs.quads⟩, ?_⟩
    · rw [hs.supply]
    · change (s.supply.labelled label).1 = (s'.supply.labelled label).1
      rw [hs.supply]
  value _ _ := trivial

theorem padding_fills : (padding spare).Fills where
  ensure W l l' p hList s s' hs := by
    cases hList
    unfold Work.ensureList ListForest.ensure
    rw [hs.lists.flushed_eq, hs.lists.lists_eq]
    cases s.lists.flushed l with
    | true => exact ⟨⟨rfl, trivial⟩, W, trivial, hs⟩
    | false =>
        have hLists :=
          hs.lists.setLists l (opened (s.lists.lists l) p)
        exact ⟨W, trivial, ⟨hs.supply, hLists, hs.quads⟩, trivial⟩
  append W l l' p v v' hList hValue s s' hs := by
    cases hList
    rw [objectsMatch_padding hValue]
    unfold Work.appendToList ListForest.append
    rw [hs.lists.flushed_eq, hs.lists.lists_eq]
    cases s.lists.flushed l with
    | true => exact ⟨⟨rfl, trivial⟩, W, trivial, hs⟩
    | false =>
        have hLists :=
          hs.lists.setLists l (extended (s.lists.lists l) p v)
        have hFilled :
            Session.Padded spare
              { s with
                lists :=
                  s.lists.setLists l
                    (extended (s.lists.lists l) p v) }
              { s' with
                lists :=
                  s'.lists.setLists (past spare l)
                    (extended (s.lists.lists l) p v) } :=
          ⟨hs.supply, hLists, hs.quads⟩
        exact ⟨W, trivial, padded_push hFilled rfl, trivial⟩

theorem padding_makes
    (collects : Bool) :
    (padding spare).Makes collects collects where
  root W s s' hs :=
    ⟨W, trivial, ⟨hs.supply, hs.lists.root collects, hs.quads⟩,
      hs.lists.past_size.symm⟩
  child W l l' hList s s' hs := by
    cases hList
    exact ⟨W, trivial, ⟨hs.supply, hs.lists.child l, hs.quads⟩,
      hs.lists.past_size.symm⟩

/- A mapping and its counterpart are written alike. -/
theorem flushLists_padding
    (l : Nat)
    (subject : Option Subject) :
    (padding spare).Coupled W (Work.flushLists l subject)
      (Work.flushLists (past spare l) subject) (padding spare).Any := by
  intro s s' hs
  have hFlush :=
    hs.lists.flush l (subject.map Subject.toTerm) s.supply
  unfold Work.flushLists
  rw [hs.supply]
  revert hFlush
  cases s.lists.flush l (subject.map Subject.toTerm) s.supply with
  | mk outcome made =>
      cases s'.lists.flush (past spare l)
          (subject.map Subject.toTerm) s.supply with
      | mk outcome' made' =>
          rcases made with ⟨lists, supply⟩
          rcases made' with ⟨lists', supply'⟩
          rintro ⟨hOutcome, hSupply, hLists⟩
          cases hOutcome
          cases hSupply
          have hMarked :
              Session.Padded spare
                { s with lists := lists, supply := supply }
                { s' with lists := lists', supply := supply } :=
            ⟨rfl, hLists, hs.quads⟩
          cases outcome with
          | error fault =>
              exact ⟨⟨rfl, trivial⟩, W, trivial, hMarked⟩
          | ok quads =>
              simp only [Work.stateAll_eq]
              exact ⟨W, trivial, padded_noted hMarked rfl, trivial⟩

/- Whole events are in step with a spare mapping. -/
theorem padding_steps : (padding spare).Steps where
  sound := padding_sound
  fills := padding_fills
  gaps := ⟨trivial, trivial⟩
  flush W l l' x x' hList hSubject := by
    cases hList
    rw [optional_padding hSubject]
    exact flushLists_padding l x
  begins _ _ _ hs := ⟨hs.supply, hs.lists, rfl⟩

/- Notes that belong together are of the same quads. -/
theorem quads_of_told
    {notes notes' : List Note}
    (h : (padding spare).Told notes notes') :
    Note.quads notes' = Note.quads notes := by
  rcases h with ⟨W, s, s', hs, rfl, rfl⟩
  exact hs.quads

------------------------------------------------------------
-- What was there before
------------------------------------------------------------

theorem subjectsMatch_padding_self
    (x : Subject) :
    (padding spare).SubjectsMatch W x x := by
  cases x with
  | iri i => exact .iri i
  | blank b => exact .blank rfl

theorem optional_padding_self
    (x : Option Subject) :
    (padding spare).Optional W x x := by
  cases x with
  | none => exact .none
  | some s => exact .some (subjectsMatch_padding_self s)

/- Mappings made before the spare one keep their numbers. -/
theorem padding_scope
    {x : Scope}
    (h : x.Uses (fun l => l < spare)) :
    (padding spare).ScopesMatch W x x where
  base := rfl
  prefixes := rfl
  terms := rfl
  vocab := rfl
  language := rfl
  subject := optional_padding_self x.subject
  object := optional_padding_self x.object
  list := (past_of_lt h.list).symm
  incomplete := by
    rw [List.forall₂_same]
    intro waiting hMem
    cases waiting with
    | forward p => exact .forward p
    | reverse p => exact .reverse p
    | listed p l =>
        exact .listed (C := padding spare) p
          (past_of_lt (h.listed p l hMem)).symm

theorem padding_element
    {e : Element}
    (h : e.Uses (fun l => l < spare)) :
    (padding spare).ElementsMatch W e e where
  name := rfl
  scope := padding_scope h.scope
  subject := optional_padding_self e.subject
  list := (past_of_lt h.list).symm
  pending := by
    have hList := h.pending
    generalize e.pending = p at hList ⊢
    cases p with
    | none => exact .none
    | some q =>
        exact .some
          ⟨subjectsMatch_padding_self q.subject, rfl,
            (past_of_lt (hList q rfl)).symm, rfl, rfl, rfl, rfl, rfl,
            rfl⟩

end Coupling
end LinkedMarkup
