import LinkedMarkup.Proofs.Coupling.Events
import LinkedMarkup.Proofs.Evaluation.History
import LinkedMarkup.Proofs.Nodes.Mints
import LinkedMarkup.Proofs.Renaming.Emissions

/-
  This file proves that an evaluation only holds nodes that it
  has made: in what it notes, in its lists and in the elements
  that are open. The run is compared with itself, in worlds
  that are the supplies on its way, so that this is also known
  of an event that ends with a fault.

  Key definitions include:
    * `NodeSupply.Alike`
    * `Session.Minted`
    * `Coupling.minting`
    * `Evaluation.State.Minted`

  Main declarations:
    * `Work.flushLists_leads`
    * `Coupling.minting_steps`
    * `Evaluation.State.Minted.readEvent`
    * `Evaluation.minted_of_run`
-/

namespace LinkedMarkup

/- The same node on both sides, which the supply has made. -/
def NodeSupply.Alike
    (s : NodeSupply)
    (b b' : BlankNode) : Prop :=
  b = b' ∧ s.Made b

theorem NodeSupply.Alike.mono
    {s t : NodeSupply}
    (h : s.Extends t)
    (b b' : BlankNode)
    (hAlike : s.Alike b b') :
    t.Alike b b' :=
  ⟨hAlike.1, hAlike.2.mono h⟩

------------------------------------------------------------
-- Sessions
------------------------------------------------------------

/-
  A session in which every node has been made: those of its
  labels, of the quads that it has noted and of its lists.
-/
structure Session.Minted
    (s : Session) : Prop where
  bounded : s.supply.Bounded
  quads :
    ∀ q ∈ Note.quads s.notes.toList, Quad.Match s.supply.Alike q q
  lists :
    ∀ l,
      List.Forall₂ (EntriesMatch s.supply.Alike)
        (s.lists.slot l).lists (s.lists.slot l).lists

namespace Session

variable {s : Session}

/- Nodes stay made when more of them are. -/
theorem Minted.supplied
    (h : s.Minted)
    {P : Mint → Prop}
    {supply : NodeSupply}
    (hLeads : NodeSupply.Leads P s.supply supply) :
    Minted { s with supply := supply } where
  bounded := hLeads.bounded h.bounded
  quads q hMem :=
    (h.quads q hMem).mono (NodeSupply.Alike.mono hLeads.extends)
  lists l :=
    (h.lists l).imp
      (fun _ _ hOne =>
        hOne.mono (NodeSupply.Alike.mono hLeads.extends))

/- Only the quads among new notes hold nodes. -/
theorem Minted.noted
    (h : s.Minted)
    {notes : List Note}
    (hQuads :
      ∀ q ∈ Note.quads notes, Quad.Match s.supply.Alike q q) :
    Minted { s with notes := s.notes ++ notes.toArray } where
  bounded := h.bounded
  lists := h.lists
  quads q hMem := by
    rw [Array.toList_append, List.toList_toArray, Note.quads_append]
      at hMem
    rcases List.mem_append.mp hMem with hOld | hNew
    · exact h.quads q hOld
    · exact hQuads q hNew

theorem Minted.pushed
    (h : s.Minted)
    {n : Note}
    (hQuads : ∀ q, n = .quad q → Quad.Match s.supply.Alike q q) :
    Minted { s with notes := s.notes.push n } := by
  have hNoted :
      Minted { s with notes := s.notes ++ [n].toArray } := by
    apply h.noted
    intro q hMem
    cases n with
    | quad p =>
        rw [List.mem_singleton.mp hMem]
        exact hQuads p rfl
    | line l => cases hMem
    | filed f => cases hMem
  simpa using hNoted

theorem Minted.relisted
    (h : s.Minted)
    {lists : ListForest Iri Object}
    (hLists :
      ∀ l,
        List.Forall₂ (EntriesMatch s.supply.Alike)
          (lists.slot l).lists (lists.slot l).lists) :
    Minted { s with lists := lists } :=
  ⟨h.bounded, h.quads, hLists⟩

/- New mappings have no lists yet. -/
theorem Minted.root
    (h : s.Minted)
    (collects : Bool) :
    Minted { s with lists := (s.lists.root collects).2 } := by
  apply h.relisted
  intro l
  rw [ListForest.slot_root]
  split
  · exact .nil
  · exact h.lists l

theorem Minted.child
    (h : s.Minted)
    (l : Nat) :
    Minted { s with lists := (s.lists.child l).2 } := by
  apply h.relisted
  intro m
  rw [ListForest.slot_child]
  split
  · exact .nil
  · exact h.lists m

theorem Minted.setLists
    (h : s.Minted)
    (l : Nat)
    {lists : List (Iri × List Object)}
    (hLists :
      List.Forall₂ (EntriesMatch s.supply.Alike) lists lists) :
    Minted { s with lists := s.lists.setLists l lists } := by
  apply h.relisted
  intro m
  rw [ListForest.slot_setLists]
  split
  · exact hLists
  · exact h.lists m

theorem Minted.marked
    (h : s.Minted)
    (l : Nat) :
    Minted { s with lists := s.lists.marked l } := by
  apply h.relisted
  intro m
  rw [ListForest.lists_marked]
  exact h.lists m

end Session

------------------------------------------------------------
-- Writing lists
------------------------------------------------------------

/- Written lists take the nodes of their links, if any. -/
theorem Emission.leads_supplyAfter
    {P : Mint → Prop}
    (hLinks : ∀ b, P (.link b))
    (collects : Bool)
    (emissions : List Emission)
    (s : NodeSupply) :
    NodeSupply.Leads P s (supplyAfter collects emissions s) := by
  unfold supplyAfter
  split
  · exact NodeSupply.leads_freshMany hLinks s _
  · exact .refl s

/- They hold what was there, and the nodes of their links. -/
theorem Emission.written_alike
    (collects : Bool)
    {emissions : List Emission}
    {s : NodeSupply}
    (h : List.Forall₂ (Emission.Match s.Alike) emissions emissions) :
    ∀ q ∈ written collects emissions s.count,
      Quad.Match (supplyAfter collects emissions s).Alike q q := by
  have hLater :
      List.Forall₂
        (Emission.Match (supplyAfter collects emissions s).Alike)
        emissions emissions :=
    h.imp (fun _ _ hOne =>
      hOne.mono
        (NodeSupply.Alike.mono
          (s.extends_supplyAfter collects emissions)))
  rw [← List.forall₂_same]
  apply written_match hLater
  intro hCollects k hk
  refine ⟨rfl, s.count + k, ?_, rfl⟩
  unfold supplyAfter
  rw [if_pos hCollects]
  exact Nat.add_lt_add_left hk _

/- What a flush makes are links, whether it succeeds or not. -/
theorem Work.flushLists_leads
    {P : Mint → Prop}
    (hLinks : ∀ b, P (.link b))
    (l : Nat)
    (subject : Option Subject)
    (s : Session) :
    NodeSupply.Leads P s.supply (flushLists l subject s).2.supply := by
  by_cases hOpen : s.lists.flushed l = false
  · by_cases hNil : (s.lists.slot l).lists = []
    · rw [flushLists_of_lists_eq_nil hOpen hNil]
      exact .refl _
    · cases subject with
      | none =>
          rw [flushLists_none hOpen hNil]
          exact .refl _
      | some x =>
          rw [flushLists_eq hOpen, Emission.ofLists_eq_written]
          exact Emission.leads_supplyAfter hLinks _ _ _
  · rw [flushLists_of_flushed (by simpa using hOpen)]
    exact .refl _

theorem Session.Minted.flushLists
    {s : Session}
    (h : s.Minted)
    (l : Nat)
    {subject : Option Subject}
    (hSubject :
      Option.Rel (Subject.Match s.supply.Alike) subject subject) :
    (Work.flushLists l subject s).2.Minted := by
  by_cases hOpen : s.lists.flushed l = false
  · by_cases hNil : (s.lists.slot l).lists = []
    · rw [Work.flushLists_of_lists_eq_nil hOpen hNil]
      exact h.marked l
    · cases subject with
      | none =>
          rw [Work.flushLists_none hOpen hNil]
          exact h.marked l
      | some x =>
          rw [Work.flushLists_eq hOpen, Emission.ofLists_eq_written]
          have hLeads :=
            Emission.leads_supplyAfter (P := fun _ => True)
              (fun _ => trivial) (s.lists.slot l).collects
              (Emission.ofLists (some x) (s.lists.slot l).lists)
              s.supply
          refine ((h.marked l).supplied hLeads).noted ?_
          rw [Note.quads_map_quad]
          exact Emission.written_alike _
            (Emission.ofLists_match hSubject (h.lists l))
  · rw [Work.flushLists_of_flushed (by simpa using hOpen)]
    exact h

------------------------------------------------------------
-- A run beside itself
------------------------------------------------------------

namespace Coupling

/-
  The comparison of a run with itself in which worlds are the
  supplies on its way, which make nodes of some kinds, and
  whatever corresponds is the same on both sides and holds no
  node that has not been made.
-/
def minting
    (P : Mint → Prop) : Coupling where
  World := NodeSupply
  grows := NodeSupply.Leads P
  node := NodeSupply.Alike
  list _ l l' := l = l'
  session W s s' := s = s' ∧ s.supply = W ∧ s.Minted
  fault _ := True

variable {P : Mint → Prop} {W : NodeSupply}

/- What is known of one step is known of it beside itself. -/
theorem minting_coupled
    {α : Type}
    {w : Work α}
    {Q : NodeSupply → α → α → Prop}
    (h :
      ∀ s, s.supply = W → s.Minted →
        NodeSupply.Leads P s.supply (w s).2.supply ∧ (w s).2.Minted ∧
          ∀ a, (w s).1 = .ok a → Q (w s).2.supply a a) :
    (minting P).Coupled W w w Q := by
  rintro s _ ⟨rfl, rfl, hs⟩
  have hStep := h s rfl hs
  revert hStep
  cases w s with
  | mk outcome t =>
      rintro ⟨hLeads, ht, hValue⟩
      cases outcome with
      | error fault =>
          exact ⟨⟨rfl, trivial⟩, t.supply, hLeads, rfl, rfl, ht⟩
      | ok a =>
          exact ⟨t.supply, hLeads, ⟨rfl, rfl, ht⟩, hValue a rfl⟩

/- Steps that touch no list make new nodes and those of labels. -/
theorem minting_sound
    (hFresh : ∀ b, P (.fresh b))
    (hLabels : ∀ label b, P (.label label b)) :
    (minting P).Sound where
  refl := NodeSupply.Leads.refl
  trans _ _ _ := NodeSupply.Leads.trans
  node_mono _ _ b b' hLeads :=
    NodeSupply.Alike.mono hLeads.extends b b'
  list_mono _ _ _ _ _ hList := hList
  node_iff _ _ _ _ _ _ _ _ hA hB := by rw [hA.1, hB.1]
  quad W x x' p o o' hx ho := by
    obtain rfl := Subject.Match.eq (fun _ _ hNode => hNode.1) hx
    obtain rfl := Object.Match.eq (fun _ _ hNode => hNode.1) ho
    apply minting_coupled
    rintro s rfl hs
    refine ⟨.refl _, hs.pushed ?_, fun _ _ => trivial⟩
    rintro _ ⟨⟩
    exact .triple p hx ho
  line W l := by
    apply minting_coupled
    rintro s rfl hs
    refine ⟨.refl _, hs.pushed ?_, fun _ _ => trivial⟩
    rintro q ⟨⟩
  fresh W := by
    apply minting_coupled
    rintro s rfl hs
    have hLeads := NodeSupply.leads_fresh hFresh s.supply
    refine ⟨hLeads, hs.supplied hLeads, ?_⟩
    rintro _ ⟨⟩
    exact ⟨rfl, s.supply.made_fresh⟩
  labelled W label := by
    apply minting_coupled
    rintro s rfl hs
    have hLeads := NodeSupply.leads_labelled hLabels s.supply label
    refine ⟨hLeads, hs.supplied hLeads, ?_⟩
    rintro _ ⟨⟩
    exact ⟨rfl, NodeSupply.made_labelled hs.bounded label⟩
  value _ _ := trivial

theorem minting_fills : (minting P).Fills where
  ensure W l l' p hList := by
    obtain rfl : l = l' := hList
    apply minting_coupled
    rintro s rfl hs
    unfold Work.ensureList ListForest.ensure
    cases s.lists.flushed l with
    | true => exact ⟨.refl _, hs, fun _ _ => trivial⟩
    | false =>
        exact
          ⟨.refl _,
            hs.setLists l (ListForest.opened_match (hs.lists _) p),
            fun _ _ => trivial⟩
  append W l l' p v v' hList hValue := by
    obtain rfl : l = l' := hList
    obtain rfl := Object.Match.eq (fun _ _ hNode => hNode.1) hValue
    apply minting_coupled
    rintro s rfl hs
    unfold Work.appendToList ListForest.append
    cases s.lists.flushed l with
    | true => exact ⟨.refl _, hs, fun _ _ => trivial⟩
    | false =>
        have hFilled :=
          hs.setLists l
            (ListForest.extended_match
              (hs.lists (s.lists.slot l).owner) p hValue)
        refine ⟨.refl _, hFilled.pushed ?_, fun _ _ => trivial⟩
        rintro q ⟨⟩

theorem minting_makes
    (collects : Bool) :
    (minting P).Makes collects collects where
  root W := by
    apply minting_coupled
    rintro s rfl hs
    exact ⟨.refl _, hs.root collects, fun _ _ => rfl⟩
  child W l l' hList := by
    obtain rfl : l = l' := hList
    apply minting_coupled
    rintro s rfl hs
    exact ⟨.refl _, hs.child l, fun _ _ => rfl⟩

/- What corresponds to anything is the same on both sides. -/
theorem optional_minting
    {x x' : Option Subject}
    (h : (minting P).Optional W x x') :
    x = x' := by
  cases h with
  | none => rfl
  | some hSome =>
      rw [Subject.Match.eq (fun _ _ hNode => hNode.1) hSome]

theorem minting_steps
    (hAll : ∀ m, P m) :
    (minting P).Steps where
  sound := minting_sound (fun _ => hAll _) (fun _ _ => hAll _)
  fills := minting_fills
  gaps := ⟨trivial, trivial⟩
  flush W l l' x x' hList hSubject := by
    obtain rfl : l = l' := hList
    obtain rfl := optional_minting hSubject
    apply minting_coupled
    rintro s rfl hs
    exact
      ⟨Work.flushLists_leads (fun _ => hAll _) l x s,
        hs.flushLists l hSubject, fun _ _ => trivial⟩
  begins W s s' hs := by
    rcases hs with ⟨rfl, rfl, hs⟩
    refine ⟨rfl, rfl, hs.bounded, ?_, hs.lists⟩
    intro q hMem
    cases hMem

end Coupling

------------------------------------------------------------
-- Evaluations
------------------------------------------------------------

namespace Evaluation

open Coupling

/- An evaluation that only holds nodes that it has made. -/
def State.Minted
    (d : State) : Prop :=
  (minting (fun _ => True)).Alongside d.session.supply d d

/- Where nothing has begun, only the document is held. -/
theorem minted_of_start
    {settings : Settings}
    {base : String}
    {first : State}
    (hStart : start settings base = .ok first) :
    first.Minted ∧ first.session.supply = .empty := by
  rcases start_eq_ok hStart with ⟨document, iri, _, _, rfl⟩
  have hEmpty : Session.start.Minted :=
    { bounded := fun label i hNumber => nomatch hNumber
      quads := fun q hMem => nomatch hMem
      lists := fun l => .nil }
  refine ⟨?_, rfl⟩
  exact
    { settings := .refl settings
      makes := minting_makes _
      session := ⟨rfl, rfl, hEmpty.root _⟩
      outer :=
        { base := rfl
          prefixes := rfl
          terms := rfl
          vocab := rfl
          language := rfl
          subject := .some (.iri iri)
          object := .none
          list := rfl
          incomplete := .nil }
      elements := .nil }

/- An event only notes nodes that have been made by its end. -/
theorem State.Minted.readEvent
    {d : State}
    (h : d.Minted)
    (event : Event) :
    (Evaluation.readEvent d event d.fresh).2.Minted := by
  rcases h.process (minting_steps (fun _ => trivial))
      (fun _ => trivial) event with
    ⟨_, _, hSession, _⟩
  exact hSession.2.2

theorem State.Minted.after
    {d d' : State}
    (h : d.Minted)
    {event : Event}
    {notes : List Note}
    (hStep : process d event = (.ok d', notes)) :
    d'.Minted := by
  rcases h.process (minting_steps (fun _ => trivial))
      (fun _ => trivial) event with
    ⟨V, _, _, hAfter⟩
  rcases hAfter d' notes hStep with ⟨m, _, hSame, hMinted⟩
  rw [hStep] at hSame
  cases hSame
  have hSupply : d'.session.supply = V := hMinted.session.2.1
  unfold State.Minted
  rw [hSupply]
  exact hMinted

/- So it is after any events from the start. -/
theorem minted_of_run
    {settings : Settings}
    {base : String}
    {first d : State}
    (hStart : start settings base = .ok first)
    {events : List Event}
    {sections : List (List Note)}
    (hRun : Run first events sections d) :
    d.Minted := by
  refine Run.concat_induction
    (P := fun _ _ d => d.Minted) (minted_of_start hStart).1 ?_ hRun
  intro events sections d event notes d' _ hd hStep
  exact hd.after hStep

end Evaluation
end LinkedMarkup
