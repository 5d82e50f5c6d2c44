import LinkedMarkup.Proofs.Renaming.Renamed
import LinkedMarkup.Proofs.Renaming.Steps

/-
  This file proves that an element never changes what its
  siblings state. It leaves behind new nodes, labels and list
  members, but nothing that later elements read; so an element
  after it states what it would have stated alone, but for
  the names of new nodes.

  Key definitions include:
    * `Evaluation.Sound`
    * `Pairing.upTo`
    * `Layout.beyond`

  Main declarations:
    * `NodeSupply.Extends.paired`
    * `ListForest.Extends.paired`
    * `Evaluation.sound_of_run`
    * `Evaluation.paired_after_nested`
    * `Evaluation.Traced.sections_match`
    * `Evaluation.sibling_keeps_statements`
-/

namespace LinkedMarkup

/- The pairing of equal numbers below a bound. -/
def Pairing.upTo
    (count mappings : Nat) : Pairing where
  pairs i j := i = j ∧ i < count
  reserved _ := False
  mappings := mappings

/-
  The layout of two runs that have some mappings in common and
  go on from different numbers of them, in one style.
-/
def Layout.beyond
    (common other : Nat)
    (collects : Bool) : Layout where
  base := common
  shift := other - common
  collects := collects
  collects' := collects

/- A supply is paired with one that has gone on from it. -/
theorem NodeSupply.Extends.paired
    {s t : NodeSupply}
    (h : s.Extends t)
    (hNamed : ∀ label i, s.number? label = some i → i < s.count)
    (hNamed' : ∀ label j, t.number? label = some j → j < t.count)
    (hDistinct :
      ∀ label label' j, t.number? label = some j →
        t.number? label' = some j → label = label')
    (mappings : Nat) :
    NodeSupply.Paired (.upTo s.count mappings) s t where
  bounded := by
    rintro i j ⟨rfl, hLt⟩
    exact ⟨hLt, Nat.lt_of_lt_of_le hLt h.count⟩
  functional := by
    rintro i j j' ⟨rfl, _⟩ ⟨rfl, _⟩
    rfl
  injective := by
    rintro i i' j ⟨rfl, _⟩ ⟨rfl, _⟩
    rfl
  unreserved _ _ _ hReserved := hReserved
  reserved _ hReserved := hReserved.elim
  seen label i hSeen :=
    ⟨i, h.kept label i hSeen, rfl, hNamed label i hSeen⟩
  unseen := by
    rintro label j hNone hSome i ⟨rfl, hLt⟩
    exact Nat.not_lt_of_le (h.made label i hNone hSome) hLt
  named label j hSome := ⟨hNamed' label j hSome, fun hNot => hNot⟩
  distinct := hDistinct

/-
  A forest is in step with one that has gone on from it: the
  mappings they have in common are unchanged but for members,
  and those are never read again.
-/
theorem ListForest.Extends.paired
    {f g : ListForest Iri Object}
    (h : f.Extends g)
    {collects : Bool}
    (hOwned :
      ∀ l, l < f.slots.size → (f.slot l).owner < f.slots.size)
    (hCollects :
      ∀ l, l < f.slots.size → (f.slot l).collects = collects)
    (hCollects' :
      ∀ l, l < g.slots.size → (g.slot l).collects = collects)
    (N : BlankNode → BlankNode → Prop) :
    ListForest.Paired (.beyond f.slots.size g.slots.size collects) N
      f.slots.size f g where
  size := (Nat.add_sub_cancel' h.size).symm
  base := Nat.le_refl _
  mappings := Nat.le_refl _
  owned := hOwned
  slots := by
    intro l l' hMaps hLt
    have hSame : l' = l := by
      unfold Layout.Maps Layout.beyond at hMaps
      dsimp only at hMaps
      omega
    rw [hSame]
    refine ⟨?_, (h.flushed l hLt).symm, ?_⟩
    · rw [h.owner l hLt]
      exact .inl ⟨hOwned l hLt, rfl⟩
    · intro hBase
      exact absurd hLt (Nat.not_lt_of_le hBase)
  collects := hCollects
  collects' := hCollects'

namespace Evaluation

open Coupling

------------------------------------------------------------
-- Evaluations beside themselves
------------------------------------------------------------

/- Whether an evaluation writes its lists as collections. -/
def State.collects
    (d : State) : Bool :=
  d.settings.options.listStyle == .collection

/-
  What holds of every evaluation that is reached: its labels
  stand for different nodes, and it only knows of nodes and
  mappings that it has made.
-/
structure Sound
    (d : State) : Prop where
  housed : Housed d
  named :
    ∀ label j, d.session.supply.number? label = some j →
      j < d.session.supply.count
  distinct :
    ∀ label label' j, d.session.supply.number? label = some j →
      d.session.supply.number? label' = some j → label = label'
  owned :
    ∀ l, l < d.session.lists.slots.size →
      (d.session.lists.slot l).owner < d.session.lists.slots.size
  collects :
    ∀ l, l < d.session.lists.slots.size →
      (d.session.lists.slot l).collects = d.collects
  scope :
    ∀ κ : Layout, κ.base = d.session.lists.slots.size →
      (pairing κ).ScopesMatch
        (.upTo d.session.supply.count d.session.lists.slots.size)
        d.scope d.scope

/- Evaluations in step with themselves know what they have made. -/
theorem sound_of_paired
    {κ : Layout}
    {W : Pairing}
    {n : Nat}
    {d : State}
    (hHoused : Housed d)
    (h : Paired κ W n d d) :
    Sound d where
  housed := hHoused
  named label j hSome := (h.supply.named label j hSome).1
  distinct := h.supply.distinct
  owned := h.lists.owned
  collects l hl := (h.lists.collects l hl).trans h.collects
  scope := by
    intro κ' hBase
    have hScope := h.stack.scope
    rw [← scope_eq_innermost] at hScope
    refine hScope.transfer_self ?_ ?_
    · rintro b ⟨i, j, hPair, rfl, hNode⟩
      cases NodeSupply.node_injective hNode
      exact ⟨i, i, ⟨rfl, (h.supply.bounded i i hPair).1⟩, rfl, rfl⟩
    · rintro l ⟨_, hLt⟩
      have hSize := Nat.lt_of_lt_of_le hLt h.lists.mappings
      exact ⟨.inl ⟨by rw [hBase]; exact hSize, rfl⟩, hSize⟩

/- Every evaluation that is reached is sound. -/
theorem sound_of_run
    {settings : Settings}
    {base : String}
    {first d : State}
    {events : List Event}
    {sections : List (List Note)}
    (hStart : start settings base = .ok first)
    (hRun : Run first events sections d) :
    Sound d := by
  rcases start_eq_ok hStart with ⟨document, iri, _, _, rfl⟩
  have hHoused := housed_initial settings document iri
  have hPaired :=
    paired_initial (SameButStyle.refl settings) document iri
  have hEnd := evaluate_of_run hRun
  rcases evaluate_paired (within_of_run hRun) (fun h => h) hHoused
      hPaired with
    ⟨_, final, final', _, _, W, hEval, hEval', _, hFinal, _⟩ |
      ⟨fault, _, _, hEval, _⟩
  · rw [hEnd] at hEval hEval'
    cases hEval
    cases hEval'
    exact sound_of_paired (housed_of_run hHoused hRun) hFinal
  · rw [hEnd] at hEval
    cases hEval

------------------------------------------------------------
-- After a sibling
------------------------------------------------------------

/-
  Well-nested events leave an evaluation in step with the one
  before them: the same nodes and mappings are common to both,
  and what was made since is out of the way.
-/
theorem paired_after_nested
    {d d' : State}
    {events : List Event}
    {sections : List (List Note)}
    (hNested : Event.Nested events)
    (hRun : Run d events sections d')
    (hSound : Sound d)
    (hSound' : Sound d') :
    Paired
      (.beyond d.session.lists.slots.size d'.session.lists.slots.size
        d.collects)
      (.upTo d.session.supply.count d.session.lists.slots.size)
      0 d d' := by
  have hExtends := extends_of_run_nested hNested hSound.housed hRun
  rcases run_nested hNested hRun with ⟨hSettings, hOuter, hElements⟩
  have hCollects : d'.collects = d.collects := by
    unfold State.collects
    rw [hSettings]
  refine
    { settings := ?_
      collects := rfl
      collects' := hCollects.symm
      supply :=
        hExtends.supply.paired hSound.named hSound'.named
          hSound'.distinct _
      lists := ?_
      stack := ?_ }
  · rw [hSettings]
    exact .refl d.settings
  · apply hExtends.lists.paired hSound.owned hSound.collects
    intro l hLt
    rw [hSound'.collects l hLt, hCollects]
  · refine .outside ?_ (isEmpty_eq_of_bare hElements).symm
    rw [← scope_eq_innermost, ← scope_eq_innermost,
      scope_eq_of_bare hOuter hElements]
    exact hSound.scope _ rfl

/- Runs in one style state the same of corresponding nodes. -/
theorem Traced.sections_match
    {κ : Layout}
    {W : Pairing}
    {d d' : State}
    {events : List Event}
    (h : Traced κ W d d' events)
    (hStyle : κ.collects = κ.collects')
    (hHoused : Housed d)
    (hHoused' : Housed d') :
    List.Forall₂ (List.Forall₂ (Quad.Match W.Nodes))
      ((Extraction.evaluate d events).1.map Note.quads)
      ((Extraction.evaluate d' events).1.map Note.quads) := by
  induction h with
  | nil _ _ => exact .nil
  | @cons d d' m m' event rest notes notes' hStep hStep' hTold _ ih =>
      have hCollects' := hTold.collects'
      rw [← hStyle] at hCollects'
      simp only [Extraction.evaluate, hStep, hStep', List.map_cons]
      refine .cons ?_ (ih (housed_of_process hHoused hStep)
        (housed_of_process hHoused' hStep'))
      rw [quads_eq_written hHoused hTold.collects hStep,
        quads_eq_written hHoused' hCollects' hStep']
      refine Emission.written_match hTold.emissions κ.collects ?_
      intro hBoth k hk
      exact ⟨_, _, hTold.takes.paired hBoth k hk, rfl, rfl⟩

/-
  What an element states does not depend on an element before
  it: in any evaluation that is reached, both together and the
  second alone give the same quads at each event of the
  second, renamed one to one. Nodes that were made before
  either keep their names.
-/
theorem sibling_keeps_statements
    {settings : Settings}
    {base : String}
    {first d afterA final final' : State}
    {events a b : List Event}
    {sections sectionsA sectionsB sectionsB' : List (List Note)}
    (hStart : start settings base = .ok first)
    (hReached : Run first events sections d)
    (hA : Event.IsElement a)
    (hB : Event.IsElement b)
    (hRunA : Run d a sectionsA afterA)
    (hRunB : Run afterA b sectionsB' final')
    (hAlone : Run d b sectionsB final) :
    ∃ r : BlankNode → BlankNode,
      Function.Injective r ∧
        (∀ i, i < d.session.supply.count →
          r (NodeSupply.node i) = NodeSupply.node i) ∧
        sectionsB'.map Note.quads =
          (sectionsB.map Note.quads).map
            (List.map (Quad.renamed r)) := by
  have hSound := sound_of_run hStart hReached
  have hSound' := sound_of_run hStart (hReached.append hRunA)
  have hPaired := paired_after_nested hA.nested hRunA hSound hSound'
  have hEval := evaluate_of_run hAlone
  have hEval' := evaluate_of_run hRunB
  rcases evaluate_paired (hB.nested.within 0) (fun h => h)
      hSound.housed hPaired with
    ⟨_, last, last', _, _, V, hLast, hLast', hExtends, hFinal,
        hTraced⟩ |
      ⟨fault, _, _, hFault, _⟩
  · have hRename :
        ∀ x x', V.Nodes x x' → V.rename x = x' :=
      fun _ _ hNodes => Pairing.rename_of_nodes hFinal.supply hNodes
    have hSections :=
      hTraced.sections_match rfl hSound.housed hSound'.housed
    rw [hEval, hEval'] at hSections
    refine ⟨V.rename, Pairing.rename_injective hFinal.supply, ?_, ?_⟩
    · intro i hLt
      exact hRename _ _
        ⟨i, i, hExtends.pairs i i ⟨rfl, hLt⟩, rfl, rfl⟩
    · exact eq_map_of_forall₂
        (fun _ _ hOne => Quad.eq_map_renamed hRename hOne) hSections
  · rw [hEval] at hFault
    cases hFault

namespace Siblings

def settings : Settings :=
  ⟨.html, ⟨.collection, true, [("f", "http://f/")], []⟩⟩

def initial : State :=
  State.initial settings "http://ex/" ⟨"http://ex/"⟩

/- The evaluation inside an element about a new node. -/
def state : State :=
  initial.through
    [.opened "div" [] 0, .opened "div" [("typeof", "f:T")] 1]

/- An element that makes a node and collects a list. -/
def older : List Event :=
  [.opened "p" [("typeof", "f:T")] 2,
    .opened "b" [("property", "f:name"), ("inlist", "")] 3,
    .text "X", .closed "b" 3, .closed "p" 2]

/- An element that names a node. -/
def younger : List Event :=
  [.opened "p" [("rel", "f:knows"), ("resource", "_:x")] 2,
    .closed "p" 2]

theorem start_eq :
    start settings "http://ex/" = .ok initial :=
  start_of_document (by decide +kernel) (by decide +kernel) settings

theorem isElement_older :
    Event.IsElement older :=
  ⟨"p", _, 2, 2, _, .element "b" _ 3 3 (.text "X" .nil) .nil, rfl⟩

theorem isElement_younger :
    Event.IsElement younger :=
  ⟨"p", _, 2, 2, [], .nil, rfl⟩

end Siblings

open Siblings in
/- The node of the younger element gets another number alone. -/
theorem younger_sibling_renamed :
    (Extraction.evaluate (state.through older) younger).1 ≠
        (Extraction.evaluate state younger).1 ∧
      ∃ r : BlankNode → BlankNode,
        Function.Injective r ∧
          (∀ i, i < state.session.supply.count →
            r (NodeSupply.node i) = NodeSupply.node i) ∧
          (Extraction.evaluate (state.through older) younger).1.map
              Note.quads =
            ((Extraction.evaluate state younger).1.map Note.quads).map
              (List.map (Quad.renamed r)) := by
  refine ⟨by decide +kernel, ?_⟩
  exact sibling_keeps_statements start_eq
    (run_through (by decide +kernel)) isElement_older
    isElement_younger (run_through (by decide +kernel))
    (run_through (by decide +kernel))
    (run_through (by decide +kernel))

end Evaluation
end LinkedMarkup
