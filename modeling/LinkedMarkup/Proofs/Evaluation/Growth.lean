import LinkedMarkup.Proofs.Evaluation.Emission
import LinkedMarkup.Proofs.Renaming.Supply

/-
  This file proves what events leave of the session they are
  processed in. Labels keep their numbers and get new ones
  only beyond those in use; well-nested events flush only list
  mappings of their own.

  Key definitions include:
    * `NodeSupply.Extends`
    * `ListForest.Extends`
    * `Evaluation.Extends`

  Main declarations:
    * `Evaluation.supply_of_process`
    * `Evaluation.nodes_of_process`
    * `Evaluation.extends_of_run_nested`
-/

namespace LinkedMarkup

------------------------------------------------------------
-- Supplies
------------------------------------------------------------

namespace NodeSupply

/-
  A supply that has gone on from another: labels that had a
  number keep it, and the numbers of other labels are new.
-/
structure Extends
    (s t : NodeSupply) : Prop where
  count : s.count ≤ t.count
  kept :
    ∀ label i, s.number? label = some i → t.number? label = some i
  made :
    ∀ label j, s.number? label = none → t.number? label = some j →
      s.count ≤ j

theorem Extends.refl
    (s : NodeSupply) :
    Extends s s where
  count := Nat.le_refl _
  kept _ _ h := h
  made label j hNone hSome := by
    rw [hNone] at hSome
    cases hSome

theorem Extends.trans
    {s t u : NodeSupply}
    (hST : Extends s t)
    (hTU : Extends t u) :
    Extends s u where
  count := Nat.le_trans hST.count hTU.count
  kept label i h := hTU.kept label i (hST.kept label i h)
  made label j hNone hSome := by
    cases hMiddle : t.number? label with
    | none =>
        exact Nat.le_trans hST.count (hTU.made label j hMiddle hSome)
    | some i =>
        rw [hTU.kept label i hMiddle] at hSome
        cases hSome
        exact hST.made label _ hNone hMiddle

theorem extends_freshMany
    (s : NodeSupply)
    (n : Nat) :
    Extends s (s.freshMany n).2 where
  count := Nat.le_add_right _ _
  kept _ _ h := h
  made := (Extends.refl s).made

theorem extends_fresh
    (s : NodeSupply) :
    Extends s s.fresh.2 :=
  s.extends_freshMany 1

theorem extends_labelled
    (s : NodeSupply)
    (label : String) :
    Extends s (s.labelled label).2 := by
  unfold labelled
  cases hSeen : s.number? label with
  | some i => exact .refl s
  | none =>
      refine ⟨Nat.le_succ _, ?_, ?_⟩
      · intro other i hOther
        rw [number?_cons, if_neg]
        · exact hOther
        · rintro rfl
          rw [hSeen] at hOther
          cases hOther
      · intro other j hNone hSome
        rw [number?_cons] at hSome
        split at hSome
        · cases hSome
          exact Nat.le_refl _
        · exact (Extends.refl s).made other j hNone hSome

theorem extends_supplyAfter
    (collects : Bool)
    (emissions : List Emission)
    (s : NodeSupply) :
    Extends s (Emission.supplyAfter collects emissions s) := by
  unfold Emission.supplyAfter
  split
  · exact s.extends_freshMany _
  · exact .refl s

end NodeSupply

------------------------------------------------------------
-- Forests
------------------------------------------------------------

namespace ListForest

variable {P V : Type}

/-
  A forest that has gone on from another: the mappings that
  were there have kept their owners and have not been flushed
  since.
-/
structure Extends
    (f g : ListForest P V) : Prop where
  size : f.slots.size ≤ g.slots.size
  owner :
    ∀ l, l < f.slots.size → (g.slot l).owner = (f.slot l).owner
  flushed : ∀ l, l < f.slots.size → g.flushed l = f.flushed l

theorem Extends.trans
    {f g h : ListForest P V}
    (hFG : Extends f g)
    (hGH : Extends g h) :
    Extends f h where
  size := Nat.le_trans hFG.size hGH.size
  owner l hl := by
    rw [hGH.owner l (Nat.lt_of_lt_of_le hl hFG.size), hFG.owner l hl]
  flushed l hl := by
    rw [hGH.flushed l (Nat.lt_of_lt_of_le hl hFG.size),
      hFG.flushed l hl]

theorem SameShape.extends
    {f g : ListForest P V}
    (h : SameShape f g) :
    Extends f g where
  size := Nat.le_of_eq h.size_eq.symm
  owner l _ := h.owner_eq l
  flushed l _ := h.flushed_eq l

theorem Extends.refl
    (f : ListForest P V) :
    Extends f f :=
  (SameShape.refl f).extends

theorem extends_root
    (f : ListForest P V)
    (collects : Bool) :
    Extends f (f.root collects).2 where
  size := by
    rw [size_root]
    exact Nat.le_succ _
  owner l hl := by
    rw [slot_root, if_neg (Nat.ne_of_lt hl)]
  flushed l _ := flushed_root f collects l

theorem extends_child
    (f : ListForest P V)
    (id : Nat) :
    Extends f (f.child id).2 where
  size := by
    rw [size_child]
    exact Nat.le_succ _
  owner l hl := by
    rw [slot_child, if_neg (Nat.ne_of_lt hl)]
  flushed l _ := flushed_child f id l

/- A flush of a newer mapping leaves those that were there. -/
theorem Extends.marked
    {f g : ListForest P V}
    (h : Extends f g)
    {id : Nat}
    (hNew : f.slots.size ≤ id) :
    Extends f (g.marked id) where
  size := by
    rw [size_marked]
    exact h.size
  owner l hl := by
    rw [owner_marked]
    exact h.owner l hl
  flushed l hl := by
    rw [flushed_marked, if_neg]
    · exact h.flushed l hl
    · rintro ⟨rfl, _⟩
      exact Nat.not_lt_of_le hNew hl

end ListForest

namespace Evaluation

open Work

------------------------------------------------------------
-- Supplies of single events
------------------------------------------------------------

/- A session whose supply has gone on from a given one. -/
def SuppliedFrom
    (supply : NodeSupply)
    (_ : Nat → Prop)
    (s : Session) : Prop :=
  supply.Extends s.supply

theorem keeps_suppliedFrom
    (supply : NodeSupply) :
    Work.Keeps (SuppliedFrom supply) (fun _ => True) where
  quad _ _ _ h := h
  line _ _ _ h := h
  fresh _ s h := h.trans s.supply.extends_fresh
  labelled _ s label h := h.trans (s.supply.extends_labelled label)
  value _ _ := trivial

theorem keepsFilling_suppliedFrom
    (supply : NodeSupply) :
    Work.KeepsFilling (SuppliedFrom supply) (fun _ => True) where
  ensure _ _ _ _ h _ _ := h
  append _ _ _ _ _ h _ _ := h
  flushed _ _ _ _ _ _ _ := trivial

theorem keepsMaking_suppliedFrom
    (supply : NodeSupply)
    (collects : Bool) :
    Work.KeepsMaking (SuppliedFrom supply) collects where
  root _ _ h := h
  child _ _ _ h _ := h

theorem supply_of_openElement
    {settings : Settings}
    {parent : Scope}
    {isRoot : Bool}
    {name : String}
    {attributes : Entries}
    {s t : Session}
    {e : Element}
    (h :
      openElement settings parent isRoot name attributes s =
        (.ok e, t)) :
    s.supply.Extends t.supply := by
  have hStart : SuppliedFrom s.supply (fun _ => True) s :=
    NodeSupply.Extends.refl s.supply
  rcases (keeps_suppliedFrom s.supply).openElement
      (keepsFilling_suppliedFrom s.supply)
      (keepsMaking_suppliedFrom s.supply _) (uses_true parent)
      (.inl ⟨trivial, trivial⟩ : _ ∨ Anchored settings parent isRoot)
      hStart name attributes with
    ⟨hOk, _⟩
  rcases hOk e t h with ⟨_, _, hAfter, _⟩
  exact hAfter

theorem supply_of_completeElement
    {e : Element}
    {s t : Session}
    (h : completeElement e s = (.ok (), t)) :
    s.supply.Extends t.supply := by
  have hUses : e.Uses (fun _ => True) :=
    ⟨uses_true e.scope, trivial, fun _ _ => trivial⟩
  have hStart : SuppliedFrom s.supply (fun _ => True) s :=
    NodeSupply.Extends.refl s.supply
  rcases (keeps_suppliedFrom s.supply).completeElement
      (keepsFilling_suppliedFrom s.supply) hUses hStart with
    ⟨hOk, _⟩
  rcases hOk () t h with ⟨_, _, hAfter⟩
  exact hAfter

/- What a flush leaves of the supply. -/
theorem supply_of_flushLists
    {s t : Session}
    {list : Nat}
    {subject : Option Subject}
    (hOpen : s.lists.flushed list = false)
    (h : flushLists list subject s = (.ok (), t)) :
    t.supply =
      Emission.supplyAfter (s.lists.slot list).collects
        (Emission.ofLists subject (s.lists.slot list).lists)
        s.supply := by
  rcases flush_cases hOpen h with
    ⟨x, rfl, hSupply, _⟩ | ⟨rfl, _, hSupply, _⟩
  · rw [hSupply, Emission.ofLists_eq_written]
  · rw [hSupply, Emission.ofLists, Emission.supplyAfter_nil]

/- Any event leaves the numbers of labels as they are. -/
theorem supply_of_process
    {d d' : State}
    {event : Event}
    {notes : List Note}
    (hHoused : Housed d)
    (h : process d event = (.ok d', notes)) :
    d.session.supply.Extends d'.session.supply := by
  rcases process_ok_cases h with
    ⟨name, attributes, depth, e, t, rfl, hOpen, rfl, _⟩ |
      ⟨data, rfl, rfl, _⟩ |
      ⟨name, depth, e, rest, m, t, rfl, hElements, _, hComplete,
        hFlush, rfl, _⟩
  · have hSupply := supply_of_openElement hOpen
    exact hSupply
  · exact .refl d.session.supply
  · have hUnflushed := hHoused.unflushed hElements hComplete
    refine (supply_of_completeElement hComplete).trans ?_
    change m.supply.Extends t.supply
    rw [supply_of_flushLists hUnflushed hFlush]
    exact NodeSupply.extends_supplyAfter _ _ m.supply

/-
  The nodes that the lists of an event take as collections
  are new, and none of them is made again after it.
-/
theorem nodes_of_process
    {d d' : State}
    {event : Event}
    {notes : List Note}
    (hHoused : Housed d)
    (hCollects :
      ∀ l, l < d.session.lists.slots.size →
        (d.session.lists.slot l).collects = true)
    (h : process d event = (.ok d', notes)) :
    d.session.supply.count ≤ firstNode d event ∧
      firstNode d event + Emission.nodeCount (emissions d event) ≤
        d'.session.supply.count := by
  have hStated :
      closing? d event = none →
        d.session.supply.count ≤ firstNode d event ∧
          firstNode d event +
              Emission.nodeCount (emissions d event) ≤
            d'.session.supply.count := by
    intro hNone
    have hCount := (supply_of_process hHoused h).count
    unfold firstNode emissions
    rw [hNone]
    dsimp only
    rw [Emission.nodeCount_stated]
    exact ⟨Nat.le_refl _, hCount⟩
  rcases process_ok_cases h with
    ⟨name, attributes, depth, e, t, rfl, _⟩ | ⟨data, rfl, _⟩ |
      ⟨name, depth, e, rest, m, t, rfl, hElements, hName, hComplete,
        hFlush, rfl, rfl⟩
  · exact hStated rfl
  · exact hStated rfl
  · have hClosing := closing?_eq_some hElements hName depth
    have hUnflushed := hHoused.unflushed hElements hComplete
    have hStyle : (m.lists.slot e.list).collects = true := by
      rw [(sameShape_of_completeElement hComplete).collects_eq]
      exact hCollects e.list (hHoused.uses_top hElements).list
    have hSupply := supply_of_flushLists hUnflushed hFlush
    rw [hStyle, Emission.supplyAfter, if_pos rfl] at hSupply
    rw [emissions_of_closing hClosing hComplete,
      firstNode_of_closing hClosing hComplete,
      Emission.nodeCount_append, Emission.nodeCount_stated,
      Nat.zero_add]
    refine ⟨(supply_of_completeElement hComplete).count, ?_⟩
    change _ ≤ t.supply.count
    rw [hSupply]
    exact Nat.le_refl _

------------------------------------------------------------
-- Whole elements
------------------------------------------------------------

/-
  An evaluation that has gone on from another one, without
  touching the mappings that were there but for their members.
-/
structure Extends
    (d d' : State) : Prop where
  supply : d.session.supply.Extends d'.session.supply
  lists : d.session.lists.Extends d'.session.lists

theorem Extends.refl
    (d : State) :
    Extends d d :=
  ⟨.refl _, .refl _⟩

theorem Extends.trans
    {d m d' : State}
    (hFirst : Extends d m)
    (hSecond : Extends m d') :
    Extends d d' :=
  ⟨hFirst.supply.trans hSecond.supply,
    hFirst.lists.trans hSecond.lists⟩

/- A start tag only adds a mapping. -/
theorem extends_of_openElement
    {settings : Settings}
    {parent : Scope}
    {isRoot : Bool}
    {name : String}
    {attributes : Entries}
    {s t : Session}
    {e : Element}
    (h :
      openElement settings parent isRoot name attributes s =
        (.ok e, t)) :
    s.lists.Extends t.lists := by
  have hOpened :=
    openElement_opened settings parent isRoot name attributes s e t h
  by_cases hOwns : OwnsLists parent e.subject
  · exact (ListForest.extends_root s.lists _).trans
      (hOpened.root hOwns).extends
  · exact (ListForest.extends_child s.lists _).trans
      (hOpened.child hOwns).extends

/-
  Well-nested events flush only list mappings that they made
  themselves: every end tag closes an element opened since.
-/
theorem extends_of_run_nested
    {events : List Event}
    (hNested : Event.Nested events)
    {d d' : State}
    {sections : List (List Note)}
    (hHoused : Housed d)
    (h : Run d events sections d') :
    Extends d d' := by
  induction hNested generalizing d d' sections with
  | nil =>
      cases h
      exact .refl d
  | text data _ ih =>
      cases h with
      | cons hStep hRest =>
          have hRestExtends := ih (housed_of_process hHoused hStep) hRest
          cases hStep
          exact ⟨hRestExtends.supply, hRestExtends.lists⟩
  | element name attributes depth depth' hInner _ ihInner ihRest =>
      cases h with
      | cons hOpen hAfter =>
          rcases hAfter.split with ⟨m, _, _, hRunInner, hLast, rfl⟩
          cases hLast with
          | cons hClose hRest =>
              have hHousedOpen := housed_of_process hHoused hOpen
              have hHousedInner := housed_of_run hHousedOpen hRunInner
              have hHousedClose := housed_of_process hHousedInner hClose
              refine Extends.trans ⟨?_, ?_⟩ (ihRest hHousedClose hRest)
              · exact ((supply_of_process hHoused hOpen).trans
                  (ihInner hHousedOpen hRunInner).supply).trans
                  (supply_of_process hHousedInner hClose)
              · have hLists := (ihInner hHousedOpen hRunInner).lists
                have hBare := (run_nested hInner hRunInner).2.2
                rcases process_opened hOpen with ⟨e, t, hRead, rfl⟩
                rcases process_closed hClose with
                  ⟨e', rest', s, u, hCons, _, hComplete, hFlush, rfl,
                    _⟩
                rw [hCons] at hBare
                have hTop : e'.bare = e.bare := (List.cons.inj hBare).1
                have hOwn : e'.bare.list = e.bare.list := by rw [hTop]
                have hNew : e.list = d.session.lists.slots.size :=
                  (openElement_opened _ _ _ _ _ _ _ _ hRead).list_eq
                have hBetween : d.session.lists.Extends s.lists :=
                  ((extends_of_openElement hRead).trans hLists).trans
                    (sameShape_of_completeElement hComplete).extends
                have hMarked :=
                  lists_of_flushLists
                    (hHousedInner.unflushed hCons hComplete) hFlush
                change d.session.lists.Extends u.lists
                rw [hMarked]
                exact hBetween.marked
                  (Nat.le_of_eq (hNew.symm.trans hOwn.symm))

end Evaluation
end LinkedMarkup
