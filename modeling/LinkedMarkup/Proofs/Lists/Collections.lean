import LinkedMarkup.Proofs.Lists.Factories
import LinkedMarkup.Proofs.Lists.Histories
import LinkedMarkup.Proofs.Lists.Strands
import LinkedMarkup.Proofs.Renaming.Supply

/-
  This file proves that lists which were written as collections
  can be read back from the quads that a flush returns, if the
  factory never makes the same node twice.

  Key definitions include:
    * `ListForest.strands`
    * `ListForest.memberCount`

  Main declarations:
    * `ListForest.apart_strands`
    * `ListForest.flushBy_eq`
    * `ListForest.collections_read_back`
-/

namespace LinkedMarkup
namespace ListForest

------------------------------------------------------------
-- Strands of a factory
------------------------------------------------------------

/- The strands of lists, with the nodes of a factory. -/
def strands
    (factory : Nat → BlankNode) :
    List (Iri × List Object) → Nat → List Strand
  | [], _ => []
  | (p, members) :: rest, made =>
      ⟨p, (drawn factory made members.length).zip members⟩ ::
        strands factory rest (made + members.length)

/- How many members there are in lists. -/
def memberCount :
    List (Iri × List Object) → Nat
  | [] => 0
  | (_, members) :: rest => members.length + memberCount rest

section Factories

variable {factory : Nat → BlankNode}
variable {lists : List (Iri × List Object)}

@[simp] theorem length_drawn
    (factory : Nat → BlankNode)
    (made n : Nat) :
    (drawn factory made n).length = n := by
  simp [drawn]

theorem map_strands
    (factory : Nat → BlankNode)
    (lists : List (Iri × List Object))
    (made : Nat) :
    (strands factory lists made).map
        (fun s => (s.predicate, s.members)) =
      lists := by
  induction lists generalizing made with
  | nil => rfl
  | cons entry rest ih =>
      rcases entry with ⟨p, members⟩
      rw [strands, List.map_cons, ih]
      unfold Strand.members
      rw [List.map_snd_zip (by simp)]

/- The nodes of all strands are drawn one after the other. -/
theorem flatMap_nodes_strands
    (factory : Nat → BlankNode)
    (lists : List (Iri × List Object))
    (made : Nat) :
    (strands factory lists made).flatMap Strand.nodes =
      drawn factory made (memberCount lists) := by
  induction lists generalizing made with
  | nil => rfl
  | cons entry rest ih =>
      rcases entry with ⟨p, members⟩
      rw [strands, List.flatMap_cons, ih]
      unfold Strand.nodes
      rw [List.map_fst_zip (by simp)]
      unfold drawn
      rw [← List.map_append, memberCount, ← List.range'_append_1]

theorem apart_strands
    (hFactory : Function.Injective factory)
    (hKeys : (lists.map Prod.fst).Nodup)
    {subject : Subject}
    {made : Nat}
    (hSubject :
      ∀ node ∈ drawn factory made (memberCount lists),
        subject ≠ .blank node) :
    Strand.Apart subject (strands factory lists made) := by
  refine ⟨?_, ?_, ?_⟩
  · rw [← map_strands factory lists made, List.map_map] at hKeys
    exact hKeys
  · rw [flatMap_nodes_strands]
    exact List.Nodup.map hFactory List.nodup_range'
  · intro s hs node hNode
    apply hSubject
    rw [← flatMap_nodes_strands]
    exact List.mem_flatMap.mpr ⟨s, hs, hNode⟩

theorem ofCollection_eq_quads
    (subject : Subject)
    (p : Iri)
    {nodes : List BlankNode}
    {members : List Object}
    (hLength : nodes.length = members.length) :
    Quad.ofCollection subject p nodes members =
      Strand.quads subject ⟨p, nodes.zip members⟩ := by
  cases nodes with
  | nil => rfl
  | cons node rest =>
      cases members with
      | nil => cases hLength
      | cons member others => rfl

/- Lists of terms are written as their strands, without fail. -/
theorem writtenAllBy_eq
    (factory : Nat → BlankNode)
    (subject : Subject)
    (lists : List (Iri × List Object))
    (made : Nat) :
    writtenAllBy factory true (some subject.toTerm) lists made =
      (.ok ((strands factory lists made).flatMap (Strand.quads subject)),
        made + memberCount lists) := by
  induction lists generalizing made with
  | nil => rfl
  | cons entry rest ih =>
      rcases entry with ⟨p, members⟩
      have hWritten :
          writtenBy factory true (some subject.toTerm)
              (AsTerm.asTerm p) (members.map AsTerm.asTerm) made =
            (.ok (Strand.quads subject
              ⟨p, (drawn factory made members.length).zip members⟩),
              made + members.length) := by
        rw [← ofCollection_eq_quads subject p (by simp)]
        unfold writtenBy
        cases members with
        | nil =>
            have hNil :
                statement (some subject.toTerm) (some (.iri p))
                    (some (.iri Rdf.nil)) =
                  .ok (.triple subject p (.iri Rdf.nil)) :=
              statement_eq subject p (.iri Rdf.nil)
            simp only [List.map_nil, List.isEmpty_nil, if_true,
              asTerm_iri, hNil]
            rfl
        | cons member others =>
            have hNodes :
                drawn factory made (member :: others).length ≠ [] := by
              simp [drawn, List.range'_succ]
            have hCollection :=
              collection_eq subject p _ (member :: others) hNodes
            simp only [List.isEmpty_map, List.isEmpty_cons,
              List.length_map, asTerm_iri, hCollection,
              Bool.false_eq_true, if_false, if_true]
      rw [writtenAllBy, hWritten]
      dsimp only
      rw [ih]
      rw [memberCount, ← Nat.add_assoc]
      rfl

/- What the first flush of a mapping writes as collections. -/
theorem flushBy_eq
    {f : ListForest Iri Object}
    {id : Nat}
    (hOpen : f.flushed id = false)
    (hCollects : (f.slot id).collects = true)
    (factory : Nat → BlankNode)
    (subject : Subject)
    (made : Nat) :
    (f.flushBy factory id (some subject.toTerm) made).1 =
      .ok ((strands factory (f.slot id).lists made).flatMap
        (Strand.quads subject)) := by
  have hSlot : (f.slot id).flushed = false := hOpen
  unfold flushBy
  simp only [hSlot, Bool.false_eq_true, if_false, Option.isNone_some,
    hCollects, writtenAllBy_eq]
  by_cases hLists : (f.slot id).lists = []
  · rw [if_pos (List.isEmpty_iff.mpr hLists), hLists]
    rfl
  · rw [if_neg (fun hEmpty => hLists (List.isEmpty_iff.mp hEmpty))]

end Factories

------------------------------------------------------------
-- Reading back
------------------------------------------------------------

/-
  The quads that the first flush of a mapping returns, written
  as collections with the nodes of a factory that never makes
  the same node twice, give back the lists of its tree. With
  a supply, a mapping is flushed with the nodes of the supply.
-/
theorem collections_read_back
    {n : Nat}
    {h : History n}
    {m : Nat}
    (hOpen : h.firstFlush? m = none)
    (hCollects : h.collects m = true)
    {factory : Nat → BlankNode}
    (hFactory : Function.Injective factory)
    {subject : Subject}
    {made : Nat}
    (hSubject :
      ∀ node ∈ drawn factory made
          (memberCount (Use.lists (h.uses m))),
        subject ≠ .blank node) :
    (∃ quads,
      (h.forest.flushBy factory m (some subject.toTerm) made).1 =
          .ok quads ∧
        ReadBack subject quads (Use.lists (h.uses m))) ∧
    ∀ supply,
      (h.forest.flush m (some subject.toTerm) supply).1 =
        (h.forest.flushBy NodeSupply.node m (some subject.toTerm)
          supply.count).1 := by
  constructor
  · have hFlushed : h.forest.flushed m = false := by
      rw [History.flushed_forest, hOpen]
      rfl
    have hStyle : (h.forest.slot m).collects = true := by
      rw [History.collects_forest, hCollects]
    rw [flushBy_eq hFlushed hStyle, History.lists_forest]
    refine ⟨_, rfl, ?_⟩
    have hApart :=
      apart_strands hFactory (Use.nodup_keys_lists (h.uses m)) hSubject
    have hBack := hApart.readBack
    rw [map_strands] at hBack
    exact hBack
  · intro supply
    rw [flush_eq_flushBy]

/- A list of two members, and an empty one. -/
def twoCollections : History 2 :=
  .use
    (.use
      (.use (.child (.root .start true) (Fin.last 0))
        (Fin.last 0).castSucc
        ⟨⟨"http://ex.org/item"⟩, some (.literal (.plain "one"))⟩)
      (Fin.last 1)
      ⟨⟨"http://ex.org/item"⟩, some (.literal (.plain "two"))⟩)
    (Fin.last 1) ⟨⟨"http://ex.org/other"⟩, none⟩

theorem twoCollections_read_back :
    twoCollections.firstFlush? 0 = none ∧
      twoCollections.collects 0 = true ∧
      Function.Injective NodeSupply.node ∧
      (∀ node ∈ drawn NodeSupply.node 0
          (memberCount (Use.lists (twoCollections.uses 0))),
        Subject.iri ⟨"http://ex/#list"⟩ ≠ .blank node) ∧
      ∃ quads,
        (twoCollections.forest.flush 0
            (some (Subject.iri ⟨"http://ex/#list"⟩).toTerm) .empty).1 =
          .ok quads ∧
        quads.length = 6 ∧
        ReadBack (.iri ⟨"http://ex/#list"⟩) quads
          [(⟨"http://ex.org/item"⟩,
              [.literal (.plain "one"), .literal (.plain "two")]),
            (⟨"http://ex.org/other"⟩, [])] := by
  have hSubject :
      ∀ node ∈ drawn NodeSupply.node 0
          (memberCount (Use.lists (twoCollections.uses 0))),
        Subject.iri ⟨"http://ex/#list"⟩ ≠ .blank node := by
    intro node _ hEq
    cases hEq
  rcases collections_read_back (h := twoCollections) (m := 0) rfl rfl
      NodeSupply.node_injective hSubject with
    ⟨⟨quads, hFlush, hBack⟩, hSupply⟩
  refine ⟨rfl, rfl, NodeSupply.node_injective, hSubject, quads, ?_, ?_, ?_⟩
  · rw [hSupply]
    exact hFlush
  · have hLength :
        (twoCollections.forest.flushBy NodeSupply.node 0
          (some (Subject.iri ⟨"http://ex/#list"⟩).toTerm) 0).1.map
            List.length = .ok 6 := by
      decide
    rw [hFlush] at hLength
    exact Except.ok.inj hLength
  · have hLists :
        Use.lists (twoCollections.uses 0) =
          [(⟨"http://ex.org/item"⟩,
              [.literal (.plain "one"), .literal (.plain "two")]),
            (⟨"http://ex.org/other"⟩, [])] := by
      decide
    rw [← hLists]
    exact hBack

end ListForest
end LinkedMarkup
