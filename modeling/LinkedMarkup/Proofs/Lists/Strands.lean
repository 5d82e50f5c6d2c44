import LinkedMarkup.Proofs.Lists.Writing
import Mathlib.Data.List.Nodup
import Mathlib.Data.List.Pairwise
import Mathlib.Data.Set.Basic

/-
  This file defines how lists are read from quads, and proves
  that the quads of several collections determine each of
  them, in whatever order they are: following the links from
  a predicate's head gives its members, if the collections
  share no node.

  Key definitions include:
    * `Quad.Only`
    * `Quad.Spells`
    * `Quad.ReadsAs`
    * `Quad.isOfCollection`
    * `ListForest.Strand`
    * `ListForest.Strand.Apart`
    * `ListForest.ReadBack`

  Main declarations:
    * `Quad.ReadsAs.unique`
    * `ListForest.Strand.Apart.readsAs`
    * `ListForest.Strand.Apart.readBack`
-/

namespace LinkedMarkup

------------------------------------------------------------
-- Reading collections
------------------------------------------------------------

namespace Quad

/- A set has one quad of a subject and a predicate, with an object. -/
def Only
    (quads : Set Quad)
    (subject : Subject)
    (predicate : Iri)
    (object : Object) : Prop :=
  ∀ q, (q ∈ quads ∧ q.subject = subject ∧ q.predicate = predicate) ↔
    q = .triple subject predicate object

/-
  Following the links of a set of quads from an object gives
  these nodes, one after the other up to the empty list, with
  these members. Every node has one member and one successor.
-/
inductive Spells
    (quads : Set Quad) :
    Object → List BlankNode → List Object → Prop where
  | nil : Spells quads (.iri Rdf.nil) [] []
  | cons
      {node : BlankNode}
      {member following : Object}
      {nodes : List BlankNode}
      {members : List Object}
      (first : Only quads (.blank node) Rdf.first member)
      (rest : Only quads (.blank node) Rdf.rest following)
      (more : Spells quads following nodes members) :
      Spells quads (.blank node) (node :: nodes) (member :: members)

/- A subject has one collection for a predicate, with members. -/
def ReadsAs
    (quads : Set Quad)
    (subject : Subject)
    (predicate : Iri)
    (nodes : List BlankNode)
    (members : List Object) : Prop :=
  ∃ head, Only quads subject predicate head ∧
    Spells quads head nodes members

/- A quad relates a subject to a collection, or links its nodes. -/
def isOfCollection
    (subject : Subject)
    (predicate : Iri)
    (nodes : List BlankNode)
    (q : Quad) : Bool :=
  decide ((q.subject = subject ∧ q.predicate = predicate) ∨
    ∃ node ∈ nodes, q.subject = .blank node)

section Reading

variable {quads : Set Quad} {subject : Subject} {predicate : Iri}

theorem Only.mem
    {object : Object}
    (h : Only quads subject predicate object) :
    .triple subject predicate object ∈ quads :=
  ((h _).mpr rfl).1

theorem Only.unique
    {o o' : Object}
    (h : Only quads subject predicate o)
    (h' : Only quads subject predicate o') :
    o = o' :=
  congrArg Quad.object ((h' _).mp ⟨h.mem, rfl, rfl⟩)

variable {nodes nodes' : List BlankNode} {members members' : List Object}

/- There are as many nodes to follow as there are members. -/
theorem Spells.length_eq
    {o : Object}
    (h : Spells quads o nodes members) :
    nodes.length = members.length := by
  induction h with
  | nil => rfl
  | cons _ _ _ ih => exact congrArg (· + 1) ih

/- What an object spells is determined by the quads. -/
theorem Spells.unique
    {o : Object}
    (h : Spells quads o nodes members)
    (h' : Spells quads o nodes' members') :
    nodes = nodes' ∧ members = members' := by
  induction h generalizing nodes' members' with
  | nil =>
      cases h' with
      | nil => exact ⟨rfl, rfl⟩
  | cons first rest _ ih =>
      cases h' with
      | cons first' rest' more' =>
          rw [← rest.unique rest'] at more'
          rcases ih more' with ⟨rfl, rfl⟩
          rw [first.unique first']
          exact ⟨rfl, rfl⟩

theorem ReadsAs.unique
    (h : ReadsAs quads subject predicate nodes members)
    (h' : ReadsAs quads subject predicate nodes' members') :
    nodes = nodes' ∧ members = members' := by
  rcases h with ⟨head, hHead, hSpells⟩
  rcases h' with ⟨head', hHead', hSpells'⟩
  rw [← hHead.unique hHead'] at hSpells'
  exact hSpells.unique hSpells'

end Reading

------------------------------------------------------------
-- Links
------------------------------------------------------------

/- Where a collection of nodes starts. -/
def start :
    List (BlankNode × Object) → Object
  | [] => .iri Rdf.nil
  | (node, _) :: _ => .blank node

section Links

variable {pairs : List (BlankNode × Object)} {q : Quad}

theorem ofLinks_cons
    (node : BlankNode)
    (member : Object)
    (rest : List (BlankNode × Object)) :
    ofLinks ((node, member) :: rest) =
      .triple (.blank node) Rdf.first member ::
        .triple (.blank node) Rdf.rest (start rest) ::
        ofLinks rest := by
  cases rest with
  | nil => rfl
  | cons pair others => rfl

/- Links are about the nodes that they link. -/
theorem subject_of_mem_ofLinks
    (h : q ∈ ofLinks pairs) :
    ∃ node ∈ pairs.map Prod.fst, q.subject = .blank node := by
  induction pairs with
  | nil => cases h
  | cons pair rest ih =>
      rcases pair with ⟨node, member⟩
      rw [ofLinks_cons] at h
      rcases List.mem_cons.mp h with rfl | hTail
      · exact ⟨node, List.mem_cons_self, rfl⟩
      · rcases List.mem_cons.mp hTail with rfl | hRest
        · exact ⟨node, List.mem_cons_self, rfl⟩
        · rcases ih hRest with ⟨other, hMem, hSubject⟩
          exact ⟨other, List.mem_cons_of_mem _ hMem, hSubject⟩

/- A node that occurs once has two links. -/
theorem mem_ofLinks_iff
    {before after : List (BlankNode × Object)}
    {node : BlankNode}
    {member : Object}
    (hNodup :
      ((before ++ (node, member) :: after).map Prod.fst).Nodup) :
    (q ∈ ofLinks (before ++ (node, member) :: after) ∧
      q.subject = .blank node) ↔
      q = .triple (.blank node) Rdf.first member ∨
        q = .triple (.blank node) Rdf.rest (start after) := by
  induction before with
  | nil =>
      rw [List.nil_append, List.map_cons, List.nodup_cons] at hNodup
      rw [List.nil_append, ofLinks_cons]
      constructor
      · rintro ⟨hMem, hSubject⟩
        rcases List.mem_cons.mp hMem with hFirst | hTail
        · exact .inl hFirst
        · rcases List.mem_cons.mp hTail with hRest | hMore
          · exact .inr hRest
          · rcases subject_of_mem_ofLinks hMore with ⟨other, hOther, hEq⟩
            rw [hSubject] at hEq
            cases hEq
            exact absurd hOther hNodup.1
      · rintro (rfl | rfl)
        · exact ⟨List.mem_cons_self, rfl⟩
        · exact ⟨List.mem_cons_of_mem _ List.mem_cons_self, rfl⟩
  | cons pair rest ih =>
      rcases pair with ⟨other, value⟩
      rw [List.cons_append, List.map_cons, List.nodup_cons] at hNodup
      have hNe : ¬ Subject.blank other = Subject.blank node := by
        intro hEq
        cases hEq
        exact hNodup.1 (by simp)
      rw [List.cons_append, ofLinks_cons, ← ih hNodup.2]
      constructor
      · rintro ⟨hMem, hSubject⟩
        rcases List.mem_cons.mp hMem with rfl | hTail
        · exact absurd hSubject hNe
        · rcases List.mem_cons.mp hTail with rfl | hMore
          · exact absurd hSubject hNe
          · exact ⟨hMore, hSubject⟩
      · rintro ⟨hMem, hSubject⟩
        exact ⟨List.mem_cons_of_mem _ (List.mem_cons_of_mem _ hMem),
          hSubject⟩

theorem length_ofLinks
    (pairs : List (BlankNode × Object)) :
    (ofLinks pairs).length = 2 * pairs.length := by
  induction pairs with
  | nil => rfl
  | cons pair rest ih =>
      rcases pair with ⟨node, member⟩
      rw [ofLinks_cons, List.length_cons, List.length_cons, ih,
        List.length_cons]
      omega

/- Links of different nodes are different. -/
theorem nodup_ofLinks
    (hNodup : (pairs.map Prod.fst).Nodup) :
    (ofLinks pairs).Nodup := by
  induction pairs with
  | nil => exact List.nodup_nil
  | cons pair rest ih =>
      rcases pair with ⟨node, member⟩
      rw [List.map_cons, List.nodup_cons] at hNodup
      have hNew :
          ∀ {q : Quad}, q.subject = .blank node → q ∉ ofLinks rest := by
        intro q hSubject hMem
        rcases subject_of_mem_ofLinks hMem with ⟨other, hOther, hEq⟩
        rw [hSubject] at hEq
        cases hEq
        exact hNodup.1 hOther
      rw [ofLinks_cons, List.nodup_cons, List.nodup_cons, List.mem_cons]
      refine ⟨?_, hNew rfl, ih hNodup.2⟩
      rintro (hSame | hMem)
      · have hPredicate : Rdf.first = Rdf.rest :=
          congrArg Quad.predicate hSame
        exact absurd hPredicate (by decide)
      · exact hNew rfl hMem

end Links

end Quad

------------------------------------------------------------
-- Strands
------------------------------------------------------------

namespace ListForest

/- A list that is written: a predicate, and members on nodes. -/
structure Strand where
  predicate : Iri
  pairs : List (BlankNode × Object)

namespace Strand

open Quad (Only Spells ReadsAs start ofLinks)

def nodes
    (s : Strand) : List BlankNode :=
  s.pairs.map Prod.fst

def members
    (s : Strand) : List Object :=
  s.pairs.map Prod.snd

/- The quads of a strand: its head, and the links of its nodes. -/
def quads
    (subject : Subject)
    (s : Strand) : List Quad :=
  .triple subject s.predicate (start s.pairs) :: ofLinks s.pairs

/-
  Strands with different predicates, that share no node with
  each other or with the subject.
-/
structure Apart
    (subject : Subject)
    (strands : List Strand) : Prop where
  predicates : (strands.map predicate).Nodup
  nodes : (strands.flatMap nodes).Nodup
  subject : ∀ s ∈ strands, ∀ node ∈ s.nodes, subject ≠ .blank node

section Apart

variable {subject : Subject} {strands : List Strand} {s t : Strand}

/- A quad of a strand is its head, or it is about its nodes. -/
theorem mem_quads_cases
    {q : Quad}
    (h : q ∈ s.quads subject) :
    q = .triple subject s.predicate (start s.pairs) ∨
      (q ∈ ofLinks s.pairs ∧ ∃ node ∈ s.nodes, q.subject = .blank node) := by
  rcases List.mem_cons.mp h with hHead | hLinks
  · exact .inl hHead
  · exact .inr ⟨hLinks, Quad.subject_of_mem_ofLinks hLinks⟩

theorem Apart.same_of_predicate
    (h : Apart subject strands)
    (hs : s ∈ strands)
    (ht : t ∈ strands)
    (hEq : s.predicate = t.predicate) :
    s = t :=
  List.inj_on_of_nodup_map h.predicates hs ht hEq

theorem Apart.same_of_node
    (h : Apart subject strands)
    (hs : s ∈ strands)
    (ht : t ∈ strands)
    {node : BlankNode}
    (hNode : node ∈ s.nodes)
    (hNode' : node ∈ t.nodes) :
    s = t := by
  by_contra hNe
  have hSymm : Std.Symm (Function.onFun List.Disjoint Strand.nodes) :=
    ⟨fun _ _ hDisjoint => List.disjoint_symm hDisjoint⟩
  exact (List.nodup_flatMap.mp h.nodes).2.forall hs ht hNe hNode hNode'

theorem Apart.nodup_nodes
    (h : Apart subject strands)
    (hs : s ∈ strands) :
    s.nodes.Nodup :=
  (List.nodup_flatMap.mp h.nodes).1 s hs

/- The head of a strand is the one quad for its predicate. -/
theorem Apart.only_head
    (h : Apart subject strands)
    (hs : s ∈ strands) :
    Only {q | q ∈ strands.flatMap (quads subject)} subject
      s.predicate (start s.pairs) := by
  intro q
  constructor
  · rintro ⟨hMem, hSubject, hPredicate⟩
    rcases List.mem_flatMap.mp hMem with ⟨t, ht, hq⟩
    rcases mem_quads_cases hq with rfl | ⟨_, node, hNode, hBlank⟩
    · rw [h.same_of_predicate ht hs hPredicate]
    · exact absurd (hSubject.symm.trans hBlank) (h.subject t ht node hNode)
  · rintro rfl
    exact ⟨List.mem_flatMap.mpr ⟨s, hs, List.mem_cons_self⟩, rfl, rfl⟩

/- A node of a strand has the two links that the strand gives it. -/
theorem Apart.links_iff
    (h : Apart subject strands)
    (hs : s ∈ strands)
    {before after : List (BlankNode × Object)}
    {node : BlankNode}
    {member : Object}
    (hPairs : s.pairs = before ++ (node, member) :: after)
    (q : Quad) :
    (q ∈ strands.flatMap (quads subject) ∧ q.subject = .blank node) ↔
      q = .triple (.blank node) Rdf.first member ∨
        q = .triple (.blank node) Rdf.rest (start after) := by
  have hNode : node ∈ s.nodes := by
    unfold Strand.nodes
    rw [hPairs]
    simp
  have hNodup := h.nodup_nodes hs
  unfold Strand.nodes at hNodup
  rw [hPairs] at hNodup
  rw [← Quad.mem_ofLinks_iff hNodup, ← hPairs]
  constructor
  · rintro ⟨hMem, hSubject⟩
    refine ⟨?_, hSubject⟩
    rcases List.mem_flatMap.mp hMem with ⟨t, ht, hq⟩
    rcases mem_quads_cases hq with rfl | ⟨hLinks, other, hOther, hBlank⟩
    · exact absurd hSubject (h.subject s hs node hNode)
    · rw [hSubject] at hBlank
      cases hBlank
      rw [h.same_of_node hs ht hNode hOther]
      exact hLinks
  · rintro ⟨hLinks, hSubject⟩
    exact ⟨List.mem_flatMap.mpr ⟨s, hs, List.mem_cons_of_mem _ hLinks⟩,
      hSubject⟩

theorem Apart.only_links
    (h : Apart subject strands)
    (hs : s ∈ strands)
    {before after : List (BlankNode × Object)}
    {node : BlankNode}
    {member : Object}
    (hPairs : s.pairs = before ++ (node, member) :: after) :
    Only {q | q ∈ strands.flatMap (quads subject)} (.blank node)
        Rdf.first member ∧
      Only {q | q ∈ strands.flatMap (quads subject)} (.blank node)
        Rdf.rest (start after) := by
  have hLinks := h.links_iff hs hPairs
  have hNe : Rdf.first ≠ Rdf.rest := by decide
  constructor
  · intro q
    constructor
    · rintro ⟨hMem, hSubject, hPredicate⟩
      rcases (hLinks q).mp ⟨hMem, hSubject⟩ with hFirst | rfl
      · exact hFirst
      · exact absurd hPredicate.symm hNe
    · rintro rfl
      exact ⟨((hLinks _).mpr (.inl rfl)).1, rfl, rfl⟩
  · intro q
    constructor
    · rintro ⟨hMem, hSubject, hPredicate⟩
      rcases (hLinks q).mp ⟨hMem, hSubject⟩ with rfl | hRest
      · exact absurd hPredicate hNe
      · exact hRest
    · rintro rfl
      exact ⟨((hLinks _).mpr (.inr rfl)).1, rfl, rfl⟩

/- From any of its nodes on, a strand spells what is left of it. -/
theorem Apart.spells
    (h : Apart subject strands)
    (hs : s ∈ strands)
    {before after : List (BlankNode × Object)}
    (hPairs : s.pairs = before ++ after) :
    Spells {q | q ∈ strands.flatMap (quads subject)} (start after)
      (after.map Prod.fst) (after.map Prod.snd) := by
  induction after generalizing before with
  | nil => exact .nil
  | cons pair rest ih =>
      rcases pair with ⟨node, member⟩
      rcases h.only_links hs hPairs with ⟨hFirst, hRest⟩
      have hNext : s.pairs = (before ++ [(node, member)]) ++ rest := by
        rw [hPairs, List.append_assoc]
        rfl
      exact .cons hFirst hRest (ih hNext)

/- A strand reads as its members, on its nodes. -/
theorem Apart.readsAs
    (h : Apart subject strands)
    (hs : s ∈ strands) :
    ReadsAs {q | q ∈ strands.flatMap (quads subject)} subject
      s.predicate s.nodes s.members :=
  ⟨start s.pairs, h.only_head hs, h.spells hs (List.nil_append _).symm⟩

/- What can be read is one of the strands. -/
theorem Apart.exists_of_readsAs
    (h : Apart subject strands)
    {p : Iri}
    {nodes : List BlankNode}
    {members : List Object}
    (hReads :
      ReadsAs {q | q ∈ strands.flatMap (quads subject)} subject p
        nodes members) :
    ∃ s ∈ strands,
      s.predicate = p ∧ s.nodes = nodes ∧ s.members = members := by
  rcases id hReads with ⟨head, hHead, _⟩
  rcases List.mem_flatMap.mp hHead.mem with ⟨s, hs, hq⟩
  have hPredicate : s.predicate = p := by
    rcases mem_quads_cases hq with hEq | ⟨_, node, hNode, hBlank⟩
    · exact (congrArg Quad.predicate hEq).symm
    · exact absurd hBlank (h.subject s hs node hNode)
  subst hPredicate
  exact ⟨s, hs, rfl, (h.readsAs hs).unique hReads⟩

theorem nodup_quads
    (hNodup : s.nodes.Nodup)
    (hSubject : ∀ node ∈ s.nodes, subject ≠ .blank node) :
    (s.quads subject).Nodup := by
  refine List.nodup_cons.mpr ⟨?_, Quad.nodup_ofLinks hNodup⟩
  intro hMem
  rcases Quad.subject_of_mem_ofLinks hMem with ⟨node, hNode, hBlank⟩
  exact hSubject node hNode hBlank

/- No quad of strands is written twice. -/
theorem Apart.nodup_flatMap_quads
    (h : Apart subject strands) :
    (strands.flatMap (quads subject)).Nodup := by
  refine List.nodup_flatMap.mpr ⟨?_, ?_⟩
  · intro s hs
    exact nodup_quads (h.nodup_nodes hs) (h.subject s hs)
  · apply (List.Nodup.of_map _ h.predicates).pairwise_of_forall_ne
    intro s hs t ht hNe q hq hq'
    apply hNe
    rcases mem_quads_cases hq with hHead | ⟨_, node, hNode, hBlank⟩
    · rcases mem_quads_cases hq' with hHead' | ⟨_, node, hNode, hBlank⟩
      · rw [hHead] at hHead'
        exact h.same_of_predicate hs ht (congrArg Quad.predicate hHead')
      · rw [hHead] at hBlank
        exact absurd hBlank (h.subject t ht node hNode)
    · rcases mem_quads_cases hq' with hHead' | ⟨_, other, hOther, hBlank'⟩
      · rw [hHead'] at hBlank
        exact absurd hBlank (h.subject s hs node hNode)
      · rw [hBlank] at hBlank'
        cases hBlank'
        exact h.same_of_node hs ht hNode hOther

theorem length_quads
    (subject : Subject)
    (s : Strand) :
    (s.quads subject).length = 2 * s.members.length + 1 := by
  unfold quads members
  rw [List.length_cons, Quad.length_ofLinks, List.length_map]

/- The quads that belong to a strand are those that it gives. -/
theorem Apart.length_ofCollection
    (h : Apart subject strands)
    (hs : s ∈ strands) :
    ((strands.flatMap (quads subject)).filter
      (Quad.isOfCollection subject s.predicate s.nodes)).length =
        2 * s.members.length + 1 := by
  have hOwn :
      ∀ q ∈ s.quads subject,
        Quad.isOfCollection subject s.predicate s.nodes q = true := by
    intro q hq
    unfold Quad.isOfCollection
    rcases mem_quads_cases hq with rfl | ⟨_, node, hNode, hBlank⟩
    · exact decide_eq_true (.inl ⟨rfl, rfl⟩)
    · exact decide_eq_true (.inr ⟨node, hNode, hBlank⟩)
  have hOther :
      ∀ t ∈ strands, t ≠ s →
        (t.quads subject).filter
          (Quad.isOfCollection subject s.predicate s.nodes) = [] := by
    intro t ht hNe
    rw [List.filter_eq_nil_iff]
    intro q hq hOf
    apply hNe
    unfold Quad.isOfCollection at hOf
    rcases of_decide_eq_true hOf with
      ⟨hSubject, hPredicate⟩ | ⟨node, hNode, hBlank⟩
    · rcases mem_quads_cases hq with rfl | ⟨_, node, hNode, hBlank⟩
      · exact h.same_of_predicate ht hs hPredicate
      · rw [hSubject] at hBlank
        exact absurd hBlank (h.subject t ht node hNode)
    · rcases mem_quads_cases hq with rfl | ⟨_, other, hOther, hBlank'⟩
      · exact absurd hBlank (h.subject s hs node hNode)
      · rw [hBlank] at hBlank'
        cases hBlank'
        exact h.same_of_node ht hs hOther hNode
  -- What is before and after the strand gives nothing.
  have hNodup := List.Nodup.of_map _ h.predicates
  rcases List.append_of_mem hs with ⟨before, after, rfl⟩
  rw [List.nodup_middle, List.nodup_cons] at hNodup
  have hNothing :
      ∀ others : List Strand, (∀ t ∈ others, t ∈ before ++ after) →
        others.flatMap (fun t => (t.quads subject).filter
          (Quad.isOfCollection subject s.predicate s.nodes)) = [] := by
    intro others hOthers
    rw [List.flatMap_eq_nil_iff]
    intro t ht
    refine hOther t ?_ ?_
    · rcases List.mem_append.mp (hOthers t ht) with hOld | hNew
      · exact List.mem_append.mpr (.inl hOld)
      · exact List.mem_append.mpr (.inr (List.mem_cons_of_mem _ hNew))
    · rintro rfl
      exact hNodup.1 (hOthers t ht)
  have hBefore :=
    hNothing before (fun t ht => List.mem_append.mpr (.inl ht))
  have hAfter :=
    hNothing after (fun t ht => List.mem_append.mpr (.inr ht))
  rw [List.filter_flatMap, List.flatMap_append, List.flatMap_cons,
    hBefore, hAfter, List.nil_append, List.append_nil,
    List.filter_eq_self.mpr hOwn, length_quads]

end Apart

end Strand

------------------------------------------------------------
-- Reading back
------------------------------------------------------------

/-
  The set of these quads determines lists: what it reads as
  are the lists, each on nodes of its own, as many as it has
  members, in two quads for each member and one more.
-/
structure ReadBack
    (subject : Subject)
    (quads : List Quad)
    (lists : List (Iri × List Object)) : Prop where
  nodup : quads.Nodup
  lists_iff :
    ∀ p members, (p, members) ∈ lists ↔
      ∃ nodes, Quad.ReadsAs {q | q ∈ quads} subject p nodes members
  apart :
    ∀ p p' nodes nodes' members members', p ≠ p' →
      Quad.ReadsAs {q | q ∈ quads} subject p nodes members →
        Quad.ReadsAs {q | q ∈ quads} subject p' nodes' members' →
          nodes.Disjoint nodes'
  size :
    ∀ p nodes members,
      Quad.ReadsAs {q | q ∈ quads} subject p nodes members →
        nodes.Nodup ∧ nodes.length = members.length ∧
          (quads.filter (Quad.isOfCollection subject p nodes)).length =
            2 * members.length + 1

theorem Strand.Apart.readBack
    {subject : Subject}
    {strands : List Strand}
    (h : Strand.Apart subject strands) :
    ReadBack subject (strands.flatMap (Strand.quads subject))
      (strands.map (fun s => (s.predicate, s.members))) where
  nodup := h.nodup_flatMap_quads
  lists_iff p members := by
    constructor
    · intro hMem
      rcases List.mem_map.mp hMem with ⟨s, hs, hEntry⟩
      cases hEntry
      exact ⟨s.nodes, h.readsAs hs⟩
    · rintro ⟨nodes, hReads⟩
      rcases h.exists_of_readsAs hReads with ⟨s, hs, rfl, _, rfl⟩
      exact List.mem_map.mpr ⟨s, hs, rfl⟩
  apart p p' nodes nodes' members members' hNe hReads hReads' := by
    rcases h.exists_of_readsAs hReads with ⟨s, hs, rfl, rfl, _⟩
    rcases h.exists_of_readsAs hReads' with ⟨t, ht, rfl, rfl, _⟩
    intro node hNode hNode'
    exact hNe (congrArg Strand.predicate
      (h.same_of_node hs ht hNode hNode'))
  size p nodes members hReads := by
    rcases h.exists_of_readsAs hReads with ⟨s, hs, rfl, rfl, rfl⟩
    rcases hReads with ⟨_, _, hSpells⟩
    exact ⟨h.nodup_nodes hs, hSpells.length_eq, h.length_ofCollection hs⟩

end ListForest
end LinkedMarkup
