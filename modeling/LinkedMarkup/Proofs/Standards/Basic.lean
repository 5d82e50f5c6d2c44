import LinkedMarkup.Proofs.Evaluation.Emission
import LinkedMarkup.Proofs.Work.Secures

/-
  This file defines standards for what statements may hold,
  and proves that the primitive steps of the work on a
  document, which note quads and fill and write lists, meet
  any lawful standard, also when they fail.

  Key definitions include:
    * `Standard`
    * `Standard.Lawful`
    * `Standard.Lists`
    * `Standard.InSession`
    * `Standard.Secures`

  Main declarations:
    * `Standard.secures_state`
    * `Standard.secures_appendToList`
    * `Standard.secures_flushLists`
-/

namespace LinkedMarkup

/-
  A standard for statements: which subjects, predicates and
  objects may be held until they are stated, which IRIs may
  be types or datatypes, and which quads may be stated.
-/
structure Standard where
  subject : Subject → Prop
  predicate : Iri → Prop
  type : Iri → Prop
  datatype : Iri → Prop
  object : Object → Prop
  quad : Quad → Prop

namespace Standard

variable (T : Standard)

/-
  What a standard must allow so that only the predicates,
  types and datatypes that attributes name can fail it.
-/
structure Lawful : Prop where
  iri : ∀ i, Iri.parse? i.text = some i → T.subject (.iri i)
  node : ∀ n, T.subject (.blank (NodeSupply.node n))
  toObject : ∀ s, T.subject s → T.object s.toObject
  plain :
    ∀ value language l,
      Literal.make value none language = .ok l →
        T.object (.literal l)
  typed : ∀ value d, T.datatype d → T.object (.literal (.typed value d))
  moment :
    ∀ value d,
      Moment.datatype? value = some d →
        T.object (.literal (.typed value d))
  nil : T.object (.iri Rdf.nil)
  relation :
    ∀ s p o,
      T.subject s → T.predicate p → T.object o →
        T.quad (.triple s p o)
  typing :
    ∀ s c, T.subject s → T.type c →
      T.quad (.triple s Rdf.type (.iri c))
  usage :
    ∀ s o,
      T.subject s → T.object o →
        T.quad (.triple s Vocabulary.usesVocabulary o)
  first :
    ∀ s o, T.subject s → T.object o → T.quad (.triple s Rdf.first o)
  rest :
    ∀ s o, T.subject s → T.object o → T.quad (.triple s Rdf.rest o)

/- A subject that may be missing meets a standard. -/
def Optional
    (x : Option Subject) : Prop :=
  ∀ s ∈ x, T.subject s

/- Lists whose predicates and members meet a standard. -/
def Lists
    (lists : List (Iri × List Object)) : Prop :=
  ∀ entry ∈ lists, T.predicate entry.1 ∧ ∀ o ∈ entry.2, T.object o

/-
  A session whose quads and lists meet a standard, and which
  reports nothing but remarks.
-/
structure InSession
    (s : Session) : Prop where
  quads : ∀ q ∈ Note.quads s.notes.toList, T.quad q
  lists : ∀ i, T.Lists (s.lists.slot i).lists
  remarks : ∀ l ∈ Note.lines s.notes.toList, l.level = .debug

/-
  A step that keeps a session up to a standard, also when it
  fails, and gives a value for which `P` holds.
-/
abbrev Secures
    {α : Type}
    (w : Work α)
    (P : α → Prop) : Prop :=
  Work.Secures T.InSession w P

variable {T}

------------------------------------------------------------
-- Notes and nodes
------------------------------------------------------------

/- A session stays up to a standard with the notes that it adds. -/
theorem InSession.noted
    {s t : Session}
    (h : T.InSession s)
    {more : List Note}
    (hNotes : t.notes.toList = s.notes.toList ++ more)
    (hQuads : ∀ q ∈ Note.quads more, T.quad q)
    (hRemarks : ∀ l ∈ Note.lines more, l.level = .debug)
    (hLists : ∀ i, T.Lists (t.lists.slot i).lists) :
    T.InSession t where
  quads q hMem := by
    rw [hNotes, Note.quads_append] at hMem
    rcases List.mem_append.mp hMem with hOld | hNew
    · exact h.quads q hOld
    · exact hQuads q hNew
  lists := hLists
  remarks l hMem := by
    rw [hNotes, Note.lines_append] at hMem
    rcases List.mem_append.mp hMem with hOld | hNew
    · exact h.remarks l hOld
    · exact hRemarks l hNew

theorem secures_quad
    {q : Quad}
    (hQuad : T.quad q) :
    T.Secures (Work.note (.quad q)) (fun _ => True) := by
  intro s hs
  refine ⟨hs.noted Array.toList_push ?_ ?_ hs.lists,
    fun _ _ => trivial⟩
  · intro p hMem
    rw [List.mem_singleton.mp hMem]
    exact hQuad
  · intro l hMem
    cases hMem

theorem secures_remark
    (text : String) :
    T.Secures (Work.remark text) (fun _ => True) := by
  intro s hs
  refine ⟨hs.noted Array.toList_push ?_ ?_ hs.lists,
    fun _ _ => trivial⟩
  · intro p hMem
    cases hMem
  · intro l hMem
    rw [List.mem_singleton.mp hMem]

theorem secures_freshNode
    (hT : T.Lawful) :
    T.Secures Work.freshNode (fun b => T.subject (.blank b)) := by
  intro s hs
  refine ⟨⟨hs.quads, hs.lists, hs.remarks⟩, ?_⟩
  intro b hEq
  cases hEq
  exact hT.node _

theorem secures_labelledNode
    (hT : T.Lawful)
    (label : String) :
    T.Secures (Work.labelledNode label)
      (fun b => T.subject (.blank b)) := by
  intro s hs
  refine ⟨⟨hs.quads, hs.lists, hs.remarks⟩, ?_⟩
  intro b hEq
  cases hEq
  unfold NodeSupply.labelled
  split <;> exact hT.node _

/- What is stated meets the standard, or an end is missing. -/
theorem secures_state
    {subject : Option Subject}
    {predicate : Iri}
    {object : Option Object}
    (h :
      ∀ s ∈ subject, ∀ o ∈ object,
        T.quad (.triple s predicate o)) :
    T.Secures (Work.state subject predicate object)
      (fun _ => True) := by
  cases subject with
  | none => exact Work.secures_fail _
  | some s =>
      cases object with
      | none => cases s <;> exact Work.secures_fail _
      | some o =>
          rw [Coupling.state_some]
          exact secures_quad (h s rfl o rfl)

------------------------------------------------------------
-- Filling lists
------------------------------------------------------------

/- New mappings have no lists yet. -/
theorem secures_rootList
    (collects : Bool) :
    T.Secures (Work.rootList collects) (fun _ => True) := by
  intro s hs
  refine ⟨⟨hs.quads, ?_, hs.remarks⟩, fun _ _ => trivial⟩
  intro i
  change T.Lists ((s.lists.root collects).2.slot i).lists
  rw [ListForest.slot_root]
  split
  · intro entry hMem
    cases hMem
  · exact hs.lists i

theorem secures_childList
    (id : Nat) :
    T.Secures (Work.childList id) (fun _ => True) := by
  intro s hs
  refine ⟨⟨hs.quads, ?_, hs.remarks⟩, fun _ _ => trivial⟩
  intro i
  change T.Lists ((s.lists.child id).2.slot i).lists
  rw [ListForest.slot_child]
  split
  · intro entry hMem
    cases hMem
  · exact hs.lists i

theorem Lists.opened
    {lists : List (Iri × List Object)}
    (h : T.Lists lists)
    {p : Iri}
    (hPredicate : T.predicate p) :
    T.Lists (ListForest.opened lists p) := by
  unfold ListForest.opened
  split
  · exact h
  · intro entry hMem
    rcases List.mem_append.mp hMem with hOld | hNew
    · exact h entry hOld
    · rw [List.mem_singleton.mp hNew]
      exact ⟨hPredicate, by simp⟩

theorem Lists.extended
    {lists : List (Iri × List Object)}
    (h : T.Lists lists)
    {p : Iri}
    {value : Object}
    (hPredicate : T.predicate p)
    (hValue : T.object value) :
    T.Lists (ListForest.extended lists p value) := by
  induction lists with
  | nil =>
      intro entry hMem
      rw [List.mem_singleton.mp hMem]
      exact ⟨hPredicate, by simpa using hValue⟩
  | cons first rest ih =>
      rcases first with ⟨q, members⟩
      have hFirst := h (q, members) List.mem_cons_self
      have hRest : T.Lists rest :=
        fun entry hMem => h entry (List.mem_cons_of_mem _ hMem)
      unfold ListForest.extended
      split
      · intro entry hMem
        rcases List.mem_cons.mp hMem with rfl | hTail
        · refine ⟨hFirst.1, ?_⟩
          intro o hMember
          rcases List.mem_append.mp hMember with hOld | hNew
          · exact hFirst.2 o hOld
          · rw [List.mem_singleton.mp hNew]
            exact hValue
        · exact hRest entry hTail
      · intro entry hMem
        rcases List.mem_cons.mp hMem with rfl | hTail
        · exact hFirst
        · exact ih hRest entry hTail

/- New lists of a mapping go to its owner. -/
theorem InSession.setLists
    {s : Session}
    (h : T.InSession s)
    (id : Nat)
    {lists : List (Iri × List Object)}
    (hLists : T.Lists lists) :
    T.InSession { s with lists := s.lists.setLists id lists } where
  quads := h.quads
  lists i := by
    dsimp only
    rw [ListForest.slot_setLists]
    split
    · exact hLists
    · exact h.lists i
  remarks := h.remarks

theorem secures_ensureList
    (id : Nat)
    {p : Iri}
    (hPredicate : T.predicate p) :
    T.Secures (Work.ensureList id p) (fun _ => True) := by
  intro s hs
  refine ⟨?_, fun _ _ => trivial⟩
  unfold Work.ensureList ListForest.ensure
  cases s.lists.flushed id with
  | true => exact hs
  | false =>
      exact hs.setLists id (Lists.opened (hs.lists _) hPredicate)

theorem secures_appendToList
    (id : Nat)
    {p : Iri}
    {value : Object}
    (hPredicate : T.predicate p)
    (hValue : T.object value) :
    T.Secures (Work.appendToList id p value) (fun _ => True) := by
  intro s hs
  refine ⟨?_, fun _ _ => trivial⟩
  unfold Work.appendToList ListForest.append
  cases s.lists.flushed id with
  | true => exact hs
  | false =>
      have hNext :=
        hs.setLists id
          (Lists.extended (hs.lists (s.lists.slot id).owner)
            hPredicate hValue)
      refine hNext.noted Array.toList_push ?_ ?_ hNext.lists
      · intro q hMem
        cases hMem
      · intro l hMem
        cases hMem

------------------------------------------------------------
-- Writing lists
------------------------------------------------------------

/- The links of a collection over nodes of the supply. -/
theorem quad_of_mem_ofLinks
    (hT : T.Lawful)
    {pairs : List (BlankNode × Object)}
    (hNodes : ∀ pair ∈ pairs, T.subject (.blank pair.1))
    (hMembers : ∀ pair ∈ pairs, T.object pair.2)
    {q : Quad}
    (h : q ∈ Quad.ofLinks pairs) :
    T.quad q := by
  induction pairs with
  | nil => cases h
  | cons pair rest ih =>
      have hNode := hNodes pair List.mem_cons_self
      rcases List.mem_cons.mp h with rfl | hTail
      · exact hT.first _ _ hNode (hMembers pair List.mem_cons_self)
      · rcases List.mem_cons.mp hTail with rfl | hRest
        · refine hT.rest _ _ hNode ?_
          cases rest with
          | nil => exact hT.nil
          | cons next others =>
              exact hT.toObject _
                (hNodes next
                  (List.mem_cons_of_mem _ List.mem_cons_self))
        · exact ih
            (fun x hMem => hNodes x (List.mem_cons_of_mem _ hMem))
            (fun x hMem => hMembers x (List.mem_cons_of_mem _ hMem))
            hRest

theorem quad_of_mem_ofMembers
    (hT : T.Lawful)
    {subject : Subject}
    {predicate : Iri}
    {members : List Object}
    (hSubject : T.subject subject)
    (hPredicate : T.predicate predicate)
    (hMembers : ∀ o ∈ members, T.object o)
    {q : Quad}
    (h : q ∈ Quad.ofMembers subject predicate members) :
    T.quad q := by
  cases members with
  | nil =>
      rw [List.mem_singleton.mp h]
      exact hT.relation _ _ _ hSubject hPredicate hT.nil
  | cons first rest =>
      rcases List.mem_map.mp h with ⟨o, hMem, rfl⟩
      exact hT.relation _ _ _ hSubject hPredicate (hMembers o hMem)

theorem quad_of_mem_ofCollection
    (hT : T.Lawful)
    {subject : Subject}
    {predicate : Iri}
    {nodes : List BlankNode}
    {members : List Object}
    (hSubject : T.subject subject)
    (hPredicate : T.predicate predicate)
    (hNodes : ∀ b ∈ nodes, T.subject (.blank b))
    (hMembers : ∀ o ∈ members, T.object o)
    {q : Quad}
    (h : q ∈ Quad.ofCollection subject predicate nodes members) :
    T.quad q := by
  cases nodes with
  | nil =>
      rw [List.mem_singleton.mp h]
      exact hT.relation _ _ _ hSubject hPredicate hT.nil
  | cons head tail =>
      rcases List.mem_cons.mp h with rfl | hLinks
      · exact hT.relation _ _ _ hSubject hPredicate
          (hT.toObject _ (hNodes head List.mem_cons_self))
      · refine quad_of_mem_ofLinks hT ?_ ?_ hLinks
        · exact fun pair hMem => hNodes _ (List.of_mem_zip hMem).1
        · exact fun pair hMem => hMembers _ (List.of_mem_zip hMem).2

theorem quad_of_mem_ofLists
    (hT : T.Lawful)
    (collects : Bool)
    {subject : Subject}
    (hSubject : T.subject subject)
    {lists : List (Iri × List Object)}
    (hLists : T.Lists lists)
    (supply : NodeSupply)
    {q : Quad}
    (h : q ∈ (Quad.ofLists collects subject lists supply).1) :
    T.quad q := by
  induction lists generalizing supply with
  | nil => cases h
  | cons entry rest ih =>
      rcases entry with ⟨predicate, members⟩
      have hEntry := hLists (predicate, members) List.mem_cons_self
      have hRest : T.Lists rest :=
        fun entry hMem => hLists entry (List.mem_cons_of_mem _ hMem)
      cases collects with
      | true =>
          rcases List.mem_append.mp h with hHere | hMore
          · refine quad_of_mem_ofCollection hT hSubject hEntry.1 ?_
              hEntry.2 hHere
            intro b hMem
            rcases List.mem_map.mp hMem with ⟨n, _, rfl⟩
            exact hT.node n
          · exact ih hRest _ hMore
      | false =>
          rcases List.mem_append.mp h with hHere | hMore
          · exact quad_of_mem_ofMembers hT hSubject hEntry.1 hEntry.2
              hHere
          · exact ih hRest _ hMore

theorem InSession.marked
    {s : Session}
    (h : T.InSession s)
    (id : Nat)
    (supply : NodeSupply) :
    T.InSession
      { s with lists := s.lists.marked id, supply := supply } where
  quads := h.quads
  lists i := by
    dsimp only
    rw [ListForest.lists_marked]
    exact h.lists i
  remarks := h.remarks

/- Flushed lists are written for a subject, or not at all. -/
theorem secures_flushLists
    (hT : T.Lawful)
    (id : Nat)
    {subject : Option Subject}
    (hSubject : T.Optional subject) :
    T.Secures (Work.flushLists id subject) (fun _ => True) := by
  intro s hs
  refine ⟨?_, fun _ _ => trivial⟩
  by_cases hOpen : s.lists.flushed id = false
  · by_cases hLists : (s.lists.slot id).lists = []
    · rw [Work.flushLists_of_lists_eq_nil hOpen hLists]
      exact hs.marked id s.supply
    · cases subject with
      | none =>
          rw [Work.flushLists_none hOpen hLists]
          exact hs.marked id s.supply
      | some x =>
          rw [Work.flushLists_eq hOpen]
          have hMarked :=
            hs.marked id
              (Quad.ofLists (s.lists.slot id).collects x
                (s.lists.slot id).lists s.supply).2
          refine hs.noted Array.toList_append ?_ ?_ hMarked.lists
          · intro q hMem
            rw [List.toList_toArray, Note.quads_map_quad] at hMem
            exact quad_of_mem_ofLists hT _ (hSubject x rfl)
              (hs.lists id) _ hMem
          · intro l hMem
            rw [List.toList_toArray, Note.lines_map_quad] at hMem
            cases hMem
  · rw [Work.flushLists_of_flushed (by simpa using hOpen)]
    exact hs

end Standard
end LinkedMarkup
