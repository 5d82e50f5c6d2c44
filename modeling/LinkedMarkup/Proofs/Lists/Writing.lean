import LinkedMarkup.Annotation.Work
import LinkedMarkup.Proofs.Lists.Forest

/-
  This file proves what the lists of a mapping are written as
  when they are flushed: by member, or as collections whose
  nodes come from the supply. Members are terms, so writing
  them for a subject never fails.

  Key definitions include:
    * `Quad.ofMembers`
    * `Quad.ofLinks`
    * `Quad.ofCollection`
    * `Quad.ofLists`

  Main declarations:
    * `ListForest.writtenAll_eq`
    * `ListForest.flush_eq`
    * `Work.flushLists_eq`
-/

namespace LinkedMarkup

------------------------------------------------------------
-- Written forms
------------------------------------------------------------

namespace Quad

/- The quads of a list by member; none gives the empty list. -/
def ofMembers
    (subject : Subject)
    (predicate : Iri)
    (members : List Object) : List Quad :=
  match members with
  | [] => [.triple subject predicate (.iri Rdf.nil)]
  | _ :: _ => members.map (Quad.triple subject predicate)

/- The quads that link the nodes of a collection. -/
def ofLinks :
    List (BlankNode × Object) → List Quad
  | [] => []
  | (node, member) :: rest =>
      .triple (.blank node) Rdf.first member ::
        .triple (.blank node) Rdf.rest
          (match rest with
          | [] => .iri Rdf.nil
          | (next, _) :: _ => .blank next) ::
        ofLinks rest

/- The quads of a list as a collection with given nodes. -/
def ofCollection
    (subject : Subject)
    (predicate : Iri)
    (nodes : List BlankNode)
    (members : List Object) : List Quad :=
  match nodes with
  | [] => [.triple subject predicate (.iri Rdf.nil)]
  | head :: _ =>
      .triple subject predicate (.blank head) ::
        ofLinks (nodes.zip members)

/- The quads of several lists, and the supply after them. -/
def ofLists
    (collects : Bool)
    (subject : Subject) :
    List (Iri × List Object) → NodeSupply →
      List Quad × NodeSupply
  | [], supply => ([], supply)
  | (predicate, members) :: rest, supply =>
      if collects then
        let made := supply.freshMany members.length
        let more := ofLists collects subject rest made.2
        (ofCollection subject predicate made.1 members ++ more.1,
          more.2)
      else
        let more := ofLists collects subject rest supply
        (ofMembers subject predicate members ++ more.1, more.2)

end Quad

------------------------------------------------------------
-- Writing
------------------------------------------------------------

namespace ListForest

@[simp] theorem asTerm_iri
    (i : Iri) :
    AsTerm.asTerm i = some (Term.iri i) := rfl

@[simp] theorem asTerm_object
    (o : Object) :
    AsTerm.asTerm o = some o.toTerm := rfl

/- A statement of well-kinded terms is the quad of them. -/
theorem statement_eq
    (subject : Subject)
    (predicate : Iri)
    (object : Object) :
    statement (some subject.toTerm) (some (.iri predicate))
        (some object.toTerm) =
      .ok (.triple subject predicate object) := by
  cases subject <;> cases object <;> rfl

theorem mapM_statement_eq
    (subject : Subject)
    (predicate : Iri)
    (members : List Object) :
    (members.map AsTerm.asTerm).mapM
        (fun member =>
          statement (some subject.toTerm) (some (.iri predicate))
            member) =
      .ok (members.map (Quad.triple subject predicate)) := by
  induction members with
  | nil => rfl
  | cons member rest ih =>
      rw [List.map_cons, List.mapM_cons, ih, asTerm_object,
        statement_eq]
      rfl

theorem links_eq
    (pairs : List (BlankNode × Object)) :
    links (pairs.map (fun pair => (pair.1, some pair.2.toTerm))) =
      .ok (Quad.ofLinks pairs) := by
  induction pairs with
  | nil => rfl
  | cons pair rest ih =>
      rcases pair with ⟨node, member⟩
      have hFirst :
          statement (some (.blank node)) (some (.iri Rdf.first))
              (some member.toTerm) =
            .ok (.triple (.blank node) Rdf.first member) :=
        statement_eq (.blank node) Rdf.first member
      cases rest with
      | nil =>
          have hLink :
              statement (some (.blank node)) (some (.iri Rdf.rest))
                  (some (.iri Rdf.nil)) =
                .ok (.triple (.blank node) Rdf.rest
                  (.iri Rdf.nil)) :=
            statement_eq (.blank node) Rdf.rest (.iri Rdf.nil)
          simp only [List.map_cons, List.map_nil, links, hFirst,
            hLink]
          rfl
      | cons next others =>
          rcases next with ⟨following, other⟩
          have hLink :
              statement (some (.blank node)) (some (.iri Rdf.rest))
                  (some (.blank following)) =
                .ok (.triple (.blank node) Rdf.rest
                  (.blank following)) :=
            statement_eq (.blank node) Rdf.rest (.blank following)
          rw [List.map_cons] at ih ⊢
          rw [List.map_cons] at ⊢
          rw [links]
          simp only [hFirst, hLink, ih]
          rfl

theorem collection_eq
    (subject : Subject)
    (predicate : Iri)
    (nodes : List BlankNode)
    (members : List Object)
    (hNodes : nodes ≠ []) :
    collection (some subject.toTerm) (some (.iri predicate)) nodes
        (members.map AsTerm.asTerm) =
      .ok (Quad.ofCollection subject predicate nodes members) := by
  cases nodes with
  | nil => exact absurd rfl hNodes
  | cons head tail =>
      have hHead :
          statement (some subject.toTerm) (some (.iri predicate))
              (some (.blank head)) =
            .ok (.triple subject predicate (.blank head)) :=
        statement_eq subject predicate (.blank head)
      have hZip :
          (head :: tail).zip (members.map AsTerm.asTerm) =
            ((head :: tail).zip members).map
              (fun pair => (pair.1, some pair.2.toTerm)) := by
        rw [List.zip_map_right]
        rfl
      unfold collection
      rw [hZip, links_eq]
      simp only [List.head?_cons, Option.map_some, hHead]
      rfl

/- Lists of terms are written without fail. -/
theorem writtenAll_eq
    (collects : Bool)
    (subject : Subject)
    (lists : List (Iri × List Object))
    (supply : NodeSupply) :
    writtenAll collects (some subject.toTerm) lists supply =
      (.ok (Quad.ofLists collects subject lists supply).1,
        (Quad.ofLists collects subject lists supply).2) := by
  induction lists generalizing supply with
  | nil => rfl
  | cons entry rest ih =>
      rcases entry with ⟨predicate, members⟩
      cases members with
      | nil =>
          have hNil :
              statement (some subject.toTerm)
                  (some (.iri predicate)) (some (.iri Rdf.nil)) =
                .ok (.triple subject predicate (.iri Rdf.nil)) :=
            statement_eq subject predicate (.iri Rdf.nil)
          cases collects with
          | true =>
              simp [writtenAll, written, hNil, ih, Quad.ofLists,
                Quad.ofCollection, NodeSupply.freshMany, Except.map]
          | false =>
              simp [writtenAll, written, hNil, ih, Quad.ofLists,
                Quad.ofMembers, Except.map]
      | cons member others =>
          cases collects with
          | true =>
              have hNodes :
                  (supply.freshMany
                    (member :: others).length).1 ≠ [] := by
                simp [NodeSupply.freshMany, List.range'_succ]
              have hWritten :=
                collection_eq subject predicate _
                  (member :: others) hNodes
              simp only [writtenAll, written, asTerm_iri,
                List.isEmpty_map, List.isEmpty_cons,
                List.length_map, hWritten, ih, Quad.ofLists]
              rfl
          | false =>
              have hWritten :=
                mapM_statement_eq subject predicate
                  (member :: others)
              simp only [writtenAll, written, asTerm_iri,
                List.isEmpty_map, List.isEmpty_cons, hWritten, ih,
                Quad.ofLists]
              rfl

------------------------------------------------------------
-- Flushing
------------------------------------------------------------

/- A forest in which one mapping is marked as flushed. -/
def marked
    {P V : Type}
    (f : ListForest P V)
    (id : Nat) : ListForest P V :=
  f.setSlot id { f.slot id with flushed := true }

/- Flushing a mapping for a subject writes its lists. -/
theorem flush_eq
    {f : ListForest Iri Object}
    {id : Nat}
    (h : f.flushed id = false)
    (subject : Subject)
    (supply : NodeSupply) :
    f.flush id (some subject.toTerm) supply =
      (.ok (Quad.ofLists (f.slot id).collects subject
          (f.slot id).lists supply).1,
        f.marked id,
        (Quad.ofLists (f.slot id).collects subject
          (f.slot id).lists supply).2) := by
  have hSlot : (f.slot id).flushed = false := h
  unfold flush
  simp only [hSlot, Bool.false_eq_true, if_false,
    Option.isNone_some, writtenAll_eq]
  by_cases hLists : (f.slot id).lists = []
  · have hNothing :
        Quad.ofLists (f.slot id).collects subject
          (f.slot id).lists supply = ([], supply) := by
      rw [hLists]
      rfl
    rw [if_pos (List.isEmpty_iff.mpr hLists), hNothing]
    rfl
  · rw [if_neg (fun hEmpty => hLists (List.isEmpty_iff.mp hEmpty))]
    rfl

/- A mapping that owns no list is flushed for any subject. -/
theorem flush_of_lists_eq_nil
    {P V : Type}
    [AsTerm P]
    [AsTerm V]
    {f : ListForest P V}
    {id : Nat}
    (h : f.flushed id = false)
    (hLists : (f.slot id).lists = [])
    (subject : Option Term)
    (supply : NodeSupply) :
    f.flush id subject supply = (.ok [], f.marked id, supply) := by
  have hSlot : (f.slot id).flushed = false := h
  unfold flush
  simp only [hSlot, Bool.false_eq_true, if_false]
  rw [if_pos (List.isEmpty_iff.mpr hLists)]
  rfl

/- Lists cannot be flushed without a subject. -/
theorem flush_none_of_lists_ne_nil
    {f : ListForest Iri Object}
    {id : Nat}
    (h : f.flushed id = false)
    (hLists : (f.slot id).lists ≠ [])
    (supply : NodeSupply) :
    f.flush id none supply =
      (.error .listWithoutSubject, f.marked id, supply) := by
  have hSlot : (f.slot id).flushed = false := h
  unfold flush
  simp only [hSlot, Bool.false_eq_true, if_false,
    List.isEmpty_iff, hLists, Option.isNone_none, if_true]
  rfl

/- Marking a mapping keeps the lists and all other mappings. -/
theorem slot_marked
    {P V : Type}
    (f : ListForest P V)
    (id i : Nat) :
    (f.marked id).slot i =
      if i = id ∧ id < f.slots.size then
        { f.slot i with flushed := true }
      else
        f.slot i := by
  unfold marked
  rw [slot_setSlot]
  by_cases hId : i = id ∧ id < f.slots.size
  · rw [if_pos hId, if_pos hId, hId.1]
  · rw [if_neg hId, if_neg hId]

theorem flushed_marked
    {P V : Type}
    (f : ListForest P V)
    (id i : Nat) :
    (f.marked id).flushed i =
      if i = id ∧ id < f.slots.size then true else f.flushed i := by
  unfold flushed
  rw [slot_marked]
  split
  · rfl
  · rfl

@[simp] theorem size_marked
    {P V : Type}
    (f : ListForest P V)
    (id : Nat) :
    (f.marked id).slots.size = f.slots.size :=
  size_setSlot f id _

@[simp] theorem owner_marked
    {P V : Type}
    (f : ListForest P V)
    (id i : Nat) :
    ((f.marked id).slot i).owner = (f.slot i).owner := by
  rw [slot_marked]
  split <;> rfl

@[simp] theorem collects_marked
    {P V : Type}
    (f : ListForest P V)
    (id i : Nat) :
    ((f.marked id).slot i).collects = (f.slot i).collects := by
  rw [slot_marked]
  split <;> rfl

@[simp] theorem lists_marked
    {P V : Type}
    (f : ListForest P V)
    (id i : Nat) :
    ((f.marked id).slot i).lists = (f.slot i).lists := by
  rw [slot_marked]
  split <;> rfl

end ListForest

namespace Work

/- Stating quads only leaves notes of them. -/
theorem stateAll_eq
    (quads : List Quad)
    (s : Session) :
    stateAll quads s =
      (.ok (),
        { s with notes := s.notes ++ (quads.map Note.quad).toArray }) := by
  induction quads generalizing s with
  | nil => simp [stateAll, done]
  | cons q rest ih =>
      simp [stateAll, andThen, note, ih]

/- What flushing a mapping for a subject does to a session. -/
theorem flushLists_eq
    {s : Session}
    {id : Nat}
    (h : s.lists.flushed id = false)
    (subject : Subject) :
    flushLists id (some subject) s =
      (.ok (),
        { supply :=
            (Quad.ofLists (s.lists.slot id).collects subject
              (s.lists.slot id).lists s.supply).2
          lists := s.lists.marked id
          notes := s.notes ++
            ((Quad.ofLists (s.lists.slot id).collects subject
              (s.lists.slot id).lists s.supply).1.map
                Note.quad).toArray }) := by
  unfold flushLists
  simp only [Option.map_some, ListForest.flush_eq h, stateAll_eq]

/- Flushing a mapping that owns no list only marks it. -/
theorem flushLists_of_lists_eq_nil
    {s : Session}
    {id : Nat}
    (h : s.lists.flushed id = false)
    (hLists : (s.lists.slot id).lists = [])
    (subject : Option Subject) :
    flushLists id subject s =
      (.ok (), { s with lists := s.lists.marked id }) := by
  unfold flushLists
  simp [ListForest.flush_of_lists_eq_nil h hLists, stateAll, done]

/- Flushing a mapping that owns lists needs a subject. -/
theorem flushLists_none
    {s : Session}
    {id : Nat}
    (h : s.lists.flushed id = false)
    (hLists : (s.lists.slot id).lists ≠ []) :
    flushLists id none s =
      (.error .listWithoutSubject,
        { s with lists := s.lists.marked id }) := by
  unfold flushLists
  simp only [Option.map_none,
    ListForest.flush_none_of_lists_ne_nil h hLists]

/- A mapping that has been flushed is not written again. -/
theorem flushLists_of_flushed
    {s : Session}
    {l : Nat}
    (h : s.lists.flushed l = true)
    (subject : Option Subject) :
    flushLists l subject s = (.ok (), s) := by
  have hSlot : (s.lists.slot l).flushed = true := h
  unfold flushLists ListForest.flush
  simp only [hSlot, if_true]
  rw [stateAll_eq, List.map_nil, Array.append_empty]

end Work
end LinkedMarkup
