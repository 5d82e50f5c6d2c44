import LinkedMarkup.Proofs.Lists.FailedFlushes

/-
  This file defines the flush of a mapping with any factory of
  nodes, given by the sequence of the nodes that it makes, and
  proves that flushing with a supply is flushing with the
  factory of the supply's nodes.

  Key definitions include:
    * `ListForest.drawn`
    * `ListForest.writtenBy`
    * `ListForest.writtenAllBy`
    * `ListForest.flushBy`

  Main declarations:
    * `ListForest.flush_eq_flushBy`
-/

namespace LinkedMarkup
namespace ListForest

------------------------------------------------------------
-- Factories
------------------------------------------------------------

/- The next nodes of a factory that has made some before. -/
def drawn
    (factory : Nat → BlankNode)
    (made n : Nat) : List BlankNode :=
  (List.range' made n).map factory

/-
  The statements of one list with the nodes of a factory, and
  how many nodes it has made after it.
-/
def writtenBy
    (factory : Nat → BlankNode)
    (collects : Bool)
    (subject predicate : Option Term)
    (members : List (Option Term))
    (made : Nat) : Except Fault (List Quad) × Nat :=
  if members.isEmpty then
    ((statement subject predicate (some (.iri Rdf.nil))).map ([·]), made)
  else if collects then
    (collection subject predicate (drawn factory made members.length)
      members, made + members.length)
  else
    (members.mapM (fun member => statement subject predicate member),
      made)

section Flushes

variable {P V : Type}
variable [AsTerm P] [AsTerm V]

/- The statements of several lists, in order. -/
def writtenAllBy
    (factory : Nat → BlankNode)
    (collects : Bool)
    (subject : Option Term) :
    List (P × List V) → Nat → Except Fault (List Quad) × Nat
  | [], made => (.ok [], made)
  | (predicate, members) :: rest, made =>
      match writtenBy factory collects subject
          (AsTerm.asTerm predicate) (members.map AsTerm.asTerm) made with
      | (.error fault, after) => (.error fault, after)
      | (.ok quads, after) =>
          match writtenAllBy factory collects subject rest after with
          | (.error fault, final) => (.error fault, final)
          | (.ok more, final) => (.ok (quads ++ more), final)

/- Flush a mapping with the nodes of a factory. -/
def flushBy
    (factory : Nat → BlankNode)
    (f : ListForest P V)
    (id : Nat)
    (subject : Option Term)
    (made : Nat) : Except Fault (List Quad) × ListForest P V × Nat :=
  let s := f.slot id
  if s.flushed then
    (.ok [], f, made)
  else
    let marked := f.setSlot id { s with flushed := true }
    if s.lists.isEmpty then
      (.ok [], marked, made)
    else if subject.isNone then
      (.error .listWithoutSubject, marked, made)
    else
      let out := writtenAllBy factory s.collects subject s.lists made
      (out.1, marked, out.2)

------------------------------------------------------------
-- The factory of a supply
------------------------------------------------------------

/- A supply that has made so many nodes. -/
def counted
    (supply : NodeSupply)
    (made : Nat) : NodeSupply :=
  { supply with count := made }

theorem written_eq_writtenBy
    (collects : Bool)
    (subject predicate : Option Term)
    (members : List (Option Term))
    (supply : NodeSupply) :
    written collects subject predicate members supply =
      let out :=
        writtenBy NodeSupply.node collects subject predicate members
          supply.count
      (out.1, counted supply out.2) := by
  unfold written writtenBy
  split
  · rfl
  · split
    · rfl
    · rfl

theorem writtenAll_eq_writtenAllBy
    (collects : Bool)
    (subject : Option Term)
    (lists : List (P × List V))
    (supply : NodeSupply) :
    writtenAll collects subject lists supply =
      let out :=
        writtenAllBy NodeSupply.node collects subject lists supply.count
      (out.1, counted supply out.2) := by
  induction lists generalizing supply with
  | nil => rfl
  | cons entry rest ih =>
      rcases entry with ⟨predicate, members⟩
      rw [writtenAll, writtenAllBy, written_eq_writtenBy]
      dsimp only
      rcases writtenBy NodeSupply.node collects subject
          (AsTerm.asTerm predicate) (members.map AsTerm.asTerm)
          supply.count with ⟨outcome, after⟩
      cases outcome with
      | error fault => rfl
      | ok quads =>
          have hRest := ih (counted supply after)
          dsimp only [counted] at hRest ⊢
          rw [hRest]
          rcases writtenAllBy NodeSupply.node collects subject rest
              after with ⟨more, final⟩
          cases more with
          | error fault => rfl
          | ok others => rfl

/- Flushing with a supply is flushing with its nodes. -/
theorem flush_eq_flushBy
    (f : ListForest P V)
    (id : Nat)
    (subject : Option Term)
    (supply : NodeSupply) :
    f.flush id subject supply =
      let out := f.flushBy NodeSupply.node id subject supply.count
      (out.1, out.2.1, counted supply out.2.2) := by
  unfold flush flushBy
  dsimp only
  split
  · rfl
  · split
    · rfl
    · split
      · rfl
      · rw [writtenAll_eq_writtenAllBy]

end Flushes

end ListForest
end LinkedMarkup
