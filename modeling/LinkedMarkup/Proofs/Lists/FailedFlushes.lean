import LinkedMarkup.Proofs.Evaluation.Breaches
import LinkedMarkup.Proofs.Lists.Writing

/-
  This file proves when the flush of a mapping fails, and what
  it leaves. It fails exactly if the lists cannot be written
  as statements. The mapping is marked nevertheless, so that
  its lists are never written and it takes no more members.

  Key definitions include:
    * `ListForest.Hinges`
    * `ListForest.Writable`
    * `ListForest.Forfeited`
    * `ListForest.FailedFlushHarmless`

  Main declarations:
    * `ListForest.writtenAll_hinges`
    * `ListForest.flush_error_iff`
    * `ListForest.failed_flush_forfeits`
-/

namespace LinkedMarkup
namespace ListForest

------------------------------------------------------------
-- Outcomes that hinge on a condition
------------------------------------------------------------

/-
  There is a result if the condition holds, and otherwise an
  invariant is broken.
-/
structure Hinges {α : Type}
    (outcome : Except Fault α)
    (C : Prop) : Prop where
  ok : C → ∃ a, outcome = .ok a
  error : ¬ C → ∃ fault, outcome = .error fault ∧ fault.IsInvariant

section Rules

variable {α β : Type} {C D : Prop}

theorem hinges_ok
    (a : α) :
    Hinges (.ok a : Except Fault α) True where
  ok _ := ⟨a, rfl⟩
  error hNot := absurd trivial hNot

theorem Hinges.congr
    {outcome : Except Fault α}
    (h : Hinges outcome C)
    (hIff : C ↔ D) :
    Hinges outcome D where
  ok hD := h.ok (hIff.mpr hD)
  error hNot := h.error (fun hC => hNot (hIff.mp hC))

/- Going on, both parts need their condition. -/
theorem Hinges.bind
    {outcome : Except Fault α}
    {next : α → Except Fault β}
    (h : Hinges outcome C)
    (hNext : ∀ a, Hinges (next a) D) :
    Hinges (outcome >>= next) (C ∧ D) where
  ok hBoth := by
    rcases h.ok hBoth.1 with ⟨a, rfl⟩
    exact (hNext a).ok hBoth.2
  error hNot := by
    by_cases hC : C
    · rcases h.ok hC with ⟨a, rfl⟩
      exact (hNext a).error (fun hD => hNot ⟨hC, hD⟩)
    · rcases h.error hC with ⟨fault, rfl, hInvariant⟩
      exact ⟨fault, rfl, hInvariant⟩

/- Nothing more is needed for what follows without fail. -/
theorem Hinges.bind_ok
    {outcome : Except Fault α}
    {next : α → Except Fault β}
    (h : Hinges outcome C)
    (hNext : ∀ a, Hinges (next a) True) :
    Hinges (outcome >>= next) C :=
  (h.bind hNext).congr (and_iff_left trivial)

theorem Hinges.map
    {outcome : Except Fault α}
    (h : Hinges outcome C)
    (f : α → β) :
    Hinges (outcome.map f) C where
  ok hC := by
    rcases h.ok hC with ⟨a, rfl⟩
    exact ⟨f a, rfl⟩
  error hNot := by
    rcases h.error hNot with ⟨fault, rfl, hInvariant⟩
    exact ⟨fault, rfl, hInvariant⟩

theorem Hinges.error_iff
    {outcome : Except Fault α}
    (h : Hinges outcome C) :
    (∃ fault, outcome = .error fault) ↔ ¬ C := by
  constructor
  · rintro ⟨fault, rfl⟩ hC
    rcases h.ok hC with ⟨a, hEq⟩
    cases hEq
  · intro hNot
    rcases h.error hNot with ⟨fault, hEq, _⟩
    exact ⟨fault, hEq⟩

theorem Hinges.isInvariant
    {outcome : Except Fault α}
    (h : Hinges outcome C)
    {fault : Fault}
    (hEq : outcome = .error fault) :
    fault.IsInvariant := by
  rcases h.error (h.error_iff.mp ⟨fault, hEq⟩) with
    ⟨cause, hCause, hInvariant⟩
  rw [hEq] at hCause
  cases hCause
  exact hInvariant

end Rules

------------------------------------------------------------
-- What can be written
------------------------------------------------------------

/- What may be a term is one that may be a subject. -/
def IsSubject
    (t : Option Term) : Prop :=
  (t.bind Subject.ofTerm?).isSome = true

/- What may be a term is an IRI. -/
def IsPredicate
    (t : Option Term) : Prop :=
  (t.bind Term.iri?).isSome = true

/- What may be a term is one that may be an object. -/
def IsObject
    (t : Option Term) : Prop :=
  (t.bind Object.ofTerm?).isSome = true

/- Terms make a statement exactly if each suits its place. -/
theorem statement_hinges
    (subject predicate object : Option Term) :
    Hinges (statement subject predicate object)
      (IsSubject subject ∧ IsPredicate predicate ∧ IsObject object) where
  ok h := by
    rcases h with ⟨hSubject, hPredicate, hObject⟩
    rcases Option.isSome_iff_exists.mp hSubject with ⟨s, hS⟩
    rcases Option.isSome_iff_exists.mp hPredicate with ⟨p, hP⟩
    rcases Option.isSome_iff_exists.mp hObject with ⟨o, hO⟩
    refine ⟨.triple s p o, ?_⟩
    unfold statement Quad.make
    rw [hS, hP, hO]
    rfl
  error hNot := by
    cases hMade : statement subject predicate object with
    | error fault =>
        exact ⟨fault, rfl, Work.isInvariant_of_make_error hMade⟩
    | ok q =>
        exfalso
        apply hNot
        unfold statement Quad.make at hMade
        unfold IsSubject IsPredicate IsObject
        cases hS : subject.bind Subject.ofTerm? with
        | none => simp [hS] at hMade
        | some s =>
            cases hP : predicate.bind Term.iri? with
            | none => simp [hS, hP] at hMade
            | some p =>
                cases hO : object.bind Object.ofTerm? with
                | none => simp [hS, hP, hO] at hMade
                | some o => exact ⟨rfl, rfl, rfl⟩

/- The links of a collection only need members to be objects. -/
theorem links_hinges
    (pairs : List (BlankNode × Option Term)) :
    Hinges (links pairs) (∀ pair ∈ pairs, IsObject pair.2) := by
  induction pairs with
  | nil => exact (hinges_ok []).congr (by simp)
  | cons pair rest ih =>
      rcases pair with ⟨node, member⟩
      have hFirst :
          Hinges
            (statement (some (.blank node)) (some (.iri Rdf.first))
              member)
            (IsObject member) :=
        (statement_hinges _ _ _).congr
          ⟨fun h => h.2.2, fun h => ⟨rfl, rfl, h⟩⟩
      have hLink :
          ∀ following : Term, IsObject (some following) →
            Hinges
              (statement (some (.blank node)) (some (.iri Rdf.rest))
                (some following))
              True :=
        fun following hFollowing =>
          (statement_hinges _ _ _).congr
            ⟨fun _ => trivial, fun _ => ⟨rfl, rfl, hFollowing⟩⟩
      have hRest :
          ∀ following : Term, IsObject (some following) →
            ∀ first : Quad,
            Hinges
              (do
                let link ←
                  statement (some (.blank node)) (some (.iri Rdf.rest))
                    (some following)
                let more ← links rest
                return first :: link :: more)
              (∀ pair ∈ rest, IsObject pair.2) :=
        fun following hFollowing first =>
          ((hLink following hFollowing).bind
            (fun link => ih.bind_ok (fun more => hinges_ok _))).congr
              (and_iff_right trivial)
      have hAll :
          (IsObject member ∧ ∀ pair ∈ rest, IsObject pair.2) ↔
            ∀ pair ∈ (node, member) :: rest, IsObject pair.2 := by
        simp
      unfold links
      cases rest with
      | nil =>
          exact (hFirst.bind (hRest (.iri Rdf.nil) rfl)).congr hAll
      | cons next others =>
          exact (hFirst.bind (hRest (.blank next.1) rfl)).congr hAll

theorem collection_hinges
    (subject predicate : Option Term)
    {nodes : List BlankNode}
    {members : List (Option Term)}
    (hNodes : nodes ≠ [])
    (hLength : nodes.length = members.length) :
    Hinges (collection subject predicate nodes members)
      ((IsSubject subject ∧ IsPredicate predicate) ∧
        ∀ member ∈ members, IsObject member) := by
  have hHead :
      Hinges
        (statement subject predicate (nodes.head?.map Term.blank))
        (IsSubject subject ∧ IsPredicate predicate) := by
    refine (statement_hinges _ _ _).congr ?_
    cases nodes with
    | nil => exact absurd rfl hNodes
    | cons node rest =>
        exact ⟨fun h => ⟨h.1, h.2.1⟩, fun h => ⟨h.1, h.2, rfl⟩⟩
  have hMembers :
      (∀ pair ∈ nodes.zip members, IsObject pair.2) ↔
        ∀ member ∈ members, IsObject member := by
    have hSnd : (nodes.zip members).map Prod.snd = members :=
      List.map_snd_zip (Nat.le_of_eq hLength.symm)
    constructor
    · intro h member hMem
      rw [← hSnd] at hMem
      rcases List.mem_map.mp hMem with ⟨pair, hPair, rfl⟩
      exact h pair hPair
    · intro h pair hPair
      apply h
      rw [← hSnd]
      exact List.mem_map_of_mem hPair
  unfold collection
  exact hHead.bind (fun head =>
    ((links_hinges _).congr hMembers).bind_ok (fun more => hinges_ok _))

theorem mapM_statement_hinges
    (subject predicate : Option Term)
    (members : List (Option Term)) :
    Hinges
      (members.mapM (fun member => statement subject predicate member))
      (∀ member ∈ members,
        IsSubject subject ∧ IsPredicate predicate ∧ IsObject member) := by
  induction members with
  | nil => exact (hinges_ok []).congr (by simp)
  | cons member rest ih =>
      rw [List.mapM_cons]
      refine ((statement_hinges subject predicate member).bind
        (fun q => ih.bind_ok (fun more => hinges_ok _))).congr ?_
      simp

/- The lists of a mapping can be written for a subject. -/
structure Writable {P V : Type}
    [AsTerm P]
    [AsTerm V]
    (subject : Option Term)
    (lists : List (P × List V)) : Prop where
  subject : IsSubject subject
  predicates : ∀ entry ∈ lists, IsPredicate (AsTerm.asTerm entry.1)
  members :
    ∀ entry ∈ lists, ∀ v ∈ entry.2, IsObject (AsTerm.asTerm v)

theorem written_hinges
    (collects : Bool)
    (subject predicate : Option Term)
    (members : List (Option Term))
    (supply : NodeSupply) :
    Hinges (written collects subject predicate members supply).1
      ((IsSubject subject ∧ IsPredicate predicate) ∧
        ∀ member ∈ members, IsObject member) := by
  unfold written
  cases members with
  | nil =>
      refine ((statement_hinges _ _ _).map _).congr ?_
      constructor
      · intro h
        exact ⟨⟨h.1, h.2.1⟩, by simp⟩
      · intro h
        exact ⟨h.1.1, h.1.2, rfl⟩
  | cons member rest =>
      cases collects with
      | true =>
          exact collection_hinges subject predicate
            (by simp [NodeSupply.freshMany, List.range'_succ])
            (by simp [NodeSupply.freshMany])
      | false =>
          refine (mapM_statement_hinges _ _ _).congr ?_
          constructor
          · intro h
            have hHead := h member List.mem_cons_self
            exact ⟨⟨hHead.1, hHead.2.1⟩, fun m hMem => (h m hMem).2.2⟩
          · intro h m hMem
            exact ⟨h.1.1, h.1.2, h.2 m hMem⟩

section Flushes

variable {P V : Type}
variable [AsTerm P] [AsTerm V]

/- Several lists are written one after the other. -/
theorem writtenAll_cons
    (collects : Bool)
    (subject : Option Term)
    (entry : P × List V)
    (rest : List (P × List V))
    (supply : NodeSupply) :
    let head :=
      written collects subject (AsTerm.asTerm entry.1)
        (entry.2.map AsTerm.asTerm) supply
    (writtenAll collects subject (entry :: rest) supply).1 =
      head.1 >>= fun quads =>
        (writtenAll collects subject rest head.2).1.map (quads ++ ·) := by
  rcases entry with ⟨predicate, members⟩
  dsimp only
  rw [writtenAll]
  rcases written collects subject (AsTerm.asTerm predicate)
      (members.map AsTerm.asTerm) supply with ⟨outcome, after⟩
  cases outcome with
  | error fault => rfl
  | ok quads =>
      dsimp only
      rcases writtenAll collects subject rest after with ⟨more, final⟩
      cases more with
      | error fault => rfl
      | ok others => rfl

theorem writtenAll_hinges
    (collects : Bool)
    (subject : Option Term)
    (lists : List (P × List V))
    (supply : NodeSupply) :
    Hinges (writtenAll collects subject lists supply).1
      (∀ entry ∈ lists,
        (IsSubject subject ∧ IsPredicate (AsTerm.asTerm entry.1)) ∧
          ∀ member ∈ entry.2.map AsTerm.asTerm, IsObject member) := by
  induction lists generalizing supply with
  | nil => exact (hinges_ok []).congr (by simp)
  | cons entry rest ih =>
      rw [writtenAll_cons]
      have hHead :=
        written_hinges collects subject (AsTerm.asTerm entry.1)
          (entry.2.map AsTerm.asTerm) supply
      refine (hHead.bind (fun quads => (ih _).map (quads ++ ·))).congr ?_
      rw [List.forall_mem_cons]

theorem writable_iff
    {subject : Option Term}
    {lists : List (P × List V)}
    (hLists : lists ≠ []) :
    Writable subject lists ↔
      ∀ entry ∈ lists,
        (IsSubject subject ∧ IsPredicate (AsTerm.asTerm entry.1)) ∧
          ∀ member ∈ entry.2.map AsTerm.asTerm, IsObject member := by
  constructor
  · intro h entry hMem
    refine ⟨⟨h.subject, h.predicates entry hMem⟩, ?_⟩
    intro member hMember
    rcases List.mem_map.mp hMember with ⟨v, hv, rfl⟩
    exact h.members entry hMem v hv
  · intro h
    rcases List.exists_mem_of_ne_nil lists hLists with ⟨first, hFirst⟩
    refine ⟨(h first hFirst).1.1, ?_, ?_⟩
    · intro entry hMem
      exact (h entry hMem).1.2
    · intro entry hMem v hv
      exact (h entry hMem).2 _ (List.mem_map_of_mem hv)

------------------------------------------------------------
-- Flushes
------------------------------------------------------------

variable {f : ListForest P V} {id : Nat}

/- A second flush does nothing. -/
theorem flush_of_flushed
    (hFlushed : f.flushed id = true)
    (subject : Option Term)
    (supply : NodeSupply) :
    f.flush id subject supply = (.ok [], f, supply) := by
  have hSlot : (f.slot id).flushed = true := hFlushed
  unfold flush
  simp only [hSlot, if_true]

/- The first flush of lists succeeds if they can be written. -/
theorem flush_hinges
    (hOpen : f.flushed id = false)
    (hLists : (f.slot id).lists ≠ [])
    (subject : Option Term)
    (supply : NodeSupply) :
    Hinges (f.flush id subject supply).1
      (Writable subject (f.slot id).lists) := by
  have hSlot : (f.slot id).flushed = false := hOpen
  have hSome : ¬ (f.slot id).lists.isEmpty = true :=
    fun hEmpty => hLists (List.isEmpty_iff.mp hEmpty)
  unfold flush
  simp only [hSlot, Bool.false_eq_true, if_false, hSome]
  cases subject with
  | none =>
      refine ⟨fun h => ?_, fun _ => ⟨_, rfl, rfl⟩⟩
      cases h.subject
  | some t =>
      exact (writtenAll_hinges _ _ _ _).congr (writable_iff hLists).symm

/- Whatever comes of a first flush, it marks the mapping. -/
theorem forest_of_flush
    (f : ListForest P V)
    (id : Nat)
    (subject : Option Term)
    (supply : NodeSupply) :
    (f.flush id subject supply).2.1 =
      if f.flushed id then f else f.marked id := by
  cases hFlushed : f.flushed id with
  | true =>
      rw [flush_of_flushed hFlushed]
      rfl
  | false =>
      have hSlot : (f.slot id).flushed = false := hFlushed
      unfold flush
      simp only [hSlot, Bool.false_eq_true, if_false]
      split
      · rfl
      · split
        · rfl
        · rfl

theorem flush_error_iff
    (f : ListForest P V)
    (id : Nat)
    (subject : Option Term)
    (supply : NodeSupply) :
    (∃ fault, (f.flush id subject supply).1 = .error fault) ↔
      f.flushed id = false ∧ (f.slot id).lists ≠ [] ∧
        ¬ Writable subject (f.slot id).lists := by
  cases hFlushed : f.flushed id with
  | true =>
      rw [flush_of_flushed hFlushed]
      simp
  | false =>
      by_cases hLists : (f.slot id).lists = []
      · rw [flush_of_lists_eq_nil hFlushed hLists]
        simp [hLists]
      · rw [(flush_hinges hFlushed hLists subject supply).error_iff]
        simp [hLists]

end Flushes

------------------------------------------------------------
-- Lists that are forfeited
------------------------------------------------------------

/-
  Nothing that a mapping holds is written any more, for any
  subject, and it takes no new members.
-/
structure Forfeited {P V : Type}
    [AsTerm P]
    [AsTerm V]
    [DecidableEq P]
    (f : ListForest P V)
    (id : Nat) : Prop where
  flush :
    ∀ subject supply, f.flush id subject supply = (.ok [], f, supply)
  ensure : ∀ p, f.ensure id p = .error (flushedFault p)
  append : ∀ p v, f.append id p v = .error (flushedFault p)

/- A failing flush leaves a mapping as it was. -/
def FailedFlushHarmless : Prop :=
  ∀ (f : ListForest Iri Object) (id : Nat), id < f.slots.size →
    ∀ subject supply fault g after,
      f.flush id subject supply = (.error fault, g, after) →
        g = f ∧
          (∀ (valid : Subject), ∃ quads,
            (g.flush id (some valid.toTerm) after).1 = .ok quads ∧
              ∀ entry ∈ (f.slot id).lists, ∀ v ∈ entry.2,
                ∃ q ∈ quads, q.object = v) ∧
          ∀ p v, ∃ more, g.append id p v = .ok more

section Forfeits

variable {P V : Type}
variable [AsTerm P] [AsTerm V] [DecidableEq P]

theorem forfeited_of_flushed
    {f : ListForest P V}
    {id : Nat}
    (hFlushed : f.flushed id = true) :
    Forfeited f id where
  flush := flush_of_flushed hFlushed
  ensure p := by
    unfold ListForest.ensure
    rw [if_pos hFlushed]
  append p v := by
    unfold ListForest.append
    rw [if_pos hFlushed]

/-
  A flush fails exactly if it is the first one, there are
  lists, and they cannot be written for the subject. It then
  breaks an invariant, and changes its mapping always: all
  lists stay what they were, but those of the mapping are
  forfeited.
-/
theorem failed_flush_forfeits
    {f : ListForest P V}
    {id : Nat}
    (hId : id < f.slots.size)
    (subject : Option Term)
    (supply : NodeSupply) :
    ((∃ fault, (f.flush id subject supply).1 = .error fault) ↔
      f.flushed id = false ∧ (f.slot id).lists ≠ [] ∧
        ¬ Writable subject (f.slot id).lists) ∧
    ∀ fault g after,
      f.flush id subject supply = (.error fault, g, after) →
        fault.IsInvariant ∧ g ≠ f ∧
          (∀ i, (g.slot i).lists = (f.slot i).lists ∧
            (i ≠ id → g.slot i = f.slot i)) ∧
          Forfeited g id := by
  refine ⟨flush_error_iff f id subject supply, ?_⟩
  intro fault g after hFlush
  have hError : (f.flush id subject supply).1 = .error fault := by
    rw [hFlush]
  rcases (flush_error_iff f id subject supply).mp ⟨fault, hError⟩ with
    ⟨hOpen, hLists, _⟩
  have hMarked : g = f.marked id := by
    have hForest := forest_of_flush f id subject supply
    rw [hFlush, hOpen] at hForest
    exact hForest
  subst hMarked
  have hFlushed : (f.marked id).flushed id = true := by
    rw [flushed_marked, if_pos ⟨rfl, hId⟩]
  refine ⟨?_, ?_, ?_, forfeited_of_flushed hFlushed⟩
  · exact (flush_hinges hOpen hLists subject supply).isInvariant hError
  · intro hSame
    rw [hSame, hOpen] at hFlushed
    cases hFlushed
  · intro i
    refine ⟨lists_marked f id i, ?_⟩
    intro hNe
    rw [slot_marked, if_neg (fun hBoth => hNe hBoth.1)]

end Forfeits

/- A mapping that holds one list with one member. -/
def held : ListForest Iri Object :=
  ⟨#[⟨0, false, false,
    [(⟨"http://ex.org/item"⟩, [.literal (.plain "one")])]⟩]⟩

/- A flush without a subject costs the member that was put in. -/
theorem flush_without_subject_forfeits :
    (ListForest.empty.root false).2.append 0 ⟨"http://ex.org/item"⟩
        (Object.literal (.plain "one")) = .ok held ∧
      0 < held.slots.size ∧
      held.flush 0 none .empty =
        (.error .listWithoutSubject, held.marked 0, .empty) ∧
      (held.marked 0).lists 0 = held.lists 0 ∧
      Forfeited (held.marked 0) 0 := by
  have hFlush :
      held.flush 0 none .empty =
        (.error .listWithoutSubject, held.marked 0, .empty) := rfl
  have hId : 0 < held.slots.size := by decide
  rcases (failed_flush_forfeits hId none .empty).2 _ _ _ hFlush with
    ⟨_, _, _, hForfeited⟩
  exact ⟨rfl, hId, hFlush, rfl, hForfeited⟩

theorem not_failedFlushHarmless :
    ¬ FailedFlushHarmless := by
  intro h
  have hFlush :
      held.flush 0 none .empty =
        (.error .listWithoutSubject, held.marked 0, .empty) := rfl
  rcases h held 0 (by decide) none .empty _ _ _ hFlush with ⟨hSame, _⟩
  have hFlushed : (held.marked 0).flushed 0 = true := rfl
  rw [hSame] at hFlushed
  cases hFlushed

end ListForest
end LinkedMarkup
