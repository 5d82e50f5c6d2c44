import LinkedMarkup.Proofs.Evaluation.Lodging

/-
  This file defines what an event emits, apart from the form
  that its lists are written in: statements, and whole lists
  that an end tag flushes.

  Key definitions include:
    * `Emission`
    * `Emission.asMembers`
    * `Emission.asCollections`
    * `Emission.written`
    * `Evaluation.closing?`
    * `Evaluation.emissions`
    * `Evaluation.emitted`
    * `Evaluation.firstNode`

  Main declarations:
    * `Emission.ofLists_eq_written`
    * `Evaluation.flush_cases`
    * `Evaluation.quads_eq_written`
-/

namespace LinkedMarkup

/- A statement, or a list that is flushed as a whole. -/
inductive Emission where
  | stated (quad : Quad)
  | list (subject : Subject) (predicate : Iri) (members : List Object)
  deriving DecidableEq, Repr

namespace Note

theorem filings_append
    (first second : List Note) :
    filings (first ++ second) = filings first ++ filings second :=
  List.filterMap_append

theorem quads_append
    (first second : List Note) :
    quads (first ++ second) = quads first ++ quads second :=
  List.filterMap_append

theorem quads_map_quad
    (statements : List Quad) :
    quads (statements.map quad) = statements := by
  induction statements with
  | nil => rfl
  | cons q rest ih =>
      have hHead :
          quads (quad q :: rest.map quad) =
            q :: quads (rest.map quad) := rfl
      rw [List.map_cons, hHead, ih]

theorem filings_map_quad
    (statements : List Quad) :
    filings (statements.map quad) = [] := by
  induction statements with
  | nil => rfl
  | cons q rest ih => exact ih

theorem lines_append
    (first second : List Note) :
    lines (first ++ second) = lines first ++ lines second :=
  List.filterMap_append

theorem lines_map_quad
    (statements : List Quad) :
    lines (statements.map quad) = [] := by
  induction statements with
  | nil => rfl
  | cons q rest ih => exact ih

end Note

namespace Emission

/- The quads of an emission whose lists are written by member. -/
def asMembers :
    Emission → List Quad
  | stated q => [q]
  | list s p members => Quad.ofMembers s p members

/- How many nodes an emission needs as a collection. -/
def size :
    Emission → Nat
  | stated _ => 0
  | list _ _ members => members.length

/- How many nodes emissions need as collections. -/
def nodeCount :
    List Emission → Nat
  | [] => 0
  | emission :: rest => emission.size + nodeCount rest

/-
  The quads of emissions whose lists are written as
  collections. Each takes as many nodes as it has members.
-/
def asCollections :
    List Emission → List BlankNode → List Quad
  | [], _ => []
  | stated q :: rest, nodes => q :: asCollections rest nodes
  | list s p members :: rest, nodes =>
      Quad.ofCollection s p (nodes.take members.length) members ++
        asCollections rest (nodes.drop members.length)

/-
  The quads of emissions, in either style. Collections take
  the nodes that are numbered from a first one.
-/
def written
    (collects : Bool)
    (emissions : List Emission)
    (first : Nat) : List Quad :=
  if collects then
    asCollections emissions
      ((List.range' first (nodeCount emissions)).map NodeSupply.node)
  else
    emissions.flatMap asMembers

/- The supply after emissions are written from its next node. -/
def supplyAfter
    (collects : Bool)
    (emissions : List Emission)
    (supply : NodeSupply) : NodeSupply :=
  if collects then
    (supply.freshMany (nodeCount emissions)).2
  else
    supply

/- The lists that an owner flushes, if it has a subject. -/
def ofLists
    (subject : Option Subject)
    (lists : List (Iri × List Object)) : List Emission :=
  match subject with
  | none => []
  | some x => lists.map (fun entry => list x entry.1 entry.2)

theorem supplyAfter_nil
    (collects : Bool)
    (supply : NodeSupply) :
    supplyAfter collects [] supply = supply := by
  cases collects <;> rfl

theorem nodeCount_append
    (first second : List Emission) :
    nodeCount (first ++ second) =
      nodeCount first + nodeCount second := by
  induction first with
  | nil => exact (Nat.zero_add _).symm
  | cons emission rest ih =>
      rw [List.cons_append, nodeCount, nodeCount, ih, Nat.add_assoc]

/- Statements need no nodes. -/
theorem nodeCount_stated
    (quads : List Quad) :
    nodeCount (quads.map stated) = 0 := by
  induction quads with
  | nil => rfl
  | cons q rest ih => rw [List.map_cons, nodeCount, size, ih]

theorem asMembers_stated
    (quads : List Quad) :
    (quads.map stated).flatMap asMembers = quads := by
  induction quads with
  | nil => rfl
  | cons q rest ih =>
      rw [List.map_cons, List.flatMap_cons, ih]
      rfl

/- Emissions take their nodes in order. -/
theorem asCollections_append
    (first second : List Emission)
    (nodes others : List BlankNode)
    (hNodes : nodes.length = nodeCount first) :
    asCollections (first ++ second) (nodes ++ others) =
      asCollections first nodes ++ asCollections second others := by
  induction first generalizing nodes with
  | nil =>
      rw [List.length_eq_zero_iff.mp hNodes]
      rfl
  | cons emission rest ih =>
      have hCount :
          nodes.length = emission.size + nodeCount rest := hNodes
      cases emission with
      | stated q =>
          rw [size, Nat.zero_add] at hCount
          simp only [List.cons_append, asCollections, ih _ hCount]
      | list s p members =>
          rw [size] at hCount
          have hTake :
              (nodes ++ others).take members.length =
                nodes.take members.length :=
            List.take_append_of_le_length (by omega)
          have hDrop :
              (nodes ++ others).drop members.length =
                nodes.drop members.length ++ others :=
            List.drop_append_of_le_length (by omega)
          have hRest :
              (nodes.drop members.length).length =
                nodeCount rest := by
            rw [List.length_drop]
            omega
          simp only [List.cons_append, asCollections, hTake, hDrop,
            ih _ hRest, List.append_assoc]

theorem asCollections_stated
    (quads : List Quad)
    (nodes : List BlankNode) :
    asCollections (quads.map stated) nodes = quads := by
  induction quads with
  | nil => rfl
  | cons q rest ih =>
      rw [List.map_cons, asCollections, ih]

/- Statements are written as they are, before anything else. -/
theorem written_stated_append
    (collects : Bool)
    (quads : List Quad)
    (emissions : List Emission)
    (first : Nat) :
    written collects (quads.map stated ++ emissions) first =
      quads ++ written collects emissions first := by
  unfold written
  rw [nodeCount_append, nodeCount_stated, Nat.zero_add]
  cases collects with
  | true =>
      have hSplit :=
        asCollections_append (quads.map stated) emissions []
          ((List.range' first (nodeCount emissions)).map
            NodeSupply.node)
          (nodeCount_stated quads).symm
      rw [List.nil_append, asCollections_stated] at hSplit
      simp only [if_true, hSplit]
  | false =>
      simp only [Bool.false_eq_true, if_false, List.flatMap_append,
        asMembers_stated]

theorem written_stated
    (collects : Bool)
    (quads : List Quad)
    (first : Nat) :
    written collects (quads.map stated) first = quads := by
  unfold written
  rw [asCollections_stated, asMembers_stated, ite_self]

/- The lists of an owner are written from the next node on. -/
theorem ofLists_eq_written
    (collects : Bool)
    (x : Subject)
    (lists : List (Iri × List Object))
    (supply : NodeSupply) :
    Quad.ofLists collects x lists supply =
      (written collects (ofLists (some x) lists) supply.count,
        supplyAfter collects (ofLists (some x) lists) supply) := by
  unfold written supplyAfter
  induction lists generalizing supply with
  | nil => cases collects <;> rfl
  | cons entry rest ih =>
      rcases entry with ⟨predicate, members⟩
      cases collects with
      | false =>
          simp only [Quad.ofLists, Bool.false_eq_true, if_false, ih]
          rfl
      | true =>
          have hCount :
              nodeCount (ofLists (some x) ((predicate, members) :: rest)) =
                members.length +
                  nodeCount (ofLists (some x) rest) := rfl
          have hNodes :
              (List.range' supply.count
                  (members.length +
                    nodeCount (ofLists (some x) rest))).map
                  NodeSupply.node =
                (supply.freshMany members.length).1 ++
                  (List.range' (supply.count + members.length)
                    (nodeCount (ofLists (some x) rest))).map
                    NodeSupply.node := by
            rw [NodeSupply.freshMany, ← List.map_append,
              List.range'_append_1]
          have hSplit :=
            asCollections_append [list x predicate members]
              (ofLists (some x) rest)
              (supply.freshMany members.length).1
              ((List.range' (supply.count + members.length)
                (nodeCount (ofLists (some x) rest))).map
                NodeSupply.node)
              (by simp [NodeSupply.freshMany, nodeCount, size])
          have hOne :
              asCollections [list x predicate members]
                  (supply.freshMany members.length).1 =
                Quad.ofCollection x predicate
                  (supply.freshMany members.length).1 members := by
            rw [asCollections, asCollections, List.append_nil,
              List.take_of_length_le
                (by simp [NodeSupply.freshMany])]
          rw [hOne] at hSplit
          simp only [Quad.ofLists, if_true, ih, hCount, hNodes]
          refine Prod.ext ?_ ?_
          · exact hSplit.symm
          · simp only [NodeSupply.freshMany, Nat.add_assoc]

end Emission

namespace Evaluation

open Work

/- The element that an event closes. -/
def closing?
    (d : State)
    (event : Event) : Option Element :=
  match event, d.elements with
  | .closed name _, e :: _ => if e.name == name then some e else none
  | _, _ => none

/-
  What an event emits. At an end tag, the literal that waited
  is stated first; then the lists of the element are flushed.
-/
def emissions
    (d : State)
    (event : Event) : List Emission :=
  match closing? d event with
  | none => (Note.quads (process d event).2).map .stated
  | some o =>
      let s := (completeElement o d.fresh).2
      (Note.quads s.notes.toList).map .stated ++
        Emission.ofLists o.subject (s.lists.slot o.list).lists

/- What events emit, one after the other, up to a fault. -/
def emitted
    (d : State) :
    List Event → List Emission
  | [] => []
  | event :: rest =>
      emissions d event ++
        match process d event with
        | (.ok m, _) => emitted m rest
        | (.error _, _) => []

theorem emitted_cons
    {d m : State}
    {event : Event}
    {notes : List Note}
    (h : process d event = (.ok m, notes))
    (rest : List Event) :
    emitted d (event :: rest) =
      emissions d event ++ emitted m rest := by
  rw [emitted, h]

theorem closing?_eq_some
    {d : State}
    {name : String}
    {e : Element}
    {rest : List Element}
    (hElements : d.elements = e :: rest)
    (hName : e.name = name)
    (depth : Nat) :
    closing? d (.closed name depth) = some e := by
  unfold closing?
  rw [hElements]
  simp [hName]

/- What an end tag emits, once its element is complete. -/
theorem emissions_of_closing
    {d : State}
    {event : Event}
    {o : Element}
    {m : Session}
    (hClosing : closing? d event = some o)
    (hComplete : completeElement o d.fresh = (.ok (), m)) :
    emissions d event =
      (Note.quads m.notes.toList).map .stated ++
        Emission.ofLists o.subject (m.lists.slot o.list).lists := by
  have hSession : (completeElement o d.fresh).2 = m :=
    congrArg Prod.snd hComplete
  unfold emissions
  rw [hClosing]
  dsimp only
  rw [hSession]

/-
  A flush that succeeds writes the lists of a mapping for its
  subject. Only a mapping without lists needs none.
-/
theorem flush_cases
    {s t : Session}
    {list : Nat}
    {subject : Option Subject}
    (hOpen : s.lists.flushed list = false)
    (h : flushLists list subject s = (.ok (), t)) :
    (∃ x,
      subject = some x ∧
        t.supply =
          (Quad.ofLists (s.lists.slot list).collects x
            (s.lists.slot list).lists s.supply).2 ∧
        t.notes.toList =
          s.notes.toList ++
            (Quad.ofLists (s.lists.slot list).collects x
              (s.lists.slot list).lists s.supply).1.map Note.quad) ∨
    (subject = none ∧ (s.lists.slot list).lists = [] ∧
      t.supply = s.supply ∧ t.notes = s.notes) := by
  cases subject with
  | some x =>
      left
      rw [flushLists_eq hOpen x] at h
      cases h
      exact ⟨x, rfl, rfl, by simp⟩
  | none =>
      right
      by_cases hLists : (s.lists.slot list).lists = []
      · rw [flushLists_of_lists_eq_nil hOpen hLists] at h
        cases h
        exact ⟨rfl, hLists, rfl, rfl⟩
      · rw [flushLists_none hOpen hLists] at h
        cases h

/-
  The number of the first node that the lists flushed by an
  event may take, if they are written as collections.
-/
def firstNode
    (d : State)
    (event : Event) : Nat :=
  match closing? d event with
  | none => d.session.supply.count
  | some o => (completeElement o d.fresh).2.supply.count

theorem firstNode_of_closing
    {d : State}
    {event : Event}
    {o : Element}
    {m : Session}
    (hClosing : closing? d event = some o)
    (hComplete : completeElement o d.fresh = (.ok (), m)) :
    firstNode d event = m.supply.count := by
  have hSession : (completeElement o d.fresh).2 = m :=
    congrArg Prod.snd hComplete
  unfold firstNode
  rw [hClosing]
  dsimp only
  rw [hSession]

/-
  Whatever an event is, its quads are those of what it emits,
  in the style that the list mappings were made for.
-/
theorem quads_eq_written
    {d d' : State}
    {event : Event}
    {notes : List Note}
    {collects : Bool}
    (hHoused : Housed d)
    (hCollects :
      ∀ l, l < d.session.lists.slots.size →
        (d.session.lists.slot l).collects = collects)
    (h : process d event = (.ok d', notes)) :
    Note.quads notes =
      Emission.written collects (emissions d event)
        (firstNode d event) := by
  have hStated :
      closing? d event = none →
        Note.quads notes =
          Emission.written collects (emissions d event)
            (firstNode d event) := by
    intro hNone
    unfold emissions
    rw [hNone, h, Emission.written_stated]
  rcases process_ok_cases h with
    ⟨name, attributes, depth, e, t, rfl, _⟩ | ⟨data, rfl, _⟩ |
      ⟨name, depth, e, rest, m, t, rfl, hElements, hName, hComplete,
        hFlush, rfl, rfl⟩
  · exact hStated rfl
  · exact hStated rfl
  · have hStyle : (m.lists.slot e.list).collects = collects := by
      rw [(sameShape_of_completeElement hComplete).collects_eq]
      exact hCollects e.list (hHoused.uses_top hElements).list
    have hClosing := closing?_eq_some hElements hName depth
    rw [emissions_of_closing hClosing hComplete,
      firstNode_of_closing hClosing hComplete,
      Emission.written_stated_append]
    rcases flush_cases (hHoused.unflushed hElements hComplete) hFlush with
      ⟨x, hx, _, hNotes⟩ | ⟨hNone, _, _, hNotes⟩
    · rw [hNotes, hx, hStyle, Emission.ofLists_eq_written,
        Note.quads_append, Note.quads_map_quad]
    · have hNothing :
          Emission.written collects [] m.supply.count = [] :=
        Emission.written_stated collects [] m.supply.count
      rw [hNotes, hNone, Emission.ofLists, hNothing, List.append_nil]

end Evaluation
end LinkedMarkup
