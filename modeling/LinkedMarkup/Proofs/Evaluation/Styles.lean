import LinkedMarkup.Proofs.Renaming.Renamed
import LinkedMarkup.Proofs.Renaming.Steps
import Mathlib.Data.List.Nodup

/-
  This file proves that both styles of writing lists agree on
  every document. A run that collects its lists fails exactly
  if one that writes them by member does; otherwise it states
  the same, but for the names of nodes, with each list that is
  flushed turned into a collection of nodes of its own.

  Key definitions include:
    * `Settings.inStyle`
    * `Extraction.emitted`
    * `Extraction.Collects`

  Main declarations:
    * `Evaluation.Traced.emitted_match`
    * `Evaluation.Traced.quads_asMembers`
    * `Evaluation.Traced.quads_asCollections`
    * `Extraction.collects_of_traced`
    * `Extraction.collection_of_members`
-/

namespace LinkedMarkup
namespace Evaluation

variable {κ : Layout} {W : Pairing} {d d' : State}
variable {events : List Event}

------------------------------------------------------------
-- What two runs write
------------------------------------------------------------

/- Runs side by side emit the same of corresponding nodes. -/
theorem Traced.emitted_match
    (h : Traced κ W d d' events) :
    List.Forall₂ (Emission.Match W.Nodes) (emitted d events)
      (emitted d' events) := by
  induction h with
  | nil _ _ => exact .nil
  | cons hStep hStep' hTold _ ih =>
      rw [emitted_cons hStep, emitted_cons hStep']
      exact List.rel_append hTold.emissions ih

/- A run that writes lists by member writes all that way. -/
theorem Traced.quads_asMembers
    (h : Traced κ W d d' events)
    (hStyle : κ.collects = false)
    (hHoused : Housed d) :
    Note.quads (Extraction.evaluate d events).1.flatten =
      (emitted d events).flatMap Emission.asMembers := by
  induction h with
  | nil _ _ => rfl
  | cons hStep _ hTold _ ih =>
      have hCollects := hTold.collects
      rw [hStyle] at hCollects
      have hHead := quads_eq_written hHoused hCollects hStep
      have hTail := ih (housed_of_process hHoused hStep)
      simp only [Extraction.evaluate, hStep, List.flatten_cons]
      rw [Note.quads_append, hHead, hTail, emitted_cons hStep,
        List.flatMap_append]
      rfl

/-
  A run that collects its lists takes a node of its own for
  every member, and none of these belongs to a node of the
  other run.
-/
theorem Traced.quads_asCollections
    (h : Traced κ W d d' events)
    (hStyle : κ.collects = false)
    (hStyle' : κ.collects' = true)
    (hHoused : Housed d') :
    ∃ numbers : List Nat,
      numbers.Nodup ∧
        (∀ k ∈ numbers,
          W.reserved k ∧ d'.session.supply.count ≤ k) ∧
        numbers.length = Emission.nodeCount (emitted d' events) ∧
        Note.quads (Extraction.evaluate d' events).1.flatten =
          Emission.asCollections (emitted d' events)
            (numbers.map NodeSupply.node) := by
  induction h with
  | nil _ _ => exact ⟨[], .nil, by simp, rfl, rfl⟩
  | @cons d d' m m' event rest notes notes' hStep hStep' hTold _ ih =>
      have hCollects := hTold.collects'
      rw [hStyle'] at hCollects
      have hHead := quads_eq_written hHoused hCollects hStep'
      rw [Emission.written, if_pos rfl] at hHead
      have hNodes := nodes_of_process hHoused hCollects hStep'
      have hSize :=
        Emission.nodeCount_eq_of_match hTold.emissions
      rcases ih (housed_of_process hHoused hStep') with
        ⟨numbers, hNodup, hNew, hLength, hTail⟩
      refine
        ⟨List.range' (firstNode d' event)
            (Emission.nodeCount (emissions d' event)) ++ numbers,
          ?_, ?_, ?_, ?_⟩
      · -- The nodes of later events are numbered after these.
        refine List.nodup_append.mpr ⟨List.nodup_range', hNodup, ?_⟩
        intro k hk j hj hEq
        have hLate := (hNew j hj).2
        rw [List.mem_range'_1] at hk
        omega
      · intro k hk
        rcases List.mem_append.mp hk with hk | hk
        · rw [List.mem_range'_1] at hk
          have hReserved :=
            hTold.takes.reserved hStyle hStyle'
              (k - firstNode d' event) (by omega)
          rw [Nat.add_sub_cancel' hk.1] at hReserved
          exact ⟨hReserved, Nat.le_trans hNodes.1 hk.1⟩
        · have hLate := hNew k hk
          exact ⟨hLate.1, by omega⟩
      · rw [List.length_append, List.length_range', hLength,
          emitted_cons hStep', Emission.nodeCount_append]
      · have hSplit :=
          Emission.asCollections_append (emissions d' event)
            (emitted m' rest)
            ((List.range' (firstNode d' event)
              (Emission.nodeCount (emissions d' event))).map
              NodeSupply.node)
            (numbers.map NodeSupply.node)
            (by rw [List.length_map, List.length_range'])
        rw [emitted_cons hStep', List.map_append, hSplit]
        simp only [Extraction.evaluate, hStep', List.flatten_cons]
        rw [Note.quads_append, hHead, hTail]

/- The base of a document is at fault in any settings or none. -/
theorem start_error_of_error
    {settings : Settings}
    {base : String}
    {fault : Fault}
    (h : start settings base = .error fault)
    (settings' : Settings) :
    start settings' base = .error fault := by
  unfold start at h ⊢
  cases hDocument : Iri.withoutFragment base with
  | error cause =>
      rw [hDocument] at h
      exact h
  | ok document =>
      rw [hDocument] at h
      cases hIri : Iri.parse? document with
      | none =>
          simp only [bind, Except.bind, hIri] at h ⊢
          exact h
      | some iri =>
          simp only [bind, Except.bind, hIri] at h
          cases h

end Evaluation

------------------------------------------------------------
-- Both styles
------------------------------------------------------------

/- Settings with lists written in a given style. -/
def Settings.inStyle
    (settings : Settings)
    (style : ListStyle) : Settings :=
  { settings with
    options := { settings.options with listStyle := style } }

theorem Settings.sameButStyle
    (settings : Settings)
    (style style' : ListStyle) :
    Evaluation.SameButStyle (settings.inStyle style)
      (settings.inStyle style') :=
  ⟨⟨rfl, rfl⟩, rfl, rfl⟩

namespace Extraction

/- What a document of given events emits. -/
def emitted
    (settings : Settings)
    (base : String)
    (events : List Event) : List Emission :=
  match Evaluation.start settings base with
  | .error _ => []
  | .ok d => Evaluation.emitted d events

/-
  An extraction whose lists are written by member, and one
  that states the same with nodes renamed, but for its lists:
  each is a collection, of nodes that are no renamed ones.
-/
structure Collects
    (emissions : List Emission)
    (r : BlankNode → BlankNode)
    (nodes : List BlankNode)
    (members collection : Extraction) : Prop where
  injective : Function.Injective r
  nodup : nodes.Nodup
  outside : ∀ node ∈ nodes, ∀ b, r b ≠ node
  length : nodes.length = Emission.nodeCount emissions
  members : members.quads = emissions.flatMap Emission.asMembers
  collection :
    collection.quads =
      Emission.asCollections (emissions.map (Emission.renamed r))
        nodes

/- Runs side by side, of which the second collects its lists. -/
theorem collects_of_traced
    {κ : Layout}
    {W : Pairing}
    {d d' : Evaluation.State}
    {s s' : NodeSupply}
    {events : List Event}
    (hTraced : Evaluation.Traced κ W d d' events)
    (hStyle : κ.collects = false)
    (hStyle' : κ.collects' = true)
    (hSupply : NodeSupply.Paired W s s')
    (hHoused : Evaluation.Housed d)
    (hHoused' : Evaluation.Housed d') :
    ∃ r nodes,
      Collects (Evaluation.emitted d events) r nodes
        ⟨[], (evaluate d events).1, none⟩
        ⟨[], (evaluate d' events).1, none⟩ := by
  rcases hTraced.quads_asCollections hStyle hStyle' hHoused' with
    ⟨numbers, hNodup, hNew, hLength, hCollection⟩
  have hRename :
      ∀ b b', W.Nodes b b' → W.rename b = b' :=
    fun _ _ hNodes => Pairing.rename_of_nodes hSupply hNodes
  have hMatch := hTraced.emitted_match
  refine ⟨W.rename, numbers.map NodeSupply.node, ?_⟩
  exact
    { injective := Pairing.rename_injective hSupply
      nodup := List.Nodup.map NodeSupply.node_injective hNodup
      outside := by
        intro node hNode
        rcases List.mem_map.mp hNode with ⟨k, hk, rfl⟩
        apply Pairing.rename_ne_of_reserved hSupply
        exact (hNew k hk).1
      length := by
        rw [List.length_map, hLength]
        exact (Emission.nodeCount_eq_of_match hMatch).symm
      members := hTraced.quads_asMembers hStyle hHoused
      collection := by
        rw [← Emission.eq_map_renamed hRename hMatch]
        exact hCollection }

/-
  On well-nested events a run that collects lists ends with
  the fault of the run that writes them by member, if there is
  one. Otherwise its quads are those of the other run, renamed
  one to one, with the members of every flushed list that is
  not empty linked by new nodes.
-/
theorem collection_of_members
    (settings : Settings)
    (base : String)
    {events : List Event}
    (hNested : Event.Nested events) :
    (ofBase (settings.inStyle .collection) base []
          ⟨events, none⟩).fault? =
        (ofBase (settings.inStyle .members) base []
          ⟨events, none⟩).fault? ∧
      ((ofBase (settings.inStyle .members) base []
            ⟨events, none⟩).fault? = none →
        ∃ r nodes,
          Collects (emitted (settings.inStyle .members) base events)
            r nodes
            (ofBase (settings.inStyle .members) base []
              ⟨events, none⟩)
            (ofBase (settings.inStyle .collection) base []
              ⟨events, none⟩)) := by
  unfold ofBase emitted
  cases hStart :
      Evaluation.start (settings.inStyle .members) base with
  | error fault =>
      rw [Evaluation.start_error_of_error hStart]
      refine ⟨rfl, ?_⟩
      intro hNone
      cases hNone
  | ok d =>
      rcases Evaluation.start_eq_ok hStart with
        ⟨document, iri, hDocument, hIri, rfl⟩
      have hStart' :=
        Evaluation.start_of_document hDocument hIri
          (settings.inStyle .collection)
      rw [hStart']
      have hPaired :=
        Evaluation.paired_initial
          (settings.sameButStyle .members .collection) document iri
      have hHoused :=
        Evaluation.housed_initial (settings.inStyle .members)
          document iri
      have hHoused' :=
        Evaluation.housed_initial (settings.inStyle .collection)
          document iri
      rcases Evaluation.evaluate_paired (hNested.within 0)
          (fun _ => rfl) hHoused hPaired with
        ⟨_, final, final', sections, sections', V, hRun, hRun', _,
            hFinal, hTraced⟩ |
          ⟨fault, sections, sections', hRun, hRun'⟩
      · -- All elements are closed, so the end is no fault.
        have hEnd :=
          Evaluation.finish_of_run_nested hStart hNested
            (Evaluation.run_of_evaluate hRun)
        have hEnd' :=
          Evaluation.finish_of_run_nested hStart' hNested
            (Evaluation.run_of_evaluate hRun')
        have hCollects :=
          collects_of_traced hTraced rfl rfl hFinal.supply hHoused
            hHoused'
        rw [hRun, hRun'] at hCollects
        unfold ofTrace endingFault?
        simp only [hRun, hRun', hEnd, hEnd']
        refine ⟨trivial, ?_⟩
        intro _
        exact hCollects
      · unfold ofTrace
        simp only [hRun, hRun']
        refine ⟨trivial, ?_⟩
        intro hNone
        cases hNone

namespace Linked

def settings : Settings :=
  ⟨.xhtml, ⟨.members, true, [("f", "http://f/")], []⟩⟩

/- A list of one member, before a node that is made later. -/
def events : List Event :=
  [.opened "div" [] 0, .opened "p" [("typeof", "f:T")] 1,
    .opened "b" [("property", "f:name"), ("inlist", "")] 2,
    .text "X", .closed "b" 2, .closed "p" 1,
    .opened "p" [("typeof", "f:T")] 1, .closed "p" 1,
    .closed "div" 0]

theorem nested_events :
    Event.Nested events :=
  .element "div" _ 0 0
    (.element "p" _ 1 1
      (.element "b" _ 2 2 (.text "X" .nil) .nil)
      (.element "p" _ 1 1 .nil .nil)) .nil

end Linked

open Linked in
/- The member of the list is linked by a node of its own. -/
theorem linked_list_collects :
    Emission.list (.blank (NodeSupply.node 0)) ⟨"http://f/name"⟩
          [.literal (.plain "X")] ∈
        emitted (settings.inStyle .members) "http://ex/" events ∧
      ∃ r nodes,
        Collects
          (emitted (settings.inStyle .members) "http://ex/" events)
          r nodes
          (ofBase (settings.inStyle .members) "http://ex/" []
            ⟨events, none⟩)
          (ofBase (settings.inStyle .collection) "http://ex/" []
            ⟨events, none⟩) := by
  refine ⟨by decide +kernel, ?_⟩
  exact
    (collection_of_members settings "http://ex/" nested_events).2
      (by decide +kernel)

end Extraction
end LinkedMarkup
