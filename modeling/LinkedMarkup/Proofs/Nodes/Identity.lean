import LinkedMarkup.Proofs.Nodes.Kinds
import LinkedMarkup.Proofs.Nodes.Labels
import LinkedMarkup.Proofs.Standards.Steps

/-
  This file proves which blank nodes of an evaluation are the
  same. Each that is stated was made before, with the next
  number as its label; what is made by itself, for a label of
  the document, or as the link of a list, is never the same;
  and a label stands for one node wherever it is read.

  Key definitions include:
    * `Evaluation.Logged`
    * `Evaluation.ReadAt`
    * `Evaluation.Scoped`

  Main declarations:
    * `Evaluation.Logged.makes`
    * `Evaluation.ReadAt.label`
    * `Evaluation.blank_nodes_scoped`
-/

namespace LinkedMarkup

/- A blank node at either end of a quad; graphs have none. -/
def Quad.HasNode
    (q : Quad)
    (b : BlankNode) : Prop :=
  q.subject = .blank b ∨ q.object = .blank b

theorem Quad.Match.made
    {s : NodeSupply}
    {q : Quad}
    (h : Quad.Match s.Alike q q)
    {b : BlankNode}
    (hNode : q.HasNode b) :
    s.Made b := by
  cases h with
  | triple p hSubject hObject =>
      rcases hNode with hEnd | hEnd
      · obtain rfl := hEnd
        cases hSubject with
        | blank hAlike => exact hAlike.2
      · obtain rfl := hEnd
        cases hObject with
        | blank hAlike => exact hAlike.2

namespace Evaluation

open Work

------------------------------------------------------------
-- Logs of evaluations
------------------------------------------------------------

/- What an event makes, in order, out of the supply before it. -/
structure Logs
    (d : State)
    (event : Event)
    (log : List Mint) : Prop where
  makes :
    d.session.supply.Makes log (readEvent d event d.fresh).2.supply
  kinds : ∀ m ∈ log, event.Mints m

/-
  What each event of an evaluation makes, up to one that is at
  fault, which counts as well.
-/
inductive Logged :
    State → List Event → List (List Mint) → Prop where
  | nil (d : State) : Logged d [] []
  | failed
      {d : State}
      {event : Event}
      {rest : List Event}
      {fault : Fault}
      {notes : List Note}
      {log : List Mint}
      (hStep : process d event = (.error fault, notes))
      (hLog : Logs d event log) :
      Logged d (event :: rest) [log]
  | cons
      {d m : State}
      {event : Event}
      {rest : List Event}
      {notes : List Note}
      {log : List Mint}
      {logs : List (List Mint)}
      (hStep : process d event = (.ok m, notes))
      (hLog : Logs d event log)
      (hRest : Logged m rest logs) :
      Logged d (event :: rest) (log :: logs)

/- What an event notes is left in the session after it. -/
theorem notes_of_process
    (d : State)
    (event : Event) :
    (process d event).2 =
      (readEvent d event d.fresh).2.notes.toList := by
  unfold process State.fresh
  cases readEvent d event { d.session with notes := #[] } with
  | mk outcome t => cases outcome <;> rfl

theorem session_of_process
    {d m : State}
    {event : Event}
    {notes : List Note}
    (h : process d event = (.ok m, notes)) :
    (readEvent d event d.fresh).2 = m.session := by
  unfold process at h
  unfold State.fresh
  cases hRead :
      readEvent d event { d.session with notes := #[] } with
  | mk outcome t =>
      rw [hRead] at h
      cases outcome with
      | error fault => cases h
      | ok elements =>
          cases h
          rfl

/- Whatever the events are, they have logs. -/
theorem exists_logged
    {d : State}
    (h : d.Minted)
    (events : List Event) :
    ∃ logs, Logged d events logs := by
  induction events generalizing d with
  | nil => exact ⟨[], .nil d⟩
  | cons event rest ih =>
      rcases h.leads event with ⟨log, hMakes, hKinds⟩
      cases hStep : process d event with
      | mk outcome notes =>
          cases outcome with
          | error fault =>
              exact ⟨[log], .failed hStep ⟨hMakes, hKinds⟩⟩
          | ok m =>
              rcases ih (h.after hStep) with ⟨logs, hLogs⟩
              exact ⟨log :: logs, .cons hStep ⟨hMakes, hKinds⟩ hLogs⟩

section Logging

variable {first d : State} {events : List Event}
variable {logs : List (List Mint)}

/- There is a log for each event that notes anything. -/
theorem Logged.length_eq
    (h : Logged first events logs) :
    logs.length = (Extraction.evaluate first events).1.length := by
  induction h with
  | nil d => rfl
  | failed hStep _ =>
      unfold Extraction.evaluate
      rw [hStep]
      rfl
  | cons hStep _ _ ih =>
      unfold Extraction.evaluate
      rw [hStep]
      exact congrArg (· + 1) ih

/- The logs up to an event say what has been made by its end. -/
theorem Logged.makes
    (h : Logged first events logs)
    {k : Nat}
    {event : Event}
    {sections : List (List Note)}
    (hEvent : events[k]? = some event)
    (hRun : Run first (events.take k) sections d) :
    first.session.supply.Makes (logs.take (k + 1)).flatten
      (readEvent d event d.fresh).2.supply := by
  induction h generalizing k sections with
  | nil m => cases hEvent
  | @failed m _ _ _ _ log hStep hLog =>
      cases k with
      | zero =>
          cases hEvent
          cases hRun
          simpa using hLog.makes
      | succ k =>
          cases hRun with
          | cons hOther _ =>
              rw [hStep] at hOther
              cases hOther
  | @cons m next _ _ _ log logs hStep hLog _ ih =>
      cases k with
      | zero =>
          cases hEvent
          cases hRun
          simpa using hLog.makes
      | succ k =>
          cases hRun with
          | cons hOther hAfter =>
              rw [hStep] at hOther
              cases hOther
              have hFirst := hLog.makes
              rw [session_of_process hStep] at hFirst
              exact hFirst.trans (ih hEvent hAfter)

/- All logs together say what the whole evaluation makes. -/
theorem Logged.makes_all
    (h : Logged first events logs) :
    ∃ t, first.session.supply.Makes logs.flatten t := by
  induction h with
  | nil d => exact ⟨d.session.supply, .nothing⟩
  | failed _ hLog => exact ⟨_, by simpa using hLog.makes⟩
  | cons hStep hLog _ ih =>
      rcases ih with ⟨t, hRest⟩
      have hFirst := hLog.makes
      rw [session_of_process hStep] at hFirst
      exact ⟨t, hFirst.trans hRest⟩

end Logging

------------------------------------------------------------
-- Where labels are read
------------------------------------------------------------

/- A start tag at a position, and what is read of it there. -/
inductive TagAt
    (first : State)
    (events : List Event)
    (position : Nat)
    (attributes : Entries)
    (tag : Reading) : Prop where
  | mk
      {sections : List (List Note)}
      {d : State}
      {name : String}
      {depth : Nat}
      {t : Session}
      (hEvent :
        events[position]? = some (.opened name attributes depth))
      (hRun : Run first (events.take position) sections d)
      (hRead :
        readTag d.settings d.scope d.elements.isEmpty name attributes
            d.fresh =
          (.ok tag, t)) :
      TagAt first events position attributes tag

/-
  A value of `about` or `resource` at the start tag at a
  position, and the node that it is read as, if any.
-/
inductive ReadAt
    (first : State)
    (events : List Event)
    (position : Nat)
    (value : String) : Option Subject → Prop where
  | about
      {attributes : Entries}
      {tag : Reading}
      (hTag : TagAt first events position attributes tag)
      (hValue : attributes.get? "about" = some value) :
      ReadAt first events position value tag.named.about
  | resource
      {attributes : Entries}
      {tag : Reading}
      (hTag : TagAt first events position attributes tag)
      (hValue : attributes.get? "resource" = some value) :
      ReadAt first events position value tag.named.resource

/- A start tag that was processed is one that was read. -/
theorem tagAt_of_startTagAt
    {first : State}
    {events : List Event}
    {position : Nat}
    {notes : List Note}
    (hSection :
      (Extraction.evaluate first events).1[position]? = some notes)
    {x : StartTag}
    (h : startTagAt first events position = some x) :
    TagAt first events position x.attributes x.reading := by
  rcases Standard.exists_run_of_section hSection with
    ⟨event, _, d, hEvent, hRun, _⟩
  have hBefore : first.before events position = d := hRun.through_eq
  rw [startTagAt_of_event hEvent, hBefore] at h
  rcases reads_of_startTag? h with ⟨_, _, _, _, rfl, _, hRead, _⟩
  exact .mk hEvent hRun hRead

/- After a start tag its labels have the nodes that were read. -/
theorem readEvent_labels
    {d : State}
    {name : String}
    {attributes : Entries}
    {tag : Reading}
    {t : Session}
    (hRead :
      readTag d.settings d.scope d.elements.isEmpty name attributes
          d.fresh =
        (.ok tag, t))
    (depth : Nat) :
    tag.named.ReadsLabels
      (readEvent d (.opened name attributes depth) d.fresh).2.supply
      attributes := by
  have hLabels :=
    readTag_labels _ _ _ _ _ _ tag t hRead
  have hAfter :=
    buildElement_precedes d.settings d.scope name attributes tag t
  unfold readEvent
  dsimp only
  rw [supply_bind_pure, openElement_eq, bind_of_ok hRead]
  exact hLabels.mono hAfter.supply

/- A label is read as the node that was made for it. -/
theorem ReadAt.label
    {first : State}
    {events : List Event}
    {logs : List (List Mint)}
    {position : Nat}
    {value label : String}
    {found : Option Subject}
    (h : ReadAt first events position value found)
    (hWrites : WritesLabel value label)
    (hLogged : Logged first events logs)
    (hEmpty : first.session.supply = .empty) :
    ∃ b,
      found = some (.blank b) ∧
        .label label b ∈ (logs.take (position + 1)).flatten := by
  have hMade :
      ∀ {d : State} {event : Event} {sections : List (List Note)}
        {i : Nat},
        events[position]? = some event →
          Run first (events.take position) sections d →
            (readEvent d event d.fresh).2.supply.number? label =
                some i →
              .label label (NodeSupply.node i) ∈
                (logs.take (position + 1)).flatten := by
    intro d event sections i hEvent hRun hNumber
    have hMakes := hLogged.makes hEvent hRun
    rcases (hMakes.number?_iff label i).mp hNumber with hOld | hNew
    · rw [hEmpty] at hOld
      cases hOld
    · exact hNew
  cases h with
  | about hTag hValue =>
      rcases hTag with ⟨hEvent, hRun, hRead⟩
      rcases (readEvent_labels hRead _).about value label hValue
          hWrites with
        ⟨i, hNumber, hFound⟩
      exact ⟨_, hFound, hMade hEvent hRun hNumber⟩
  | resource hTag hValue =>
      rcases hTag with ⟨hEvent, hRun, hRead⟩
      rcases (readEvent_labels hRead _).resource value label hValue
          hWrites with
        ⟨i, hNumber, hFound⟩
      exact ⟨_, hFound, hMade hEvent hRun hNumber⟩

------------------------------------------------------------
-- Nodes of evaluations
------------------------------------------------------------

/-
  What the logs of an evaluation say of its blank nodes. They
  are numbered in the order in which they are made, and never
  made twice. What is stated at an event has been made by its
  end. A label is read as a node that was made for it, and as
  the same node as another label only if it is the same label.
-/
structure Scoped
    (first : State)
    (events : List Event)
    (logs : List (List Mint)) : Prop where
  sections :
    logs.length = (Extraction.evaluate first events).1.length
  numbered :
    logs.flatten.map Mint.node =
      (List.range logs.flatten.length).map
        (fun i => ⟨"b" ++ Nat.repr i⟩)
  distinct :
    logs.flatten.Pairwise (fun m m' => m.node ≠ m'.node)
  stated :
    ∀ position notes,
      (Extraction.evaluate first events).1[position]? = some notes →
        ∀ q ∈ Note.quads notes, ∀ b, q.HasNode b →
          ∃ m ∈ (logs.take (position + 1)).flatten, m.node = b
  read :
    ∀ position value found label,
      ReadAt first events position value found →
        WritesLabel value label →
          ∃ b,
            found = some (.blank b) ∧
              .label label b ∈ (logs.take (position + 1)).flatten
  same :
    ∀ position value found label position' value' found' label',
      ReadAt first events position value found →
        WritesLabel value label →
          ReadAt first events position' value' found' →
            WritesLabel value' label' →
              (found = found' ↔ label = label')

/-
  Whatever events come, each has made the nodes of some log,
  also if it ends with a fault, and any such logs say the same
  of the nodes that are stated and of the labels that are
  read.
-/
theorem blank_nodes_scoped
    {settings : Settings}
    {base : String}
    {first : State}
    (hStart : start settings base = .ok first)
    (events : List Event) :
    (∃ logs, Logged first events logs) ∧
      ∀ logs, Logged first events logs →
        Scoped first events logs := by
  rcases minted_of_start hStart with ⟨hMinted, hEmpty⟩
  refine ⟨exists_logged hMinted events, ?_⟩
  intro logs hLogged
  rcases hLogged.makes_all with ⟨last, hAll⟩
  rw [hEmpty] at hAll
  have hInAll :
      ∀ {k : Nat} {m : Mint},
        m ∈ (logs.take k).flatten → m ∈ logs.flatten := by
    intro k m hMem
    rcases List.mem_flatten.mp hMem with ⟨log, hLog, hIn⟩
    exact List.mem_flatten.mpr ⟨log, List.mem_of_mem_take hLog, hIn⟩
  refine
    { sections := hLogged.length_eq
      numbered := ?_
      distinct := List.pairwise_map.mp hAll.nodup
      stated := ?_
      read := ?_
      same := ?_ }
  · rw [List.range_eq_range']
    exact hAll.nodes_eq
  · intro position notes hSection q hQuad b hNode
    rcases Standard.exists_run_of_section hSection with
      ⟨event, sections, d, hEvent, hRun, rfl⟩
    rw [notes_of_process] at hQuad
    have hMakes := hLogged.makes hEvent hRun
    rw [hEmpty] at hMakes
    have hMade :=
      (((minted_of_run hStart hRun).readEvent event).quads q
        hQuad).made hNode
    exact
      List.mem_map.mp
        ((NodeSupply.made_iff_of_makes hMakes b).mp hMade)
  · intro position value found label hRead hWrites
    exact hRead.label hWrites hLogged hEmpty
  · intro position value found label position' value' found' label'
      hRead hWrites hRead' hWrites'
    rcases hRead.label hWrites hLogged hEmpty with ⟨b, rfl, hMem⟩
    rcases hRead'.label hWrites' hLogged hEmpty with ⟨b', rfl, hMem'⟩
    rw [Option.some.injEq, Subject.blank.injEq]
    exact hAll.label_eq_iff (hInAll hMem) (hInAll hMem')

namespace OwnLabels

def settings : Settings :=
  ⟨.xhtml, ⟨.collection, true, [("f", "http://f/")], []⟩⟩

def first : State :=
  State.initial settings "http://ex/" ⟨"http://ex/"⟩

/-
  A document whose labels look like those of nodes that are
  made, beside a new node and a list.
-/
def events : List Event :=
  [.opened "div" [] 0,
    .opened "p" [("typeof", "f:T")] 1,
    .closed "p" 1,
    .opened "p"
      [("about", "_:b0"), ("rel", "f:r"), ("resource", "[_:b1]")] 1,
    .closed "p" 1,
    .opened "p"
      [("about", "[_:b1]"), ("rel", "f:l"), ("inlist", ""),
        ("resource", "_:b0")] 1,
    .closed "p" 1,
    .closed "div" 0]

theorem start_eq :
    start settings "http://ex/" = .ok first :=
  start_of_document (by decide +kernel) (by decide +kernel) settings

/- What is stated at each event. -/
def quads : List (List Quad) :=
  [[],
    [.triple (.blank ⟨"b0"⟩) Rdf.type (.iri ⟨"http://f/T"⟩)],
    [],
    [.triple (.blank ⟨"b1"⟩) ⟨"http://f/r"⟩ (.blank ⟨"b2"⟩)],
    [], [],
    [.triple (.blank ⟨"b2"⟩) ⟨"http://f/l"⟩ (.blank ⟨"b3"⟩),
      .triple (.blank ⟨"b3"⟩) Rdf.first (.blank ⟨"b1"⟩),
      .triple (.blank ⟨"b3"⟩) Rdf.rest (.iri Rdf.nil)],
    []]

theorem quads_eq :
    (Extraction.evaluate first events).1.map Note.quads = quads := by
  decide +kernel

/- The two start tags that hold labels. -/
def outward : StartTag :=
  (startTagAt first events 3).get (by decide +kernel)

def inward : StartTag :=
  (startTagAt first events 5).get (by decide +kernel)

theorem tagAt
    (position : Nat)
    {x : StartTag}
    (hLt : position < quads.length)
    (h : startTagAt first events position = some x) :
    TagAt first events position x.attributes x.reading := by
  rw [← quads_eq, List.length_map] at hLt
  exact tagAt_of_startTagAt (List.getElem?_eq_getElem hLt) h

theorem read_outward :
    ReadAt first events 3 "_:b0" outward.reading.named.about ∧
      ReadAt first events 3 "[_:b1]" outward.reading.named.resource := by
  have hTag :
      TagAt first events 3 outward.attributes outward.reading :=
    tagAt 3 (by decide) (Option.some_get _).symm
  exact
    ⟨.about hTag (by decide +kernel),
      .resource hTag (by decide +kernel)⟩

theorem read_inward :
    ReadAt first events 5 "_:b0" inward.reading.named.resource :=
  .resource (tagAt 5 (by decide) (Option.some_get _).symm)
    (by decide +kernel)

end OwnLabels

open OwnLabels in
/- The labels neither meet each other nor the nodes that are made. -/
theorem own_labels_kept_apart :
    start settings "http://ex/" = .ok first ∧
      (Extraction.evaluate first events).1.map Note.quads = quads ∧
        (∃ logs, Logged first events logs ∧ Scoped first events logs) ∧
          outward.reading.named.about ≠
              outward.reading.named.resource ∧
            inward.reading.named.resource =
              outward.reading.named.about := by
  rcases blank_nodes_scoped start_eq events with
    ⟨⟨logs, hLogged⟩, hScoped⟩
  have hSame := (hScoped logs hLogged).same
  have hPlain : WritesLabel "_:b0" "b0" := .plain (by decide)
  have hBracketed : WritesLabel "[_:b1]" "b1" :=
    .bracketed (by decide)
  refine
    ⟨start_eq, quads_eq, ⟨logs, hLogged, hScoped logs hLogged⟩, ?_,
      ?_⟩
  · rw [Ne, hSame _ _ _ _ _ _ _ _ read_outward.1 hPlain
      read_outward.2 hBracketed]
    decide
  · exact
      (hSame _ _ _ _ _ _ _ _ read_inward hPlain read_outward.1
        hPlain).mpr rfl

end Evaluation
end LinkedMarkup
