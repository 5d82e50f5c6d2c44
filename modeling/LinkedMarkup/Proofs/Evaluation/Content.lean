import LinkedMarkup.Proofs.Evaluation.Emission
import LinkedMarkup.Proofs.Evaluation.Values

/-
  This file proves what becomes of a property value that waits
  for the content of its element: the end tag of the element
  makes one value of all that is inside it, and gives it to
  each predicate once. Any number of elements around it and
  inside it may capture at the same time.

  Key definitions include:
    * `Event.data?`
    * `Evaluation.contentOf`
    * `Environment.predicates`
    * `Evaluation.StartTag.Awaits`

  Main declarations:
    * `Evaluation.pending_capturing`
    * `Evaluation.awaits_of_startTag?`
    * `Evaluation.notes_of_closing`
    * `Evaluation.content_becomes_value`
-/

namespace LinkedMarkup

------------------------------------------------------------
-- Captured content
------------------------------------------------------------

/- The text that an event adds to a value without markup. -/
def Event.data? :
    Event → Option String
  | text data => some data
  | _ => none

namespace Evaluation

/-
  The content that events give: as markup with all tags, or
  as the text between the tags, at any depth.
-/
def contentOf
    (keepsMarkup : Bool)
    (events : List Event) : String :=
  if keepsMarkup then
    String.join (events.map Event.written)
  else
    String.join (events.filterMap Event.data?)

theorem contentOf_cons
    (keepsMarkup : Bool)
    (event : Event)
    (rest : List Event) :
    contentOf keepsMarkup (event :: rest) =
      contentOf keepsMarkup [event] ++ contentOf keepsMarkup rest := by
  unfold contentOf
  cases keepsMarkup with
  | true => simp [String.join_cons]
  | false =>
      cases hData : event.data? <;> simp [hData, String.join_cons]

end Evaluation

namespace Pending

/- A value that has captured more text. -/
def extended
    (p : Pending)
    (text : String) : Pending :=
  { p with text := p.text ++ text }

theorem extended_extended
    (p : Pending)
    (first second : String) :
    (p.extended first).extended second =
      p.extended (first ++ second) := by
  unfold extended
  rw [String.append_assoc]

theorem extended_empty
    (p : Pending) :
    p.extended "" = p := by
  unfold extended
  rw [String.append_empty]

theorem capture_eq
    (p : Pending)
    (event : Event) :
    p.capture event =
      p.extended (Evaluation.contentOf p.keepsMarkup [event]) := by
  unfold capture Evaluation.contentOf
  cases hKeeps : p.keepsMarkup with
  | true => simp [extended, hKeeps, String.join_cons]
  | false =>
      cases event with
      | text data =>
          simp [extended, hKeeps, Event.data?, String.join_cons]
      | opened name attributes depth => exact p.extended_empty.symm
      | closed name depth => exact p.extended_empty.symm
      | unknown description => exact p.extended_empty.symm

/- Capturing events one by one collects their content in order. -/
theorem foldl_capture
    (p : Pending)
    (events : List Event) :
    events.foldl capture p =
      p.extended (Evaluation.contentOf p.keepsMarkup events) := by
  induction events generalizing p with
  | nil =>
      cases hKeeps : p.keepsMarkup <;> exact p.extended_empty.symm
  | cons event rest ih =>
      rw [List.foldl_cons, ih, capture_eq, extended_extended,
        Evaluation.contentOf_cons _ event rest]
      rfl

end Pending

namespace Evaluation

open Work

/- An element that waits captures the content of events. -/
theorem pending_capturing
    (e : Element)
    (events : List Event) :
    (e.capturing events).pending =
      e.pending.map
        (fun p => p.extended (contentOf p.keepsMarkup events)) := by
  simp only [← Pending.foldl_capture]
  unfold Element.capturing
  induction events generalizing e with
  | nil => exact Option.map_id'.symm
  | cons event rest ih =>
      rw [List.foldl_cons, ih]
      exact Option.map_map ..

theorem bare_capturing
    (e : Element)
    (events : List Event) :
    (e.capturing events).bare = e.bare := by
  unfold Element.capturing
  induction events generalizing e with
  | nil => rfl
  | cons event rest ih =>
      exact (ih (e.capture event)).trans (e.bare_capture event)

end Evaluation

------------------------------------------------------------
-- Values that wait
------------------------------------------------------------

namespace Environment

/- The predicates that `property` names in what is in force. -/
def predicates
    (x : Environment)
    (attributes : Entries) : List Iri :=
  match attributes.get? "property" with
  | none => []
  | some value => (Text.words value).filterMap x.named?

/-
  A value that waits is as attributes ask in what is in
  force: for their predicates, of their datatype, and with
  markup if that datatype keeps it. It has no text yet.
-/
structure Asks
    (x : Environment)
    (attributes : Entries)
    (p : Pending) : Prop where
  inList : p.inList = attributes.has "inlist"
  predicates : p.predicates = x.predicates attributes
  datatype : p.datatype = x.datatype? attributes
  language : p.language = x.language
  keepsMarkup :
    p.keepsMarkup = p.datatype.any Evaluation.markupDatatypes.contains
  text : p.text = ""

end Environment

namespace Evaluation

open Work

/-
  A value that waits after a start tag is for the subject and
  the list of its element, and is as its attributes ask.
-/
structure StartTag.Awaits
    (x : StartTag)
    (p : Pending) : Prop where
  subject : x.element.subject = some p.subject
  list : p.list = x.element.list
  asks : x.element.scope.environment.Asks x.attributes p

theorem propertyValue_waits
    (settings : Settings)
    (name : String)
    (attributes : Entries)
    (scope : Scope)
    (named : Named)
    (typed : Option Subject)
    (hasRelations : Bool)
    {pending : Pending}
    (hDatatype : pending.datatype = none)
    (hMarkup : pending.keepsMarkup = false) :
    (propertyValue settings name attributes scope named typed
      hasRelations pending).Yields
        (fun found =>
          ∀ p, found = .error p →
            ∃ infers,
              p =
                { pending with
                  datatype := scope.environment.datatype? attributes
                  keepsMarkup :=
                    (scope.environment.datatype? attributes).any
                      markupDatatypes.contains
                  infersMoment := infers }) := by
  have hKnown :
      ∀ (w : Work Literal) (P : Pending → Prop),
        (w >>= fun l =>
          (pure (.ok (.literal l)) :
            Work (Except Pending Object))).Yields
          (fun found => ∀ p, found = .error p → P p) := by
    intro w P
    apply yields_bind
    intro l
    apply yields_pure
    intro p hEq
    cases hEq
  unfold propertyValue
  refine (readDatatype_yields scope attributes).bind ?_
  rintro _ rfl
  cases scope.environment.datatype? attributes with
  | some d =>
      dsimp only
      cases hKeeps : markupDatatypes.contains d with
      | true =>
          apply yields_pure
          rintro _ ⟨⟩
          exact ⟨pending.infersMoment, by rw [Option.any_some, hKeeps]⟩
      | false =>
          cases (explicitContent settings attributes).1 with
          | none =>
              apply yields_pure
              rintro _ ⟨⟩
              refine ⟨pending.infersMoment, ?_⟩
              rw [Option.any_some, hKeeps, ← hMarkup]
          | some text => exact hKnown _ _
  | none =>
      dsimp only
      split
      · split
        · apply yields_pure
          rintro _ ⟨⟩
          refine ⟨pending.infersMoment, ?_⟩
          cases pending
          cases hDatatype
          cases hMarkup
          rfl
        · exact hKnown _ _
      · split
        · exact hKnown _ _
        · split
          · apply yields_pure
            rintro _ ⟨⟩
          · split
            · apply yields_pure
              rintro _ ⟨⟩
            · apply yields_pure
              rintro _ ⟨⟩
              refine ⟨settings.isHtml && name == "time", ?_⟩
              cases pending
              cases hDatatype
              cases hMarkup
              rfl

/- A property value that waits is as the attributes ask. -/
theorem readProperty_waits
    (settings : Settings)
    (name : String)
    (attributes : Entries)
    (scope : Scope)
    (named : Named)
    (parts : Roles)
    (list : Nat)
    (hasRelations : Bool) :
    (readProperty settings name attributes scope named parts list
      (attributes.has "inlist") hasRelations).Yields
        (fun pending =>
          ∀ p, pending = some p →
            scope.environment.Asks attributes p) := by
  have hNone :
      (pure none : Work (Option Pending)).Yields
        (fun pending =>
          ∀ p, pending = some p →
            scope.environment.Asks attributes p) := by
    apply yields_pure
    rintro p ⟨⟩
  unfold readProperty
  split
  · rename_i value subject hValue _
    refine (Resolution.terms_yields scope value).bind ?_
    intro predicates hPredicates
    split
    · exact hNone
    · refine
        (propertyValue_waits settings name attributes scope named
          parts.typed hasRelations rfl rfl).bind ?_
      intro found hFound
      cases found with
      | error waiting =>
          rcases hFound waiting rfl with ⟨infers, rfl⟩
          apply yields_pure
          rintro p ⟨⟩
          refine ⟨rfl, ?_, rfl, rfl, rfl, rfl⟩
          unfold Environment.predicates
          rw [hValue]
          exact hPredicates
      | ok object => exact yields_bind (fun _ => hNone)
  · exact hNone

theorem buildElement_asks
    (settings : Settings)
    (parent : Scope)
    (name : String)
    (attributes : Entries)
    (tag : Reading) :
    (buildElement settings parent name attributes tag).Yields
      (fun e =>
        ∀ p, e.pending = some p →
          tag.scope.environment.Asks attributes p) := by
  unfold buildElement
  refine yields_bind (fun list => ?_)
  refine yields_bind (fun incomplete => ?_)
  refine yields_bind (fun object => ?_)
  refine Yields.bind (readProperty_waits _ _ _ _ _ _ _ _) ?_
  intro pending hPending s e t hRun p hSome
  rw [(enclose_fields _ _ _ _ _ _ _ _ s e t hRun).2.2] at hSome
  exact hPending p hSome

/- Whatever waits after a start tag is what the tag awaits. -/
theorem awaits_of_startTag?
    {d : State}
    {event : Event}
    {x : StartTag}
    (h : startTag? d event = some x)
    {p : Pending}
    (hPending : x.element.pending = some p) :
    x.Awaits p := by
  rcases reads_of_startTag? h with
    ⟨name, depth, m, t, _, _, hRead, hBuild⟩
  have hOpen :
      openElement d.settings d.scope d.elements.isEmpty name
          x.attributes d.fresh =
        (.ok x.element, t) := by
    rw [openElement_eq]
    exact (bind_of_ok hRead _).trans hBuild
  have hOwn :=
    (openElement_opened _ _ _ _ _ _ _ _ hOpen).pending p hPending
  have hAsks := buildElement_asks _ _ _ _ _ _ _ _ hBuild p hPending
  rw [← buildElement_environment _ _ _ _ _ _ _ _ hBuild] at hAsks
  exact ⟨hOwn.2, hOwn.1, hAsks⟩

end Evaluation

------------------------------------------------------------
-- Completed values
------------------------------------------------------------

/- What a mapping writes with a subject when it is flushed. -/
def ListForest.writes
    (f : ListForest Iri Object)
    (list : Nat)
    (subject : Subject)
    (supply : NodeSupply) : List Quad :=
  (Quad.ofLists (f.slot list).collects subject (f.slot list).lists
    supply).1

namespace Evaluation

open Work

/-
  Once the value of an element is complete, its end tag only
  notes what its lists write.
-/
theorem closeElement_told
    {e : Element}
    {s m : Session}
    {subject : Subject}
    (hComplete : completeElement e s = (.ok (), m))
    (hSubject : e.subject = some subject)
    (hOpen : m.lists.flushed e.list = false) :
    ∃ u,
      closeElement e s = (.ok (), u) ∧
        u.notes.toList =
          m.notes.toList ++
            (m.lists.writes e.list subject m.supply).map
              Note.quad := by
  rw [closeElement_of_ok hComplete, hSubject, flushLists_eq hOpen]
  refine ⟨_, rfl, ?_⟩
  rw [Array.toList_append, List.toList_toArray]
  rfl

/-
  The end tag of an element whose value waits notes the value
  for each predicate, and then what the lists of the element
  write.
-/
theorem notes_of_closing
    {d d' : State}
    {e : Element}
    {rest : List Element}
    {p : Pending}
    {name : String}
    {depth : Nat}
    {notes : List Note}
    (hHoused : Housed d)
    (hElements : d.elements = e :: rest)
    (hPending : e.pending = some p)
    (hList : p.list = e.list)
    (hSubject : e.subject = some p.subject)
    (h : process d (.closed name depth) = (.ok d', notes)) :
    notes =
      p.completion ++
        ((d.session.lists.filedInto
          (Note.filings p.completion)).writes p.list p.subject
            d.session.supply).map Note.quad := by
  rcases process_closed h with
    ⟨o, others, m, t, hTop, rfl, hComplete, hFlush, _, rfl⟩
  rw [hElements] at hTop
  cases hTop
  have hOpen := hHoused.unflushed hElements hComplete
  have hBefore : d.fresh.lists.flushed p.list = false := by
    rw [← (sameShape_of_completeElement hComplete).flushed_eq, hList]
    exact hOpen
  have hTold : m = d.fresh.told p.completion := by
    have hRun := completePending_tells hBefore
    unfold completeElement at hComplete
    rw [hPending] at hComplete
    exact congrArg Prod.snd (hComplete.symm.trans hRun)
  rcases closeElement_told hComplete hSubject hOpen with
    ⟨u, hClose, hNotes⟩
  have hSame : u = t :=
    congrArg Prod.snd
      (hClose.symm.trans ((closeElement_of_ok hComplete).trans hFlush))
  rw [← hSame, hNotes, hTold, hList]
  simp [Session.told, State.fresh]

/-
  Whatever happens inside an element whose value waits, its
  end tag makes one value of all content in between, however
  many other elements capture the same events, and states it
  or puts it in a list once for each predicate. After that,
  only the lists of the element are written.
-/
theorem content_becomes_value
    {settings : Settings}
    {base : String}
    {first final : State}
    {events before inside after : List Event}
    {name : String}
    {attributes : Entries}
    {depth depth' : Nat}
    {sections : List (List Note)}
    {x : StartTag}
    {p : Pending}
    (hStart : start settings base = .ok first)
    (hRun : Run first events sections final)
    (hInside : Event.Nested inside)
    (hEvents :
      events =
        before ++ .opened name attributes depth ::
          (inside ++ .closed name depth' :: after))
    (hTag : startTagAt first events before.length = some x)
    (hPending : x.element.pending = some p) :
    x.Awaits p ∧
      ∃ notes value d,
        sections[before.length + 1 + inside.length]? = some notes ∧
          d = first.before events (before.length + 1 + inside.length) ∧
          value =
            (p.extended (contentOf p.keepsMarkup inside)).literal ∧
          value.value = contentOf p.keepsMarkup inside ∧
          Note.filings notes =
            (if p.inList then
              p.predicates.map (fun i =>
                ⟨p.list, i, .literal value⟩)
            else
              []) ∧
          Note.quads notes =
            (if p.inList then
              []
            else
              p.predicates.map (fun i =>
                .triple p.subject i (.literal value))) ++
              (d.session.lists.filedInto
                (Note.filings notes)).writes p.list p.subject
                  d.session.supply := by
  have hOpened :
      events[before.length]? = some (.opened name attributes depth) := by
    rw [hEvents]
    simp
  have hClosed :
      events[before.length + 1 + inside.length]? =
        some (.closed name depth') := by
    rw [hEvents, Nat.add_assoc, List.getElem?_append_right (by simp)]
    simp [Nat.add_comm 1]
  have hMiddle :
      (events.take (before.length + 1 + inside.length)).drop
          (before.length + 1) =
        inside := by
    rw [hEvents, List.drop_take, Nat.add_sub_cancel_left]
    simp
  rcases hRun.step_at hOpened with ⟨_, _, _, hOpening⟩
  rcases hRun.step_at hClosed with ⟨notes, hSection, hBefore, hClosing⟩
  rcases hRun.between (Nat.le_add_right (before.length + 1)
      inside.length) with ⟨_, hBetween⟩
  rw [hMiddle] at hBetween
  rcases process_startTag hOpening with
    ⟨o, _, t, hStarted, _, _, _, _, hAfter, _⟩
  rw [startTagAt_of_event hOpened, hStarted] at hTag
  cases hTag
  have hAwaits := awaits_of_startTag? hStarted hPending
  have hElements := elements_of_run_nested hInside hBetween
  rw [hAfter] at hElements
  have hCaptured := pending_capturing x.element inside
  rw [hPending] at hCaptured
  have hBare := bare_capturing x.element inside
  have hNotes :=
    notes_of_closing (housed_of_run (housed_of_start hStart) hBefore)
      hElements hCaptured
      (hAwaits.list.trans (congrArg Element.list hBare).symm)
      ((congrArg Element.subject hBare).trans hAwaits.subject)
      hClosing
  have hFilings :
      Note.filings notes =
        Note.filings
          (p.extended (contentOf p.keepsMarkup inside)).completion := by
    rw [hNotes, Note.filings_append, Note.filings_map_quad,
      List.append_nil]
  refine ⟨hAwaits, notes, _, _, hSection, rfl, rfl, ?_, ?_, ?_⟩
  · unfold Pending.literal
    rw [Literal.value_ofText]
    unfold Pending.extended
    rw [hAwaits.asks.text, String.empty_append]
  · rw [hFilings]
    exact filings_completion _
  · rw [hFilings, hNotes, Note.quads_append, Note.quads_map_quad,
      quads_completion]
    rfl

namespace Captures

def settings : Settings :=
  ⟨.xhtml,
    ⟨.members, true,
      [("f", "http://f/"),
        ("rdf", "http://www.w3.org/1999/02/22-rdf-syntax-ns#")],
      []⟩⟩

def first : State :=
  State.initial settings "http://ex/" ⟨"http://ex/"⟩

def before : List Event :=
  [.opened "div" [("about", "#a")] 0, .text "-"]

def attributes : Entries :=
  [("property", "f:x f:w"), ("datatype", "rdf:XMLLiteral")]

/- Content with an element that captures text for itself. -/
def inside : List Event :=
  [.text "A&",
    .opened "b" [("property", "f:y"), ("inlist", "")] 2,
    .text "t", .opened "i" [] 3, .text "u", .closed "i" 3,
    .closed "b" 2]

def after : List Event :=
  [.closed "div" 0]

/- An element that captures markup, with one inside it. -/
def events : List Event :=
  before ++ .opened "p" attributes 1 ::
    (inside ++ .closed "p" 1 :: after)

def tag : StartTag :=
  (startTagAt first events before.length).get (by decide +kernel)

def waiting : Pending :=
  tag.element.pending.get (by decide +kernel)

theorem start_eq :
    start settings "http://ex/" = .ok first :=
  start_of_document (by decide +kernel) (by decide +kernel) settings

theorem nested_inside :
    Event.Nested inside :=
  .text "A&"
    (.element "b" _ 2 2
      (.text "t" (.element "i" [] 3 3 (.text "u" .nil) .nil)) .nil)

theorem startTagAt_eq :
    startTagAt first events before.length = some tag :=
  (Option.some_get _).symm

theorem pending_eq :
    tag.element.pending = some waiting :=
  (Option.some_get _).symm

end Captures

open Captures in
/- The tags of the element inside are part of the value. -/
theorem markup_around_captured_text :
    tag.Awaits waiting ∧
      ∃ notes,
        (Extraction.evaluate first events).1[10]? = some notes ∧
          Note.filings notes = [] ∧
          Note.quads notes =
            [⟨"http://f/x"⟩, ⟨"http://f/w"⟩].map (fun i =>
              .triple (.iri ⟨"http://ex/#a"⟩) i
                (.literal (.typed
                  "A&amp;<b property=\"f:y\" inlist=\"\">t<i>u</i></b>"
                  Rdf.xmlLiteral))) := by
  rcases content_becomes_value start_eq
      (run_through (by decide +kernel)) nested_inside rfl
      startTagAt_eq pending_eq with
    ⟨hAwaits, notes, value, d, hSection, hState, hValue, _, hFilings,
      hQuads⟩
  rw [hFilings, hState, hValue] at hQuads
  rw [hValue] at hFilings
  refine ⟨hAwaits, notes, hSection, hFilings.trans ?_,
    hQuads.trans ?_⟩
  · decide +kernel
  · decide +kernel

end Evaluation
end LinkedMarkup
