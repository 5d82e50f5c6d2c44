import LinkedMarkup.Proofs.Evaluation.Blocks
import LinkedMarkup.Proofs.Evaluation.Supplied
import LinkedMarkup.Proofs.Evaluation.Wrapping

/-
  This file proves that it makes no difference whether the
  value of a property is given as a text in an attribute or
  as the content of the element. The value is noted at the
  end tag instead of the start tag, after the relations that
  the start tag completes; these go to the lists of other
  elements, so nothing that is written depends on the order.

  Key definitions include:
    * `Evaluation.Alike`

  Main declarations:
    * `ListForest.slot_filedInto`
    * `ListForest.writes_swap`
    * `Evaluation.evaluate_element`
    * `Evaluation.given_value_alike_content`
-/

namespace LinkedMarkup

------------------------------------------------------------
-- Lists that are filled in another order
------------------------------------------------------------

namespace ListForest

/- A mapping owns what is put in the lists of its owner. -/
theorem slot_filedInto
    (f : ListForest Iri Object)
    {id : Nat}
    (hId : id < f.slots.size)
    (filings : List Filing) :
    (f.filedInto filings).slot id =
      { f.slot id with
        lists :=
          (filings.filter
            (fun x => (f.slot x.list).owner = id)).foldl
              (fun lists x => extended lists x.predicate x.value)
              (f.slot id).lists } := by
  induction filings generalizing f with
  | nil => rfl
  | cons x rest ih =>
      have hShape :=
        sameShape_setLists f x.list
          (extended (f.lists x.list) x.predicate x.value)
      change ((f.setLists x.list _).filedInto rest).slot id = _
      rw [ih _ (by rw [hShape.size_eq]; exact hId)]
      simp only [hShape.owner_eq]
      rw [slot_setLists]
      by_cases hOwner : (f.slot x.list).owner = id
      · rw [if_pos ⟨hOwner.symm, by rw [hOwner]; exact hId⟩,
          List.filter_cons_of_pos (by simp [hOwner])]
        unfold ListForest.lists
        rw [hOwner]
        rfl
      · rw [if_neg (fun hBoth => hOwner hBoth.1.symm),
          List.filter_cons_of_neg (by simp [hOwner])]

/-
  What a mapping writes does not depend on when the lists of
  other owners were filled.
-/
theorem writes_swap
    {f : ListForest Iri Object}
    {id : Nat}
    (hId : id < f.slots.size)
    {others : List Filing}
    (hOthers : ∀ x ∈ others, (f.slot x.list).owner ≠ id)
    (filings : List Filing)
    (subject : Subject)
    (supply : NodeSupply) :
    ((f.filedInto filings).filedInto others).writes id subject
        supply =
      ((f.filedInto others).filedInto filings).writes id subject
        supply := by
  have hNone :
      others.filter (fun x => (f.slot x.list).owner = id) = [] := by
    rw [List.filter_eq_nil_iff]
    intro x hMem
    simpa using hOthers x hMem
  unfold writes
  rw [← filedInto_append, ← filedInto_append, slot_filedInto f hId,
    slot_filedInto f hId, List.filter_append, List.filter_append,
    hNone, List.append_nil, List.nil_append]

end ListForest

/- A session of which all notes are taken. -/
def Session.cleared
    (s : Session) : Session :=
  { s with notes := #[] }

namespace Evaluation

open Work

------------------------------------------------------------
-- Elements with texts
------------------------------------------------------------

/-
  Evaluations that end alike, and state the same quads and
  put the same values in the same lists, in any order.
-/
structure Alike
    (found found' : List (List Note) × Except Fault State) : Prop where
  outcome : found.2.map (fun _ => ()) = found'.2.map (fun _ => ())
  quads :
    (Note.quads found.1.flatten).Perm (Note.quads found'.1.flatten)
  filings :
    (Note.filings found.1.flatten).Perm
      (Note.filings found'.1.flatten)

theorem alike_of_perm
    {found found' : List (List Note) × Except Fault State}
    (hOutcome :
      found.2.map (fun _ => ()) = found'.2.map (fun _ => ()))
    (hNotes : found.1.flatten.Perm found'.1.flatten) :
    Alike found found' :=
  ⟨hOutcome, hNotes.filterMap _, hNotes.filterMap _⟩

/- Texts only go to the elements that capture them. -/
theorem evaluate_texts
    {d : State}
    {e : Element}
    {rest : List Element}
    (hElements : d.elements = e :: rest)
    {texts : List String}
    {outcome : Except Fault Unit}
    {u : Session}
    (hClose :
      closeElement (e.capturing (texts.map .text)) d.fresh =
        (outcome, u))
    (depth : Nat) :
    (Extraction.evaluate d
          (texts.map .text ++ [.closed e.name depth])).1.flatten =
        u.notes.toList ∧
      (Extraction.evaluate d
          (texts.map .text ++ [.closed e.name depth])).2.map
            (fun _ => ()) =
        outcome := by
  induction texts generalizing d e rest with
  | nil =>
      change closeElement e d.fresh = (outcome, u) at hClose
      have hProcess := process_of_close hElements hClose depth
      rw [List.map_nil, List.nil_append]
      unfold Extraction.evaluate
      rw [hProcess]
      cases outcome <;> simp [Extraction.evaluate, Except.map]
  | cons text more ih =>
      have hNext :
          (d.after (captureAll (.text text) d.elements)
              d.fresh).elements =
            e.capture (.text text) :: captureAll (.text text) rest := by
        change captureAll (.text text) d.elements = _
        rw [hElements]
        rfl
      exact ih (e := e.capture (.text text)) hNext hClose

/- What the tags of an element with texts note, and how they end. -/
theorem evaluate_element
    {d : State}
    {name : String}
    {attributes : Entries}
    {e : Element}
    {t : Session}
    (hOpen :
      openElement d.settings d.scope d.elements.isEmpty name attributes
        d.fresh = (.ok e, t))
    (hName : e.name = name)
    (texts : List String)
    {outcome : Except Fault Unit}
    {u : Session}
    (hClose :
      closeElement (e.capturing (texts.map .text))
        t.cleared = (outcome, u))
    (depth depth' : Nat) :
    (Extraction.evaluate d
          (.opened name attributes depth ::
            (texts.map .text ++ [.closed name depth']))).1.flatten =
        t.notes.toList ++ u.notes.toList ∧
      (Extraction.evaluate d
          (.opened name attributes depth ::
            (texts.map .text ++ [.closed name depth']))).2.map
              (fun _ => ()) =
        outcome := by
  subst hName
  have hTexts :=
    evaluate_texts
      (d := d.after
        (e :: captureAll (.opened e.name attributes depth) d.elements) t)
      rfl hClose depth'
  rw [Extraction.evaluate, process_of_open hOpen depth]
  exact ⟨congrArg (t.notes.toList ++ ·) hTexts.1, hTexts.2⟩

/- A start tag at fault ends the evaluation. -/
theorem evaluate_opened_error
    {d : State}
    {name : String}
    {attributes : Entries}
    {fault : Fault}
    {t : Session}
    (hOpen :
      openElement d.settings d.scope d.elements.isEmpty name attributes
        d.fresh = (.error fault, t))
    (depth : Nat)
    (rest : List Event) :
    Extraction.evaluate d (.opened name attributes depth :: rest) =
      ([t.notes.toList], .error fault) := by
  rw [Extraction.evaluate, process_of_open hOpen depth]
  rfl

------------------------------------------------------------
-- Given values
------------------------------------------------------------

/- What is noted when an element has a text for its value. -/
def textNotes
    (text : String)
    (e : Element) : List Note :=
  match e.pending with
  | none => []
  | some p => (p.extended text).completion

theorem completeNow_tells
    {e : Element}
    {s : Session}
    (hOpen :
      ∀ p, e.pending = some p → s.lists.flushed p.list = false)
    (text : String) :
    (completeNow text e).Tells s { e with pending := none }
      (textNotes text e) := by
  unfold completeNow textNotes
  cases hPending : e.pending with
  | none =>
      exact (tells_pure none s).bind_pure
        (fun pending => { e with pending := pending })
  | some p =>
      have hList : s.lists.flushed (p.extended text).list = false :=
        hOpen p hPending
      exact
        ((completePending_tells hList).bind_pure
          (fun _ => none)).bind_pure
            (fun pending => { e with pending := pending })

theorem settle_tells
    {parent : Scope}
    {s : Session}
    (hSubject : parent.subject.isSome = true)
    (hOpen :
      ∀ p l, Incomplete.listed p l ∈ parent.incomplete →
        s.lists.flushed l = false)
    (e : Element) :
    (settle parent false e).Tells s e
      (completions parent e.subject) :=
  (completeRelations_tells hSubject hOpen e.subject).bind_pure
    (fun _ => e)

/-
  The end tag of an element notes the text that it captured,
  and its lists are written as if it had been noted earlier.
-/
theorem closeElement_captured
    {e : Element}
    {p : Pending}
    {s : Session}
    (others : List Note)
    (hPending : e.pending = some p)
    (hMarkup : p.keepsMarkup = false)
    (hList : p.list = e.list)
    (hSubject : e.subject = some p.subject)
    (hSize : e.list < s.lists.slots.size)
    (hOpen : s.lists.flushed e.list = false)
    (hOthers :
      ∀ x ∈ Note.filings others, (s.lists.slot x.list).owner ≠ e.list)
    (text : String) :
    ∃ u u',
      closeElement { e with pending := none }
          (s.told (textNotes text e ++ others)).cleared =
        (.ok (), u) ∧
      closeElement (e.capture (.text text))
          (s.told others).cleared =
        (.ok (), u') ∧
      u'.notes.toList = textNotes text e ++ u.notes.toList := by
  have hNotes : textNotes text e = (p.extended text).completion := by
    unfold textNotes
    rw [hPending]
  have hCaptured :
      (e.capture (.text text)).pending = some (p.extended text) := by
    unfold Element.capture Pending.capture
    simp [hPending, hMarkup, Pending.extended]
  have hUnflushed :
      ∀ notes : List Note,
        (s.told notes).lists.flushed e.list = false := by
    intro notes
    exact ((s.sameShape_told notes).flushed_eq e.list).trans hOpen
  have hComplete :
      (completeElement (e.capture (.text text))).Tells
        (s.told others).cleared ()
        (textNotes text e) := by
    unfold completeElement
    rw [hCaptured, hNotes]
    refine completePending_tells ?_
    rw [← hUnflushed others, ← hList]
    rfl
  have hSwap :=
    ListForest.writes_swap hSize hOthers
      (Note.filings (textNotes text e)) p.subject s.supply
  have hEarly :
      completeElement { e with pending := none }
          (s.told (textNotes text e ++ others)).cleared =
        (.ok (),
          (s.told (textNotes text e ++ others)).cleared) :=
    rfl
  rcases closeElement_told hEarly hSubject (hUnflushed _) with
    ⟨u, hClose, hWrites⟩
  rcases closeElement_told hComplete hSubject
      (((Session.sameShape_told _ _).flushed_eq e.list).trans
        (hUnflushed others)) with
    ⟨u', hClose', hWrites'⟩
  refine ⟨u, u', hClose, hClose', ?_⟩
  rw [hWrites, hWrites']
  simp [Session.told, Session.cleared, Note.filings_append,
    ListForest.filedInto_append, Element.capture, hSwap]

/-
  What is known of an element that was opened where nothing
  waited: the lists that wait around it can be filled, and
  belong to others.
-/
structure Apart
    (d : State)
    (e : Element)
    (s : Session) : Prop where
  size : e.list < s.lists.slots.size
  own : s.lists.flushed e.list = false
  listed :
    ∀ p l, Incomplete.listed p l ∈ d.scope.incomplete →
      s.lists.flushed l = false ∧ (s.lists.slot l).owner ≠ e.list
  pending :
    ∀ p, e.pending = some p →
      p.list = e.list ∧ e.subject = some p.subject

theorem apart_of_opened
    {d : State}
    (hSound : Sound d)
    {parent : Scope}
    {isRoot : Bool}
    {name : String}
    {s : Session}
    {e : Element}
    (hOpened : Opened d.settings parent isRoot name d.fresh s e) :
    Apart d e s := by
  rcases hSound.housed with ⟨W, hLodged, hUsable⟩
  have hList : e.list = d.session.lists.slots.size := hOpened.list_eq
  have hSize : s.lists.slots.size = d.session.lists.slots.size + 1 :=
    hOpened.size_eq
  refine ⟨by omega, ?_, ?_, hOpened.pending⟩
  · rw [hOpened.flushed_eq, hList]
    exact ListForest.flushed_of_size_le (Nat.le_refl _)
  · intro p l hMem
    rcases hUsable l (hLodged.uses_scope.listed p l hMem) with
      ⟨hOld, hOpen⟩
    have hOwner := hOpened.owner_eq hOld
    have hBound := hSound.owned l hOld
    refine ⟨(hOpened.flushed_eq l).trans hOpen, ?_⟩
    rw [hOwner, hList]
    exact Nat.ne_of_lt hBound

theorem mem_filings_completions
    {around : Scope}
    {node : Option Subject}
    {x : Filing}
    (h : x ∈ Note.filings (completions around node)) :
    ∃ p, Incomplete.listed p x.list ∈ around.incomplete := by
  unfold completions Note.filings at h
  split at h
  · rcases List.mem_filterMap.mp h with ⟨n, hNote, hFiled⟩
    rcases List.mem_map.mp hNote with ⟨incomplete, hMem, rfl⟩
    cases incomplete with
    | listed p l =>
        cases hFiled
        exact ⟨p, hMem⟩
    | forward p => cases hFiled
    | reverse p => cases hFiled
  · cases h

theorem Apart.unflushed
    {d : State}
    {e : Element}
    {s : Session}
    (h : Apart d e s)
    (p : Pending)
    (hPending : e.pending = some p) :
    s.lists.flushed p.list = false := by
  rw [(h.pending p hPending).1]
  exact h.own

/- What waits around the element is completed at any time. -/
theorem Apart.settles
    {d : State}
    {e : Element}
    {s t : Session}
    (h : Apart d e s)
    (hSubject : d.scope.subject.isSome = true)
    (hShape : s.lists.SameShape t.lists)
    (e' : Element) :
    (settle d.scope false e').Tells t e'
      (completions d.scope e'.subject) := by
  refine settle_tells hSubject (fun p l hMem => ?_) e'
  exact (hShape.flushed_eq l).trans (h.listed p l hMem).1

/-
  Two ways to open an element that differ in when its text is
  noted: evaluations that close it again are alike.
-/
theorem alike_of_opened
    {d : State}
    {name text : String}
    {attributes more : Entries}
    {e : Element}
    {s : Session}
    (hName : e.name = name)
    (hApart : Apart d e s)
    (hKeeps : ∀ p, e.pending = some p → p.keepsMarkup = false)
    (hGiven :
      openElement d.settings d.scope d.elements.isEmpty name more
          d.fresh =
        (.ok { e with pending := none },
          s.told (textNotes text e ++ completions d.scope e.subject)))
    (hWaiting :
      openElement d.settings d.scope d.elements.isEmpty name attributes
          d.fresh =
        (.ok e, s.told (completions d.scope e.subject)))
    (depth depth' : Nat) :
    Alike
      (Extraction.evaluate d
        [.opened name more depth, .closed name depth'])
      (Extraction.evaluate d
        [.opened name attributes depth, .text text,
          .closed name depth']) := by
  cases hPending : e.pending with
  | none =>
      have hSame : { e with pending := none } = e := by
        rw [← hPending]
      have hNone : textNotes text e = [] := by
        unfold textNotes
        rw [hPending]
      rw [hSame, hNone, List.nil_append] at hGiven
      cases hClose :
          closeElement e
            (s.told (completions d.scope e.subject)).cleared with
      | mk outcome u =>
          have hCaptured :
              closeElement (e.capturing [.text text])
                  (s.told (completions d.scope e.subject)).cleared =
                (outcome, u) := by
            rw [Element.capturing_of_pending_eq_none hPending]
            exact hClose
          have hFirst :=
            evaluate_element hGiven hName [] hClose depth depth'
          have hSecond :=
            evaluate_element hWaiting hName [text] hCaptured depth
              depth'
          refine alike_of_perm (hFirst.2.trans hSecond.2.symm) ?_
          exact .of_eq (hFirst.1.trans hSecond.1.symm)
  | some p =>
      rcases hApart.pending p hPending with ⟨hList, hSubject⟩
      have hOthers :
          ∀ x ∈ Note.filings (completions d.scope e.subject),
            (s.lists.slot x.list).owner ≠ e.list := by
        intro x hMem
        rcases mem_filings_completions hMem with ⟨q, hListed⟩
        exact (hApart.listed q x.list hListed).2
      rcases closeElement_captured _ hPending (hKeeps p hPending) hList
          hSubject hApart.size hApart.own hOthers text with
        ⟨u, u', hClose, hClose', hNotes⟩
      have hFirst :=
        evaluate_element hGiven hName [] hClose depth depth'
      have hSecond :=
        evaluate_element hWaiting hName [text] hClose' depth
          depth'
      have hPerm :
          (textNotes text e ++ completions d.scope e.subject).Perm
            (completions d.scope e.subject ++ textNotes text e) :=
        List.perm_append_comm
      refine alike_of_perm (hFirst.2.trans hSecond.2.symm) ?_
      refine (List.Perm.of_eq hFirst.1).trans
        (.trans ?_ (.of_eq hSecond.1.symm))
      rw [hNotes, s.notes_told, s.notes_told]
      refine ((hPerm.append_left _).append_right _).trans (.of_eq ?_)
      simp only [List.append_assoc]

/-
  Whether a property is given a text or takes it from the
  content of the element makes no difference but in order: to
  the end of the evaluation, to the quads that are stated, and
  to the values that are put in lists.
-/
theorem given_value_alike_content
    {settings : Settings}
    {base : String}
    {first d : State}
    {before : List Event}
    {sections : List (List Note)}
    (hStart : start settings base = .ok first)
    (hReached : Run first before sections d)
    {name key text : String}
    {attributes more : Entries}
    (hSupplied : Supplied settings name key text attributes more)
    (hMarkup :
      ∀ x,
        Environment.declare settings.media attributes
            d.scope.environment =
          .ok x →
        KeepsNoMarkup x attributes)
    (depth depth' : Nat) :
    Alike
      (Extraction.evaluate d
        [.opened name more depth, .closed name depth'])
      (Extraction.evaluate d
        [.opened name attributes depth, .text text,
          .closed name depth']) := by
  have hSettings : settings = d.settings := by
    rw [settings_of_run hReached]
    rcases start_eq_ok hStart with ⟨document, iri, _, _, rfl⟩
    rfl
  subst hSettings
  have hSound := sound_of_run hStart hReached
  have hSubject := (situated_of_run hStart hReached).scope_subject
  have hWaits :=
    openElement_settles hSupplied.untargeted d.settings d.scope
      d.elements.isEmpty name
  have hGives := openElement_adds hSupplied hMarkup d.elements.isEmpty
  rw [bind_assoc] at hGives
  cases hFree :
      openElement d.settings d.scope.unbound d.elements.isEmpty name
        attributes d.fresh with
  | mk outcome s =>
      cases outcome with
      | error fault =>
          have hWaiting :=
            (congrFun hWaits d.fresh).trans (bind_of_error hFree _)
          have hGiven :=
            (congrFun hGives d.fresh).trans (bind_of_error hFree _)
          rw [evaluate_opened_error hWaiting,
            evaluate_opened_error hGiven]
          exact alike_of_perm rfl (.refl _)
      | ok e =>
          have hOpened :=
            openElement_opened _ _ _ _ _ _ e s hFree
          have hKeeps :=
            openElement_keepsNoMarkup d.scope.unbound hMarkup _ _ d.fresh
              e s hFree
          have hApart := apart_of_opened hSound hOpened
          have hNow :=
            (completeNow_tells hApart.unflushed text).bind
              (hApart.settles hSubject (s.sameShape_told _) _)
          have hLater := hApart.settles hSubject (.refl _) e
          exact
            alike_of_opened hOpened.name_eq hApart hKeeps
              ((congrFun hGives d.fresh).trans
                ((bind_of_ok hFree _).trans hNow))
              ((congrFun hWaits d.fresh).trans
                ((bind_of_ok hFree _).trans hLater))
              depth depth'

namespace Moments

def settings : Settings :=
  ⟨.html, ⟨.members, true, [("f", "http://f/")], []⟩⟩

def first : State :=
  State.initial settings "http://ex/" ⟨"http://ex/"⟩

/- A relation that waits for a member of its list. -/
def before : List Event :=
  [.opened "div" [("about", "#a"), ("rel", "f:r"), ("inlist", "")] 0]

def attributes : Entries :=
  [("property", "f:r"), ("inlist", ""), ("lang", "e n"),
    ("datatype", "q:d")]

def more : Entries :=
  ("datetime", "2020-01-01") :: attributes

theorem start_eq :
    start settings "http://ex/" = .ok first :=
  start_of_document (by decide +kernel) (by decide +kernel) settings

theorem supplied_moment :
    Supplied settings "time" "datetime" "2020-01-01" attributes
      more where
  untargeted := ⟨by decide, by decide⟩
  silent := by decide
  supplies := .datetime rfl rfl
  adds := ⟨by decide, by decide⟩

/- The name of the datatype is not declared. -/
theorem keepsNoMarkup_attributes
    (x : Environment)
    (h :
      Environment.declare settings.media attributes
          (first.through before).scope.environment =
        .ok x) :
    KeepsNoMarkup x attributes := by
  have hDeclared :
      Environment.declare settings.media attributes
          (first.through before).scope.environment =
        .ok ⟨"http://ex/", none, some "e n", [("f", "http://f/")],
          []⟩ := by
    decide +kernel
  rw [hDeclared] at h
  cases h
  intro d hDatatype
  revert hDatatype
  have hNone :
      Environment.datatype?
          ⟨"http://ex/", none, some "e n", [("f", "http://f/")], []⟩
          attributes =
        none := by
    decide +kernel
  rw [hNone]
  rintro ⟨⟩

/- The moment, and the node that the relation waits for. -/
def moment : Filing :=
  ⟨2, ⟨"http://f/r"⟩, .literal (.typed "2020-01-01" Xsd.date)⟩

def node : Filing :=
  ⟨1, ⟨"http://f/r"⟩, .blank (NodeSupply.node 0)⟩

end Moments

open Moments in
/- Members of a list may come in another order. -/
theorem given_moment_alike_content :
    Note.filings
        (Extraction.evaluate (first.through before)
          [.opened "time" more 1, .closed "time" 1]).1.flatten =
      [moment, node] ∧
    Note.filings
        (Extraction.evaluate (first.through before)
          [.opened "time" attributes 1, .text "2020-01-01",
            .closed "time" 1]).1.flatten =
      [node, moment] ∧
    Alike
      (Extraction.evaluate (first.through before)
        [.opened "time" more 1, .closed "time" 1])
      (Extraction.evaluate (first.through before)
        [.opened "time" attributes 1, .text "2020-01-01",
          .closed "time" 1]) := by
  refine ⟨by decide +kernel, by decide +kernel, ?_⟩
  exact
    given_value_alike_content start_eq
      (run_through (by decide +kernel)) supplied_moment
      keepsNoMarkup_attributes 1 1

end Evaluation
end LinkedMarkup
