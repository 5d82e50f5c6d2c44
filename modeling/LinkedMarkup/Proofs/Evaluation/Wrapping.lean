import LinkedMarkup.Proofs.Coupling.Padding
import LinkedMarkup.Proofs.Evaluation.Ownership
import LinkedMarkup.Proofs.Evaluation.Siblings

/-
  This file proves that elements without annotations are of no
  consequence. A wrapper around content inside some element
  passes on the scope of that element and makes one more list
  mapping, which nothing fills; so the document states the
  same quads with the wrapper as without it.

  Key definitions include:
    * `Entries.annotating`
    * `Entries.IsPlain`
    * `Event.wrapped`
    * `Element.KeepsMarkup`
    * `Evaluation.Situated`

  Main declarations:
    * `Evaluation.openElement_plain`
    * `Evaluation.process_opened_plain`
    * `Evaluation.process_closed_plain`
    * `Evaluation.run_wrapped`
    * `Evaluation.wrapper_keeps_quads`
-/

namespace LinkedMarkup

------------------------------------------------------------
-- Attributes without annotations
------------------------------------------------------------

/- A text that something can be dropped from starts with it. -/
theorem Text.isPrefix_of_dropFront?
    {front cs rest : List Char}
    (h : Text.dropFront? front cs = some rest) :
    front <+: cs := by
  induction front generalizing cs with
  | nil => exact List.nil_prefix
  | cons f front ih =>
      cases cs with
      | nil => cases h
      | cons c cs =>
          unfold Text.dropFront? at h
          split at h
          · rename_i hEq
            rw [eq_of_beq hEq]
            exact List.cons_prefix_cons.mpr ⟨rfl, ih h⟩
          · cases h

namespace Entries

/-
  The attributes by which an element names, relates or types
  nodes, or puts a base, a language or names in force.
-/
def annotating : List String :=
  ["about", "resource", "href", "src", "rel", "rev", "property",
    "typeof", "vocab", "prefix", "lang", "xml:lang", "xml:base"]

/- Attributes that annotate nothing and declare no name. -/
structure IsPlain
    (attributes : Entries) : Prop where
  silent : ∀ key ∈ annotating, attributes.has key = false
  undeclared :
    ∀ entry ∈ attributes, ¬ "xmlns:".toList <+: entry.1.toList

variable {attributes : Entries}

theorem IsPlain.get?_eq_none
    (h : attributes.IsPlain)
    (key : String)
    (hKey : key ∈ annotating) :
    attributes.get? key = none := by
  have hSilent := h.silent key hKey
  unfold has at hSilent
  simpa using hSilent

theorem IsPlain.declared_eq_nil
    (h : attributes.IsPlain) :
    Prefixes.declared attributes = [] := by
  unfold Prefixes.declared
  rw [h.get?_eq_none _ (by decide)]
  dsimp only
  unfold Prefixes.declaredSingly
  have hUndeclared := h.undeclared
  clear h
  induction attributes with
  | nil => rfl
  | cons entry rest ih =>
      have hName : Prefixes.declaredName? entry.1 = none := by
        unfold Prefixes.declaredName?
        rw [Option.map_eq_none_iff, Option.eq_none_iff_forall_ne_some]
        intro rest hDrop
        exact hUndeclared entry List.mem_cons_self
          (Text.isPrefix_of_dropFront? hDrop)
      rw [List.foldl_cons, hName]
      exact ih
        (fun other hMem =>
          hUndeclared other (List.mem_cons_of_mem entry hMem))

end Entries

/- Events between the tags of a wrapper. -/
def Event.wrapped
    (name : String)
    (attributes : Entries)
    (depth depth' : Nat)
    (inner : List Event) : List Event :=
  .opened name attributes depth :: (inner ++ [.closed name depth'])

------------------------------------------------------------
-- Content that is captured
------------------------------------------------------------

namespace Element

/- An open element whose literal keeps the markup inside it. -/
def KeepsMarkup
    (e : Element) : Prop :=
  ∃ p, e.pending = some p ∧ p.keepsMarkup = true

instance
    (e : Element) :
    Decidable e.KeepsMarkup :=
  match hPending : e.pending with
  | none => .isFalse (by simp [KeepsMarkup, hPending])
  | some p =>
      if hKeeps : p.keepsMarkup = true then
        .isTrue ⟨p, hPending, hKeeps⟩
      else
        .isFalse (by simpa [KeepsMarkup, hPending] using hKeeps)

theorem keepsMarkup_capture
    (e : Element)
    (event : Event) :
    (e.capture event).KeepsMarkup ↔ e.KeepsMarkup := by
  have hSame :
      ∀ p : Pending, (p.capture event).keepsMarkup = p.keepsMarkup := by
    intro p
    have hBare :
        (p.capture event).bare.keepsMarkup = p.bare.keepsMarkup :=
      congrArg Pending.keepsMarkup (p.bare_capture event)
    exact hBare
  unfold KeepsMarkup capture
  cases e.pending with
  | none => simp
  | some p => simp [hSame]

theorem keepsMarkup_capturing
    (e : Element)
    (events : List Event) :
    (e.capturing events).KeepsMarkup ↔ e.KeepsMarkup := by
  induction events generalizing e with
  | nil => exact .rfl
  | cons event rest ih =>
      exact (ih (e.capture event)).trans (e.keepsMarkup_capture event)

/- An element that keeps no markup does not capture tags. -/
theorem capture_eq_self
    {e : Element}
    (h : ¬ e.KeepsMarkup)
    {event : Event}
    (hTag : ∀ data, event ≠ .text data) :
    e.capture event = e := by
  have hSame :
      e.pending.map (fun p => p.capture event) = e.pending := by
    cases hPending : e.pending with
    | none => rfl
    | some p =>
        have hKeeps : p.keepsMarkup ≠ true :=
          fun hTrue => h ⟨p, hPending, hTrue⟩
        rw [Option.map_some]
        unfold Pending.capture
        rw [if_neg hKeeps]
        cases event with
        | text data => exact absurd rfl (hTag data)
        | opened name attributes depth => rfl
        | closed name depth => rfl
        | unknown description => rfl
  unfold capture
  rw [hSame]

end Element

namespace Evaluation

open Work Coupling

theorem captureAll_eq_self
    {elements : List Element}
    (h : ∀ e ∈ elements, ¬ e.KeepsMarkup)
    {event : Event}
    (hTag : ∀ data, event ≠ .text data) :
    captureAll event elements = elements := by
  have hSame :
      ∀ e ∈ elements, e.capture event = id e :=
    fun e hMem => Element.capture_eq_self (h e hMem) hTag
  unfold captureAll
  rw [List.map_congr_left hSame, List.map_id]

------------------------------------------------------------
-- Nodes inside elements
------------------------------------------------------------

/- Evaluations in which content inside an element has its nodes. -/
structure Situated
    (d : State) : Prop where
  outer : d.outer.subject.isSome = true
  inner :
    ∀ e ∈ d.elements,
      e.scope.subject.isSome = true ∧ e.scope.object.isSome = true

theorem Situated.scope_subject
    {d : State}
    (h : Situated d) :
    d.scope.subject.isSome = true := by
  have hInner := h.inner
  unfold State.scope
  cases hElements : d.elements with
  | nil => exact h.outer
  | cons e rest =>
      rw [hElements] at hInner
      exact (hInner e List.mem_cons_self).1

theorem Situated.scope_object
    {d : State}
    (h : Situated d)
    (hInside : d.elements ≠ []) :
    d.scope.object.isSome = true := by
  have hInner := h.inner
  unfold State.scope
  cases hElements : d.elements with
  | nil => exact absurd hElements hInside
  | cons e rest =>
      rw [hElements] at hInner
      exact (hInner e List.mem_cons_self).2

theorem situated_captureAll
    {elements : List Element}
    (h :
      ∀ e ∈ elements,
        e.scope.subject.isSome = true ∧ e.scope.object.isSome = true)
    (event : Event) :
    ∀ e ∈ captureAll event elements,
      e.scope.subject.isSome = true ∧ e.scope.object.isSome = true := by
  intro e hMem
  rcases List.mem_map.mp hMem with ⟨o, hOld, rfl⟩
  exact h o hOld

/- Inside an element there are nodes if there are around it. -/
theorem Opened.situated
    {settings : Settings}
    {parent : Scope}
    {isRoot : Bool}
    {name : String}
    {s t : Session}
    {e : Element}
    (h : Opened settings parent isRoot name s t e)
    (hParent : parent.subject.isSome = true) :
    e.scope.subject.isSome = true ∧ e.scope.object.isSome = true := by
  rcases h.scope with hPasses | hHands
  · rw [hPasses.scope.subject, hPasses.scope.object]
    exact ⟨hParent, hPasses.object⟩
  · rcases hHands.object with ⟨passed, hObject⟩
    rw [hHands.subject, hObject]
    simp [hParent]

theorem situated_of_process
    {d d' : State}
    {event : Event}
    {notes : List Note}
    (hSituated : Situated d)
    (h : process d event = (.ok d', notes)) :
    Situated d' := by
  refine ⟨?_, ?_⟩
  · rw [(process_keeps h).2]
    exact hSituated.outer
  · rcases process_ok_cases h with
      ⟨name, attributes, depth, e, t, rfl, hOpen, rfl, _⟩ |
        ⟨data, rfl, rfl, _⟩ |
        ⟨name, depth, e, rest, m, t, rfl, hElements, _, _, _, rfl, _⟩
    · have hOpened :=
        openElement_opened _ _ _ name attributes d.fresh e t hOpen
      intro o hMem
      rcases List.mem_cons.mp hMem with rfl | hOld
      · exact hOpened.situated hSituated.scope_subject
      · exact situated_captureAll hSituated.inner _ o hOld
    · exact situated_captureAll hSituated.inner _
    · have hInner := hSituated.inner
      rw [hElements] at hInner
      exact situated_captureAll
        (fun o hOld => hInner o (List.mem_cons_of_mem e hOld)) _

theorem situated_of_run
    {settings : Settings}
    {base : String}
    {first d : State}
    {events : List Event}
    {sections : List (List Note)}
    (hStart : start settings base = .ok first)
    (hRun : Run first events sections d) :
    Situated d := by
  have hFirst : Situated first := by
    rcases start_eq_ok hStart with ⟨document, iri, _, _, rfl⟩
    exact ⟨rfl, by simp [State.initial]⟩
  clear hStart
  induction hRun with
  | nil _ => exact hFirst
  | cons hStep _ ih => exact ih (situated_of_process hFirst hStep)

/- All open elements only use lists that exist. -/
theorem Housed.uses_of_mem
    {d : State}
    (h : Housed d) :
    d.outer.Uses (fun l => l < d.session.lists.slots.size) ∧
      ∀ e ∈ d.elements,
        e.Uses (fun l => l < d.session.lists.slots.size) := by
  rcases h with ⟨W, hLodged, hUsable⟩
  have hAll :
      ∀ {V : Nat → Prop} {elements : List Element},
        Lodged d.outer V elements → (∀ l, V l → W l) →
          d.outer.Uses W ∧ ∀ e ∈ elements, e.Uses W := by
    intro V elements hLodged
    induction hLodged with
    | nil hOuter =>
        intro hVW
        refine ⟨⟨hVW _ hOuter.list, ?_⟩, by simp⟩
        exact fun p l hMem => hVW _ (hOuter.listed p l hMem)
    | cons _ hGrows hUses _ ih =>
        intro hVW
        rcases ih (fun l hl => hVW l (hGrows l hl)) with ⟨hOuter, hRest⟩
        refine ⟨hOuter, ?_⟩
        intro o hMem
        rcases List.mem_cons.mp hMem with rfl | hOld
        · exact hUses.mono hVW
        · exact hRest o hOld
  rcases hAll hLodged (fun _ hl => hl) with ⟨hOuter, hElements⟩
  have hExists : ∀ l, W l → l < d.session.lists.slots.size :=
    fun l hl => (hUsable l hl).1
  refine ⟨⟨hExists _ hOuter.list, ?_⟩, ?_⟩
  · exact fun p l hMem => hExists _ (hOuter.listed p l hMem)
  · exact fun e hMem => (hElements e hMem).mono hExists

------------------------------------------------------------
-- The tags of a wrapper
------------------------------------------------------------

section Tags

variable {attributes : Entries}

/- Without annotations the scope around an element is passed on. -/
theorem readScope_plain
    (hPlain : attributes.IsPlain)
    (settings : Settings)
    (parent : Scope) :
    readScope settings parent attributes = pure parent := by
  have hBase : readBase settings parent attributes = .ok parent.base := by
    simp [readBase, hPlain.get?_eq_none "xml:base" (by decide)]
  have hLanguage : readLanguage parent attributes = parent.language := by
    simp [readLanguage,
      hPlain.get?_eq_none "xml:lang" (by decide),
      hPlain.get?_eq_none "lang" (by decide)]
  unfold readScope readVocab
  rw [hBase, hLanguage, hPlain.declared_eq_nil,
    hPlain.get?_eq_none _ (by decide)]
  rfl

/- Without annotations no node is named, except at the root. -/
theorem readNamed_plain
    (hPlain : attributes.IsPlain)
    (settings : Settings)
    (parent scope : Scope)
    (name : String) :
    readNamed settings parent scope false name attributes =
      pure ⟨none, none, none, none⟩ := by
  have hTypeof : attributes.has "typeof" = false :=
    hPlain.silent _ (by decide)
  unfold readNamed readAbout namedResource namedIri
  rw [hPlain.get?_eq_none "about" (by decide),
    hPlain.get?_eq_none "resource" (by decide),
    hPlain.get?_eq_none "href" (by decide),
    hPlain.get?_eq_none "src" (by decide), hTypeof]
  simp

/-
  An element without annotations inside another one passes on
  what is around it, with a list mapping of its own that is
  chained to the one around it.
-/
theorem openElement_plain
    (hPlain : attributes.IsPlain)
    (settings : Settings)
    {parent : Scope}
    (hObject : parent.object.isSome = true)
    (name : String)
    (s : Session) :
    openElement settings parent false name attributes s =
      (.ok ⟨name, parent, parent.object, s.lists.slots.size, none⟩,
        { s with lists := (s.lists.child parent.list).2 }) := by
  have hTokens :
      ∀ key ∈ Entries.annotating,
        relationTokens settings attributes key = none := by
    intro key hKey
    unfold relationTokens
    rw [hPlain.get?_eq_none key hKey]
  have hProperty := hPlain.get?_eq_none "property" (by decide)
  have hHasProperty : attributes.has "property" = false :=
    hPlain.silent _ (by decide)
  have hTypeof : attributes.has "typeof" = false :=
    hPlain.silent _ (by decide)
  have hRoles :
      ∀ isBare : Bool,
        roles parent ⟨none, none, none, none⟩ false false false isBare =
          pure ⟨parent.object, none, none, true⟩ := by
    intro isBare
    simp [roles, plainRoles, Named.target, hObject]
  have hList :
      listFor settings parent parent.object = childList parent.list := by
    simp [listFor]
  have hTerms :
      relationTerms parent none = pure [] := rfl
  have hRelate :
      ∀ (list : Nat) (inList : Bool),
        relate ⟨parent.object, none, none, true⟩ list inList [] [] =
          pure [] := by
    intro list inList
    cases inList <;> rfl
  unfold openElement
  simp only [readScope_plain hPlain, readNamed_plain hPlain, pure_bind,
    hTokens "rel" (by decide), hTokens "rev" (by decide), hHasProperty,
    hTypeof, hRoles, hList, hTerms, hRelate, readProperty, hProperty,
    Option.isSome_none, Bool.or_self]
  rfl

end Tags

/- The element that a start tag without annotations opens. -/
def wrapper
    (d : State)
    (name : String) : Element :=
  ⟨name, d.scope, d.scope.object, d.session.lists.slots.size, none⟩

/- An evaluation inside a wrapper around what comes next. -/
def State.wrapped
    (d : State)
    (name : String) : State :=
  d.after (wrapper d name :: d.elements)
    { d.fresh with lists := (d.session.lists.child d.scope.list).2 }

/- An evaluation once a wrapper is closed around the content. -/
def State.unwrapped
    (d : State)
    (list : Nat)
    (elements : List Element) : State :=
  d.after elements
    { d.fresh with lists := d.session.lists.marked list }

/- The start tag of a wrapper states nothing. -/
theorem process_opened_plain
    {attributes : Entries}
    (hPlain : attributes.IsPlain)
    {d : State}
    (hInside : d.elements ≠ [])
    (hObject : d.scope.object.isSome = true)
    (hContent : ∀ e ∈ d.elements, ¬ e.KeepsMarkup)
    (name : String)
    (depth : Nat) :
    process d (.opened name attributes depth) =
      (.ok (d.wrapped name), []) := by
  have hOpen := openElement_plain hPlain d.settings hObject name d.fresh
  have hNotRoot : d.elements.isEmpty = false := by simpa using hInside
  have hSame :
      captureAll (.opened name attributes depth) d.elements =
        d.elements :=
    captureAll_eq_self hContent (fun _ hEq => by cases hEq)
  rw [← hNotRoot] at hOpen
  rw [process_of_open hOpen depth, hSame]
  rfl

/- The end tag of an element whose list is empty states nothing. -/
theorem process_closed_plain
    {d : State}
    {e : Element}
    {rest : List Element}
    (hHoused : Housed d)
    (hElements : d.elements = e :: rest)
    (hPending : e.pending = none)
    (hLists : (d.session.lists.slot e.list).lists = [])
    (hContent : ∀ o ∈ rest, ¬ o.KeepsMarkup)
    (depth : Nat) :
    process d (.closed e.name depth) =
      (.ok (d.unwrapped e.list rest), []) := by
  have hComplete : completeElement e d.fresh = (.ok (), d.fresh) := by
    unfold completeElement
    rw [hPending]
    rfl
  have hUnflushed := hHoused.unflushed hElements hComplete
  have hClose := closeElement_of_ok hComplete
  rw [flushLists_of_lists_eq_nil hUnflushed hLists] at hClose
  have hSame : captureAll (.closed e.name depth) rest = rest :=
    captureAll_eq_self hContent (fun _ hEq => by cases hEq)
  rw [process_of_close hElements hClose depth, hSame]
  rfl

------------------------------------------------------------
-- Wrapped content
------------------------------------------------------------

/- Sections that tell the same quads do so altogether. -/
theorem quads_flatten_of_told
    {spare : Nat}
    {sections sections' : List (List Note)}
    (h : List.Forall₂ (padding spare).Told sections sections') :
    Note.quads sections'.flatten = Note.quads sections.flatten := by
  induction h with
  | nil => rfl
  | cons hTold _ ih =>
      rw [List.flatten_cons, List.flatten_cons, Note.quads_append,
        Note.quads_append, quads_of_told hTold, ih]

/-
  Inside a wrapper an evaluation is in step with the one
  without it, as the wrapper passes on the scope around it.
-/
theorem inStep_wrapped
    {d : State}
    (hSound : Sound d)
    (hInside : d.elements ≠ [])
    (name : String) :
    (padding d.session.lists.slots.size).InStep () 0 d
      (d.wrapped name) where
  settings := .refl d.settings
  makes := padding_makes _
  session :=
    ⟨rfl, ListForest.padded_child hSound.owned d.scope.list, rfl⟩
  stack := by
    apply Coupling.Stacked.outside
    · rw [← scope_eq_innermost]
      exact padding_scope hSound.housed.uses_scope
    · simpa [State.wrapped, State.after] using hInside

/-
  Behind a wrapper an evaluation has the same open elements as
  the one without it, and is in step in all of them.
-/
theorem inStep_unwrapped
    {spare : Nat}
    {d m : State}
    (hSettings : m.settings = d.settings)
    (hOuter : m.outer = d.outer)
    (hSession : Session.Padded spare d.fresh m.fresh)
    (hUsesOuter : d.outer.Uses (fun l => l < spare))
    (hUses : ∀ e ∈ d.elements, e.Uses (fun l => l < spare)) :
    (padding spare).InStep () d.elements.length d
      (m.unwrapped spare d.elements) where
  settings := by
    change d.settings.Agree m.settings
    rw [hSettings]
    exact .refl d.settings
  makes := by
    change (padding spare).MakesFor d.settings m.settings
    rw [hSettings]
    exact padding_makes _
  session := ⟨hSession.supply, hSession.lists.marked_spare, rfl⟩
  stack := by
    change (padding spare).Stacked () d.outer m.outer _ d.elements
      d.elements
    rw [hOuter]
    apply stacked_of_forall₂ (padding_scope hUsesOuter)
    exact List.forall₂_same.mpr
      (fun e hMem => padding_element (hUses e hMem))

theorem uses_capturing
    {W : Nat → Prop}
    {e : Element}
    (h : e.Uses W)
    (events : List Event) :
    (e.capturing events).Uses W := by
  induction events generalizing e with
  | nil => exact h
  | cons event rest ih => exact ih (uses_capture h event)

/-
  Content inside an element, and what comes after it up to the
  end of the document, states the same quads once a wrapper
  without annotations is put around the content.
-/
theorem run_wrapped
    {d d₁ final : State}
    {inner after : List Event}
    {sections₁ sections₂ : List (List Note)}
    {attributes : Entries}
    (hSound : Sound d)
    (hSituated : Situated d)
    (hInside : d.elements ≠ [])
    (hContent : ∀ e ∈ d.elements, ¬ e.KeepsMarkup)
    (hPlain : attributes.IsPlain)
    (hNested : Event.Nested inner)
    (hInner : Run d inner sections₁ d₁)
    (hAfter : Run d₁ after sections₂ final)
    (hEnd : final.elements = [])
    (name : String)
    (depth depth' : Nat) :
    ∃ sections final',
      Run d (Event.wrapped name attributes depth depth' inner ++ after)
          sections final' ∧
        final'.elements = [] ∧
        Note.quads sections.flatten =
          Note.quads (sections₁ ++ sections₂).flatten := by
  have hOpen :=
    process_opened_plain hPlain hInside
      (hSituated.scope_object hInside) hContent name depth
  rcases (inStep_wrapped hSound hInside name).run padding_steps
      (hNested.within 0) hInner with
    ⟨_, m, sections₁', _, hInner', _, hBeside, hTold₁⟩
  -- both runs capture the content alike, and the wrapper nothing
  have hCaptured := elements_of_run_nested hNested hInner
  have hElements : m.elements = wrapper d name :: d₁.elements := by
    rw [elements_of_run_nested hNested hInner', hCaptured]
    exact congrArg (· :: _)
      (Element.capturing_of_pending_eq_none rfl inner)
  have hContent₁ : ∀ e ∈ d₁.elements, ¬ e.KeepsMarkup := by
    intro e hMem
    rw [hCaptured] at hMem
    rcases List.mem_map.mp hMem with ⟨o, hOld, rfl⟩
    rw [Element.keepsMarkup_capturing]
    exact hContent o hOld
  have hUses := hSound.housed.uses_of_mem
  have hUses₁ :
      ∀ e ∈ d₁.elements,
        e.Uses (fun l => l < d.session.lists.slots.size) := by
    intro e hMem
    rw [hCaptured] at hMem
    rcases List.mem_map.mp hMem with ⟨o, hOld, rfl⟩
    exact uses_capturing (hUses.2 o hOld) inner
  -- nothing but its list is left of the wrapper behind its end tag
  have hHoused : Housed m :=
    housed_of_run (housed_of_process hSound.housed hOpen) hInner'
  have hClose :=
    process_closed_plain hHoused hElements rfl
      hBeside.session.lists.empty hContent₁ depth'
  rcases run_nested hNested hInner with ⟨hSettings, hOuter, _⟩
  rcases run_nested hNested hInner' with ⟨hSettings', hOuter', _⟩
  have hBehind :=
    inStep_unwrapped (hSettings'.trans hSettings.symm)
      (hOuter'.trans hOuter.symm) hBeside.session
      (hOuter.symm ▸ hUses.1) hUses₁
  rcases hBehind.run padding_steps (within_of_run hAfter) hAfter with
    ⟨_, final', sections₂', _, hAfter', _, hFinal, hTold₂⟩
  refine ⟨[] :: (sections₁' ++ [] :: sections₂'), final', ?_, ?_, ?_⟩
  · unfold Event.wrapped
    rw [List.cons_append, List.append_assoc]
    exact .cons hOpen (hInner'.append (.cons hClose hAfter'))
  · have hEmpty := hFinal.stack.isEmpty_eq
    rw [hEnd] at hEmpty
    exact List.isEmpty_iff.mp hEmpty.symm
  · simp only [List.flatten_cons, List.flatten_append, List.nil_append,
      Note.quads_append, quads_flatten_of_told hTold₁,
      quads_flatten_of_told hTold₂]

------------------------------------------------------------
-- Whole documents
------------------------------------------------------------

/- A document without a fault is a run that closes everything. -/
theorem run_of_fault?_eq_none
    {settings : Settings}
    {base : String}
    {opening : List Note}
    {events : List Event}
    {first : State}
    (hStart : start settings base = .ok first)
    (h :
      (Extraction.ofBase settings base opening
        ⟨events, none⟩).fault? = none) :
    ∃ sections final,
      Run first events sections final ∧ final.elements = [] ∧
        (Extraction.ofBase settings base opening
          ⟨events, none⟩).quads =
          Note.quads opening ++ Note.quads sections.flatten := by
  unfold Extraction.ofBase at h ⊢
  rw [hStart] at h ⊢
  dsimp only at h ⊢
  unfold Extraction.ofTrace at h ⊢
  cases hRun : Extraction.evaluate first events with
  | mk sections outcome =>
      rw [hRun] at h
      cases outcome with
      | error fault => cases h
      | ok final =>
          dsimp only [Option.none_or] at h
          refine ⟨sections, final, run_of_evaluate hRun, ?_, ?_⟩
          · apply elements_of_finish
            unfold Extraction.endingFault? at h
            split at h
            · rename_i hFinish
              exact hFinish
            · cases h
          · exact Note.quads_append opening sections.flatten

/- A run that closes everything is a document without a fault. -/
theorem fault?_eq_none_of_run
    {settings : Settings}
    {base : String}
    {events : List Event}
    {first final : State}
    {sections : List (List Note)}
    (hStart : start settings base = .ok first)
    (hRun : Run first events sections final)
    (hEnd : final.elements = [])
    (opening : List Note) :
    (Extraction.ofBase settings base opening
      ⟨events, none⟩).fault? = none := by
  have hFinish : finish final = .ok () := by
    unfold finish
    rw [hEnd]
    rfl
  unfold Extraction.ofBase
  rw [hStart]
  simp [Extraction.ofTrace, Extraction.endingFault?,
    evaluate_of_run hRun, hFinish]

/-
  Elements without annotations are of no consequence: in every
  document that is processed without a fault, well-nested
  content inside some element may be put into a wrapper whose
  attributes annotate nothing, unless a literal around it
  keeps markup. The document states the same quads in the same
  order, with the same blank nodes.
-/
theorem wrapper_keeps_quads
    {settings : Settings}
    {base : String}
    {first : State}
    {opening : List Note}
    {before inner after : List Event}
    {attributes : Entries}
    (hStart : start settings base = .ok first)
    (hDocument :
      (Extraction.ofBase settings base opening
        ⟨before ++ inner ++ after, none⟩).fault? = none)
    (hNested : Event.Nested inner)
    (hInside : Event.openTags before ≠ [])
    (hContent :
      ∀ e ∈ (first.through before).elements, ¬ e.KeepsMarkup)
    (hPlain : attributes.IsPlain)
    (name : String)
    (depth depth' : Nat) :
    (Extraction.ofBase settings base opening
        ⟨before ++ Event.wrapped name attributes depth depth' inner ++
          after, none⟩).fault? = none ∧
      (Extraction.ofBase settings base opening
          ⟨before ++ Event.wrapped name attributes depth depth' inner ++
            after, none⟩).quads =
        (Extraction.ofBase settings base opening
          ⟨before ++ inner ++ after, none⟩).quads := by
  rw [List.append_assoc] at hDocument ⊢
  rw [List.append_assoc]
  rcases run_of_fault?_eq_none hStart hDocument with
    ⟨_, final, hRun, hEnd, hQuads⟩
  rcases hRun.split with
    ⟨d, sections₀, _, hBefore, hContentAfter, rfl⟩
  rcases hContentAfter.split with
    ⟨d₁, sections₁, sections₂, hInner, hAfter, rfl⟩
  have hOpen : d.elements ≠ [] := by
    have hEmpty : first.elements = [] := by
      rcases start_eq_ok hStart with ⟨document, iri, _, _, rfl⟩
      rfl
    have hLength := (aligned_of_run hEmpty hBefore).2.length_eq
    intro hNone
    rw [hNone] at hLength
    exact hInside (List.length_eq_zero_iff.mp hLength)
  rw [hBefore.through_eq] at hContent
  rcases run_wrapped (sound_of_run hStart hBefore)
      (situated_of_run hStart hBefore) hOpen hContent hPlain hNested
      hInner hAfter hEnd name depth depth' with
    ⟨sections', final', hWrapped, hEnd', hSame⟩
  have hWhole := hBefore.append hWrapped
  have hFault := fault?_eq_none_of_run hStart hWhole hEnd' opening
  refine ⟨hFault, ?_⟩
  rcases run_of_fault?_eq_none hStart hFault with
    ⟨_, _, hAgain, _, hQuads'⟩
  have hEval := evaluate_of_run hAgain
  rw [evaluate_of_run hWhole] at hEval
  cases hEval
  rw [hQuads', hQuads]
  simp only [List.flatten_append, Note.quads_append] at hSame ⊢
  rw [hSame]

namespace Wrapping

def settings : Settings :=
  ⟨.html, ⟨.collection, true, [("f", "http://f/")], []⟩⟩

def initial : State :=
  State.initial settings "http://ex/" ⟨"http://ex/"⟩

/- An element with relations that wait. -/
def before : List Event :=
  [.opened "div" [("about", "#a"), ("rel", "f:knows")] 0]

/- Content that answers with a new node. -/
def answer : List Event :=
  [.opened "p" [("typeof", "f:T")] 1, .text "X", .closed "p" 1]

/- Later content, with a list of its own. -/
def after : List Event :=
  [.opened "i" [("property", "f:name"), ("inlist", "")] 1,
    .text "Y", .closed "i" 1, .closed "div" 0]

def attributes : Entries :=
  [("class", "frame"), ("inlist", "")]

theorem start_eq :
    start settings "http://ex/" = .ok initial :=
  start_of_document (by decide +kernel) (by decide +kernel) settings

end Wrapping

open Wrapping in
/- A section around the content of a relation changes no quad. -/
theorem section_keeps_quads :
    (Extraction.ofBase settings "http://ex/" []
          ⟨before ++ answer ++ after, none⟩).quads.length = 6 ∧
      (Extraction.ofBase settings "http://ex/" []
          ⟨before ++ Event.wrapped "section" attributes 1 1 answer ++
            after, none⟩).quads =
        (Extraction.ofBase settings "http://ex/" []
          ⟨before ++ answer ++ after, none⟩).quads := by
  refine ⟨by decide +kernel, ?_⟩
  exact
    (wrapper_keeps_quads start_eq (by decide +kernel)
      (.element "p" _ 1 1 (.text "X" .nil) .nil) (by decide +kernel)
      (by decide +kernel) ⟨by decide +kernel, by decide +kernel⟩
      "section" 1 1).2

end Evaluation
end LinkedMarkup
