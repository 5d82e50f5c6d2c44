import LinkedMarkup.Proofs.Evaluation.Growth
import LinkedMarkup.Proofs.Renaming.Emissions

/-
  This file proves that evaluations that correspond in their
  innermost elements do the same at every event: both fail
  with the same fault, or both emit the same of corresponding
  nodes and correspond again. What is open further out only
  matters for the scope that it passes in.

  Key definitions include:
    * `Evaluation.Stacked`
    * `Evaluation.Paired`
    * `Evaluation.Told`
    * `Evaluation.wholeRuns`
    * `Evaluation.Traced`

  Main declarations:
    * `Evaluation.Paired.opened`
    * `Evaluation.Paired.text`
    * `Evaluation.Paired.closed`
    * `Evaluation.paired_initial`
    * `Evaluation.evaluate_paired`
-/

namespace LinkedMarkup
namespace Evaluation

open Work Coupling

------------------------------------------------------------
-- Evaluations in step
------------------------------------------------------------

/-
  Stacks of open elements that correspond in a number of
  innermost ones, whose lists are not common to both runs,
  and in the scope around these.
-/
inductive Stacked
    (κ : Layout)
    (W : Pairing)
    (outer outer' : Scope) :
    Nat → List Element → List Element → Prop where
  | outside
      {elements elements' : List Element}
      (hScope :
        (pairing κ).ScopesMatch W
          (innermost outer elements) (innermost outer' elements'))
      (hRoot : elements.isEmpty = elements'.isEmpty) :
      Stacked κ W outer outer' 0 elements elements'
  | inside
      {n : Nat}
      {e e' : Element}
      {rest rest' : List Element}
      (hMatch : (pairing κ).ElementsMatch W e e')
      (hBase : κ.base ≤ e.list)
      (hRest : Stacked κ W outer outer' n rest rest') :
      Stacked κ W outer outer' (n + 1) (e :: rest) (e' :: rest')

/- Evaluations in step, in so many of their innermost elements. -/
structure Paired
    (κ : Layout)
    (W : Pairing)
    (n : Nat)
    (d d' : State) : Prop where
  settings : d.settings.Agree d'.settings
  collects : κ.collects = (d.settings.options.listStyle == .collection)
  collects' :
    κ.collects' = (d'.settings.options.listStyle == .collection)
  supply : NodeSupply.Paired W d.session.supply d'.session.supply
  lists :
    ListForest.Paired κ W.Nodes W.mappings d.session.lists
      d'.session.lists
  stack : Stacked κ W d.outer d'.outer n d.elements d'.elements

/-
  What two evaluations tell at an event: the same emissions of
  corresponding nodes, whose collections take nodes that the
  pairing knows of.
-/
structure Told
    (κ : Layout)
    (W : Pairing)
    (event : Event)
    (d d' : State) : Prop where
  collects :
    ∀ l, l < d.session.lists.slots.size →
      (d.session.lists.slot l).collects = κ.collects
  collects' :
    ∀ l, l < d'.session.lists.slots.size →
      (d'.session.lists.slot l).collects = κ.collects'
  emissions :
    List.Forall₂ (Emission.Match W.Nodes) (emissions d event)
      (emissions d' event)
  takes :
    Pairing.Takes κ W (firstNode d event) (firstNode d' event)
      (Emission.nodeCount (Evaluation.emissions d event))

variable {κ : Layout} {V W : Pairing} {n : Nat} {d d' : State}
variable {outer outer' : Scope}

theorem Told.mono
    {event : Event}
    (h : Told κ V event d d')
    (hExtends : V.Extends W) :
    Told κ W event d d' where
  collects := h.collects
  collects' := h.collects'
  emissions :=
    h.emissions.imp
      (fun _ _ hOne => hOne.mono (fun _ _ hN => hN.mono hExtends))
  takes := h.takes.mono hExtends

theorem Stacked.mono
    (hExtends : V.Extends W)
    {elements elements' : List Element}
    (h : Stacked κ V outer outer' n elements elements') :
    Stacked κ W outer outer' n elements elements' := by
  induction h with
  | outside hScope hRoot =>
      exact .outside (hScope.mono pairing_sound hExtends) hRoot
  | inside hMatch hBase _ ih =>
      exact .inside (hMatch.mono pairing_sound hExtends) hBase ih

/- Stacks that correspond still do after the same event. -/
theorem Stacked.captureAll
    (event : Event)
    {elements elements' : List Element}
    (h : Stacked κ W outer outer' n elements elements') :
    Stacked κ W outer outer' n (captureAll event elements)
      (captureAll event elements') := by
  induction h with
  | outside hScope hRoot =>
      refine .outside ?_ ?_
      · rw [innermost_captureAll, innermost_captureAll]
        exact hScope
      · unfold Evaluation.captureAll
        rw [List.isEmpty_map, List.isEmpty_map]
        exact hRoot
  | inside hMatch hBase _ ih =>
      exact .inside (hMatch.capture event) hBase ih

/- Stacks that correspond pass in corresponding scopes. -/
theorem Stacked.scope
    {elements elements' : List Element}
    (h : Stacked κ W outer outer' n elements elements') :
    (pairing κ).ScopesMatch W
      (innermost outer elements) (innermost outer' elements') := by
  cases h with
  | outside hScope _ => exact hScope
  | inside hMatch _ _ => exact hMatch.scope

theorem Stacked.isEmpty_eq
    {elements elements' : List Element}
    (h : Stacked κ W outer outer' n elements elements') :
    elements.isEmpty = elements'.isEmpty := by
  cases h with
  | outside _ hRoot => exact hRoot
  | inside _ _ _ => rfl

theorem Paired.fresh
    (h : Paired κ W n d d') :
    Session.Paired κ W d.fresh d'.fresh :=
  ⟨h.supply, h.lists, .nil⟩

/- Evaluations are in step after an event if their parts are. -/
theorem Paired.after
    (h : Paired κ W n d d')
    {m : Nat}
    {s s' : Session}
    {elements elements' : List Element}
    (hSupply : NodeSupply.Paired V s.supply s'.supply)
    (hLists :
      ListForest.Paired κ V.Nodes V.mappings s.lists s'.lists)
    (hStack : Stacked κ V d.outer d'.outer m elements elements') :
    Paired κ V m (d.after elements s) (d'.after elements' s') where
  settings := h.settings
  collects := h.collects
  collects' := h.collects'
  supply := hSupply
  lists := hLists
  stack := hStack

------------------------------------------------------------
-- Single events
------------------------------------------------------------

/-
  An event does the same to two evaluations: it leaves them in
  step, or it is the same fault for both.
-/
def Beside
    (κ : Layout)
    (W : Pairing)
    (n : Nat)
    (event : Event)
    (d d' : State) : Prop :=
  (∃ m m' notes notes' V,
    process d event = (.ok m, notes) ∧
      process d' event = (.ok m', notes') ∧
      W.Extends V ∧ Paired κ V n m m' ∧ Told κ V event d d') ∨
    ∃ fault notes notes',
      process d event = (.error fault, notes) ∧
        process d' event = (.error fault, notes')

/- Events that close nothing emit what they note. -/
theorem Paired.told
    (h : Paired κ W n d d')
    {event : Event}
    {outcome outcome' : Except Fault State}
    {notes notes' : List Note}
    (hStep : process d event = (outcome, notes))
    (hStep' : process d' event = (outcome', notes'))
    (hOpen : closing? d event = none)
    (hOpen' : closing? d' event = none)
    (hNotes : List.Forall₂ (Note.Match κ V.Nodes) notes notes') :
    Told κ V event d d' := by
  have hEmissions :
      ∀ {x : State} {o : Except Fault State} {ns : List Note},
        process x event = (o, ns) → closing? x event = none →
          emissions x event = (Note.quads ns).map .stated := by
    intro x o ns hProcess hNone
    unfold emissions
    rw [hNone, hProcess]
  refine
    { collects := h.lists.collects
      collects' := h.lists.collects'
      emissions := ?_
      takes := ?_ }
  · rw [hEmissions hStep hOpen, hEmissions hStep' hOpen']
    exact Emission.stated_match (Note.quads_match hNotes)
  · rw [hEmissions hStep hOpen, Emission.nodeCount_stated]
    exact Pairing.takes_zero κ V _ _

/- A start tag opens elements that correspond. -/
theorem Paired.opened
    (h : Paired κ W n d d')
    (name : String)
    (attributes : Entries)
    (depth : Nat) :
    Beside κ W (n + 1) (.opened name attributes depth) d d' := by
  have hMakes : (pairing κ).MakesFor d.settings d'.settings := by
    unfold MakesFor
    rw [← h.collects, ← h.collects']
    exact pairing_makes
  have hScope : (pairing κ).ScopesMatch W d.scope d'.scope := by
    rw [scope_eq_innermost, scope_eq_innermost]
    exact h.stack.scope
  have hRoot := h.stack.isEmpty_eq
  have hBoth :=
    openElement_coupled pairing_sound pairing_fills h.settings hMakes
      hScope d.elements.isEmpty (.inl ⟨trivial, trivial⟩) name
      attributes
  rcases hBoth.outcomes h.fresh with
    ⟨e, e', s, s', V, hLeft, hRight, hV, hs, hMatch⟩ |
      ⟨fault, s, s', hLeft, hRight⟩
  · rw [hRoot] at hRight
    have hStep := process_of_open hLeft depth
    have hStep' := process_of_open hRight depth
    have hBase : κ.base ≤ e.list := by
      rw [(openElement_opened _ _ _ _ _ _ _ _ hLeft).list_eq]
      exact h.lists.base
    exact .inl ⟨_, _, _, _, V, hStep, hStep', hV,
      h.after hs.supply hs.lists
        (.inside hMatch hBase ((h.stack.mono hV).captureAll _)),
      h.told hStep hStep' rfl rfl hs.notes⟩
  · rw [hRoot] at hRight
    exact .inr ⟨fault, _, _, process_of_open hLeft depth,
      process_of_open hRight depth⟩

/- A text is captured on both sides. -/
theorem Paired.text
    (h : Paired κ W n d d')
    (data : String) :
    Beside κ W n (.text data) d d' :=
  .inl ⟨_, _, _, _, W, rfl, rfl, .refl W,
    h.after h.supply h.lists (h.stack.captureAll _),
    h.told rfl rfl rfl rfl .nil⟩

/-
  An end tag tells what completing its element tells, and then
  the lists that the element owns.
-/
theorem Paired.told_closing
    (h : Paired κ W n d d')
    {e e' : Element}
    {rest rest' : List Element}
    {s s' : Session}
    (hElements : d.elements = e :: rest)
    (hElements' : d'.elements = e' :: rest')
    (hName : e.name = e'.name)
    (hComplete : completeElement e d.fresh = (.ok (), s))
    (hComplete' : completeElement e' d'.fresh = (.ok (), s'))
    (hNotes :
      List.Forall₂ (Note.Match κ V.Nodes) s.notes.toList
        s'.notes.toList)
    (hLists :
      List.Forall₂ (Emission.Match V.Nodes)
        (Emission.ofLists e.subject (s.lists.slot e.list).lists)
        (Emission.ofLists e'.subject (s'.lists.slot e'.list).lists))
    (hTakes :
      Pairing.Takes κ V s.supply.count s'.supply.count
        (Emission.nodeCount
          (Emission.ofLists e.subject (s.lists.slot e.list).lists)))
    (depth : Nat) :
    Told κ V (.closed e.name depth) d d' := by
  have hClosing := closing?_eq_some hElements rfl depth
  have hClosing' := closing?_eq_some hElements' hName.symm depth
  have hEmitted := emissions_of_closing hClosing hComplete
  have hEmitted' := emissions_of_closing hClosing' hComplete'
  refine
    { collects := h.lists.collects
      collects' := h.lists.collects'
      emissions := ?_
      takes := ?_ }
  · rw [hEmitted, hEmitted']
    refine List.rel_append ?_ hLists
    exact Emission.stated_match (Note.quads_match hNotes)
  · rw [firstNode_of_closing hClosing hComplete,
      firstNode_of_closing hClosing' hComplete', hEmitted,
      Emission.nodeCount_append, Emission.nodeCount_stated,
      Nat.zero_add]
    exact hTakes

/-
  An end tag closes elements that correspond: the literals
  that waited are completed alike, and the lists are flushed
  alike.
-/
theorem Paired.closed
    (h : Paired κ W (n + 1) d d')
    (hStyles : κ.SameOrCollects)
    (hHoused : Housed d)
    (name : String)
    (depth : Nat) :
    Beside κ W n (.closed name depth) d d' := by
  have hStack := h.stack
  generalize hElements : d.elements = elements at hStack
  generalize hElements' : d'.elements = elements' at hStack
  cases hStack with
  | @inside _ e e' rest rest' hMatch hBase hRest =>
    by_cases hName : e.name = name
    · subst hName
      have hEnd :
          ∀ {outcome : Except Fault Unit} {t' : Session},
            closeElement e' d'.fresh = (outcome, t') →
              process d' (.closed e.name depth) =
                (outcome.map (fun _ =>
                  d'.after (captureAll (.closed e.name depth) rest') t'),
                  t'.notes.toList) := by
        intro outcome t' hClose
        rw [hMatch.name]
        exact process_of_close hElements' hClose depth
      rcases (completeElement_coupled pairing_sound pairing_fills
          hMatch.pending).outcomes h.fresh with
        ⟨_, _, s, s', V, hComplete, hComplete', hV, hs, _⟩ |
          ⟨fault, s, s', hComplete, hComplete'⟩
      · have hClose := closeElement_of_ok hComplete
        have hClose' := closeElement_of_ok hComplete'
        have hMatchV := hMatch.mono pairing_sound hV
        rcases flushLists_paired hs hStyles hMatchV.list hBase
            (hHoused.unflushed hElements hComplete)
            hMatchV.subject with
          ⟨hEmissions,
            ⟨t, t', U, hFlush, hFlush', hU, hTakes, hSupply,
                hLists⟩ |
              ⟨fault, t, t', hFlush, hFlush'⟩⟩
        · rw [hFlush] at hClose
          rw [hFlush'] at hClose'
          have hNodes :
              ∀ b b', Pairing.Nodes V b b' → U.Nodes b b' :=
            fun _ _ hN => hN.mono hU
          exact .inl ⟨_, _, _, _, U,
            process_of_close hElements hClose depth, hEnd hClose',
            hV.trans hU,
            h.after hSupply hLists
              ((hRest.mono (hV.trans hU)).captureAll _),
            h.told_closing hElements hElements' hMatch.name hComplete
              hComplete'
              (hs.notes.imp (fun _ _ hOne => hOne.mono hNodes))
              (hEmissions.imp (fun _ _ hOne => hOne.mono hNodes))
              hTakes depth⟩
        · rw [hFlush] at hClose
          rw [hFlush'] at hClose'
          exact .inr ⟨fault, _, _,
            process_of_close hElements hClose depth, hEnd hClose'⟩
      · exact .inr ⟨fault, _, _,
          process_of_close hElements (closeElement_of_error hComplete)
            depth,
          hEnd (closeElement_of_error hComplete')⟩
    · have hName' : e'.name ≠ name := by
        rw [← hMatch.name]
        exact hName
      refine .inr ⟨.mismatchedEnd e.name name, [], [],
        process_of_mismatch hElements hName depth, ?_⟩
      rw [hMatch.name]
      exact process_of_mismatch hElements' hName' depth

------------------------------------------------------------
-- Starts
------------------------------------------------------------

/- A layout of two whole runs: nothing is common to both. -/
def wholeRuns
    (settings settings' : Settings) : Layout where
  base := 0
  shift := 0
  collects := settings.options.listStyle == .collection
  collects' := settings'.options.listStyle == .collection

/- Before the first event no nodes belong together. -/
def noPairs : Pairing :=
  ⟨fun _ _ => False, fun _ => False, 1⟩

/- Settings that differ in the style of lists only. -/
structure SameButStyle
    (settings settings' : Settings) : Prop where
  agree : settings.Agree settings'
  prefixes : settings.options.prefixes = settings'.options.prefixes
  terms : settings.options.terms = settings'.options.terms

theorem SameButStyle.refl
    (settings : Settings) :
    SameButStyle settings settings :=
  ⟨.refl settings, rfl, rfl⟩

/- Evaluations start in step, in whichever style each is. -/
theorem paired_initial
    {settings settings' : Settings}
    (hSettings : SameButStyle settings settings')
    (document : String)
    (iri : Iri) :
    Paired (wholeRuns settings settings') noPairs 0
      (State.initial settings document iri)
      (State.initial settings' document iri) where
  settings := hSettings.agree
  collects := rfl
  collects' := rfl
  supply :=
    { bounded := fun _ _ h => h.elim
      functional := fun _ _ _ h => h.elim
      injective := fun _ _ _ h => h.elim
      unreserved := fun _ _ h => h.elim
      reserved := fun _ h => h.elim
      seen := by
        intro label i hSeen
        cases hSeen
      unseen := by
        intro label j _ hSeen
        cases hSeen
      named := by
        intro label j hSeen
        cases hSeen
      distinct := by
        intro label label' j hSeen
        cases hSeen }
  lists := by
    have hEmpty :
        ListForest.Paired (wholeRuns settings settings')
          noPairs.Nodes 0 (.empty : ListForest Iri Object) .empty :=
      { size := rfl
        base := Nat.le_refl _
        mappings := Nat.le_refl _
        owned := fun _ h => absurd h (Nat.not_lt_zero _)
        slots := fun _ _ _ h => absurd h (Nat.not_lt_zero _)
        collects := fun _ h => absurd h (Nat.not_lt_zero _)
        collects' := fun _ h => absurd h (Nat.not_lt_zero _) }
    exact hEmpty.root
  stack := by
    refine .outside ?_ rfl
    exact
      { base := rfl
        prefixes := hSettings.prefixes
        terms := hSettings.terms
        vocab := rfl
        language := rfl
        subject := .some (.iri iri)
        object := .none
        list := ⟨.inr ⟨Nat.le_refl _, rfl⟩, Nat.one_pos⟩
        incomplete := .nil }

------------------------------------------------------------
-- Runs
------------------------------------------------------------

/-
  Two runs over the same events, of which a pairing knows all
  that they tell.
-/
inductive Traced
    (κ : Layout)
    (W : Pairing) :
    State → State → List Event → Prop where
  | nil (d d' : State) : Traced κ W d d' []
  | cons
      {d d' m m' : State}
      {event : Event}
      {rest : List Event}
      {notes notes' : List Note}
      (hStep : process d event = (.ok m, notes))
      (hStep' : process d' event = (.ok m', notes'))
      (hTold : Told κ W event d d')
      (hRest : Traced κ W m m' rest) :
      Traced κ W d d' (event :: rest)

/-
  Evaluations in step do the same over events that close only
  what corresponds: both end with the same fault, or both
  reach evaluations in step, in a larger pairing.
-/
theorem evaluate_paired
    {events : List Event}
    (hWithin : Event.Within n events)
    (hStyles : κ.SameOrCollects)
    (hHoused : Housed d)
    (h : Paired κ W n d d') :
    (∃ m final final' sections sections' V,
      Extraction.evaluate d events = (sections, .ok final) ∧
        Extraction.evaluate d' events = (sections', .ok final') ∧
        W.Extends V ∧ Paired κ V m final final' ∧
        Traced κ V d d' events) ∨
      ∃ fault sections sections',
        Extraction.evaluate d events = (sections, .error fault) ∧
          Extraction.evaluate d' events =
            (sections', .error fault) := by
  induction hWithin generalizing d d' W with
  | nil =>
      exact .inl ⟨_, d, d', [], [], W, rfl, rfl, .refl W, h,
        .nil d d'⟩
  | @step n k event rest hMoves _ ih =>
      have hBeside : Beside κ W k event d d' := by
        cases hMoves with
        | opened name attributes depth =>
            exact h.opened name attributes depth
        | text data => exact h.text data
        | closed name depth =>
            exact h.closed hStyles hHoused name depth
      rcases hBeside with
        ⟨m, m', notes, notes', V, hStep, hStep', hV, hPaired, hTold⟩ |
          ⟨fault, notes, notes', hStep, hStep'⟩
      · have hHousedNext := housed_of_process hHoused hStep
        rcases ih hHousedNext hPaired with
          ⟨j, final, final', sections, sections', U, hRest, hRest', hU,
              hFinal, hTraced⟩ |
            ⟨fault, sections, sections', hRest, hRest'⟩
        · refine .inl ⟨j, final, final', notes :: sections,
            notes' :: sections', U, ?_, ?_, hV.trans hU, hFinal,
            .cons hStep hStep' (hTold.mono hU) hTraced⟩
          · simp only [Extraction.evaluate, hStep, hRest]
          · simp only [Extraction.evaluate, hStep', hRest']
        · refine .inr ⟨fault, notes :: sections, notes' :: sections',
            ?_, ?_⟩
          · simp only [Extraction.evaluate, hStep, hRest]
          · simp only [Extraction.evaluate, hStep', hRest']
      · refine .inr ⟨fault, [notes], [notes'], ?_, ?_⟩
        · simp only [Extraction.evaluate, hStep]
        · simp only [Extraction.evaluate, hStep']

end Evaluation
end LinkedMarkup
