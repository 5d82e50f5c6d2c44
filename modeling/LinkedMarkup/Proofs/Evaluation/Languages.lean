import LinkedMarkup.Proofs.Evaluation.Advances
import LinkedMarkup.Proofs.Evaluation.Content
import LinkedMarkup.Proofs.Evaluation.Provenance

/-
  This file proves which literals of a run have a language.
  Only language strings have one, but one that the datatype
  of its property names as such has none, in whatever way its
  text is given.

  Key definitions include:
    * `Literal.Coherent`
    * `Literal.Untagged`
    * `Evaluation.valueWith`
    * `Evaluation.UntaggedBy`
    * `Evaluation.StartTag.Got`

  Main declarations:
    * `Literal.untagged_ofText`
    * `Pending.untagged_literal`
    * `Evaluation.untagged_valueWith`
    * `Evaluation.exists_got_of_startTag?`
    * `Evaluation.coherent_unless_named`
-/

namespace LinkedMarkup

------------------------------------------------------------
-- Languages and datatypes
------------------------------------------------------------

namespace Literal

/- A literal that has a language exactly if it is a language string. -/
def Coherent
    (l : Literal) : Prop :=
  l.language?.isSome = true ↔ l.datatype = Rdf.langString

/- A language string without a language. -/
def Untagged
    (l : Literal) : Prop :=
  l.language? = none ∧ l.datatype = Rdf.langString

/- That it lacks its language is all that can be wrong. -/
theorem coherent_or_untagged
    (l : Literal) :
    l.Coherent ∨ l.Untagged := by
  cases l with
  | tagged value language => exact .inl ⟨fun _ => rfl, fun _ => rfl⟩
  | typed value datatype =>
      by_cases hNamed : datatype = Rdf.langString
      · exact .inr ⟨rfl, hNamed⟩
      · exact .inl ⟨nofun, fun hEq => absurd hEq hNamed⟩

theorem Untagged.not_coherent
    {l : Literal}
    (h : l.Untagged) :
    ¬ l.Coherent := by
  intro hCoherent
  have hLanguage := hCoherent.mpr h.2
  rw [h.1] at hLanguage
  cases hLanguage

end Literal

/- No moment is a language string. -/
theorem Moment.datatype?_ne_langString
    (value : String) :
    Moment.datatype? value ≠ some Rdf.langString := by
  have hForms : ∀ form ∈ Moment.forms, form.2 ≠ Rdf.langString := by
    decide +kernel
  intro hMoment
  rcases Option.map_eq_some_iff.mp hMoment with ⟨form, hFound, hEq⟩
  exact hForms form (List.mem_of_find?_eq_some hFound) hEq

/-
  Of a text, only a datatype that is given makes a language
  string without a language.
-/
theorem Literal.untagged_ofText
    (value : String)
    (datatype : Option Iri)
    (language : Option String) :
    (ofText value datatype language).Untagged ↔
      datatype = some Rdf.langString := by
  have hPlain :
      Xsd.string ≠ Rdf.langString := by
    decide +kernel
  unfold ofText
  cases datatype with
  | some d =>
      exact
        ⟨fun hUntagged => congrArg some hUntagged.2,
          fun hEq => ⟨rfl, Option.some.inj hEq⟩⟩
  | none =>
      refine iff_of_false ?_ nofun
      rintro ⟨hLanguage, hDatatype⟩
      cases hMake : make value none language with
      | error fault =>
          rw [hMake] at hDatatype
          exact hPlain hDatatype
      | ok l =>
          rw [hMake] at hLanguage hDatatype
          cases l with
          | tagged text tag => cases hLanguage
          | typed text d =>
              rw [datatype_of_make hMake] at hDatatype
              exact hPlain hDatatype

namespace Evaluation

theorem inferred?_ne_langString
    (mayInfer : Bool)
    (content : String) :
    inferred? mayInfer content ≠ some Rdf.langString := by
  unfold inferred?
  split
  · exact Moment.datatype?_ne_langString content
  · nofun

end Evaluation

/- Nor does a value that waits become one in any other way. -/
theorem Pending.untagged_literal
    (p : Pending) :
    p.literal.Untagged ↔ p.datatype = some Rdf.langString := by
  unfold literal datatypeOf
  rw [Literal.untagged_ofText]
  cases p.datatype with
  | some d => rw [Option.some_or]
  | none =>
      rw [Option.none_or]
      exact iff_of_false (Evaluation.inferred?_ne_langString _ _) nofun

------------------------------------------------------------
-- Values of properties
------------------------------------------------------------

/- An object that is a language string without a language. -/
def Object.Untagged
    (o : Object) : Prop :=
  ∃ l, o = .literal l ∧ l.Untagged

theorem Object.untagged_literal
    (l : Literal) :
    (Object.literal l).Untagged ↔ l.Untagged := by
  constructor
  · rintro ⟨_, ⟨⟩, hUntagged⟩
    exact hUntagged
  · exact fun hUntagged => ⟨l, rfl, hUntagged⟩

theorem Subject.not_untagged_toObject
    (s : Subject) :
    ¬ s.toObject.Untagged := by
  rintro ⟨l, hEq, _⟩
  cases s <;> cases hEq

namespace Evaluation

open Work

/-
  The value of a property with some content: one that is
  known at the start tag takes nothing from it.
-/
def valueWith
    (found : Except Pending Object)
    (content : String) : Object :=
  match found with
  | .ok object => object
  | .error waiting => .literal (waiting.extended content).literal

/-
  Whether the text of a property is given, comes from content
  or keeps its markup, and whatever language is in force, its
  value is a language string without a language exactly if
  its datatype is named so.
-/
theorem untagged_valueWith
    (settings : Settings)
    (name : String)
    (attributes : Entries)
    (scope : Scope)
    (named : Named)
    (typed : Option Subject)
    (hasRelations : Bool)
    {pending : Pending}
    (hDatatype : pending.datatype = none) :
    (propertyValue settings name attributes scope named typed
      hasRelations pending).Yields
        (fun found =>
          ∀ content,
            (valueWith found content).Untagged ↔
              scope.environment.datatype? attributes =
                some Rdf.langString) := by
  -- A value that waits has the datatype that it was given.
  have hWaits :
      ∀ (p : Pending) (d : Option Iri), p.datatype = d →
        ∀ content,
          (valueWith (.error p) content).Untagged ↔
            d = some Rdf.langString := by
    rintro p _ rfl content
    exact (Object.untagged_literal _).trans
      (p.extended content).untagged_literal
  -- A literal from a text that is given is known.
  have hKnown :
      ∀ {w : Work Literal} {l : Literal} {notes : List Note}
          {P : Prop},
        (∀ s, w.Tells s l notes) →
          (l.Untagged ↔ P) →
            (w >>= fun l =>
              (pure (.ok (.literal l)) :
                Work (Except Pending Object))).Yields
              (fun found =>
                ∀ content, (valueWith found content).Untagged ↔ P) := by
    intro w l notes P hTells hIff s found t hRun content
    cases ((hTells s).bind_pure _).symm.trans hRun
    exact (Object.untagged_literal l).trans hIff
  have hNode :
      ∀ s : Subject,
        (pure (.ok s.toObject) : Work (Except Pending Object)).Yields
          (fun found =>
            ∀ content,
              (valueWith found content).Untagged ↔
                none = some Rdf.langString) :=
    fun s => yields_pure
      (fun _ => iff_of_false s.not_untagged_toObject nofun)
  unfold propertyValue
  refine (readDatatype_yields scope attributes).bind ?_
  rintro _ rfl
  cases scope.environment.datatype? attributes with
  | some d =>
      dsimp only
      split
      · exact yields_pure (hWaits _ _ rfl)
      · split
        · exact yields_pure (hWaits _ _ rfl)
        · exact hKnown (typedLiteral_tells _ d)
            (Literal.untagged_ofText _ (some d) none)
  | none =>
      dsimp only
      split
      · split
        · exact yields_pure (hWaits _ _ hDatatype)
        · exact hKnown (plainLiteral_tells _ _)
            (Literal.untagged_ofText _ none _)
      · split
        · refine hKnown (contentLiteral_tells _ _ _) ?_
          rw [Literal.untagged_ofText]
          exact iff_of_false (inferred?_ne_langString _ _) nofun
        · split
          · exact hNode _
          · split
            · exact hNode _
            · exact yields_pure (hWaits _ _ hDatatype)

------------------------------------------------------------
-- Values at start tags
------------------------------------------------------------

/- A value is noted, or its list has been flushed and this fails. -/
theorem stateOrList_notes
    (subject : Subject)
    (list : Nat)
    (inList : Bool)
    (value : Object)
    (predicate : Iri)
    (s : Session) :
    (stateOrList (some subject) list inList value predicate).Ensures s
      (fun _ t =>
        valueNote subject list inList value predicate ∈
          t.notes.toList) := by
  intro _ t hRun
  unfold stateOrList at hRun
  unfold valueNote
  cases inList with
  | true =>
      cases hFlushed : s.lists.flushed list with
      | true =>
          simp [appendToList, ListForest.append, hFlushed] at hRun
      | false =>
          cases (tells_appendToList hFlushed predicate value).symm.trans
            hRun
          simp [Session.notes_told]
  | false =>
      cases (tells_state subject predicate value s).symm.trans hRun
      simp [Session.notes_told]

theorem stateValue_notes
    (subject : Subject)
    (list : Nat)
    (inList : Bool)
    (value : Object)
    (predicates : List Iri)
    (s : Session) :
    (stateValue subject list inList value predicates).Ensures s
      (fun _ t =>
        ∀ i ∈ predicates,
          valueNote subject list inList value i ∈ t.notes.toList) := by
  induction predicates generalizing s with
  | nil => exact fun _ _ _ i hMem => nomatch hMem
  | cons p rest ih =>
      intro u t hRun
      rcases andThen_eq_ok hRun with ⟨_, m, hFirst, hRest⟩
      have hNoted :=
        stateOrList_notes subject list inList value p s _ m hFirst
      have hKept :=
        ensures_of_keeping
          (Coupling.stateValue_coupled
            (Coupling.keeping_sound (keeps_precedes m))
            (Coupling.keeping_fills (keepsFilling_precedes m)) inList
            rest (Coupling.subjectsMatch_self subject)
            (⟨rfl, trivial⟩ : list = list ∧ True)
            (Coupling.objectsMatch_self value))
          (.refl m) u t hRest
      intro i hMem
      rcases List.mem_cons.mp hMem with rfl | hIn
      · exact hKept.notes.subset hNoted
      · exact ih m u t hRest i hIn

/-
  A value that a property has got: one that waits for
  content, or one that was noted for each predicate.
-/
def Got
    (subject : Subject)
    (list : Nat)
    (inList : Bool)
    (predicates : List Iri)
    (pending : Option Pending)
    (notes : List Note)
    (found : Except Pending Object) : Prop :=
  match found with
  | .error waiting => pending = some waiting
  | .ok object =>
      pending = none ∧
        ∀ i ∈ predicates,
          valueNote subject list inList object i ∈ notes

theorem Got.mono
    {subject : Subject}
    {list : Nat}
    {inList : Bool}
    {predicates : List Iri}
    {pending : Option Pending}
    {notes more : List Note}
    {found : Except Pending Object}
    (h : Got subject list inList predicates pending notes found)
    (hNotes : notes ⊆ more) :
    Got subject list inList predicates pending more found := by
  cases found with
  | error waiting => exact h
  | ok object => exact ⟨h.1, fun i hMem => hNotes (h.2 i hMem)⟩

/- A value that lacks a language just if its datatype is named so. -/
def UntaggedBy
    (datatype : Option Iri)
    (found : Except Pending Object) : Prop :=
  ∀ content,
    (valueWith found content).Untagged ↔ datatype = some Rdf.langString

/- A property with a predicate and a subject gets such a value. -/
theorem readProperty_got
    (settings : Settings)
    (name : String)
    (attributes : Entries)
    (scope : Scope)
    (named : Named)
    {parts : Roles}
    {subject : Subject}
    (hSubject : parts.subject = some subject)
    (hPredicates : scope.environment.predicates attributes ≠ [])
    (list : Nat)
    (inList hasRelations : Bool)
    (s : Session) :
    (readProperty settings name attributes scope named parts list
      inList hasRelations).Ensures s
        (fun pending t =>
          ∃ found,
            Got subject list inList
                (scope.environment.predicates attributes) pending
                t.notes.toList found ∧
              UntaggedBy (scope.environment.datatype? attributes)
                found) := by
  unfold Environment.predicates at hPredicates ⊢
  unfold readProperty
  rw [hSubject]
  cases hValue : attributes.get? "property" with
  | none =>
      rw [hValue] at hPredicates
      exact absurd rfl hPredicates
  | some value =>
      rw [hValue] at hPredicates
      dsimp only at hPredicates ⊢
      refine (Resolution.terms_yields scope value s).bind ?_
      rintro _ m rfl
      rw [if_neg (by rwa [List.isEmpty_iff])]
      refine
        (untagged_valueWith settings name attributes scope named
          parts.typed hasRelations rfl m).bind ?_
      intro found u hFound
      cases found with
      | error waiting =>
          apply ensures_pure
          refine ⟨.error waiting, ?_, hFound⟩
          exact rfl
      | ok object =>
          refine (stateValue_notes _ _ _ _ _ u).bind ?_
          intro _ t hNotes
          apply ensures_pure
          refine ⟨.ok object, ?_, hFound⟩
          exact ⟨rfl, hNotes⟩

theorem buildElement_subject
    (settings : Settings)
    (parent : Scope)
    (name : String)
    (attributes : Entries)
    (tag : Reading) :
    (buildElement settings parent name attributes tag).Yields
      (fun e => e.subject = tag.parts.subject) := by
  unfold buildElement
  refine yields_bind (fun list => ?_)
  refine yields_bind (fun incomplete => ?_)
  refine yields_bind (fun object => ?_)
  refine yields_bind (fun pending => ?_)
  exact fun _ _ _ hRun =>
    (enclose_fields _ _ _ _ _ _ _ _ _ _ _ hRun).1

/- What follows the property of a start tag does not undo it. -/
theorem buildElement_got
    (settings : Settings)
    (parent : Scope)
    (name : String)
    (attributes : Entries)
    {tag : Reading}
    {subject : Subject}
    (hSubject : tag.parts.subject = some subject)
    (hPredicates :
      tag.scope.environment.predicates attributes ≠ [])
    (s : Session) :
    (buildElement settings parent name attributes tag).Ensures s
      (fun e t =>
        ∃ found,
          Got subject e.list (attributes.has "inlist")
              (tag.scope.environment.predicates attributes) e.pending
              t.notes.toList found ∧
            UntaggedBy (tag.scope.environment.datatype? attributes)
              found) := by
  unfold buildElement
  refine ensures_bind (fun list s₁ => ?_)
  refine ensures_bind (fun incomplete s₂ => ?_)
  refine ensures_bind (fun object s₃ => ?_)
  refine
    (readProperty_got settings name attributes tag.scope tag.named
      hSubject hPredicates list _ tag.hasRelations s₃).bind ?_
  rintro pending s₄ ⟨found, hGot, hUntagged⟩
  have hKept :=
    ensures_of_keeping
      (Coupling.enclose_coupled
        (Coupling.keeping_sound (keeps_precedes s₄))
        (Coupling.keeping_fills (keepsFilling_precedes s₄))
        (scopesMatch_precedes s₄ parent)
        (scopesMatch_precedes s₄ tag.scope)
        (Coupling.rolesMatch_self tag.parts)
        (Coupling.optional_self object)
        (⟨rfl, trivial⟩ : list = list ∧ True)
        (scopesMatch_precedes s₄
          { tag.scope with incomplete := incomplete }).incomplete
        (Coupling.rel_pending_self
          (fun (_ : Pending) (_ : pending = some _) => trivial)) name
        (.inl ⟨trivial, trivial⟩))
      (.refl s₄)
  refine
    ((enclose_fields parent tag.scope name tag.parts object list
      incomplete pending s₄).and hKept).mono ?_
  rintro e t ⟨⟨-, rfl, rfl⟩, hAfter⟩
  exact ⟨found, hGot.mono hAfter.notes.subset, hUntagged⟩

/-
  A value that the property of a start tag has got for the
  subject of its element.
-/
def StartTag.Got
    (x : StartTag)
    (subject : Subject)
    (notes : List Note)
    (found : Except Pending Object) : Prop :=
  Evaluation.Got subject x.element.list (x.attributes.has "inlist")
    (x.element.scope.environment.predicates x.attributes)
    x.element.pending notes found

/- What a start tag in a run has got for its property. -/
theorem exists_got_of_startTag?
    {d : State}
    {event : Event}
    {x : StartTag}
    (h : startTag? d event = some x)
    {subject : Subject}
    (hSubject : x.element.subject = some subject)
    (hPredicates :
      x.element.scope.environment.predicates x.attributes ≠ []) :
    ∃ found,
      x.Got subject (process d event).2 found ∧
        UntaggedBy
          (x.element.scope.environment.datatype? x.attributes)
          found := by
  rcases reads_of_startTag? h with
    ⟨name, depth, m, t, rfl, _, hRead, hBuild⟩
  have hOpen :
      openElement d.settings d.scope d.elements.isEmpty name
          x.attributes d.fresh =
        (.ok x.element, t) := by
    rw [openElement_eq]
    exact (bind_of_ok hRead _).trans hBuild
  have hParts :
      x.element.subject = x.reading.parts.subject :=
    buildElement_subject _ _ _ _ _ _ _ _ hBuild
  have hEnvironment :=
    buildElement_environment _ _ _ _ _ _ _ _ hBuild
  rw [hParts] at hSubject
  unfold StartTag.Got
  rw [hEnvironment] at hPredicates ⊢
  rw [process_of_open hOpen depth]
  exact
    buildElement_got d.settings d.scope name x.attributes hSubject
      hPredicates m x.element t hBuild

------------------------------------------------------------
-- Runs
------------------------------------------------------------

/-
  Whatever events come, a literal that one of them states has
  a language exactly if it is a language string, unless the
  datatype of a start tag up to there is named so; then it
  has none. And exactly at the start tags with such a datatype
  the property gets such a value, whether its text is given,
  comes from content or keeps its markup.
-/
theorem coherent_unless_named
    {settings : Settings}
    {base : String}
    {first : State}
    (hStart : start settings base = .ok first)
    (events : List Event) :
    ∃ document,
      Iri.withoutFragment base = .ok document ∧
        ∀ position notes,
          (Extraction.evaluate first events).1[position]? =
              some notes →
            (∀ q ∈ Note.quads notes, ∀ l,
              q.object = .literal l →
                l.Coherent ∨
                  l.Untagged ∧
                    ∃ origin ≤ position,
                      NamedAt settings document events origin
                        "datatype" Rdf.langString) ∧
              ∀ x subject,
                startTagAt first events position = some x →
                  x.element.subject = some subject →
                    x.element.scope.environment.predicates
                        x.attributes ≠ [] →
                      ∃ found,
                        x.Got subject notes found ∧
                          UntaggedBy
                            (x.element.scope.environment.datatype?
                              x.attributes)
                            found := by
  rcases start_eq_ok hStart with ⟨document, _, hDocument, _, _⟩
  refine ⟨document, hDocument, ?_⟩
  intro position notes hSection
  refine ⟨?_, ?_⟩
  · intro q hMem l hLiteral
    rcases l.coherent_or_untagged with hCoherent | hUntagged
    · exact .inl hCoherent
    · refine .inr ⟨hUntagged, ?_⟩
      have hSourced :=
        (sources_of_section hStart hDocument hSection hMem).2
      rcases l with ⟨value, language⟩ | ⟨value, datatype⟩
      · cases hUntagged.1
      · obtain rfl : datatype = Rdf.langString := hUntagged.2
        rcases hSourced value _ hLiteral with
          hPlain | hMoment | hNamed
        · exact absurd hPlain (by decide +kernel)
        · exact absurd hMoment (Moment.datatype?_ne_langString value)
        · exact hNamed
  · intro x subject hTag hSubject hPredicates
    rcases Standard.exists_run_of_section hSection with
      ⟨event, _, d, hEvent, hRun, rfl⟩
    have hBefore : first.before events position = d := hRun.through_eq
    rw [startTagAt_of_event hEvent, hBefore] at hTag
    exact exists_got_of_startTag? hTag hSubject hPredicates

namespace Languages

def settings : Settings :=
  ⟨.xhtml,
    ⟨.members, true,
      [("f", "http://f/"),
        ("rdf", "http://www.w3.org/1999/02/22-rdf-syntax-ns#")],
      []⟩⟩

def first : State :=
  State.initial settings "http://ex/" ⟨"http://ex/"⟩

/-
  Language strings with a text that is given and one from
  content, inside an element with a language.
-/
def events : List Event :=
  [.opened "div" [("xml:lang", "en")] 0,
    .opened "b"
      [("about", "#a"), ("property", "f:x"),
        ("datatype", "rdf:langString"), ("content", "x")] 1,
    .closed "b" 1,
    .opened "i"
      [("about", "#a"), ("property", "f:y"),
        ("datatype", "rdf:langString")] 1,
    .text "y",
    .closed "i" 1,
    .closed "div" 0]

theorem start_eq :
    start settings "http://ex/" = .ok first :=
  start_of_document (by decide +kernel) (by decide +kernel) settings

def given : Literal :=
  .typed "x" Rdf.langString

def captured : Literal :=
  .typed "y" Rdf.langString

/- What is stated at each event. -/
def quads : List (List Quad) :=
  [[],
    [.triple (.iri ⟨"http://ex/#a"⟩) ⟨"http://f/x"⟩ (.literal given)],
    [], [], [],
    [.triple (.iri ⟨"http://ex/#a"⟩) ⟨"http://f/y"⟩
      (.literal captured)],
    []]

theorem quads_eq :
    (Extraction.evaluate first events).1.map Note.quads = quads := by
  decide +kernel

theorem exists_notes
    (position : Nat)
    {own : List Quad}
    (h : quads[position]? = some own) :
    ∃ notes,
      (Extraction.evaluate first events).1[position]? = some notes ∧
        Note.quads notes = own := by
  rw [← quads_eq, List.getElem?_map] at h
  exact Option.map_eq_some_iff.mp h

/- The start tag that gives its text. -/
def tag : StartTag :=
  (startTagAt first events 1).get (by decide +kernel)

theorem startTagAt_eq :
    startTagAt first events 1 = some tag :=
  (Option.some_get _).symm

theorem tag_fields :
    tag.element.subject = some (.iri ⟨"http://ex/#a"⟩) ∧
      tag.element.scope.environment.predicates tag.attributes =
          [⟨"http://f/x"⟩] ∧
        tag.element.scope.environment.datatype? tag.attributes =
          some Rdf.langString := by
  decide +kernel

end Languages

open Languages in
/- Neither of the two values has the language around it. -/
theorem language_strings_lack_language :
    (Extraction.evaluate first events).1.map Note.quads = quads ∧
      ∃ document,
        Iri.withoutFragment "http://ex/" = .ok document ∧
          (∃ origin ≤ 5,
            NamedAt settings document events origin "datatype"
              Rdf.langString) ∧
          ∃ notes found,
            (Extraction.evaluate first events).1[1]? = some notes ∧
              tag.Got (.iri ⟨"http://ex/#a"⟩) notes found ∧
                ∀ content, (valueWith found content).Untagged := by
  rcases coherent_unless_named start_eq events with
    ⟨document, hDocument, hSections⟩
  refine ⟨quads_eq, document, hDocument, ?_, ?_⟩
  · rcases exists_notes 5 rfl with ⟨notes, hNotes, hQuads⟩
    rcases (hSections 5 notes hNotes).1 _
        (hQuads ▸ List.mem_singleton_self _) captured rfl with
      hCoherent | ⟨_, hNamed⟩
    · exact absurd hCoherent
        (Literal.Untagged.not_coherent ⟨rfl, rfl⟩)
    · exact hNamed
  · rcases exists_notes 1 rfl with ⟨notes, hNotes, _⟩
    rcases tag_fields with ⟨hSubject, hPredicates, hDatatype⟩
    rcases (hSections 1 notes hNotes).2 tag _ startTagAt_eq hSubject
        (by rw [hPredicates]; exact List.cons_ne_nil _ _) with
      ⟨found, hGot, hUntagged⟩
    exact
      ⟨notes, found, hNotes, hGot,
        fun content => (hUntagged content).mpr hDatatype⟩

open Languages in
/- So not every language string has a language. -/
theorem not_literalsCoherent :
    ¬ ∀ (settings : Settings) (base : String) (first : State)
        (events : List Event),
      start settings base = .ok first →
        ∀ notes ∈ (Extraction.evaluate first events).1,
          ∀ q ∈ Note.quads notes, ∀ l,
            q.object = .literal l → l.Coherent := by
  intro hCoherent
  rcases exists_notes 5 rfl with ⟨notes, hNotes, hQuads⟩
  exact
    Literal.Untagged.not_coherent ⟨rfl, rfl⟩
      (hCoherent settings "http://ex/" first events start_eq notes
        (List.mem_of_getElem? hNotes) _
        (hQuads ▸ List.mem_singleton_self _) captured rfl)

end Evaluation
end LinkedMarkup
