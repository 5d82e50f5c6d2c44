import LinkedMarkup.Proofs.Standards.Steps

/-
  This file proves where the predicates, types and datatypes
  of statements come from: each is named by a token in an
  attribute of a start tag, in what was in force there, also
  if the statement comes much later. Only a few fixed IRIs
  are stated without a token.

  Key definitions include:
    * `Evaluation.environmentAt`
    * `Evaluation.NamedAt`
    * `Evaluation.Sourced`
    * `Evaluation.DatatypeSourced`

  Main declarations:
    * `Evaluation.follows_provenance`
    * `Evaluation.sources_of_section`
    * `Evaluation.statements_come_from_tokens`
-/

namespace LinkedMarkup

/- A literal made without a datatype is plain, or has a language. -/
theorem Literal.datatype_of_make
    {value text : String}
    {language : Option String}
    {datatype : Iri}
    (h : make value none language = .ok (.typed text datatype)) :
    datatype = Xsd.string := by
  unfold make at h
  split at h
  · cases h
  · split at h
    · rename_i literal hTagged
      cases h
      unfold tagged? at hTagged
      dsimp only at hTagged
      split at hTagged <;> cases hTagged
    · cases h
  · rename_i hNone hGiven
    cases hGiven
  · cases h
    rfl

namespace Evaluation

------------------------------------------------------------
-- Names at start tags
------------------------------------------------------------

section Sources

variable (settings : Settings) (document : String)
variable (events : List Event)

/-
  What is in force for the start tag at a position: what the
  start tags declare that are open with it.
-/
def environmentAt
    (position : Nat) : Except Fault Environment :=
  ((Event.openTags (events.take (position + 1))).map
      Event.OpenTag.attributes).foldrM
    (Environment.declare settings.media)
    (Environment.initial settings.options document)

/- The tokens of an attribute: a datatype is always one. -/
def tokensOf
    (key value : String) : List String :=
  if key = "datatype" then [Text.trim value] else Text.words value

/-
  An IRI that a token of an attribute names at the start tag
  at a position, in what is in force there.
-/
inductive NamedAt
    (position : Nat)
    (key : String)
    (iri : Iri) : Prop where
  | mk
      {name : String}
      {attributes : Entries}
      {depth : Nat}
      {value token : String}
      {x : Environment}
      (hEvent :
        events[position]? = some (.opened name attributes depth))
      (hValue : attributes.get? key = some value)
      (hToken : token ∈ tokensOf key value)
      (hForce : environmentAt settings document events position = .ok x)
      (hNames : x.Names token iri) :
      NamedAt position key iri

/- The attributes whose tokens become predicates. -/
def predicateKeys : List String :=
  ["rel", "rev", "property"]

/-
  Where a statement at the event at a position comes from:
  what it says is fixed, the type that a token of its start
  tag names, or a relation or property that one has named by
  then.
-/
inductive Sourced
    (position : Nat)
    (q : Quad) : Prop where
  | usage (h : q.predicate = Vocabulary.usesVocabulary)
  | link (h : q.predicate = Rdf.first ∨ q.predicate = Rdf.rest)
  | typing
      {type : Iri}
      (hPredicate : q.predicate = Rdf.type)
      (hObject : q.object = .iri type)
      (hNamed :
        NamedAt settings document events position "typeof" type)
  | relation
      {origin : Nat}
      {key : String}
      (hOrigin : origin ≤ position)
      (hKey : key ∈ predicateKeys)
      (hNamed :
        NamedAt settings document events origin key q.predicate)

/-
  Where the datatype of a literal comes from: it has none of
  its own, its text is a moment, or a token has named it.
-/
def DatatypeSourced
    (position : Nat)
    (o : Object) : Prop :=
  ∀ value datatype,
    o = .literal (.typed value datatype) →
      datatype = Xsd.string ∨
        Moment.datatype? value = some datatype ∨
          ∃ origin ≤ position,
            NamedAt settings document events origin "datatype" datatype

end Sources

------------------------------------------------------------
-- Histories that grow
------------------------------------------------------------

section Growing

variable {settings : Settings} {document : String}
variable {events more : List Event} {position : Nat} {key : String}
variable {iri : Iri}

theorem NamedAt.lt_length
    (h : NamedAt settings document events position key iri) :
    position < events.length := by
  rcases h with ⟨hEvent, _, _, _, _⟩
  exact (List.getElem?_eq_some_iff.mp hEvent).1

/- Later events do not change what was named. -/
theorem NamedAt.later
    (h : NamedAt settings document events position key iri)
    (hPrefix : events <+: more) :
    NamedAt settings document more position key iri := by
  have hLt := h.lt_length
  rcases hPrefix with ⟨rest, rfl⟩
  rcases h with ⟨hEvent, hValue, hToken, hForce, hNames⟩
  refine .mk
    ((List.getElem?_append_left hLt).trans hEvent) hValue hToken ?_
    hNames
  · unfold environmentAt at hForce ⊢
    rw [List.take_append_of_le_length hLt]
    exact hForce

theorem Sourced.later
    {q : Quad}
    (h : Sourced settings document events position q)
    (hPrefix : events <+: more) :
    Sourced settings document more position q := by
  cases h with
  | usage h => exact .usage h
  | link h => exact .link h
  | typing hPredicate hObject hNamed =>
      exact .typing hPredicate hObject (hNamed.later hPrefix)
  | relation hOrigin hKey hNamed =>
      exact .relation hOrigin hKey (hNamed.later hPrefix)

theorem DatatypeSourced.later
    {o : Object}
    (h : DatatypeSourced settings document events position o)
    (hPrefix : events <+: more) :
    DatatypeSourced settings document more position o := by
  intro value datatype hEq
  rcases h value datatype hEq with
    hPlain | hMoment | ⟨origin, hOrigin, hNamed⟩
  · exact .inl hPlain
  · exact .inr (.inl hMoment)
  · exact .inr (.inr ⟨origin, hOrigin, hNamed.later hPrefix⟩)

end Growing

------------------------------------------------------------
-- The standard of provenance
------------------------------------------------------------

/-
  What events have named so far. Types are stated at once, so
  only those of the last start tag count.
-/
def provenance
    (settings : Settings)
    (document : String)
    (events : List Event) : Standard where
  subject _ := True
  predicate p :=
    ∃ origin, ∃ key ∈ predicateKeys,
      NamedAt settings document events origin key p
  type c :=
    NamedAt settings document events (events.length - 1) "typeof" c
  datatype d :=
    ∃ origin, NamedAt settings document events origin "datatype" d
  object :=
    DatatypeSourced settings document events (events.length - 1)
  quad q :=
    Sourced settings document events (events.length - 1) q ∧
      DatatypeSourced settings document events (events.length - 1)
        q.object

section Provenance

variable {settings : Settings} {document : String}

/- Nodes have no datatype. -/
theorem datatypeSourced_toObject
    (events : List Event)
    (position : Nat)
    (s : Subject) :
    DatatypeSourced settings document events position s.toObject := by
  intro value datatype hEq
  cases s <;> cases hEq

theorem lawful_provenance
    (events : List Event) :
    (provenance settings document events).Lawful where
  iri _ _ := trivial
  node _ := trivial
  toObject s _ := datatypeSourced_toObject events _ s
  plain value language l hMake := by
    rintro text datatype ⟨⟩
    exact .inl (Literal.datatype_of_make hMake)
  typed value d hDatatype := by
    rintro text datatype ⟨⟩
    rcases hDatatype with ⟨origin, hNamed⟩
    have hLt := hNamed.lt_length
    exact .inr (.inr ⟨origin, by omega, hNamed⟩)
  moment value d hMoment := by
    rintro text datatype ⟨⟩
    exact .inr (.inl hMoment)
  nil := datatypeSourced_toObject events _ (.iri Rdf.nil)
  relation s p o _ hPredicate hObject := by
    rcases hPredicate with ⟨origin, key, hKey, hNamed⟩
    have hLt := hNamed.lt_length
    exact ⟨.relation (by omega) hKey hNamed, hObject⟩
  typing s c _ hType :=
    ⟨.typing rfl rfl hType, datatypeSourced_toObject events _ (.iri c)⟩
  usage s o _ hObject := ⟨.usage rfl, hObject⟩
  first s o _ hObject := ⟨.link (.inl rfl), hObject⟩
  rest s o _ hObject := ⟨.link (.inr rfl), hObject⟩

theorem within_provenance
    (events : List Event)
    (event : Event) :
    (provenance settings document events).Within
      (provenance settings document (events ++ [event])) where
  subject _ _ := trivial
  predicate p := by
    rintro ⟨origin, key, hKey, hNamed⟩
    exact ⟨origin, key, hKey, hNamed.later ⟨[event], rfl⟩⟩
  datatype d := by
    rintro ⟨origin, hNamed⟩
    exact ⟨origin, hNamed.later ⟨[event], rfl⟩⟩
  object o h := by
    intro value datatype hEq
    rcases h value datatype hEq with
      hPlain | hMoment | ⟨origin, _, hNamed⟩
    · exact .inl hPlain
    · exact .inr (.inl hMoment)
    · have hLt := hNamed.lt_length
      refine .inr (.inr
        ⟨origin, ?_, hNamed.later ⟨[event], rfl⟩⟩)
      rw [List.length_append]
      exact Nat.le_sub_of_add_le (Nat.add_le_add_right (by omega) 1)

/- What a start tag declares is in force at its position. -/
theorem environmentAt_length
    {base : String}
    {first d : State}
    (hStart : start settings base = .ok first)
    (hDocument : Iri.withoutFragment base = .ok document)
    {events : List Event}
    {sections : List (List Note)}
    (hRun : Run first events sections d)
    {attributes : Entries}
    {x : Environment}
    (hDeclares :
      Environment.declare d.settings.media attributes
          d.scope.environment =
        .ok x)
    (name : String)
    (depth : Nat) :
    environmentAt settings document
        (events ++ [.opened name attributes depth]) events.length =
      .ok x := by
  rcases start_eq_ok hStart with ⟨other, iri, hOther, _, rfl⟩
  rw [hDocument] at hOther
  cases hOther
  have hAligned := aligned_of_run rfl hRun
  have hAround :
      ((Event.openTags events).map Event.OpenTag.attributes).foldrM
          (Environment.declare settings.media)
          (Environment.initial settings.options document) =
        .ok d.scope.environment := by
    rw [scope_eq_innermost, hAligned.1]
    exact hAligned.2.environment hRun
  rw [settings_of_run hRun] at hDeclares
  unfold environmentAt
  rw [List.take_of_length_le (by simp), Event.openTags_concat]
  change
    (attributes :: (Event.openTags events).map
        Event.OpenTag.attributes).foldrM
      (Environment.declare settings.media)
      (Environment.initial settings.options document) = _
  rw [List.foldrM_cons, hAround]
  exact hDeclares

/- Provenance follows an evaluation from its start. -/
theorem follows_provenance
    {base : String}
    {first : State}
    (hStart : start settings base = .ok first)
    (hDocument : Iri.withoutFragment base = .ok document) :
    Standard.Follows first (provenance settings document) where
  lawful := lawful_provenance
  grows := within_provenance
  begins := Standard.inState_of_start (lawful_provenance []) hStart
  admits events sections d name attributes depth x hRun hDeclares := by
    have hForce :=
      environmentAt_length hStart hDocument hRun hDeclares name depth
    have hLast :
        (events ++ [Event.opened name attributes depth]).length - 1 =
          events.length := by
      simp
    have hNamed :
        ∀ key value token i,
          attributes.get? key = some value →
            token ∈ tokensOf key value →
              x.named? token = some i →
                NamedAt settings document
                  (events ++ [.opened name attributes depth])
                  events.length key i := by
      intro key value token i hValue hToken hNames
      exact .mk List.getElem?_concat_length hValue hToken hForce
        (Environment.names_of_named? hNames).1
    have hWords :
        ∀ key value, key ≠ "datatype" →
          tokensOf key value = Text.words value := by
      intro key value hKey
      unfold tokensOf
      rw [if_neg hKey]
    refine ⟨?_, ?_, ?_⟩
    · intro key hKey value hValue token hToken i hNames
      refine ⟨events.length, key, hKey,
        hNamed key value token i hValue ?_ hNames⟩
      rw [hWords]
      · exact hToken
      · rintro rfl
        exact absurd hKey (by decide)
    · intro value hValue token hToken i hNames
      change NamedAt settings document _ _ "typeof" i
      rw [hLast]
      refine hNamed "typeof" value token i hValue ?_ hNames
      rw [hWords]
      · exact hToken
      · decide
    · intro value hValue i hNames
      exact ⟨events.length,
        hNamed "datatype" value _ i hValue List.mem_cons_self hNames⟩

end Provenance

------------------------------------------------------------
-- Runs
------------------------------------------------------------

/- What is stated at an event has its sources up to there. -/
theorem sources_of_section
    {settings : Settings}
    {base document : String}
    {first : State}
    (hStart : start settings base = .ok first)
    (hDocument : Iri.withoutFragment base = .ok document)
    {events : List Event}
    {position : Nat}
    {notes : List Note}
    (hSection :
      (Extraction.evaluate first events).1[position]? = some notes)
    {q : Quad}
    (hMem : q ∈ Note.quads notes) :
    Sourced settings document events position q ∧
      DatatypeSourced settings document events position q.object := by
  have hLt : position < events.length := by
    rcases Standard.exists_run_of_section hSection with
      ⟨event, _, _, hEvent, _, _⟩
    exact (List.getElem?_eq_some_iff.mp hEvent).1
  have hLast : (events.take (position + 1)).length - 1 = position := by
    rw [List.length_take]
    omega
  have hQuad :=
    (follows_provenance hStart hDocument).quads hSection q hMem
  change
    Sourced settings document _ _ q ∧
      DatatypeSourced settings document _ _ q.object at hQuad
  rw [hLast] at hQuad
  have hPrefix := List.take_prefix (position + 1) events
  exact ⟨hQuad.1.later hPrefix, hQuad.2.later hPrefix⟩

/-
  Whatever events come, what each of them states has its
  predicate, a type and a datatype from tokens of start tags
  up to there, apart from what is fixed. Tokens that are not
  declared name nothing, and reading one has no effect but to
  number a blank node.
-/
theorem statements_come_from_tokens
    {settings : Settings}
    {base : String}
    {first : State}
    (hStart : start settings base = .ok first)
    (events : List Event) :
    ∃ document,
      Iri.withoutFragment base = .ok document ∧
        (∀ position notes,
          (Extraction.evaluate first events).1[position]? =
              some notes →
            ∀ q ∈ Note.quads notes,
              Sourced settings document events position q ∧
                DatatypeSourced settings document events position
                  q.object) ∧
        ∀ scope token,
          scope.environment.Undeclared token →
            (∀ i, ¬ scope.environment.Names token i) ∧
              ∀ s, ∃ supply,
                Resolution.term scope token s =
                  (.ok none, { s with supply := supply }) := by
  rcases start_eq_ok hStart with ⟨document, _, hDocument, _, _⟩
  refine ⟨document, hDocument, ?_, ?_⟩
  · intro position notes hSection q hMem
    exact sources_of_section hStart hDocument hSection hMem
  · intro scope token hUndeclared
    exact ⟨hUndeclared.not_names,
      Resolution.term_of_undeclared hUndeclared⟩

namespace Tokens

def settings : Settings :=
  ⟨.xhtml, ⟨.members, true, [], []⟩⟩

def first : State :=
  State.initial settings "http://ex/" ⟨"http://ex/"⟩

/-
  A relation that waits for a list, and a value that waits
  for its content, beside tokens that are not declared.
-/
def events : List Event :=
  [.opened "div"
      [("prefix", "p: http://p/"), ("rel", "p:r q:r"),
        ("inlist", "")] 0,
    .opened "b"
      [("about", "#s"), ("typeof", "q:C p:C"),
        ("property", "q:v p:v"), ("datatype", "p:D")] 1,
    .text "x",
    .closed "b" 1,
    .closed "div" 0]

theorem start_eq :
    start settings "http://ex/" = .ok first :=
  start_of_document (by decide +kernel) (by decide +kernel) settings

end Tokens

open Tokens in
/- Nothing that is stated late has a name that is not declared. -/
theorem sources_of_late_statements :
    (Extraction.evaluate first events).1.map Note.quads =
        [[],
          [.triple (.iri ⟨"http://ex/#s"⟩) Rdf.type
            (.iri ⟨"http://p/C"⟩)],
          [],
          [.triple (.iri ⟨"http://ex/#s"⟩) ⟨"http://p/v"⟩
            (.literal (.typed "x" ⟨"http://p/D"⟩))],
          [.triple (.iri ⟨"http://ex/"⟩) ⟨"http://p/r"⟩
            (.iri ⟨"http://ex/#s"⟩)]] ∧
      ∃ document,
        Iri.withoutFragment "http://ex/" = .ok document ∧
          (∀ position notes,
            (Extraction.evaluate first events).1[position]? =
                some notes →
              ∀ q ∈ Note.quads notes,
                Sourced settings document events position q ∧
                  DatatypeSourced settings document events position
                    q.object) ∧
          ∀ scope token,
            scope.environment.Undeclared token →
              (∀ i, ¬ scope.environment.Names token i) ∧
                ∀ s, ∃ supply,
                  Resolution.term scope token s =
                    (.ok none, { s with supply := supply }) := by
  refine ⟨by decide +kernel, ?_⟩
  exact statements_come_from_tokens start_eq events

end Evaluation
end LinkedMarkup
