import LinkedMarkup.Proofs.Evaluation.History
import LinkedMarkup.Proofs.Text.Entries
import Mathlib.Data.List.TakeWhile

/-
  This file proves that what is in force inside an element,
  its base, vocabulary, language and names, only depends on
  the attributes of the start tags that are open: it is what
  these declare, from the root to the element, on top of what
  the document starts with.

  Key definitions include:
    * `Environment`
    * `Environment.declarations`
    * `Environment.declare`

  Main declarations:
    * `Environment.extended_declared`
    * `Evaluation.readScope_declares`
    * `Evaluation.environment_of_run`
-/

namespace LinkedMarkup

------------------------------------------------------------
-- Declared environments
------------------------------------------------------------

/- What attributes put in force for an element and its content. -/
structure Environment where
  base : String
  vocab : Option String
  language : Option String
  prefixes : Entries
  terms : Entries
  deriving DecidableEq, Repr

namespace Environment

/- What a document starts with, read against its own address. -/
def initial
    (options : Options)
    (document : String) : Environment where
  base := document
  vocab := none
  language := none
  prefixes := options.prefixes
  terms := options.terms

/- A value without the blanks around it, if anything is left. -/
def nonBlank?
    (value : String) : Option String :=
  if Text.isAllBlank value then none else some (Text.trim value)

/- The name that one attribute declares on its own. -/
def single?
    (entry : String × String) : Option (String × String) :=
  (Prefixes.declaredName? entry.1).bind (fun name =>
    (nonBlank? entry.2).map (fun start =>
      (Text.lower name, start)))

/- The names that the attribute for many names declares. -/
def many
    (attributes : Entries) : List (String × String) :=
  match attributes.get? "prefix" with
  | none => []
  | some value =>
      (Prefixes.pairs (Text.words value)).map
        (fun pair => (Text.lower pair.1, pair.2))

/-
  The names that attributes declare, in lower case: single
  ones first, and only such as can be mapped.
-/
def declarations
    (attributes : Entries) : List (String × String) :=
  (attributes.filterMap single? ++ many attributes).filter
    (fun entry => Prefixes.isMappable entry.1)

/- The base that attributes declare; only XHTML has one. -/
def declaredBase
    (media : MediaType)
    (outer : Environment)
    (attributes : Entries) : Except Fault String :=
  match media, attributes.get? "xml:base" with
  | .xhtml, some reference => Iri.resolve outer.base reference
  | _, _ => .ok outer.base

/-
  The vocabulary that attributes declare, against the base
  that is in force with them. A blank one ends that around.
-/
def declaredVocab
    (outer : Environment)
    (base : String)
    (attributes : Entries) : Except Fault (Option String) :=
  match (attributes.get? "vocab").map nonBlank? with
  | none => .ok outer.vocab
  | some none => .ok none
  | some (some reference) => (Iri.resolve base reference).map some

/-
  The language that attributes declare: that of XML before
  that of HTML. A blank one ends that around.
-/
def declaredLanguage
    (outer : Environment)
    (attributes : Entries) : Option String :=
  match attributes.get? "xml:lang", attributes.get? "lang" with
  | some value, _ => nonBlank? value
  | none, some value => nonBlank? value
  | none, none => outer.language

/- What is in force with some attributes inside an environment. -/
def declare
    (media : MediaType)
    (attributes : Entries)
    (outer : Environment) : Except Fault Environment := do
  let base ← declaredBase media outer attributes
  let vocab ← declaredVocab outer base attributes
  return {
    base := base
    vocab := vocab
    language := declaredLanguage outer attributes
    prefixes := outer.prefixes.merge (declarations attributes)
    terms := outer.terms }

end Environment

/- What a scope has in force beside its nodes and lists. -/
def Scope.environment
    (x : Scope) : Environment where
  base := x.base
  vocab := x.vocab
  language := x.language
  prefixes := x.prefixes
  terms := x.terms

------------------------------------------------------------
-- Blank values
------------------------------------------------------------

namespace Text

theorem trimChars_eq_nil_iff
    (cs : List Char) :
    trimChars cs = [] ↔ cs.all isBlank = true := by
  unfold trimChars trimLeft
  rw [List.reverse_eq_nil_iff, List.dropWhile_eq_nil_iff]
  constructor
  · intro hBlank
    cases hLeft : cs.dropWhile isBlank with
    | nil =>
        rw [List.dropWhile_eq_nil_iff] at hLeft
        exact List.all_eq_true.mpr hLeft
    | cons c rest =>
        have hHead : ¬ isBlank c = true := by
          have hNot :=
            List.dropWhile_get_zero_not isBlank cs (by simp [hLeft])
          simpa [hLeft] using hNot
        exact absurd (hBlank c (by simp [hLeft])) hHead
  · intro hAll c hMem
    rw [List.all_eq_true] at hAll
    exact hAll c
      ((List.dropWhile_sublist isBlank).subset
        (List.mem_reverse.mp hMem))

/- Nothing is left of a text exactly if it is blank. -/
theorem isEmpty_trim
    (s : String) :
    (trim s).isEmpty = isAllBlank s := by
  unfold trim isAllBlank
  rw [Bool.eq_iff_iff, ← trimChars_eq_nil_iff]
  simp

end Text

------------------------------------------------------------
-- Names
------------------------------------------------------------

namespace Environment

/- Names are declared one after the other, if they can be mapped. -/
theorem foldl_declare
    (done : Entries)
    (entries : List (String × String)) :
    entries.foldl
        (fun done entry => Prefixes.declare done entry.1 entry.2)
        done =
      done.merge
        ((entries.map (fun entry =>
            (Text.lower entry.1, entry.2))).filter
          (fun entry => Prefixes.isMappable entry.1)) := by
  induction entries generalizing done with
  | nil => rfl
  | cons entry rest ih =>
      rw [List.foldl_cons, ih, List.map_cons]
      unfold Prefixes.declare
      by_cases hMappable :
          Prefixes.isMappable (Text.lower entry.1) = true
      · simp [hMappable, Entries.merge]
      · simp [hMappable]

theorem foldl_declaredSingly
    (done : Entries)
    (attributes : Entries) :
    attributes.foldl
        (fun done entry =>
          match Prefixes.declaredName? entry.1 with
          | none => done
          | some name =>
              if Text.isAllBlank entry.2 then
                done
              else
                Prefixes.declare done name (Text.trim entry.2))
        done =
      done.merge
        ((attributes.filterMap single?).filter
          (fun entry => Prefixes.isMappable entry.1)) := by
  induction attributes generalizing done with
  | nil => rfl
  | cons entry rest ih =>
      rw [List.foldl_cons, ih]
      cases hName : Prefixes.declaredName? entry.1 with
      | none => simp [single?, hName]
      | some name =>
          by_cases hBlank : Text.isAllBlank entry.2 = true
          · simp [single?, nonBlank?, hName, hBlank]
          · by_cases hMappable :
                Prefixes.isMappable (Text.lower name) = true
            · simp [single?, nonBlank?, hName, hBlank,
                Prefixes.declare, hMappable, Entries.merge]
            · simp [single?, nonBlank?, hName, hBlank,
                Prefixes.declare, hMappable]

/- All declared names are set one after the other. -/
theorem declared_eq_merge
    (attributes : Entries) :
    Prefixes.declared attributes =
      Entries.merge [] (declarations attributes) := by
  have hSingle :
      Prefixes.declaredSingly attributes =
        Entries.merge []
          ((attributes.filterMap single?).filter
            (fun entry => Prefixes.isMappable entry.1)) :=
    foldl_declaredSingly [] attributes
  unfold Prefixes.declared declarations many
  rw [List.filter_append, Entries.merge_append, ← hSingle]
  cases attributes.get? "prefix" with
  | none => rfl
  | some value => exact foldl_declare _ _

/- Names in scope are extended by those that are declared. -/
theorem extended_declared
    (inherited attributes : Entries) :
    Prefixes.extended inherited (Prefixes.declared attributes) =
      inherited.merge (declarations attributes) := by
  unfold Prefixes.extended
  rw [declared_eq_merge, Entries.merge_merge (by simp [Entries.keys])]
  rfl

/- What attributes declare of names and terms never fails. -/
theorem declare_eq_ok
    {media : MediaType}
    {attributes : Entries}
    {outer inner : Environment}
    (h : declare media attributes outer = .ok inner) :
    inner.prefixes = outer.prefixes.merge (declarations attributes) ∧
      inner.terms = outer.terms := by
  unfold declare at h
  cases hBase : declaredBase media outer attributes with
  | error fault =>
      rw [hBase] at h
      cases h
  | ok base =>
      rw [hBase] at h
      cases hVocab : declaredVocab outer base attributes with
      | error fault =>
          simp only [bind, Except.bind, hVocab] at h
          cases h
      | ok vocab =>
          simp only [bind, Except.bind, hVocab] at h
          cases h
          exact ⟨rfl, rfl⟩

/- A name that is mapped stays so further inside. -/
theorem has_of_declare
    {media : MediaType}
    {attributes : Entries}
    {outer inner : Environment}
    (h : declare media attributes outer = .ok inner)
    {name : String}
    (hName : outer.prefixes.has name = true) :
    inner.prefixes.has name = true := by
  rw [(declare_eq_ok h).1]
  exact Entries.has_merge hName _

/- No start tag changes the terms. -/
theorem terms_of_foldrM
    {media : MediaType}
    {path : List Entries}
    {outer inner : Environment}
    (h : path.foldrM (declare media) outer = .ok inner) :
    inner.terms = outer.terms := by
  induction path generalizing inner with
  | nil =>
      cases h
      rfl
  | cons attributes path ih =>
      rw [List.foldrM_cons] at h
      cases hRest : path.foldrM (declare media) outer with
      | error fault =>
          rw [hRest] at h
          cases h
      | ok middle =>
          rw [hRest] at h
          rw [(declare_eq_ok h).2]
          exact ih hRest

end Environment

namespace Evaluation

open Work

------------------------------------------------------------
-- Start tags
------------------------------------------------------------

theorem ofOutcome_yields
    {α : Type}
    (outcome : Except Fault α) :
    (Work.ofOutcome outcome).Yields (fun a => outcome = .ok a) := by
  intro s a t hRun
  cases hRun
  rfl

theorem readBase_eq_declaredBase
    (settings : Settings)
    (parent : Scope)
    (attributes : Entries) :
    readBase settings parent attributes =
      Environment.declaredBase settings.media parent.environment
        attributes := by
  unfold readBase Environment.declaredBase Settings.isHtml
  cases attributes.get? "xml:base" with
  | none => cases settings.media <;> rfl
  | some reference =>
      cases settings.media with
      | html => rfl
      | xhtml => exact if_neg (by decide)

theorem readVocab_yields
    (settings : Settings)
    (parent : Scope)
    (base : String)
    (attributes : Entries) :
    (readVocab settings parent base attributes).Yields
      (fun vocab =>
        Environment.declaredVocab parent.environment base attributes =
          .ok vocab) := by
  unfold readVocab Environment.declaredVocab
  cases attributes.get? "vocab" with
  | none => exact yields_pure rfl
  | some value =>
      dsimp only [Option.map_some, Environment.nonBlank?]
      rw [Text.isEmpty_trim]
      by_cases hBlank : Text.isAllBlank value = true
      · rw [if_pos hBlank, if_pos hBlank]
        exact yields_pure rfl
      · rw [if_neg hBlank, if_neg hBlank]
        refine (ofOutcome_yields _).bind ?_
        intro vocab hVocab
        apply yields_bind
        intro _
        apply yields_pure
        dsimp only
        rw [hVocab]
        rfl

theorem readLanguage_eq_declaredLanguage
    (parent : Scope)
    (attributes : Entries) :
    readLanguage parent attributes =
      Environment.declaredLanguage parent.environment attributes := by
  have hTrim :
      ∀ value : String,
        (some (Text.trim value)).filter (fun l => !l.isEmpty) =
          Environment.nonBlank? value := by
    intro value
    unfold Environment.nonBlank?
    rw [← Text.isEmpty_trim]
    by_cases hEmpty : (Text.trim value).isEmpty = true <;>
      simp [Option.filter, hEmpty]
  unfold readLanguage Environment.declaredLanguage
  cases attributes.get? "xml:lang" with
  | some value => exact hTrim value
  | none =>
      cases attributes.get? "lang" with
      | some value => exact hTrim value
      | none => rfl

/- The attributes of an element declare what its scope says. -/
theorem readScope_declares
    (settings : Settings)
    (parent : Scope)
    (attributes : Entries) :
    (readScope settings parent attributes).Yields
      (fun scope =>
        Environment.declare settings.media attributes
            parent.environment =
          .ok scope.environment) := by
  unfold readScope
  refine (ofOutcome_yields _).bind ?_
  intro base hBase
  refine (readVocab_yields settings parent base attributes).bind ?_
  intro vocab hVocab
  apply yields_pure
  rw [readBase_eq_declaredBase] at hBase
  unfold Environment.declare
  simp only [bind, Except.bind, hBase, hVocab]
  rw [← readLanguage_eq_declaredLanguage,
    Environment.extended_declared]
  rfl

theorem readTag_declares
    (settings : Settings)
    (parent : Scope)
    (isRoot : Bool)
    (name : String)
    (attributes : Entries) :
    (readTag settings parent isRoot name attributes).Yields
      (fun tag =>
        Environment.declare settings.media attributes
            parent.environment =
          .ok tag.scope.environment) := by
  unfold readTag
  refine (readScope_declares settings parent attributes).bind ?_
  intro scope hScope
  apply yields_bind
  intro rel
  apply yields_bind
  intro rev
  apply yields_bind
  intro named
  apply yields_bind
  intro parts
  apply yields_bind
  intro _
  exact yields_pure hScope

/- Whatever an element hands on, it leaves its environment. -/
theorem buildElement_environment
    (settings : Settings)
    (parent : Scope)
    (name : String)
    (attributes : Entries)
    (tag : Reading) :
    (buildElement settings parent name attributes tag).Yields
      (fun e => e.scope.environment = tag.scope.environment) := by
  unfold buildElement enclose
  apply yields_bind
  intro list
  apply yields_bind
  intro incomplete
  apply yields_bind
  intro object
  apply yields_bind
  intro pending
  split
  · exact yields_pure rfl
  · apply yields_bind
    intro _
    exact yields_pure rfl

/- A start tag declares the environment of its element. -/
theorem startTag?_declares
    {d : State}
    {event : Event}
    {x : StartTag}
    (h : startTag? d event = some x) :
    Environment.declare d.settings.media x.attributes
        x.around.environment =
      .ok x.element.scope.environment := by
  rcases reads_of_startTag? h with
    ⟨name, depth, m, t, _, hAround, hRead, hBuild⟩
  rw [hAround, buildElement_environment _ _ _ _ _ _ _ _ hBuild]
  exact readTag_declares _ _ _ _ _ _ _ _ hRead

------------------------------------------------------------
-- Runs
------------------------------------------------------------

theorem settings_of_run
    {first d : State}
    {events : List Event}
    {sections : List (List Note)}
    (h : Run first events sections d) :
    d.settings = first.settings := by
  induction h with
  | nil _ => rfl
  | cons hStep _ ih => exact ih.trans (process_keeps hStep).1

/- Every start tag of a run declares what its element has. -/
theorem startTagAt_declares
    {first d : State}
    {events : List Event}
    {sections : List (List Note)}
    (hRun : Run first events sections d)
    {position : Nat}
    {x : StartTag}
    (h : startTagAt first events position = some x) :
    Environment.declare first.settings.media x.attributes
        x.around.environment =
      .ok x.element.scope.environment := by
  unfold startTagAt at h
  rcases Option.bind_eq_some_iff.mp h with ⟨event, hEvent, hStart⟩
  rcases hRun.step_at hEvent with ⟨_, _, hBefore, _⟩
  rw [← settings_of_run hBefore]
  exact startTag?_declares hStart

/-
  The attributes of open start tags declare, one inside the
  other, what is in force inside the innermost element.
-/
theorem Aligned.environment
    {first d : State}
    {events : List Event}
    {sections : List (List Note)}
    (hRun : Run first events sections d)
    {tags : List Event.OpenTag}
    {elements : List Element}
    (h : Aligned first events tags elements) :
    (tags.map Event.OpenTag.attributes).foldrM
        (Environment.declare first.settings.media)
        first.outer.environment =
      .ok (innermost first.outer elements).environment := by
  induction h with
  | nil => rfl
  | @cons tag tags e rest x _ hStart hAttributes hAround hBare ih =>
      have hDeclares := startTagAt_declares hRun hStart
      have hScope : e.bare.scope = x.element.bare.scope := by rw [hBare]
      rw [hAttributes, hAround] at hDeclares
      rw [List.map_cons, List.foldrM_cons, ih]
      change Environment.declare _ _ _ = .ok e.bare.scope.environment
      rw [hScope]
      exact hDeclares

theorem Aligned.drop
    {first : State}
    {events : List Event}
    {tags : List Event.OpenTag}
    {elements : List Element}
    (h : Aligned first events tags elements)
    (i : Nat) :
    Aligned first events (tags.drop i) (elements.drop i) := by
  induction h generalizing i with
  | nil => simpa using .nil
  | cons hRest hStart hAttributes hAround hBare ih =>
      cases i with
      | zero => exact .cons hRest hStart hAttributes hAround hBare
      | succ i => exact ih i

/- A name that is mapped around an element is mapped inside it. -/
theorem Aligned.has_prefix
    {first d : State}
    {events : List Event}
    {sections : List (List Note)}
    (hRun : Run first events sections d)
    {tags : List Event.OpenTag}
    {e : Element}
    {rest : List Element}
    (h : Aligned first events tags (e :: rest))
    {name : String}
    (hName :
      (innermost first.outer rest).prefixes.has name = true) :
    e.scope.prefixes.has name = true := by
  cases h with
  | @cons _ _ _ _ x _ hStart _ hAround hBare =>
      have hScope : e.bare.scope = x.element.bare.scope := by rw [hBare]
      rw [← hAround] at hName
      change e.bare.scope.prefixes.has name = true
      rw [hScope]
      exact Environment.has_of_declare (startTagAt_declares hRun hStart)
        hName

/-
  What is in force inside any open element is what the start
  tags declare that are open around it, from the root to its
  own, on top of what the document starts with. Terms are
  those of the start, and no mapped name gets lost.
-/
theorem environment_of_run
    {settings : Settings}
    {base : String}
    {first d : State}
    {events : List Event}
    {sections : List (List Note)}
    (hStart : start settings base = .ok first)
    (hRun : Run first events sections d) :
    ∃ document,
      Iri.withoutFragment base = .ok document ∧
        (Event.openTags events).length = d.elements.length ∧
        ∀ i e, d.elements[i]? = some e →
          (((Event.openTags events).drop i).map
              Event.OpenTag.attributes).foldrM
                (Environment.declare settings.media)
                (Environment.initial settings.options document) =
              .ok e.scope.environment ∧
            e.scope.terms = settings.options.terms ∧
            ∀ name,
              (innermost first.outer
                  (d.elements.drop (i + 1))).prefixes.has name =
                  true →
                e.scope.prefixes.has name = true := by
  rcases start_eq_ok hStart with ⟨document, iri, hDocument, _, rfl⟩
  have hAligned := (aligned_of_run rfl hRun).2
  refine ⟨document, hDocument, hAligned.length_eq, ?_⟩
  intro i e hElement
  have hHere := hAligned.drop i
  have hCut : d.elements.drop i = e :: d.elements.drop (i + 1) := by
    rcases List.getElem?_eq_some_iff.mp hElement with ⟨hLt, rfl⟩
    exact List.drop_eq_getElem_cons hLt
  rw [hCut] at hHere
  have hFold := hHere.environment hRun
  refine ⟨hFold, ?_, fun name hName => hHere.has_prefix hRun hName⟩
  exact Environment.terms_of_foldrM hFold

namespace Inherited

def settings : Settings :=
  ⟨.xhtml, ⟨.members, true, [("f", "http://f/")], []⟩⟩

def first : State :=
  State.initial settings "http://ex/" ⟨"http://ex/"⟩

/- Two open elements, and a closed one that declares a name. -/
def events : List Event :=
  [.opened "html"
      [("xml:base", "http://b/c"), ("vocab", "v/"),
        ("xml:lang", "en")] 0,
    .opened "p" [("xmlns:q", "http://q/"), ("vocab", "")] 1,
    .closed "p" 1,
    .opened "div" [("prefix", "R: http://r/"), ("lang", " ")] 1]

theorem start_eq :
    start settings "http://ex/" = .ok first :=
  start_of_document (by decide +kernel) (by decide +kernel) settings

end Inherited

open Inherited in
/- Inside the last element, nothing of the closed one is left. -/
theorem environment_after_sibling :
    (first.through events).elements.map (·.scope.environment) =
        [⟨"http://b/c", some "http://b/v/", none,
            [("f", "http://f/"), ("r", "http://r/")], []⟩,
          ⟨"http://b/c", some "http://b/v/", some "en",
            [("f", "http://f/")], []⟩] ∧
      ∃ document,
        Iri.withoutFragment "http://ex/" = .ok document ∧
          (Event.openTags events).length =
            (first.through events).elements.length ∧
          ∀ i e, (first.through events).elements[i]? = some e →
            (((Event.openTags events).drop i).map
                Event.OpenTag.attributes).foldrM
                  (Environment.declare settings.media)
                  (Environment.initial settings.options
                    document) =
                .ok e.scope.environment ∧
              e.scope.terms = settings.options.terms ∧
              ∀ name,
                (innermost first.outer
                    ((first.through events).elements.drop
                      (i + 1))).prefixes.has name = true →
                  e.scope.prefixes.has name = true := by
  refine ⟨by decide +kernel, ?_⟩
  exact environment_of_run start_eq (run_through (by decide +kernel))

end Evaluation
end LinkedMarkup
