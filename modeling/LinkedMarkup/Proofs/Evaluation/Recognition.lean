import LinkedMarkup.Proofs.Evaluation.Environment
import LinkedMarkup.Proofs.Evaluation.Run

/-
  This file proves that attributes which mean nothing are
  ignored. A start tag is read alike without them, and so is a
  document, unless a literal keeps the markup inside it.

  Key definitions include:
    * `Entries.recognisedKeys`
    * `Entries.isRecognised`
    * `Entries.recognised`
    * `Event.recognised`
    * `Evaluation.State.KeepsNoMarkup`

  Main declarations:
    * `Evaluation.openElement_recognised`
    * `Evaluation.process_recognised`
    * `Evaluation.evaluate_recognised`
-/

namespace LinkedMarkup

------------------------------------------------------------
-- Attributes that have a meaning
------------------------------------------------------------

namespace Entries

/- The attributes that a start tag is read for. -/
def recognisedKeys : List String :=
  ["about", "resource", "href", "src", "typeof", "property", "rel",
    "rev", "content", "datetime", "datatype", "inlist", "vocab",
    "prefix", "lang", "xml:lang", "xml:base"]

/- Whether an attribute has a meaning, if only as a declaration. -/
def isRecognised
    (key : String) : Bool :=
  recognisedKeys.contains key || (Prefixes.declaredName? key).isSome

/- The attributes that have a meaning. -/
def recognised
    (attributes : Entries) : Entries :=
  attributes.filter (fun entry => isRecognised entry.1)

variable {key : String}

theorem get?_recognised
    (h : key ∈ recognisedKeys)
    (attributes : Entries) :
    get? attributes.recognised key = get? attributes key := by
  apply get?_filter_of_pos (p := isRecognised)
  unfold isRecognised
  rw [Bool.or_eq_true, List.contains_iff_mem]
  exact .inl h

theorem has_recognised
    (h : key ∈ recognisedKeys)
    (attributes : Entries) :
    has attributes.recognised key = has attributes key :=
  congrArg Option.isSome (get?_recognised h attributes)

/- What declares nothing adds nothing to what is declared. -/
theorem declared_recognised
    (attributes : Entries) :
    Prefixes.declared attributes.recognised =
      Prefixes.declared attributes := by
  have hSingle :
      attributes.recognised.filterMap Environment.single? =
        attributes.filterMap Environment.single? := by
    unfold recognised
    rw [List.filterMap_filter]
    apply List.filterMap_congr
    intro entry _
    by_cases hEntry : isRecognised entry.1 = true
    · rw [if_pos hEntry]
    · have hName : Prefixes.declaredName? entry.1 = none := by
        unfold isRecognised at hEntry
        rw [Bool.or_eq_true, not_or, Option.not_isSome_iff_eq_none]
          at hEntry
        exact hEntry.2
      rw [if_neg hEntry]
      unfold Environment.single?
      rw [hName]
      rfl
  have hMany :
      Environment.many attributes.recognised =
        Environment.many attributes := by
    unfold Environment.many
    rw [get?_recognised (by decide)]
  rw [Environment.declared_eq_merge, Environment.declared_eq_merge]
  unfold Environment.declarations
  rw [hSingle, hMany]

end Entries

/- An event with the attributes that have a meaning. -/
def Event.recognised :
    Event → Event
  | opened name attributes depth =>
      .opened name attributes.recognised depth
  | event => event

------------------------------------------------------------
-- Start tags
------------------------------------------------------------

namespace Evaluation

section StartTag

variable (settings : Settings) (attributes : Entries)

theorem readScope_recognised
    (parent : Scope) :
    readScope settings parent attributes.recognised =
      readScope settings parent attributes := by
  have hSame :
      ∀ key ∈ Entries.recognisedKeys,
        attributes.recognised.get? key = attributes.get? key :=
    fun _ hMem => Entries.get?_recognised hMem attributes
  unfold readScope readBase readVocab readLanguage
  rw [hSame "xml:base" (by decide), hSame "vocab" (by decide),
    hSame "xml:lang" (by decide), hSame "lang" (by decide),
    Entries.declared_recognised]

theorem relationTokens_recognised
    {key : String}
    (h : key ∈ Entries.recognisedKeys) :
    relationTokens settings attributes.recognised key =
      relationTokens settings attributes key := by
  unfold relationTokens
  rw [Entries.get?_recognised h, Entries.has_recognised (by decide)]

theorem explicitContent_recognised :
    explicitContent settings attributes.recognised =
      explicitContent settings attributes := by
  unfold explicitContent
  rw [Entries.get?_recognised (by decide),
    Entries.get?_recognised (by decide)]

theorem readNamed_recognised
    (parent scope : Scope)
    (isRoot : Bool)
    (name : String) :
    readNamed settings parent scope isRoot name attributes.recognised =
      readNamed settings parent scope isRoot name attributes := by
  have hSame :
      ∀ key ∈ Entries.recognisedKeys,
        attributes.recognised.get? key = attributes.get? key :=
    fun _ hMem => Entries.get?_recognised hMem attributes
  unfold readNamed readAbout namedResource namedIri
  rw [hSame "about" (by decide), hSame "resource" (by decide),
    hSame "href" (by decide), hSame "src" (by decide),
    Entries.has_recognised (by decide)]

theorem readProperty_recognised
    (name : String)
    (scope : Scope)
    (named : Named)
    (parts : Roles)
    (list : Nat)
    (inList hasRelations : Bool) :
    readProperty settings name attributes.recognised scope named parts
        list inList hasRelations =
      readProperty settings name attributes scope named parts list
        inList hasRelations := by
  unfold readProperty propertyValue
  rw [Entries.get?_recognised (by decide),
    Entries.get?_recognised (by decide),
    explicitContent_recognised, Entries.has_recognised (by decide)]

/- A start tag is read for the attributes that have a meaning. -/
theorem openElement_recognised
    (parent : Scope)
    (isRoot : Bool)
    (name : String) :
    openElement settings parent isRoot name attributes.recognised =
      openElement settings parent isRoot name attributes := by
  have hHas :
      ∀ key ∈ Entries.recognisedKeys,
        attributes.recognised.has key = attributes.has key :=
    fun _ hMem => Entries.has_recognised hMem attributes
  unfold openElement stateTypes
  rw [readScope_recognised,
    relationTokens_recognised settings attributes (by decide),
    relationTokens_recognised settings attributes (by decide),
    explicitContent_recognised, hHas "datatype" (by decide),
    hHas "property" (by decide), hHas "typeof" (by decide),
    hHas "inlist" (by decide), Entries.get?_recognised (by decide)]
  simp only [readNamed_recognised, readProperty_recognised]

end StartTag

------------------------------------------------------------
-- Documents
------------------------------------------------------------

/- No open element waits for a value that keeps markup. -/
def State.KeepsNoMarkup
    (d : State) : Prop :=
  ∀ e ∈ d.elements, ∀ p, e.pending = some p → p.keepsMarkup = false

theorem captureAll_recognised
    {elements : List Element}
    (h :
      ∀ e ∈ elements, ∀ p, e.pending = some p → p.keepsMarkup = false)
    (event : Event) :
    captureAll event.recognised elements =
      captureAll event elements := by
  unfold captureAll
  apply List.map_congr_left
  intro e hMem
  unfold Element.capture
  cases hPending : e.pending with
  | none => rfl
  | some p =>
      have hKeeps := h e hMem p hPending
      cases event <;>
        simp [Pending.capture, hKeeps, Event.recognised]

/-
  Attributes that have no meaning make no difference to an
  event inside elements that keep no markup.
-/
theorem process_recognised
    {d : State}
    (h : d.KeepsNoMarkup)
    (event : Event) :
    process d event.recognised = process d event := by
  cases event with
  | opened name attributes depth =>
      have hCapture :
          captureAll (.opened name attributes.recognised depth)
              d.elements =
            captureAll (.opened name attributes depth) d.elements :=
        captureAll_recognised h (.opened name attributes depth)
      unfold process readEvent Event.recognised
      dsimp only
      rw [openElement_recognised, hCapture]
  | text data => rfl
  | closed name depth => rfl
  | unknown description => rfl

/-
  Nor do they make any difference to a document in which no
  literal keeps markup.
-/
theorem evaluate_recognised
    {d : State}
    {events : List Event}
    (h :
      ∀ n sections m, Run d (events.take n) sections m →
        m.KeepsNoMarkup) :
    Extraction.evaluate d (events.map Event.recognised) =
      Extraction.evaluate d events := by
  induction events generalizing d with
  | nil => rfl
  | cons event rest ih =>
      have hFirst : d.KeepsNoMarkup := h 0 [] d (.nil d)
      unfold Extraction.evaluate
      rw [List.map_cons]
      dsimp only
      rw [process_recognised hFirst]
      cases hStep : process d event with
      | mk outcome notes =>
          cases outcome with
          | error fault => rfl
          | ok m =>
              have hRest :
                  ∀ n sections final,
                    Run m (rest.take n) sections final →
                      final.KeepsNoMarkup := by
                intro n sections final hRun
                exact h (n + 1) _ final (.cons hStep hRun)
              dsimp only
              rw [ih hRest]

end Evaluation
end LinkedMarkup
