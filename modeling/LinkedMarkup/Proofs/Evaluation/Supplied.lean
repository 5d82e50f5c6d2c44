import LinkedMarkup.Proofs.Evaluation.Content

/-
  This file proves how a start tag with the value of its
  property in an attribute compares with the same tag without
  that attribute, where no node can be the value. Both have
  the same parts, and one completes at once what the other
  leaves waiting for content.

  Key definitions include:
    * `Entries.Adds`
    * `Entries.Untargeted`
    * `Evaluation.Supplied`
    * `Evaluation.completeNow`

  Main declarations:
    * `Evaluation.readTag_untargeted`
    * `Evaluation.readProperty_adds`
    * `Evaluation.openElement_settles`
    * `Evaluation.openElement_adds`
-/

namespace LinkedMarkup

------------------------------------------------------------
-- Attributes with one value more
------------------------------------------------------------

namespace Entries

/- Attributes that have one value more than others, at any place. -/
structure Adds
    (key value : String)
    (attributes more : Entries) : Prop where
  given : more.get? key = some value
  others : more.filter (fun entry => entry.1 ≠ key) = attributes

/- The attributes that give a value as a text. -/
def textKeys : List String :=
  ["content", "datetime"]

/- The attributes that give a node that may be a value. -/
def nodeKeys : List String :=
  ["resource", "href", "src", "typeof"]

/- Attributes of a property whose value is no node. -/
structure Untargeted
    (attributes : Entries) : Prop where
  property : attributes.has "property" = true
  silent : ∀ key ∈ nodeKeys, attributes.has key = false

variable {key value other : String} {attributes more : Entries}

theorem get?_eq_none_of_has
    (h : attributes.has key = false) :
    attributes.get? key = none := by
  unfold has at h
  rwa [Option.isSome_eq_false_iff, Option.isNone_iff_eq_none] at h

variable (hAdds : Adds key value attributes more)
include hAdds

theorem Adds.get?_eq
    (h : other ≠ key) :
    more.get? other = attributes.get? other := by
  rw [← hAdds.others]
  exact
    (get?_filter_of_pos (p := fun k => decide (k ≠ key))
      (decide_eq_true h) more).symm

theorem Adds.has_eq
    (h : other ≠ key) :
    more.has other = attributes.has other :=
  congrArg Option.isSome (hAdds.get?_eq h)

variable (hKey : key ∈ textKeys)
include hKey

theorem Adds.get?_eq_of_not_mem
    (h : other ∉ textKeys) :
    more.get? other = attributes.get? other :=
  hAdds.get?_eq (fun hEq => h (hEq ▸ hKey))

theorem Adds.has_eq_of_not_mem
    (h : other ∉ textKeys) :
    more.has other = attributes.has other :=
  hAdds.has_eq (fun hEq => h (hEq ▸ hKey))

/- A text declares no name. -/
theorem Adds.declared_eq :
    Prefixes.declared more = Prefixes.declared attributes := by
  have hSilent :
      ∀ entry : String × String, entry.1 = key →
        Environment.single? entry = none := by
    intro entry hEq
    have hName :
        ∀ name ∈ textKeys, Prefixes.declaredName? name = none := by
      decide
    unfold Environment.single?
    rw [hName _ (hEq ▸ hKey)]
    rfl
  have hSingle :
      more.filterMap Environment.single? =
        attributes.filterMap Environment.single? := by
    rw [← hAdds.others, List.filterMap_filter]
    apply List.filterMap_congr
    intro entry _
    by_cases hEq : entry.1 = key
    · simp [hEq, hSilent entry hEq]
    · simp [hEq]
  have hMany :
      Environment.many more = Environment.many attributes := by
    unfold Environment.many
    rw [hAdds.get?_eq_of_not_mem hKey (by decide)]
  rw [Environment.declared_eq_merge, Environment.declared_eq_merge]
  unfold Environment.declarations
  rw [hSingle, hMany]

theorem Adds.untargeted
    (h : attributes.Untargeted) :
    more.Untargeted where
  property := by
    rw [hAdds.has_eq_of_not_mem hKey (by decide)]
    exact h.property
  silent other hMem := by
    rw [hAdds.has_eq_of_not_mem hKey (by revert other; decide)]
    exact h.silent other hMem

end Entries

namespace Evaluation

open Work

------------------------------------------------------------
-- Parts of start tags
------------------------------------------------------------

/- Without a node, a property belongs to what is named or around. -/
theorem roles_untargeted
    (parent : Scope)
    (about : Option Subject)
    (hasRelations isBare : Bool) :
    roles parent ⟨about, none, none, none⟩ hasRelations true false
        isBare =
      pure ⟨about.or parent.object, none, none, false⟩ := by
  unfold roles
  cases hasRelations with
  | true => rfl
  | false =>
      cases isBare with
      | true => rfl
      | false =>
          unfold plainRoles
          cases about with
          | some s => rfl
          | none => cases hObject : parent.object <;> rfl

section Untargeted

variable {attributes : Entries}

theorem readNamed_untargeted
    (h : attributes.Untargeted)
    (settings : Settings)
    (parent scope : Scope)
    (isRoot : Bool)
    (name : String) :
    readNamed settings parent scope isRoot name attributes =
      (readAbout settings parent scope isRoot name attributes >>=
        fun about => pure ⟨about, none, none, none⟩) := by
  have hNone :
      ∀ key ∈ Entries.nodeKeys, attributes.get? key = none :=
    fun key hMem => Entries.get?_eq_none_of_has (h.silent key hMem)
  unfold readNamed namedResource namedIri
  rw [hNone "resource" (by decide), hNone "href" (by decide),
    hNone "src" (by decide)]
  simp only [pure_bind]

/-
  The parts of a start tag whose property has no node for a
  value: nothing is typed, and nothing is passed on unread.
-/
theorem readTag_untargeted
    (h : attributes.Untargeted)
    (settings : Settings)
    (parent : Scope)
    (isRoot : Bool)
    (name : String) :
    readTag settings parent isRoot name attributes = (do
      let scope ← readScope settings parent attributes
      let relTokens := relationTokens settings attributes "rel"
      let revTokens := relationTokens settings attributes "rev"
      let rel ← relationTerms scope relTokens
      let rev ← relationTerms scope revTokens
      let about ←
        readAbout settings parent scope isRoot name attributes
      return ⟨scope, rel, rev, ⟨about, none, none, none⟩,
        ⟨about.or parent.object, none, none, false⟩,
        relTokens.isSome || revTokens.isSome⟩) := by
  unfold readTag
  simp only [readNamed_untargeted h, h.property,
    h.silent "typeof" (by decide), bind_assoc, pure_bind,
    roles_untargeted]
  rfl

/- What is known of the parts of such a start tag. -/
structure Plain
    (settings : Settings)
    (parent : Scope)
    (attributes : Entries)
    (tag : Reading) : Prop where
  scope : Keeps parent tag.scope
  target : tag.named.target = none
  skips : tag.parts.skips = false
  environment :
    Environment.declare settings.media attributes
        parent.environment =
      .ok tag.scope.environment

theorem readTag_plain
    (h : attributes.Untargeted)
    (settings : Settings)
    (parent : Scope)
    (isRoot : Bool)
    (name : String) :
    (readTag settings parent isRoot name attributes).Yields
      (Plain settings parent attributes) := by
  have hParts :
      (readTag settings parent isRoot name attributes).Yields
        (fun tag =>
          tag.named.target = none ∧ tag.parts.skips = false) := by
    rw [readTag_untargeted h]
    refine yields_bind (fun scope => ?_)
    refine yields_bind (fun rel => ?_)
    refine yields_bind (fun rev => ?_)
    refine yields_bind (fun about => ?_)
    exact yields_pure ⟨rfl, rfl⟩
  intro s tag t hRun
  exact ⟨(readTag_yields _ _ _ _ _ s tag t hRun).1,
    (hParts s tag t hRun).1, (hParts s tag t hRun).2,
    readTag_declares _ _ _ _ _ s tag t hRun⟩

end Untargeted

section Added

variable {settings : Settings} {name key text : String}
variable {attributes more : Entries}

theorem readScope_adds
    (hAdds : Entries.Adds key text attributes more)
    (hKey : key ∈ Entries.textKeys)
    (parent : Scope) :
    readScope settings parent more =
      readScope settings parent attributes := by
  have hSame :
      ∀ other, other ∉ Entries.textKeys →
        more.get? other = attributes.get? other :=
    fun _ => hAdds.get?_eq_of_not_mem hKey
  unfold readScope readBase readVocab readLanguage
  rw [hSame "xml:base" (by decide), hSame "vocab" (by decide),
    hSame "xml:lang" (by decide), hSame "lang" (by decide),
    hAdds.declared_eq hKey]

/- A text makes no difference to the parts of a start tag. -/
theorem readTag_adds
    (hAdds : Entries.Adds key text attributes more)
    (hKey : key ∈ Entries.textKeys)
    (h : attributes.Untargeted)
    (parent : Scope)
    (isRoot : Bool) :
    readTag settings parent isRoot name more =
      readTag settings parent isRoot name attributes := by
  have hSame :
      ∀ other, other ∉ Entries.textKeys →
        more.get? other = attributes.get? other :=
    fun _ => hAdds.get?_eq_of_not_mem hKey
  have hHas :
      ∀ other, other ∉ Entries.textKeys →
        more.has other = attributes.has other :=
    fun _ => hAdds.has_eq_of_not_mem hKey
  rw [readTag_untargeted (hAdds.untargeted hKey h),
    readTag_untargeted h, readScope_adds hAdds hKey]
  unfold relationTokens readAbout namedResource
  rw [hSame "rel" (by decide), hSame "rev" (by decide),
    hSame "about" (by decide), hHas "property" (by decide),
    hHas "typeof" (by decide)]

------------------------------------------------------------
-- Values that are given
------------------------------------------------------------

/-
  An attribute that gives an element the text that its content
  would: `datetime` on what HTML reads moments from, `content`
  on anything else.
-/
inductive Supplies
    (settings : Settings)
    (name : String) : String → Prop where
  | content
      (h : ¬ (settings.isHtml = true ∧ name = "time")) :
      Supplies settings name "content"
  | datetime
      (hHtml : settings.isHtml = true)
      (hName : name = "time") :
      Supplies settings name "datetime"

theorem Supplies.mem
    (h : Supplies settings name key) :
    key ∈ Entries.textKeys := by
  cases h <;> decide

/-
  Attributes that leave the value of their property to the
  content of an element, and such that give it as a text.
-/
structure Supplied
    (settings : Settings)
    (name key text : String)
    (attributes more : Entries) : Prop where
  untargeted : attributes.Untargeted
  silent : ∀ key ∈ Entries.textKeys, attributes.has key = false
  supplies : Supplies settings name key
  adds : Entries.Adds key text attributes more

/- Such a text is read as a moment exactly if content would be. -/
theorem explicitContent_adds
    (h : Supplied settings name key text attributes more) :
    explicitContent settings more =
      (some text, settings.isHtml && name == "time") := by
  unfold explicitContent
  cases h.supplies with
  | content hNot =>
      have hFalse : (settings.isHtml && name == "time") = false := by
        simpa using hNot
      rw [h.adds.given, hFalse]
  | datetime hHtml hName =>
      rw [h.adds.get?_eq (by decide),
        Entries.get?_eq_none_of_has (h.silent "content" (by decide)),
        h.adds.given, hHtml, hName]
      rfl

theorem explicitContent_silent
    (hSilent : ∀ key ∈ Entries.textKeys, attributes.has key = false)
    (settings : Settings) :
    explicitContent settings attributes = (none, false) := by
  unfold explicitContent
  rw [Entries.get?_eq_none_of_has (hSilent "content" (by decide)),
    Entries.get?_eq_none_of_has (hSilent "datetime" (by decide))]
  simp

/- Attributes name no datatype that keeps markup. -/
def KeepsNoMarkup
    (x : Environment)
    (attributes : Entries) : Prop :=
  ∀ d, x.datatype? attributes = some d →
    markupDatatypes.contains d = false

/- A value that is given is what would be read from content. -/
theorem propertyValue_adds
    (h : Supplied settings name key text attributes more)
    {scope : Scope}
    (hMarkup : KeepsNoMarkup scope.environment attributes)
    {named : Named}
    (hTarget : named.target = none)
    {pending : Pending}
    (hDatatype : pending.datatype = none)
    (hLanguage : pending.language = scope.language)
    (hInfers : pending.infersMoment = false)
    (hText : pending.text = "")
    (typed : Option Subject)
    (hasRelations : Bool) :
    propertyValue settings name more scope named typed hasRelations
        pending =
      (propertyValue settings name attributes scope named typed
        hasRelations pending >>= fun found =>
          match found with
          | .error waiting => do
              let l ← capturedLiteral (waiting.extended text)
              return .ok (.literal l)
          | .ok object => return .ok object) := by
  unfold propertyValue
  rw [h.adds.get?_eq_of_not_mem h.supplies.mem (by decide),
    explicitContent_adds h, explicitContent_silent h.silent,
    h.untargeted.silent "typeof" (by decide), hTarget, bind_assoc]
  refine (readDatatype_yields scope attributes).bind_congr ?_
  rintro _ rfl
  cases hGiven : scope.environment.datatype? attributes with
  | some d =>
      dsimp only
      rw [hMarkup d hGiven]
      simp [capturedLiteral, Pending.extended, hText]
  | none =>
      dsimp only
      split
      · simp [capturedLiteral, Pending.extended, contentLiteral,
          hDatatype, hLanguage, hInfers, hText]
      · simp [capturedLiteral, Pending.extended, hDatatype, hLanguage,
          hText]

------------------------------------------------------------
-- Elements that are opened
------------------------------------------------------------

/- Complete a value with a text, so that it no longer waits. -/
def completeWith
    (text : String)
    (pending : Option Pending) : Work (Option Pending) :=
  match pending with
  | none => return none
  | some p => do
      completePending (p.extended text)
      return none

/- Complete the value of an element with a text at once. -/
def completeNow
    (text : String)
    (e : Element) : Work Element := do
  let pending ← completeWith text e.pending
  return { e with pending := pending }

theorem readProperty_adds
    (h : Supplied settings name key text attributes more)
    {scope : Scope}
    (hMarkup : KeepsNoMarkup scope.environment attributes)
    {named : Named}
    (hTarget : named.target = none)
    (parts : Roles)
    (list : Nat)
    (inList hasRelations : Bool) :
    readProperty settings name more scope named parts list inList
        hasRelations =
      (readProperty settings name attributes scope named parts list
        inList hasRelations >>= completeWith text) := by
  unfold readProperty
  rw [h.adds.get?_eq_of_not_mem h.supplies.mem (by decide)]
  split
  · rename_i value subject _ _
    rw [bind_assoc]
    congr 1
    funext predicates
    by_cases hEmpty : predicates.isEmpty = true
    · rw [if_pos hEmpty, if_pos hEmpty]
      rfl
    · rw [if_neg hEmpty, if_neg hEmpty]
      dsimp only
      rw [propertyValue_adds h hMarkup hTarget,
        bind_assoc, bind_assoc]
      · refine
          (propertyValue_waits settings name attributes scope named
            parts.typed hasRelations rfl rfl).bind_congr ?_
        intro found hFound
        cases found with
        | ok object => simp [completeWith]
        | error waiting =>
            rcases hFound waiting rfl with ⟨infers, rfl⟩
            simp [completeWith, completePending, Pending.extended]
      all_goals rfl
  · rfl

theorem enclose_plain
    (parent scope : Scope)
    (name : String)
    {parts : Roles}
    (hSkips : parts.skips = false)
    (object : Option Subject)
    (list : Nat)
    (incomplete : List Incomplete)
    (pending : Option Pending) :
    enclose parent.unbound scope name parts object list incomplete
        pending =
      pure ⟨name,
        innerScope parent scope parts object list incomplete,
        parts.subject, list, pending⟩ := by
  unfold enclose
  rw [hSkips, completeRelations_unbound]
  rfl

theorem buildElement_adds
    (h : Supplied settings name key text attributes more)
    {tag : Reading}
    (hMarkup : KeepsNoMarkup tag.scope.environment attributes)
    (hTarget : tag.named.target = none)
    (hSkips : tag.parts.skips = false)
    (parent : Scope) :
    buildElement settings parent.unbound name more tag =
      (buildElement settings parent.unbound name attributes tag >>=
        completeNow text) := by
  unfold buildElement
  rw [h.adds.has_eq_of_not_mem h.supplies.mem (by decide)]
  simp only [readProperty_adds h hMarkup hTarget,
    enclose_plain _ _ _ hSkips, bind_assoc, pure_bind, completeNow]

theorem readTag_unbound
    (settings : Settings)
    (parent : Scope)
    (isRoot : Bool)
    (name : String)
    (attributes : Entries) :
    readTag settings parent.unbound isRoot name attributes =
      (readTag settings parent isRoot name attributes >>= fun tag =>
        pure (tag.rehung parent.list [])) :=
  readTag_rehung parent.list [] settings parent isRoot name attributes

/-
  A start tag whose property has no node for a value is read
  as if nothing waited around it, and then completes what
  waits.
-/
theorem openElement_settles
    (h : attributes.Untargeted)
    (settings : Settings)
    (parent : Scope)
    (isRoot : Bool)
    (name : String) :
    openElement settings parent isRoot name attributes =
      (openElement settings parent.unbound isRoot name attributes >>=
        settle parent false) := by
  rw [openElement_eq, openElement_eq, readTag_unbound]
  simp only [bind_assoc, pure_bind]
  refine (readTag_plain h settings parent isRoot name).bind_congr ?_
  intro tag hPlain
  rw [buildElement_unbound hPlain.scope, hPlain.skips]

/-
  A start tag that gives its property a text is read as the
  one that does not, and completes the value with that text
  before what waits around it.
-/
theorem openElement_adds
    (h : Supplied settings name key text attributes more)
    {parent : Scope}
    (hMarkup :
      ∀ x,
        Environment.declare settings.media attributes
            parent.environment =
          .ok x →
        KeepsNoMarkup x attributes)
    (isRoot : Bool) :
    openElement settings parent isRoot name more =
      (openElement settings parent.unbound isRoot name attributes >>=
        completeNow text >>= settle parent false) := by
  rw [openElement_eq, openElement_eq, readTag_unbound,
    readTag_adds h.adds h.supplies.mem h.untargeted]
  simp only [bind_assoc, pure_bind]
  refine
    (readTag_plain h.untargeted settings parent isRoot name).bind_congr
      ?_
  intro tag hPlain
  rw [buildElement_unbound hPlain.scope, hPlain.skips,
    buildElement_adds h, bind_assoc]
  · exact hMarkup _ hPlain.environment
  · exact hPlain.target
  · exact hPlain.skips

/- A value of no datatype that keeps markup captures text. -/
theorem openElement_keepsNoMarkup
    (parent : Scope)
    (hMarkup :
      ∀ x,
        Environment.declare settings.media attributes
            parent.environment =
          .ok x →
        KeepsNoMarkup x attributes)
    (isRoot : Bool)
    (name : String) :
    (openElement settings parent isRoot name attributes).Yields
      (fun e => ∀ p, e.pending = some p → p.keepsMarkup = false) := by
  rw [openElement_eq]
  refine Yields.bind (readTag_declares _ _ _ _ _) ?_
  intro tag hDeclares s e t hRun p hPending
  have hAsks := buildElement_asks _ _ _ _ _ s e t hRun p hPending
  rw [hAsks.keepsMarkup, hAsks.datatype]
  cases hDatatype : tag.scope.environment.datatype? attributes with
  | none => rfl
  | some d => exact hMarkup _ hDeclares d hDatatype

end Added

end Evaluation
end LinkedMarkup
