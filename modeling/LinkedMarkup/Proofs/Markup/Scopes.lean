import LinkedMarkup.Markup.Walk
import LinkedMarkup.Proofs.Evaluation.Naming
import LinkedMarkup.Proofs.Evaluation.Wrapping
import Mathlib.Data.List.Nodup

/-
  This file proves what one tag in namespaces is reported with.
  Inside tags that name their prefixes and attributes well,
  what is new about the prefixes comes first, and then every
  attribute, with a prefix that is bound to its namespace. All
  reported names differ.

  Key definitions include:
    * `Tag.bound?`
    * `Tag.IsWellNamed`
    * `Tag.AreWellNamed`
    * `Tag.Denotes`
    * `Tag.newBindings`

  Main declarations:
    * `Tag.get?_scopeInside`
    * `Tag.Denotes.inj`
    * `Tag.exists_reported`
-/

namespace LinkedMarkup

------------------------------------------------------------
-- Prefixes in scope
------------------------------------------------------------

namespace Tag

/-
  The namespace that a prefix is bound to inside some tags, the
  innermost first: the binding nearest to the inside counts.
-/
def bound? :
    List Tag → String → Option String
  | [], _ => none
  | tag :: outer, p => (tag.bindings.get? p).or (bound? outer p)

/- The prefixes in scope inside some tags, as a walk keeps them. -/
def scopeInside :
    List Tag → Entries
  | [] => []
  | tag :: outer => tag.scope (scopeInside outer)

/- Whether a prefix may be used in the names of attributes. -/
structure MayMark
    (p : String) : Prop where
  whole : ':' ∉ p.toList
  ne_xml : p ≠ "xml"
  ne_xmlns : p ≠ "xmlns"

/-
  A tag that is named well inside others: it binds distinct
  prefixes that may be used, and its attributes have distinct
  names, each in no namespace, in that of marks, or in one
  that some prefix is bound to.
-/
structure IsWellNamed
    (outer : List Tag)
    (tag : Tag) : Prop where
  bindings : (Entries.keys tag.bindings).Nodup
  prefixes : ∀ p ∈ Entries.keys tag.bindings, MayMark p
  names : (tag.attributes.map Prod.fst).Nodup
  parts : ∀ a ∈ tag.attributes, ':' ∉ a.1.part.toList
  spaces :
    ∀ a ∈ tag.attributes, ∀ space, a.1.space = some space →
      space = xmlSpace ∨ ∃ p, bound? (tag :: outer) p = some space

/- Tags, the innermost first, that are all named well. -/
def AreWellNamed :
    List Tag → Prop
  | [] => True
  | tag :: outer => tag.IsWellNamed outer ∧ AreWellNamed outer

section Scopes

variable {tags outer : List Tag} {tag : Tag} {p space : String}

theorem get?_scope
    (tag : Tag)
    (outer : Entries)
    (p : String) :
    (tag.scope outer).get? p =
      (tag.bindings.get? p).or (outer.get? p) := by
  unfold scope
  rw [Entries.get?_append]
  cases hOwn : tag.bindings.get? p with
  | some space => rfl
  | none =>
      have hNot : (!tag.bindings.has p) = true := by
        simp [Entries.has, hOwn]
      exact
        Entries.get?_filter_of_pos (p := fun q => !tag.bindings.has q)
          hNot outer

/- A walk finds the namespaces that prefixes are bound to. -/
theorem get?_scopeInside
    (tags : List Tag)
    (p : String) :
    (scopeInside tags).get? p = bound? tags p := by
  induction tags with
  | nil => rfl
  | cons tag outer ih => rw [scopeInside, get?_scope, ih, bound?]

theorem nodup_scopeInside
    (h : AreWellNamed tags) :
    (Entries.keys (scopeInside tags)).Nodup := by
  induction tags with
  | nil => exact List.nodup_nil
  | cons tag outer ih =>
      have hOuter := ih h.2
      unfold scopeInside scope
      unfold Entries.keys at hOuter ⊢
      rw [List.map_append, List.nodup_append]
      refine ⟨h.1.bindings, hOuter.sublist ?_, ?_⟩
      · exact List.filter_sublist.map _
      · rintro p hOwn q hFar rfl
        rcases List.mem_map.mp hFar with ⟨entry, hEntry, rfl⟩
        have hNew := (List.mem_filter.mp hEntry).2
        rw [(Entries.has_eq_true_iff _ _).mpr hOwn] at hNew
        cases hNew

theorem mayMark_of_bound?
    (h : AreWellNamed tags)
    (hBound : bound? tags p = some space) :
    MayMark p := by
  induction tags with
  | nil => cases hBound
  | cons tag outer ih =>
      unfold bound? at hBound
      cases hOwn : tag.bindings.get? p with
      | some own =>
          exact
            h.1.prefixes p
              (List.mem_map_of_mem (Entries.mem_of_get? hOwn))
      | none =>
          rw [hOwn, Option.none_or] at hBound
          exact ih h.2 hBound

end Scopes

------------------------------------------------------------
-- Deciding what is named well
------------------------------------------------------------

instance
    (p : String) :
    Decidable (MayMark p) :=
  decidable_of_iff (':' ∉ p.toList ∧ p ≠ "xml" ∧ p ≠ "xmlns")
    ⟨fun h => ⟨h.1, h.2.1, h.2.2⟩,
      fun h => ⟨h.whole, h.ne_xml, h.ne_xmlns⟩⟩

theorem exists_bound?_iff
    (tags : List Tag)
    (space : String) :
    (∃ p, bound? tags p = some space) ↔
      ∃ p ∈ Entries.keys (scopeInside tags),
        bound? tags p = some space := by
  constructor
  · rintro ⟨p, hBound⟩
    refine ⟨p, ?_, hBound⟩
    rw [← get?_scopeInside] at hBound
    exact List.mem_map_of_mem (Entries.mem_of_get? hBound)
  · rintro ⟨p, _, hBound⟩
    exact ⟨p, hBound⟩

instance
    (tags : List Tag)
    (space : String) :
    Decidable (∃ p, bound? tags p = some space) :=
  decidable_of_iff _ (exists_bound?_iff tags space).symm

instance
    (outer : List Tag)
    (tag : Tag) :
    Decidable (tag.IsWellNamed outer) :=
  decidable_of_iff
    ((Entries.keys tag.bindings).Nodup ∧
      (∀ p ∈ Entries.keys tag.bindings, MayMark p) ∧
      (tag.attributes.map Prod.fst).Nodup ∧
      (∀ a ∈ tag.attributes, ':' ∉ a.1.part.toList) ∧
      ∀ a ∈ tag.attributes, ∀ space ∈ a.1.space,
        space = xmlSpace ∨ ∃ p, bound? (tag :: outer) p = some space)
    ⟨fun h => ⟨h.1, h.2.1, h.2.2.1, h.2.2.2.1, h.2.2.2.2⟩,
      fun h => ⟨h.bindings, h.prefixes, h.names, h.parts, h.spaces⟩⟩

------------------------------------------------------------
-- Names of attributes
------------------------------------------------------------

/-
  What a reported name denotes inside some tags: a name in no
  namespace as it is, or one after a prefix that is bound to
  its namespace.
-/
inductive Denotes
    (tags : List Tag) : String → ExpandedName → Prop where
  | ordinary
      (part : String) :
      Denotes tags part ⟨none, part⟩
  | marked
      (part : String) :
      Denotes tags ("xml:" ++ part) ⟨some xmlSpace, part⟩
  | bound
      {p space : String}
      (part : String)
      (hBound : bound? tags p = some space) :
      Denotes tags (p ++ ":" ++ part) ⟨some space, part⟩

section Names

variable {tags : List Tag} {name p part : String}

theorem cutAtChar_prefixed
    (h : ':' ∉ p.toList)
    (part : String) :
    Text.cutAtChar ':' (p ++ ":" ++ part).toList =
      (p.toList, some part.toList) := by
  rw [String.toList_append, String.toList_append, List.append_assoc]
  exact Text.cutAtChar_append h part.toList

theorem cutAtChar_marked
    (part : String) :
    Text.cutAtChar ':' ("xml:" ++ part).toList =
      ("xml".toList, some part.toList) :=
  cutAtChar_prefixed (p := "xml") (by decide) part

theorem cutAtChar_binding
    (p : String) :
    Text.cutAtChar ':' ("xmlns:" ++ p).toList =
      ("xmlns".toList, some p.toList) :=
  cutAtChar_prefixed (p := "xmlns") (by decide) p

/-
  What a name that denotes an attribute has before its first
  colon: nothing, the mark of marks, or a prefix that is bound.
-/
theorem Denotes.cut
    (hTags : AreWellNamed tags)
    {a : ExpandedName}
    (hPart : ':' ∉ a.part.toList)
    (h : Denotes tags name a) :
    (a.space = none ∧ name = a.part) ∨
      ∃ front : String,
        Text.cutAtChar ':' name.toList =
            (front.toList, some a.part.toList) ∧
          (front = "xml" ∧ a.space = some xmlSpace ∨
            MayMark front ∧ a.space = bound? tags front) := by
  cases h with
  | ordinary part => exact .inl ⟨rfl, rfl⟩
  | marked part =>
      exact .inr ⟨"xml", cutAtChar_marked part, .inl ⟨rfl, rfl⟩⟩
  | bound part hBound =>
      have hMark := mayMark_of_bound? hTags hBound
      exact
        .inr ⟨_, cutAtChar_prefixed hMark.whole part,
          .inr ⟨hMark, hBound.symm⟩⟩

/- One name does not denote two attributes. -/
theorem Denotes.inj
    (hTags : AreWellNamed tags)
    {a b : ExpandedName}
    (hLeft : ':' ∉ a.part.toList)
    (hRight : ':' ∉ b.part.toList)
    (h : Denotes tags name a)
    (hOther : Denotes tags name b) :
    a = b := by
  have hWhole :
      ∀ {c : ExpandedName} {front tail : List Char},
        ':' ∉ c.part.toList → name = c.part →
          Text.cutAtChar ':' name.toList ≠ (front, some tail) := by
    rintro c front tail hPart rfl hCut
    rw [Text.cutAtChar_of_not_mem hPart] at hCut
    cases hCut
  rcases a with ⟨space, part⟩
  rcases b with ⟨space', part'⟩
  rcases h.cut hTags hLeft with
    ⟨hSpace, hName⟩ | ⟨front, hCut, hFront⟩ <;>
    rcases hOther.cut hTags hRight with
      ⟨hSpace', hName'⟩ | ⟨front', hCut', hFront'⟩
  · rw [ExpandedName.mk.injEq]
    exact ⟨hSpace.trans hSpace'.symm, hName.symm.trans hName'⟩
  · exact absurd hCut' (hWhole hLeft hName)
  · exact absurd hCut (hWhole hRight hName')
  · rw [hCut, Prod.mk.injEq, Option.some.injEq, String.toList_inj,
      String.toList_inj] at hCut'
    rcases hCut' with ⟨rfl, hParts⟩
    dsimp only at hParts hFront hFront'
    have hSpaces : space = space' := by
      rcases hFront with ⟨hXml, hSpace⟩ | ⟨hMark, hSpace⟩ <;>
        rcases hFront' with ⟨hXml', hSpace'⟩ | ⟨hMark', hSpace'⟩
      · rw [hSpace, hSpace']
      · exact absurd hXml hMark'.ne_xml
      · exact absurd hXml' hMark.ne_xml
      · rw [hSpace, hSpace']
    rw [hSpaces, hParts]

/- No name of an attribute looks like that of a binding. -/
theorem Denotes.ne_binding
    (hTags : AreWellNamed tags)
    {a : ExpandedName}
    (hPart : ':' ∉ a.part.toList)
    (h : Denotes tags name a)
    (p : String) :
    name ≠ "xmlns:" ++ p := by
  rintro rfl
  have hBinding := cutAtChar_binding p
  rcases h.cut hTags hPart with ⟨_, hName⟩ | ⟨front, hCut, hFront⟩
  · rw [← hName] at hPart
    rw [Text.cutAtChar_of_not_mem hPart, Prod.mk.injEq] at hBinding
    exact Option.some_ne_none _ hBinding.2.symm
  · rw [hCut, Prod.mk.injEq, String.toList_inj] at hBinding
    rcases hFront with ⟨hXml, _⟩ | ⟨hMark, _⟩
    · rw [hXml] at hBinding
      exact absurd hBinding.1 (by decide)
    · exact hMark.ne_xmlns hBinding.1

/- A walk finds a name for an attribute in a known namespace. -/
theorem exists_attributeName
    (hTags : AreWellNamed tags)
    {a : ExpandedName}
    (hSpace :
      ∀ space, a.space = some space →
        space = xmlSpace ∨ ∃ p, bound? tags p = some space) :
    ∃ name,
      attributeName .xhtml (scopeInside tags) a = .ok name ∧
        Denotes tags name a := by
  rcases a with ⟨_ | space, part⟩
  · exact ⟨part, rfl, .ordinary part⟩
  · refine ⟨_, rfl, ?_⟩
    unfold qualifiedName
    by_cases hXml : space = xmlSpace
    · subst hXml
      rw [if_pos (by simp)]
      exact .marked part
    · rw [if_neg (by simpa using hXml)]
      rcases hSpace space rfl with hSame | ⟨p, hBound⟩
      · exact absurd hSame hXml
      cases hFind :
          (scopeInside tags).find? (fun e => e.2 == space) with
      | none =>
          rw [← get?_scopeInside] at hBound
          have hNot :=
            List.find?_eq_none.mp hFind _ (Entries.mem_of_get? hBound)
          simp at hNot
      | some entry =>
          have hValue : entry.2 = space := by
            simpa using List.find?_some hFind
          have hEntry :
              (scopeInside tags).get? entry.1 = some space := by
            rw [Entries.get?_eq_some_iff (nodup_scopeInside hTags),
              ← hValue]
            exact List.mem_of_find?_eq_some hFind
          rw [get?_scopeInside] at hEntry
          exact .bound part hEntry

end Names

------------------------------------------------------------
-- Tags
------------------------------------------------------------

/- What a tag binds anew inside others, as attributes. -/
def newBindings
    (outer : List Tag)
    (tag : Tag) : Entries :=
  (tag.bindings.filter
    (fun entry => bound? outer entry.1 != some entry.2)).map
      (fun entry => ("xmlns:" ++ entry.1, entry.2))

/- An attribute with a name that denotes it inside some tags. -/
def IsNamed
    (tags : List Tag)
    (a : ExpandedName × String)
    (entry : String × String) : Prop :=
  Denotes tags entry.1 a.1 ∧ entry.2 = a.2

/-
  What a tag is reported with if nothing is lost: its new
  bindings and then every attribute, under distinct names.
-/
structure ReportsFully
    (outer : List Tag)
    (tag : Tag)
    (attributes : Entries) : Prop where
  whole :
    ∃ named,
      List.Forall₂ (IsNamed (tag :: outer)) tag.attributes named ∧
        attributes = newBindings outer tag ++ named
  distinct : (Entries.keys attributes).Nodup

section Tags

variable {outer tags : List Tag} {tag : Tag}
variable {attributes : List (ExpandedName × String)}
variable {named : Entries}

theorem reportedBindings_scopeInside
    (outer : List Tag)
    (tag : Tag) :
    tag.reportedBindings .xhtml (scopeInside outer) =
      newBindings outer tag := by
  unfold reportedBindings newBindings
  simp only [get?_scopeInside]

theorem exists_named_of_spaces
    (hTags : AreWellNamed tags)
    (hSpaces :
      ∀ a ∈ attributes, ∀ space, a.1.space = some space →
        space = xmlSpace ∨ ∃ p, bound? tags p = some space) :
    ∃ named,
      attributes.mapM (fun a => do
          let name ← attributeName .xhtml (scopeInside tags) a.1
          return (name, a.2)) =
        Except.ok named ∧
      List.Forall₂ (IsNamed tags) attributes named := by
  induction attributes with
  | nil => exact ⟨[], rfl, .nil⟩
  | cons a rest ih =>
      rw [List.forall_mem_cons] at hSpaces
      rcases exists_attributeName hTags hSpaces.1 with
        ⟨name, hName, hDenotes⟩
      rcases ih hSpaces.2 with ⟨named, hRest, hNamed⟩
      refine ⟨(name, a.2) :: named, ?_, .cons ⟨hDenotes, rfl⟩ hNamed⟩
      rw [List.mapM_cons, hName, hRest]
      rfl

theorem exists_isNamed_of_mem
    (h : List.Forall₂ (IsNamed tags) attributes named)
    {entry : String × String}
    (hMem : entry ∈ named) :
    ∃ a ∈ attributes, IsNamed tags a entry := by
  induction h with
  | nil => cases hMem
  | cons hOne _ ih =>
      rcases List.mem_cons.mp hMem with rfl | hRest
      · exact ⟨_, List.mem_cons_self, hOne⟩
      · rcases ih hRest with ⟨a, hA, hNamed⟩
        exact ⟨a, List.mem_cons_of_mem _ hA, hNamed⟩

/- Attributes with distinct names are named distinctly. -/
theorem nodup_keys_named
    (hTags : AreWellNamed tags)
    (hNames : (attributes.map Prod.fst).Nodup)
    (hParts : ∀ a ∈ attributes, ':' ∉ a.1.part.toList)
    (h : List.Forall₂ (IsNamed tags) attributes named) :
    (Entries.keys named).Nodup := by
  induction h with
  | nil => exact List.nodup_nil
  | @cons a entry rest more hOne hRest ih =>
      rw [List.map_cons, List.nodup_cons] at hNames
      rw [List.forall_mem_cons] at hParts
      refine List.nodup_cons.mpr ⟨?_, ih hNames.2 hParts.2⟩
      intro hMem
      rcases List.mem_map.mp hMem with ⟨entry', hEntry', hSame⟩
      rcases exists_isNamed_of_mem hRest hEntry' with ⟨b, hB, hOther⟩
      have hDenotes : Denotes tags entry.1 b.1 := hSame ▸ hOther.1
      have hEq :=
        hOne.1.inj hTags hParts.1 (hParts.2 b hB) hDenotes
      exact hNames.1 (List.mem_map.mpr ⟨b, hB, hEq.symm⟩)

theorem nodup_keys_newBindings
    (h : (Entries.keys tag.bindings).Nodup)
    (outer : List Tag) :
    (Entries.keys (newBindings outer tag)).Nodup := by
  have hKeys :
      Entries.keys (newBindings outer tag) =
        (Entries.keys (tag.bindings.filter
          (fun entry => bound? outer entry.1 != some entry.2))).map
            ("xmlns:" ++ ·) := by
    unfold newBindings Entries.keys
    rw [List.map_map, List.map_map]
    rfl
  rw [hKeys]
  refine List.Nodup.map ?_ (h.sublist (List.filter_sublist.map _))
  intro p q hEq
  rw [← String.toList_inj, String.toList_append,
    String.toList_append] at hEq
  exact String.toList_inj.mp (List.append_cancel_left hEq)

/- A tag that is named well is reported in full. -/
theorem exists_reported
    (h : AreWellNamed (tag :: outer)) :
    ∃ attributes,
      tag.reportedAttributes .xhtml (scopeInside outer) =
          .ok attributes ∧
        ReportsFully outer tag attributes := by
  rcases exists_named_of_spaces h h.1.spaces with
    ⟨named, hFound, hNamed⟩
  have hBindings := nodup_keys_newBindings h.1.bindings outer
  have hKeys := nodup_keys_named h h.1.names h.1.parts hNamed
  have hDistinct :
      (Entries.keys (newBindings outer tag ++ named)).Nodup := by
    unfold Entries.keys at hBindings hKeys ⊢
    rw [List.map_append, List.nodup_append]
    refine ⟨hBindings, hKeys, ?_⟩
    rintro key hNew name hOld rfl
    rcases List.mem_map.mp hNew with ⟨binding, hBinding, hKey⟩
    rcases List.mem_map.mp hBinding with ⟨own, _, rfl⟩
    rcases List.mem_map.mp hOld with ⟨entry, hEntry, rfl⟩
    rcases exists_isNamed_of_mem hNamed hEntry with ⟨a, hA, hOne⟩
    exact hOne.1.ne_binding h (h.1.parts a hA) own.1 hKey.symm
  refine ⟨newBindings outer tag ++ named, ?_, ⟨named, hNamed, rfl⟩,
    hDistinct⟩
  unfold reportedAttributes
  rw [reportedBindings_scopeInside]
  rw [scopeInside] at hFound
  rw [hFound, ← Entries.merge_eq_append hDistinct]
  rfl

end Tags
end Tag
end LinkedMarkup
