import LinkedMarkup.Proofs.Markup.ReportedNames
import LinkedMarkup.Proofs.Markup.Scopes

/-
  This file proves that the start tags of a walk through a
  tree with namespaces tell all of them. At every element, the
  prefixes that the open tags report one after the other are
  those in scope there, and all attributes are reported under
  names of their own.

  Key definitions include:
    * `Entries.boundNames`
    * `Entries.accumulated`
    * `Event.openings`
    * `Tree.places`
    * `Tree.IsWellNamed`

  Main declarations:
    * `Tag.get?_accumulated`
    * `Forest.openings_traversal`
    * `Tree.namespaces_reported`
-/

namespace LinkedMarkup

------------------------------------------------------------
-- Prefixes that are reported
------------------------------------------------------------

namespace Text

theorem dropFront?_eq_some_iff
    {front cs rest : List Char} :
    dropFront? front cs = some rest ↔ cs = front ++ rest := by
  induction front generalizing cs with
  | nil =>
      rw [dropFront?, Option.some.injEq]
      rfl
  | cons f front ih =>
      cases cs with
      | nil => simp [dropFront?]
      | cons c cs =>
          rw [dropFront?]
          by_cases hEq : f = c
          · subst hEq
            simp [ih]
          · simp [hEq, Ne.symm hEq]

end Text

theorem Prefixes.declaredName?_eq_some_iff
    {key p : String} :
    declaredName? key = some p ↔ key = "xmlns:" ++ p := by
  unfold declaredName?
  rw [Option.map_eq_some_iff]
  constructor
  · rintro ⟨rest, hRest, rfl⟩
    rw [Text.dropFront?_eq_some_iff] at hRest
    rw [← String.toList_inj, hRest, String.toList_append]
    congr 1
    exact String.toList_ofList.symm
  · rintro rfl
    exact
      ⟨p.toList, Text.dropFront?_eq_some_iff.mpr String.toList_append,
        String.ofList_toList⟩

namespace Entries

/- The prefixes that attributes bind, as a tag reports them. -/
def boundNames
    (attributes : Entries) : Entries :=
  attributes.filterMap (fun entry =>
    (Prefixes.declaredName? entry.1).map (fun p => (p, entry.2)))

/-
  The prefixes that open tags report, the innermost first:
  what each of them binds is added to what is bound around it.
-/
def accumulated :
    List Entries → Entries
  | [] => []
  | attributes :: around =>
      (accumulated around).merge attributes.boundNames

end Entries

namespace Tag

variable {outer tags : List Tag} {tag : Tag} {attributes : Entries}

/- What tags report as bindings is what they bind anew. -/
theorem boundNames_newBindings
    (outer : List Tag)
    (tag : Tag) :
    (newBindings outer tag).boundNames =
      tag.bindings.filter
        (fun entry => bound? outer entry.1 != some entry.2) := by
  have hSelf :
      ∀ entry : String × String,
        (Prefixes.declaredName? ("xmlns:" ++ entry.1)).map
            (fun p => (p, entry.2)) =
          some entry := by
    intro entry
    rw [Prefixes.declaredName?_eq_some_iff.mpr rfl]
    rfl
  unfold newBindings Entries.boundNames
  rw [List.filterMap_map]
  have hSome :
      ((fun entry : String × String =>
          (Prefixes.declaredName? entry.1).map (fun p => (p, entry.2))) ∘
        fun entry => ("xmlns:" ++ entry.1, entry.2)) = some :=
    funext hSelf
  rw [hSome, List.filterMap_some]

/- No other attribute is reported as a binding. -/
theorem boundNames_named
    {named : Entries}
    {attributes : List (ExpandedName × String)}
    (hTags : AreWellNamed tags)
    (hParts : ∀ a ∈ attributes, ':' ∉ a.1.part.toList)
    (h : List.Forall₂ (IsNamed tags) attributes named) :
    named.boundNames = [] := by
  unfold Entries.boundNames
  rw [List.filterMap_eq_nil_iff]
  intro entry hMem
  rcases exists_isNamed_of_mem h hMem with ⟨a, hA, hOne⟩
  rw [Option.map_eq_none_iff, Option.eq_none_iff_forall_ne_some]
  intro p hName
  exact
    hOne.1.ne_binding hTags (hParts a hA) p
      (Prefixes.declaredName?_eq_some_iff.mp hName)

theorem boundNames_of_reportsFully
    (hTags : AreWellNamed (tag :: outer))
    (h : ReportsFully outer tag attributes) :
    attributes.boundNames =
      tag.bindings.filter
        (fun entry => bound? outer entry.1 != some entry.2) := by
  rcases h.whole with ⟨named, hNamed, rfl⟩
  have hRest := boundNames_named hTags hTags.1.parts hNamed
  unfold Entries.boundNames at hRest ⊢
  rw [List.filterMap_append, hRest, List.append_nil]
  exact boundNames_newBindings outer tag

/-
  If the open tags around one report what is in scope, so do
  they with that tag: what it does not repeat is bound already.
-/
theorem get?_accumulated
    (hTags : AreWellNamed (tag :: outer))
    (h : ReportsFully outer tag attributes)
    {around : List Entries}
    (hAround :
      ∀ p, (Entries.accumulated around).get? p = bound? outer p)
    (p : String) :
    (Entries.accumulated (attributes :: around)).get? p =
      bound? (tag :: outer) p := by
  have hKeys :
      (Entries.keys (tag.bindings.filter
        (fun entry => bound? outer entry.1 != some entry.2))).Nodup :=
    hTags.1.bindings.sublist (List.filter_sublist.map _)
  rw [Entries.accumulated, boundNames_of_reportsFully hTags h,
    Entries.get?_merge hKeys, hAround, bound?,
    Entries.get?_filter hTags.1.bindings]
  cases hOwn : tag.bindings.get? p with
  | none => rfl
  | some space =>
      by_cases hSame : bound? outer p = some space
      · simp [Option.filter, hSame]
      · simp [Option.filter, hSame]

end Tag
------------------------------------------------------------
-- Elements and start tags
------------------------------------------------------------

namespace Event

/-
  The attributes of each start tag among events, with those of
  the tags that are open around it, the innermost first.
-/
def openings :
    List Entries → List Event → List (Entries × List Entries)
  | _, [] => []
  | around, .opened _ attributes _ :: rest =>
      (attributes, around) :: openings (attributes :: around) rest
  | around, .closed _ _ :: rest => openings around.tail rest
  | around, .text _ :: rest => openings around rest
  | around, .unknown _ :: rest => openings around rest

theorem openings_text
    (around : List Entries)
    (text : String)
    (rest : List Event) :
    openings around (Walk.textEvent text ++ rest) =
      openings around rest := by
  unfold Walk.textEvent
  split <;> rfl

end Event

/- The tags of a forest, each with the tags around it. -/
def Forest.places
    (outer : List Tag) :
    Forest → List (Tag × List Tag)
  | nil => []
  | element tag _ children _ next =>
      (tag, outer) :: (children.places (tag :: outer) ++
        next.places outer)
  | aside _ next => next.places outer

/- The tags of a tree, each with the tags around it. -/
def Tree.places
    (t : Tree) : List (Tag × List Tag) :=
  (t.tag, []) :: t.children.places [t.tag]

/-
  A tag inside others that is told by its start tag and the
  ones open around it: together they report what is in scope,
  and its own attributes are reported in full.
-/
structure Tag.IsToldBy
    (place : Tag × List Tag)
    (opening : Entries × List Entries) : Prop where
  scope :
    ∀ p,
      (Entries.accumulated (opening.1 :: opening.2)).get? p =
        bound? (place.1 :: place.2) p
  attributes : ReportsFully place.2 place.1 opening.1

------------------------------------------------------------
-- Walks
------------------------------------------------------------

namespace Forest

open Tag (AreWellNamed scopeInside)

variable {forest : Forest} {outer : List Tag}

/- The tags of a forest are named well where they stand. -/
def IsWellNamed
    (outer : List Tag)
    (forest : Forest) : Prop :=
  ∀ place ∈ forest.places outer, place.1.IsWellNamed place.2

theorem isWellNamed_element
    {tag : Tag}
    {text tail : String}
    {children next : Forest}
    (h : (element tag text children tail next).IsWellNamed outer) :
    tag.IsWellNamed outer ∧ children.IsWellNamed (tag :: outer) ∧
      next.IsWellNamed outer := by
  unfold IsWellNamed at h
  rw [places, List.forall_mem_cons, List.forall_mem_append] at h
  exact h

theorem nameable_of_isWellNamed
    (hOuter : AreWellNamed outer)
    (h : forest.IsWellNamed outer) :
    forest.Nameable .xhtml (scopeInside outer) := by
  induction forest generalizing outer with
  | nil => trivial
  | element tag text children tail next ihChildren ihNext =>
      rcases isWellNamed_element h with ⟨hTag, hChildren, hNext⟩
      have hInner : AreWellNamed (tag :: outer) := ⟨hTag, hOuter⟩
      rcases Tag.exists_reported hInner with ⟨attributes, hReported, _⟩
      refine ⟨?_, ihChildren hInner hChildren, ihNext hOuter hNext⟩
      rw [hReported]
      rfl
  | aside tail next ih => exact ih hOuter h

/- The start tags of a forest tell its tags, whatever follows. -/
theorem openings_traversal
    {around : List Entries}
    (hOuter : AreWellNamed outer)
    (h : forest.IsWellNamed outer)
    (hAround :
      ∀ p, (Entries.accumulated around).get? p = Tag.bound? outer p)
    (depth : Nat) :
    ∃ found,
      List.Forall₂ Tag.IsToldBy (forest.places outer) found ∧
        ∀ rest,
          Event.openings around
              (forest.traversal .xhtml (scopeInside outer) depth ++
                rest) =
            found ++ Event.openings around rest := by
  induction forest generalizing outer around depth with
  | nil => exact ⟨[], .nil, fun rest => rfl⟩
  | element tag text children tail next ihChildren ihNext =>
      rcases isWellNamed_element h with ⟨hTag, hChildren, hNext⟩
      have hInner : AreWellNamed (tag :: outer) := ⟨hTag, hOuter⟩
      rcases Tag.exists_reported hInner with
        ⟨attributes, hReported, hFully⟩
      have hScope := Tag.get?_accumulated hInner hFully hAround
      rcases ihChildren hInner hChildren hScope (depth + 1) with
        ⟨inside, hInside, hFirst⟩
      rcases ihNext hOuter hNext hAround depth with
        ⟨after, hAfter, hLast⟩
      have hNamed :
          tag.namedAttributes .xhtml (scopeInside outer) =
            attributes := by
        unfold Tag.namedAttributes
        rw [hReported]
        rfl
      refine ⟨(attributes, around) :: (inside ++ after),
        .cons ⟨hScope, hFully⟩ (List.rel_append hInside hAfter), ?_⟩
      intro rest
      rw [traversal, hNamed]
      simp only [List.cons_append, List.append_assoc, Event.openings,
        Event.openings_text]
      rw [← scopeInside, hFirst]
      simp only [Event.openings, Event.openings_text, List.tail_cons,
        hLast]
  | aside tail next ih =>
      rcases ih hOuter h hAround depth with ⟨found, hFound, hLast⟩
      refine ⟨found, hFound, fun rest => ?_⟩
      rw [traversal, List.append_assoc, Event.openings_text]
      exact hLast rest

end Forest

namespace Tree

/- The tags of a tree are named well where they stand. -/
def IsWellNamed
    (t : Tree) : Prop :=
  ∀ place ∈ t.places, place.1.IsWellNamed place.2

instance
    (t : Tree) :
    Decidable t.IsWellNamed :=
  inferInstanceAs
    (Decidable (∀ place ∈ t.places, place.1.IsWellNamed place.2))

/-
  The walk of a tree with namespaces tells every element by a
  start tag of its own, in document order. The prefixes that
  the tags from the root down to it report are those in scope
  there, and its attributes are all reported, each under a name
  that denotes it, with no two names alike.
-/
theorem namespaces_reported
    {t : Tree}
    (h : t.IsWellNamed) :
    (t.walk .xhtml).fault? = none ∧
      List.Forall₂ Tag.IsToldBy t.places
        (Event.openings [] (t.walk .xhtml).events) := by
  unfold IsWellNamed at h
  rw [places, List.forall_mem_cons] at h
  have hRoot : Tag.AreWellNamed [t.tag] := ⟨h.1, trivial⟩
  rcases Tag.exists_reported hRoot with
    ⟨attributes, hReported, hFully⟩
  have hNone :
      ∀ p, (Entries.accumulated []).get? p = Tag.bound? [] p :=
    fun p => rfl
  have hScope := Tag.get?_accumulated hRoot hFully hNone
  have hNameable : t.Nameable .xhtml := by
    refine ⟨?_, Forest.nameable_of_isWellNamed hRoot h.2⟩
    exact hReported ▸ rfl
  have hNamed : t.tag.namedAttributes .xhtml [] = attributes := by
    unfold Tag.namedAttributes
    exact hReported ▸ rfl
  rcases Forest.openings_traversal hRoot h.2 hScope 1 with
    ⟨inside, hInside, hFirst⟩
  have hOpenings :
      Event.openings [attributes]
          (t.children.traversal .xhtml (t.tag.scope []) 1 ++
            [.closed (t.tag.reportedName .xhtml) 0]) =
        inside :=
    (hFirst _).trans (List.append_nil inside)
  rw [walk_eq_traversal hNameable]
  refine ⟨rfl, ?_⟩
  unfold traversal
  rw [hNamed]
  simp only [Event.openings, Event.openings_text, hOpenings]
  exact .cons ⟨hScope, hFully⟩ hInside

/-
  A prefix that an element inside binds to another namespace,
  beside one that it repeats, and that has its outer binding
  again after that element.
-/
def rebinding : Tree where
  tag :=
    ⟨⟨none, "html"⟩, [("p", "http://a/"), ("q", "http://b/")],
      [(⟨none, "about"⟩, "#r"), (⟨some xmlSpace, "lang"⟩, "en")]⟩
  text := ""
  children :=
    .element
      ⟨⟨none, "div"⟩, [("p", "http://b/"), ("q", "http://b/")],
        [(⟨some "http://b/", "k"⟩, "1"), (⟨none, "k"⟩, "2")]⟩
      "" .nil ""
      (.element
        ⟨⟨none, "p"⟩, [], [(⟨some "http://a/", "k"⟩, "3")]⟩
        "" .nil "" .nil)

/- The start tags of the sample, and what they tell of it. -/
theorem rebinding_reported :
    rebinding.IsWellNamed ∧
      (rebinding.walk .xhtml).reported =
        [[("xmlns:p", "http://a/"), ("xmlns:q", "http://b/"),
            ("about", "#r"), ("xml:lang", "en")],
          [("xmlns:p", "http://b/"), ("p:k", "1"), ("k", "2")],
          [("p:k", "3")]] ∧
      (rebinding.walk .xhtml).fault? = none ∧
      List.Forall₂ Tag.IsToldBy rebinding.places
        (Event.openings [] (rebinding.walk .xhtml).events) := by
  have hNamed : rebinding.IsWellNamed := by decide +kernel
  exact ⟨hNamed, by decide +kernel, namespaces_reported hNamed⟩

end Tree
end LinkedMarkup
