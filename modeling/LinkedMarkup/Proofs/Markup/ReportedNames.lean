import LinkedMarkup.Proofs.Evaluation.Recognition
import LinkedMarkup.Proofs.Markup.AttributeNames
import LinkedMarkup.Proofs.Markup.Traces

/-
  This file proves what the walk of a tree of HTML reports.
  Its start tags are those of the elements in document order,
  each with the attributes under the names that they are taken
  for, up to the first tag with a name that is unclosed. No
  namespace binding is reported, and nothing else that the
  element was not given.

  Key definitions include:
    * `Tag.Gives`
    * `Tag.ReportsAll`
    * `Walk.Trace.reported`
    * `Tree.IsPlain`

  Main declarations:
    * `Tag.gives_of_reportedAttributes`
    * `Tree.gives_of_walk`
    * `Forest.reportsAll_trace`
    * `Tree.reportsAll_walk`
    * `Tree.names_kept_unless_braced`
-/

namespace LinkedMarkup

------------------------------------------------------------
-- Attributes that were given
------------------------------------------------------------

namespace Tag

/- An attribute of a tag, under the name that HTML has for it. -/
def Gives
    (tag : Tag)
    (entry : String × String) : Prop :=
  ∃ outer, ∃ a ∈ tag.attributes,
    attributeName .html (tag.scope outer) a.1 = .ok entry.1 ∧
      entry.2 = a.2

/- What a search through a list finds is found by one of its steps. -/
theorem exists_step_of_mapM
    {α β : Type}
    {step : α → Except Fault β}
    {values : List α}
    {found : List β}
    (h : values.mapM step = .ok found) :
    ∀ b ∈ found, ∃ a ∈ values, step a = .ok b := by
  induction values generalizing found with
  | nil =>
      cases h
      intro b hMem
      cases hMem
  | cons a rest ih =>
      rw [List.mapM_cons] at h
      cases hStep : step a with
      | error fault =>
          rw [hStep] at h
          cases h
      | ok first =>
          cases hRest : rest.mapM step with
          | error fault =>
              rw [hStep, hRest] at h
              cases h
          | ok more =>
              rw [hStep, hRest] at h
              cases h
              intro b hMem
              rcases List.mem_cons.mp hMem with rfl | hIn
              · exact ⟨a, List.mem_cons_self, hStep⟩
              · rcases ih hRest b hIn with ⟨a', hMem', hOne⟩
                exact ⟨a', List.mem_cons_of_mem _ hMem', hOne⟩

/- HTML reports a tag with nothing that it was not given. -/
theorem gives_of_reportedAttributes
    {tag : Tag}
    {outer attributes : Entries}
    (h : tag.reportedAttributes .html outer = .ok attributes) :
    ∀ entry ∈ attributes, tag.Gives entry := by
  unfold reportedAttributes at h
  generalize hSearch :
    List.mapM (m := Except Fault) _ tag.attributes = found at h
  cases found with
  | error fault => cases h
  | ok named =>
      cases h
      intro entry hMem
      have hNamed : entry ∈ named :=
        (Entries.mem_of_mem_merge hMem).resolve_left List.not_mem_nil
      rcases exists_step_of_mapM hSearch entry hNamed with
        ⟨a, hA, hStep⟩
      cases hName : attributeName .html (tag.scope outer) a.1 with
      | error fault =>
          rw [hName] at hStep
          cases hStep
      | ok name =>
          rw [hName] at hStep
          cases hStep
          exact ⟨outer, a, hA, hName, rfl⟩

end Tag

------------------------------------------------------------
-- Tags one after the other
------------------------------------------------------------

namespace Tag

/-
  What the tags of a document are reported with, one after the
  other; a fault ends this.
-/
inductive ReportsAll :
    List Tag → List Entries → Option Fault → Prop where
  | nil : ReportsAll [] [] none
  | cons
      {tag : Tag}
      {rest : List Tag}
      {attributes : Entries}
      {more : List Entries}
      {fault? : Option Fault}
      (hTag : tag.Reports (.ok attributes))
      (hRest : ReportsAll rest more fault?) :
      ReportsAll (tag :: rest) (attributes :: more) fault?
  | stop
      {tag : Tag}
      {fault : Fault}
      (hTag : tag.Reports (.error fault))
      (rest : List Tag) :
      ReportsAll (tag :: rest) [] (some fault)

section Order

variable {tags more : List Tag} {reported next : List Entries}

theorem ReportsAll.append
    {fault? : Option Fault}
    (hFirst : ReportsAll tags reported none)
    (hNext : ReportsAll more next fault?) :
    ReportsAll (tags ++ more) (reported ++ next) fault? := by
  generalize hNone : none = ended at hFirst
  induction hFirst with
  | nil => exact hNext
  | cons hTag _ ih => exact .cons hTag (ih hNone)
  | stop hTag rest => cases hNone

theorem ReportsAll.append_of_fault
    {fault : Fault}
    (hFirst : ReportsAll tags reported (some fault))
    (more : List Tag) :
    ReportsAll (tags ++ more) reported (some fault) := by
  generalize hSome : some fault = ended at hFirst ⊢
  induction hFirst with
  | nil => cases hSome
  | cons hTag _ ih => exact .cons hTag (ih hSome)
  | stop hTag rest => exact .stop hTag _

/- What ends reports is a tag with an unclosed name. -/
theorem ReportsAll.unclosed
    {fault : Fault}
    (h : ReportsAll tags reported (some fault)) :
    fault = .attributeName ∧
      ∃ tag ∈ tags, ∃ a ∈ tag.attributes, IsUnclosed a.1.part := by
  generalize hSome : some fault = ended at h
  induction h with
  | nil => cases hSome
  | cons _ _ ih =>
      rcases ih hSome with ⟨hFault, tag, hMem, hUnclosed⟩
      exact ⟨hFault, tag, List.mem_cons_of_mem _ hMem, hUnclosed⟩
  | stop hTag rest =>
      cases hSome
      cases hTag with
      | unclosed hMem hUnclosed =>
          exact ⟨rfl, _, List.mem_cons_self, _, hMem, hUnclosed⟩

/- If nothing ends reports, all tags are reported. -/
theorem ReportsAll.forall₂
    (h : ReportsAll tags reported none) :
    List.Forall₂ (fun tag attributes => tag.Reports (.ok attributes))
      tags reported := by
  generalize hNone : none = ended at h
  induction h with
  | nil => exact .nil
  | cons hTag _ ih => exact .cons hTag (ih hNone)
  | stop hTag rest => cases hNone

/- A tag with an unclosed name ends reports. -/
theorem ReportsAll.fault?_ne_none
    {fault? : Option Fault}
    (hPlain : ∀ tag ∈ tags, tag.IsPlain)
    (h : ReportsAll tags reported fault?)
    (hUnclosed :
      ∃ tag ∈ tags, ∃ a ∈ tag.attributes, IsUnclosed a.1.part) :
    fault? ≠ none := by
  rintro rfl
  rcases hUnclosed with ⟨tag, hTag, a, hMem, hUnclosed⟩
  rcases List.forall₂_iff_get.mp h.forall₂ with ⟨hLength, hAll⟩
  rcases List.getElem_of_mem hTag with ⟨i, hIndex, rfl⟩
  have hOk := hAll i hIndex (hLength ▸ hIndex)
  have hError := Reports.unclosed hMem hUnclosed
  cases hOk.unique (hPlain _ hTag) hError

/- Without braces, all tags are reported in lower case. -/
theorem ReportsAll.lowered
    {fault? : Option Fault}
    (hPlain : ∀ tag ∈ tags, tag.IsPlain)
    (hBraced :
      ∀ tag ∈ tags, ∀ a ∈ tag.attributes, ¬ IsBraced a.1.part)
    (h : ReportsAll tags reported fault?) :
    fault? = none ∧ reported = tags.map Tag.lowered := by
  induction h with
  | nil => exact ⟨rfl, rfl⟩
  | cons hTag _ ih =>
      rw [List.forall_mem_cons] at hPlain hBraced
      rcases ih hPlain.2 hBraced.2 with ⟨hFault, hRest⟩
      cases hTag.unique hPlain.1 (reports_lowered hBraced.1)
      exact ⟨hFault, by rw [hRest, List.map_cons]⟩
  | stop hTag rest =>
      rw [List.forall_mem_cons] at hPlain hBraced
      cases hTag.unique hPlain.1 (reports_lowered hBraced.1)

end Order
end Tag

------------------------------------------------------------
-- Trees
------------------------------------------------------------

/- The attributes of a start tag. -/
def Event.attributes? :
    Event → Option Entries
  | opened _ attributes _ => some attributes
  | _ => none

namespace Walk
namespace Trace

/- The attributes of the start tags of a trace, in order. -/
def reported
    (t : Trace) : List Entries :=
  t.events.filterMap Event.attributes?

theorem reported_after_text
    (text : String)
    (t : Trace) :
    (t.after (textEvent text)).reported = t.reported := by
  unfold reported after textEvent
  split <;> rfl

theorem reported_after_opened
    (name text : String)
    (attributes : Entries)
    (depth : Nat)
    (t : Trace) :
    (t.after (.opened name attributes depth :: textEvent text)).reported =
      attributes :: t.reported := by
  rw [← reported_after_text text t]
  rfl

theorem reported_after_closed
    (name text : String)
    (depth : Nat)
    (t : Trace) :
    (t.after (.closed name depth :: textEvent text)).reported =
      t.reported := by
  rw [← reported_after_text text t]
  rfl

/- What two traces report is reported by one of them. -/
theorem mem_reported_andThen
    {t next : Trace}
    {attributes : Entries}
    (h : attributes ∈ (t.andThen next).reported) :
    attributes ∈ t.reported ∨ attributes ∈ next.reported := by
  rcases t with ⟨events, fault?⟩
  cases fault? with
  | none =>
      have hReported :
          (andThen ⟨events, none⟩ next).reported =
            reported ⟨events, none⟩ ++ next.reported :=
        List.filterMap_append
      rw [hReported] at h
      exact List.mem_append.mp h
  | some fault => exact .inl h

/- Traces that report tags, one after the other. -/
theorem reportsAll_andThen
    {tags more : List Tag}
    {t next : Trace}
    (h : Tag.ReportsAll tags t.reported t.fault?)
    (hNext : Tag.ReportsAll more next.reported next.fault?) :
    Tag.ReportsAll (tags ++ more) (t.andThen next).reported
      (t.andThen next).fault? := by
  rcases t with ⟨events, fault?⟩
  cases fault? with
  | none =>
      have hReported :
          (andThen ⟨events, none⟩ next).reported =
            reported ⟨events, none⟩ ++ next.reported :=
        List.filterMap_append
      rw [hReported]
      exact h.append hNext
  | some fault => exact h.append_of_fault more

end Trace
end Walk

namespace Forest

/- What the trace of a forest reports was given by its tags. -/
theorem gives_of_trace
    {forest : Forest}
    {outer attributes : Entries}
    {depth : Nat}
    (h : attributes ∈ (forest.trace .html outer depth).reported) :
    ∃ tag ∈ forest.tags, ∀ entry ∈ attributes, tag.Gives entry := by
  induction forest generalizing outer depth with
  | nil => cases h
  | element tag text children tail next ihChildren ihNext =>
      rw [trace] at h
      rw [tags]
      cases hFound : tag.reportedAttributes .html outer with
      | error fault =>
          rw [hFound] at h
          cases h
      | ok own =>
          rw [hFound] at h
          dsimp only at h
          rw [Walk.Trace.reported_after_opened] at h
          rcases List.mem_cons.mp h with rfl | hInside
          · exact ⟨tag, List.mem_cons_self,
              Tag.gives_of_reportedAttributes hFound⟩
          · rcases Walk.Trace.mem_reported_andThen hInside with
              hChildren | hNext
            · rcases ihChildren hChildren with ⟨inner, hInner, hGives⟩
              exact ⟨inner, by simp [hInner], hGives⟩
            · rw [Walk.Trace.reported_after_closed] at hNext
              rcases ihNext hNext with ⟨later, hLater, hGives⟩
              exact ⟨later, by simp [hLater], hGives⟩
  | aside tail next ih =>
      rw [trace, Walk.Trace.reported_after_text] at h
      exact ih h

theorem scope_of_isPlain
    {tag : Tag}
    (h : tag.IsPlain) :
    tag.scope [] = [] := by
  unfold Tag.scope
  rw [h.bindings]
  rfl

/- A forest as in HTML is reported tag by tag. -/
theorem reportsAll_trace
    {forest : Forest}
    (hPlain : ∀ tag ∈ forest.tags, tag.IsPlain)
    (depth : Nat) :
    Tag.ReportsAll forest.tags (forest.trace .html [] depth).reported
      (forest.trace .html [] depth).fault? := by
  induction forest generalizing depth with
  | nil => exact .nil
  | element tag text children tail next ihChildren ihNext =>
      rw [tags, List.forall_mem_cons, List.forall_mem_append] at hPlain
      rcases hPlain with ⟨hTag, hChildren, hNext⟩
      rw [tags, trace, scope_of_isPlain hTag]
      cases hFound : tag.reportedAttributes .html [] with
      | error fault =>
          exact .stop ((Tag.reportedAttributes_iff hTag _).mp hFound) _
      | ok attributes =>
          dsimp only
          rw [Walk.Trace.reported_after_opened]
          apply Tag.ReportsAll.cons
          · exact (Tag.reportedAttributes_iff hTag _).mp hFound
          · apply Walk.Trace.reportsAll_andThen (ihChildren hChildren _)
            rw [Walk.Trace.reported_after_closed]
            exact ihNext hNext depth
  | aside tail next ih =>
      rw [trace, Walk.Trace.reported_after_text]
      exact ih hPlain depth

end Forest

namespace Tree

/-
  Every attribute that the walk of a tree reports in HTML was
  given by an element, whatever its namespace bindings are: a
  binding `xmlns:p` is no attribute there.
-/
theorem gives_of_walk
    {t : Tree}
    {attributes : Entries}
    (h : attributes ∈ (t.walk .html).reported) :
    ∃ tag ∈ t.tags, ∀ entry ∈ attributes, tag.Gives entry := by
  rw [walk_eq_trace, trace] at h
  cases hFound : t.tag.reportedAttributes .html [] with
  | error fault =>
      rw [hFound] at h
      cases h
  | ok own =>
      rw [hFound] at h
      dsimp only at h
      rw [Walk.Trace.reported_after_opened] at h
      rcases List.mem_cons.mp h with rfl | hInside
      · exact ⟨t.tag, List.mem_cons_self,
          Tag.gives_of_reportedAttributes hFound⟩
      · rcases Walk.Trace.mem_reported_andThen hInside with
          hChildren | hClosed
        · rcases Forest.gives_of_trace hChildren with
            ⟨tag, hMem, hGives⟩
          exact ⟨tag, List.mem_cons_of_mem _ hMem, hGives⟩
        · cases hClosed

/- A tree as in HTML, where nothing is in a namespace. -/
def IsPlain
    (t : Tree) : Prop :=
  ∀ tag ∈ t.tags, tag.IsPlain

/- The walk of a tree as in HTML reports it tag by tag. -/
theorem reportsAll_walk
    {t : Tree}
    (hPlain : t.IsPlain) :
    Tag.ReportsAll t.tags (t.walk .html).reported
      (t.walk .html).fault? := by
  unfold IsPlain at hPlain
  rw [walk_eq_trace]
  rw [tags, List.forall_mem_cons] at hPlain
  rw [tags, trace, Forest.scope_of_isPlain hPlain.1]
  cases hFound : t.tag.reportedAttributes .html [] with
  | error fault =>
      exact .stop ((Tag.reportedAttributes_iff hPlain.1 _).mp hFound) _
  | ok attributes =>
      dsimp only
      rw [Walk.Trace.reported_after_opened]
      apply Tag.ReportsAll.cons
      · exact (Tag.reportedAttributes_iff hPlain.1 _).mp hFound
      · rw [← List.append_nil t.children.tags]
        exact Walk.Trace.reportsAll_andThen
          (Forest.reportsAll_trace hPlain.2 1) .nil

/-
  What the walk of any tree of HTML reports. Each start tag
  has the element's attributes under the names that they are
  taken for. Only a name that starts with a brace is not taken
  for itself: one that is unclosed ends the walk, and without
  braces every attribute is reported under its name in lower
  case. Attributes that mean nothing are ignored by whatever
  reads a start tag, and in a document whose literals keep no
  markup.
-/
theorem names_kept_unless_braced
    {t : Tree}
    (hPlain : t.IsPlain) :
    Tag.ReportsAll t.tags (t.walk .html).reported
        (t.walk .html).fault? ∧
      (∀ fault,
        (t.walk .html).fault? = some fault ↔
          fault = .attributeName ∧
            ∃ tag ∈ t.tags, ∃ a ∈ tag.attributes,
              Tag.IsUnclosed a.1.part) ∧
      ((∀ tag ∈ t.tags, ∀ a ∈ tag.attributes,
          ¬ Tag.IsBraced a.1.part) →
        t.walk .html = ⟨t.traversal .html, none⟩ ∧
          (t.walk .html).reported = t.tags.map Tag.lowered) ∧
      (∀ name,
        Tag.IsBraced name → ¬ Tag.TakenAs name (Text.lower name)) ∧
      (∀ settings parent isRoot name (attributes : Entries),
        Evaluation.openElement settings parent isRoot name
            attributes.recognised =
          Evaluation.openElement settings parent isRoot name
            attributes) ∧
      ∀ d events,
        (∀ n sections m, Evaluation.Run d (events.take n) sections m →
          m.KeepsNoMarkup) →
        Extraction.evaluate d (events.map Event.recognised) =
          Extraction.evaluate d events := by
  have hReports := reportsAll_walk hPlain
  refine ⟨hReports, ?_, ?_, ?_, ?_, ?_⟩
  · intro fault
    constructor
    · intro hFault
      rw [hFault] at hReports
      exact hReports.unclosed
    · rintro ⟨rfl, hUnclosed⟩
      cases hFault : (t.walk .html).fault? with
      | none =>
          exact absurd hFault (hReports.fault?_ne_none hPlain hUnclosed)
      | some fault => rw [fault_of_walk hFault]
  · intro hBraced
    rcases hReports.lowered hPlain hBraced with ⟨hFault, hLowered⟩
    have hNameable := (fault?_walk_eq_none_iff .html t).mp hFault
    exact ⟨walk_eq_traversal hNameable, hLowered⟩
  · intro name hBraced
    exact Tag.not_takenAs_lower hBraced
  · intro settings parent isRoot name attributes
    exact Evaluation.openElement_recognised settings attributes parent
      isRoot name
  · intro d events hKeeps
    exact Evaluation.evaluate_recognised hKeeps

namespace Templated

/- A document with an attribute of a given name. -/
def page
    (name : String) : Tree where
  tag := ⟨⟨none, "html"⟩, [], []⟩
  text := ""
  children :=
    .element ⟨⟨none, "p"⟩, [], [(⟨none, name⟩, "#a")]⟩ "y" .nil "" .nil

theorem isPlain_page
    (name : String) :
    (page name).IsPlain := by
  intro tag hMem
  have hTags :
      tag = ⟨⟨none, "html"⟩, [], []⟩ ∨
        tag = ⟨⟨none, "p"⟩, [], [(⟨none, name⟩, "#a")]⟩ := by
    simpa [page, tags, Forest.tags] using hMem
  rcases hTags with rfl | rfl
  · exact ⟨rfl, by simp⟩
  · exact ⟨rfl, by simp⟩

end Templated

open Templated in
/-
  An unclosed name ends the walk, one with braces is taken for
  an attribute that has a meaning, and any other for itself.
-/
theorem braces_taken :
    ((page "\x7bx").walk .html).fault? = some .attributeName ∧
      ((page "\x7bx\x7dabout").walk .html).reported =
        [[], [("about", "#a")]] ∧
      ((page "About").walk .html).reported =
        [[], [("about", "#a")]] := by
  refine ⟨?_, by decide +kernel, ?_⟩
  · refine
      ((names_kept_unless_braced (isPlain_page _)).2.1 _).mpr
        ⟨rfl, _, List.mem_cons_of_mem _ List.mem_cons_self, _,
          List.mem_cons_self, ?_⟩
    exact ⟨rfl, by decide⟩
  · refine
      ((names_kept_unless_braced (isPlain_page _)).2.2.1 ?_).2.trans
        (by decide +kernel)
    unfold Tag.IsBraced
    decide

open Templated in
/- So attributes are not always reported under their names. -/
theorem not_namesKept :
    ¬ ∀ t : Tree, t.IsPlain →
      (t.walk .html).fault? = none ∧
        (t.walk .html).reported = t.tags.map Tag.lowered := by
  intro hKept
  have hFault := (hKept _ (isPlain_page "\x7bx")).1
  revert hFault
  decide +kernel

end Tree
end LinkedMarkup
