import LinkedMarkup.Markup.Walk
import LinkedMarkup.Proofs.Evaluation.Run

/-
  This file proves that a walk which is not ended early gives
  well-nested events, and that only an attribute which cannot
  be named ends one.

  Key definitions include:
    * `Event.Closes`

  Main declarations:
    * `Walk.closes_run`
    * `Tree.nested_walk`
    * `Tree.fault_of_walk`
-/

namespace LinkedMarkup

------------------------------------------------------------
-- Events that close open elements
------------------------------------------------------------

namespace Event

/- Well-nested events may stand before others. -/
theorem Nested.append
    {first second : List Event}
    (hFirst : Nested first)
    (hSecond : Nested second) :
    Nested (first ++ second) := by
  induction hFirst with
  | nil => exact hSecond
  | text data _ ih => exact .text data ih
  | element name attributes depth depth' hInner _ _ ih =>
      rw [List.cons_append, List.append_assoc]
      exact .element name attributes depth depth' hInner ih

/-
  Events that close open elements of given names, from the
  innermost out, with well-nested events in between.
-/
inductive Closes : List String → List Event → Prop where
  | nil
      {events : List Event}
      (hNested : Nested events) :
      Closes [] events
  | cons
      (name : String)
      (depth : Nat)
      {names : List String}
      {inner rest : List Event}
      (hInner : Nested inner)
      (hRest : Closes names rest) :
      Closes (name :: names) (inner ++ .closed name depth :: rest)

/- Well-nested events may come before the first end tag. -/
theorem Closes.prepend
    {names : List String}
    {first events : List Event}
    (hFirst : Nested first)
    (h : Closes names events) :
    Closes names (first ++ events) := by
  cases h with
  | nil hNested => exact .nil (hFirst.append hNested)
  | cons name depth hInner hRest =>
      rw [← List.append_assoc]
      exact .cons name depth (hFirst.append hInner) hRest

/- A start tag opens one more element than are closed after it. -/
theorem Closes.opened
    {name : String}
    {names : List String}
    {events : List Event}
    (h : Closes (name :: names) events)
    (attributes : Entries)
    (depth : Nat) :
    Closes names (.opened name attributes depth :: events) := by
  cases h with
  | cons name depth' hInner hRest =>
      cases hRest with
      | nil hNested =>
          exact .nil (.element name attributes depth depth' hInner hNested)
      | cons outer depth'' hNext hRest =>
          have hWhole :=
            Closes.cons outer depth''
              (.element name attributes depth depth' hInner hNext) hRest
          rw [List.cons_append, List.append_assoc] at hWhole
          exact hWhole

end Event

------------------------------------------------------------
-- Walks
------------------------------------------------------------

namespace Walk

theorem nested_textEvent
    (text : String) :
    Event.Nested (textEvent text) := by
  unfold textEvent
  split
  · exact .nil
  · exact .text text .nil

/- A walk from open elements closes them. -/
theorem closes_run
    (media : MediaType)
    (frames : List Frame)
    (h : (Walk.run media frames).fault? = none) :
    Event.Closes (frames.map Frame.name)
      (Walk.run media frames).events := by
  induction frames using Walk.run.induct media with
  | case1 => exact .nil (by simpa [Walk.run] using .nil)
  | case2 name scope tail rest ih =>
      rw [Walk.run] at h ⊢
      have hTail :
          Event.Nested
            (if rest.isEmpty then [] else textEvent tail) := by
        split
        · exact .nil
        · exact nested_textEvent tail
      exact .cons name rest.length .nil ((ih h).prepend hTail)
  | case3 name scope gap next tail rest ih =>
      rw [Walk.run] at h ⊢
      exact (ih h).prepend (nested_textEvent gap)
  | case4 name scope tag text children gap next tail rest fault
      hAttributes =>
      rw [Walk.run, hAttributes] at h
      cases h
  | case5 name scope tag text children gap next tail rest attributes
      hAttributes inner ih =>
      rw [Walk.run, hAttributes] at h ⊢
      exact ((ih h).prepend (nested_textEvent text)).opened attributes _

/- A search through a list fails where one of its steps does. -/
theorem exists_error_of_mapM
    {α β : Type}
    {step : α → Except Fault β}
    {values : List α}
    {fault : Fault}
    (h : values.mapM step = .error fault) :
    ∃ a, step a = .error fault := by
  induction values with
  | nil => cases h
  | cons a rest ih =>
      rw [List.mapM_cons] at h
      cases hStep : step a with
      | error cause =>
          rw [hStep] at h
          cases h
          exact ⟨a, hStep⟩
      | ok b =>
          rw [hStep] at h
          cases hRest : rest.mapM step with
          | error cause =>
              rw [hRest] at h
              cases h
              exact ih hRest
          | ok more =>
              rw [hRest] at h
              cases h

/- A tag is only refused for an attribute that has no name. -/
theorem fault_of_reportedAttributes
    {media : MediaType}
    {outer : Entries}
    {tag : Tag}
    {fault : Fault}
    (h : tag.reportedAttributes media outer = .error fault) :
    fault = .attributeName := by
  have hName :
      ∀ name : ExpandedName,
        Tag.attributeName media (tag.scope outer) name = .error fault →
          fault = .attributeName := by
    intro name hError
    unfold Tag.attributeName at hError
    split at hError
    · cases hError
    · cases hError
    · split at hError
      · cases hError
      · cases hError
        rfl
    · cases hError
  unfold Tag.reportedAttributes at h
  generalize hSearch :
    List.mapM (m := Except Fault) _ tag.attributes = found at h
  cases found with
  | ok named => cases h
  | error cause =>
      cases h
      rcases exists_error_of_mapM hSearch with ⟨a, hStep⟩
      cases hOne :
          Tag.attributeName media (tag.scope outer) a.1 with
      | error cause =>
          rw [hOne] at hStep
          cases hStep
          exact hName a.1 hOne
      | ok name =>
          rw [hOne] at hStep
          cases hStep

theorem fault_of_run
    (media : MediaType)
    (frames : List Frame)
    {fault : Fault}
    (h : (Walk.run media frames).fault? = some fault) :
    fault = .attributeName := by
  induction frames using Walk.run.induct media with
  | case1 =>
      rw [Walk.run] at h
      cases h
  | case2 name scope tail rest ih =>
      rw [Walk.run] at h
      exact ih h
  | case3 name scope gap next tail rest ih =>
      rw [Walk.run] at h
      exact ih h
  | case4 name scope tag text children gap next tail rest cause
      hAttributes =>
      rw [Walk.run, hAttributes] at h
      cases h
      exact fault_of_reportedAttributes hAttributes
  | case5 name scope tag text children gap next tail rest attributes
      hAttributes inner ih =>
      rw [Walk.run, hAttributes] at h
      exact ih h

end Walk

------------------------------------------------------------
-- Trees
------------------------------------------------------------

namespace Tree

/- A tree that is walked to its end gives well-nested events. -/
theorem nested_walk
    {media : MediaType}
    {t : Tree}
    (h : (t.walk media).fault? = none) :
    Event.Nested (t.walk media).events := by
  unfold Tree.walk at h ⊢
  cases hAttributes : t.tag.reportedAttributes media [] with
  | error fault =>
      rw [hAttributes] at h
      cases h
  | ok attributes =>
      rw [hAttributes] at h
      have hCloses :=
        ((Walk.closes_run media _ h).prepend
          (Walk.nested_textEvent t.text)).opened attributes 0
      cases hCloses with
      | nil hNested => exact hNested

/- A walk that is ended early met an attribute without a name. -/
theorem fault_of_walk
    {media : MediaType}
    {t : Tree}
    {fault : Fault}
    (h : (t.walk media).fault? = some fault) :
    fault = .attributeName := by
  unfold Tree.walk at h
  cases hAttributes : t.tag.reportedAttributes media [] with
  | error cause =>
      rw [hAttributes] at h
      cases h
      exact Walk.fault_of_reportedAttributes hAttributes
  | ok attributes =>
      rw [hAttributes] at h
      exact Walk.fault_of_run media _ h

end Tree
end LinkedMarkup
