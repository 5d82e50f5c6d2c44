import LinkedMarkup.Proofs.Markup.Traversal

/-
  This file proves what the walk of any tree gives, whether
  its tags can be reported or not: the traces of its parts one
  after the other, up to the first tag that cannot.

  Key definitions include:
    * `Walk.Trace.andThen`
    * `Forest.trace`
    * `Tree.trace`
    * `Walk.pendingTrace`
    * `Forest.tags`
    * `Tree.tags`

  Main declarations:
    * `Walk.run_eq_pendingTrace`
    * `Tree.walk_eq_trace`
    * `Tree.fault?_walk_eq_none_iff`
    * `Tree.walk_eq_traversal`
-/

namespace LinkedMarkup

------------------------------------------------------------
-- Traces one after the other
------------------------------------------------------------

namespace Walk
namespace Trace

/- A trace and the one after it, unless a fault ended the first. -/
def andThen
    (first next : Trace) : Trace :=
  match first.fault? with
  | some _ => first
  | none => next.after first.events

theorem after_andThen
    (first : List Event)
    (t next : Trace) :
    (t.andThen next).after first = (t.after first).andThen next := by
  rcases t with ⟨events, fault?⟩
  cases fault? with
  | none => simp [andThen, after]
  | some fault => rfl

theorem andThen_assoc
    (t next last : Trace) :
    (t.andThen next).andThen last = t.andThen (next.andThen last) := by
  rcases t with ⟨events, fault?⟩
  cases fault? with
  | none => exact (after_andThen events next last).symm
  | some fault => rfl

theorem nil_andThen
    (next : Trace) :
    andThen ⟨[], none⟩ next = next := rfl

theorem fault?_andThen_eq_none_iff
    (t next : Trace) :
    (t.andThen next).fault? = none ↔
      t.fault? = none ∧ next.fault? = none := by
  rcases t with ⟨events, fault?⟩
  cases fault? with
  | none => simp [andThen, after]
  | some fault => simp [andThen]

end Trace
end Walk

------------------------------------------------------------
-- Traces of trees
------------------------------------------------------------

open Walk (Trace)

namespace Forest

/-
  The trace of a forest at a depth: for an element that of its
  tags around its text and its children, and its tail after
  it. A tag that cannot be reported ends it.
-/
def trace
    (media : MediaType)
    (outer : Entries)
    (depth : Nat) :
    Forest → Trace
  | nil => ⟨[], none⟩
  | element tag text children tail next =>
      match tag.reportedAttributes media outer with
      | .error fault => ⟨[], some fault⟩
      | .ok attributes =>
          let name := tag.reportedName media
          ((children.trace media (tag.scope outer) (depth + 1)).andThen
              ((next.trace media outer depth).after
                (.closed name depth :: Walk.textEvent tail))).after
            (.opened name attributes depth :: Walk.textEvent text)
  | aside tail next =>
      (next.trace media outer depth).after (Walk.textEvent tail)

/- The tags of a forest, in document order. -/
def tags :
    Forest → List Tag
  | nil => []
  | element tag _ children _ next => tag :: (children.tags ++ next.tags)
  | aside _ next => next.tags

theorem fault?_trace_eq_none_iff
    (media : MediaType)
    (outer : Entries)
    (depth : Nat)
    (forest : Forest) :
    (forest.trace media outer depth).fault? = none ↔
      forest.Nameable media outer := by
  induction forest generalizing outer depth with
  | nil => simp [trace, Nameable]
  | element tag text children tail next ihChildren ihNext =>
      rw [trace, Nameable]
      cases tag.reportedAttributes media outer with
      | error fault => simp [Except.isOk, Except.toBool]
      | ok attributes =>
          simp [Trace.after, Trace.fault?_andThen_eq_none_iff,
            ihChildren, ihNext, Except.isOk, Except.toBool]
  | aside tail next ih =>
      rw [trace, Nameable]
      exact ih outer depth

end Forest

namespace Tree

/- The trace of a tree: its root's tags around what is inside. -/
def trace
    (media : MediaType)
    (t : Tree) : Trace :=
  match t.tag.reportedAttributes media [] with
  | .error fault => ⟨[], some fault⟩
  | .ok attributes =>
      let name := t.tag.reportedName media
      ((t.children.trace media (t.tag.scope []) 1).andThen
          ⟨[.closed name 0], none⟩).after
        (.opened name attributes 0 :: Walk.textEvent t.text)

/- The tags of a tree, in document order. -/
def tags
    (t : Tree) : List Tag :=
  t.tag :: t.children.tags

end Tree

------------------------------------------------------------
-- Walks
------------------------------------------------------------

namespace Walk

/-
  The trace that is still to come for open elements, the
  innermost first: that of the children that are left, the end
  tag, and the tail unless the element is the root.
-/
def pendingTrace
    (media : MediaType) :
    List Frame → Trace
  | [] => ⟨[], none⟩
  | f :: rest =>
      (f.children.trace media f.scope (rest.length + 1)).andThen
        ((pendingTrace media rest).after
          (.closed f.name rest.length ::
            if rest.isEmpty then [] else textEvent f.tail))

/- A walk from open elements gives the trace still to come. -/
theorem run_eq_pendingTrace
    (media : MediaType)
    (frames : List Frame) :
    Walk.run media frames = pendingTrace media frames := by
  induction frames using Walk.run.induct media with
  | case1 => rw [Walk.run, pendingTrace]
  | case2 name scope tail rest ih =>
      rw [Walk.run, ih, pendingTrace, Forest.trace, Trace.nil_andThen]
  | case3 name scope gap next tail rest ih =>
      rw [Walk.run, ih]
      simp only [pendingTrace, Forest.trace, Trace.after_andThen]
  | case4 name scope tag text children gap next tail rest fault
      hAttributes =>
      rw [Walk.run, hAttributes]
      simp only [pendingTrace, Forest.trace, hAttributes]
      rfl
  | case5 name scope tag text children gap next tail rest attributes
      hAttributes inner ih =>
      rw [Walk.run, hAttributes]
      dsimp only
      rw [ih]
      simp only [pendingTrace, Forest.trace, hAttributes, inner,
        List.length_cons, List.isEmpty_cons, Trace.after_andThen,
        Trace.andThen_assoc]
      rfl

end Walk

namespace Tree

/- The walk of a tree, whatever its tags are, gives its trace. -/
theorem walk_eq_trace
    (media : MediaType)
    (t : Tree) :
    t.walk media = t.trace media := by
  unfold walk trace
  cases t.tag.reportedAttributes media [] with
  | error fault => rfl
  | ok attributes =>
      dsimp only
      rw [Walk.run_eq_pendingTrace]
      rfl

/- A walk ends early exactly if some tag cannot be reported. -/
theorem fault?_walk_eq_none_iff
    (media : MediaType)
    (t : Tree) :
    (t.walk media).fault? = none ↔ t.Nameable media := by
  rw [walk_eq_trace]
  unfold trace Nameable
  cases t.tag.reportedAttributes media [] with
  | error fault => simp [Except.isOk, Except.toBool]
  | ok attributes =>
      simp [Trace.after, Trace.fault?_andThen_eq_none_iff,
        Forest.fault?_trace_eq_none_iff, Except.isOk, Except.toBool]

/- Without a tag that cannot be reported it is the traversal. -/
theorem walk_eq_traversal
    {media : MediaType}
    {t : Tree}
    (h : t.Nameable media) :
    t.walk media = ⟨t.traversal media, none⟩ := by
  unfold walk
  rw [Walk.reportedAttributes_eq_ok h.1]
  exact root_walk_eq h ""

end Tree
end LinkedMarkup
