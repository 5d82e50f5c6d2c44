import LinkedMarkup.Proofs.Evaluation.Placement
import LinkedMarkup.Proofs.Markup.Nesting

/-
  This file proves that the walk of a tree, which keeps open
  elements on a stack, gives the events of a recursive
  traversal in document order: the tags of an element, its
  text, and after each child the text up to the next one. So
  evaluating a walk never ends for the order of its tags.

  Key definitions include:
    * `Tag.namedAttributes`
    * `Forest.Nameable`
    * `Forest.traversal`
    * `Tree.Nameable`
    * `Tree.traversal`
    * `Walk.pending`

  Main declarations:
    * `Walk.run_eq_pending`
    * `Tree.root_walk_eq`
    * `Tree.walk_is_traversal`
-/

namespace LinkedMarkup

------------------------------------------------------------
-- Recursive traversals
------------------------------------------------------------

/- The attributes that a tag is reported with, if they all have names. -/
def Tag.namedAttributes
    (media : MediaType)
    (outer : Entries)
    (tag : Tag) : Entries :=
  (tag.reportedAttributes media outer).toOption.getD []

namespace Forest

/- Every tag of a forest can be reported where it stands. -/
def Nameable
    (media : MediaType)
    (outer : Entries) :
    Forest → Prop
  | nil => True
  | element tag _ children _ next =>
      (tag.reportedAttributes media outer).isOk = true ∧
        children.Nameable media (tag.scope outer) ∧
        next.Nameable media outer
  | aside _ next => next.Nameable media outer

instance decidableNameable
    (media : MediaType) :
    (outer : Entries) → (forest : Forest) →
      Decidable (forest.Nameable media outer)
  | _, nil => .isTrue trivial
  | outer, element tag _ children _ next =>
      have := decidableNameable media (tag.scope outer) children
      have := decidableNameable media outer next
      inferInstanceAs (Decidable (_ ∧ _ ∧ _))
  | outer, aside _ next => decidableNameable media outer next

/-
  The events of a forest at a depth. Each element is its tags
  around its text and its children, and its tail comes after
  it; of anything else only the tail is left.
-/
def traversal
    (media : MediaType)
    (outer : Entries)
    (depth : Nat) :
    Forest → List Event
  | nil => []
  | element tag text children tail next =>
      let name := tag.reportedName media
      .opened name (tag.namedAttributes media outer) depth ::
        (Walk.textEvent text ++
          (children.traversal media (tag.scope outer) (depth + 1) ++
            .closed name depth ::
              (Walk.textEvent tail ++
                next.traversal media outer depth)))
  | aside tail next =>
      Walk.textEvent tail ++ next.traversal media outer depth

end Forest

namespace Tree

/- Every tag of a tree can be reported where it stands. -/
def Nameable
    (media : MediaType)
    (t : Tree) : Prop :=
  (t.tag.reportedAttributes media []).isOk = true ∧
    t.children.Nameable media (t.tag.scope [])

instance
    (media : MediaType)
    (t : Tree) :
    Decidable (t.Nameable media) :=
  inferInstanceAs (Decidable (_ ∧ _))

/- The events of a tree: its root's tags around what is inside. -/
def traversal
    (media : MediaType)
    (t : Tree) : List Event :=
  let name := t.tag.reportedName media
  .opened name (t.tag.namedAttributes media []) 0 ::
    (Walk.textEvent t.text ++
      (t.children.traversal media (t.tag.scope []) 1 ++
        [.closed name 0]))

end Tree

------------------------------------------------------------
-- Open elements
------------------------------------------------------------

namespace Walk

theorem reportedAttributes_eq_ok
    {media : MediaType}
    {outer : Entries}
    {tag : Tag}
    (h : (tag.reportedAttributes media outer).isOk = true) :
    tag.reportedAttributes media outer =
      .ok (tag.namedAttributes media outer) := by
  unfold Tag.namedAttributes
  cases hAttributes : tag.reportedAttributes media outer with
  | ok attributes => rfl
  | error fault =>
      rw [hAttributes] at h
      cases h

/-
  The events that are still to come for open elements, the
  innermost first: those of the children that are left, the
  end tag, and the tail unless the element is the root.
-/
def pending
    (media : MediaType) :
    List Frame → List Event
  | [] => []
  | f :: rest =>
      f.children.traversal media f.scope (rest.length + 1) ++
        .closed f.name rest.length ::
          ((if rest.isEmpty then [] else textEvent f.tail) ++
            pending media rest)

/- A walk from open elements gives the events still to come. -/
theorem run_eq_pending
    (media : MediaType)
    (frames : List Frame)
    (h : ∀ f ∈ frames, f.children.Nameable media f.scope) :
    Walk.run media frames = ⟨pending media frames, none⟩ := by
  induction frames using Walk.run.induct media with
  | case1 => rw [Walk.run, pending]
  | case2 name scope tail rest ih =>
      rw [Walk.run, ih (fun f hMem => h f (List.mem_cons_of_mem _ hMem))]
      simp [Trace.after, pending, Forest.traversal]
  | case3 name scope gap next tail rest ih =>
      have hFirst := h _ List.mem_cons_self
      have hNext :
          ∀ f ∈ (⟨name, scope, next, tail⟩ : Frame) :: rest,
            f.children.Nameable media f.scope := by
        intro f hMem
        rcases List.mem_cons.mp hMem with rfl | hRest
        · exact hFirst
        · exact h f (List.mem_cons_of_mem _ hRest)
      rw [Walk.run, ih hNext]
      simp [Trace.after, pending, Forest.traversal]
  | case4 name scope tag text children gap next tail rest fault
      hAttributes =>
      have hFirst := (h _ List.mem_cons_self).1
      rw [hAttributes] at hFirst
      cases hFirst
  | case5 name scope tag text children gap next tail rest attributes
      hAttributes inner ih =>
      rcases h _ List.mem_cons_self with ⟨hTag, hChildren, hNext⟩
      have hInside :
          ∀ f ∈ (⟨inner, tag.scope scope, children, gap⟩ : Frame) ::
              ⟨name, scope, next, tail⟩ :: rest,
            f.children.Nameable media f.scope := by
        intro f hMem
        rcases List.mem_cons.mp hMem with rfl | hOuter
        · exact hChildren
        · rcases List.mem_cons.mp hOuter with rfl | hRest
          · exact hNext
          · exact h f (List.mem_cons_of_mem _ hRest)
      have hNamed := reportedAttributes_eq_ok hTag
      rw [hAttributes] at hNamed
      cases hNamed
      rw [Walk.run, hAttributes]
      dsimp only
      rw [ih hInside]
      simp [Trace.after, pending, Forest.traversal, inner]

end Walk

------------------------------------------------------------
-- Trees
------------------------------------------------------------

namespace Tree

/-
  Walking on from the open root gives the traversal, whatever
  tail the root has.
-/
theorem root_walk_eq
    {media : MediaType}
    {t : Tree}
    (h : t.Nameable media)
    (tail : String) :
    (Walk.run media
        [⟨t.tag.reportedName media, t.tag.scope [], t.children,
          tail⟩]).after
      (.opened (t.tag.reportedName media)
          (t.tag.namedAttributes media []) 0 ::
        Walk.textEvent t.text) =
      ⟨t.traversal media, none⟩ := by
  rw [Walk.run_eq_pending media _ (by simpa using h.2)]
  simp [Walk.Trace.after, Walk.pending, traversal]

/-
  The walk of a tree whose tags can all be reported ends and
  gives the recursive traversal, to which the tail of the
  root adds nothing. However it is evaluated, this does not
  end for the order of the tags.
-/
theorem walk_is_traversal
    {media : MediaType}
    {t : Tree}
    (h : t.Nameable media) :
    t.walk media = ⟨t.traversal media, none⟩ ∧
      (∀ tail,
        (Walk.run media
            [⟨t.tag.reportedName media, t.tag.scope [], t.children,
              tail⟩]).after
          (.opened (t.tag.reportedName media)
              (t.tag.namedAttributes media []) 0 ::
            Walk.textEvent t.text) =
          t.walk media) ∧
      ∀ settings base opening fault,
        (Extraction.ofBase settings base opening
            (t.walk media)).fault? = some fault →
          fault.isUnbalanced = false := by
  have hWalk : t.walk media = ⟨t.traversal media, none⟩ := by
    unfold walk
    rw [Walk.reportedAttributes_eq_ok h.1]
    exact root_walk_eq h ""
  refine ⟨hWalk, ?_, ?_⟩
  · intro tail
    rw [hWalk]
    exact root_walk_eq h tail
  · intro settings base opening fault hFault
    have hNested : Event.Nested (t.walk media).events :=
      nested_walk (by rw [hWalk])
    rw [hWalk] at hFault hNested
    exact Extraction.balanced_of_nested hNested hFault

/-
  A list with an item, a comment between two texts, and an
  item in a namespace that its prefix is bound to.
-/
def sample : Tree where
  tag := ⟨⟨none, "ul"⟩, [], []⟩
  text := "a"
  children :=
    .element ⟨⟨none, "Li"⟩, [], [(⟨none, "About"⟩, "#x")]⟩ "b" .nil "c"
      (.aside "d"
        (.element
          ⟨⟨some "http://p/", "li"⟩, [("p", "http://p/")],
            [(⟨some "http://p/", "k"⟩, "v")]⟩
          "" (.aside "e" .nil) "" .nil))

/-
  The events of the sample in XHTML, with what each tail
  belongs to. Names keep their case there.
-/
theorem sample_walk :
    sample.Nameable .xhtml ∧
      sample.walk .xhtml =
        ⟨[.opened "ul" [] 0,
          .text "a",
          .opened "Li" [("About", "#x")] 1,
          .text "b",
          .closed "Li" 1,
          .text "c",
          .text "d",
          .opened "li" [("xmlns:p", "http://p/"), ("p:k", "v")] 1,
          .text "e",
          .closed "li" 1,
          .closed "ul" 0], none⟩ ∧
      ∀ settings base opening fault,
        (Extraction.ofBase settings base opening
            (sample.walk .xhtml)).fault? = some fault →
          fault.isUnbalanced = false := by
  have hNameable : sample.Nameable .xhtml := by decide +kernel
  rcases walk_is_traversal hNameable with ⟨hWalk, _, hBalanced⟩
  exact ⟨hNameable, hWalk.trans (by decide +kernel), hBalanced⟩

end Tree
end LinkedMarkup
