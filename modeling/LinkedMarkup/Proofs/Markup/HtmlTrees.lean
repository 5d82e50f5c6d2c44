import LinkedMarkup.Markup.Html.Construction
import LinkedMarkup.Proofs.Markup.ReportedNames

/-
  This file proves that the tree of any text that is read as
  HTML has nothing in a namespace, so that what is proved of
  such trees holds of every document.

  Key definitions include:
    * `Unfinished.All`
    * `Html.Construction.All`

  Main declarations:
    * `Unfinished.forall_tags_tree`
    * `Html.Construction.all_read`
    * `Html.isPlain_of_tree?`
-/

namespace LinkedMarkup

------------------------------------------------------------
-- Unfinished elements
------------------------------------------------------------

namespace Unfinished

variable {P : Tag → Prop} {e : Unfinished}

/- All tags of an unfinished element have a property. -/
structure All
    (P : Tag → Prop)
    (e : Unfinished) : Prop where
  tag : P e.tag
  branches :
    ∀ b ∈ e.branches, ∀ t, b.tree? = some t → ∀ tag ∈ t.tags, P tag

theorem forall_tags_foldl
    {branches : List Branch}
    {next : Forest}
    (hNext : ∀ tag ∈ next.tags, P tag)
    (h :
      ∀ b ∈ branches, ∀ t, b.tree? = some t → ∀ tag ∈ t.tags, P tag) :
    ∀ tag ∈ (branches.foldl Branch.before next).tags, P tag := by
  induction branches generalizing next with
  | nil => exact hNext
  | cons b rest ih =>
      rw [List.forall_mem_cons] at h
      apply ih _ h.2
      unfold Branch.before
      cases hTree : b.tree? with
      | none => exact hNext
      | some t =>
          have hTags := h.1 t hTree
          rw [Tree.tags, List.forall_mem_cons] at hTags
          dsimp only
          rw [Forest.tags, List.forall_mem_cons, List.forall_mem_append]
          exact ⟨hTags.1, hTags.2, hNext⟩

/- The tags of an element as it stands are those read so far. -/
theorem forall_tags_tree
    (h : e.All P) :
    ∀ tag ∈ e.tree.tags, P tag := by
  have hNone : ∀ tag ∈ Forest.nil.tags, P tag := by simp [Forest.tags]
  rw [Tree.tags, List.forall_mem_cons]
  exact ⟨h.tag, forall_tags_foldl hNone h.branches⟩

theorem all_start
    {tag : Tag}
    (h : P tag) :
    (start tag).All P :=
  ⟨h, List.forall_mem_nil _⟩

theorem all_addText
    (h : e.All P)
    (data : String) :
    (e.addText data).All P := by
  unfold addText
  cases hBranches : e.branches with
  | nil => exact ⟨h.tag, List.forall_mem_nil _⟩
  | cons b rest =>
      have hAll := h.branches
      rw [hBranches, List.forall_mem_cons] at hAll
      exact ⟨h.tag, List.forall_mem_cons.mpr hAll⟩

theorem all_addAside
    (h : e.All P) :
    e.addAside.All P := by
  refine ⟨h.tag, List.forall_mem_cons.mpr ⟨?_, h.branches⟩⟩
  intro t hTree
  cases hTree

theorem all_addTree
    {t : Tree}
    (h : e.All P)
    (hTree : ∀ tag ∈ t.tags, P tag) :
    (e.addTree t).All P := by
  refine ⟨h.tag, List.forall_mem_cons.mpr ⟨?_, h.branches⟩⟩
  intro t' hSame
  cases hSame
  exact hTree

end Unfinished

------------------------------------------------------------
-- Construction
------------------------------------------------------------

namespace Html
namespace Construction

variable {P : Tag → Prop} {c : Construction}

/- All tags that have been read have a property. -/
structure All
    (P : Tag → Prop)
    (c : Construction) : Prop where
  stack : ∀ e ∈ c.stack, e.All P
  root : ∀ r, c.root? = some r → r.All P

/- A property of all tags that HTML may have. -/
def OfHtml
    (P : Tag → Prop) : Prop :=
  ∀ name (attributes : Entries),
    P ⟨⟨none, name⟩, [], attributes.map (fun a => (⟨none, a.1⟩, a.2))⟩

theorem all_push
    (hP : OfHtml P)
    (h : c.All P)
    (name : String)
    (attributes : Entries) :
    (push name attributes c).All P where
  stack :=
    List.forall_mem_cons.mpr
      ⟨Unfinished.all_start (hP name attributes), h.stack⟩
  root := h.root

theorem all_keepOuter
    (h : c.All P)
    {e : Unfinished}
    (hElement : e.All P) :
    (keepOuter e c).All P := by
  unfold keepOuter
  cases hRoot : c.root? with
  | none =>
      refine ⟨h.stack, ?_⟩
      rintro r ⟨⟩
      exact hElement
  | some r =>
      dsimp only
      split
      · refine ⟨h.stack, ?_⟩
        rintro r' ⟨⟩
        exact
          Unfinished.all_addTree (h.root r hRoot)
            (Unfinished.forall_tags_tree hElement)
      · exact h

theorem all_pop
    (h : c.All P) :
    (pop c).All P := by
  unfold pop
  have hStack := h.stack
  cases hElements : c.stack with
  | nil => exact h
  | cons e rest =>
      rw [hElements, List.forall_mem_cons] at hStack
      cases rest with
      | nil =>
          exact ⟨by simp, (all_keepOuter h hStack.1).root⟩
      | cons p rest =>
          rw [List.forall_mem_cons] at hStack
          have hTags := Unfinished.forall_tags_tree hStack.1
          exact
            ⟨List.forall_mem_cons.mpr
              ⟨Unfinished.all_addTree hStack.2.1 hTags, hStack.2.2⟩,
              h.root⟩

theorem all_popMany
    (h : c.All P)
    (n : Nat) :
    (popMany n c).All P := by
  induction n generalizing c with
  | zero => exact h
  | succ n ih => exact ih (all_pop h)

theorem all_supply
    (hP : OfHtml P)
    (h : c.All P)
    (new : String) :
    (supply new c).All P := by
  have hRoot : (supplyRoot c).All P := by
    unfold supplyRoot
    split
    · exact all_push hP h "html" []
    · exact h
  unfold supply supplyPart
  split_ifs
  all_goals first
    | exact h
    | exact hRoot
    | exact all_push hP hRoot _ []

theorem all_prepare
    (hP : OfHtml P)
    (h : c.All P)
    (new : String) :
    (prepare new c).All P :=
  all_supply hP (all_popMany h _) new

theorem all_openTag
    (hP : OfHtml P)
    (h : c.All P)
    (name : String)
    (attributes : Entries)
    (closes : Bool) :
    (openTag name attributes closes c).All P := by
  have hReady := all_prepare hP h name
  have hOpened := all_push hP hReady name attributes
  have hIgnoring :
      ∀ n, ({ prepare name c with ignored := n } : Construction).All P :=
    fun _ => ⟨hReady.stack, hReady.root⟩
  unfold openTag
  dsimp only
  split_ifs
  · exact all_pop (hIgnoring _)
  · exact hIgnoring _
  · exact all_pop hOpened
  · exact hOpened

theorem all_closeTag
    (h : c.All P)
    (name : String) :
    (closeTag name c).All P := by
  unfold closeTag
  dsimp only
  split_ifs
  · exact ⟨h.stack, h.root⟩
  · exact h
  · exact all_popMany h _

theorem all_append
    (h : c.All P)
    (data : List Char) :
    (append data c).All P := by
  unfold append
  have hStack := h.stack
  cases hElements : c.stack with
  | nil => exact h
  | cons e rest =>
      rw [hElements, List.forall_mem_cons] at hStack
      exact
        ⟨List.forall_mem_cons.mpr
          ⟨Unfinished.all_addText hStack.1 _, hStack.2⟩, h.root⟩

theorem all_addText
    (hP : OfHtml P)
    (h : c.All P)
    (data : List Char) :
    (addText data c).All P := by
  have hSpaced := all_append h (data.takeWhile isSpace)
  have hReady :
      (prepareText (append (data.takeWhile isSpace) c)).All P := by
    unfold prepareText
    split
    · exact all_prepare hP hSpaced "p"
    · exact all_supply hP hSpaced "p"
  unfold addText
  split
  · dsimp only
    split
    · exact hSpaced
    · exact all_append hReady _
  · exact all_append h data

theorem all_addAside
    (h : c.All P) :
    (addAside c).All P := by
  unfold addAside
  have hStack := h.stack
  cases hElements : c.stack with
  | nil =>
      dsimp only
      split
      · exact ⟨List.forall_mem_nil _, h.root⟩
      · exact h
  | cons e rest =>
      rw [hElements, List.forall_mem_cons] at hStack
      exact
        ⟨List.forall_mem_cons.mpr
          ⟨Unfinished.all_addAside hStack.1, hStack.2⟩, h.root⟩

/- Reading a token adds no tag but one of HTML. -/
theorem all_read
    (hP : OfHtml P)
    (h : c.All P)
    (token : Token) :
    (read c token).All P := by
  cases token with
  | opened name attributes closes =>
      exact all_openTag hP h name attributes closes
  | broken name => exact all_prepare hP h name
  | closed name => exact all_closeTag h name
  | text data => exact all_addText hP h data.toList
  | aside => exact all_addAside h
  | documentType => exact ⟨h.stack, h.root⟩

theorem all_foldl_read
    (hP : OfHtml P)
    (h : c.All P)
    (tokens : List Token) :
    (tokens.foldl read c).All P := by
  induction tokens generalizing c with
  | nil => exact h
  | cons token rest ih => exact ih (all_read hP h token)

end Construction

open Construction

/- All tags of a document have what any tag of HTML has. -/
theorem forall_tags_of_tree?
    {P : Tag → Prop}
    (hP : OfHtml P)
    {cs : List Char}
    {t : Tree}
    (h : tree? cs = some t) :
    ∀ tag ∈ t.tags, P tag := by
  have hStart : Construction.start.All P :=
    ⟨by simp [Construction.start], by simp [Construction.start]⟩
  rcases Option.map_eq_some_iff.mp h with ⟨r, hRoot, rfl⟩
  have hRead := all_foldl_read hP hStart (tokens cs)
  exact
    Unfinished.forall_tags_tree ((all_popMany hRead _).root r hRoot)

/- The tree of any document has nothing in a namespace. -/
theorem isPlain_of_tree?
    {cs : List Char}
    {t : Tree}
    (h : tree? cs = some t) :
    t.IsPlain := by
  refine forall_tags_of_tree? ?_ h
  intro name attributes
  refine ⟨rfl, ?_⟩
  intro a hMem
  rcases List.mem_map.mp hMem with ⟨entry, _, rfl⟩
  rfl

end Html
end LinkedMarkup
