import LinkedMarkup.Proofs.Evaluation.Resources

/-
  This file proves how the labels of a document are read: a
  value of `about` or `resource` that is a label, in brackets
  or not, stands for the node of that label, which a supply
  keeps from then on.

  Key definitions include:
    * `WritesLabel`
    * `Evaluation.ReadsLabel`
    * `Evaluation.Named.ReadsLabels`

  Main declarations:
    * `Resolution.resource_of_label`
    * `Evaluation.readTag_labels`
-/

namespace LinkedMarkup

/- A value that is a label: as a compact name, or in brackets. -/
inductive WritesLabel
    (value label : String) : Prop where
  | plain (h : Text.trim value = "_:" ++ label)
  | bracketed (h : Text.trim value = "[_:" ++ label ++ "]")

namespace Resolution

open Work

------------------------------------------------------------
-- Values that are labels
------------------------------------------------------------

theorem compactName_of_label
    (scope : Scope)
    (label : String) :
    compactName scope ("_:" ++ label) =
      (labelledNode label >>= fun b => pure (some (.blank b))) := by
  have hToken : Token.Compact ("_:" ++ label) "_" label :=
    ⟨rfl, by decide⟩
  unfold compactName
  rw [hToken.cut]
  simp only [String.ofList_toList, beq_self_eq_true, if_true]
  rfl

/- In either form a label is looked up in the supply. -/
theorem resource_of_label
    {value label : String}
    (h : WritesLabel value label)
    (scope : Scope) :
    resource scope value =
      (labelledNode label >>= fun b => pure (some (.blank b))) := by
  cases h with
  | plain h =>
      have hOpen : bracketed? (Text.trim value).toList = none := by
        rw [h, String.toList_append]
        rfl
      rw [resource_of_unbracketed hOpen, h, compactName_of_label]
      rfl
  | bracketed h =>
      have hChars :
          ("[_:" ++ label ++ "]").toList =
            '[' :: (("_:" ++ label).toList ++ [']']) := by
        simp
      have hInside :
          bracketed? (Text.trim value).toList =
            some ("_:" ++ label) := by
        rw [h, hChars, bracketed?, List.getLast?_concat,
          if_pos (by decide), List.dropLast_concat,
          String.ofList_toList]
      rw [resource_of_bracketed hInside, compactName_of_label]

end Resolution

namespace Evaluation

open Work

------------------------------------------------------------
-- Attributes that are labels
------------------------------------------------------------

/-
  What an attribute names, if its value is a label: the node
  that the label has in a supply.
-/
def ReadsLabel
    (labels : NodeSupply)
    (attributes : Entries)
    (key : String)
    (found : Option Subject) : Prop :=
  ∀ value label,
    attributes.get? key = some value →
      WritesLabel value label →
        ∃ i,
          labels.number? label = some i ∧
            found = some (.blank (NodeSupply.node i))

/- Supplies that go on keep the nodes of labels. -/
theorem ReadsLabel.mono
    {labels later : NodeSupply}
    {attributes : Entries}
    {key : String}
    {found : Option Subject}
    (h : ReadsLabel labels attributes key found)
    (hLater : labels.Extends later) :
    ReadsLabel later attributes key found := by
  intro value label hValue hWrites
  rcases h value label hValue hWrites with ⟨i, hNumber, hFound⟩
  exact ⟨i, hLater.kept label i hNumber, hFound⟩

/- An attribute that names nothing is no label. -/
theorem ReadsLabel.of_none
    {labels : NodeSupply}
    {attributes : Entries}
    {key : String}
    (h : ReadsLabel labels attributes key none)
    (later : NodeSupply)
    (found : Option Subject) :
    ReadsLabel later attributes key found := by
  intro value label hValue hWrites
  rcases h value label hValue hWrites with ⟨i, _, hFound⟩
  cases hFound

/- Both attributes that may be labels, as they are read. -/
structure Named.ReadsLabels
    (n : Named)
    (labels : NodeSupply)
    (attributes : Entries) : Prop where
  about : ReadsLabel labels attributes "about" n.about
  resource : ReadsLabel labels attributes "resource" n.resource

theorem Named.ReadsLabels.mono
    {n : Named}
    {labels later : NodeSupply}
    {attributes : Entries}
    (h : n.ReadsLabels labels attributes)
    (hLater : labels.Extends later) :
    n.ReadsLabels later attributes :=
  ⟨h.about.mono hLater, h.resource.mono hLater⟩

theorem namedResource_labels
    (scope : Scope)
    (attributes : Entries)
    (key : String)
    (s : Session) :
    (namedResource scope attributes key).Ensures s
      (fun found t => ReadsLabel t.supply attributes key found) := by
  intro found t hRun value label hValue hWrites
  unfold namedResource at hRun
  simp only [hValue] at hRun
  rw [Resolution.resource_of_label hWrites] at hRun
  cases hRun
  rcases s.supply.number?_labelled label with ⟨i, hNode, hNumber⟩
  exact ⟨i, hNumber, by rw [hNode]⟩

/- What stands in for `about` only does so where it is no label. -/
theorem readAbout_labels
    (settings : Settings)
    (parent scope : Scope)
    (isRoot : Bool)
    (name : String)
    (attributes : Entries)
    (s : Session) :
    (readAbout settings parent scope isRoot name attributes).Ensures s
      (fun about t =>
        ReadsLabel t.supply attributes "about" about) := by
  refine (namedResource_labels scope attributes "about" s).bind ?_
  intro given m hGiven
  cases given with
  | some node => exact ensures_pure hGiven
  | none => exact fun about t _ => hGiven.of_none t.supply about

theorem readNamed_labels
    (settings : Settings)
    (parent scope : Scope)
    (isRoot : Bool)
    (name : String)
    (attributes : Entries)
    (s : Session) :
    (readNamed settings parent scope isRoot name attributes).Ensures s
      (fun named t => named.ReadsLabels t.supply attributes) := by
  unfold readNamed
  refine (readAbout_labels settings parent scope isRoot name
    attributes s).bind ?_
  intro about s₁ hAbout
  refine ((namedResource_reads scope attributes "resource" s₁).and
    (namedResource_labels scope attributes "resource" s₁)).bind ?_
  rintro resource s₂ ⟨⟨h₂, _⟩, hResource⟩
  refine (namedIri_reads scope attributes "href" s₂).bind ?_
  rintro href s₃ ⟨h₃, _⟩
  refine (namedIri_reads scope attributes "src" s₃).bind ?_
  rintro src s₄ ⟨h₄, _⟩
  apply ensures_pure
  have hLast := h₃.trans h₄
  exact
    ⟨hAbout.mono (h₂.trans hLast).supply,
      hResource.mono hLast.supply⟩

------------------------------------------------------------
-- Start tags
------------------------------------------------------------

theorem roles_advances
    (parent : Scope)
    (named : Named)
    (hasRelations hasProperty isTyped isBare : Bool) :
    (roles parent named hasRelations hasProperty isTyped
      isBare).Advances :=
  advances_of_coupled (fun s =>
    Coupling.roles_coupled (Coupling.keeping_sound (keeps_precedes s))
      (scopesMatch_precedes s parent) (Coupling.namedMatch_self named)
      hasRelations hasProperty isTyped isBare)

/- What a start tag names is read before anything is stated. -/
theorem readTag_labels
    (settings : Settings)
    (parent : Scope)
    (isRoot : Bool)
    (name : String)
    (attributes : Entries)
    (s : Session) :
    (readTag settings parent isRoot name attributes).Ensures s
      (fun tag t => tag.named.ReadsLabels t.supply attributes) := by
  unfold readTag
  refine ensures_bind (fun scope s₁ => ?_)
  refine ensures_bind (fun rel s₂ => ?_)
  refine ensures_bind (fun rev s₃ => ?_)
  refine (readNamed_labels settings parent scope isRoot name attributes
    s₃).bind ?_
  intro named s₄ hNamed
  refine (roles_advances parent named _ _ _ _ s₄).bind ?_
  intro parts s₅ h₅
  refine (stateTypes_advances scope attributes parts.typed s₅).bind ?_
  intro _ s₆ h₆
  exact ensures_pure (hNamed.mono (h₅.trans h₆).supply)

end Evaluation
end LinkedMarkup
