import LinkedMarkup.Markup.Walk
import LinkedMarkup.Proofs.Evaluation.Naming
import LinkedMarkup.Proofs.Text.LowerCase

/-
  This file proves under which names the attributes of a tag
  of HTML are reported. A name is reported in lower case,
  unless it starts with a brace: then what stands in braces is
  taken for a namespace, and a brace that nothing closes is a
  fault.

  Key definitions include:
    * `Tag.IsBraced`
    * `Tag.IsUnclosed`
    * `Tag.TakenAs`
    * `Tag.IsPlain`
    * `Tag.Reports`
    * `Tag.lowered`

  Main declarations:
    * `Tag.attributeName_cases`
    * `Tag.not_takenAs_lower`
    * `Tag.reportedAttributes_iff`
    * `Tag.reports_lowered`
-/

namespace LinkedMarkup

------------------------------------------------------------
-- Lower case
------------------------------------------------------------

namespace Text

theorem lowerChar_ne_nil
    (before : List Char)
    (c : Char)
    (after : List Char) :
    lowerChar before c after ≠ [] := by
  unfold lowerChar
  split_ifs <;> exact List.cons_ne_nil _ _

/- A text in lower case is no shorter. -/
theorem length_le_lowerAfter
    (before cs : List Char) :
    cs.length ≤ (lowerAfter before cs).length := by
  induction cs generalizing before with
  | nil => exact Nat.zero_le _
  | cons c rest ih =>
      have hChar :=
        List.length_pos_iff.mpr (lowerChar_ne_nil before c rest)
      have hRest := ih (c :: before)
      rw [lowerAfter, List.length_append, List.length_cons]
      omega

end Text

------------------------------------------------------------
-- Names of attributes
------------------------------------------------------------

namespace Tag

/- A name that starts with a brace. -/
def IsBraced
    (name : String) : Prop :=
  name.toList.head? = some '\x7b'

/- A name that starts with a brace which nothing closes. -/
def IsUnclosed
    (name : String) : Prop :=
  IsBraced name ∧ '\x7d' ∉ name.toList

/- A name that is made of a text in braces and another one. -/
structure Splits
    (name space part : String) : Prop where
  whole :
    name.toList =
      '\x7b' :: (space.toList ++ '\x7d' :: part.toList)
  closed : '\x7d' ∉ space.toList

/-
  What the name of an attribute of HTML is taken for: itself in
  lower case, or if it starts with a brace what follows the
  braces, marked if these hold the namespace of such marks.
-/
inductive TakenAs
    (name : String) : String → Prop where
  | itself
      (hPlain : ¬ IsBraced name) :
      TakenAs name (Text.lower name)
  | marked
      {part : String}
      (hSplits : Splits name xmlSpace part) :
      TakenAs name ("xml:" ++ part)
  | cut
      {space part : String}
      (hSplits : Splits name space part)
      (hSpace : space ≠ xmlSpace) :
      TakenAs name part

section Names

variable {name space part : String}

/- A name that starts with a brace is split or unclosed. -/
theorem splits_or_isUnclosed
    (h : IsBraced name) :
    (∃ space part, Splits name space part) ∨ IsUnclosed name := by
  rcases List.head?_eq_some_iff.mp h with ⟨rest, hRest⟩
  by_cases hClosed : '\x7d' ∈ rest
  · rcases List.eq_append_cons_of_mem hClosed with
      ⟨space, part, hSplit, hFirst⟩
    refine .inl ⟨String.ofList space, String.ofList part, ?_, ?_⟩
    · rw [hRest, hSplit, String.toList_ofList, String.toList_ofList]
    · rw [String.toList_ofList]
      exact hFirst
  · refine .inr ⟨h, ?_⟩
    rw [hRest, List.mem_cons, not_or]
    exact ⟨by decide, hClosed⟩

theorem attributeName_of_not_isBraced
    (h : ¬ IsBraced name) :
    attributeName .html [] ⟨none, name⟩ = .ok (Text.lower name) := by
  unfold attributeName
  dsimp only
  split
  · cases ‹none = some _›
  · cases ‹MediaType.html = .xhtml›
  · rename_i rest hRest
    exact absurd (by unfold IsBraced; rw [hRest]; rfl) h
  · rfl

theorem attributeName_of_splits
    (h : Splits name space part) :
    attributeName .html [] ⟨none, name⟩ =
      .ok (qualifiedName [] space part) := by
  unfold attributeName
  simp only [h.whole, Text.cutAtChar_append h.closed,
    String.ofList_toList]

theorem attributeName_of_isUnclosed
    (h : IsUnclosed name) :
    attributeName .html [] ⟨none, name⟩ = .error .attributeName := by
  rcases List.head?_eq_some_iff.mp h.1 with ⟨rest, hRest⟩
  have hClosed : '\x7d' ∉ rest := by
    intro hMem
    apply h.2
    rw [hRest]
    exact List.mem_cons_of_mem _ hMem
  unfold attributeName
  simp only [hRest, Text.cutAtChar_of_not_mem hClosed]

theorem takenAs_of_splits
    (h : Splits name space part) :
    TakenAs name (qualifiedName [] space part) := by
  unfold qualifiedName
  by_cases hSpace : space = xmlSpace
  · subst hSpace
    rw [if_pos (by simp)]
    exact .marked h
  · rw [if_neg (by simpa using hSpace)]
    exact .cut h hSpace

/- Every name is taken for another one, or cannot be read. -/
theorem attributeName_cases
    (name : String) :
    (∃ reported,
      TakenAs name reported ∧
        attributeName .html [] ⟨none, name⟩ = .ok reported) ∨
    (IsUnclosed name ∧
      attributeName .html [] ⟨none, name⟩ =
        .error .attributeName) := by
  by_cases hBraced : IsBraced name
  · rcases splits_or_isUnclosed hBraced with
      ⟨space, part, hSplits⟩ | hUnclosed
    · exact .inl
        ⟨_, takenAs_of_splits hSplits, attributeName_of_splits hSplits⟩
    · exact .inr ⟨hUnclosed, attributeName_of_isUnclosed hUnclosed⟩
  · exact .inl
      ⟨_, .itself hBraced, attributeName_of_not_isBraced hBraced⟩

theorem attributeName_of_takenAs
    {reported : String}
    (h : TakenAs name reported) :
    attributeName .html [] ⟨none, name⟩ = .ok reported := by
  cases h with
  | itself hPlain => exact attributeName_of_not_isBraced hPlain
  | marked hSplits => exact attributeName_of_splits hSplits
  | cut hSplits hSpace =>
      rw [attributeName_of_splits hSplits]
      unfold qualifiedName
      rw [if_neg (by simpa using hSpace)]
      rfl

theorem not_takenAs_of_isUnclosed
    (h : IsUnclosed name)
    (reported : String) :
    ¬ TakenAs name reported := by
  intro hTaken
  have hName := attributeName_of_takenAs hTaken
  rw [attributeName_of_isUnclosed h] at hName
  cases hName

/-
  A name that starts with a brace is never taken for itself:
  what is left of it is shorter, or starts otherwise.
-/
theorem not_takenAs_lower
    (h : IsBraced name) :
    ¬ TakenAs name (Text.lower name) := by
  have hShort :
      ∀ {space part : String}, Splits name space part →
        part ≠ Text.lower name := by
    intro space part hSplits hPart
    have hLonger := Text.length_le_lowerAfter [] name.toList
    rw [← Text.lower_toList, ← hPart, hSplits.whole] at hLonger
    simp only [List.length_cons, List.length_append] at hLonger
    omega
  have hFirst : (Text.lower name).toList.head? = some '\x7b' := by
    rcases List.head?_eq_some_iff.mp h with ⟨rest, hRest⟩
    rw [Text.lower_toList, hRest]
    rfl
  intro hTaken
  generalize hLower : Text.lower name = lowered at hTaken hShort hFirst
  cases hTaken with
  | itself hPlain => exact hPlain h
  | marked hSplits =>
      rw [String.toList_append] at hFirst
      cases hFirst
  | cut hSplits hSpace => exact hShort hSplits rfl

end Names

------------------------------------------------------------
-- Attributes of tags
------------------------------------------------------------

/- A tag as in HTML, where nothing is in a namespace. -/
structure IsPlain
    (tag : Tag) : Prop where
  bindings : tag.bindings = []
  spaces : ∀ a ∈ tag.attributes, a.1.space = none

/- An attribute with the name that it is taken for. -/
def IsReported
    (a : ExpandedName × String)
    (entry : String × String) : Prop :=
  TakenAs a.1.part entry.1 ∧ entry.2 = a.2

/-
  What a tag is reported with: its attributes under the names
  they are taken for, later ones in place of earlier ones; or
  a fault, if one of them is unclosed.
-/
inductive Reports
    (tag : Tag) : Except Fault Entries → Prop where
  | named
      {entries : Entries}
      (hNamed : List.Forall₂ IsReported tag.attributes entries) :
      Reports tag (.ok (Entries.ofPairs entries))
  | unclosed
      {a : ExpandedName × String}
      (hMem : a ∈ tag.attributes)
      (hUnclosed : IsUnclosed a.1.part) :
      Reports tag (.error .attributeName)

/- The attributes of a tag under their names in lower case. -/
def lowered
    (tag : Tag) : Entries :=
  Entries.ofPairs
    (tag.attributes.map (fun a => (Text.lower a.1.part, a.2)))

section Attributes

variable {attributes : List (ExpandedName × String)} {tag : Tag}

/- The names of attributes, as the walk looks them up. -/
def reportAttribute
    (a : ExpandedName × String) : Except Fault (String × String) := do
  let name ← attributeName .html [] a.1
  return (name, a.2)

theorem reportedAttributes_of_isPlain
    (h : tag.IsPlain) :
    tag.reportedAttributes .html [] = (do
      let named ← tag.attributes.mapM reportAttribute
      return Entries.ofPairs named) := by
  unfold reportedAttributes reportedBindings scope
  rw [h.bindings]
  rfl

theorem reportAttribute_of_isReported
    {a : ExpandedName × String}
    {entry : String × String}
    (hSpace : a.1.space = none)
    (h : IsReported a entry) :
    reportAttribute a = .ok entry := by
  rcases a with ⟨⟨space, name⟩, value⟩
  rcases entry with ⟨reported, value'⟩
  rcases h with ⟨hTaken, rfl⟩
  dsimp only at hSpace
  subst hSpace
  unfold reportAttribute
  rw [attributeName_of_takenAs hTaken]
  rfl

theorem mapM_reportAttribute_of_named
    {entries : Entries}
    (hSpaces : ∀ a ∈ attributes, a.1.space = none)
    (h : List.Forall₂ IsReported attributes entries) :
    attributes.mapM reportAttribute = .ok entries := by
  induction h with
  | nil => rfl
  | cons hOne _ ih =>
      rw [List.forall_mem_cons] at hSpaces
      rw [List.mapM_cons,
        reportAttribute_of_isReported hSpaces.1 hOne, ih hSpaces.2]
      rfl

theorem mapM_reportAttribute_of_unclosed
    (hSpaces : ∀ a ∈ attributes, a.1.space = none)
    (h : ∃ a ∈ attributes, IsUnclosed a.1.part) :
    attributes.mapM reportAttribute = .error .attributeName := by
  induction attributes with
  | nil => simp at h
  | cons a rest ih =>
      rcases a with ⟨⟨space, name⟩, value⟩
      rw [List.forall_mem_cons] at hSpaces
      dsimp only at hSpaces
      rw [List.mapM_cons]
      unfold reportAttribute
      rw [hSpaces.1]
      rcases attributeName_cases name with
        ⟨reported, hTaken, hName⟩ | ⟨_, hName⟩
      · have hRest : ∃ a ∈ rest, IsUnclosed a.1.part := by
          rcases h with ⟨b, hMem, hUnclosed⟩
          rcases List.mem_cons.mp hMem with rfl | hMem
          · exact absurd hTaken (not_takenAs_of_isUnclosed hUnclosed _)
          · exact ⟨b, hMem, hUnclosed⟩
        have hMore := ih hSpaces.2 hRest
        unfold reportAttribute at hMore
        rw [hName, hMore]
        rfl
      · rw [hName]
        rfl

/- Attributes of which none is unclosed all have names. -/
theorem exists_named
    (h : ∀ a ∈ attributes, ¬ IsUnclosed a.1.part) :
    ∃ entries, List.Forall₂ IsReported attributes entries := by
  induction attributes with
  | nil => exact ⟨[], .nil⟩
  | cons a rest ih =>
      rw [List.forall_mem_cons] at h
      rcases ih h.2 with ⟨entries, hRest⟩
      rcases attributeName_cases a.1.part with
        ⟨reported, hTaken, _⟩ | ⟨hUnclosed, _⟩
      · exact ⟨(reported, a.2) :: entries, .cons ⟨hTaken, rfl⟩ hRest⟩
      · exact absurd hUnclosed h.1

/- What a tag of HTML is reported with. -/
theorem reportedAttributes_iff
    (hPlain : tag.IsPlain)
    (found : Except Fault Entries) :
    tag.reportedAttributes .html [] = found ↔ tag.Reports found := by
  have hReports :
      ∀ found, tag.Reports found →
        tag.reportedAttributes .html [] = found := by
    intro found h
    rw [reportedAttributes_of_isPlain hPlain]
    cases h with
    | named hNamed =>
        rw [mapM_reportAttribute_of_named hPlain.spaces hNamed]
        rfl
    | unclosed hMem hUnclosed =>
        rw [mapM_reportAttribute_of_unclosed hPlain.spaces
          ⟨_, hMem, hUnclosed⟩]
        rfl
  refine ⟨?_, hReports found⟩
  rintro rfl
  by_cases hAll : ∀ a ∈ tag.attributes, ¬ IsUnclosed a.1.part
  · rcases exists_named hAll with ⟨entries, hNamed⟩
    rw [hReports _ (.named hNamed)]
    exact .named hNamed
  · push Not at hAll
    rcases hAll with ⟨a, hMem, hUnclosed⟩
    rw [hReports _ (.unclosed hMem hUnclosed)]
    exact .unclosed hMem hUnclosed

/- Without braces, the names are those in lower case. -/
theorem reports_lowered
    (h : ∀ a ∈ tag.attributes, ¬ IsBraced a.1.part) :
    tag.Reports (.ok tag.lowered) := by
  apply Reports.named
  rw [List.forall₂_map_right_iff, List.forall₂_same]
  intro a hMem
  exact ⟨.itself (h a hMem), rfl⟩

/- Nothing else is reported of the same tag. -/
theorem Reports.unique
    (hPlain : tag.IsPlain)
    {found other : Except Fault Entries}
    (h : tag.Reports found)
    (hOther : tag.Reports other) :
    found = other := by
  rw [← (reportedAttributes_iff hPlain _).mpr h,
    ← (reportedAttributes_iff hPlain _).mpr hOther]

end Attributes

end Tag
end LinkedMarkup
