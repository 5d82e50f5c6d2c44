import LinkedMarkup.Proofs.Evaluation.Environment
import LinkedMarkup.Proofs.Prefixes.Search
import LinkedMarkup.Proofs.Text.LowerCase

/-
  This file proves that names are declared as they are
  written. However blanks are put between them, the pairs that
  the attribute for many names is written from are the ones
  that are found in it, and an element maps each name to what
  the last of them gives it, or else to what an attribute for
  that name alone does.

  Key definitions include:
    * `Prefixes.IsPlainName`
    * `Prefixes.Written`
    * `Prefixes.lowered`

  Main declarations:
    * `Entries.get?_merge_reverse`
    * `Prefixes.pairs_of_written`
    * `Prefixes.declared_as_written`
-/

namespace LinkedMarkup

------------------------------------------------------------
-- The last entry of a key
------------------------------------------------------------

namespace Entries

/- Of entries that are added, the last one of a key counts. -/
theorem get?_merge_reverse
    (entries more : Entries)
    (key : String) :
    get? (merge entries more) key =
      (get? more.reverse key).or (get? entries key) := by
  unfold merge
  induction more generalizing entries with
  | nil => rfl
  | cons entry rest ih =>
      rw [List.foldl_cons, ih, List.reverse_cons, get?_append, get?_set,
        Option.or_assoc]
      congr 1
      rcases entry with ⟨k, v⟩
      by_cases hKey : k = key <;> simp [get?, hKey]

/- A key has no value where its entries are left out. -/
theorem get?_filter_of_neg
    {p : String → Bool}
    {key : String}
    (h : p key = false)
    (entries : Entries) :
    get? (entries.filter (fun entry => p entry.1)) key = none := by
  rw [Option.eq_none_iff_forall_ne_some]
  intro value hValue
  have hMem := List.mem_filter.mp (mem_of_get? hValue)
  rw [h] at hMem
  cases hMem.2

end Entries

namespace Prefixes

open Text (IsWord IsGap EndsWord Spaced)

------------------------------------------------------------
-- Plain names
------------------------------------------------------------

/- A first character of names, and others that names may have. -/
structure IsPlainName
    (name : List Char) : Prop where
  start : ∃ c rest, name = c :: rest ∧ isNameStart c = true
  chars : ∀ c ∈ name, isNameChar c = true

theorem isPlainName_iff
    {name : List Char} :
    IsPlainName name ↔
      name.head?.any isNameStart = true ∧
        name.all isNameChar = true := by
  rw [List.all_eq_true]
  cases name with
  | nil =>
      constructor
      · rintro ⟨⟨c, rest, hName, _⟩, _⟩
        cases hName
      · intro h
        cases h.1
  | cons c rest =>
      constructor
      · rintro ⟨⟨d, tail, hName, hStart⟩, hChars⟩
        cases hName
        exact ⟨hStart, hChars⟩
      · exact fun h => ⟨⟨c, rest, rfl, h.1⟩, h.2⟩

instance
    (name : List Char) :
    Decidable (IsPlainName name) :=
  decidable_of_iff _ isPlainName_iff.symm

theorem toNat_lt_of_isNameChar
    {c : Char}
    (h : isNameChar c = true) :
    c.toNat < 128 := by
  simp only [isNameChar, isNameStart, Text.isAsciiLetter,
    Text.isAsciiDigit, Bool.or_eq_true, Bool.and_eq_true,
    decide_eq_true_eq, beq_iff_eq, Char.le_def,
    UInt32.le_iff_toNat_le] at h
  rcases h with
    ((((⟨_, hMax⟩ | ⟨_, hMax⟩) | rfl) | ⟨_, hMax⟩) | rfl) | rfl
  · exact Nat.lt_of_le_of_lt hMax (by decide)
  · exact Nat.lt_of_le_of_lt hMax (by decide)
  · decide
  · exact Nat.lt_of_le_of_lt hMax (by decide)
  · decide
  · decide

theorem isNameChar_of_isNameStart
    {c : Char}
    (h : isNameStart c = true) :
    isNameChar c = true := by
  unfold isNameChar
  rw [h]
  rfl

section Characters

variable {c : Char}

theorem isBlank_of_isNameChar
    (h : isNameChar c = true) :
    Text.isBlank c = false :=
  Text.forall_ascii
    (P := fun c => isNameChar c = true → Text.isBlank c = false)
    (by decide +kernel) (toNat_lt_of_isNameChar h) h

/- Names may have letters in either case. -/
theorem isNameChar_lower
    (h : c.toNat < 128) :
    isNameChar (Text.asciiLowerChar c) = isNameChar c :=
  Text.forall_ascii
    (P := fun c => isNameChar (Text.asciiLowerChar c) = isNameChar c)
    (by decide +kernel) h

theorem isNameStart_lower
    (h : c.toNat < 128) :
    isNameStart (Text.asciiLowerChar c) = isNameStart c :=
  Text.forall_ascii
    (P := fun c => isNameStart (Text.asciiLowerChar c) = isNameStart c)
    (by decide +kernel) h

end Characters

theorem IsPlainName.isWord
    {name : List Char}
    (h : IsPlainName name) :
    IsWord name := by
  rcases h.start with ⟨c, rest, hName, _⟩
  exact ⟨by simp [hName], fun d hMem =>
    isBlank_of_isNameChar (h.chars d hMem)⟩

/- A name is a plain one, or a plain one and a line end. -/
theorem isName_iff
    {cs : List Char} :
    isName cs = true ↔
      IsPlainName cs ∨ ∃ name, IsPlainName name ∧ cs = name ++ ['\n'] := by
  constructor
  · intro h
    cases cs with
    | nil => cases h
    | cons c rest =>
        rw [isName, Bool.and_eq_true] at h
        rcases h with ⟨hStart, hTail⟩
        have hPlain :
            IsPlainName (c :: rest.takeWhile isNameChar) := by
          refine ⟨⟨c, _, rfl, hStart⟩, List.forall_mem_cons.mpr ⟨?_, ?_⟩⟩
          · exact isNameChar_of_isNameStart hStart
          · exact fun d => List.mem_takeWhile_imp
        have hWhole := List.takeWhile_append_dropWhile (p := isNameChar)
          (l := rest)
        cases hDrop : rest.dropWhile isNameChar with
        | nil =>
            rw [hDrop, List.append_nil] at hWhole
            rw [hWhole] at hPlain
            exact .inl hPlain
        | cons d tail =>
            rw [hDrop] at hTail hWhole
            rw [beq_iff_eq.mp hTail] at hWhole
            refine .inr ⟨_, hPlain, ?_⟩
            rw [List.cons_append, hWhole]
  · rintro (hPlain | ⟨name, hPlain, rfl⟩)
    · rcases hPlain.start with ⟨c, rest, rfl, hStart⟩
      have hDrop : rest.dropWhile isNameChar = [] :=
        List.dropWhile_eq_nil_iff.mpr
          (fun d hMem => hPlain.chars d (List.mem_cons_of_mem _ hMem))
      rw [isName, hDrop, hStart]
      rfl
    · rcases hPlain.start with ⟨c, rest, rfl, hStart⟩
      have hDrop : (rest ++ ['\n']).dropWhile isNameChar = ['\n'] := by
        rw [List.dropWhile_append_of_pos
          (fun d hMem => hPlain.chars d (List.mem_cons_of_mem _ hMem))]
        rfl
      rw [List.cons_append, isName, hDrop, hStart]
      rfl

/- Plain names stay so in lower case. -/
theorem IsPlainName.map_lower
    {name : List Char}
    (h : IsPlainName name) :
    IsPlainName (name.map Text.asciiLowerChar) := by
  rcases h.start with ⟨c, rest, rfl, hStart⟩
  have hAscii :=
    toNat_lt_of_isNameChar (isNameChar_of_isNameStart hStart)
  refine ⟨⟨_, _, rfl, (isNameStart_lower hAscii).trans hStart⟩, ?_⟩
  intro d hMem
  rcases List.mem_map.mp hMem with ⟨e, hE, rfl⟩
  have hChar := h.chars e hE
  rw [isNameChar_lower (toNat_lt_of_isNameChar hChar), hChar]

theorem IsPlainName.lower
    {name : String}
    (h : IsPlainName name.toList) :
    IsPlainName (Text.lower name).toList := by
  rw [Text.lower_of_ascii
    (fun c hMem => toNat_lt_of_isNameChar (h.chars c hMem))]
  exact h.map_lower

theorem IsPlainName.isName
    {name : List Char}
    (h : IsPlainName name) :
    isName name = true :=
  isName_iff.mpr (.inl h)

------------------------------------------------------------
-- Written pairs
------------------------------------------------------------

/-
  Characters that pairs are written as: a plain name with a
  colon, at least one blank, and a start that has no blanks
  but may have colons anywhere. At least one blank is between
  pairs, any may be before the first and after the last.
-/
inductive Written :
    List (String × String) → List Char → Prop where
  | blank
      {cs : List Char}
      (hBlanks : ∀ c ∈ cs, Text.isBlank c = true) :
      Written [] cs
  | pair
      {before gap rest : List Char}
      {name start : String}
      {pairs : List (String × String)}
      (hBefore : ∀ c ∈ before, Text.isBlank c = true)
      (hName : IsPlainName name.toList)
      (hGap : IsGap gap)
      (hStart : IsWord start.toList)
      (hEnds : EndsWord rest)
      (hRest : Written pairs rest) :
      Written ((name, start) :: pairs)
        (before ++
          (name.toList ++ [':'] ++ (gap ++ (start.toList ++ rest))))

/- The words of a pair: its name with a colon, and its start. -/
def wordsOf
    (pair : String × String) : List (List Char) :=
  [pair.1.toList ++ [':'], pair.2.toList]

section Pairs

variable {pairs : List (String × String)} {cs : List Char}

theorem Written.spaced
    (h : Written pairs cs) :
    Spaced (pairs.flatMap wordsOf) cs := by
  induction h with
  | blank hBlanks => exact .blank hBlanks
  | pair hBefore hName hGap hStart hEnds _ ih =>
      exact .word hBefore (isWord_concat_colon hName.isWord)
        (hGap.endsWord _) (.word hGap.blanks hStart hEnds ih)

theorem Written.isPlainName
    (h : Written pairs cs)
    {pair : String × String}
    (hMem : pair ∈ pairs) :
    IsPlainName pair.1.toList := by
  induction h with
  | blank _ => cases hMem
  | pair _ hName _ _ _ _ ih =>
      rcases List.mem_cons.mp hMem with rfl | hLater
      · exact hName
      · exact ih hLater

/- The pairs among words are those that are written. -/
theorem pairs_of_written
    {value : String}
    (h : Written pairs value.toList) :
    Prefixes.pairs (Text.words value) = pairs := by
  rw [Text.words_eq_of_spaced h.spaced]
  have hNames : ∀ pair ∈ pairs, IsPlainName pair.1.toList :=
    fun pair => h.isPlainName
  clear h
  induction pairs with
  | nil => rfl
  | cons pair rest ih =>
      rcases List.forall_mem_cons.mp hNames with ⟨hName, hRest⟩
      rw [List.flatMap_cons, List.map_append, wordsOf, List.map_cons,
        List.map_cons, List.map_nil, List.cons_append, List.cons_append,
        List.nil_append, pairs_of_opens hName.isWord, ih hRest,
        String.ofList_toList, String.ofList_toList]

end Pairs

------------------------------------------------------------
-- Declared maps
------------------------------------------------------------

/- A pair with its name in lower case. -/
def lowered
    (pair : String × String) : String × String :=
  (Text.lower pair.1, pair.2)

theorem not_isMappable_underscore :
    isMappable "_" = false := by
  decide

theorem isMappable_of_ne
    {key : String}
    (h : key ≠ "_") :
    isMappable key = isName key.toList := by
  unfold isMappable
  simp [h]

theorem nodup_keys_declared
    (attributes : Entries) :
    (Entries.keys (declared attributes)).Nodup := by
  rw [Environment.declared_eq_merge]
  generalize Environment.declarations attributes = entries
  unfold Entries.merge
  induction entries using List.reverseRecOn with
  | nil => exact List.nodup_nil
  | append_singleton entries entry ih =>
      rw [List.foldl_concat]
      exact Entries.nodup_keys_set ih entry.1 entry.2

/- A name is mapped to what is declared last, if it can be. -/
theorem get?_declared
    (attributes : Entries)
    (key : String) :
    (declared attributes).get? key =
      if isMappable key then
        (Entries.get? (Environment.many attributes).reverse key).or
          (Entries.get? (attributes.filterMap Environment.single?).reverse
            key)
      else
        none := by
  rw [Environment.declared_eq_merge, Entries.get?_merge_reverse,
    Environment.declarations, ← List.filter_reverse, List.reverse_append]
  cases hKey : isMappable key with
  | false =>
      rw [Entries.get?_filter_of_neg hKey]
      rfl
  | true =>
      rw [Entries.get?_filter_of_pos hKey, Entries.get?_append]
      exact Option.or_none

/-
  Declarations that are written into an attribute are found
  there: each search finds the next pair, and no other. A name
  in lower case is mapped to what its last pair gives; if it
  has none, to what the last attribute for it alone gives that
  is not blank; and the lone underscore is never mapped.
-/
theorem declared_as_written
    {attributes : Entries}
    {value : String}
    {pairs : List (String × String)}
    (hValue : attributes.get? "prefix" = some value)
    (hWritten : Written pairs value.toList) :
    (∀ found, Finds value.toList found ↔ found = pairs) ∧
      (Entries.keys (declared attributes)).Nodup ∧
      ∀ key,
        (declared attributes).get? key =
          if key = "_" then
            none
          else
            (Entries.get? (pairs.map lowered).reverse key).or
              ((Entries.get?
                (attributes.filterMap Environment.single?).reverse
                key).filter (fun _ => isName key.toList)) := by
  have hPairs := pairs_of_written hWritten
  have hMany : Environment.many attributes = pairs.map lowered := by
    unfold Environment.many
    rw [hValue]
    exact congrArg (List.map lowered) hPairs
  refine ⟨fun found => ?_, nodup_keys_declared attributes, fun key => ?_⟩
  · rw [finds_iff, hPairs]
  · rw [get?_declared, hMany]
    by_cases hKey : key = "_"
    · subst hKey
      rw [not_isMappable_underscore, if_pos rfl]
      rfl
    · rw [if_neg hKey, isMappable_of_ne hKey]
      cases hName : isName key.toList with
      | true =>
          rw [if_pos rfl]
          congr 1
          cases Entries.get? (attributes.filterMap _).reverse key <;> rfl
      | false =>
          have hNone :
              Entries.get? (pairs.map lowered).reverse key = none := by
            rw [Option.eq_none_iff_forall_ne_some]
            intro start hStart
            have hMem := List.mem_reverse.mp (Entries.mem_of_get? hStart)
            rcases List.mem_map.mp hMem with ⟨pair, hPair, hEq⟩
            have hPlain := (hWritten.isPlainName hPair).lower
            rw [← (Prod.mk.inj hEq).1, hPlain.isName] at hName
            cases hName
          simp [hNone]

namespace Sample

/- Pairs with starts that end in a colon, and a lone underscore. -/
def declarations : List (String × String) :=
  [("EX", "http://ex/:"), ("_", "a:"), ("dc", ":b:c:"), ("Ex", "d")]

/- The pairs between blanks, with other attributes around. -/
def attributes : Entries :=
  [("xmlns:EX", "http://old/"), ("xmlns:F-1", " http://f/ "),
    ("prefix", "\tEX: http://ex/:  _:\na: dc:  :b:c: Ex: d "),
    ("xmlns:_", "e"), ("xmlns:7", "f"), ("about", "#a")]

/- Each of the pairs, with the blanks that it is written with. -/
theorem written :
    Written declarations
      "\tEX: http://ex/:  _:\na: dc:  :b:c: Ex: d ".toList := by
  have hBlanks :
      ∀ cs : List Char, cs.all Text.isBlank = true →
        ∀ c ∈ cs, Text.isBlank c = true :=
    fun _ => List.all_eq_true.mp
  have hFourth : Written [("Ex", "d")] " Ex: d ".toList :=
    @Written.pair [' '] [' '] [' '] "Ex" "d" [] (hBlanks _ rfl)
      (by decide +kernel) (by decide +kernel) (by decide +kernel)
      (by decide +kernel) (.blank (hBlanks _ rfl))
  have hThird :
      Written [("dc", ":b:c:"), ("Ex", "d")]
        " dc:  :b:c: Ex: d ".toList :=
    @Written.pair [' '] [' ', ' '] _ "dc" ":b:c:" _ (hBlanks _ rfl)
      (by decide +kernel) (by decide +kernel) (by decide +kernel)
      (by decide +kernel) hFourth
  have hSecond :
      Written [("_", "a:"), ("dc", ":b:c:"), ("Ex", "d")]
        "  _:\na: dc:  :b:c: Ex: d ".toList :=
    @Written.pair [' ', ' '] ['\n'] _ "_" "a:" _ (hBlanks _ rfl)
      (by decide +kernel) (by decide +kernel) (by decide +kernel)
      (by decide +kernel) hThird
  exact @Written.pair ['\t'] [' '] _ "EX" "http://ex/:" _
    (hBlanks _ rfl) (by decide +kernel) (by decide +kernel)
    (by decide +kernel) (by decide +kernel) hSecond

end Sample

open Sample in
/- The last pair of a name counts, and no single declaration of it. -/
theorem sample_declared :
    declared attributes =
        [("ex", "d"), ("f-1", "http://f/"), ("dc", ":b:c:")] ∧
      (∀ found,
        Finds "\tEX: http://ex/:  _:\na: dc:  :b:c: Ex: d ".toList
            found ↔
          found = declarations) ∧
      (Entries.keys (declared attributes)).Nodup ∧
      ∀ key,
        (declared attributes).get? key =
          if key = "_" then
            none
          else
            (Entries.get? (declarations.map lowered).reverse key).or
              ((Entries.get?
                (attributes.filterMap Environment.single?).reverse
                key).filter (fun _ => isName key.toList)) :=
  ⟨by decide +kernel, declared_as_written (by decide +kernel) written⟩

end Prefixes
end LinkedMarkup
