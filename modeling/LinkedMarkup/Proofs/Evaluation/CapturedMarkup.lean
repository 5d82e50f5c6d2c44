import LinkedMarkup.Proofs.Evaluation.Content
import LinkedMarkup.Proofs.Text.Cutting

/-
  This file proves that markup which was captured says which
  content it was captured from. Escaped data never holds the
  character that ends it, so a text is read back up to the
  next tag, a name up to a blank or the end of its tag, and
  an attribute value up to its quote. Only the depths of tags
  and the places where a text was cut in two are lost.

  Key definitions include:
    * `Event.IsName`
    * `Event.IsPlain`
    * `Event.condensed`
    * `Event.IsCondensed`
    * `Evaluation.Captured`

  Main declarations:
    * `Event.written_condensed`
    * `Event.written_eq_iff`
    * `Evaluation.Captured.value_eq`
    * `Evaluation.captured_markup_unambiguous`
-/

namespace LinkedMarkup
namespace Event

------------------------------------------------------------
-- Escaped data
------------------------------------------------------------

/- The character that escaped data begins with. -/
def firstEscaped :
    List Char → Option Char
  | '&' :: 'a' :: _ => some '&'
  | '&' :: 'l' :: _ => some '<'
  | '&' :: 'g' :: _ => some '>'
  | '&' :: 'q' :: _ => some '"'
  | '&' :: '#' :: _ => some '\''
  | c :: _ => some c
  | [] => none

theorem firstEscaped_of_ne
    {c : Char}
    (hAmpersand : c ≠ '&')
    (rest : List Char) :
    firstEscaped (c :: rest) = some c := by
  unfold firstEscaped
  split <;> simp_all

theorem firstEscaped_escapeTextChar
    (c : Char)
    (rest : List Char) :
    firstEscaped (escapeTextChar c ++ rest) = some c := by
  unfold escapeTextChar
  split
  · next h => rw [eq_of_beq h]; rfl
  · next hAmpersand =>
      split
      · next h => rw [eq_of_beq h]; rfl
      · split
        · next h => rw [eq_of_beq h]; rfl
        · exact firstEscaped_of_ne (by simpa using hAmpersand) rest

theorem firstEscaped_escapeValueChar
    (c : Char)
    (rest : List Char) :
    firstEscaped (escapeValueChar c ++ rest) = some c := by
  unfold escapeValueChar
  split
  · next h => rw [eq_of_beq h]; rfl
  · split
    · next h => rw [eq_of_beq h]; rfl
    · exact firstEscaped_escapeTextChar c rest

/- Data escaped so that its first character shows is not lost. -/
theorem eq_of_flatMap_eq
    {escape : Char → List Char}
    (hFirst :
      ∀ c rest, firstEscaped (escape c ++ rest) = some c)
    {cs ds : List Char}
    (h : cs.flatMap escape = ds.flatMap escape) :
    cs = ds := by
  induction cs generalizing ds with
  | nil =>
      cases ds with
      | nil => rfl
      | cons d ds =>
          have hSome := hFirst d (ds.flatMap escape)
          rw [← List.flatMap_cons, ← h] at hSome
          cases hSome
  | cons c cs ih =>
      have hSome := hFirst c (cs.flatMap escape)
      rw [← List.flatMap_cons, h] at hSome
      cases ds with
      | nil => cases hSome
      | cons d ds =>
          rw [List.flatMap_cons, hFirst] at hSome
          cases hSome
          rw [List.flatMap_cons, List.flatMap_cons] at h
          rw [ih (List.append_cancel_left h)]

theorem eq_of_escapeText_eq
    {s t : String}
    (h : (escapeText s).toList = (escapeText t).toList) :
    s = t := by
  unfold escapeText at h
  rw [String.toList_ofList, String.toList_ofList] at h
  exact String.toList_injective
    (eq_of_flatMap_eq firstEscaped_escapeTextChar h)

theorem eq_of_escapeValue_eq
    {s t : String}
    (h : (escapeValue s).toList = (escapeValue t).toList) :
    s = t := by
  unfold escapeValue at h
  rw [String.toList_ofList, String.toList_ofList] at h
  exact String.toList_injective
    (eq_of_flatMap_eq firstEscaped_escapeValueChar h)

theorem tagStart_notMem_escapeTextChar
    (c : Char) :
    '<' ∉ escapeTextChar c := by
  unfold escapeTextChar
  split
  · decide
  · split
    · decide
    · next hStart =>
        split
        · decide
        · intro hMem
          cases List.mem_singleton.mp hMem
          exact hStart rfl

theorem quote_notMem_escapeValueChar
    (c : Char) :
    '"' ∉ escapeValueChar c := by
  unfold escapeValueChar escapeTextChar
  split
  · decide
  · next hQuote =>
      split
      · decide
      · split
        · decide
        · split
          · decide
          · split
            · decide
            · intro hMem
              cases List.mem_singleton.mp hMem
              exact hQuote rfl

/- Escaped text holds no character that starts a tag. -/
theorem tagStart_notMem_escapeText
    (s : String) :
    '<' ∉ (escapeText s).toList := by
  intro hMem
  unfold escapeText at hMem
  rw [String.toList_ofList] at hMem
  rcases List.mem_flatMap.mp hMem with ⟨c, _, hMem⟩
  exact tagStart_notMem_escapeTextChar c hMem

/- An escaped attribute value holds no quote that ends it. -/
theorem quote_notMem_escapeValue
    (s : String) :
    '"' ∉ (escapeValue s).toList := by
  intro hMem
  unfold escapeValue at hMem
  rw [String.toList_ofList] at hMem
  rcases List.mem_flatMap.mp hMem with ⟨c, _, hMem⟩
  exact quote_notMem_escapeValueChar c hMem

theorem escapeText_append
    (s t : String) :
    escapeText (s ++ t) = escapeText s ++ escapeText t := by
  unfold escapeText
  rw [String.toList_append, List.flatMap_append, String.ofList_append]

theorem escapeText_ne_nil
    {s : String}
    (h : s ≠ "") :
    (escapeText s).toList ≠ [] := by
  intro hNil
  exact h (eq_of_escapeText_eq hNil)

------------------------------------------------------------
-- Names and attributes
------------------------------------------------------------

/- The characters of markup that no name may hold. -/
def reserved : List Char :=
  ['<', '>', '/', '=', '&', '"', '\'']

/-
  A name of an element or an attribute: it is not empty, and
  holds no blank and no reserved character.
-/
structure IsName
    (name : String) : Prop where
  nonempty : name ≠ ""
  noBlank : ∀ c ∈ name.toList, Text.isBlank c = false
  noReserved : ∀ c ∈ name.toList, c ∉ reserved

instance
    (name : String) :
    Decidable (IsName name) :=
  decidable_of_iff
    (name ≠ "" ∧
      name.toList.all (fun c => !Text.isBlank c) = true ∧
        name.toList.all (fun c => !reserved.contains c) = true)
    ⟨fun h => ⟨h.1, by simpa using h.2.1, by simpa using h.2.2⟩,
      fun h => ⟨h.nonempty, by simpa using h.noBlank,
        by simpa using h.noReserved⟩⟩

/- What ends the name of an element in its start tag. -/
def EndsName
    (c : Char) : Prop :=
  c = ' ' ∨ c = '>'

theorem IsName.goesOn
    {name : String}
    (h : IsName name)
    {c : Char}
    (hMem : c ∈ name.toList) :
    ¬EndsName c := by
  rintro (rfl | rfl)
  · exact absurd (h.noBlank _ hMem) (by decide)
  · exact h.noReserved _ hMem (by decide)

theorem writtenAttributes_cons
    (entry : String × String)
    (rest : Entries) :
    (writtenAttributes (entry :: rest)).toList =
      ' ' :: (entry.1.toList ++ '=' :: '"' ::
        ((escapeValue entry.2).toList ++ '"' ::
          (writtenAttributes rest).toList)) := by
  change
    (" " ++ entry.1 ++ "=\"" ++ escapeValue entry.2 ++ "\"" ++
        writtenAttributes rest).toList =
      _
  simp [String.toList_append]

/- Attributes begin with a blank, if there are any. -/
theorem endsName_attributes
    (attributes : Entries)
    (rest : List Char) :
    Text.Stops EndsName
      ((writtenAttributes attributes).toList ++ '>' :: rest) := by
  intro c hc
  cases attributes with
  | nil =>
      cases hc
      exact .inr rfl
  | cons entry others =>
      rw [writtenAttributes_cons] at hc
      cases hc
      exact .inl rfl

/- A start tag that ends here has the attributes it was given. -/
theorem attributes_eq_of_written_eq
    {a b : Entries}
    (ha : ∀ entry ∈ a, IsName entry.1)
    (hb : ∀ entry ∈ b, IsName entry.1)
    {x y : List Char}
    (h :
      (writtenAttributes a).toList ++ '>' :: x =
        (writtenAttributes b).toList ++ '>' :: y) :
    a = b ∧ x = y := by
  induction a generalizing b with
  | nil =>
      cases b with
      | nil => exact ⟨rfl, (List.cons.inj h).2⟩
      | cons entry b =>
          rw [writtenAttributes_cons] at h
          cases h
  | cons entry a ih =>
      cases b with
      | nil =>
          rw [writtenAttributes_cons] at h
          cases h
      | cons other b =>
          rw [writtenAttributes_cons, writtenAttributes_cons] at h
          simp only [List.cons_append, List.append_assoc,
            List.cons.injEq, true_and] at h
          have hName :
              ∀ e ∈ entry :: a, '=' ∉ e.1.toList :=
            fun e he hMem => (ha e he).noReserved _ hMem (by decide)
          have hOther :
              ∀ e ∈ other :: b, '=' ∉ e.1.toList :=
            fun e he hMem => (hb e he).noReserved _ hMem (by decide)
          rcases Text.eq_of_append_cons (hName _ List.mem_cons_self)
              (hOther _ List.mem_cons_self) h with
            ⟨hNames, hValues⟩
          rcases Text.eq_of_append_cons (quote_notMem_escapeValue _)
              (quote_notMem_escapeValue _)
              (List.cons.inj hValues).2 with
            ⟨hValue, hRest⟩
          rcases ih (fun e he => ha e (List.mem_cons_of_mem _ he))
              (fun e he => hb e (List.mem_cons_of_mem _ he)) hRest with
            ⟨rfl, hEnd⟩
          have hEntry : entry = other :=
            Prod.ext (String.toList_injective hNames)
              (eq_of_escapeValue_eq hValue)
          rw [hEntry]
          exact ⟨rfl, hEnd⟩

------------------------------------------------------------
-- Condensed events
------------------------------------------------------------

/- A tag with usable names, or any text. -/
def IsPlain :
    Event → Prop
  | opened name attributes _ =>
      IsName name ∧ ∀ entry ∈ attributes, IsName entry.1
  | text _ => True
  | closed name _ => IsName name
  | unknown _ => False

instance :
    DecidablePred IsPlain
  | opened name attributes _ =>
      inferInstanceAs
        (Decidable
          (IsName name ∧ ∀ entry ∈ attributes, IsName entry.1))
  | text _ => inferInstanceAs (Decidable True)
  | closed name _ => inferInstanceAs (Decidable (IsName name))
  | unknown _ => inferInstanceAs (Decidable False)

/- An event without the number of elements around it. -/
def withoutDepth :
    Event → Event
  | opened name attributes _ => opened name attributes 0
  | text data => text data
  | closed name _ => closed name 0
  | unknown description => unknown description

/- Put an event first: a text runs on, and an empty one is left out. -/
def prepend :
    Event → List Event → List Event
  | text data, text more :: rest => text (data ++ more) :: rest
  | text data, rest =>
      if data = "" then
        rest
      else
        text data :: rest
  | event, rest => event.withoutDepth :: rest

/-
  Events without their depths, with adjacent texts merged and
  empty texts left out.
-/
def condensed
    (events : List Event) : List Event :=
  events.foldr prepend []

theorem condensed_cons
    (event : Event)
    (rest : List Event) :
    condensed (event :: rest) = event.prepend (condensed rest) :=
  rfl

theorem written_withoutDepth
    (event : Event) :
    event.withoutDepth.written = event.written := by
  cases event <;> rfl

theorem written_prepend
    (event : Event)
    (rest : List Event) :
    String.join ((event.prepend rest).map written) =
      event.written ++ String.join (rest.map written) := by
  unfold prepend
  split
  · simp [String.join_cons, written, escapeText_append,
      String.append_assoc]
  · split
    · next hEmpty =>
        subst hEmpty
        exact (String.empty_append).symm
    · rw [List.map_cons, String.join_cons]
  · rw [List.map_cons, String.join_cons, written_withoutDepth]

/- Condensing events changes nothing in their markup. -/
theorem written_condensed
    (events : List Event) :
    String.join ((condensed events).map written) =
      String.join (events.map written) := by
  induction events with
  | nil => rfl
  | cons event rest ih =>
      rw [condensed_cons, written_prepend, ih, List.map_cons,
        String.join_cons]

/-
  Events as condensing leaves them: tags of no depth and
  texts that are not empty, of which no two are adjacent.
-/
inductive IsCondensed : List Event → Prop where
  | nil : IsCondensed []
  | text
      {data : String}
      {rest : List Event}
      (hData : data ≠ "")
      (hNext : ∀ more, rest.head? ≠ some (.text more))
      (hRest : IsCondensed rest) :
      IsCondensed (.text data :: rest)
  | opened
      {name : String}
      {attributes : Entries}
      {rest : List Event}
      (hName : IsName name)
      (hNames : ∀ entry ∈ attributes, IsName entry.1)
      (hRest : IsCondensed rest) :
      IsCondensed (.opened name attributes 0 :: rest)
  | closed
      {name : String}
      {rest : List Event}
      (hName : IsName name)
      (hRest : IsCondensed rest) :
      IsCondensed (.closed name 0 :: rest)

theorem isCondensed_prepend
    {event : Event}
    {rest : List Event}
    (hEvent : event.IsPlain)
    (hRest : IsCondensed rest) :
    IsCondensed (event.prepend rest) := by
  cases event with
  | opened name attributes depth =>
      exact .opened hEvent.1 hEvent.2 hRest
  | closed name depth => exact .closed hEvent hRest
  | unknown description => exact hEvent.elim
  | text data =>
      unfold prepend
      cases hRest with
      | nil =>
          dsimp only
          split
          · exact .nil
          · next hData => exact .text hData nofun .nil
      | text hMore hNext hRest =>
          refine .text (fun hEmpty => ?_) hNext hRest
          exact hMore (String.append_eq_empty_iff.mp hEmpty).2
      | opened hName hNames hRest =>
          dsimp only
          split
          · exact .opened hName hNames hRest
          · next hData =>
              exact .text hData nofun (.opened hName hNames hRest)
      | closed hName hRest =>
          dsimp only
          split
          · exact .closed hName hRest
          · next hData => exact .text hData nofun (.closed hName hRest)

theorem isCondensed_condensed
    {events : List Event}
    (h : ∀ event ∈ events, event.IsPlain) :
    IsCondensed (condensed events) := by
  induction events with
  | nil => exact .nil
  | cons event rest ih =>
      exact isCondensed_prepend (h event List.mem_cons_self)
        (ih (fun e he => h e (List.mem_cons_of_mem _ he)))

------------------------------------------------------------
-- Reading markup back
------------------------------------------------------------

/- The characters of the markup of some events. -/
def markup
    (events : List Event) : List Char :=
  (String.join (events.map written)).toList

theorem markup_text
    (data : String)
    (rest : List Event) :
    markup (.text data :: rest) =
      (escapeText data).toList ++ markup rest := by
  unfold markup
  rw [List.map_cons, String.join_cons, String.toList_append]
  rfl

theorem markup_opened
    (name : String)
    (attributes : Entries)
    (depth : Nat)
    (rest : List Event) :
    markup (.opened name attributes depth :: rest) =
      '<' :: (name.toList ++
        ((writtenAttributes attributes).toList ++
          '>' :: markup rest)) := by
  unfold markup
  rw [List.map_cons, String.join_cons, String.toList_append]
  simp [written, String.toList_append]

theorem markup_closed
    (name : String)
    (depth : Nat)
    (rest : List Event) :
    markup (.closed name depth :: rest) =
      '<' :: '/' :: (name.toList ++ '>' :: markup rest) := by
  unfold markup
  rw [List.map_cons, String.join_cons, String.toList_append]
  simp [written, String.toList_append]

/- Unless a text comes first, condensed markup starts a tag. -/
theorem IsCondensed.stops
    {events : List Event}
    (h : IsCondensed events)
    (hNext : ∀ data, events.head? ≠ some (.text data)) :
    Text.Stops (· = '<') (markup events) := by
  intro c hc
  cases h with
  | nil => cases hc
  | text => exact absurd rfl (hNext _)
  | opened =>
      rw [markup_opened] at hc
      cases hc
      rfl
  | closed =>
      rw [markup_closed] at hc
      cases hc
      rfl

/- Markup that begins with text is not that of a tag or of nothing. -/
theorem markup_text_ne
    {data : String}
    {rest events : List Event}
    (hData : data ≠ "")
    (hEvents : IsCondensed events)
    (hNext : ∀ more, events.head? ≠ some (.text more)) :
    markup (.text data :: rest) ≠ markup events := by
  intro h
  have hStops := hEvents.stops hNext
  rw [← h, markup_text] at hStops
  rcases List.exists_cons_of_ne_nil (escapeText_ne_nil hData) with
    ⟨c, others, hChars⟩
  refine tagStart_notMem_escapeText data ?_
  rw [hChars] at hStops ⊢
  rw [← hStops c rfl]
  exact List.mem_cons_self

/- No start tag is written as an end tag. -/
theorem markup_opened_ne_closed
    {name : String}
    (hName : IsName name)
    (attributes : Entries)
    (rest : List Event)
    (other : String)
    (others : List Event) :
    markup (.opened name attributes 0 :: rest) ≠
      markup (.closed other 0 :: others) := by
  intro h
  rw [markup_opened, markup_closed] at h
  rcases List.exists_cons_of_ne_nil
      (fun hNil => hName.nonempty (String.toList_injective hNil)) with
    ⟨c, cs, hChars⟩
  have hFree := hName.noReserved c (hChars ▸ List.mem_cons_self)
  rw [hChars, List.cons_append] at h
  rw [(List.cons.inj (List.cons.inj h).2).1] at hFree
  exact hFree (by decide)

/- Condensed events can be read back from their markup. -/
theorem IsCondensed.eq_of_markup_eq
    {first second : List Event}
    (hFirst : IsCondensed first)
    (hSecond : IsCondensed second)
    (h : markup first = markup second) :
    first = second := by
  induction hFirst generalizing second with
  | nil =>
      cases hSecond with
      | nil => rfl
      | text hData _ _ =>
          exact absurd h.symm (markup_text_ne hData .nil nofun)
      | opened =>
          rw [markup_opened] at h
          cases h
      | closed =>
          rw [markup_closed] at h
          cases h
  | @text data rest hData hNext hRest ih =>
      have hTag := @markup_text_ne data rest second hData hSecond
      cases hSecond with
      | nil => exact absurd h (hTag nofun)
      | opened => exact absurd h (hTag nofun)
      | closed => exact absurd h (hTag nofun)
      | text _ hNext' hRest' =>
          rw [markup_text, markup_text] at h
          rcases Text.eq_of_append_stops
              (fun c hc hEq => tagStart_notMem_escapeText _ (hEq ▸ hc))
              (fun c hc hEq => tagStart_notMem_escapeText _ (hEq ▸ hc))
              (hRest.stops hNext) (hRest'.stops hNext') h with
            ⟨hText, hMore⟩
          rw [eq_of_escapeText_eq hText, ih hRest' hMore]
  | @opened name attributes rest hName hNames hRest ih =>
      cases hSecond with
      | nil =>
          rw [markup_opened] at h
          cases h
      | text hData hNext hRest' =>
          exact absurd h.symm
            (markup_text_ne hData (.opened hName hNames hRest) nofun)
      | closed => exact (markup_opened_ne_closed hName _ _ _ _ h).elim
      | opened hName' hNames' hRest' =>
          rw [markup_opened, markup_opened] at h
          rcases Text.eq_of_append_stops (fun c => hName.goesOn)
              (fun c => hName'.goesOn) (endsName_attributes _ _)
              (endsName_attributes _ _) (List.cons.inj h).2 with
            ⟨hSame, hAttributes⟩
          rcases attributes_eq_of_written_eq hNames hNames'
              hAttributes with
            ⟨rfl, hMore⟩
          rw [String.toList_injective hSame, ih hRest' hMore]
  | @closed name rest hName hRest ih =>
      cases hSecond with
      | nil =>
          rw [markup_closed] at h
          cases h
      | text hData hNext hRest' =>
          exact absurd h.symm
            (markup_text_ne hData (.closed hName hRest) nofun)
      | opened hName' _ _ =>
          exact (markup_opened_ne_closed hName' _ _ _ _ h.symm).elim
      | closed hName' hRest' =>
          rw [markup_closed, markup_closed] at h
          simp only [List.cons.injEq, true_and] at h
          have hEnd :
              ∀ {n : String}, IsName n → '>' ∉ n.toList :=
            fun hn hMem => hn.noReserved _ hMem (by decide)
          rcases Text.eq_of_append_cons (hEnd hName) (hEnd hName') h with
            ⟨hSame, hMore⟩
          rw [String.toList_injective hSame, ih hRest' hMore]

/-
  Plain events are written alike exactly if they are alike
  once they are condensed.
-/
theorem written_eq_iff
    {first second : List Event}
    (hFirst : ∀ event ∈ first, event.IsPlain)
    (hSecond : ∀ event ∈ second, event.IsPlain) :
    String.join (first.map written) =
        String.join (second.map written) ↔
      condensed first = condensed second := by
  rw [← written_condensed first, ← written_condensed second]
  constructor
  · intro h
    exact (isCondensed_condensed hFirst).eq_of_markup_eq
      (isCondensed_condensed hSecond) (congrArg String.toList h)
  · intro h
    rw [h]

end Event

------------------------------------------------------------
-- Captured values
------------------------------------------------------------

namespace Evaluation

/-
  The literals that an element makes of well-nested events
  inside it, if it asks for a value of a datatype that keeps
  markup: what waits in the element before its end tag.
-/
inductive Captured
    (inside : List Event) :
    Literal → Prop where
  | intro
      {d t : State}
      {name : String}
      {attributes : Entries}
      {depth : Nat}
      {sections : List (List Note)}
      {x : StartTag}
      {p q : Pending}
      {datatype : Iri}
      (hInside : Event.Nested inside)
      (hRun :
        Run d (.opened name attributes depth :: inside) sections t)
      (hTag : startTag? d (.opened name attributes depth) = some x)
      (hPending : x.element.pending = some p)
      (hDatatype : p.datatype = some datatype)
      (hMarkup : datatype ∈ markupDatatypes)
      (hWaits : t.elements.head?.bind Element.pending = some q) :
      Captured inside q.literal

/- A captured literal is the markup of the events inside. -/
theorem Captured.value_eq
    {inside : List Event}
    {literal : Literal}
    (h : Captured inside literal) :
    literal.value = String.join (inside.map Event.written) := by
  rcases h with
    ⟨hInside, hRun, hTag, hPending, hDatatype, hMarkup, hWaits⟩
  rename_i x p q datatype
  cases hRun with
  | cons hOpening hBetween =>
      rcases process_startTag hOpening with
        ⟨o, _, _, hStarted, _, _, _, _, hAfter, _⟩
      rw [hTag] at hStarted
      cases hStarted
      rw [elements_of_run_nested hInside hBetween, hAfter] at hWaits
      have hCaptured := pending_capturing x.element inside
      rw [hPending] at hCaptured
      have hAsks := (awaits_of_startTag? hTag hPending).asks
      have hKeeps : p.keepsMarkup = true := by
        rw [hAsks.keepsMarkup, hDatatype, Option.any_some]
        exact List.contains_iff_mem.mpr hMarkup
      have hSame : p.extended (contentOf p.keepsMarkup inside) = q :=
        Option.some.inj (hCaptured.symm.trans hWaits)
      unfold Pending.literal
      rw [Literal.value_ofText, ← hSame, hKeeps]
      unfold Pending.extended contentOf
      rw [hAsks.text, String.empty_append]
      rfl

/-
  Markup says which events it was written for: whatever their
  texts and attribute values are, two lists of plain events
  are written alike only if they are the same once depths are
  left out and adjacent texts are merged. So literals that
  were captured with markup have one value only if their
  contents are the same.
-/
theorem captured_markup_unambiguous
    {first second : List Event}
    (hFirst : ∀ event ∈ first, event.IsPlain)
    (hSecond : ∀ event ∈ second, event.IsPlain) :
    (String.join (first.map Event.written) =
          String.join (second.map Event.written) ↔
        Event.condensed first = Event.condensed second) ∧
      ∀ v w,
        Captured first v →
          Captured second w →
            (v.value = w.value ↔
              Event.condensed first = Event.condensed second) := by
  have hWritten := Event.written_eq_iff hFirst hSecond
  refine ⟨hWritten, ?_⟩
  intro v w hv hw
  rw [hv.value_eq, hw.value_eq]
  exact hWritten

namespace Contents

def settings : Settings :=
  ⟨.xhtml,
    ⟨.members, true,
      [("f", "http://f/"),
        ("rdf", "http://www.w3.org/1999/02/22-rdf-syntax-ns#")],
      []⟩⟩

def first : State :=
  State.initial settings "http://ex/" ⟨"http://ex/"⟩

def opening : Event :=
  .opened "p"
    [("about", "#a"), ("property", "f:x"),
      ("datatype", "rdf:XMLLiteral")] 0

/- A text that is already escaped, and a tag. -/
def whole : List Event :=
  [.text "&lt;b>", .opened "i" [("title", "\"<b>")] 1, .closed "i" 1]

/- The same content at another depth, its text cut up. -/
def parted : List Event :=
  [.text "&lt", .text "", .text ";b>",
    .opened "i" [("title", "\"<b>")] 7, .closed "i" 7]

/- Other content, whose text is what the first one escapes to. -/
def escaped : List Event :=
  [.text "&amp;lt;b&gt;", .opened "i" [("title", "\"<b>")] 1,
    .closed "i" 1]

theorem asks_opening :
    ((startTag? first opening).bind (fun x => x.element.pending)).bind
        Pending.datatype =
      some Rdf.xmlLiteral := by
  decide +kernel

/- The literal of a text and a tag inside the element. -/
theorem captured
    {inside : List Event}
    {literal : Literal}
    (hInside : Event.Nested inside)
    (hRun :
      (Extraction.evaluate first (opening :: inside)).2.isOk = true)
    (hWaits :
      ((first.through (opening :: inside)).elements.head?.bind
          Element.pending).map Pending.literal =
        some literal) :
    Captured inside literal := by
  rcases Option.bind_eq_some_iff.mp asks_opening with
    ⟨p, hStarted, hDatatype⟩
  rcases Option.bind_eq_some_iff.mp hStarted with ⟨x, hTag, hPending⟩
  rcases Option.map_eq_some_iff.mp hWaits with ⟨q, hTop, rfl⟩
  exact .intro hInside (run_through hRun) hTag hPending hDatatype
    List.mem_cons_self hTop

/- The value of the first two contents. -/
def value : Literal :=
  .typed "&amp;lt;b&gt;<i title=\"&quot;&lt;b&gt;\"></i>"
    Rdf.xmlLiteral

/- The value of the other content. -/
def escapedValue : Literal :=
  .typed "&amp;amp;lt;b&amp;gt;<i title=\"&quot;&lt;b&gt;\"></i>"
    Rdf.xmlLiteral

theorem captured_whole :
    Captured whole value :=
  captured (.text _ (.element "i" _ 1 1 .nil .nil))
    (by decide +kernel) (by decide +kernel)

theorem captured_parted :
    Captured parted value :=
  captured
    (.text _ (.text _ (.text _ (.element "i" _ 7 7 .nil .nil))))
    (by decide +kernel) (by decide +kernel)

theorem captured_escaped :
    Captured escaped escapedValue :=
  captured (.text _ (.element "i" _ 1 1 .nil .nil))
    (by decide +kernel) (by decide +kernel)

end Contents

open Contents in
/- Cutting a text changes no value, and escaping it once more does. -/
theorem captured_alike_if_cut_and_not_if_escaped :
    (String.join (whole.map Event.written) =
          String.join (parted.map Event.written) ∧
        Captured whole value ∧ Captured parted value) ∧
      Captured escaped escapedValue ∧
        value.value ≠ escapedValue.value := by
  have hWhole : ∀ event ∈ whole, event.IsPlain := by decide
  have hParted : ∀ event ∈ parted, event.IsPlain := by decide
  have hOther : ∀ event ∈ escaped, event.IsPlain := by decide
  have hCut := captured_markup_unambiguous hWhole hParted
  have hEscaped := captured_markup_unambiguous hWhole hOther
  refine ⟨⟨hCut.1.mpr (by decide), captured_whole, captured_parted⟩,
    captured_escaped, fun hSame => ?_⟩
  exact absurd
    ((hEscaped.2 _ _ captured_whole captured_escaped).mp hSame)
    (by decide)

end Evaluation
end LinkedMarkup
