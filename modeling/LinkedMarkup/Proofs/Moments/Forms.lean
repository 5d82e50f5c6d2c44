import LinkedMarkup.Proofs.Moments.Durations
import Mathlib.Data.List.Nodup

/-
  This file proves which texts are dates, times and durations,
  and that no text is in two of these forms. What a text can
  be is settled by its first signs, so the order in which the
  forms are tried never decides a datatype.

  Key definitions include:
    * `Moment.IsYear`
    * `Moment.IsDay`
    * `Moment.IsClock`
    * `Moment.IsZone`
    * `Moment.Written`
    * `Moment.sort`

  Main declarations:
    * `Moment.datatype_eq_sort`
    * `Moment.written_of_form`
    * `Moment.form_of_written`
    * `Moment.datatype?_eq_some_iff`
    * `Moment.forms_exclude_each_other`
-/

namespace LinkedMarkup
namespace Moment

------------------------------------------------------------
-- The grammar
------------------------------------------------------------

/- Two digits. -/
structure IsPair
    (cs : List Char) : Prop where
  length : cs.length = 2
  digits : IsDigits cs

/- A year of four digits or more, with an optional minus. -/
inductive IsYear : List Char → Prop where
  | intro
      {sign digits : List Char}
      (hSign : sign = [] ∨ sign = ['-'])
      (hLength : 4 ≤ digits.length)
      (hDigits : IsDigits digits) :
      IsYear (sign ++ digits)

/- A year, a month and a day. -/
inductive IsDay : List Char → Prop where
  | intro
      {year month day : List Char}
      (hYear : IsYear year)
      (hMonth : IsPair month)
      (hDay : IsPair day) :
      IsDay (year ++ '-' :: (month ++ '-' :: day))

/- Hours and minutes, and seconds that may have a fraction. -/
inductive IsClock : List Char → Prop where
  | minutes
      {hours minutes : List Char}
      (hHours : IsPair hours)
      (hMinutes : IsPair minutes) :
      IsClock (hours ++ ':' :: minutes)
  | seconds
      {hours minutes seconds : List Char}
      (hHours : IsPair hours)
      (hMinutes : IsPair minutes)
      (hSeconds : IsPair seconds)
      (fraction : Option Numeral) :
      IsClock
        (hours ++ ':' ::
          (minutes ++ ':' :: (seconds ++ writtenFraction fraction)))

/- A time zone, which may be left out. -/
inductive IsZone : List Char → Prop where
  | none :
      IsZone []
  | utc :
      IsZone ['Z']
  | offset
      {sign : Char}
      {hours colon minutes : List Char}
      (hSign : sign = '+' ∨ sign = '-')
      (hHours : IsPair hours)
      (hColon : colon = [] ∨ colon = [':'])
      (hMinutes : IsPair minutes) :
      IsZone (sign :: (hours ++ (colon ++ minutes)))

/- The texts that are written for a datatype. -/
inductive Written : Iri → List Char → Prop where
  | duration
      {d : Duration}
      (hGiven : d.isGiven = true) :
      Written Xsd.duration d.text
  | dateTime
      {day clock zone : List Char}
      (hDay : IsDay day)
      (hClock : IsClock clock)
      (hZone : IsZone zone) :
      Written Xsd.dateTime (day ++ 'T' :: (clock ++ zone))
  | date
      {day zone : List Char}
      (hDay : IsDay day)
      (hZone : IsZone zone) :
      Written Xsd.date (day ++ zone)
  | time
      {clock zone : List Char}
      (hClock : IsClock clock)
      (hZone : IsZone zone) :
      Written Xsd.time (clock ++ zone)
  | yearMonth
      {year month : List Char}
      (hYear : IsYear year)
      (hMonth : IsPair month) :
      Written Xsd.gYearMonth (year ++ '-' :: month)
  | year
      {year : List Char}
      (hYear : IsYear year) :
      Written Xsd.gYear year

------------------------------------------------------------
-- Reading pieces
------------------------------------------------------------

section Pieces

variable {cs rest : List Char}

theorem exactly?_two_iff :
    exactly? 2 cs = some rest ↔
      ∃ pair, IsPair pair ∧ cs = pair ++ rest := by
  rw [exactly?_eq_some_iff]
  constructor
  · rintro ⟨digits, hLength, hDigits, hText⟩
    exact ⟨digits, ⟨hLength, hDigits⟩, hText⟩
  · rintro ⟨pair, hPair, hText⟩
    exact ⟨pair, hPair.length, hPair.digits, hText⟩

/- No sign that stands between digits is a digit. -/
theorem ne_of_isDecimal
    {c mark : Char}
    (h : Text.isDecimal c = true)
    (hMark : mark ∈ marks) :
    c ≠ mark := by
  rintro rfl
  rw [isDecimal_of_mark hMark] at h
  cases h

/- Some first characters are digits. -/
theorem head?_digits_append
    {digits : List Char}
    (hGiven : digits ≠ [])
    (hDigits : IsDigits digits)
    (rest : List Char) :
    ∃ c, (digits ++ rest).head? = some c ∧ Text.isDecimal c = true := by
  cases digits with
  | nil => exact absurd rfl hGiven
  | cons c digits => exact ⟨c, rfl, hDigits c List.mem_cons_self⟩

theorem afterSign_digits
    {sign digits : List Char}
    (hSign : sign = [] ∨ sign = ['-'])
    (hGiven : digits ≠ [])
    (hDigits : IsDigits digits)
    (rest : List Char) :
    afterSign (sign ++ (digits ++ rest)) = digits ++ rest := by
  apply afterSign_append hSign
  rcases head?_digits_append hGiven hDigits rest with ⟨c, hHead, hDigit⟩
  rw [hHead]
  intro hEq
  exact ne_of_isDecimal hDigit (by decide) (Option.some.inj hEq)

/- A year is read up to its last digit. -/
theorem afterYear?_eq_some_iff :
    afterYear? cs = some rest ↔
      ∃ year, IsYear year ∧ EndsDigits rest ∧ cs = year ++ rest := by
  unfold afterYear?
  rw [atLeast?_eq_some_iff]
  constructor
  · rintro ⟨digits, hLength, hDigits, hRest, hText⟩
    rcases afterSign_cases cs with ⟨sign, hSign, hWhole⟩
    refine ⟨sign ++ digits, .intro hSign hLength hDigits, hRest, ?_⟩
    rw [List.append_assoc, ← hText, ← hWhole]
  · rintro ⟨_, ⟨hSign, hLength, hDigits⟩, hRest, rfl⟩
    refine ⟨_, hLength, hDigits, hRest, ?_⟩
    rw [List.append_assoc]
    exact
      afterSign_digits hSign
        (List.ne_nil_of_length_pos
          (Nat.lt_of_lt_of_le (by decide) hLength))
        hDigits rest

theorem afterDay?_eq_some_iff :
    afterDay? cs = some rest ↔
      ∃ day, IsDay day ∧ cs = day ++ rest := by
  unfold afterDay?
  simp only [Option.bind_eq_bind, Option.bind_eq_some_iff,
    mark?_eq_some_iff, exactly?_two_iff, afterYear?_eq_some_iff]
  constructor
  · rintro
      ⟨_, ⟨year, hYear, _, rfl⟩, _, rfl, _, ⟨month, hMonth, rfl⟩, _, rfl,
        day, hDay, rfl⟩
    exact ⟨_, .intro hYear hMonth hDay, by simp⟩
  · rintro ⟨_, ⟨hYear, hMonth, hDay⟩, rfl⟩
    refine
      ⟨_, ⟨_, hYear, endsDigits_cons (by decide) _, ?_⟩, _,
        rfl, _, ⟨_, hMonth, rfl⟩, _, rfl, _, hDay, rfl⟩
    simp

/-
  What stops a clock: nothing, or a character that neither
  goes on with seconds nor with a fraction.
-/
structure EndsClock
    (rest : List Char) : Prop where
  digits : EndsDigits rest
  colon : rest.head? ≠ some ':'
  point : rest.head? ≠ some '.'

theorem exists_clock
    (h : afterClock? cs = some rest) :
    ∃ clock, IsClock clock ∧ cs = clock ++ rest := by
  unfold afterClock? at h
  simp only [Option.bind_eq_bind, Option.bind_eq_some_iff,
    mark?_eq_some_iff, exactly?_two_iff, Option.pure_def,
    Option.some.injEq] at h
  rcases h with
    ⟨_, ⟨hours, hHours, rfl⟩, _, rfl, tail, ⟨minutes, hMinutes, rfl⟩,
      hRest⟩
  cases hFound :
      (mark? ':' tail).bind
        (fun r => (exactly? 2 r).map afterFraction) with
  | none =>
      rw [hFound] at hRest
      cases hRest
      exact ⟨_, .minutes hHours hMinutes, by simp⟩
  | some more =>
      rw [hFound] at hRest
      cases hRest
      simp only [Option.bind_eq_some_iff, mark?_eq_some_iff,
        Option.map_eq_some_iff, exactly?_two_iff] at hFound
      rcases hFound with ⟨_, rfl, after, ⟨seconds, hSeconds, rfl⟩, rfl⟩
      rcases exists_written_fraction after with ⟨fraction, hFraction⟩
      refine ⟨_, .seconds hHours hMinutes hSeconds fraction, ?_⟩
      simp only [List.append_assoc, List.cons_append, Option.getD_some]
      rw [← hFraction]

theorem afterClock?_append
    {clock : List Char}
    (h : IsClock clock)
    (hRest : EndsClock rest) :
    afterClock? (clock ++ rest) = some rest := by
  have hPair :
      ∀ (pair more : List Char), IsPair pair →
        exactly? 2 (pair ++ more) = some more :=
    fun pair more hPair => exactly?_two_iff.mpr ⟨pair, hPair, rfl⟩
  unfold afterClock?
  cases h with
  | @minutes hours minutes hHours hMinutes =>
      rw [List.append_assoc, List.cons_append, hPair _ _ hHours]
      simp [mark?_self, hPair _ _ hMinutes, mark?_eq_none hRest.colon]
  | @seconds hours minutes seconds hHours hMinutes hSeconds fraction =>
      rw [List.append_assoc, List.cons_append, hPair _ _ hHours]
      simp [mark?_self, hPair _ _ hMinutes, hPair _ _ hSeconds,
        afterFraction_written fraction hRest.digits hRest.point]

/- A colon is passed over, if there is one. -/
theorem colon_cases
    (cs : List Char) :
    ∃ colon,
      (colon = [] ∨ colon = [':']) ∧
        cs = colon ++ (mark? ':' cs).getD cs := by
  cases hMark : mark? ':' cs with
  | none => exact ⟨[], .inl rfl, rfl⟩
  | some rest => exact ⟨[':'], .inr rfl, mark?_eq_some_iff.mp hMark⟩

theorem IsPair.head?_ne
    {pair : List Char}
    (h : IsPair pair)
    {mark : Char}
    (hMark : mark ∈ marks)
    (rest : List Char) :
    (pair ++ rest).head? ≠ some mark := by
  have hGiven : pair ≠ [] := by
    rintro rfl
    cases h.length
  rcases head?_digits_append hGiven h.digits rest with ⟨c, hHead, hDigit⟩
  rw [hHead]
  intro hEq
  exact ne_of_isDecimal hDigit hMark (Option.some.inj hEq)

/- Only a time zone is read as one. -/
theorem isZone_iff :
    isZone cs = true ↔ IsZone cs := by
  constructor
  · intro h
    unfold isZone at h
    split at h
    · exact .none
    · exact .utc
    · rename_i c tail _
      simp only [Bool.and_eq_true, Bool.or_eq_true, beq_iff_eq,
        Option.bind_eq_some_iff, exactly?_two_iff] at h
      rcases h with
        ⟨hSign, after, ⟨hours, hHours, rfl⟩, minutes, hMinutes, hTail⟩
      rcases colon_cases after with ⟨colon, hColon, hAfter⟩
      rw [hTail, List.append_nil] at hAfter
      rw [hAfter]
      exact .offset hSign hHours hColon hMinutes
  · intro h
    cases h with
    | none => rfl
    | utc => rfl
    | @offset sign hours colon minutes hSign hHours hColon hMinutes =>
        have hAfter :
            (mark? ':' (colon ++ minutes)).getD (colon ++ minutes) =
              minutes := by
          have hMark : ':' ∈ marks := by decide
          rcases hColon with rfl | rfl
          · have hNone := mark?_eq_none (hMinutes.head?_ne hMark [])
            rw [List.append_nil] at hNone
            rw [List.nil_append, hNone]
            rfl
          · rfl
        have hRead :
            (exactly? 2 (hours ++ (colon ++ minutes))).bind
                (fun r => exactly? 2 ((mark? ':' r).getD r)) =
              some [] := by
          rw [exactly?_two_iff.mpr ⟨hours, hHours, rfl⟩,
            Option.bind_some, hAfter]
          exact exactly?_two_iff.mpr
            ⟨minutes, hMinutes, (List.append_nil _).symm⟩
        rcases hSign with rfl | rfl
        · exact beq_iff_eq.mpr hRead
        · exact beq_iff_eq.mpr hRead

theorem IsZone.endsClock
    (h : IsZone cs) :
    EndsClock cs := by
  have hFirst :
      ∀ (c : Char) (rest : List Char),
        c ∈ marks → c ≠ ':' → c ≠ '.' →
          EndsClock (c :: rest) :=
    fun c rest hMark hColon hPoint =>
      ⟨endsDigits_cons hMark rest, by simpa using hColon,
        by simpa using hPoint⟩
  cases h with
  | none => exact ⟨endsDigits_nil, by simp, by simp⟩
  | utc =>
      exact hFirst _ _ (by decide) (by decide) (by decide)
  | offset hSign _ _ _ =>
      rcases hSign with rfl | rfl
      · exact hFirst _ _ (by decide) (by decide) (by decide)
      · exact hFirst _ _ (by decide) (by decide) (by decide)

end Pieces

------------------------------------------------------------
-- Reading forms
------------------------------------------------------------

section Forms

variable {cs : List Char}

theorem isYear_iff :
    isYear cs = true ↔ IsYear cs := by
  unfold isYear
  rw [beq_iff_eq, afterYear?_eq_some_iff]
  constructor
  · rintro ⟨year, hYear, _, rfl⟩
    rw [List.append_nil]
    exact hYear
  · intro h
    exact ⟨cs, h, endsDigits_nil, (List.append_nil cs).symm⟩

theorem isYearMonth_iff :
    isYearMonth cs = true ↔
      ∃ year month,
        IsYear year ∧ IsPair month ∧ cs = year ++ '-' :: month := by
  unfold isYearMonth
  simp only [beq_iff_eq, Option.bind_eq_some_iff, mark?_eq_some_iff,
    exactly?_two_iff, afterYear?_eq_some_iff, List.append_nil]
  constructor
  · rintro ⟨_, ⟨year, hYear, _, rfl⟩, _, rfl, month, hMonth, rfl⟩
    exact ⟨year, _, hYear, hMonth, rfl⟩
  · rintro ⟨year, month, hYear, hMonth, rfl⟩
    exact
      ⟨_, ⟨year, hYear, endsDigits_cons (by decide) _, rfl⟩, _,
        rfl, _, hMonth, rfl⟩

theorem isDate_iff :
    isDate cs = true ↔
      ∃ day zone, IsDay day ∧ IsZone zone ∧ cs = day ++ zone := by
  unfold isDate
  constructor
  · intro h
    split at h
    · cases h
    · rename_i zone hZone
      rcases afterDay?_eq_some_iff.mp hZone with ⟨day, hDay, hText⟩
      exact ⟨day, zone, hDay, isZone_iff.mp h, hText⟩
  · rintro ⟨day, zone, hDay, hZone, rfl⟩
    rw [afterDay?_eq_some_iff.mpr ⟨day, hDay, rfl⟩]
    exact isZone_iff.mpr hZone

theorem isTime_iff :
    isTime cs = true ↔
      ∃ clock zone, IsClock clock ∧ IsZone zone ∧ cs = clock ++ zone := by
  unfold isTime
  constructor
  · intro h
    split at h
    · cases h
    · rename_i zone hZone
      rcases exists_clock hZone with ⟨clock, hClock, hText⟩
      exact ⟨clock, zone, hClock, isZone_iff.mp h, hText⟩
  · rintro ⟨clock, zone, hClock, hZone, rfl⟩
    rw [afterClock?_append hClock hZone.endsClock]
    exact isZone_iff.mpr hZone

theorem isDateTime_iff :
    isDateTime cs = true ↔
      ∃ day clock zone,
        IsDay day ∧ IsClock clock ∧ IsZone zone ∧
          cs = day ++ 'T' :: (clock ++ zone) := by
  unfold isDateTime
  constructor
  · intro h
    split at h
    · cases h
    · rename_i zone hFound
      simp only [Option.bind_eq_some_iff, mark?_eq_some_iff,
        afterDay?_eq_some_iff] at hFound
      rcases hFound with ⟨_, ⟨day, hDay, rfl⟩, _, rfl, hClock⟩
      rcases exists_clock hClock with ⟨clock, hIsClock, rfl⟩
      exact
        ⟨day, clock, zone, hDay, hIsClock, isZone_iff.mp h, rfl⟩
  · rintro ⟨day, clock, zone, hDay, hClock, hZone, rfl⟩
    rw [afterDay?_eq_some_iff.mpr ⟨day, hDay, rfl⟩, Option.bind_some,
      mark?_self, Option.bind_some,
      afterClock?_append hClock hZone.endsClock]
    exact isZone_iff.mpr hZone

/- Whatever has a form is written for its datatype. -/
theorem written_of_form
    {form : (List Char → Bool) × Iri}
    (hForm : form ∈ forms)
    (h : form.1 cs = true) :
    Written form.2 cs := by
  simp only [forms, List.mem_cons, List.not_mem_nil, or_false] at hForm
  rcases hForm with rfl | rfl | rfl | rfl | rfl | rfl
  · rcases isDuration_iff.mp h with ⟨d, hGiven, rfl⟩
    exact .duration hGiven
  · rcases isDateTime_iff.mp h with
      ⟨day, clock, zone, hDay, hClock, hZone, rfl⟩
    exact .dateTime hDay hClock hZone
  · rcases isDate_iff.mp h with ⟨day, zone, hDay, hZone, rfl⟩
    exact .date hDay hZone
  · rcases isTime_iff.mp h with ⟨clock, zone, hClock, hZone, rfl⟩
    exact .time hClock hZone
  · rcases isYearMonth_iff.mp h with ⟨year, month, hYear, hMonth, rfl⟩
    exact .yearMonth hYear hMonth
  · exact .year (isYear_iff.mp h)

/- Whatever is written for a datatype has a form with it. -/
theorem form_of_written
    {d : Iri}
    (h : Written d cs) :
    ∃ form ∈ forms, form.2 = d ∧ form.1 cs = true := by
  cases h with
  | @duration d hGiven =>
      exact ⟨(isDuration, Xsd.duration), by simp [forms], rfl,
        isDuration_iff.mpr ⟨d, hGiven, rfl⟩⟩
  | dateTime hDay hClock hZone =>
      exact ⟨(isDateTime, Xsd.dateTime), by simp [forms], rfl,
        isDateTime_iff.mpr ⟨_, _, _, hDay, hClock, hZone, rfl⟩⟩
  | date hDay hZone =>
      exact ⟨(isDate, Xsd.date), by simp [forms], rfl,
        isDate_iff.mpr ⟨_, _, hDay, hZone, rfl⟩⟩
  | time hClock hZone =>
      exact ⟨(isTime, Xsd.time), by simp [forms], rfl,
        isTime_iff.mpr ⟨_, _, hClock, hZone, rfl⟩⟩
  | yearMonth hYear hMonth =>
      exact ⟨(isYearMonth, Xsd.gYearMonth), by simp [forms], rfl,
        isYearMonth_iff.mpr ⟨_, _, hYear, hMonth, rfl⟩⟩
  | year hYear =>
      exact ⟨(isYear, Xsd.gYear), by simp [forms], rfl,
        isYear_iff.mpr hYear⟩

end Forms

------------------------------------------------------------
-- Sorting texts
------------------------------------------------------------

/-
  The only datatype that a text may have, by its first signs:
  what follows the sign, the year, the month and the day.
-/
def sort
    (cs : List Char) : Iri :=
  if (mark? 'P' (afterSign cs)).isSome then
    Xsd.duration
  else
    match afterYear? cs with
    | none => Xsd.time
    | some [] => Xsd.gYear
    | some rest =>
        if (mark? '-' rest).bind (exactly? 2) == some [] then
          Xsd.gYearMonth
        else if (afterDay? cs).bind List.head? == some 'T' then
          Xsd.dateTime
        else
          Xsd.date

section Sorting

variable {cs : List Char}

/- No text that starts with digits is a duration. -/
theorem mark?_of_digits
    {digits : List Char}
    (hGiven : digits ≠ [])
    (hDigits : IsDigits digits)
    (rest : List Char) :
    mark? 'P' (digits ++ rest) = none := by
  apply mark?_eq_none
  rcases head?_digits_append hGiven hDigits rest with ⟨c, hHead, hDigit⟩
  rw [hHead]
  intro hEq
  exact ne_of_isDecimal hDigit (by decide) (Option.some.inj hEq)

theorem mark?_afterSign_of_year
    {rest : List Char}
    (h : afterYear? cs = some rest) :
    mark? 'P' (afterSign cs) = none := by
  rcases atLeast?_eq_some_iff.mp h with
    ⟨digits, hLength, hDigits, _, hText⟩
  rw [hText]
  exact
    mark?_of_digits
      (List.ne_nil_of_length_pos (Nat.lt_of_lt_of_le (by decide) hLength))
      hDigits rest

theorem sort_duration
    (h : isDuration cs = true) :
    sort cs = Xsd.duration := by
  unfold isDuration at h
  unfold sort
  split at h
  · cases h
  · rename_i parts hMark
    rw [hMark]
    rfl

/- A text with a clock first has too few digits for a year. -/
theorem sort_time
    (h : isTime cs = true) :
    sort cs = Xsd.time := by
  have hFront :
      ∃ hours rest, IsPair hours ∧ cs = hours ++ ':' :: rest := by
    rcases isTime_iff.mp h with ⟨clock, zone, hClock, _, rfl⟩
    cases hClock with
    | minutes hHours _ =>
        exact ⟨_, _, hHours, List.append_assoc _ _ _⟩
    | seconds hHours _ _ _ =>
        exact ⟨_, _, hHours, List.append_assoc _ _ _⟩
  rcases hFront with ⟨hours, rest, hHours, rfl⟩
  have hGiven : hours ≠ [] := by
    rintro rfl
    cases hHours.length
  have hSign :
      afterSign (hours ++ ':' :: rest) = hours ++ ':' :: rest :=
    afterSign_digits (.inl rfl) hGiven hHours.digits _
  have hYear : afterYear? (hours ++ ':' :: rest) = none := by
    unfold afterYear? atLeast?
    rw [hSign, takeWhile_digits hHours.digits
      (endsDigits_cons (by decide) _), hHours.length]
    rfl
  unfold sort
  rw [hSign, mark?_of_digits hGiven hHours.digits, hYear]
  rfl

/- A text that starts with a year is sorted by what follows it. -/
theorem sort_of_year
    {rest : List Char}
    (h : afterYear? cs = some rest) :
    sort cs =
      if rest.isEmpty then
        Xsd.gYear
      else if (mark? '-' rest).bind (exactly? 2) == some [] then
        Xsd.gYearMonth
      else if (afterDay? cs).bind List.head? == some 'T' then
        Xsd.dateTime
      else
        Xsd.date := by
  unfold sort
  rw [mark?_afterSign_of_year h, h]
  cases rest with
  | nil => rfl
  | cons c rest => rfl

theorem sort_year
    (h : isYear cs = true) :
    sort cs = Xsd.gYear := by
  rw [sort_of_year (beq_iff_eq.mp h)]
  rfl

theorem sort_yearMonth
    (h : isYearMonth cs = true) :
    sort cs = Xsd.gYearMonth := by
  rcases Option.bind_eq_some_iff.mp (beq_iff_eq.mp h) with
    ⟨rest, hYear, hMonth⟩
  rw [sort_of_year hYear, hMonth]
  cases rest with
  | nil => cases hMonth
  | cons c rest => rfl

/- What follows a year is more than a month where a day is read. -/
theorem sort_of_day
    {rest : List Char}
    (h : afterDay? cs = some rest) :
    sort cs =
      if rest.head? = some 'T' then Xsd.dateTime else Xsd.date := by
  have hDay := h
  unfold afterDay? at h
  simp only [Option.bind_eq_bind, Option.bind_eq_some_iff,
    mark?_eq_some_iff] at h
  rcases h with ⟨_, hYear, month, rfl, _, hMonth, day, rfl, _⟩
  rw [sort_of_year hYear, hDay]
  simp [mark?_self, hMonth]

theorem sort_dateTime
    (h : isDateTime cs = true) :
    sort cs = Xsd.dateTime := by
  rcases isDateTime_iff.mp h with ⟨day, clock, zone, hDay, _, _, rfl⟩
  rw [sort_of_day (afterDay?_eq_some_iff.mpr ⟨day, hDay, rfl⟩)]
  rfl

theorem sort_date
    (h : isDate cs = true) :
    sort cs = Xsd.date := by
  rcases isDate_iff.mp h with ⟨day, zone, hDay, hZone, rfl⟩
  rw [sort_of_day (afterDay?_eq_some_iff.mpr ⟨day, hDay, rfl⟩), if_neg]
  cases hZone with
  | none => simp
  | utc => simp
  | offset hSign _ _ _ => rcases hSign with rfl | rfl <;> simp

/- A text that has a form has the datatype that it is sorted to. -/
theorem datatype_eq_sort
    {form : (List Char → Bool) × Iri}
    (hForm : form ∈ forms)
    (h : form.1 cs = true) :
    form.2 = sort cs := by
  simp only [forms, List.mem_cons, List.not_mem_nil, or_false] at hForm
  rcases hForm with rfl | rfl | rfl | rfl | rfl | rfl
  · exact (sort_duration h).symm
  · exact (sort_dateTime h).symm
  · exact (sort_date h).symm
  · exact (sort_time h).symm
  · exact (sort_yearMonth h).symm
  · exact (sort_year h).symm

end Sorting

------------------------------------------------------------
-- Datatypes
------------------------------------------------------------

theorem nodup_datatypes :
    (forms.map (·.2)).Nodup := by
  simp only [forms, List.map_cons, List.map_nil, List.nodup_cons,
    List.mem_cons, List.not_mem_nil, or_false, not_or]
  decide +kernel

/- At most one of the forms fits a text. -/
theorem length_fitting_le_one
    (cs : List Char) :
    (forms.filter (fun form => form.1 cs)).length ≤ 1 := by
  have hSublist :
      (forms.filter (fun form => form.1 cs)).Sublist forms :=
    List.filter_sublist
  have hFits :
      ∀ form ∈ forms.filter (fun form => form.1 cs),
        form.2 = sort cs := by
    intro form hMem
    rcases List.mem_filter.mp hMem with ⟨hForm, hFits⟩
    exact datatype_eq_sort hForm hFits
  generalize forms.filter (fun form => form.1 cs) = fitting
    at hSublist hFits ⊢
  have hNodup : (fitting.map (·.2)).Nodup :=
    (hSublist.map (·.2)).nodup nodup_datatypes
  have hSame :
      fitting.map (·.2) = List.replicate fitting.length (sort cs) := by
    rw [List.eq_replicate_iff]
    refine ⟨List.length_map _, ?_⟩
    intro d hMem
    rcases List.mem_map.mp hMem with ⟨form, hForm, rfl⟩
    exact hFits form hForm
  rw [hSame] at hNodup
  exact List.nodup_replicate.mp hNodup

/- In whatever order the forms are tried, the same one fits. -/
theorem find?_of_perm
    (cs : List Char)
    {order : List ((List Char → Bool) × Iri)}
    (h : order.Perm forms) :
    order.find? (fun form => form.1 cs) =
      forms.find? (fun form => form.1 cs) := by
  have hFits := h.filter (fun form => form.1 cs)
  have hLength := length_fitting_le_one cs
  rw [← List.head?_filter, ← List.head?_filter]
  generalize forms.filter (fun form => form.1 cs) = fitting
    at hFits hLength ⊢
  match fitting, hLength with
  | [], _ => rw [hFits.eq_nil]
  | [form], _ => rw [List.perm_singleton.mp hFits]

/- The form that is found fits the text, and is one of them. -/
theorem fits_of_find?
    {cs : List Char}
    {form : (List Char → Bool) × Iri}
    (h : forms.find? (fun form => form.1 cs) = some form) :
    form ∈ forms ∧ form.1 cs = true :=
  ⟨List.mem_of_find?_eq_some h, List.find?_eq_some_iff_append.mp h |>.1⟩

/- A text has the datatype that it is written for. -/
theorem datatype?_eq_some_iff
    {value : String}
    {d : Iri} :
    datatype? value = some d ↔
      Written d (Text.trimChars value.toList) := by
  unfold datatype?
  rw [Option.map_eq_some_iff]
  constructor
  · rintro ⟨form, hFound, rfl⟩
    rcases fits_of_find? hFound with ⟨hForm, hFits⟩
    exact written_of_form hForm hFits
  · intro h
    rcases form_of_written h with ⟨form, hForm, rfl, hFits⟩
    cases hFound :
        forms.find?
          (fun form => form.1 (Text.trimChars value.toList)) with
    | none =>
        exact absurd hFits (List.find?_eq_none.mp hFound form hForm)
    | some other =>
        rcases fits_of_find? hFound with ⟨hOther, hFitsOther⟩
        refine ⟨other, rfl, ?_⟩
        rw [datatype_eq_sort hForm hFits,
          datatype_eq_sort hOther hFitsOther]

/-
  At most one of the forms fits a text without the blanks
  around it, so a datatype does not depend on their order; it
  is the one that the text is written for. For durations that
  means a text with at least one part, where the parts are in
  order and the mark of a clock comes with hours, minutes or
  seconds.
-/
theorem forms_exclude_each_other
    (value : String) :
    (forms.filter
        (fun form => form.1 (Text.trimChars value.toList))).length ≤ 1 ∧
      (∀ order : List ((List Char → Bool) × Iri),
        order.Perm forms →
          (order.find?
              (fun form =>
                form.1 (Text.trimChars value.toList))).map (·.2) =
            datatype? value) ∧
      (∀ d,
        datatype? value = some d ↔
          Written d (Text.trimChars value.toList)) ∧
      (datatype? value = some Xsd.duration ↔
        ∃ d : Duration,
          d.isGiven = true ∧
            d.text = Text.trimChars value.toList) := by
  refine ⟨length_fitting_le_one _, ?_, ?_, ?_⟩
  · intro order hOrder
    rw [find?_of_perm _ hOrder]
    rfl
  · exact fun d => datatype?_eq_some_iff
  · rw [datatype?_eq_some_iff, ← isDuration_iff]
    constructor
    · intro h
      rcases form_of_written h with ⟨form, hForm, hDatatype, hFits⟩
      have hSame :=
        List.inj_on_of_nodup_map nodup_datatypes hForm
          List.mem_cons_self hDatatype
      rwa [hSame] at hFits
    · exact fun h => written_of_form List.mem_cons_self h

end Moment
end LinkedMarkup
