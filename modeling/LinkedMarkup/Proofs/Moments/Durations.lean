import LinkedMarkup.Annotation.Moment
import Mathlib.Data.List.TakeWhile

/-
  This file proves which texts are durations: those that are
  written for a sign, some of the years, months and days, and
  some of the hours, minutes and seconds, where at least one
  of these is there. The numbers are of any length and may use
  the digits of any script.

  Key definitions include:
    * `Moment.IsDigits`
    * `Moment.marks`
    * `Moment.Numeral`
    * `Moment.Duration`
    * `Moment.Duration.text`
    * `Moment.Duration.isGiven`

  Main declarations:
    * `Moment.atLeast?_eq_some_iff`
    * `Moment.exists_written_part`
    * `Moment.afterPart_written`
    * `Moment.isDuration_iff`
-/

namespace LinkedMarkup
namespace Moment

------------------------------------------------------------
-- Digits
------------------------------------------------------------

/- Nothing but digits. -/
def IsDigits
    (cs : List Char) : Prop :=
  ∀ c ∈ cs, Text.isDecimal c = true

/- What may follow a number: nothing, or no digit. -/
def EndsDigits
    (rest : List Char) : Prop :=
  ∀ c ∈ rest.head?, Text.isDecimal c = false

theorem endsDigits_nil :
    EndsDigits [] := by
  rintro c ⟨⟩

/- The characters besides digits that moments are written with. -/
def marks : List Char :=
  ['+', '-', '.', ':', 'D', 'H', 'M', 'P', 'S', 'T', 'Y', 'Z']

theorem isDecimal_of_mark
    {c : Char}
    (h : c ∈ marks) :
    Text.isDecimal c = false := by
  have hMarks :
      marks.all (fun c => !Text.isDecimal c) = true := by
    decide +kernel
  simpa using List.all_eq_true.mp hMarks c h

theorem endsDigits_cons
    {c : Char}
    (h : c ∈ marks)
    (rest : List Char) :
    EndsDigits (c :: rest) := by
  rintro d ⟨⟩
  exact isDecimal_of_mark h

section Runs

variable {digits rest : List Char}

theorem takeWhile_digits
    (h : IsDigits digits)
    (hRest : EndsDigits rest) :
    (digits ++ rest).takeWhile Text.isDecimal = digits := by
  rw [List.takeWhile_append_of_pos h]
  cases rest with
  | nil => exact List.append_nil _
  | cons c rest => simp [hRest c rfl]

theorem dropWhile_digits
    (h : IsDigits digits)
    (hRest : EndsDigits rest) :
    (digits ++ rest).dropWhile Text.isDecimal = rest := by
  rw [List.dropWhile_append_of_pos h]
  cases rest with
  | nil => rfl
  | cons c rest => simp [hRest c rfl]

theorem endsDigits_dropWhile
    (cs : List Char) :
    EndsDigits (cs.dropWhile Text.isDecimal) := by
  intro c hHead
  have hNot := List.head?_dropWhile_not Text.isDecimal cs
  rw [Option.mem_def.mp hHead] at hNot
  exact hNot

/- A run of enough digits is read up to its end. -/
theorem atLeast?_eq_some_iff
    {n : Nat}
    {cs : List Char} :
    atLeast? n cs = some rest ↔
      ∃ digits,
        n ≤ digits.length ∧ IsDigits digits ∧ EndsDigits rest ∧
          cs = digits ++ rest := by
  unfold atLeast?
  constructor
  · intro h
    split at h
    · rename_i hLength
      cases h
      exact
        ⟨cs.takeWhile Text.isDecimal, hLength,
          fun c hMem => List.mem_takeWhile_imp hMem,
          endsDigits_dropWhile cs, List.takeWhile_append_dropWhile.symm⟩
    · cases h
  · rintro ⟨digits, hLength, hDigits, hRest, rfl⟩
    rw [takeWhile_digits hDigits hRest, dropWhile_digits hDigits hRest,
      if_pos hLength]

/- Exactly so many digits are read, whatever comes after them. -/
theorem exactly?_eq_some_iff
    {n : Nat}
    {cs : List Char} :
    exactly? n cs = some rest ↔
      ∃ digits,
        digits.length = n ∧ IsDigits digits ∧ cs = digits ++ rest := by
  induction n generalizing cs with
  | zero =>
      constructor
      · rintro ⟨⟩
        exact ⟨[], rfl, by simp [IsDigits], rfl⟩
      · rintro ⟨digits, hLength, _, rfl⟩
        rw [List.eq_nil_of_length_eq_zero hLength]
        rfl
  | succ n ih =>
      cases cs with
      | nil =>
          refine iff_of_false (by simp [exactly?]) ?_
          rintro ⟨digits, hLength, _, hNil⟩
          rw [(List.nil_eq_append_iff.mp hNil).1] at hLength
          cases hLength
      | cons c cs =>
          constructor
          · intro h
            unfold exactly? at h
            split at h
            · rename_i hDigit
              rcases ih.mp h with ⟨digits, hLength, hDigits, rfl⟩
              exact
                ⟨c :: digits, congrArg Nat.succ hLength,
                  List.forall_mem_cons.mpr ⟨hDigit, hDigits⟩, rfl⟩
            · cases h
          · rintro ⟨digits, hLength, hDigits, hEq⟩
            cases digits with
            | nil => cases hLength
            | cons d digits =>
                cases hEq
                rcases List.forall_mem_cons.mp hDigits with
                  ⟨hDigit, hMore⟩
                unfold exactly?
                rw [if_pos hDigit]
                exact ih.mpr ⟨digits, Nat.succ.inj hLength, hMore, rfl⟩

end Runs

theorem mark?_eq_some_iff
    {mark : Char}
    {cs rest : List Char} :
    mark? mark cs = some rest ↔ cs = mark :: rest := by
  cases cs with
  | nil => simp [mark?]
  | cons c cs => simp [mark?]

theorem mark?_self
    (mark : Char)
    (rest : List Char) :
    mark? mark (mark :: rest) = some rest :=
  mark?_eq_some_iff.mpr rfl

theorem mark?_eq_none
    {mark : Char}
    {cs : List Char}
    (h : cs.head? ≠ some mark) :
    mark? mark cs = none := by
  rw [Option.eq_none_iff_forall_ne_some]
  intro rest hMark
  rw [mark?_eq_some_iff.mp hMark] at h
  exact h rfl

/- A sign is taken off, if there is one. -/
theorem afterSign_cases
    (cs : List Char) :
    ∃ sign,
      (sign = [] ∨ sign = ['-']) ∧ cs = sign ++ afterSign cs := by
  unfold afterSign
  cases hMark : mark? '-' cs with
  | none => exact ⟨[], .inl rfl, rfl⟩
  | some rest =>
      exact ⟨['-'], .inr rfl, mark?_eq_some_iff.mp hMark⟩

theorem afterSign_append
    {sign rest : List Char}
    (hSign : sign = [] ∨ sign = ['-'])
    (hRest : rest.head? ≠ some '-') :
    afterSign (sign ++ rest) = rest := by
  rcases hSign with rfl | rfl
  · unfold afterSign
    rw [List.nil_append, mark?_eq_none hRest]
    rfl
  · rfl

------------------------------------------------------------
-- Parts of durations
------------------------------------------------------------

/- A number in the digits of any script. -/
structure Numeral where
  digits : List Char
  given : digits ≠ []
  decimal : IsDigits digits

/- Seconds, which may have a fraction. -/
structure Seconds where
  whole : Numeral
  fraction : Option Numeral

/- A number with its mark, nothing if it is missing. -/
def writtenPart
    (mark : Char) :
    Option Numeral → List Char
  | none => []
  | some n => n.digits ++ [mark]

/- The digits of a fraction after a point. -/
def writtenFraction :
    Option Numeral → List Char
  | none => []
  | some n => '.' :: n.digits

/- A number of seconds with its mark. -/
def writtenSeconds :
    Option Seconds → List Char
  | none => []
  | some s => s.whole.digits ++ (writtenFraction s.fraction ++ ['S'])

/- The first character that is no digit. -/
def firstMark
    (cs : List Char) : Option Char :=
  (cs.dropWhile Text.isDecimal).head?

theorem Numeral.length_pos
    (n : Numeral) :
    1 ≤ n.digits.length :=
  List.length_pos_iff.mpr n.given

theorem firstMark_digits
    {digits : List Char}
    (h : IsDigits digits)
    (rest : List Char) :
    firstMark (digits ++ rest) = firstMark rest := by
  unfold firstMark
  rw [List.dropWhile_append_of_pos h]

theorem firstMark_cons
    {mark : Char}
    (h : mark ∈ marks)
    (rest : List Char) :
    firstMark (mark :: rest) = some mark := by
  unfold firstMark
  rw [List.dropWhile_cons, isDecimal_of_mark h]
  rfl

theorem firstMark_writtenPart
    {mark : Char}
    (h : mark ∈ marks)
    (part : Option Numeral)
    (rest : List Char) :
    firstMark (writtenPart mark part ++ rest) = some mark ∨
      firstMark (writtenPart mark part ++ rest) = firstMark rest := by
  cases part with
  | none => exact .inr rfl
  | some n =>
      left
      rw [writtenPart, List.append_assoc, firstMark_digits n.decimal]
      exact firstMark_cons h rest

/- A number is found where enough digits are. -/
theorem exists_numeral
    {cs rest : List Char}
    (h : atLeast? 1 cs = some rest) :
    ∃ n : Numeral, cs = n.digits ++ rest := by
  rcases atLeast?_eq_some_iff.mp h with
    ⟨digits, hLength, hDigits, _, hText⟩
  exact ⟨⟨digits, List.ne_nil_of_length_pos hLength, hDigits⟩, hText⟩

theorem atLeast?_numeral
    (n : Numeral)
    {rest : List Char}
    (hRest : EndsDigits rest) :
    atLeast? 1 (n.digits ++ rest) = some rest :=
  atLeast?_eq_some_iff.mpr
    ⟨n.digits, n.length_pos, n.decimal, hRest, rfl⟩

/- Without its mark a number is not read. -/
theorem atLeast?_bind_mark?_eq_none
    {n : Nat}
    {mark : Char}
    {cs : List Char}
    (h : firstMark cs ≠ some mark) :
    (atLeast? n cs).bind (mark? mark) = none := by
  unfold atLeast?
  split
  · rw [Option.bind_some, mark?_eq_none h]
  · rfl

/- What is passed over as a part is one, or nothing. -/
theorem exists_written_part
    (mark : Char)
    (cs : List Char) :
    ∃ part, cs = writtenPart mark part ++ afterPart mark cs := by
  unfold afterPart
  cases hFound : (atLeast? 1 cs).bind (mark? mark) with
  | none => exact ⟨none, rfl⟩
  | some rest =>
      rcases Option.bind_eq_some_iff.mp hFound with
        ⟨tail, hDigits, hMark⟩
      rcases exists_numeral hDigits with ⟨n, rfl⟩
      refine ⟨some n, ?_⟩
      rw [mark?_eq_some_iff.mp hMark]
      simp [writtenPart]

/- A part is passed over, unless it is missing. -/
theorem afterPart_written
    {mark : Char}
    (hMark : mark ∈ marks)
    (part : Option Numeral)
    {rest : List Char}
    (hRest : firstMark rest ≠ some mark) :
    afterPart mark (writtenPart mark part ++ rest) = rest := by
  unfold afterPart
  cases part with
  | none =>
      rw [writtenPart, List.nil_append,
        atLeast?_bind_mark?_eq_none hRest]
      rfl
  | some n =>
      rw [writtenPart, List.append_assoc, List.singleton_append,
        atLeast?_numeral n (endsDigits_cons hMark rest),
        Option.bind_some, mark?_self]
      rfl

theorem exists_written_fraction
    (cs : List Char) :
    ∃ fraction, cs = writtenFraction fraction ++ afterFraction cs := by
  unfold afterFraction
  cases hFound : (mark? '.' cs).bind (atLeast? 1) with
  | none => exact ⟨none, rfl⟩
  | some rest =>
      rcases Option.bind_eq_some_iff.mp hFound with
        ⟨tail, hMark, hDigits⟩
      rcases exists_numeral hDigits with ⟨n, rfl⟩
      exact ⟨some n, mark?_eq_some_iff.mp hMark⟩

theorem afterFraction_written
    (fraction : Option Numeral)
    {rest : List Char}
    (hDigits : EndsDigits rest)
    (hPoint : rest.head? ≠ some '.') :
    afterFraction (writtenFraction fraction ++ rest) = rest := by
  unfold afterFraction
  cases fraction with
  | none =>
      rw [writtenFraction, List.nil_append, mark?_eq_none hPoint]
      rfl
  | some n =>
      rw [writtenFraction, List.cons_append, mark?_self,
        Option.bind_some, atLeast?_numeral n hDigits]
      rfl

theorem exists_written_seconds
    (cs : List Char) :
    ∃ seconds, cs = writtenSeconds seconds ++ afterSecondsPart cs := by
  unfold afterSecondsPart
  cases hFound :
      (atLeast? 1 cs).bind (fun r => mark? 'S' (afterFraction r)) with
  | none => exact ⟨none, rfl⟩
  | some rest =>
      rcases Option.bind_eq_some_iff.mp hFound with
        ⟨tail, hDigits, hMark⟩
      rcases exists_numeral hDigits with ⟨n, rfl⟩
      rcases exists_written_fraction tail with ⟨fraction, hFraction⟩
      refine ⟨some ⟨n, fraction⟩, ?_⟩
      rw [mark?_eq_some_iff.mp hMark] at hFraction
      rw [hFraction]
      simp [writtenSeconds]

theorem afterSecondsPart_written
    (seconds : Option Seconds) :
    afterSecondsPart (writtenSeconds seconds) = [] := by
  unfold afterSecondsPart
  cases seconds with
  | none => rfl
  | some s =>
      have hEnds :
          EndsDigits (writtenFraction s.fraction ++ ['S']) := by
        cases s.fraction with
        | none => exact endsDigits_cons (by decide) _
        | some n => exact endsDigits_cons (by decide) _
      have hFraction :
          afterFraction (writtenFraction s.fraction ++ ['S']) = ['S'] :=
        afterFraction_written s.fraction
          (endsDigits_cons (by decide) _) (by decide)
      rw [writtenSeconds, atLeast?_numeral s.whole hEnds,
        Option.bind_some, hFraction]
      rfl

------------------------------------------------------------
-- Durations
------------------------------------------------------------

/- A duration: its sign, and the parts that it has. -/
structure Duration where
  negative : Bool
  years : Option Numeral
  months : Option Numeral
  days : Option Numeral
  hours : Option Numeral
  minutes : Option Numeral
  seconds : Option Seconds

namespace Duration

variable (d : Duration)

/- Whether a duration has hours, minutes or seconds. -/
def hasClock : Bool :=
  d.hours.isSome || d.minutes.isSome || d.seconds.isSome

/- Whether a duration has any part at all. -/
def isGiven : Bool :=
  d.years.isSome || d.months.isSome || d.days.isSome || d.hasClock

/- Hours, minutes and seconds, in this order. -/
def clockText : List Char :=
  writtenPart 'H' d.hours ++
    (writtenPart 'M' d.minutes ++ writtenSeconds d.seconds)

/- Years, months, days, and the others after a mark of theirs. -/
def partsText : List Char :=
  writtenPart 'Y' d.years ++
    (writtenPart 'M' d.months ++
      (writtenPart 'D' d.days ++
        if d.hasClock then 'T' :: d.clockText else []))

/- A duration as it is written. -/
def text : List Char :=
  (if d.negative then ['-'] else []) ++ 'P' :: d.partsText

end Duration

theorem writtenPart_eq_nil_iff
    {mark : Char}
    {part : Option Numeral} :
    writtenPart mark part = [] ↔ part.isSome = false := by
  cases part <;> simp [writtenPart]

theorem writtenSeconds_eq_nil_iff
    {seconds : Option Seconds} :
    writtenSeconds seconds = [] ↔ seconds.isSome = false := by
  cases seconds <;> simp [writtenSeconds]

theorem Duration.clockText_eq_nil_iff
    {d : Duration} :
    d.clockText = [] ↔ d.hasClock = false := by
  unfold clockText hasClock
  rw [List.append_eq_nil_iff, List.append_eq_nil_iff,
    writtenPart_eq_nil_iff, writtenPart_eq_nil_iff,
    writtenSeconds_eq_nil_iff, Bool.or_eq_false_iff,
    Bool.or_eq_false_iff, and_assoc]

theorem Duration.partsText_eq_nil_iff
    {d : Duration} :
    d.partsText = [] ↔ d.isGiven = false := by
  have hClock :
      (if d.hasClock then 'T' :: d.clockText else []) = [] ↔
        d.hasClock = false := by
    cases d.hasClock <;> simp
  unfold partsText isGiven
  rw [List.append_eq_nil_iff, List.append_eq_nil_iff,
    List.append_eq_nil_iff, writtenPart_eq_nil_iff,
    writtenPart_eq_nil_iff, writtenPart_eq_nil_iff, hClock,
    Bool.or_eq_false_iff, Bool.or_eq_false_iff, Bool.or_eq_false_iff,
    and_assoc, and_assoc]

theorem Duration.isGiven_of_partsText
    (d : Duration)
    (h : d.partsText ≠ []) :
    d.isGiven = true := by
  cases hIs : d.isGiven with
  | true => rfl
  | false => exact absurd (partsText_eq_nil_iff.mpr hIs) h

/- What is read as a clock is written for some of its parts. -/
theorem exists_clockText
    {cs : List Char}
    (h : isClockDuration cs = true) :
    ∃ hours minutes seconds,
      cs ≠ [] ∧
        cs =
          writtenPart 'H' hours ++
            (writtenPart 'M' minutes ++ writtenSeconds seconds) := by
  unfold isClockDuration at h
  rw [Bool.and_eq_true, Bool.not_eq_true', List.isEmpty_eq_false_iff,
    List.isEmpty_iff] at h
  rcases exists_written_part 'H' cs with ⟨hours, hHours⟩
  rcases exists_written_part 'M' (afterPart 'H' cs) with
    ⟨minutes, hMinutes⟩
  rcases exists_written_seconds (afterPart 'M' (afterPart 'H' cs)) with
    ⟨seconds, hSeconds⟩
  refine ⟨hours, minutes, seconds, h.1, ?_⟩
  rw [h.2, List.append_nil] at hSeconds
  rw [← hSeconds, ← hMinutes, ← hHours]

theorem firstMark_writtenSeconds
    (seconds : Option Seconds) :
    firstMark (writtenSeconds seconds) ≠ some 'M' ∧
      firstMark (writtenSeconds seconds) ≠ some 'H' := by
  cases seconds with
  | none => exact ⟨by decide, by decide⟩
  | some s =>
      rw [writtenSeconds, firstMark_digits s.whole.decimal]
      cases s.fraction with
      | none =>
          rw [writtenFraction, List.nil_append,
            firstMark_cons (by decide)]
          exact ⟨by decide, by decide⟩
      | some n =>
          rw [writtenFraction, List.cons_append,
            firstMark_cons (by decide)]
          exact ⟨by decide, by decide⟩

theorem isClockDuration_clockText
    {d : Duration}
    (h : d.hasClock = true) :
    isClockDuration d.clockText = true := by
  have hGiven : d.clockText ≠ [] := by
    intro hNil
    rw [Duration.clockText_eq_nil_iff.mp hNil] at h
    cases h
  have hH : 'H' ∈ marks := by decide
  have hM : 'M' ∈ marks := by decide
  have hSeconds := firstMark_writtenSeconds d.seconds
  have hMinutes :
      firstMark (writtenPart 'M' d.minutes ++ writtenSeconds d.seconds) ≠
        some 'H' := by
    rcases
      firstMark_writtenPart hM d.minutes (writtenSeconds d.seconds) with
      hFirst | hFirst
    · rw [hFirst]
      decide
    · rw [hFirst]
      exact hSeconds.2
  unfold isClockDuration
  rw [Bool.and_eq_true, Bool.not_eq_true', List.isEmpty_eq_false_iff]
  refine ⟨hGiven, ?_⟩
  unfold Duration.clockText
  rw [afterPart_written hH _ hMinutes,
    afterPart_written hM _ hSeconds.1,
    afterSecondsPart_written]
  rfl

namespace Duration

/- What follows the days: nothing, or the mark of a clock. -/
theorem afterDays_cases
    (d : Duration) :
    (if d.hasClock then 'T' :: d.clockText else []) = [] ∨
      d.hasClock = true ∧
        (if d.hasClock then 'T' :: d.clockText else []) =
          'T' :: d.clockText := by
  cases d.hasClock with
  | false => exact .inl rfl
  | true => exact .inr ⟨rfl, rfl⟩

/- Years, months and days are passed over in their order. -/
theorem afterDays_partsText
    (d : Duration) :
    afterPart 'D' (afterPart 'M' (afterPart 'Y' d.partsText)) =
      if d.hasClock then 'T' :: d.clockText else [] := by
  unfold partsText
  have hTail :
      firstMark (if d.hasClock then 'T' :: d.clockText else []) = none ∨
        firstMark (if d.hasClock then 'T' :: d.clockText else []) =
          some 'T' := by
    rcases d.afterDays_cases with hNone | ⟨_, hSome⟩
    · rw [hNone]
      exact .inl rfl
    · rw [hSome]
      exact .inr (firstMark_cons (by decide) _)
  generalize (if d.hasClock then 'T' :: d.clockText else []) = tail
    at hTail ⊢
  have hY : 'Y' ∈ marks := by decide
  have hM : 'M' ∈ marks := by decide
  have hD : 'D' ∈ marks := by decide
  have hDays : firstMark tail ≠ some 'D' := by
    rcases hTail with h | h <;> simp [h]
  have hMonths :
      firstMark (writtenPart 'D' d.days ++ tail) ≠ some 'M' := by
    rcases firstMark_writtenPart hD d.days tail with h | h
    · simp [h]
    · rcases hTail with h' | h' <;> simp [h, h']
  have hYears :
      firstMark
          (writtenPart 'M' d.months ++
            (writtenPart 'D' d.days ++ tail)) ≠
        some 'Y' := by
    rcases
      firstMark_writtenPart hM d.months
        (writtenPart 'D' d.days ++ tail) with
      h | h
    · simp [h]
    · rcases firstMark_writtenPart hD d.days tail with h' | h'
      · simp [h, h']
      · rcases hTail with h'' | h'' <;> simp [h, h', h'']
  rw [afterPart_written hY _ hYears, afterPart_written hM _ hMonths,
    afterPart_written hD _ hDays]

theorem isDuration_text
    {d : Duration}
    (h : d.isGiven = true) :
    isDuration d.text = true := by
  have hSign :
      afterSign d.text = 'P' :: d.partsText := by
    unfold text
    apply afterSign_append
    · cases d.negative with
      | false => exact .inl rfl
      | true => exact .inr rfl
    · simp
  have hParts : d.partsText ≠ [] := by
    intro hNil
    rw [partsText_eq_nil_iff.mp hNil] at h
    cases h
  unfold isDuration
  rw [hSign, mark?_self]
  dsimp only
  rw [d.afterDays_partsText, Bool.and_eq_true, Bool.not_eq_true',
    List.isEmpty_eq_false_iff]
  refine ⟨hParts, ?_⟩
  rcases d.afterDays_cases with hNone | ⟨hClock, hSome⟩
  · rw [hNone]
  · rw [hSome]
    exact isClockDuration_clockText hClock

end Duration

/- What is read as the parts of a duration is written for them. -/
theorem exists_partsText
    {parts : List Char}
    (hGiven : parts ≠ [])
    (h :
      (match afterPart 'D' (afterPart 'M' (afterPart 'Y' parts)) with
        | [] => true
        | c :: rest => c == 'T' && isClockDuration rest) = true)
    (negative : Bool) :
    ∃ d : Duration,
      d.negative = negative ∧ d.isGiven = true ∧
        parts = d.partsText := by
  rcases exists_written_part 'Y' parts with ⟨years, hYears⟩
  rcases exists_written_part 'M' (afterPart 'Y' parts) with
    ⟨months, hMonths⟩
  rcases exists_written_part 'D' (afterPart 'M' (afterPart 'Y' parts))
    with ⟨days, hDays⟩
  have hFront :
      parts =
        writtenPart 'Y' years ++
          (writtenPart 'M' months ++
            (writtenPart 'D' days ++
              afterPart 'D' (afterPart 'M' (afterPart 'Y' parts)))) := by
    rw [← hDays, ← hMonths, ← hYears]
  cases hRest : afterPart 'D' (afterPart 'M' (afterPart 'Y' parts)) with
  | nil =>
      rw [hRest] at hFront
      let d : Duration :=
        ⟨negative, years, months, days, none, none, none⟩
      have hText : parts = d.partsText := hFront
      exact ⟨d, rfl, d.isGiven_of_partsText (hText ▸ hGiven), hText⟩
  | cons c rest =>
      rw [hRest, Bool.and_eq_true, beq_iff_eq] at h
      rw [hRest, h.1] at hFront
      rcases exists_clockText h.2 with
        ⟨hours, minutes, seconds, hSome, hClock⟩
      let d : Duration :=
        ⟨negative, years, months, days, hours, minutes, seconds⟩
      have hHas : d.hasClock = true := by
        cases hIs : d.hasClock with
        | true => rfl
        | false =>
            rw [hClock] at hSome
            exact absurd (Duration.clockText_eq_nil_iff.mpr hIs) hSome
      have hText : parts = d.partsText := by
        unfold Duration.partsText
        rw [if_pos hHas]
        unfold Duration.clockText
        rw [← hClock]
        exact hFront
      exact ⟨d, rfl, d.isGiven_of_partsText (hText ▸ hGiven), hText⟩

/-
  A text is a duration exactly if it is written for one that
  has at least one part.
-/
theorem isDuration_iff
    {cs : List Char} :
    isDuration cs = true ↔
      ∃ d : Duration, d.isGiven = true ∧ d.text = cs := by
  constructor
  · intro h
    unfold isDuration at h
    split at h
    · cases h
    · rename_i parts hMark
      rw [Bool.and_eq_true, Bool.not_eq_true',
        List.isEmpty_eq_false_iff] at h
      rcases afterSign_cases cs with ⟨sign, hSign, hText⟩
      rw [mark?_eq_some_iff.mp hMark] at hText
      rcases exists_partsText h.1 h.2 (sign == ['-']) with
        ⟨d, hNegative, hGiven, rfl⟩
      refine ⟨d, hGiven, ?_⟩
      unfold Duration.text
      rw [hText, hNegative]
      rcases hSign with rfl | rfl <;> rfl
  · rintro ⟨d, hGiven, rfl⟩
    exact Duration.isDuration_text hGiven

end Moment
end LinkedMarkup
