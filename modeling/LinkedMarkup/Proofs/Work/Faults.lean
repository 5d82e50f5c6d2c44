import LinkedMarkup.Proofs.Work.Ensures

/-
  This file proves rules for the faults of a step of work:
  which may end it wherever it starts, and under which
  condition one does. A step without any gives a result.

  Key definitions include:
    * `Work.FailsWith`
    * `Work.Succeeds`
    * `Work.FailsExactly`

  Main declarations:
    * `Work.FailsWith.bind`
    * `Work.failsWith_forEach`
    * `Work.Succeeds.exists_ok`
    * `Work.FailsExactly.bind`
    * `Work.FailsExactly.bind_error_iff`
-/

namespace LinkedMarkup
namespace Work

variable {α β : Type}

/- Wherever a step starts, `E` holds of a fault that ends it. -/
def FailsWith
    (E : Fault → Prop)
    (w : Work α) : Prop :=
  ∀ s fault t, w s = (.error fault, t) → E fault

/- A step that no fault ends. -/
def Succeeds
    (w : Work α) : Prop :=
  w.FailsWith (fun _ => False)

/-
  Wherever a step starts, a fault ends it exactly if `P`, and
  then `E` holds of that fault.
-/
structure FailsExactly
    (E : Fault → Prop)
    (P : Prop)
    (w : Work α) : Prop where
  failsWith : w.FailsWith E
  error_iff : ∀ s, (∃ fault t, w s = (.error fault, t)) ↔ P

section Rules

variable {E : Fault → Prop} {P Q : Prop}

------------------------------------------------------------
-- Which faults may end a step
------------------------------------------------------------

theorem failsWith_pure
    (a : α) :
    (pure a : Work α).FailsWith E := by
  intro s fault t hRun
  cases hRun

theorem failsWith_note
    (n : Note) :
    (note n).FailsWith E := by
  intro s fault t hRun
  cases hRun

theorem failsWith_fail
    {fault : Fault}
    (h : E fault) :
    (fail fault : Work α).FailsWith E := by
  intro s cause t hRun
  cases hRun
  exact h

theorem failsWith_ofOutcome
    {outcome : Except Fault α}
    (h : ∀ fault, outcome = .error fault → E fault) :
    (ofOutcome outcome).FailsWith E := by
  intro s fault t hRun
  exact h fault (congrArg Prod.fst hRun)

theorem FailsWith.mono
    {E' : Fault → Prop}
    {w : Work α}
    (h : w.FailsWith E)
    (hE : ∀ fault, E fault → E' fault) :
    w.FailsWith E' :=
  fun s fault t hRun => hE fault (h s fault t hRun)

/- A step that goes on fails as one of its parts. -/
theorem FailsWith.bind
    {w : Work α}
    {next : α → Work β}
    (h : w.FailsWith E)
    (hNext : ∀ a, (next a).FailsWith E) :
    (w >>= next).FailsWith E := by
  intro s fault u hRun
  rcases andThen_eq_error hRun with hFirst | ⟨a, t, _, hSecond⟩
  · exact h s fault u hFirst
  · exact hNext a t fault u hSecond

theorem failsWith_forEach
    {step : α → Work Unit}
    (h : ∀ a, (step a).FailsWith E)
    (values : List α) :
    (forEach step values).FailsWith E := by
  induction values with
  | nil => exact failsWith_pure ()
  | cons a rest ih => exact (h a).bind (fun _ => ih)

theorem failsWith_collect
    {step : α → Work (Option β)}
    (h : ∀ a, (step a).FailsWith E)
    (values : List α) :
    (collect step values).FailsWith E := by
  induction values with
  | nil => exact failsWith_pure []
  | cons a rest ih =>
      refine (h a).bind ?_
      intro found
      exact FailsWith.bind ih (fun more => failsWith_pure _)

------------------------------------------------------------
-- Steps without faults
------------------------------------------------------------

/- A step without faults has none of any kind. -/
theorem Succeeds.failsWith
    {w : Work α}
    (h : w.Succeeds) :
    w.FailsWith E :=
  fun s fault t hRun => (h s fault t hRun).elim

/- A step without faults gives a value. -/
theorem Succeeds.exists_ok
    {w : Work α}
    (h : w.Succeeds)
    (s : Session) :
    ∃ a t, w s = (.ok a, t) := by
  cases hRun : w s with
  | mk outcome t =>
      cases outcome with
      | ok a => exact ⟨a, t, rfl⟩
      | error fault => exact (h s fault t hRun).elim

------------------------------------------------------------
-- When a fault ends a step
------------------------------------------------------------

theorem Succeeds.failsExactly
    {w : Work α}
    (h : w.Succeeds)
    (hNot : ¬ P) :
    w.FailsExactly E P where
  failsWith := h.failsWith
  error_iff := by
    intro s
    refine iff_of_false ?_ hNot
    rintro ⟨fault, t, hRun⟩
    exact h s fault t hRun

theorem failsExactly_ofOutcome
    {outcome : Except Fault α}
    (hWith : ∀ fault, outcome = .error fault → E fault)
    (hError : (∃ fault, outcome = .error fault) ↔ P) :
    (ofOutcome outcome).FailsExactly E P where
  failsWith := failsWith_ofOutcome hWith
  error_iff := by
    intro s
    rw [← hError]
    simp [ofOutcome]

theorem FailsExactly.congr
    {w : Work α}
    (h : w.FailsExactly E P)
    (hIff : P ↔ Q) :
    w.FailsExactly E Q where
  failsWith := h.failsWith
  error_iff := fun s => (h.error_iff s).trans hIff

/-
  A step that goes on fails if its first part does, or if its
  second part does for what the first can yield.
-/
theorem FailsExactly.bind
    {V : α → Prop}
    {w : Work α}
    {next : α → Work β}
    (h : w.FailsExactly E P)
    (hYields : w.Yields V)
    (hNext : ∀ a, V a → (next a).FailsExactly E Q) :
    (w >>= next).FailsExactly E (P ∨ Q) where
  failsWith := by
    intro s fault u hRun
    rcases andThen_eq_error hRun with hFirst | ⟨a, t, hValue, hSecond⟩
    · exact h.failsWith s fault u hFirst
    · exact (hNext a (hYields s a t hValue)).failsWith t fault u hSecond
  error_iff := by
    intro s
    cases hRun : w s with
    | mk outcome t =>
        cases outcome with
        | error fault =>
            refine iff_of_true ⟨fault, t, bind_of_error hRun next⟩ ?_
            exact .inl ((h.error_iff s).mp ⟨fault, t, hRun⟩)
        | ok a =>
            have hNot : ¬ P := by
              intro hP
              rcases (h.error_iff s).mpr hP with ⟨fault, u, hError⟩
              rw [hRun] at hError
              cases hError
            rw [bind_of_ok hRun next,
              (hNext a (hYields s a t hRun)).error_iff t]
            simp [hNot]

/- The second part may fail alike for any value of the first. -/
theorem FailsExactly.bind_any
    {w : Work α}
    {next : α → Work β}
    (h : w.FailsExactly E P)
    (hNext : ∀ a, (next a).FailsExactly E Q) :
    (w >>= next).FailsExactly E (P ∨ Q) :=
  h.bind (V := fun _ => True) (fun _ _ _ _ => trivial)
    (fun a _ => hNext a)

theorem FailsExactly.bind_succeeds
    {w : Work α}
    {next : α → Work β}
    (h : w.FailsExactly E P)
    (hNext : ∀ a, (next a).Succeeds) :
    (w >>= next).FailsExactly E P :=
  (h.bind_any (fun a => (hNext a).failsExactly not_false)).congr
    (or_iff_left not_false)

/-
  Where a step goes on with faults of other kinds only, those
  of this kind are the ones of its first part.
-/
theorem FailsExactly.bind_error_iff
    {w : Work α}
    {next : α → Work β}
    (h : w.FailsExactly E P)
    (hNext : ∀ a, (next a).FailsWith (fun fault => ¬ E fault))
    (s : Session) :
    (∃ fault t, (w >>= next) s = (.error fault, t) ∧ E fault) ↔ P := by
  rw [← h.error_iff s]
  constructor
  · rintro ⟨fault, u, hRun, hFault⟩
    rcases andThen_eq_error hRun with hFirst | ⟨a, t, _, hSecond⟩
    · exact ⟨fault, u, hFirst⟩
    · exact absurd hFault (hNext a t fault u hSecond)
  · rintro ⟨fault, t, hRun⟩
    exact ⟨fault, t, bind_of_error hRun next,
      h.failsWith s fault t hRun⟩

end Rules

end Work
end LinkedMarkup
