import LinkedMarkup.Annotation.Work

/-
  This file proves rules for what a step of work ensures if
  it succeeds: of its value and of the session it leaves, or
  of its value wherever it starts.

  Key definitions include:
    * `Work.Ensures`
    * `Work.Yields`

  Main declarations:
    * `Work.Ensures.bind`
    * `Work.Yields.bind`
-/

namespace LinkedMarkup
namespace Work

variable {α β : Type}

/-
  If a step from a session succeeds, then `Q` holds of its
  value and the session after it.
-/
def Ensures
    (w : Work α)
    (s : Session)
    (Q : α → Session → Prop) : Prop :=
  ∀ a t, w s = (.ok a, t) → Q a t

/- Wherever a step starts, `P` holds of the value it gives. -/
def Yields
    (w : Work α)
    (P : α → Prop) : Prop :=
  ∀ s, w.Ensures s (fun a _ => P a)

/- Going on is associative, and steps that do nothing drop out. -/
instance : LawfulMonad Work :=
  LawfulMonad.mk' Work
    (fun w => by
      funext s
      change andThen w done s = w s
      unfold andThen done
      split
      · rename_i hRun
        exact hRun.symm
      · rename_i hRun
        exact hRun.symm)
    (fun _ _ => rfl)
    (fun w f g => by
      funext s
      change
        andThen (andThen w f) g s = andThen w (fun a => andThen (f a) g) s
      unfold andThen
      cases w s with
      | mk outcome t =>
          cases outcome with
          | ok a => rfl
          | error fault => rfl)

section Rules

variable {s : Session}
variable {Q : α → Session → Prop} {R : β → Session → Prop}
variable {P : α → Prop} {P' : β → Prop}

/- The two parts of a step that goes on and succeeds. -/
theorem andThen_eq_ok
    {w : Work α}
    {next : α → Work β}
    {b : β}
    {u : Session}
    (h : andThen w next s = (.ok b, u)) :
    ∃ a t, w s = (.ok a, t) ∧ next a t = (.ok b, u) := by
  unfold andThen at h
  cases hRun : w s with
  | mk outcome t =>
      rw [hRun] at h
      cases outcome with
      | ok a => exact ⟨a, t, rfl, h⟩
      | error fault => cases h

/- A step that goes on does its second part after its first. -/
theorem bind_of_ok
    {w : Work α}
    {a : α}
    {t : Session}
    (h : w s = (.ok a, t))
    (next : α → Work β) :
    (w >>= next) s = next a t := by
  change andThen w next s = _
  unfold andThen
  rw [h]

/- A step whose first part fails does no more. -/
theorem bind_of_error
    {w : Work α}
    {fault : Fault}
    {t : Session}
    (h : w s = (.error fault, t))
    (next : α → Work β) :
    (w >>= next) s = (.error fault, t) := by
  change andThen w next s = _
  unfold andThen
  rw [h]

/- A step that goes on fails in its first or its second part. -/
theorem andThen_eq_error
    {w : Work α}
    {next : α → Work β}
    {fault : Fault}
    {u : Session}
    (h : andThen w next s = (.error fault, u)) :
    w s = (.error fault, u) ∨
      ∃ a t, w s = (.ok a, t) ∧ next a t = (.error fault, u) := by
  unfold andThen at h
  cases hRun : w s with
  | mk outcome t =>
      rw [hRun] at h
      cases outcome with
      | ok a => exact .inr ⟨a, t, rfl, h⟩
      | error cause =>
          cases h
          exact .inl rfl

theorem ensures_pure
    {a : α}
    (h : Q a s) :
    (pure a : Work α).Ensures s Q := by
  intro b t hRun
  cases hRun
  exact h

/- Weaker facts are ensured as well. -/
theorem Ensures.mono
    {w : Work α}
    {Q' : α → Session → Prop}
    (h : w.Ensures s Q)
    (hQ : ∀ a t, Q a t → Q' a t) :
    w.Ensures s Q' :=
  fun a t hRun => hQ a t (h a t hRun)

/- Two facts that are ensured are ensured together. -/
theorem Ensures.and
    {w : Work α}
    {Q' : α → Session → Prop}
    (h : w.Ensures s Q)
    (h' : w.Ensures s Q') :
    w.Ensures s (fun a t => Q a t ∧ Q' a t) :=
  fun a t hRun => ⟨h a t hRun, h' a t hRun⟩

/- A step that goes on ensures what its second part ensures. -/
theorem Ensures.bind
    {w : Work α}
    {next : α → Work β}
    (h : w.Ensures s Q)
    (hNext : ∀ a t, Q a t → (next a).Ensures t R) :
    (w >>= next).Ensures s R := by
  intro b u hRun
  rcases andThen_eq_ok hRun with ⟨a, t, hFirst, hSecond⟩
  exact hNext a t (h a t hFirst) b u hSecond

theorem yields_pure
    {a : α}
    (h : P a) :
    (pure a : Work α).Yields P :=
  fun _ => ensures_pure h

theorem Yields.and
    {w : Work α}
    {P'' : α → Prop}
    (h : w.Yields P)
    (h' : w.Yields P'') :
    w.Yields (fun a => P a ∧ P'' a) :=
  fun s => (h s).and (h' s)

theorem Yields.bind
    {w : Work α}
    {next : α → Work β}
    (h : w.Yields P)
    (hNext : ∀ a, P a → (next a).Yields P') :
    (w >>= next).Yields P' :=
  fun s => (h s).bind (fun a t ha => hNext a ha t)

/- Nothing need be known of the first part of a step. -/
theorem ensures_bind
    {w : Work α}
    {next : α → Work β}
    (hNext : ∀ a t, (next a).Ensures t R) :
    (w >>= next).Ensures s R :=
  Ensures.bind (Q := fun _ _ => True)
    (fun _ _ _ => trivial)
    (fun a t _ => hNext a t)

theorem yields_bind
    {w : Work α}
    {next : α → Work β}
    (hNext : ∀ a, (next a).Yields P') :
    (w >>= next).Yields P' :=
  fun _ => ensures_bind (fun a t => hNext a t)

/- Steps only need to go on alike with what they can yield. -/
theorem Yields.bind_congr
    {w : Work α}
    (h : w.Yields P)
    {next next' : α → Work β}
    (hNext : ∀ a, P a → next a = next' a) :
    w >>= next = w >>= next' := by
  funext s
  change andThen w next s = andThen w next' s
  unfold andThen
  cases hRun : w s with
  | mk outcome t =>
      cases outcome with
      | ok a => exact congrFun (hNext a (h s a t hRun)) t
      | error fault => rfl

end Rules

end Work
end LinkedMarkup
