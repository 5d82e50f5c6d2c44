import LinkedMarkup.Proofs.Work.Ensures

/-
  This file proves rules for facts about the session that a
  step of work keeps even if it fails, and for what holds of
  the value that it gives if it does not.

  Key definitions include:
    * `Work.Secures`

  Main declarations:
    * `Work.Secures.bind`
    * `Work.secures_forEach`
    * `Work.secures_collect`
-/

namespace LinkedMarkup
namespace Work

variable {α β : Type}

/-
  From any session in which `I` holds, a step leaves one in
  which it holds, and `P` holds of the value if it gives one.
-/
def Secures
    (I : Session → Prop)
    (w : Work α)
    (P : α → Prop) : Prop :=
  ∀ s, I s → I (w s).2 ∧ ∀ a, (w s).1 = .ok a → P a

section Rules

variable {I : Session → Prop} {P : α → Prop} {P' : β → Prop}

theorem secures_pure
    {a : α}
    (h : P a) :
    Secures I (pure a) P := by
  intro s hs
  refine ⟨hs, ?_⟩
  intro b hEq
  cases hEq
  exact h

theorem secures_fail
    (fault : Fault) :
    Secures I (Work.fail fault) P := by
  intro s hs
  refine ⟨hs, ?_⟩
  intro b hEq
  cases hEq

theorem secures_ofOutcome
    {outcome : Except Fault α}
    (h : ∀ a, outcome = .ok a → P a) :
    Secures I (ofOutcome outcome) P :=
  fun _ hs => ⟨hs, h⟩

/- A step that goes on secures what its second part secures. -/
theorem Secures.bind
    {w : Work α}
    {next : α → Work β}
    (h : Secures I w P)
    (hNext : ∀ a, P a → Secures I (next a) P') :
    Secures I (w >>= next) P' := by
  intro s hs
  have hFirst := h s hs
  change
    I (andThen w next s).2 ∧ ∀ b, (andThen w next s).1 = .ok b → P' b
  unfold andThen
  cases hRun : w s with
  | mk outcome t =>
      rw [hRun] at hFirst
      cases outcome with
      | ok a => exact hNext a (hFirst.2 a rfl) t hFirst.1
      | error fault =>
          refine ⟨hFirst.1, ?_⟩
          intro b hEq
          cases hEq

theorem Secures.mono
    {w : Work α}
    {Q : α → Prop}
    (h : Secures I w P)
    (hQ : ∀ a, P a → Q a) :
    Secures I w Q :=
  fun s hs => ⟨(h s hs).1, fun a hRun => hQ a ((h s hs).2 a hRun)⟩

/- What a step yields wherever it starts it yields here. -/
theorem Secures.and_yields
    {w : Work α}
    {Q : α → Prop}
    (h : Secures I w P)
    (hYields : w.Yields Q) :
    Secures I w (fun a => P a ∧ Q a) := by
  intro s hs
  refine ⟨(h s hs).1, ?_⟩
  intro a hRun
  exact ⟨(h s hs).2 a hRun, hYields s a (w s).2 (Prod.ext hRun rfl)⟩

/- A step secures what each of several steps does in turn. -/
theorem secures_forEach
    {step : α → Work Unit}
    {values : List α}
    (h : ∀ a ∈ values, Secures I (step a) (fun _ => True)) :
    Secures I (forEach step values) (fun _ => True) := by
  induction values with
  | nil => exact secures_pure trivial
  | cons a rest ih =>
      exact (h a List.mem_cons_self).bind
        (fun _ _ => ih (fun b hMem => h b (List.mem_cons_of_mem a hMem)))

theorem secures_collect
    {step : α → Work (Option β)}
    {values : List α}
    (h :
      ∀ a ∈ values,
        Secures I (step a) (fun found => ∀ b ∈ found, P' b)) :
    Secures I (collect step values) (fun found => ∀ b ∈ found, P' b) := by
  induction values with
  | nil => exact secures_pure (by simp)
  | cons a rest ih =>
      refine (h a List.mem_cons_self).bind ?_
      intro found hFound
      refine (ih (fun b hMem => h b (List.mem_cons_of_mem a hMem))).bind ?_
      intro more hMore
      apply secures_pure
      intro b hMem
      rcases List.mem_append.mp hMem with hHead | hTail
      · exact hFound b (Option.mem_toList.mp hHead)
      · exact hMore b hTail

end Rules

end Work
end LinkedMarkup
