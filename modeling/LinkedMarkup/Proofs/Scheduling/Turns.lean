import LinkedMarkup.Delivery.Scheduler
import Mathlib.Data.List.Basic

/-
  This file proves what running tasks comes to. A task adds
  what it schedules to those that wait and ends as its program
  says; so the tasks that run are known from the queue alone,
  and the budget of the scheduler never runs out.

  Key definitions include:
    * `Program.scheduled`
    * `Program.fault?`
    * `Task.entries`
    * `Scheduler.ran`

  Main declarations:
    * `Scheduler.runTask_eq`
    * `Scheduler.drain_of_returns`
    * `Scheduler.drain_of_fails`
    * `Scheduler.queue_append_scheduled`
    * `Scheduler.queue_of_returns`
    * `Scheduler.fails_last`
-/

namespace LinkedMarkup

------------------------------------------------------------
-- What programs do
------------------------------------------------------------

namespace Program

/- The tasks that a program schedules, in order. -/
def scheduled :
    Program → List Task
  | .done => []
  | .schedule name task next => ⟨name, task⟩ :: next.scheduled
  | .drain next => next.scheduled
  | .pending next => next.scheduled
  | .fail _ => []

/- The fault that a program ends with, unless it returns. -/
def fault? :
    Program → Option Fault
  | .done => none
  | .schedule _ _ next => next.fault?
  | .drain next => next.fault?
  | .pending next => next.fault?
  | .fail fault => some fault

/- The counts that a program records if so many tasks wait. -/
def counts :
    Program → Nat → List Scheduler.Entry
  | .done, _ => []
  | .schedule _ _ next, waiting => next.counts (waiting + 1)
  | .drain next, waiting => next.counts waiting
  | .pending next, waiting => .pending waiting :: next.counts waiting
  | .fail _, _ => []

end Program

/- What a task leaves in the record if so many tasks wait. -/
def Task.entries
    (t : Task)
    (waiting : Nat) : List Scheduler.Entry :=
  .started t.name :: t.program.counts waiting ++
    match t.program.fault? with
    | some _ => []
    | none => [.ended t.name]

namespace Scheduler

theorem perform_eq
    (p : Program)
    (queue : List Task) :
    perform p queue =
      ⟨p.counts queue.length, queue ++ p.scheduled, p.fault?⟩ := by
  induction p generalizing queue with
  | done => simp [perform, Program.counts, Program.scheduled,
      Program.fault?]
  | schedule name task next _ ih =>
      rw [perform, ih, List.length_append, List.append_assoc]
      rfl
  | drain next ih => exact ih queue
  | pending next ih =>
      rw [perform, ih]
      rfl
  | fail fault => simp [perform, Program.counts, Program.scheduled,
      Program.fault?]

/- What a task schedules waits behind all that waits already. -/
theorem runTask_eq
    (t : Task)
    (queue : List Task) :
    runTask t queue =
      ⟨t.entries queue.length, queue ++ t.program.scheduled,
        t.program.fault?⟩ := by
  unfold runTask Task.entries
  rw [perform_eq]
  cases hFault : t.program.fault? with
  | none => simp [Run.after]
  | some fault => simp [Run.after]

------------------------------------------------------------
-- Budgets
------------------------------------------------------------

theorem total_append
    (first second : List Task) :
    total (first ++ second) = total first + total second := by
  induction first with
  | nil => exact (Nat.zero_add _).symm
  | cons t rest ih =>
      rw [List.cons_append, total, total, ih]
      omega

/- A task accounts for all that it schedules. -/
theorem total_scheduled_le
    (p : Program) :
    total p.scheduled ≤ p.size := by
  induction p with
  | done => exact Nat.le_refl _
  | schedule name task next _ ih =>
      rw [Program.scheduled, total, Program.size]
      dsimp only
      omega
  | drain next ih => exact ih
  | pending next ih => exact ih
  | fail fault => exact Nat.le_refl _

/- Fewer tasks are still to come once the first has run. -/
theorem total_lt
    (t : Task)
    (rest : List Task) :
    total (rest ++ t.program.scheduled) < total (t :: rest) := by
  have hScheduled := total_scheduled_le t.program
  rw [total_append, total]
  omega

theorem drainWithin_cons
    (budget : Nat)
    (t : Task)
    (rest : List Task) :
    drainWithin (budget + 1) (t :: rest) =
      match t.program.fault? with
      | some fault =>
          ⟨t.entries rest.length, rest ++ t.program.scheduled,
            some fault⟩
      | none =>
          (drainWithin budget (rest ++ t.program.scheduled)).after
            (t.entries rest.length) := by
  rw [drainWithin, runTask_eq]
  cases t.program.fault? <;> rfl

/- Budgets that are large enough make no difference. -/
theorem drainWithin_congr
    {budget budget' : Nat}
    {queue : List Task}
    (h : total queue ≤ budget)
    (h' : total queue ≤ budget') :
    drainWithin budget queue = drainWithin budget' queue := by
  induction budget generalizing budget' queue with
  | zero =>
      cases queue with
      | nil => cases budget' <;> rfl
      | cons t rest =>
          have hLess := total_lt t rest
          omega
  | succ budget ih =>
      cases queue with
      | nil => cases budget' <;> rfl
      | cons t rest =>
          have hLess := total_lt t rest
          cases budget' with
          | zero => omega
          | succ budget' =>
              rw [drainWithin_cons, drainWithin_cons,
                ih (by omega) (by omega : _ ≤ budget')]

theorem drain_cons
    (t : Task)
    (rest : List Task) :
    drain (t :: rest) =
      match t.program.fault? with
      | some fault =>
          ⟨t.entries rest.length, rest ++ t.program.scheduled,
            some fault⟩
      | none =>
          (drain (rest ++ t.program.scheduled)).after
            (t.entries rest.length) := by
  have hLess := total_lt t rest
  unfold drain
  rw [drainWithin_congr (Nat.le_refl _) (Nat.le_succ _),
    drainWithin_cons,
    drainWithin_congr (Nat.le_of_lt hLess) (Nat.le_refl _)]

------------------------------------------------------------
-- The tasks that run
------------------------------------------------------------

theorem drain_nil :
    drain [] = ⟨[], [], none⟩ :=
  rfl

/- A first task that returns makes way for the others. -/
theorem drain_of_returns
    {t : Task}
    (h : t.program.fault? = none)
    (rest : List Task) :
    drain (t :: rest) =
      (drain (rest ++ t.program.scheduled)).after
        (t.entries rest.length) := by
  rw [drain_cons, h]

/- A first task that fails leaves all others waiting. -/
theorem drain_of_fails
    {t : Task}
    {fault : Fault}
    (h : t.program.fault? = some fault)
    (rest : List Task) :
    drain (t :: rest) =
      ⟨t.entries rest.length, rest ++ t.program.scheduled,
        some fault⟩ := by
  rw [drain_cons, h]

/-
  The tasks that run when those in a queue do: the first one,
  and unless it fails those that run after it.
-/
def ran
    (queue : List Task) : List Task :=
  match queue with
  | [] => []
  | t :: rest =>
      t ::
        match t.program.fault? with
        | some _ => []
        | none => ran (rest ++ t.program.scheduled)
termination_by total queue
decreasing_by exact total_lt t rest

theorem ran_nil :
    ran [] = [] := by
  rw [ran]

theorem ran_of_returns
    {t : Task}
    (h : t.program.fault? = none)
    (rest : List Task) :
    ran (t :: rest) = t :: ran (rest ++ t.program.scheduled) := by
  rw [ran, h]

theorem ran_of_fails
    {t : Task}
    {fault : Fault}
    (h : t.program.fault? = some fault)
    (rest : List Task) :
    ran (t :: rest) = [t] := by
  rw [ran, h]

/- What holds of queues in the order in which they are run. -/
theorem queue_induction
    {P : List Task → Prop}
    (nil : P [])
    (returns :
      ∀ t rest, t.program.fault? = none →
        P (rest ++ t.program.scheduled) → P (t :: rest))
    (fails :
      ∀ t rest fault, t.program.fault? = some fault → P (t :: rest))
    (queue : List Task) :
    P queue := by
  induction hTotal : total queue using Nat.strongRecOn
    generalizing queue with
  | ind n ih =>
      cases queue with
      | nil => exact nil
      | cons t rest =>
          cases hFault : t.program.fault? with
          | none =>
              refine returns t rest hFault ?_
              exact ih _ (hTotal ▸ total_lt t rest) _ rfl
          | some fault => exact fails t rest fault hFault

/-
  The tasks that waited and those that were scheduled since,
  in order, are those that ran and those that wait.
-/
theorem queue_append_scheduled
    (queue : List Task) :
    queue ++ (ran queue).flatMap (fun t => t.program.scheduled) =
      ran queue ++ (drain queue).queue := by
  induction queue using queue_induction with
  | nil =>
      rw [ran_nil, drain_nil]
      rfl
  | returns t rest hFault ih =>
      rw [ran_of_returns hFault, drain_of_returns hFault,
        List.flatMap_cons, List.cons_append, List.cons_append,
        ← List.append_assoc]
      exact congrArg (t :: ·) ih
  | fails t rest fault hFault =>
      rw [ran_of_fails hFault, drain_of_fails hFault]
      simp

/- If no task fails, none is left. -/
theorem queue_of_returns
    {queue : List Task}
    (h : (drain queue).fault? = none) :
    (drain queue).queue = [] ∧
      ∀ t ∈ ran queue, t.program.fault? = none := by
  induction queue using queue_induction with
  | nil =>
      rw [ran_nil, drain_nil]
      exact ⟨rfl, fun t hMem => by cases hMem⟩
  | returns t rest hFault ih =>
      rw [drain_of_returns hFault] at h ⊢
      rw [ran_of_returns hFault]
      rcases ih h with ⟨hQueue, hReturn⟩
      refine ⟨hQueue, ?_⟩
      intro u hMem
      rcases List.mem_cons.mp hMem with rfl | hLater
      · exact hFault
      · exact hReturn u hLater
  | fails t rest fault hFault =>
      rw [drain_of_fails hFault] at h
      cases h

/- A fault is that of the last task that ran, and of no other. -/
theorem fails_last
    {queue : List Task}
    {fault : Fault}
    (h : (drain queue).fault? = some fault) :
    ∃ before t,
      ran queue = before ++ [t] ∧ t.program.fault? = some fault ∧
        ∀ u ∈ before, u.program.fault? = none := by
  induction queue using queue_induction with
  | nil => cases h
  | returns t rest hFault ih =>
      rw [drain_of_returns hFault] at h
      rcases ih h with ⟨before, last, hRan, hLast, hBefore⟩
      refine ⟨t :: before, last, ?_, hLast, ?_⟩
      · rw [ran_of_returns hFault, hRan]
        rfl
      · intro u hMem
        rcases List.mem_cons.mp hMem with rfl | hLater
        · exact hFault
        · exact hBefore u hLater
  | fails t rest cause hFault =>
      rw [drain_of_fails hFault] at h
      cases h
      exact ⟨[], t, ran_of_fails hFault rest, hFault,
        fun u hMem => by cases hMem⟩

end Scheduler
end LinkedMarkup
