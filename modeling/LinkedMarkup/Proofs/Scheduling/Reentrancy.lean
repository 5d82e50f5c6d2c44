import LinkedMarkup.Proofs.Scheduling.Turns

/-
  This file defines step by step how a scheduler behaves that
  marks whether it is running tasks: asked to run tasks while
  it is, it does nothing, and the mark is taken away however a
  run ends. Tasks may ask it at any depth; still a run is the
  one that the queue alone determines, and it leaves no mark.

  Key definitions include:
    * `Scheduler.Performs`
    * `Scheduler.Drains`
    * `Scheduler.Empties`

  Main declarations:
    * `Scheduler.performs_iff`
    * `Scheduler.empties_iff`
    * `Scheduler.drains_iff`
-/

namespace LinkedMarkup
namespace Scheduler

/-
  The three relations take a queue and a mark to a run and a
  mark. A program performs its steps, each of which may drain
  the queue; to drain it is to empty it under a mark, unless
  there is one; to empty it is to perform its tasks in turn.
-/
mutual

inductive Performs :
    Program → List Task → Bool → Run → Bool → Prop where
  | done
      (queue : List Task)
      (mark : Bool) :
      Performs .done queue mark ⟨[], queue, none⟩ mark
  | fail
      (fault : Fault)
      (queue : List Task)
      (mark : Bool) :
      Performs (.fail fault) queue mark ⟨[], queue, some fault⟩ mark
  | pending
      {next : Program}
      {queue : List Task}
      {mark mark' : Bool}
      {run : Run}
      (hNext : Performs next queue mark run mark') :
      Performs (.pending next) queue mark
        (run.after [.pending queue.length]) mark'
  | schedule
      {name : String}
      {task next : Program}
      {queue : List Task}
      {mark middle mark' : Bool}
      {first run : Run}
      (hDrains : Drains (queue ++ [⟨name, task⟩]) mark first middle)
      (hReturns : first.fault? = none)
      (hNext : Performs next first.queue middle run mark') :
      Performs (.schedule name task next) queue mark
        (run.after first.record) mark'
  | scheduleFails
      {name : String}
      {task next : Program}
      {queue : List Task}
      {mark mark' : Bool}
      {run : Run}
      (hDrains : Drains (queue ++ [⟨name, task⟩]) mark run mark')
      (hFails : run.fault? ≠ none) :
      Performs (.schedule name task next) queue mark run mark'
  | drain
      {next : Program}
      {queue : List Task}
      {mark middle mark' : Bool}
      {first run : Run}
      (hDrains : Drains queue mark first middle)
      (hReturns : first.fault? = none)
      (hNext : Performs next first.queue middle run mark') :
      Performs (.drain next) queue mark (run.after first.record) mark'
  | drainFails
      {next : Program}
      {queue : List Task}
      {mark mark' : Bool}
      {run : Run}
      (hDrains : Drains queue mark run mark')
      (hFails : run.fault? ≠ none) :
      Performs (.drain next) queue mark run mark'

inductive Drains :
    List Task → Bool → Run → Bool → Prop where
  | busy
      (queue : List Task) :
      Drains queue true ⟨[], queue, none⟩ true
  | idle
      {queue : List Task}
      {run : Run}
      {mark : Bool}
      (hEmpties : Empties queue true run mark) :
      Drains queue false run false

inductive Empties :
    List Task → Bool → Run → Bool → Prop where
  | nothing
      (mark : Bool) :
      Empties [] mark ⟨[], [], none⟩ mark
  | returns
      {t : Task}
      {rest : List Task}
      {mark middle mark' : Bool}
      {first run : Run}
      (hTask : Performs t.program rest mark first middle)
      (hReturns : first.fault? = none)
      (hRest : Empties first.queue middle run mark') :
      Empties (t :: rest) mark
        (run.after (.started t.name :: first.record ++ [.ended t.name]))
        mark'
  | fails
      {t : Task}
      {rest : List Task}
      {mark mark' : Bool}
      {run : Run}
      (hTask : Performs t.program rest mark run mark')
      (hFails : run.fault? ≠ none) :
      Empties (t :: rest) mark (run.after [.started t.name]) mark'

end

/- Asking a scheduler to run tasks that is running some. -/
theorem drains_busy_iff
    (queue : List Task)
    (run : Run)
    (mark : Bool) :
    Drains queue true run mark ↔ run = ⟨[], queue, none⟩ ∧ mark = true := by
  constructor
  · intro h
    cases h
    exact ⟨rfl, rfl⟩
  · rintro ⟨rfl, rfl⟩
    exact .busy queue

/- While tasks are being run, what is scheduled only waits. -/
theorem performs_iff
    (p : Program)
    (queue : List Task)
    (run : Run)
    (mark : Bool) :
    Performs p queue true run mark ↔
      run = perform p queue ∧ mark = true := by
  induction p generalizing queue run mark with
  | done =>
      constructor
      · intro h
        cases h
        exact ⟨rfl, rfl⟩
      · rintro ⟨rfl, rfl⟩
        exact .done queue true
  | fail fault =>
      constructor
      · intro h
        cases h
        exact ⟨rfl, rfl⟩
      · rintro ⟨rfl, rfl⟩
        exact .fail fault queue true
  | pending next ih =>
      constructor
      · intro h
        cases h with
        | pending hNext =>
            rcases (ih _ _ _).mp hNext with ⟨rfl, rfl⟩
            exact ⟨rfl, rfl⟩
      · rintro ⟨rfl, rfl⟩
        exact .pending ((ih _ _ _).mpr ⟨rfl, rfl⟩)
  | schedule name task next _ ih =>
      constructor
      · intro h
        cases h with
        | schedule hDrains hReturns hNext =>
            rcases (drains_busy_iff _ _ _).mp hDrains with ⟨rfl, rfl⟩
            rcases (ih _ _ _).mp hNext with ⟨rfl, rfl⟩
            exact ⟨rfl, rfl⟩
        | scheduleFails hDrains hFails =>
            rcases (drains_busy_iff _ _ _).mp hDrains with ⟨rfl, rfl⟩
            exact absurd rfl hFails
      · rintro ⟨rfl, rfl⟩
        exact .schedule (.busy _) rfl ((ih _ _ _).mpr ⟨rfl, rfl⟩)
  | drain next ih =>
      constructor
      · intro h
        cases h with
        | drain hDrains hReturns hNext =>
            rcases (drains_busy_iff _ _ _).mp hDrains with ⟨rfl, rfl⟩
            rcases (ih _ _ _).mp hNext with ⟨rfl, rfl⟩
            exact ⟨rfl, rfl⟩
        | drainFails hDrains hFails =>
            rcases (drains_busy_iff _ _ _).mp hDrains with ⟨rfl, rfl⟩
            exact absurd rfl hFails
      · rintro ⟨rfl, rfl⟩
        exact .drain (.busy _) rfl ((ih _ _ _).mpr ⟨rfl, rfl⟩)

/- Under a mark, the tasks in a queue run one after the other. -/
theorem empties_iff
    (queue : List Task)
    (run : Run)
    (mark : Bool) :
    Empties queue true run mark ↔ run = drain queue ∧ mark = true := by
  induction queue using queue_induction generalizing run mark with
  | nil =>
      constructor
      · intro h
        cases h
        exact ⟨rfl, rfl⟩
      · rintro ⟨rfl, rfl⟩
        exact .nothing true
  | returns t rest hFault ih =>
      have hPerform := perform_eq t.program rest
      rw [drain_of_returns hFault]
      unfold Task.entries
      rw [hFault] at hPerform ⊢
      constructor
      · intro h
        cases h with
        | returns hTask hReturns hRest =>
            rcases (performs_iff _ _ _ _).mp hTask with ⟨rfl, rfl⟩
            rw [hPerform] at hRest ⊢
            rcases (ih _ _).mp hRest with ⟨rfl, rfl⟩
            exact ⟨rfl, rfl⟩
        | fails hTask hFails =>
            rcases (performs_iff _ _ _ _).mp hTask with ⟨rfl, rfl⟩
            rw [hPerform] at hFails
            exact absurd rfl hFails
      · rintro ⟨rfl, rfl⟩
        have hTask := (performs_iff _ _ _ _).mpr ⟨hPerform.symm, rfl⟩
        exact .returns hTask rfl ((ih _ _).mpr ⟨rfl, rfl⟩)
  | fails t rest fault hFault =>
      have hPerform := perform_eq t.program rest
      rw [drain_of_fails hFault]
      unfold Task.entries
      rw [hFault] at hPerform ⊢
      rw [List.append_nil]
      constructor
      · intro h
        cases h with
        | returns hTask hReturns hRest =>
            rcases (performs_iff _ _ _ _).mp hTask with ⟨rfl, rfl⟩
            rw [hPerform] at hReturns
            cases hReturns
        | fails hTask hFails =>
            rcases (performs_iff _ _ _ _).mp hTask with ⟨rfl, rfl⟩
            rw [hPerform]
            exact ⟨rfl, rfl⟩
      · rintro ⟨rfl, rfl⟩
        have hTask := (performs_iff _ _ _ _).mpr ⟨hPerform.symm, rfl⟩
        exact .fails hTask (Option.some_ne_none fault)

/-
  A scheduler without a mark runs all that waits, and is left
  without one, also if a task fails.
-/
theorem drains_iff
    (queue : List Task)
    (run : Run)
    (mark : Bool) :
    Drains queue false run mark ↔ run = drain queue ∧ mark = false := by
  constructor
  · intro h
    cases h with
    | idle hEmpties =>
        exact ⟨((empties_iff _ _ _).mp hEmpties).1, rfl⟩
  · rintro ⟨rfl, rfl⟩
    exact .idle ((empties_iff _ _ _).mpr ⟨rfl, rfl⟩)

end Scheduler
end LinkedMarkup
