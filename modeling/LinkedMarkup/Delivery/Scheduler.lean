import LinkedMarkup.Fault

/-
  This file defines a scheduler without timers. A task runs
  as soon as it is scheduled, unless one is running: then it
  waits until that has ended, behind those that wait already.
  A task that fails stops the run, and the others stay.

  Key definitions include:
    * `Program`
    * `Task`
    * `Scheduler.Run`
    * `Scheduler.perform`
    * `Scheduler.drain`
    * `Scheduler.step`
-/

namespace LinkedMarkup

------------------------------------------------------------
-- Tasks
------------------------------------------------------------

/-
  What a task does, step by step. A delay does not matter, so
  there is one way to schedule a task.
-/
inductive Program where
  | done
  | schedule (name : String) (task : Program) (next : Program)
  | drain (next : Program)
  | pending (next : Program)
  | fail (fault : Fault)
  deriving DecidableEq, Repr

/- A named task. -/
structure Task where
  name : String
  program : Program
  deriving DecidableEq, Repr

/- How many tasks a program can bring about. -/
def Program.size :
    Program → Nat
  | .done => 0
  | .schedule _ task next => task.size + next.size + 1
  | .drain next => next.size
  | .pending next => next.size
  | .fail _ => 0

namespace Scheduler

/- What a run leaves in its record. -/
inductive Entry where
  | started (name : String)
  | ended (name : String)
  | pending (count : Nat)
  deriving DecidableEq, Repr

/- A run: its record, the tasks that wait, and its fault. -/
structure Run where
  record : List Entry
  queue : List Task
  fault? : Option Fault
  deriving DecidableEq, Repr

/- A run after some entries that come first. -/
def Run.after
    (first : List Entry)
    (r : Run) : Run :=
  { r with record := first ++ r.record }

------------------------------------------------------------
-- Running
------------------------------------------------------------

/-
  Perform a program while tasks are being run: what it
  schedules waits, and asking to run tasks does nothing.
-/
def perform :
    Program → List Task → Run
  | .done, queue => ⟨[], queue, none⟩
  | .schedule name task next, queue =>
      perform next (queue ++ [⟨name, task⟩])
  | .drain next, queue => perform next queue
  | .pending next, queue =>
      (perform next queue).after [.pending queue.length]
  | .fail fault, queue => ⟨[], queue, some fault⟩

/- Run a task, from its start to its end or fault. -/
def runTask
    (t : Task)
    (queue : List Task) : Run :=
  let run := (perform t.program queue).after [.started t.name]
  match run.fault? with
  | some _ => run
  | none => { run with record := run.record ++ [.ended t.name] }

/-
  Run the tasks that wait until none is left or one fails. The
  budget bounds how many there can be.
-/
def drainWithin :
    Nat → List Task → Run
  | _, [] => ⟨[], [], none⟩
  | 0, queue => ⟨[], queue, none⟩
  | budget + 1, t :: rest =>
      let run := runTask t rest
      match run.fault? with
      | some _ => run
      | none => (drainWithin budget run.queue).after run.record

/- How many tasks some tasks can bring about, themselves too. -/
def total :
    List Task → Nat
  | [] => 0
  | t :: rest => t.program.size + 1 + total rest

/- Run the tasks that wait. -/
def drain
    (queue : List Task) : Run :=
  drainWithin (total queue) queue

/- Schedule a task while none is running. -/
def schedule
    (t : Task)
    (queue : List Task) : Run :=
  drain (queue ++ [t])

/- Take the first step of a program while no task is running. -/
def step :
    Program → List Task → Run
  | .done, queue => ⟨[], queue, none⟩
  | .schedule name task _, queue => schedule ⟨name, task⟩ queue
  | .drain _, queue => drain queue
  | .pending _, queue => ⟨[.pending queue.length], queue, none⟩
  | .fail fault, queue => ⟨[], queue, some fault⟩

end Scheduler
end LinkedMarkup
