import LinkedMarkup.Proofs.Scheduling.Reentrancy
import Mathlib.Data.List.Infix

/-
  This file proves in which order a scheduler runs what any
  programs schedule, over any number of calls from outside.
  Tasks start in the order in which they were scheduled, one
  at a time, and none is lost: if one fails, that ends the
  call, and those that wait come first in the next one.

  Key definitions include:
    * `Scheduler.Happening`
    * `Task.happenings`
    * `Scheduler.Call`
    * `Scheduler.session`
    * `Scheduler.OneAtATime`
    * `Scheduler.Call.Served`

  Main declarations:
    * `Scheduler.InOrder.starts_prefix`
    * `Scheduler.Call.served`
    * `Scheduler.inOrder_session`
    * `Scheduler.session_in_order`
-/

namespace LinkedMarkup
namespace Scheduler

------------------------------------------------------------
-- What happens to tasks
------------------------------------------------------------

/- Something that happens to a task. -/
inductive Happening where
  | scheduled (t : Task)
  | started (t : Task)
  | ended (t : Task)
  | failed (t : Task) (fault : Fault)
  deriving DecidableEq, Repr

namespace Happening

/- The task that a happening schedules. -/
def scheduled? :
    Happening → Option Task
  | scheduled t => some t
  | _ => none

/- The task that a happening starts. -/
def started? :
    Happening → Option Task
  | started t => some t
  | _ => none

/- What a happening leaves in the record of a run. -/
def entry? :
    Happening → Option Entry
  | scheduled _ => none
  | started t => some (.started t.name)
  | ended t => some (.ended t.name)
  | failed _ _ => none

end Happening

/- The tasks that are scheduled, in order. -/
def scheduledIn
    (happenings : List Happening) : List Task :=
  happenings.filterMap Happening.scheduled?

/- The tasks that are started, in order. -/
def startedIn
    (happenings : List Happening) : List Task :=
  happenings.filterMap Happening.started?

/- Whether an entry tells that a task starts or ends. -/
def Entry.isTurn :
    Entry → Bool
  | started _ => true
  | ended _ => true
  | pending _ => false

/-
  Tasks start while none runs, and each ends before the next
  one starts and before all is over.
-/
def OneAtATime :
    Option Task → List Happening → Prop
  | none, [] => True
  | running?, .scheduled _ :: rest => OneAtATime running? rest
  | none, .started t :: rest => OneAtATime (some t) rest
  | some t, .ended u :: rest => t = u ∧ OneAtATime none rest
  | some t, .failed u _ :: rest => t = u ∧ OneAtATime none rest
  | _, _ => False

end Scheduler

/- What happens while a task runs, from its start to its end. -/
def Task.happenings
    (t : Task) : List Scheduler.Happening :=
  .started t :: t.program.scheduled.map .scheduled ++
    match t.program.fault? with
    | none => [.ended t]
    | some fault => [.failed t fault]

namespace Scheduler

------------------------------------------------------------
-- Calls from outside
------------------------------------------------------------

/- A task that is scheduled from outside while some wait. -/
structure Call where
  waiting : List Task
  task : Task
  deriving DecidableEq, Repr

namespace Call

/- The run that a call leads to. -/
def run
    (c : Call) : Run :=
  schedule c.task c.waiting

/- What happens in a call: first its own task is scheduled. -/
def happenings
    (c : Call) : List Happening :=
  .scheduled c.task ::
    (ran (c.waiting ++ [c.task])).flatMap Task.happenings

end Call

/- Calls one after the other: each finds what the last one left. -/
def session :
    List Task → List Task → List Call
  | _, [] => []
  | waiting, t :: rest =>
      ⟨waiting, t⟩ :: session (schedule t waiting).queue rest

/- The tasks that wait after several calls. -/
def left
    (waiting tasks : List Task) : List Task :=
  tasks.foldl (fun queue t => (schedule t queue).queue) waiting

------------------------------------------------------------
-- Tasks that wait in line
------------------------------------------------------------

/-
  Happenings that some tasks in line and one that runs allow:
  what is scheduled gets in line, only the first in line may
  start, and only if none runs.
-/
inductive InOrder :
    List Task → Option Task → List Happening → Prop where
  | nothing
      (line : List Task)
      (running? : Option Task) :
      InOrder line running? []
  | scheduled
      {line : List Task}
      {running? : Option Task}
      (t : Task)
      {rest : List Happening}
      (hRest : InOrder (line ++ [t]) running? rest) :
      InOrder line running? (.scheduled t :: rest)
  | started
      {line : List Task}
      (t : Task)
      {rest : List Happening}
      (hRest : InOrder line (some t) rest) :
      InOrder (t :: line) none (.started t :: rest)
  | ended
      {line : List Task}
      (t : Task)
      {rest : List Happening}
      (hRest : InOrder line none rest) :
      InOrder line (some t) (.ended t :: rest)
  | failed
      {line : List Task}
      (t : Task)
      (fault : Fault)
      {rest : List Happening}
      (hRest : InOrder line none rest) :
      InOrder line (some t) (.failed t fault :: rest)

namespace InOrder

/- What is in order is so up to any time. -/
theorem upTo
    {line : List Task}
    {running? : Option Task}
    {happenings first : List Happening}
    (h : InOrder line running? happenings)
    (hFirst : first <+: happenings) :
    InOrder line running? first := by
  induction h generalizing first with
  | nothing line running? =>
      rw [List.prefix_nil.mp hFirst]
      exact .nothing line running?
  | scheduled t _ ih =>
      cases first with
      | nil => exact .nothing _ _
      | cons head tail =>
          rcases List.cons_prefix_cons.mp hFirst with ⟨rfl, hTail⟩
          exact .scheduled t (ih hTail)
  | started t _ ih =>
      cases first with
      | nil => exact .nothing _ _
      | cons head tail =>
          rcases List.cons_prefix_cons.mp hFirst with ⟨rfl, hTail⟩
          exact .started t (ih hTail)
  | ended t _ ih =>
      cases first with
      | nil => exact .nothing _ _
      | cons head tail =>
          rcases List.cons_prefix_cons.mp hFirst with ⟨rfl, hTail⟩
          exact .ended t (ih hTail)
  | failed t fault _ ih =>
      cases first with
      | nil => exact .nothing _ _
      | cons head tail =>
          rcases List.cons_prefix_cons.mp hFirst with ⟨rfl, hTail⟩
          exact .failed t fault (ih hTail)

/- Tasks start as they stand in line, or got in line since. -/
theorem started_prefix
    {line : List Task}
    {running? : Option Task}
    {happenings : List Happening}
    (h : InOrder line running? happenings) :
    startedIn happenings <+: line ++ scheduledIn happenings := by
  unfold startedIn scheduledIn
  induction h with
  | nothing line running? => exact List.nil_prefix
  | scheduled t _ ih =>
      rw [List.append_assoc] at ih
      exact ih
  | started t _ ih => exact List.cons_prefix_cons.mpr ⟨rfl, ih⟩
  | ended t _ ih => exact ih
  | failed t fault _ ih => exact ih

/- Tasks that are scheduled, one after the other, get in line. -/
theorem scheduled_append
    {line : List Task}
    {running? : Option Task}
    {tasks : List Task}
    {rest : List Happening}
    (h : InOrder (line ++ tasks) running? rest) :
    InOrder line running? (tasks.map .scheduled ++ rest) := by
  induction tasks generalizing line with
  | nil =>
      rw [List.append_nil] at h
      exact h
  | cons t tasks ih =>
      refine .scheduled t (ih ?_)
      rw [List.append_assoc]
      exact h

/- The first in line runs, from its start to its end. -/
theorem happenings_append
    {t : Task}
    {line : List Task}
    {rest : List Happening}
    (h : InOrder (line ++ t.program.scheduled) none rest) :
    InOrder (t :: line) none (t.happenings ++ rest) := by
  unfold Task.happenings
  rw [List.cons_append, List.cons_append, List.append_assoc]
  refine .started t (scheduled_append ?_)
  cases t.program.fault? with
  | none => exact .ended t h
  | some fault => exact .failed t fault h

/- All that runs when a queue does is in order. -/
theorem ran_append
    {queue : List Task}
    {rest : List Happening}
    (h : InOrder (drain queue).queue none rest) :
    InOrder queue none ((ran queue).flatMap Task.happenings ++ rest) := by
  induction queue using queue_induction with
  | nil =>
      rw [ran_nil]
      exact h
  | returns t queue hFault ih =>
      rw [drain_of_returns hFault] at h
      rw [ran_of_returns hFault, List.flatMap_cons, List.append_assoc]
      exact happenings_append (ih h)
  | fails t queue fault hFault =>
      rw [drain_of_fails hFault] at h
      rw [ran_of_fails hFault, List.flatMap_cons, List.flatMap_nil,
        List.append_nil]
      exact happenings_append h

end InOrder

/- What happens in several calls is in order. -/
theorem inOrder_session
    (waiting tasks : List Task) :
    InOrder waiting none
      ((session waiting tasks).flatMap Call.happenings) := by
  induction tasks generalizing waiting with
  | nil => exact .nothing waiting none
  | cons t tasks ih =>
      rw [session, List.flatMap_cons]
      exact .scheduled t (InOrder.ran_append (ih _))

------------------------------------------------------------
-- One task at a time
------------------------------------------------------------

theorem oneAtATime_scheduled_append
    (running? : Option Task)
    (tasks : List Task)
    (rest : List Happening) :
    OneAtATime running? (tasks.map .scheduled ++ rest) ↔
      OneAtATime running? rest := by
  induction tasks with
  | nil => exact Iff.rfl
  | cons t tasks ih => cases running? <;> exact ih

/- No task is left running by one that runs as a whole. -/
theorem oneAtATime_happenings_append
    (t : Task)
    (rest : List Happening) :
    OneAtATime none (t.happenings ++ rest) ↔ OneAtATime none rest := by
  unfold Task.happenings
  rw [List.cons_append, List.cons_append, List.append_assoc]
  refine (oneAtATime_scheduled_append (some t) _ _).trans ?_
  cases t.program.fault? with
  | none => exact ⟨fun h => h.2, fun h => ⟨rfl, h⟩⟩
  | some fault => exact ⟨fun h => h.2, fun h => ⟨rfl, h⟩⟩

theorem oneAtATime_flatMap_append
    (tasks : List Task)
    (rest : List Happening) :
    OneAtATime none (tasks.flatMap Task.happenings ++ rest) ↔
      OneAtATime none rest := by
  induction tasks with
  | nil => exact Iff.rfl
  | cons t tasks ih =>
      rw [List.flatMap_cons, List.append_assoc,
        oneAtATime_happenings_append]
      exact ih

theorem oneAtATime_session
    (waiting tasks : List Task) :
    OneAtATime none
      ((session waiting tasks).flatMap Call.happenings) := by
  induction tasks generalizing waiting with
  | nil => trivial
  | cons t tasks ih =>
      rw [session, List.flatMap_cons]
      exact (oneAtATime_flatMap_append _ _).mpr (ih _)

------------------------------------------------------------
-- Single calls
------------------------------------------------------------

theorem startedIn_append
    (first second : List Happening) :
    startedIn (first ++ second) = startedIn first ++ startedIn second :=
  List.filterMap_append

theorem scheduledIn_append
    (first second : List Happening) :
    scheduledIn (first ++ second) =
      scheduledIn first ++ scheduledIn second :=
  List.filterMap_append

theorem startedIn_happenings
    (t : Task) :
    startedIn t.happenings = [t] := by
  have hScheduled :
      startedIn (t.program.scheduled.map .scheduled) = [] := by
    simp [startedIn, Happening.started?]
  unfold Task.happenings
  rw [List.cons_append, startedIn, List.filterMap_cons]
  change t :: startedIn (_ ++ _) = _
  rw [startedIn_append, hScheduled]
  cases t.program.fault? <;> rfl

theorem scheduledIn_happenings
    (t : Task) :
    scheduledIn t.happenings = t.program.scheduled := by
  have hScheduled :
      scheduledIn (t.program.scheduled.map .scheduled) =
        t.program.scheduled := by
    simp [scheduledIn, Happening.scheduled?, List.filterMap_map,
      Function.comp_def]
  unfold Task.happenings
  rw [List.cons_append]
  change scheduledIn (_ ++ _) = _
  rw [scheduledIn_append, hScheduled]
  cases t.program.fault? <;> simp [scheduledIn, Happening.scheduled?]

theorem startedIn_flatMap
    (tasks : List Task) :
    startedIn (tasks.flatMap Task.happenings) = tasks := by
  induction tasks with
  | nil => rfl
  | cons t tasks ih =>
      rw [List.flatMap_cons, startedIn_append, startedIn_happenings, ih]
      rfl

theorem scheduledIn_flatMap
    (tasks : List Task) :
    scheduledIn (tasks.flatMap Task.happenings) =
      tasks.flatMap (fun t => t.program.scheduled) := by
  induction tasks with
  | nil => rfl
  | cons t tasks ih =>
      rw [List.flatMap_cons, scheduledIn_append, scheduledIn_happenings,
        ih, List.flatMap_cons]

/- Counts of tasks that wait are no turns. -/
theorem filter_isTurn_counts
    (p : Program)
    (waiting : Nat) :
    (p.counts waiting).filter Entry.isTurn = [] := by
  induction p generalizing waiting with
  | done => rfl
  | schedule name task next _ ih => exact ih (waiting + 1)
  | drain next ih => exact ih waiting
  | pending next ih => exact ih waiting
  | fail fault => rfl

theorem filter_isTurn_entries
    (t : Task)
    (waiting : Nat) :
    (t.entries waiting).filter Entry.isTurn =
      t.happenings.filterMap Happening.entry? := by
  have hScheduled :
      (t.program.scheduled.map Happening.scheduled).filterMap
        Happening.entry? = [] := by
    simp [Happening.entry?]
  unfold Task.entries Task.happenings
  rw [List.filter_append, List.filterMap_append,
    List.filter_cons_of_pos (by rfl), filter_isTurn_counts,
    List.filterMap_cons]
  dsimp only [Happening.entry?]
  rw [hScheduled]
  cases t.program.fault? <;> rfl

/- The record of a run tells when its tasks start and end. -/
theorem filter_isTurn_drain
    (queue : List Task) :
    (drain queue).record.filter Entry.isTurn =
      ((ran queue).flatMap Task.happenings).filterMap
        Happening.entry? := by
  induction queue using queue_induction with
  | nil =>
      rw [ran_nil, drain_nil]
      rfl
  | returns t rest hFault ih =>
      rw [drain_of_returns hFault, ran_of_returns hFault,
        List.flatMap_cons, List.filterMap_append, ← ih,
        ← filter_isTurn_entries t rest.length, ← List.filter_append]
      rfl
  | fails t rest fault hFault =>
      rw [drain_of_fails hFault, ran_of_fails hFault,
        List.flatMap_cons, List.flatMap_nil, List.append_nil]
      exact filter_isTurn_entries t rest.length

/- Only a task that fails has that happen to it. -/
theorem failed_mem_flatMap
    {tasks : List Task}
    {t : Task}
    {fault : Fault}
    (h : .failed t fault ∈ tasks.flatMap Task.happenings) :
    t ∈ tasks ∧ t.program.fault? = some fault := by
  rcases List.mem_flatMap.mp h with ⟨u, hMem, hHappening⟩
  unfold Task.happenings at hHappening
  cases hFault : u.program.fault? with
  | none => simp [hFault] at hHappening
  | some cause =>
      simp only [hFault, List.cons_append, List.mem_cons,
        reduceCtorEq, List.mem_append, List.mem_map, and_false,
        exists_false, false_or, Happening.failed.injEq,
        List.not_mem_nil, or_false] at hHappening
      rcases hHappening with ⟨rfl, rfl⟩
      exact ⟨hMem, hFault⟩

/-
  How a call is served. The tasks that waited and those that
  are scheduled run in order, and the others are left waiting
  in order; those that waited come before the call's own. All
  run if the call returns. A call that fails does so for a
  task, the last one to run. It makes no difference that a
  scheduler marks whether it is running tasks.
-/
structure Call.Served
    (c : Call) : Prop where
  order :
    c.waiting ++ scheduledIn c.happenings =
      startedIn c.happenings ++ c.run.queue
  first :
    startedIn c.happenings <+: c.waiting ∨
      c.waiting ++ [c.task] <+: startedIn c.happenings
  record :
    c.run.record.filter Entry.isTurn =
      c.happenings.filterMap Happening.entry?
  returns :
    c.run.fault? = none →
      c.run.queue = [] ∧ ∀ t fault, .failed t fault ∉ c.happenings
  fails :
    ∀ fault, c.run.fault? = some fault →
      ∃ earlier t,
        c.happenings = earlier ++ [.failed t fault] ∧
          ∀ u cause, .failed u cause ∉ earlier
  marked :
    ∀ run mark,
      Drains (c.waiting ++ [c.task]) false run mark ↔
        run = c.run ∧ mark = false

theorem Call.startedIn_eq
    (c : Call) :
    startedIn c.happenings = ran (c.waiting ++ [c.task]) :=
  startedIn_flatMap _

theorem Call.order
    (c : Call) :
    c.waiting ++ scheduledIn c.happenings =
      startedIn c.happenings ++ c.run.queue := by
  have hQueue := queue_append_scheduled (c.waiting ++ [c.task])
  rw [c.startedIn_eq, ← scheduledIn_flatMap] at *
  rw [List.append_assoc] at hQueue
  exact hQueue

theorem Call.served
    (c : Call) :
    c.Served where
  order := c.order
  first := by
    have hStarted :
        startedIn c.happenings <+:
          c.waiting ++ scheduledIn c.happenings := by
      rw [c.order]
      exact List.prefix_append _ _
    have hWaiting :
        c.waiting ++ [c.task] <+:
          c.waiting ++ scheduledIn c.happenings :=
      (List.prefix_append_right_inj _).mpr
        (List.cons_prefix_cons.mpr ⟨rfl, List.nil_prefix⟩)
    rcases List.prefix_or_prefix_of_prefix hStarted hWaiting with
      hShort | hLong
    · rcases List.prefix_concat_iff.mp hShort with hAll | hSome
      · right
        rw [hAll]
      · exact .inl hSome
    · exact .inr hLong
  record := filter_isTurn_drain (c.waiting ++ [c.task])
  returns hNone := by
    rcases queue_of_returns hNone with ⟨hQueue, hReturn⟩
    refine ⟨hQueue, ?_⟩
    intro t fault hMem
    rcases List.mem_cons.mp hMem with hEq | hRan
    · cases hEq
    · rcases failed_mem_flatMap hRan with ⟨hTask, hFault⟩
      rw [hReturn t hTask] at hFault
      cases hFault
  fails fault hSome := by
    rcases fails_last hSome with ⟨before, t, hRan, hFault, hBefore⟩
    refine ⟨.scheduled c.task :: before.flatMap Task.happenings ++
      .started t :: t.program.scheduled.map .scheduled, t, ?_, ?_⟩
    · unfold Call.happenings
      rw [hRan, List.flatMap_append, List.flatMap_singleton,
        Task.happenings.eq_def t, hFault]
      simp
    · intro u cause hMem
      rcases List.mem_append.mp hMem with hEarlier | hLast
      · rcases List.mem_cons.mp hEarlier with hEq | hIn
        · cases hEq
        · rcases failed_mem_flatMap hIn with ⟨hTask, hCause⟩
          rw [hBefore u hTask] at hCause
          cases hCause
      · simp at hLast
  marked run mark := drains_iff (c.waiting ++ [c.task]) run mark

------------------------------------------------------------
-- Sessions
------------------------------------------------------------

theorem isChain_session
    (waiting tasks : List Task) :
    (session waiting tasks).IsChain
      (fun c d => d.waiting = c.run.queue) := by
  induction tasks generalizing waiting with
  | nil => exact .nil
  | cons t tasks ih =>
      cases tasks with
      | nil => exact .singleton _
      | cons u rest => exact .cons_cons rfl (ih _)

theorem map_task_session
    (waiting tasks : List Task) :
    (session waiting tasks).map Call.task = tasks := by
  induction tasks generalizing waiting with
  | nil => rfl
  | cons t tasks ih => exact congrArg (t :: ·) (ih _)

/- What is scheduled is what is started and what is left. -/
theorem append_scheduledIn_session
    (waiting tasks : List Task) :
    waiting ++
        scheduledIn ((session waiting tasks).flatMap Call.happenings) =
      startedIn ((session waiting tasks).flatMap Call.happenings) ++
        left waiting tasks := by
  induction tasks generalizing waiting with
  | nil => exact List.append_nil waiting
  | cons t tasks ih =>
      have hCall := Call.order ⟨waiting, t⟩
      rw [session, List.flatMap_cons, scheduledIn_append,
        startedIn_append, ← List.append_assoc, hCall,
        List.append_assoc, List.append_assoc]
      exact congrArg (startedIn _ ++ ·) (ih _)

/-
  However tasks schedule others, over any calls from outside:
  they run one at a time, at any time those that were started
  are the first that were scheduled, and in the end the others
  are left in order. Every call finds what the one before has
  left and is served.
-/
theorem session_in_order
    (tasks : List Task) :
    OneAtATime none ((session [] tasks).flatMap Call.happenings) ∧
      (∀ first,
        first <+: (session [] tasks).flatMap Call.happenings →
          startedIn first <+: scheduledIn first) ∧
      scheduledIn ((session [] tasks).flatMap Call.happenings) =
        startedIn ((session [] tasks).flatMap Call.happenings) ++
          left [] tasks ∧
      (session [] tasks).map Call.task = tasks ∧
      (session [] tasks).IsChain (fun c d => d.waiting = c.run.queue) ∧
      ∀ c ∈ session [] tasks, c.Served := by
  refine ⟨oneAtATime_session [] tasks, ?_, ?_, map_task_session [] tasks,
    isChain_session [] tasks, fun c _ => c.served⟩
  · intro first hFirst
    have hOrder := (inOrder_session [] tasks).upTo hFirst
    exact hOrder.started_prefix
  · exact append_scheduledIn_session [] tasks

namespace Resumed

/- A task that schedules another one and fails, and a third one. -/
def tasks : List Task :=
  [⟨"a", .schedule "b" .done (.fail (.unexpectedEnd "a"))⟩,
    ⟨"c", .done⟩]

/- The second call, before which one task is left. -/
def second : Call :=
  ⟨[⟨"b", .done⟩], ⟨"c", .done⟩⟩

end Resumed

open Resumed in
/- What the failing task has scheduled runs in the next call. -/
theorem waiting_task_resumed :
    (session [] tasks).map
        (fun c => (c.run.record, c.run.queue, c.run.fault?)) =
        [([.started "a"], [⟨"b", .done⟩], some (.unexpectedEnd "a")),
          ([.started "b", .ended "b", .started "c", .ended "c"], [],
            none)] ∧
      startedIn ((session [] tasks).flatMap Call.happenings) <+:
        scheduledIn ((session [] tasks).flatMap Call.happenings) ∧
      second.run.queue = [] ∧
      ∀ t fault, .failed t fault ∉ second.happenings := by
  rcases session_in_order tasks with ⟨_, hStarted, _, _, _, hServed⟩
  have hSecond : second ∈ session [] tasks := .tail _ (.head _)
  exact ⟨rfl, hStarted _ (List.prefix_refl _),
    (hServed second hSecond).returns rfl⟩

end Scheduler
end LinkedMarkup
