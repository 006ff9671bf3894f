import Pthreads.WorkerDrain

/-!
# What a worker does with its tasks

`pthreads_routine` passes every task that `pthreads_worker_next_task` hands out to
`pthreads_routine_run_function`, which returns at once for a task whose monitor is
marked `ERROR`, and which calls `run` only if the user's class defines it.  The
hand-over of the tasks is that of `WorkerTasks`; the object of a task may also
fail on another thread.
-/

namespace Pthreads.TaskExecution

open LinkedCells TaskQueue GuardedRuns
open WorkerTasks (Task Consistent Drained stackedBy)

/-- Where the worker is in `pthreads_routine_run_function` for the task it was
handed. -/
inductive RunPhase where
  /-- No task is handed out. -/
  | outside
  /-- Before the check of `ERROR`. -/
  | entering
  /-- In the user's `run`. -/
  | inside
  /-- Before `pthreads_worker_add_garbage`. -/
  | returned
deriving DecidableEq, Repr

structure State where
  worker : WorkerTasks.State
  phase : RunPhase
  /-- `PTHREADS_MONITOR_ERROR` of each object's monitor. -/
  error : Nat → Bool
  /-- The arguments of `Worker::stack`, never read by the program. -/
  stacked : List Task
  /-- The tasks whose `run` was called, never read by the program. -/
  called : List Task
  /-- The tasks whose `run` was not called, never read by the program. -/
  passedOver : List Task
  /-- Those that were marked `ERROR` when the worker came to them, never read by the
  program. -/
  marked : List Task

def initial : State where
  worker := WorkerTasks.initial
  phase := .outside
  error := fun _ => false
  stacked := []
  called := []
  passedOver := []
  marked := []

inductive Action where
  /-- An action of the hand-over. -/
  | worker (action : WorkerTasks.Action)
  /-- `pthreads_routine_run_function`, as far as the call of `run`. -/
  | enterRun
  /-- `run` is over, with or without an error that nothing handled. -/
  | runReturns (failed : Bool)
  /-- Another thread marks an object `ERROR`. -/
  | failsElsewhere (object : Nat)

/-- The phase after an action of the hand-over, which has given the worker these
tasks to execute. -/
def phaseAfter (phase : RunPhase) (executed : List Task) : WorkerTasks.Action → RunPhase
  | .nextTask => if executed = [] then phase else .entering
  | .addGarbage => .outside
  | _ => phase

/-- `pthreads_worker_add_garbage` comes after `pthreads_routine_run_function`. -/
def inTurn (phase : RunPhase) : WorkerTasks.Action → Bool
  | .addGarbage => phase = .returned
  | _ => true

section Program

-- whether the class of an object defines `run`, or inherits the empty one of `Worker`,
-- which is internal
variable (definesRun : Nat → Bool)

/-- `pthreads_routine_run_function`, as far as the call of `run`. -/
def enterRun (state : State) (task : Task) : State :=
  if state.error task.object then
    { state with
      phase := .returned
      passedOver := state.passedOver ++ [task]
      marked := state.marked ++ [task] }
  else if definesRun task.object then
    { state with phase := .inside, called := state.called ++ [task] }
  else
    { state with phase := .returned, passedOver := state.passedOver ++ [task] }

def step (state : State) : Action → Option State
  | .worker action =>
      if inTurn state.phase action then
        (WorkerTasks.step state.worker action).map fun after =>
          { state with
            worker := after
            phase := phaseAfter state.phase after.worker.executed action
            stacked := state.stacked ++ stackedBy state.worker action }
      else none
  | .enterRun =>
      match state.worker.worker with
      | .executing task =>
          if state.phase = .entering then some (enterRun definesRun state task) else none
      | _ => none
  | .runReturns failed =>
      match state.worker.worker with
      | .executing task =>
          if state.phase = .inside then
            some { state with
              phase := .returned
              error := if failed then Function.update state.error task.object true
                else state.error }
          else none
      | _ => none
  | .failsElsewhere object =>
      some { state with error := Function.update state.error object true }

end Program

/-- The task whose `run` function has not been decided about yet. -/
def State.undecided (state : State) : List Task :=
  if state.phase = .entering then state.worker.worker.executed else []

/-- Every started task was decided about once. -/
structure Executes (definesRun : Nat → Bool) (state : State) : Prop where
  consistent : Consistent state.worker
  drained : Drained state.worker
  stacked : state.worker.stackedTasks.Perm state.stacked
  outside : state.worker.worker.executed = [] → state.phase = .outside
  decided : (state.called ++ state.passedOver ++ state.undecided).Perm
    state.worker.history.started
  reason : ∀ task ∈ state.passedOver,
    state.error task.object = true ∨ definesRun task.object = false
  called : ∀ task ∈ state.called, definesRun task.object = true
  passed : ∀ task ∈ state.passedOver, task ∈ state.marked ∨ definesRun task.object = false
  marked : ∀ task ∈ state.marked, task ∈ state.passedOver

theorem executes_initial (definesRun : Nat → Bool) : Executes definesRun initial where
  consistent := WorkerTasks.consistent_initial
  drained := WorkerTasks.drained_initial
  stacked := List.Perm.refl _
  outside := fun _ => rfl
  decided := List.Perm.refl _
  reason := by simp [initial]
  called := by simp [initial]
  passed := by simp [initial]
  marked := by simp [initial]

section Steps

variable {definesRun : Nat → Bool} {state after : State}

theorem step_worker_cases {action : WorkerTasks.Action}
    (stepped : step definesRun state (.worker action) = some after) :
    inTurn state.phase action = true ∧ ∃ worker,
      WorkerTasks.step state.worker action = some worker ∧
      { state with
        worker := worker
        phase := phaseAfter state.phase worker.worker.executed action
        stacked := state.stacked ++ stackedBy state.worker action } = after := by
  obtain ⟨turn, taken⟩ := Option.ite_none_right_eq_some.mp stepped
  exact ⟨turn, Option.map_eq_some_iff.mp taken⟩

/-- The hand-over decides about no task. -/
theorem Executes.handover (executes : Executes definesRun state) {worker : WorkerTasks.State}
    {phase : RunPhase} {stacked : List Task} (consistent : Consistent worker)
    (drained : Drained worker) (all : worker.stackedTasks.Perm stacked)
    (outside : worker.worker.executed = [] → phase = .outside)
    (decided : (state.called ++ state.passedOver ++
        (State.undecided { state with worker := worker, phase := phase })).Perm
      worker.history.started) :
    Executes definesRun { state with worker := worker, phase := phase, stacked := stacked } where
  consistent := consistent
  drained := drained
  stacked := all
  outside := outside
  decided := decided
  reason := executes.reason
  called := executes.called
  passed := executes.passed
  marked := executes.marked

theorem worker_executes {action : WorkerTasks.Action} (executes : Executes definesRun state)
    (stepped : step definesRun state (.worker action) = some after) :
    Executes definesRun after := by
  obtain ⟨turn, worker, moved, rfl⟩ := step_worker_cases stepped
  have consistent := WorkerTasks.step_consistent _ _ _ executes.consistent moved
  have drained := WorkerTasks.step_drained executes.drained moved
  have stacked := (WorkerTasks.step_stackedTasks executes.consistent moved).trans
    (executes.stacked.append_right _)
  by_cases taking : action = .nextTask
  · subst taking
    obtain ⟨idle, started⟩ := WorkerTasks.nextTask_executes moved
    have outside := executes.outside idle
    have decided := executes.decided
    rw [State.undecided, outside, if_neg (by simp), List.append_nil] at decided
    apply executes.handover consistent drained stacked
    · intro nothing
      simp [phaseAfter, nothing, outside]
    · simp only [State.undecided, phaseAfter, started]
      by_cases nothing : worker.worker.executed = []
      · simpa [nothing, outside] using decided
      · simpa [nothing] using decided.append_right worker.worker.executed
  · have started := WorkerTasks.step_started moved taking
    by_cases dropping : action = .addGarbage
    · subst dropping
      have returned : state.phase = .returned := by simpa [inTurn] using turn
      apply executes.handover consistent drained stacked (fun _ => rfl)
      simpa [State.undecided, phaseAfter, started, returned] using executes.decided
    · have executed := WorkerTasks.step_executed moved taking dropping
      have samePhase : phaseAfter state.phase state.worker.worker.executed action =
          state.phase := by
        cases action with
        | nextTask => exact absurd rfl taking
        | addGarbage => exact absurd rfl dropping
        | _ => rfl
      apply executes.handover consistent drained stacked
      · simp only [executed, samePhase]
        exact executes.outside
      · simpa only [State.undecided, executed, samePhase, started] using executes.decided

/-- The worker has come to the task and has not decided about it. -/
structure Entering (state : State) (task : Task) : Prop where
  worker : state.worker.worker = .executing task
  phase : state.phase = .entering

theorem Executes.decidedAll (executes : Executes definesRun state) {task : Task}
    (entering : Entering state task) :
    (state.called ++ state.passedOver ++ [task]).Perm state.worker.history.started := by
  have decided := executes.decided
  simpa only [State.undecided, entering.phase, if_true, entering.worker,
    WorkerTasks.WorkerPhase.executed] using decided

theorem Entering.busy {task : Task} (entering : Entering state task) :
    state.worker.worker.executed ≠ [] := by
  simp [entering.worker, WorkerTasks.WorkerPhase.executed]

/-- The task is passed over, because of the mark or because of the class. -/
theorem Executes.passOver (executes : Executes definesRun state) {task : Task}
    (entering : Entering state task) {marks : List Task}
    (reason : state.error task.object = true ∨ definesRun task.object = false)
    (passed : task ∈ marks ∨ definesRun task.object = false)
    (grows : ∀ other ∈ state.marked, other ∈ marks)
    (marked : ∀ other ∈ marks, other ∈ state.marked ∨ other = task) :
    Executes definesRun { state with
      phase := .returned
      passedOver := state.passedOver ++ [task]
      marked := marks } := by
  have decided := executes.decidedAll entering
  constructor
  · exact executes.consistent
  · exact executes.drained
  · exact executes.stacked
  · intro idle
    exact absurd idle entering.busy
  · simpa [State.undecided] using decided
  · intro other member
    rcases List.mem_append.mp member with earlier | isTask
    · exact executes.reason other earlier
    · cases List.mem_singleton.mp isTask
      exact reason
  · exact executes.called
  · intro other member
    rcases List.mem_append.mp member with earlier | isTask
    · exact (executes.passed other earlier).imp_left (grows other)
    · cases List.mem_singleton.mp isTask
      exact passed
  · intro other member
    rcases marked other member with earlier | rfl
    · exact List.mem_append_left _ (executes.marked other earlier)
    · simp

theorem Executes.call (executes : Executes definesRun state) {task : Task}
    (entering : Entering state task) (defined : definesRun task.object = true) :
    Executes definesRun { state with phase := .inside, called := state.called ++ [task] } := by
  have decided := executes.decidedAll entering
  constructor
  · exact executes.consistent
  · exact executes.drained
  · exact executes.stacked
  · intro idle
    exact absurd idle entering.busy
  · apply List.Perm.trans _ decided
    simp only [State.undecided, reduceCtorEq, if_false, List.append_nil, List.append_assoc]
    exact List.Perm.append_left _ List.perm_append_comm
  · exact executes.reason
  · intro other member
    rcases List.mem_append.mp member with earlier | isTask
    · exact executes.called other earlier
    · cases List.mem_singleton.mp isTask
      exact defined
  · exact executes.passed
  · exact executes.marked

theorem enterRun_executes (executes : Executes definesRun state)
    (stepped : step definesRun state .enterRun = some after) : Executes definesRun after := by
  simp only [step] at stepped
  split at stepped
  · next task worker =>
    obtain ⟨phase, ⟨⟩⟩ := Option.ite_none_right_eq_some.mp stepped
    have entering : Entering state task := ⟨worker, phase⟩
    unfold enterRun
    split
    · next failed =>
      apply executes.passOver entering (Or.inl failed)
      · simp
      · intro other member
        exact List.mem_append_left _ member
      · intro other member
        simpa using member
    · split
      · next defined => exact executes.call entering defined
      · next undefined =>
        have isUndefined : definesRun task.object = false := by simpa using undefined
        exact executes.passOver entering (Or.inr isUndefined) (Or.inr isUndefined)
          (fun other member => member) (fun other member => Or.inl member)
  · cases stepped

/-- `ERROR` is never removed. -/
theorem Executes.withError (executes : Executes definesRun state) (object : Nat) :
    Executes definesRun { state with error := Function.update state.error object true } := by
  refine { executes with reason := ?_ }
  intro task member
  rcases executes.reason task member with failed | undefined
  · left
    by_cases same : task.object = object
    · simp [same]
    · simpa [same] using failed
  · exact Or.inr undefined

theorem step_executes {action : Action} (executes : Executes definesRun state)
    (stepped : step definesRun state action = some after) : Executes definesRun after := by
  cases action with
  | worker action => exact worker_executes executes stepped
  | enterRun => exact enterRun_executes executes stepped
  | failsElsewhere object =>
      cases stepped
      exact executes.withError object
  | runReturns failed =>
      simp only [step] at stepped
      split at stepped
      · next task phase =>
        obtain ⟨inside, ⟨⟩⟩ := Option.ite_none_right_eq_some.mp stepped
        have busy : state.worker.worker.executed ≠ [] := by
          simp [phase, WorkerTasks.WorkerPhase.executed]
        have decided := executes.decided
        rw [State.undecided, inside, if_neg (by simp)] at decided
        have returned : Executes definesRun { state with phase := .returned } :=
          { executes with
            outside := fun idle => absurd idle busy
            decided := decided }
        cases failed with
        | false => exact returned
        | true => exact returned.withError task.object
      · cases stepped

theorem executes_of_reaches
    (reached : Reaches (step definesRun) anyAction initial state) : Executes definesRun state :=
  reached.preserves (fun _ _ _ executes _ stepped => step_executes executes stepped)
    (executes_initial definesRun)

end Steps

/-- A worker that was destroyed stays so. -/
theorem step_destroyed {definesRun : Nat → Bool} {state after : State} {action : Action}
    (stepped : step definesRun state action = some after)
    (destroyed : state.worker.worker = .destroyed) : after.worker.worker = .destroyed := by
  cases action with
  | worker action =>
      obtain ⟨-, worker, moved, rfl⟩ := step_worker_cases stepped
      exact WorkerTasks.step_destroyed moved destroyed
  | enterRun | runReturns failed => simp [step, destroyed] at stepped
  | failsElsewhere object =>
      cases stepped
      exact destroyed

/-- Its `run` has been called once, and it was decided about once. -/
theorem Executes.count_called (executes : Executes definesRun state) {task : Task}
    (undecided : state.undecided = []) (once : state.worker.history.started.count task = 1) :
    state.called.count task =
      if task ∈ state.marked ∨ definesRun task.object = false then 0 else 1 := by
  have decided := executes.decided
  rw [undecided, List.append_nil] at decided
  have counts := decided.count_eq task
  rw [List.count_append, once] at counts
  split
  · next reason =>
    rcases reason with isMarked | undefined
    · have passed := List.count_pos_iff.mpr (executes.marked task isMarked)
      omega
    · apply List.count_eq_zero_of_not_mem
      intro wasCalled
      simp [executes.called task wasCalled] at undefined
  · next noReason =>
    have notPassed : state.passedOver.count task = 0 := by
      apply List.count_eq_zero_of_not_mem
      intro passed
      exact noReason (executes.passed task passed)
    omega

/-- The task is stacked, runs and is joined with its worker. -/
def stackAndShutdown : List Action :=
  [.worker .start, .worker .enterLoop, .worker (.stack 1 70), .worker .nextTask, .enterRun,
    .worker .join, .runReturns false, .worker .addGarbage, .worker (.recordDone 2),
    .worker .nextTask, .worker .signalAwaitJoin, .worker .joinWoken, .worker .joinSync,
    .worker .joinExit, .worker .destroy]

/-- One object is stacked twice, and its first `run` fails. -/
def stackTwiceAndShutdown : List Action :=
  [.worker .start, .worker .enterLoop, .worker (.stack 1 70), .worker (.stack 2 70),
    .worker .nextTask, .enterRun, .runReturns true, .worker .addGarbage, .worker (.recordDone 3),
    .worker .nextTask, .enterRun, .worker .addGarbage, .worker (.recordDone 4),
    .worker .join, .worker .nextTask, .worker .signalAwaitJoin, .worker .joinWoken,
    .worker .joinSync, .worker .joinExit, .worker .destroy]

end Pthreads.TaskExecution
