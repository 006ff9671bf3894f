import Pthreads.FiniteMemory
import Pthreads.InevitableRuns
import Pthreads.TaskOrder
import Pthreads.WorkerWakeups
import Mathlib.Data.Prod.Lex

/-!
# The join of a worker returns

From every state that a worker comes to, a `pthreads_join` that has begun returns, in
whatever order the two threads go on, if the `run` of each task does.  A worker is never
blocked for good: the flags that the creator and the worker exchange tell where they are,
and a worker that waits without a wakeup on its way is not being joined.  Each iteration
of the loop of the worker shortens the queue, and each other action brings one of the
threads closer to its end.  Spurious wakeups are the exception, and after the last of them
the result applies.  The sync of the thread's properties is one step of the creator, so it
is taken to return, and the thread's end to get the global monitor: a creator that joins
inside its own `pthreads_prepared_shutdown` holds that monitor and waits for ever.
-/

namespace Pthreads.WorkerTasks

open LinkedCells TaskQueue

/-- The flags tell where the creator and the worker are. -/
structure Flagged (state : State) : Prop where
  started : state.monitor .started = true ↔ state.worker ≠ .unstarted
  awaitJoin : state.monitor .awaitJoin = true ↔
    state.worker = .awaitingExit ∨ state.worker = .destroyed
  joined : state.creator ≠ .free →
    state.monitor .joined = true ∧ state.monitor .started = true
  synced : state.creator ≠ .free → state.creator ≠ .awaitingJoin →
    state.monitor .awaitJoin = true
  exit : state.creator = .awaitingThread → state.monitor .exit = true

theorem flagged_initial : Flagged initial := by
  constructor <;> simp [initial]

@[simp]
theorem notify_eq_unstarted (phase : WorkerPhase) :
    notify phase = .unstarted ↔ phase = .unstarted := by
  cases phase <;> simp [notify]

@[simp]
theorem notify_eq_awaitingExit (phase : WorkerPhase) :
    notify phase = .awaitingExit ↔ phase = .awaitingExit := by
  cases phase <;> simp [notify]

section Flags

variable {state after : State}

/-- What sets none of the flags and leaves both threads in the part of their lives in
which they are. -/
theorem Flagged.congr (flagged : Flagged state)
    (monitor : ∀ flag, flag ≠ .collectGarbage → after.monitor flag = state.monitor flag)
    (creator : after.creator = state.creator)
    (unstarted : after.worker = .unstarted ↔ state.worker = .unstarted)
    (departed : (after.worker = .awaitingExit ∨ after.worker = .destroyed) ↔
      (state.worker = .awaitingExit ∨ state.worker = .destroyed)) : Flagged after := by
  constructor
  · rw [monitor .started (by decide), flagged.started, ne_eq, ne_eq, unstarted]
  · rw [monitor .awaitJoin (by decide), flagged.awaitJoin, departed]
  · rw [monitor .joined (by decide), monitor .started (by decide), creator]
    exact flagged.joined
  · rw [monitor .awaitJoin (by decide), creator]
    exact flagged.synced
  · rw [monitor .exit (by decide), creator]
    exact flagged.exit

theorem nextTask_flagged (flagged : Flagged state) (stepped : step state .nextTask = some after) :
    Flagged after := by
  obtain ⟨phase, middle, dropped, taken⟩ := nextTask_eq stepped
  have looping : state.worker ≠ .unstarted ∧
      ¬ (state.worker = .awaitingExit ∨ state.worker = .destroyed) := by
    rcases phase with isLooping | isWaiting
    · simp [isLooping]
    · simp [isWaiting]
  have kept : middle.creator = state.creator ∧
      ∀ flag, flag ≠ .collectGarbage → middle.monitor flag = state.monitor flag := by
    rcases dropCollected_eq dropped with ⟨-, rfl⟩ | ⟨-, memory, cache, tasks, -, rfl⟩
    · exact ⟨rfl, fun _ _ => rfl⟩
    · exact ⟨rfl, fun flag other => Function.update_of_ne other _ _⟩
  rcases takeTask_eq taken with
    ⟨-, -, rfl⟩ | ⟨-, -, rfl⟩ | ⟨head, removal, task, -, -, -, rfl⟩
  · exact flagged.congr kept.2 kept.1 (by simp [looping]) (by simp [looping])
  · exact flagged.congr kept.2 kept.1 (by simp [looping]) (by simp [looping])
  · exact flagged.congr kept.2 kept.1 (by simp [looping]) (by simp [looping])

theorem step_flagged {action : Action} (flagged : Flagged state)
    (stepped : step state action = some after) : Flagged after := by
  cases action with
  | nextTask => exact nextTask_flagged flagged stepped
  | stack address object =>
      obtain ⟨-, memory, queue, -, rfl⟩ := stack_eq stepped
      refine flagged.congr (fun _ _ => rfl) rfl ?_ ?_
      · dsimp only
        split <;> simp
      · dsimp only
        split <;> simp
  | unstack =>
      obtain ⟨-, removal, -, rfl⟩ := unstack_eq stepped
      exact flagged.congr (fun _ _ => rfl) rfl Iff.rfl Iff.rfl
  | collect answers =>
      obtain ⟨memory, gc, collected, -, rfl⟩ := collect_eq stepped
      refine flagged.congr ?_ rfl ?_ ?_
      · intro flag other
        dsimp only
        split
        · exact Function.update_of_ne other _ _
        · rfl
      · dsimp only
        split <;> simp
      · dsimp only
        split <;> simp
  | enterLoop | spuriousWakeup =>
      obtain ⟨phase, ⟨⟩⟩ := Option.ite_none_right_eq_some.mp stepped
      exact flagged.congr (fun _ _ => rfl) rfl (by simp [phase]) (by simp [phase])
  | addGarbage =>
      obtain ⟨task, running, memory, gc, phase, -, -, rfl⟩ := addGarbage_eq stepped
      exact flagged.congr (fun _ _ => rfl) rfl (by simp [phase]) (by simp [phase])
  | recordDone address =>
      obtain ⟨task, memory, cache, phase, -, rfl⟩ := recordDone_eq stepped
      exact flagged.congr (fun _ _ => rfl) rfl (by simp [phase]) (by simp [phase])
  | destroy =>
      obtain ⟨phase, memory, -, rfl⟩ := destroy_eq stepped
      exact flagged.congr (fun _ _ => rfl) rfl (by simp [phase]) (by simp [phase])
  | start =>
      obtain ⟨⟨free, phase⟩, ⟨⟩⟩ := Option.ite_none_right_eq_some.mp stepped
      have isFree : state.creator = .free := of_decide_eq_true free
      have notSignalled := flagged.awaitJoin
      rw [phase] at notSignalled
      constructor <;> simp [monitorAdd, isFree, notSignalled]
  | signalAwaitJoin =>
      obtain ⟨phase, ⟨⟩⟩ := Option.ite_none_right_eq_some.mp stepped
      have started := flagged.started
      rw [phase] at started
      constructor
      · simp [monitorAdd, started]
      · simp [monitorAdd]
      · simpa [monitorAdd] using flagged.joined
      · simp [monitorAdd]
      · simpa [monitorAdd] using flagged.exit
  | join =>
      obtain ⟨⟨free, started, -⟩, ⟨⟩⟩ := Option.ite_none_right_eq_some.mp stepped
      have isStarted := flagged.started
      have signalled := flagged.awaitJoin
      constructor <;> simp [monitorAdd, isStarted, signalled]
      exact isStarted.mp started
  | joinWoken =>
      obtain ⟨⟨waiting, signalled⟩, ⟨⟩⟩ := Option.ite_none_right_eq_some.mp stepped
      exact ⟨flagged.started, flagged.awaitJoin, fun _ => flagged.joined (by simp [waiting]),
        fun _ _ => signalled, by simp⟩
  | joinSync =>
      obtain ⟨syncing, ⟨⟩⟩ := Option.ite_none_right_eq_some.mp stepped
      exact ⟨flagged.started, flagged.awaitJoin, fun _ => flagged.joined (by simp [syncing]),
        fun _ _ => flagged.synced (by simp [syncing]) (by simp [syncing]), by simp⟩
  | joinExit =>
      obtain ⟨synced, ⟨⟩⟩ := Option.ite_none_right_eq_some.mp stepped
      have joined := flagged.joined (by simp [synced])
      have signalled := flagged.synced (by simp [synced]) (by simp [synced])
      constructor
      · simp [monitorAdd, flagged.started]
      · simp [monitorAdd, flagged.awaitJoin]
      · simpa [monitorAdd] using joined
      · simpa [monitorAdd] using signalled
      · simp [monitorAdd]
  | joinReturn =>
      obtain ⟨-, ⟨⟩⟩ := Option.ite_none_right_eq_some.mp stepped
      exact ⟨flagged.started, flagged.awaitJoin, fun busy => absurd rfl busy,
        fun busy => absurd rfl busy, by simp⟩

end Flags

section Enabled

variable {state : State}

theorem nextTask_enabled (consistent : Consistent state)
    (phase : state.worker = .looping ∨ state.worker = .waiting true) :
    ∃ after, step state .nextTask = some after := by
  obtain ⟨places, layout, accounted⟩ := consistent
  obtain ⟨alive, -, recorded⟩ := WorkerPhase.seeking phase
  obtain ⟨middle, left, dropped, laid, kept, samePhase, -⟩ :=
    dropCollected_drops layout accounted alive recorded
  obtain ⟨after, taken, -⟩ := takeTask_consistent laid kept (by rw [samePhase]; exact phase)
  refine ⟨after, ?_⟩
  simp only [step, if_pos phase, workerNextTask, dropped, Option.bind_some, taken]

theorem addGarbage_enabled (consistent : Consistent state) {task : Task}
    (phase : state.worker = .executing task) : ∃ after, step state .addGarbage = some after := by
  obtain ⟨places, layout, accounted⟩ := consistent
  have executing := accounted.executing
  rw [phase] at executing
  obtain ⟨item, running, -⟩ := List.map_eq_singleton_iff.mp executing
  obtain ⟨memory, gc, pointer, pushed, -⟩ := addGarbage_layout layout (by simp [phase]) running
  exact ⟨_, by simp only [step, phase, workerAddGarbage, pointer, pushed, Option.bind_eq_bind,
    Option.bind_some]; rfl⟩

theorem recordDone_enabled (consistent : Consistent state) {task : Task}
    (phase : state.worker = .recording task) {address : Nat}
    (free : state.memory address = none) :
    ∃ after, step state (.recordDone address) = some after := by
  obtain ⟨places, layout, -⟩ := consistent
  obtain ⟨memory, cache, pushed, -⟩ := recordDone_layout layout (by simp [phase]) free task
  exact ⟨_, by simp only [step, phase, recordDone, pushed, Option.bind_eq_bind,
    Option.bind_some]; rfl⟩

theorem destroy_enabled (consistent : Consistent state) (phase : state.worker = .awaitingExit)
    (exit : state.monitor .exit = true) : ∃ after, step state .destroy = some after := by
  obtain ⟨places, layout, -⟩ := consistent
  obtain ⟨memory, cleaned, -⟩ := destroy_layout layout (by simp [phase])
  exact ⟨_, by simp only [step, if_pos (And.intro phase exit), cleaned, Option.bind_eq_bind,
    Option.bind_some]; rfl⟩

theorem stack_enabled (consistent : Consistent state) (isFree : state.creator = .free)
    {address : Nat} (free : state.memory address = none) (object : Nat) :
    ∃ after, step state (.stack address object) = some after := by
  obtain ⟨places, layout, -⟩ := consistent
  obtain ⟨memory, queue, pushed, -⟩ :=
    queuePushNew_layout layout free ⟨object, state.history.stacked⟩
  exact ⟨_, by simp only [step, State.creatorFree, isFree, decide_true, if_true, workerAddTask,
    pushed, Option.bind_eq_bind, Option.bind_some]; rfl⟩

theorem collect_enabled (consistent : Consistent state) (isFree : state.creator = .free)
    (answers : Task → Bool) : ∃ after, step state (.collect answers) = some after := by
  obtain ⟨places, layout, accounted⟩ := consistent
  obtain ⟨middle, taken, left, collected, -⟩ :=
    workerCollectTasks_removes layout accounted answers
  exact ⟨_, by simp only [step, State.creatorFree, isFree, decide_true, if_true, collected,
    Option.bind_eq_bind, Option.bind_some]; rfl⟩

end Enabled

/-- The number of queued tasks. -/
def State.queued (state : State) : Nat := (contents state.memory state.data.queue).length

/-- The tasks of the queue become fewer only when one is started. -/
theorem step_queued {state after : State} {action : Action} (consistent : Consistent state)
    (stepped : step state action = some after)
    (notStack : ∀ address object, action ≠ .stack address object) (notUnstack : action ≠ .unstack) :
    after.queued + after.history.started.length =
      state.queued + state.history.started.length := by
  have tasks := congrArg List.length
    (step_stackedTasks_eq consistent stepped notStack notUnstack)
  have unstacked := step_unstacked stepped notUnstack
  simp only [State.stackedTasks, List.length_append, unstacked] at tasks
  unfold State.queued
  omega

end Pthreads.WorkerTasks

namespace Pthreads.TaskExecution

open LinkedCells TaskQueue GuardedRuns
open WorkerTasks (Task WorkerPhase CreatorPhase Undisturbed Flagged)

/-- What a worker that goes on can rely on. -/
structure Lively (definesRun : Nat → Bool) (state : State) : Prop where
  executes : Executes definesRun state
  undisturbed : Undisturbed state.worker
  flagged : Flagged state.worker
  bounded : state.worker.memory.Bounded
  inside : state.worker.worker.executed ≠ [] → state.phase ≠ .outside

theorem lively_initial (definesRun : Nat → Bool) : Lively definesRun initial where
  executes := executes_initial definesRun
  undisturbed := nofun
  flagged := WorkerTasks.flagged_initial
  bounded := Set.finite_empty.subset fun _ allocated => allocated rfl
  inside := fun busy => absurd rfl busy

/-- What the worker's thread does, but for spurious wakeups. -/
def onThread : Action → Bool
  | .worker .enterLoop | .worker .nextTask | .worker .addGarbage | .worker (.recordDone _)
  | .worker .signalAwaitJoin | .worker .destroy | .enterRun | .runReturns _ => true
  | _ => false

/-- The part of an iteration in which the worker is. -/
def phaseRank : WorkerPhase → RunPhase → Nat
  | .executing _, .entering => 8
  | .executing _, .inside => 7
  | .executing _, _ => 6
  | .recording _, _ => 5
  | .starting, _ => 4
  | .looping, _ | .waiting true, _ => 3
  | .finished, _ => 2
  | .awaitingExit, _ => 1
  | .unstarted, _ | .waiting false, _ | .destroyed, _ => 0

/-- How much the worker has to do until it waits or ends. -/
def State.rank (state : State) : Nat :=
  6 * state.worker.queued + phaseRank state.worker.worker state.phase

/-- How much of a `pthreads_join` is left. -/
def joinRank : CreatorPhase → Nat
  | .free => 0
  | .awaitingJoin => 4
  | .syncing => 3
  | .synced => 2
  | .awaitingThread => 1

section Steps

variable {definesRun : Nat → Bool} {state after : State}

theorem worker_inside {action : WorkerTasks.Action} (lively : Lively definesRun state)
    (stepped : step definesRun state (.worker action) = some after)
    (busy : after.worker.worker.executed ≠ []) : after.phase ≠ .outside := by
  obtain ⟨turn, worker, moved, rfl⟩ := step_worker_cases stepped
  dsimp only at busy ⊢
  by_cases taking : action = .nextTask
  · subst taking
    rw [phaseAfter, if_neg busy]
    intro same
    cases same
  · by_cases dropping : action = .addGarbage
    · subst dropping
      obtain ⟨task, running, memory, gc, -, -, -, rfl⟩ := WorkerTasks.addGarbage_eq moved
      exact absurd rfl busy
    · rw [WorkerTasks.step_executed moved taking dropping] at busy
      have inside := lively.inside busy
      cases action with
      | nextTask => exact absurd rfl taking
      | addGarbage => exact absurd rfl dropping
      | _ => exact inside

theorem step_lively {action : Action} (lively : Lively definesRun state)
    (stepped : step definesRun state action = some after) : Lively definesRun after := by
  have executes := step_executes lively.executes stepped
  cases action with
  | worker action =>
      have inside := worker_inside lively stepped
      obtain ⟨-, worker, moved, rfl⟩ := step_worker_cases stepped
      exact ⟨executes,
        WorkerTasks.step_undisturbed lively.executes.consistent lively.undisturbed moved,
        WorkerTasks.step_flagged lively.flagged moved,
        WorkerTasks.step_bounded lively.bounded moved, inside⟩
  | failsElsewhere object =>
      cases stepped
      exact ⟨executes, lively.undisturbed, lively.flagged, lively.bounded, lively.inside⟩
  | enterRun =>
      obtain ⟨worker, -, -, -, phase⟩ := enterRun_cases stepped
      refine ⟨executes, ?_, ?_, ?_, fun _ => ?_⟩
      · rw [worker]
        exact lively.undisturbed
      · rw [worker]
        exact lively.flagged
      · rw [worker]
        exact lively.bounded
      · rcases phase with isInside | isReturned
        · simp [isInside]
        · simp [isReturned]
  | runReturns failed =>
      obtain ⟨worker, -, -, -, phase⟩ := runReturns_cases stepped
      refine ⟨executes, ?_, ?_, ?_, fun _ => by simp [phase]⟩
      · rw [worker]
        exact lively.undisturbed
      · rw [worker]
        exact lively.flagged
      · rw [worker]
        exact lively.bounded

theorem lively_of_reaches (reached : Reaches (step definesRun) anyAction initial state) :
    Lively definesRun state :=
  reached.preserves (fun _ _ _ lively _ stepped => step_lively lively stepped)
    (lively_initial definesRun)

/-- The worker's thread leaves the creator where it is. -/
theorem onThread_creator {action : Action} (own : onThread action = true)
    (stepped : step definesRun state action = some after) :
    after.worker.creator = state.worker.creator := by
  cases action with
  | enterRun => rw [(enterRun_cases stepped).1]
  | runReturns failed => rw [(runReturns_cases stepped).1]
  | failsElsewhere object => cases own
  | worker action =>
      obtain ⟨-, worker, moved, rfl⟩ := step_worker_cases stepped
      exact WorkerTasks.creator_kept moved (by cases action <;> first | rfl | cases own)

/-- Whatever the worker's thread does, it has less to do then. -/
theorem onThread_lowers {action : Action} (executes : Executes definesRun state)
    (own : onThread action = true) (stepped : step definesRun state action = some after) :
    after.rank < state.rank := by
  cases action with
  | failsElsewhere object => cases own
  | enterRun =>
      obtain ⟨worker, -, entering, ⟨task, phase⟩, isAfter⟩ := enterRun_cases stepped
      rcases isAfter with isInside | isReturned
      · simp [State.rank, worker, entering, phase, isInside, phaseRank]
      · simp [State.rank, worker, entering, phase, isReturned, phaseRank]
  | runReturns failed =>
      obtain ⟨worker, -, inside, ⟨task, phase⟩, isReturned⟩ := runReturns_cases stepped
      simp [State.rank, worker, inside, phase, isReturned, phaseRank]
  | worker action =>
      obtain ⟨turn, worker, moved, rfl⟩ := step_worker_cases stepped
      have queued := WorkerTasks.step_queued executes.consistent moved
        (by rintro address object rfl; cases own) (by rintro rfl; cases own)
      cases action with
      | start | stack address object | unstack | collect answers | join | joinWoken | joinSync
      | joinExit | joinReturn | spuriousWakeup => cases own
      | nextTask =>
          obtain ⟨-, started⟩ := WorkerTasks.nextTask_executes moved
          obtain ⟨phase, middle, -, taken⟩ := WorkerTasks.nextTask_eq moved
          have before : phaseRank state.worker.worker state.phase = 3 := by
            rcases phase with isLooping | isWaiting
            · rw [isLooping]
              rfl
            · rw [isWaiting]
              rfl
          rw [started, List.length_append] at queued
          simp only [State.rank, before]
          rcases WorkerTasks.takeTask_eq taken with
            ⟨-, -, rfl⟩ | ⟨-, -, rfl⟩ | ⟨head, removal, task, -, -, -, rfl⟩
          · simp only [WorkerPhase.executed, List.length_nil] at queued
            simp only [phaseRank]
            omega
          · simp only [WorkerPhase.executed, List.length_nil] at queued
            simp only [phaseRank]
            omega
          · simp only [WorkerPhase.executed, List.length_singleton] at queued
            simp only [phaseAfter, WorkerPhase.executed, List.cons_ne_nil, if_false, phaseRank]
            omega
      | addGarbage =>
          have returned : state.phase = .returned := by simpa [inTurn] using turn
          obtain ⟨task, running, memory, gc, phase, -, -, isAfter⟩ :=
            WorkerTasks.addGarbage_eq moved
          have recording : worker.worker = .recording task := by rw [isAfter]
          rw [WorkerTasks.step_started moved (by simp)] at queued
          simp only [State.rank, phase, returned, recording, phaseRank]
          omega
      | recordDone address =>
          obtain ⟨task, memory, cache, phase, -, isAfter⟩ := WorkerTasks.recordDone_eq moved
          have looping : worker.worker = .looping := by rw [isAfter]
          rw [WorkerTasks.step_started moved (by simp)] at queued
          simp only [State.rank, phase, looping, phaseRank]
          omega
      | destroy =>
          obtain ⟨phase, memory, -, isAfter⟩ := WorkerTasks.destroy_eq moved
          have destroyed : worker.worker = .destroyed := by rw [isAfter]
          rw [WorkerTasks.step_started moved (by simp)] at queued
          simp only [State.rank, phase, destroyed, phaseRank]
          omega
      | enterLoop | signalAwaitJoin =>
          obtain ⟨phase, ⟨⟩⟩ := Option.ite_none_right_eq_some.mp moved
          simp [State.rank, WorkerTasks.State.queued, phase, phaseRank]

theorem worker_enabled {action : WorkerTasks.Action} {worker : WorkerTasks.State}
    (turn : inTurn state.phase action = true)
    (moved : WorkerTasks.step state.worker action = some worker) :
    ∃ after, step definesRun state (.worker action) = some after :=
  ⟨_, by simp only [step, if_pos turn, moved, Option.map_some]; rfl⟩

/-- A started worker can go on until it has seen the join. -/
theorem onThread_enabled (lively : Lively definesRun state)
    (joined : state.worker.monitor .joined = true)
    (started : state.worker.monitor .started = true)
    (notSignalled : state.worker.monitor .awaitJoin ≠ true) :
    ∃ action after, onThread action = true ∧ step definesRun state action = some after := by
  have consistent := lively.executes.consistent
  have signalled := lively.flagged.awaitJoin
  cases phase : state.worker.worker with
  | unstarted => exact absurd phase (lively.flagged.started.mp started)
  | awaitingExit => exact absurd (signalled.mpr (Or.inl phase)) notSignalled
  | destroyed => exact absurd (signalled.mpr (Or.inr phase)) notSignalled
  | starting =>
      obtain ⟨after, stepped⟩ := @worker_enabled definesRun state .enterLoop _ rfl (if_pos phase)
      exact ⟨_, after, rfl, stepped⟩
  | finished =>
      obtain ⟨after, stepped⟩ :=
        @worker_enabled definesRun state .signalAwaitJoin _ rfl (if_pos phase)
      exact ⟨_, after, rfl, stepped⟩
  | looping =>
      obtain ⟨worker, moved⟩ := WorkerTasks.nextTask_enabled consistent (Or.inl phase)
      obtain ⟨after, stepped⟩ := @worker_enabled definesRun _ _ _ rfl moved
      exact ⟨_, after, rfl, stepped⟩
  | waiting woken =>
      cases woken with
      | false =>
          have notJoined := (lively.undisturbed phase).2.1
          rw [joined] at notJoined
          cases notJoined
      | true =>
          obtain ⟨worker, moved⟩ := WorkerTasks.nextTask_enabled consistent (Or.inr phase)
          obtain ⟨after, stepped⟩ := @worker_enabled definesRun _ _ _ rfl moved
          exact ⟨_, after, rfl, stepped⟩
  | recording task =>
      obtain ⟨address, free⟩ := lively.bounded.exists_free
      obtain ⟨worker, moved⟩ := WorkerTasks.recordDone_enabled consistent phase free
      obtain ⟨after, stepped⟩ := @worker_enabled definesRun _ _ _ rfl moved
      exact ⟨_, after, rfl, stepped⟩
  | executing task =>
      have busy : state.worker.worker.executed ≠ [] := by simp [phase, WorkerPhase.executed]
      cases place : state.phase with
      | outside => exact absurd place (lively.inside busy)
      | entering => exact ⟨.enterRun, _, rfl, by simp only [step, phase, if_pos place]; rfl⟩
      | inside => exact ⟨.runReturns false, _, rfl, by simp only [step, phase, if_pos place]; rfl⟩
      | returned =>
          obtain ⟨worker, moved⟩ := WorkerTasks.addGarbage_enabled consistent phase
          obtain ⟨after, stepped⟩ :=
            @worker_enabled definesRun _ _ _ (by simp [inTurn, place]) moved
          exact ⟨_, after, rfl, stepped⟩

/-- Inside `pthreads_join`, the creator does what is next there. -/
theorem joining_lowers {action : WorkerTasks.Action} {worker before : WorkerTasks.State}
    (joining : before.creator ≠ .free) (creators : WorkerTasks.isCreators action = true)
    (moved : WorkerTasks.step before action = some worker) :
    joinRank worker.creator < joinRank before.creator ∧
      (worker.creator = .free → worker.worker = .destroyed) := by
  cases action with
  | enterLoop | nextTask | spuriousWakeup | addGarbage | recordDone address | signalAwaitJoin
  | destroy => cases creators
  | start | join =>
      obtain ⟨⟨free, -⟩, -⟩ := Option.ite_none_right_eq_some.mp moved
      exact absurd (of_decide_eq_true free) joining
  | stack address object | unstack | collect answers =>
      obtain ⟨free, -⟩ := Option.ite_none_right_eq_some.mp moved
      exact absurd (of_decide_eq_true free) joining
  | joinWoken =>
      obtain ⟨⟨waiting, -⟩, ⟨⟩⟩ := Option.ite_none_right_eq_some.mp moved
      rw [waiting]
      exact ⟨Nat.lt_of_sub_eq_succ rfl, nofun⟩
  | joinSync =>
      obtain ⟨syncing, ⟨⟩⟩ := Option.ite_none_right_eq_some.mp moved
      rw [syncing]
      exact ⟨Nat.lt_of_sub_eq_succ rfl, nofun⟩
  | joinExit =>
      obtain ⟨synced, ⟨⟩⟩ := Option.ite_none_right_eq_some.mp moved
      rw [synced]
      exact ⟨Nat.lt_of_sub_eq_succ rfl, nofun⟩
  | joinReturn =>
      obtain ⟨⟨awaiting, destroyed⟩, ⟨⟩⟩ := Option.ite_none_right_eq_some.mp moved
      rw [awaiting]
      exact ⟨Nat.lt_of_sub_eq_succ rfl, fun _ => destroyed⟩

/-- What the creator does in a `pthreads_join` that has begun. -/
def isJoining : WorkerTasks.Action → Bool
  | .joinWoken | .joinSync | .joinExit | .joinReturn => true
  | _ => false

/-- A `pthreads_join` that has begun is never stuck. -/
theorem joining_enabled (lively : Lively definesRun state)
    (joining : state.worker.creator ≠ .free) :
    (∃ action after, onThread action = true ∧ step definesRun state action = some after) ∨
      ∃ action after, isJoining action = true ∧
        step definesRun state (.worker action) = some after := by
  have consistent := lively.executes.consistent
  obtain ⟨joined, started⟩ := lively.flagged.joined joining
  cases creator : state.worker.creator with
  | free => exact absurd creator joining
  | syncing =>
      obtain ⟨after, stepped⟩ := @worker_enabled definesRun state .joinSync _ rfl (if_pos creator)
      exact Or.inr ⟨_, after, rfl, stepped⟩
  | synced =>
      obtain ⟨after, stepped⟩ := @worker_enabled definesRun state .joinExit _ rfl (if_pos creator)
      exact Or.inr ⟨_, after, rfl, stepped⟩
  | awaitingJoin =>
      by_cases signalled : state.worker.monitor .awaitJoin = true
      · obtain ⟨after, stepped⟩ :=
          @worker_enabled definesRun state .joinWoken _ rfl (if_pos ⟨creator, signalled⟩)
        exact Or.inr ⟨_, after, rfl, stepped⟩
      · exact Or.inl (onThread_enabled lively joined started signalled)
  | awaitingThread =>
      have exit := lively.flagged.exit creator
      have signalled := lively.flagged.synced (by simp [creator]) (by simp [creator])
      rcases lively.flagged.awaitJoin.mp signalled with awaiting | destroyed
      · obtain ⟨worker, moved⟩ := WorkerTasks.destroy_enabled consistent awaiting exit
        obtain ⟨after, stepped⟩ := @worker_enabled definesRun state .destroy _ rfl moved
        exact Or.inl ⟨_, after, rfl, stepped⟩
      · obtain ⟨after, stepped⟩ :=
          @worker_enabled definesRun state .joinReturn _ rfl (if_pos ⟨creator, destroyed⟩)
        exact Or.inr ⟨_, after, rfl, stepped⟩

/-- The two threads go on, without spurious wakeups. -/
def goesOn (_ : State) : Action → Prop
  | .worker .spuriousWakeup | .failsElsewhere _ => False
  | _ => True

theorem goesOn_of_onThread {action : Action} (own : onThread action = true) :
    goesOn state action := by
  unfold onThread at own
  unfold goesOn
  split at own <;> trivial

/-- In a join, either thread goes on. -/
theorem goesOn_cases {action : Action} (permitted : goesOn state action) :
    onThread action = true ∨
      ∃ worker, action = .worker worker ∧ WorkerTasks.isCreators worker = true := by
  cases action with
  | enterRun | runReturns failed => exact Or.inl rfl
  | failsElsewhere object => exact absurd permitted id
  | worker action =>
      cases action with
      | spuriousWakeup => exact absurd permitted id
      | enterLoop | nextTask | addGarbage | recordDone address | signalAwaitJoin | destroy =>
          exact Or.inl rfl
      | start | stack address object | unstack | collect answers | join | joinWoken | joinSync
      | joinExit | joinReturn => exact Or.inr ⟨_, rfl, rfl⟩

/-- The worker sleeps, is woken up by a task that is taken back, and is joined. -/
def sleepAndJoin : List Action :=
  [.worker .start, .worker .enterLoop, .worker .nextTask, .worker (.stack 1 70), .worker .unstack,
    .worker (.stack 2 71), .worker .join]

end Steps

end Pthreads.TaskExecution
