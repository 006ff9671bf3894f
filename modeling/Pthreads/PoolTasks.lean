import Pthreads.PoolCalls
import Pthreads.TaskOrder

/-!
# The tasks of a pool

A method of a Pool makes its calls on the workers one after the other, while the threads
of all workers go on.  A call of `shutdown` returns when the join of the worker does, and
no other call waits for a worker.  Only the pool calls the methods of its workers.  The
object of a task may be stacked on several workers, which then share its `ERROR` flag.
-/

namespace Pthreads.PoolTasks

open GuardedRuns LinkedCells TaskQueue
open PoolWorkers (Pool Call Outcome Sealed Workers tasksOf tasksOn)
open TaskExecution (Executes InOrder)
open WorkerTasks (Task stackedBy)

structure State where
  pool : Pool
  /-- The calls of the current method that have not returned. -/
  pending : List (Nat × Call)
  machines : Nat → TaskExecution.State
  /-- The tasks that the methods took, never read by the program. -/
  accepted : List Nat

/-- A pool that was just constructed. -/
def starting (size : Int) (className : String) : State where
  pool := PoolWorkers.construct size className
  pending := []
  machines := fun _ => TaskExecution.initial
  accepted := []

inductive Action where
  /-- A method of the pool is called. -/
  | method (action : PoolWorkers.Action)
  /-- The creator is in the first pending call. -/
  | creator (action : WorkerTasks.Action)
  /-- The thread of a worker goes on, or another thread marks an object `ERROR`. -/
  | thread (worker : Nat) (action : TaskExecution.Action)

/-- What the creator does in a call. -/
def performs : Call → WorkerTasks.Action → Bool
  | .start, .start => true
  | .stack task, .stack _ object => object = task
  | .collect, .collect _ => true
  | .shutdown, .join | .shutdown, .joinWoken | .shutdown, .joinSync | .shutdown, .joinExit
  | .shutdown, .joinReturn => true
  | _, _ => false

/-- The call returns. -/
def completes : WorkerTasks.Action → Bool
  | .join | .joinWoken | .joinSync | .joinExit => false
  | _ => true

/-- What the creator does not do. -/
def elsewhere : TaskExecution.Action → Bool
  | .worker action => !WorkerTasks.isCreators action
  | .enterRun | .runReturns _ | .failsElsewhere _ => true

/-- The flags of the objects are not the worker's own. -/
def withErrors (error : Nat → Bool) (machine : TaskExecution.State) : TaskExecution.State :=
  { machine with error := error }

/-- One worker moves. -/
def advance (machines : Nat → TaskExecution.State) (worker : Nat) (after : TaskExecution.State) :
    Nat → TaskExecution.State :=
  fun other => withErrors after.error (Function.update machines worker after other)

section Program

variable (classExists : String → Bool) (definesRun : Nat → Bool)

def step (state : State) : Action → Option State
  | .method action =>
      if state.pending = [] then
        (PoolWorkers.step classExists state.pool action).map fun after =>
          { state with
            pool := after
            pending := after.calls.drop state.pool.calls.length
            accepted := state.accepted ++ PoolWorkers.accepts classExists state.pool action }
      else none
  | .creator action =>
      match state.pending with
      | [] => none
      | (worker, call) :: rest =>
          if performs call action then
            (TaskExecution.step definesRun (state.machines worker) (.worker action)).map
              fun after =>
                { state with
                  machines := advance state.machines worker after
                  pending := if completes action then rest else state.pending }
          else none
  | .thread worker action =>
      if elsewhere action then
        (TaskExecution.step definesRun (state.machines worker) action).map fun after =>
          { state with machines := advance state.machines worker after }
      else none

end Program

section Machines

variable {definesRun : Nat → Bool} {machines : Nat → TaskExecution.State}
  {machine after : TaskExecution.State} {worker other : Nat}

@[simp]
theorem advance_same : advance machines worker after worker = after := by
  simp [advance, withErrors]

@[simp]
theorem advance_worker_other (different : other ≠ worker) :
    (advance machines worker after other).worker = (machines other).worker := by
  simp [advance, withErrors, different]

@[simp]
theorem advance_stacked_other (different : other ≠ worker) :
    (advance machines worker after other).stacked = (machines other).stacked := by
  simp [advance, withErrors, different]

/-- Where the tasks of the worker stay, those of every worker stay. -/
theorem advance_stacked (stacked : after.stacked = (machines worker).stacked) :
    (advance machines worker after other).stacked = (machines other).stacked := by
  by_cases same : other = worker
  · rw [same, advance_same, stacked]
  · exact advance_stacked_other same

/-- Where a flag of the worker stays, that of every worker stays. -/
theorem advance_flag {flag : WorkerTasks.MonitorFlag}
    (stays : after.worker.monitor flag = (machines worker).worker.monitor flag) :
    (advance machines worker after other).worker.monitor flag =
      (machines other).worker.monitor flag := by
  by_cases same : other = worker
  · rw [same, advance_same, stays]
  · rw [advance_worker_other same]

/-- What holds of a worker on which nothing is unstacked. -/
structure Sane (definesRun : Nat → Bool) (machine : TaskExecution.State) : Prop where
  executes : Executes definesRun machine
  inOrder : InOrder machine
  kept : machine.worker.history.unstacked = []

theorem sane_initial : Sane definesRun TaskExecution.initial where
  executes := TaskExecution.executes_initial definesRun
  inOrder := TaskExecution.inOrder_initial
  kept := rfl

/-- `ERROR` is never removed. -/
theorem error_grows {action : TaskExecution.Action}
    (stepped : TaskExecution.step definesRun machine action = some after) {object : Nat}
    (failed : machine.error object = true) : after.error object = true := by
  cases action with
  | worker action =>
      obtain ⟨-, next, -, rfl⟩ := TaskExecution.step_worker_cases stepped
      exact failed
  | failsElsewhere failing =>
      cases stepped
      by_cases same : object = failing
      · simp [same]
      · simpa [same] using failed
  | enterRun =>
      simp only [TaskExecution.step] at stepped
      split at stepped
      · next task _ =>
        obtain ⟨-, ⟨⟩⟩ := Option.ite_none_right_eq_some.mp stepped
        unfold TaskExecution.enterRun
        split
        · exact failed
        · split
          · exact failed
          · exact failed
      · cases stepped
  | runReturns fails =>
      simp only [TaskExecution.step] at stepped
      split at stepped
      · next task _ =>
        obtain ⟨-, ⟨⟩⟩ := Option.ite_none_right_eq_some.mp stepped
        by_cases same : object = task.object
        · cases fails <;> simp [same, same ▸ failed]
        · cases fails <;> simp [same, failed]
      · cases stepped

theorem Sane.withErrors (sane : Sane definesRun machine) {error : Nat → Bool}
    (grows : ∀ object, machine.error object = true → error object = true) :
    Sane definesRun (withErrors error machine) where
  executes :=
    { sane.executes with
      reason := fun task isIn => (sane.executes.reason task isIn).imp_left (grows task.object) }
  inOrder := ⟨sane.inOrder.ordered, sane.inOrder.called⟩
  kept := sane.kept

theorem Sane.step (sane : Sane definesRun machine) {action : TaskExecution.Action}
    (stepped : TaskExecution.step definesRun machine action = some after)
    (keeps : action ≠ .worker .unstack) : Sane definesRun after where
  executes := TaskExecution.step_executes sane.executes stepped
  inOrder := TaskExecution.step_inOrder sane.executes sane.inOrder stepped
  kept := by
    have same := TaskExecution.step_unstacked stepped keeps
    rw [same, sane.kept]

/-- The workers, with the same flags for all of them. -/
structure Together (definesRun : Nat → Bool) (machines : Nat → TaskExecution.State) : Prop where
  sane : ∀ worker, Sane definesRun (machines worker)
  errors : ∀ first second, (machines first).error = (machines second).error

theorem Together.advance (together : Together definesRun machines)
    {action : TaskExecution.Action}
    (stepped : TaskExecution.step definesRun (machines worker) action = some after)
    (keeps : action ≠ .worker .unstack) :
    Together definesRun (advance machines worker after) := by
  constructor
  · intro other
    by_cases same : other = worker
    · rw [same, advance_same]
      exact (together.sane worker).step stepped keeps
    · have grows : ∀ object, (machines other).error object = true →
          after.error object = true := by
        intro object failed
        rw [together.errors other worker] at failed
        exact error_grows stepped failed
      simpa [PoolTasks.advance, same] using (together.sane other).withErrors grows
  · intro first second
    rfl

/-- A worker whose join has returned. -/
structure Finished (machine : TaskExecution.State) : Prop where
  destroyed : machine.worker.worker = .destroyed
  free : machine.worker.creator = .free
  head : machine.worker.data.queue.head = none

theorem Finished.beside (finished : Finished (machines other)) (different : other ≠ worker) :
    Finished (PoolTasks.advance machines worker after other) := by
  constructor
  · rw [advance_worker_other different, finished.destroyed]
  · rw [advance_worker_other different, finished.free]
  · rw [advance_worker_other different, finished.head]

theorem joinReturn_finished (sane : Sane definesRun machine)
    (stepped : TaskExecution.step definesRun machine (.worker .joinReturn) = some after) :
    Finished after := by
  obtain ⟨-, worker, moved, rfl⟩ := TaskExecution.step_worker_cases stepped
  obtain ⟨⟨awaiting, destroyed⟩, ⟨⟩⟩ := Option.ite_none_right_eq_some.mp moved
  refine ⟨destroyed, rfl, ?_⟩
  apply sane.executes.drained.empty
  · simp [destroyed, WorkerTasks.WorkerPhase.left]
  · simp [awaiting]

/-- What is left of a worker that has ended does nothing more. -/
theorem Finished.elsewhere (finished : Finished machine) {action : TaskExecution.Action}
    (stepped : TaskExecution.step definesRun machine action = some after)
    (notCreator : elsewhere action = true) : Finished after := by
  have destroyed := finished.destroyed
  cases action with
  | failsElsewhere object =>
      cases stepped
      exact ⟨finished.destroyed, finished.free, finished.head⟩
  | enterRun | runReturns failed => simp [TaskExecution.step, destroyed] at stepped
  | worker action =>
      obtain ⟨-, worker, moved, rfl⟩ := TaskExecution.step_worker_cases stepped
      cases action with
      | start | stack address object | unstack | collect answers | join | joinWoken | joinSync
      | joinExit | joinReturn => cases notCreator
      | enterLoop | nextTask | spuriousWakeup | addGarbage | recordDone address
      | signalAwaitJoin | destroy => simp [WorkerTasks.step, destroyed] at moved

/-- The worker's thread changes nothing that the creator relies on. -/
theorem elsewhere_keeps {action : TaskExecution.Action}
    (stepped : TaskExecution.step definesRun machine action = some after)
    (notCreator : elsewhere action = true) :
    after.stacked = machine.stacked ∧ after.worker.creator = machine.worker.creator ∧
      after.worker.monitor .started = machine.worker.monitor .started ∧
      after.worker.monitor .joined = machine.worker.monitor .joined := by
  cases action with
  | failsElsewhere object =>
      cases stepped
      exact ⟨rfl, rfl, rfl, rfl⟩
  | enterRun =>
      obtain ⟨worker, stacked, -⟩ := TaskExecution.enterRun_cases stepped
      rw [worker]
      exact ⟨stacked, rfl, rfl, rfl⟩
  | runReturns failed =>
      obtain ⟨worker, stacked, -⟩ := TaskExecution.runReturns_cases stepped
      rw [worker]
      exact ⟨stacked, rfl, rfl, rfl⟩
  | worker action =>
      obtain ⟨-, worker, moved, rfl⟩ := TaskExecution.step_worker_cases stepped
      have own : WorkerTasks.isCreators action = false := by simpa [elsewhere] using notCreator
      dsimp only
      rw [WorkerTasks.creator_kept moved own, WorkerTasks.step_monitor moved (by decide),
        WorkerTasks.step_monitor moved (by decide)]
      cases action with
      | start | stack address object | unstack | collect answers | join | joinWoken | joinSync
      | joinExit | joinReturn => cases own
      | enterLoop | nextTask | spuriousWakeup | addGarbage | recordDone address
      | signalAwaitJoin | destroy => simp [stackedBy, WorkerTasks.sets]

/-- Every call but `shutdown` is over with one action, and stacks its task. -/
theorem performs_at_once {call : Call} {action : WorkerTasks.Action}
    (performing : performs call action = true) (other : call ≠ .shutdown)
    (stepped : TaskExecution.step definesRun machine (.worker action) = some after) :
    completes action = true ∧ machine.worker.creator = .free ∧ after.worker.creator = .free ∧
      after.stacked.map Task.object = machine.stacked.map Task.object ++ call.task.toList ∧
      (after.worker.monitor .started = true ↔
        machine.worker.monitor .started = true ∨ call = .start) ∧
      after.worker.monitor .joined = machine.worker.monitor .joined := by
  obtain ⟨-, next, moved, rfl⟩ := TaskExecution.step_worker_cases stepped
  dsimp only
  rw [WorkerTasks.step_monitor moved (by decide), WorkerTasks.step_monitor moved (by decide)]
  cases call with
  | shutdown => exact absurd rfl other
  | start =>
      cases action with
      | start =>
          obtain ⟨⟨isFree, -⟩, ⟨⟩⟩ := Option.ite_none_right_eq_some.mp moved
          have free : machine.worker.creator = .free := of_decide_eq_true isFree
          exact ⟨rfl, free, free, List.map_append, by simp [WorkerTasks.sets],
            by simp [WorkerTasks.sets]⟩
      | _ => cases performing
  | stack task =>
      cases action with
      | stack address object =>
          have same : object = task := of_decide_eq_true performing
          obtain ⟨free, memory, queue, -, rfl⟩ := WorkerTasks.stack_eq moved
          refine ⟨rfl, free, free, ?_, by simp [WorkerTasks.sets], by simp [WorkerTasks.sets]⟩
          rw [List.map_append, same]
          rfl
      | _ => cases performing
  | collect =>
      cases action with
      | collect answers =>
          have free : machine.worker.creator = .free :=
            of_decide_eq_true (Option.ite_none_right_eq_some.mp moved).1
          obtain ⟨memory, gc, collected, -, rfl⟩ := WorkerTasks.collect_eq moved
          exact ⟨rfl, free, free, List.map_append, by simp [WorkerTasks.sets],
            by simp [WorkerTasks.sets]⟩
      | _ => cases performing

/-- A `shutdown` is over when the join returns. -/
theorem performs_shutdown {action : WorkerTasks.Action}
    (performing : performs .shutdown action = true)
    (stepped : TaskExecution.step definesRun machine (.worker action) = some after) :
    after.stacked = machine.stacked ∧
      after.worker.monitor .started = machine.worker.monitor .started ∧
      (completes action = true → action = .joinReturn) ∧
      (completes action = false → after.worker.creator ≠ .free) := by
  obtain ⟨-, next, moved, rfl⟩ := TaskExecution.step_worker_cases stepped
  dsimp only
  rw [WorkerTasks.step_monitor moved (by decide)]
  cases action with
  | join | joinWoken | joinSync | joinExit =>
      obtain ⟨-, ⟨⟩⟩ := Option.ite_none_right_eq_some.mp moved
      exact ⟨List.append_nil _, Bool.or_false _, nofun, fun _ => nofun⟩
  | joinReturn => exact ⟨List.append_nil _, Bool.or_false _, fun _ => rfl, nofun⟩
  | _ => cases performing

theorem performs_ne_unstack {call : Call} {action : WorkerTasks.Action}
    (performing : performs call action = true) :
    TaskExecution.Action.worker action ≠ .worker .unstack := by
  rintro ⟨⟩
  cases call <;> cases performing

theorem elsewhere_ne_unstack {action : TaskExecution.Action}
    (notCreator : elsewhere action = true) : action ≠ .worker .unstack := by
  rintro rfl
  cases notCreator

end Machines

/-- Where the workers are once some of the pool's calls have returned. -/
structure Performed (state : State) (performed : List (Nat × Call)) : Prop where
  calls : state.pool.calls = performed ++ state.pending
  stacked : ∀ worker,
    (state.machines worker).stacked.map Task.object = tasksOn worker performed
  started : ∀ worker, (state.machines worker).worker.monitor .started = true ↔
    (worker, .start) ∈ performed
  joined : ∀ worker, (state.machines worker).worker.monitor .joined = true →
    (state.machines worker).worker.creator ≠ .free ∨ (worker, .shutdown) ∈ performed
  finished : ∀ worker, (worker, .shutdown) ∈ performed → Finished (state.machines worker)
  /-- The creator is in one call at a time. -/
  busy : ∀ worker, (state.machines worker).worker.creator ≠ .free →
    ∃ rest, state.pending = (worker, .shutdown) :: rest

structure Served (definesRun : Nat → Bool) (state : State) : Prop where
  isSealed : Sealed state.pool
  together : Together definesRun state.machines
  accepted : tasksOf state.pool.calls = state.accepted
  performed : ∃ performed, Performed state performed

theorem served_starting (definesRun : Nat → Bool) (size : Int) (className : String) :
    Served definesRun (starting size className) where
  isSealed := PoolWorkers.sealed_construct size className
  together := ⟨fun _ => sane_initial, fun _ _ => rfl⟩
  accepted := rfl
  performed := by
    refine ⟨[], rfl, fun _ => rfl, ?_, ?_, ?_, ?_⟩
    · intro worker
      exact iff_of_false nofun nofun
    · intro worker isSet
      cases isSet
    · intro worker isIn
      cases isIn
    · intro worker notFree
      exact absurd rfl notFree

section Steps

variable {classExists : String → Bool} {definesRun : Nat → Bool} {state after : State}

theorem method_served (served : Served definesRun state) {action : PoolWorkers.Action}
    (stepped : step classExists definesRun state (.method action) = some after) :
    Served definesRun after := by
  obtain ⟨returned, called⟩ := Option.ite_none_right_eq_some.mp stepped
  obtain ⟨pool, moved, rfl⟩ := Option.map_eq_some_iff.mp called
  obtain ⟨added, calls, tasks⟩ := PoolWorkers.step_calls served.isSealed.tallied moved
  have pending : pool.calls.drop state.pool.calls.length = added := by
    rw [calls.calls, List.drop_left]
  refine ⟨?_, served.together, ?_, ?_⟩
  · exact served.isSealed.calls calls (PoolWorkers.step_tallied served.isSealed.tallied moved)
  · rw [calls.calls, PoolWorkers.tasksOf_append, served.accepted, tasks]
  · obtain ⟨performed, done⟩ := served.performed
    have all := done.calls
    rw [returned, List.append_nil] at all
    refine ⟨performed, ?_, done.stacked, done.started, done.joined, done.finished, ?_⟩
    · rw [pending, calls.calls, all]
    · intro worker notFree
      obtain ⟨rest, isHead⟩ := done.busy worker notFree
      rw [returned] at isHead
      cases isHead

theorem thread_served (served : Served definesRun state) {worker : Nat}
    {action : TaskExecution.Action}
    (stepped : step classExists definesRun state (.thread worker action) = some after) :
    Served definesRun after := by
  obtain ⟨notCreator, moving⟩ := Option.ite_none_right_eq_some.mp stepped
  obtain ⟨machine, moved, rfl⟩ := Option.map_eq_some_iff.mp moving
  obtain ⟨stacked, creator, started, joined⟩ := elsewhere_keeps moved notCreator
  obtain ⟨performed, done⟩ := served.performed
  refine ⟨served.isSealed, ?_, served.accepted, performed, done.calls, ?_, ?_, ?_, ?_, ?_⟩
  · exact served.together.advance moved (elsewhere_ne_unstack notCreator)
  · intro other
    rw [← done.stacked other, advance_stacked stacked]
  · intro other
    rw [← done.started other, advance_flag started]
  · intro other
    have before := done.joined other
    dsimp only
    by_cases same : other = worker
    · subst same
      rw [advance_same, joined, creator]
      exact before
    · rw [advance_worker_other same]
      exact before
  · intro other isShut
    have finished := done.finished other isShut
    dsimp only
    by_cases same : other = worker
    · subst same
      rw [advance_same]
      exact finished.elsewhere moved notCreator
    · exact finished.beside same
  · intro other
    have before := done.busy other
    dsimp only
    by_cases same : other = worker
    · subst same
      rw [advance_same, creator]
      exact before
    · rw [advance_worker_other same]
      exact before

/-- Nothing that is still to be called is for a worker whose `shutdown` has returned. -/
theorem Served.not_finished (served : Served definesRun state) {performed : List (Nat × Call)}
    (done : Performed state performed) {worker : Nat} {call : Call}
    (isPending : (worker, call) ∈ state.pending) : (worker, .shutdown) ∉ performed := by
  intro isShut
  have shutLast := served.isSealed.shutLast
  rw [done.calls] at shutLast
  exact (List.pairwise_append.mp shutLast).2.2 _ isShut _ isPending rfl rfl

/-- The first call returns. -/
theorem returned_served (served : Served definesRun state) {performed rest : List (Nat × Call)}
    (done : Performed state performed) {worker : Nat} {call : Call}
    (pending : state.pending = (worker, call) :: rest) {machine : TaskExecution.State}
    (together : Together definesRun (advance state.machines worker machine))
    (free : machine.worker.creator = .free)
    (stacked : machine.stacked.map Task.object =
      (state.machines worker).stacked.map Task.object ++ call.task.toList)
    (started : machine.worker.monitor .started = true ↔
      (state.machines worker).worker.monitor .started = true ∨ call = .start)
    (joined : call = .shutdown ∨ machine.worker.monitor .joined ≠ true)
    (finished : call = .shutdown → Finished machine) :
    Served definesRun { state with
      machines := advance state.machines worker machine, pending := rest } := by
  have unfinished : (worker, .shutdown) ∉ performed :=
    served.not_finished done (pending ▸ List.mem_cons_self)
  have onOther : ∀ {other otherCall}, other ≠ worker →
      ((other, otherCall) ∈ performed ++ [(worker, call)] ↔ (other, otherCall) ∈ performed) := by
    intro other otherCall different
    simp [different]
  refine ⟨served.isSealed, together, served.accepted, performed ++ [(worker, call)],
    ?_, ?_, ?_, ?_, ?_, ?_⟩
  · rw [done.calls, pending, List.append_assoc]
    rfl
  · intro other
    dsimp only
    rw [PoolWorkers.tasksOn_append]
    by_cases same : other = worker
    · subst same
      rw [advance_same, stacked, done.stacked]
      cases call <;> simp [tasksOn, tasksOf, Call.task]
    · have nothing : tasksOn other [(worker, call)] = [] :=
        PoolWorkers.tasksOn_of_notMem (by simpa using Ne.symm same)
      rw [advance_stacked_other same, done.stacked, nothing, List.append_nil]
  · intro other
    dsimp only
    by_cases same : other = worker
    · subst same
      rw [advance_same, started, done.started, List.mem_append, List.mem_singleton]
      simp [eq_comm]
    · rw [advance_worker_other same, done.started, onOther same]
  · intro other isSet
    dsimp only at isSet ⊢
    by_cases same : other = worker
    · subst same
      rw [advance_same] at isSet
      rw [joined.resolve_right (not_not.mpr isSet)]
      simp
    · rw [advance_worker_other same] at isSet ⊢
      rw [onOther same]
      exact done.joined other isSet
  · intro other isShut
    dsimp only
    by_cases same : other = worker
    · subst same
      rw [advance_same]
      apply finished
      rcases List.mem_append.mp isShut with before | isCall
      · exact absurd before unfinished
      · exact (Prod.mk.inj (List.mem_singleton.mp isCall)).2.symm
    · exact (done.finished other ((onOther same).mp isShut)).beside same
  · intro other notFree
    dsimp only at notFree
    by_cases same : other = worker
    · subst same
      rw [advance_same] at notFree
      exact absurd free notFree
    · rw [advance_worker_other same] at notFree
      obtain ⟨later, isHead⟩ := done.busy other notFree
      rw [pending] at isHead
      exact absurd (Prod.mk.inj (List.cons.inj isHead).1).1.symm same

/-- A `shutdown` goes on. -/
theorem joining_served (served : Served definesRun state) {performed rest : List (Nat × Call)}
    (done : Performed state performed) {worker : Nat}
    (pending : state.pending = (worker, .shutdown) :: rest) {machine : TaskExecution.State}
    (together : Together definesRun (advance state.machines worker machine))
    (stacked : machine.stacked = (state.machines worker).stacked)
    (started : machine.worker.monitor .started =
      (state.machines worker).worker.monitor .started)
    (joining : machine.worker.creator ≠ .free) :
    Served definesRun { state with machines := advance state.machines worker machine } := by
  have unfinished : (worker, .shutdown) ∉ performed :=
    served.not_finished done (pending ▸ List.mem_cons_self)
  refine ⟨served.isSealed, together, served.accepted, performed, done.calls, ?_, ?_, ?_, ?_, ?_⟩
  · intro other
    rw [← done.stacked other, advance_stacked stacked]
  · intro other
    rw [← done.started other, advance_flag started]
  · intro other
    have before := done.joined other
    dsimp only
    by_cases same : other = worker
    · subst same
      rw [advance_same]
      exact fun _ => Or.inl joining
    · rw [advance_worker_other same]
      exact before
  · intro other isShut
    have different : other ≠ worker := by
      rintro rfl
      exact unfinished isShut
    exact (done.finished other isShut).beside different
  · intro other notFree
    by_cases same : other = worker
    · subst same
      exact ⟨rest, pending⟩
    · dsimp only at notFree
      rw [advance_worker_other same] at notFree
      exact done.busy other notFree

theorem creator_served (served : Served definesRun state) {action : WorkerTasks.Action}
    (stepped : step classExists definesRun state (.creator action) = some after) :
    Served definesRun after := by
  obtain ⟨performed, done⟩ := served.performed
  simp only [step] at stepped
  split at stepped
  · cases stepped
  · next worker call rest pending =>
    obtain ⟨performing, moving⟩ := Option.ite_none_right_eq_some.mp stepped
    obtain ⟨machine, moved, rfl⟩ := Option.map_eq_some_iff.mp moving
    have together := served.together.advance moved (performs_ne_unstack performing)
    by_cases isShutdown : call = .shutdown
    · subst isShutdown
      obtain ⟨stacked, started, last, joining⟩ := performs_shutdown performing moved
      cases isOver : completes action with
      | true =>
          obtain rfl := last isOver
          have finished := joinReturn_finished (served.together.sane worker) moved
          rw [if_pos rfl]
          refine returned_served served done pending together finished.free ?_ ?_ (Or.inl rfl)
            fun _ => finished
          · rw [stacked]
            exact (List.append_nil _).symm
          · rw [started]
            simp
      | false =>
          rw [if_neg (by simp)]
          exact joining_served served done pending together stacked started (joining isOver)
    · obtain ⟨isOver, wasFree, free, stacked, started, joined⟩ :=
        performs_at_once performing isShutdown moved
      have notJoined : machine.worker.monitor .joined ≠ true := by
        rw [joined]
        intro isSet
        rcases done.joined worker isSet with busy | isShut
        · exact busy wasFree
        · exact served.not_finished done (pending ▸ List.mem_cons_self) isShut
      rw [if_pos isOver]
      exact returned_served served done pending together free stacked started (Or.inr notJoined)
        fun isCall => absurd isCall isShutdown

theorem step_served (served : Served definesRun state) {action : Action}
    (stepped : step classExists definesRun state action = some after) :
    Served definesRun after := by
  cases action with
  | method action => exact method_served served stepped
  | creator action => exact creator_served served stepped
  | thread worker action => exact thread_served served stepped

theorem served_of_reaches {size : Int} {className : String}
    (reached : Reaches (step classExists definesRun) anyAction (starting size className) state) :
    Served definesRun state :=
  reached.preserves (fun _ _ _ served _ stepped => step_served served stepped)
    (served_starting definesRun size className)

end Steps

/-- A worker has gone through its tasks, in their order, and has ended. -/
structure WentThrough (definesRun : Nat → Bool) (machine : TaskExecution.State)
    (objects : List Nat) : Prop where
  destroyed : machine.worker.worker = .destroyed
  queue : contents machine.worker.memory machine.worker.data.queue = []
  phase : machine.phase = .outside
  started : machine.worker.history.started.map Task.object = objects
  order : machine.called.Sublist machine.worker.history.started
  decided : (machine.called ++ machine.passedOver).Perm machine.worker.history.started
  reason : ∀ task ∈ machine.passedOver,
    machine.error task.object = true ∨ definesRun task.object = false

section Guarantees

variable {classExists : String → Bool} {definesRun : Nat → Bool} {state : State}

theorem Finished.wentThrough {machine : TaskExecution.State} (finished : Finished machine)
    (sane : Sane definesRun machine) :
    WentThrough definesRun machine (machine.stacked.map Task.object) := by
  have idle : machine.worker.worker.executed = [] := by
    simp [finished.destroyed, WorkerTasks.WorkerPhase.executed]
  have empty : contents machine.worker.memory machine.worker.data.queue = [] := by
    obtain ⟨places, layout, -⟩ := sane.executes.consistent
    rw [layout.queue.contents_eq, layout.queue.head_eq_none.mp finished.head]
    rfl
  have phase := sane.executes.outside idle
  have all := sane.inOrder.all sane.executes sane.kept
  rw [WorkerTasks.State.orderedTasks, empty, List.append_nil] at all
  have decided := sane.executes.decided
  rw [TaskExecution.State.undecided, phase, if_neg (by simp), List.append_nil] at decided
  refine ⟨finished.destroyed, empty, phase, ?_, ?_, decided, sane.executes.reason⟩
  · rw [all]
  · exact (List.sublist_append_left _ _).trans sane.inOrder.called

theorem Served.wentThrough (served : Served definesRun state) {worker : Nat}
    (isShut : (worker, .shutdown) ∈ state.pool.calls)
    (returned : (worker, .shutdown) ∉ state.pending) :
    WentThrough definesRun (state.machines worker) (tasksOn worker state.pool.calls) := by
  obtain ⟨performed, done⟩ := served.performed
  have isPerformed : (worker, .shutdown) ∈ performed := by
    rw [done.calls] at isShut
    exact (List.mem_append.mp isShut).resolve_right returned
  have noMore : ∀ call ∈ state.pending, call.1 ≠ worker := by
    rintro ⟨other, call⟩ isPending rfl
    exact served.not_finished done isPending isPerformed
  rw [done.calls, PoolWorkers.tasksOn_append, PoolWorkers.tasksOn_of_notMem noMore,
    List.append_nil, ← done.stacked worker]
  exact (done.finished worker isPerformed).wentThrough (served.together.sane worker)

/-- A task is submitted to a new worker, which starts and goes to its loop. -/
def submitToNew (worker object : Nat) : List Action :=
  [.method (.submit object), .creator .start, .thread worker (.worker .enterLoop),
    .creator (.stack 1 object)]

/-- The worker runs its task while it is joined. -/
def runAndJoin (worker : Nat) : List Action :=
  [.creator .join, .thread worker (.worker .nextTask), .thread worker .enterRun,
    .thread worker (.runReturns false), .thread worker (.worker .addGarbage),
    .thread worker (.worker (.recordDone 2)), .thread worker (.worker .nextTask),
    .thread worker (.worker .signalAwaitJoin), .creator .joinWoken, .creator .joinSync,
    .creator .joinExit, .thread worker (.worker .destroy), .creator .joinReturn]

/-- Of two workers, `resize` removes the second one. -/
def submitTwiceAndResize : List Action :=
  submitToNew 0 7 ++ submitToNew 1 8 ++ [.method (.resize 1)] ++ runAndJoin 1

end Guarantees

end Pthreads.PoolTasks
