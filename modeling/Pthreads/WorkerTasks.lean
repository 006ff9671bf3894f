import Pthreads.GuardedRuns
import Pthreads.TaskQueue

/-!
# Task hand-over between a worker and its creator

`src/worker.c` moves the items of a worker's tasks between the queue, the
`running` pointer and the garbage list; `pthreads_routine` in `src/object.c`
drives the worker side, and `pthreads_join` the end of its life.  Every
section under the worker's monitor is one action here.  The worker is blocked
between actions only in `pthreads_monitor_wait`, so a wakeup is a flag that
notifications set.

The fields of `History` are never read by the program: they record which tasks
have passed through which hand-over.
-/

namespace Pthreads.WorkerTasks

open LinkedCells TaskQueue

/-- A stacked task: the object, and the number of the `stack` call that added
this occurrence of it. -/
structure Task where
  object : Nat
  serial : Nat
deriving DecidableEq, Repr

/-- The `PTHREADS_MONITOR_*` bits of `src/monitor.h`. -/
inductive MonitorFlag where
  | started
  | running
  | joined
  | error
  | ready
  | collectGarbage
  | exit
  | awaitJoin
deriving DecidableEq, Repr

abbrev MonitorState := MonitorFlag → Bool

/-- `pthreads_monitor_add`, without its notification. -/
def monitorAdd (monitor : MonitorState) (flag : MonitorFlag) : MonitorState :=
  Function.update monitor flag true

/-- `pthreads_monitor_remove`, without its notification. -/
def monitorRemove (monitor : MonitorState) (flag : MonitorFlag) : MonitorState :=
  Function.update monitor flag false

/-- `struct _pthreads_worker_data_t`; the monitor is part of the system state. -/
structure WorkerData where
  queue : Queue
  gc : Queue
  running : Option Nat
  tasksCollected : Nat

/-- Where the worker thread is in `pthreads_routine`. -/
inductive WorkerPhase where
  /-- The thread does not exist yet. -/
  | unstarted
  /-- Inside `Worker::run`, before the task loop. -/
  | starting
  /-- About to lock the monitor in `pthreads_worker_next_task`. -/
  | looping
  /-- Blocked in `pthreads_monitor_wait`, with or without a wakeup on its way. -/
  | waiting (woken : Bool)
  /-- Inside `run` of the task that `next_task` handed out. -/
  | executing (task : Task)
  /-- Between the two halves of `pthreads_worker_add_garbage`. -/
  | recording (task : Task)
  /-- Out of the loop, before `AWAIT_JOIN` is signalled. -/
  | finished
  /-- Waiting for `EXIT`. -/
  | awaitingExit
  /-- The worker's own objects are destroyed. -/
  | destroyed
deriving DecidableEq, Repr

/-- Where the creator is in `pthreads_join`. -/
inductive CreatorPhase where
  /-- Not inside `pthreads_join`. -/
  | free
  /-- `JOINED` is set; waiting for `AWAIT_JOIN`. -/
  | awaitingJoin
  /-- About to synchronise the thread's properties and its finished tasks. -/
  | syncing
  /-- Synchronised; `EXIT` is not signalled yet. -/
  | synced
  /-- In `pthread_join`. -/
  | awaitingThread
deriving DecidableEq, Repr

/-- What has happened so far. -/
structure History where
  /-- The number of tasks stacked. -/
  stacked : Nat
  /-- The tasks taken back by `unstack`. -/
  unstacked : List Task
  /-- The tasks handed to `run`, in order. -/
  started : List Task
  /-- The tasks removed by `collect`, in order. -/
  collected : List Task
  /-- The tasks whose connections the worker dropped from its cache, in order. -/
  drained : List Task
  /-- The last value `collect` returned. -/
  collectReturned : Option Int

structure State where
  memory : Memory Task
  data : WorkerData
  monitor : MonitorState
  doneTasksCache : Queue
  worker : WorkerPhase
  creator : CreatorPhase
  history : History

/-- A worker object that was just constructed. -/
def initial : State where
  memory := fun _ => none
  data := ⟨Queue.empty, Queue.empty, none, 0⟩
  monitor := fun _ => false
  doneTasksCache := Queue.empty
  worker := .unstarted
  creator := .free
  history := ⟨0, [], [], [], [], none⟩

/-- `pthreads_monitor_notify` reaches the worker only while it waits. -/
def notify : WorkerPhase → WorkerPhase
  | .waiting _ => .waiting true
  | phase => phase

/-- `pthreads_worker_add_task` for a new item at `address`. -/
def workerAddTask (state : State) (address : Nat) (task : Task) : Option (State × Int) := do
  let size := state.data.queue.size
  let (memory, queue) ← queuePushNew state.memory state.data.queue address task
  let worker := if size = 0 then notify state.worker else state.worker
  some ({ state with memory := memory, data := { state.data with queue := queue },
                     worker := worker }, queue.size)

/-- `pthreads_worker_dequeue_task`: the task it hands to the caller, if any. -/
def workerDequeueTask (state : State) : Option (State × Option Task) := do
  let removal ← queueShift state.memory state.data.queue true .free
  some ({ state with memory := removal.memory,
                     data := { state.data with queue := removal.queue } }, removal.handed)

/-- The loop of `pthreads_worker_collect_tasks`, from `item` on.  The collector
decides about each task it is called on. -/
def collectLoop (collect : Task → Bool) :
    Nat → Memory Task → Queue → Option Nat → Option (Memory Task × Queue × List Task)
  | _, memory, gc, none => some (memory, gc, [])
  | 0, _, _, some _ => none
  | fuel + 1, memory, gc, some item => do
      let cell ← memory item
      if collect cell.value then
        let removal ← queueShift memory gc false .free
        let (memory, gc, collected) ←
          collectLoop collect fuel removal.memory removal.queue cell.next
        some (memory, gc, removal.destroyed.toList ++ collected)
      else
        some (memory, gc, [])

/-- `pthreads_worker_collect_tasks`, with the tasks it removed and the size it
returns. -/
def workerCollectTasks (state : State) (collect : Task → Bool) :
    Option (State × List Task × Int) := do
  let (memory, gc, collected) ← collectLoop collect state.data.gc.size.toNat state.memory
    state.data.gc state.data.gc.head
  let size := state.data.queue.size + gc.size + (if state.data.running.isSome then 1 else 0)
  let data := { state.data with
    gc := gc, tasksCollected := state.data.tasksCollected + collected.length }
  if 0 < collected.length then
    some ({ state with memory := memory, data := data,
                       monitor := monitorAdd state.monitor .collectGarbage,
                       worker := notify state.worker }, collected, size)
  else
    some ({ state with memory := memory, data := data }, collected, size)

/-- The `for` loop of `pthreads_worker_next_task` over the collected tasks. -/
def drainLoop : Nat → Memory Task → Queue → Option (Memory Task × Queue × List Task)
  | 0, memory, cache => some (memory, cache, [])
  | count + 1, memory, cache => do
      let removal ← queueShift memory cache false .free
      let (memory, cache, dropped) ← drainLoop count removal.memory removal.queue
      some (memory, cache, removal.destroyed.toList ++ dropped)

/-- The first half of an iteration of `pthreads_worker_next_task`: drop the
connections to the tasks that the creator has collected. -/
def dropCollected (state : State) : Option State :=
  if state.monitor .collectGarbage then do
    let (memory, cache, dropped) ←
      drainLoop state.data.tasksCollected state.memory state.doneTasksCache
    some { state with
      memory := memory
      doneTasksCache := cache
      data := { state.data with tasksCollected := 0 }
      monitor := monitorRemove state.monitor .collectGarbage
      history := { state.history with drained := state.history.drained ++ dropped } }
  else
    some state

/-- The second half: leave, wait, or take the first task of the queue. -/
def takeTask (state : State) : Option State :=
  match state.data.queue.head with
  | none =>
      if state.monitor .joined then
        some { state with worker := .finished }
      else
        some { state with worker := .waiting false }
  | some head => do
      let removal ← queueShift state.memory state.data.queue true .nothing
      let task ← removal.handed
      some { state with
        memory := removal.memory
        data := { state.data with queue := removal.queue, running := some head }
        worker := .executing task
        history := { state.history with started := state.history.started ++ [task] } }

/-- One iteration of the loop of `pthreads_worker_next_task`. -/
def workerNextTask (state : State) : Option State :=
  (dropCollected state).bind takeTask

/-- `pthreads_worker_add_garbage` up to the unlock. -/
def workerAddGarbage (state : State) (task : Task) : Option State := do
  let running ← state.data.running
  let (memory, gc) ← queuePush state.memory state.data.gc running
  some { state with memory := memory, data := { state.data with gc := gc, running := none },
                    worker := .recording task }

/-- The rest of `pthreads_worker_add_garbage`, which runs unlocked. -/
def recordDone (state : State) (address : Nat) (task : Task) : Option State := do
  let (memory, cache) ← queuePushNew state.memory state.doneTasksCache address task
  some { state with memory := memory, doneTasksCache := cache, worker := .looping }

/-- `pthreads_queue_clean` from `item` on. -/
def queueClean : Nat → Memory Task → Option Nat → Option (Memory Task)
  | _, memory, none => some memory
  | 0, _, some _ => none
  | fuel + 1, memory, some item => do
      let cell ← memory item
      queueClean fuel (memory.erase item) cell.next

/-- The actions of the creator and of the worker thread. -/
inductive Action where
  /-- `Worker::start` returns successfully. -/
  | start
  /-- `Worker::stack` of an object, with the address of the new item. -/
  | stack (address object : Nat)
  /-- `Worker::unstack`. -/
  | unstack
  /-- `Worker::collect` with the answers of a collector that does not call back
  into the worker. -/
  | collect (answers : Task → Bool)
  /-- `pthreads_join` sets `JOINED`. -/
  | join
  /-- `pthreads_join` sees `AWAIT_JOIN`. -/
  | joinWoken
  /-- `pthreads_join` synchronises the thread and its finished tasks. -/
  | joinSync
  /-- `pthreads_join` sets `EXIT`. -/
  | joinExit
  /-- `pthread_join` returns. -/
  | joinReturn
  /-- `Worker::run` returns on the worker. -/
  | enterLoop
  /-- An iteration of `pthreads_worker_next_task`. -/
  | nextTask
  /-- `pthread_cond_wait` returns without a notification. -/
  | spuriousWakeup
  /-- The task's `run` is over: the locked part of `pthreads_worker_add_garbage`. -/
  | addGarbage
  /-- Its unlocked part, with the address of the new cache item. -/
  | recordDone (address : Nat)
  /-- The worker signals `AWAIT_JOIN`. -/
  | signalAwaitJoin
  /-- The worker sees `EXIT` and destroys its objects. -/
  | destroy

/-- The creator is executing user code, not `pthreads_join`. -/
def State.creatorFree (state : State) : Bool := state.creator = .free

/-- One action of the system. -/
def step (state : State) : Action → Option State
  | .start =>
      if state.creatorFree ∧ state.worker = .unstarted then
        some { state with monitor := monitorAdd state.monitor .started, worker := .starting }
      else none
  | .stack address object =>
      if state.creatorFree then do
        let task : Task := ⟨object, state.history.stacked⟩
        let (after, _) ← workerAddTask state address task
        some { after with history := { after.history with stacked := state.history.stacked + 1 } }
      else none
  | .unstack =>
      if state.creatorFree then do
        let (after, task) ← workerDequeueTask state
        some { after with history :=
          { after.history with unstacked := after.history.unstacked ++ task.toList } }
      else none
  | .collect answers =>
      if state.creatorFree then do
        let (after, collected, size) ← workerCollectTasks state answers
        some { after with history :=
          { after.history with
            collected := after.history.collected ++ collected, collectReturned := some size } }
      else none
  | .join =>
      if state.creatorFree ∧ state.monitor .started ∧ ¬ state.monitor .joined then
        some { state with monitor := monitorAdd state.monitor .joined,
                          worker := notify state.worker, creator := .awaitingJoin }
      else none
  | .joinWoken =>
      if state.creator = .awaitingJoin ∧ state.monitor .awaitJoin then
        some { state with creator := .syncing }
      else none
  | .joinSync =>
      if state.creator = .syncing then some { state with creator := .synced } else none
  | .joinExit =>
      if state.creator = .synced then
        some { state with monitor := monitorAdd state.monitor .exit,
                          worker := notify state.worker, creator := .awaitingThread }
      else none
  | .joinReturn =>
      if state.creator = .awaitingThread ∧ state.worker = .destroyed then
        some { state with creator := .free }
      else none
  | .enterLoop =>
      if state.worker = .starting then some { state with worker := .looping } else none
  | .nextTask =>
      if state.worker = .looping ∨ state.worker = .waiting true then workerNextTask state
      else none
  | .spuriousWakeup =>
      if state.worker = .waiting false then some { state with worker := .waiting true } else none
  | .addGarbage =>
      match state.worker with
      | .executing task => workerAddGarbage state task
      | _ => none
  | .recordDone address =>
      match state.worker with
      | .recording task => recordDone state address task
      | _ => none
  | .signalAwaitJoin =>
      if state.worker = .finished then
        some { state with monitor := monitorAdd state.monitor .awaitJoin, worker := .awaitingExit }
      else none
  | .destroy =>
      if state.worker = .awaitingExit ∧ state.monitor .exit then do
        let memory ← queueClean state.doneTasksCache.size.toNat state.memory
          state.doneTasksCache.head
        some { state with memory := memory, worker := .destroyed }
      else none

section Inversion

variable {state after : State}

theorem stack_eq {address object : Nat}
    (stepped : step state (.stack address object) = some after) :
    state.creator = .free ∧ ∃ memory queue,
      queuePushNew state.memory state.data.queue address ⟨object, state.history.stacked⟩ =
        some (memory, queue) ∧
      after = { state with
        memory := memory
        data := { state.data with queue := queue }
        worker := if state.data.queue.size = 0 then notify state.worker else state.worker
        history := { state.history with stacked := state.history.stacked + 1 } } := by
  obtain ⟨free, stacked⟩ := Option.ite_none_right_eq_some.mp stepped
  simp only [workerAddTask, Option.bind_eq_bind, Option.bind_eq_some_iff] at stacked
  obtain ⟨_, ⟨⟨memory, queue⟩, pushed, ⟨⟩⟩, ⟨⟩⟩ := stacked
  exact ⟨of_decide_eq_true free, memory, queue, pushed, rfl⟩

theorem unstack_eq (stepped : step state .unstack = some after) :
    state.creator = .free ∧ ∃ removal,
      queueShift state.memory state.data.queue true .free = some removal ∧
      after = { state with
        memory := removal.memory
        data := { state.data with queue := removal.queue }
        history := { state.history with
          unstacked := state.history.unstacked ++ removal.handed.toList } } := by
  obtain ⟨free, unstacked⟩ := Option.ite_none_right_eq_some.mp stepped
  simp only [workerDequeueTask, Option.bind_eq_bind, Option.bind_eq_some_iff] at unstacked
  obtain ⟨_, ⟨removal, shifted, ⟨⟩⟩, ⟨⟩⟩ := unstacked
  exact ⟨of_decide_eq_true free, removal, shifted, rfl⟩

/-- The creator notifies the worker when it has collected a task. -/
theorem collect_eq {answers : Task → Bool}
    (stepped : step state (.collect answers) = some after) :
    ∃ memory gc collected,
      collectLoop answers state.data.gc.size.toNat state.memory state.data.gc state.data.gc.head =
        some (memory, gc, collected) ∧
      after = { state with
        memory := memory
        data := { state.data with
          gc := gc, tasksCollected := state.data.tasksCollected + collected.length }
        monitor := if 0 < collected.length then monitorAdd state.monitor .collectGarbage
          else state.monitor
        worker := if 0 < collected.length then notify state.worker else state.worker
        history := { state.history with
          collected := state.history.collected ++ collected
          collectReturned := some (state.data.queue.size + gc.size +
            (if state.data.running.isSome then 1 else 0)) } } := by
  obtain ⟨-, collecting⟩ := Option.ite_none_right_eq_some.mp stepped
  simp only [workerCollectTasks, Option.bind_eq_bind, Option.bind_eq_some_iff] at collecting
  obtain ⟨_, ⟨⟨memory, gc, collected⟩, loop, result⟩, ⟨⟩⟩ := collecting
  refine ⟨memory, gc, collected, loop, ?_⟩
  split at result
  · next some =>
    cases result
    simp only [some, if_true]
  · next none =>
    cases result
    simp only [none, if_false]

theorem dropCollected_eq (dropped : dropCollected state = some after) :
    state.monitor .collectGarbage = false ∧ after = state ∨
    state.monitor .collectGarbage = true ∧ ∃ memory cache tasks,
      drainLoop state.data.tasksCollected state.memory state.doneTasksCache =
        some (memory, cache, tasks) ∧
      after = { state with
        memory := memory
        doneTasksCache := cache
        data := { state.data with tasksCollected := 0 }
        monitor := monitorRemove state.monitor .collectGarbage
        history := { state.history with drained := state.history.drained ++ tasks } } := by
  unfold dropCollected at dropped
  split at dropped
  · next isSet =>
    simp only [Option.bind_eq_bind, Option.bind_eq_some_iff] at dropped
    obtain ⟨⟨memory, cache, tasks⟩, loop, ⟨⟩⟩ := dropped
    exact Or.inr ⟨isSet, memory, cache, tasks, loop, rfl⟩
  · next notSet =>
    cases dropped
    exact Or.inl ⟨by simpa using notSet, rfl⟩

/-- With an empty queue the worker leaves or waits, otherwise it has a task. -/
theorem takeTask_eq (taken : takeTask state = some after) :
    (state.data.queue.head = none ∧ state.monitor .joined = true ∧
      after = { state with worker := .finished }) ∨
    (state.data.queue.head = none ∧ state.monitor .joined = false ∧
      after = { state with worker := .waiting false }) ∨
    ∃ head removal task, state.data.queue.head = some head ∧
      queueShift state.memory state.data.queue true .nothing = some removal ∧
      removal.handed = some task ∧
      after = { state with
        memory := removal.memory
        data := { state.data with queue := removal.queue, running := some head }
        worker := .executing task
        history := { state.history with started := state.history.started ++ [task] } } := by
  unfold takeTask at taken
  split at taken
  · next empty =>
    split at taken
    · next joined =>
      cases taken
      exact Or.inl ⟨empty, joined, rfl⟩
    · next notJoined =>
      cases taken
      exact Or.inr (Or.inl ⟨empty, by simpa using notJoined, rfl⟩)
  · next head isHead =>
    simp only [Option.bind_eq_bind, Option.bind_eq_some_iff] at taken
    obtain ⟨removal, shifted, task, handed, ⟨⟩⟩ := taken
    exact Or.inr (Or.inr ⟨head, removal, task, isHead, shifted, handed, rfl⟩)

theorem nextTask_eq (stepped : step state .nextTask = some after) :
    (state.worker = .looping ∨ state.worker = .waiting true) ∧
      ∃ middle, dropCollected state = some middle ∧ takeTask middle = some after := by
  obtain ⟨phase, iterated⟩ := Option.ite_none_right_eq_some.mp stepped
  exact ⟨phase, Option.bind_eq_some_iff.mp iterated⟩

theorem addGarbage_eq (stepped : step state .addGarbage = some after) :
    ∃ task running memory gc, state.worker = .executing task ∧
      state.data.running = some running ∧
      queuePush state.memory state.data.gc running = some (memory, gc) ∧
      after = { state with
        memory := memory
        data := { state.data with gc := gc, running := none }
        worker := .recording task } := by
  simp only [step] at stepped
  split at stepped
  · next task phase =>
    simp only [workerAddGarbage, Option.bind_eq_bind, Option.bind_eq_some_iff] at stepped
    obtain ⟨running, isRunning, ⟨memory, gc⟩, pushed, ⟨⟩⟩ := stepped
    exact ⟨task, running, memory, gc, phase, isRunning, pushed, rfl⟩
  · cases stepped

theorem recordDone_eq {address : Nat} (stepped : step state (.recordDone address) = some after) :
    ∃ task memory cache, state.worker = .recording task ∧
      queuePushNew state.memory state.doneTasksCache address task = some (memory, cache) ∧
      after = { state with memory := memory, doneTasksCache := cache, worker := .looping } := by
  simp only [step] at stepped
  split at stepped
  · next task phase =>
    simp only [recordDone, Option.bind_eq_bind, Option.bind_eq_some_iff] at stepped
    obtain ⟨⟨memory, cache⟩, pushed, ⟨⟩⟩ := stepped
    exact ⟨task, memory, cache, phase, pushed, rfl⟩
  · cases stepped

theorem destroy_eq (stepped : step state .destroy = some after) :
    state.worker = .awaitingExit ∧ ∃ memory,
      queueClean state.doneTasksCache.size.toNat state.memory state.doneTasksCache.head =
        some memory ∧
      after = { state with memory := memory, worker := .destroyed } := by
  obtain ⟨⟨awaiting, -⟩, destroyed⟩ := Option.ite_none_right_eq_some.mp stepped
  simp only [Option.bind_eq_bind, Option.bind_eq_some_iff] at destroyed
  obtain ⟨memory, cleaned, ⟨⟩⟩ := destroyed
  exact ⟨awaiting, memory, cleaned, rfl⟩

end Inversion

end Pthreads.WorkerTasks
