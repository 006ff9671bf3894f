import Pthreads.WorkerGuarantees

/-!
# A worker that is joined has no tasks left

The worker leaves its loop only when `JOINED` is set and the queue is empty, and
the creator that has set `JOINED` stacks nothing before its join returns.  Every
task that was ever stacked is then among the started and the unstacked ones.
-/

namespace Pthreads.WorkerTasks

open LinkedCells TaskQueue GuardedRuns

/-- The tasks that were started, that are queued and that were taken back. -/
def State.stackedTasks (state : State) : List Task :=
  state.history.started ++ contents state.memory state.data.queue ++ state.history.unstacked

theorem stackedTasks_eq {state : State} {places : Places} (layout : Layout state places) :
    state.stackedTasks =
      state.history.started ++ tasks places.queue ++ state.history.unstacked := by
  rw [State.stackedTasks, layout.queue.contents_eq]

theorem stack_stackedTasks {state after : State} (consistent : Consistent state)
    {address object : Nat} (stepped : step state (.stack address object) = some after) :
    after.stackedTasks.Perm (state.stackedTasks ++ [⟨object, state.history.stacked⟩]) := by
  obtain ⟨places, layout, -⟩ := consistent
  obtain ⟨-, stacked⟩ := Option.ite_none_right_eq_some.mp stepped
  cases fresh : state.memory address with
  | some cell => simp [workerAddTask, queuePushNew, queueItemNew, fresh] at stacked
  | none =>
      obtain ⟨memory, queue, pushed, laid⟩ :=
        queuePushNew_layout layout fresh ⟨object, state.history.stacked⟩
      simp only [workerAddTask, pushed, Option.bind_eq_bind, Option.bind_some,
        Option.some.injEq] at stacked
      subst stacked
      rw [stackedTasks_eq layout]
      have represented := (laid state.worker Iff.rfl).queue.contents_eq
      simp only [State.stackedTasks, represented, List.map_append, List.map_cons, List.map_nil,
        List.append_assoc, List.cons_append, List.nil_append]
      refine (List.Perm.append_left _ ?_).append_left _
      exact (List.perm_append_singleton _ _).symm

theorem unstack_stackedTasks {state after : State} (consistent : Consistent state)
    (stepped : step state .unstack = some after) :
    after.stackedTasks.Perm state.stackedTasks := by
  obtain ⟨places, layout, -⟩ := consistent
  obtain ⟨-, unstacked⟩ := Option.ite_none_right_eq_some.mp stepped
  rw [stackedTasks_eq layout]
  cases first : places.queue with
  | nil =>
      have represented := layout.queue
      rw [first] at represented
      simp only [workerDequeueTask, queueShift_empty represented, Option.bind_eq_bind,
        Option.bind_some, Option.toList_none, List.append_nil, Option.some.injEq] at unstacked
      subst unstacked
      simp only [State.stackedTasks, represented.contents_eq]
      exact List.Perm.refl _
  | cons item rest =>
      obtain ⟨removal, shifted, handed, laid⟩ := queueShift_layout layout first
      simp only [workerDequeueTask, shifted, handed, Option.bind_eq_bind, Option.bind_some,
        Option.toList_some, Option.some.injEq] at unstacked
      subst unstacked
      simp only [State.stackedTasks, laid.queue.contents_eq, List.map_cons, List.append_assoc,
        List.cons_append]
      apply List.Perm.append_left _
      rw [← List.append_assoc]
      exact List.perm_append_singleton _ _

theorem nextTask_stackedTasks {state after : State} (consistent : Consistent state)
    (stepped : step state .nextTask = some after) :
    after.stackedTasks = state.stackedTasks := by
  obtain ⟨places, layout, accounted⟩ := consistent
  obtain ⟨phase, iterated⟩ := Option.ite_none_right_eq_some.mp stepped
  obtain ⟨alive, executed, recorded⟩ := WorkerPhase.seeking phase
  have idle : places.running = [] := by
    have executing := accounted.executing
    rw [executed] at executing
    exact List.map_eq_nil_iff.mp executing
  obtain ⟨middle, left, dropped, laid, kept, samePhase, history⟩ :=
    dropCollected_drops layout accounted alive recorded
  rw [workerNextTask, dropped, Option.bind_some] at iterated
  have middleTasks : middle.stackedTasks = state.stackedTasks := by
    rw [stackedTasks_eq laid, stackedTasks_eq layout, history]
  rw [← middleTasks, stackedTasks_eq laid]
  cases first : places.queue with
  | nil =>
      have head : middle.data.queue.head = none := laid.queue.head_eq_none.mpr first
      simp only [takeTask, head] at iterated
      split at iterated <;> cases iterated <;>
        simp [State.stackedTasks, laid.queue.contents_eq, first]
  | cons item rest =>
      obtain ⟨removal, shifted, head, handed, taken⟩ :=
        takeTask_layout laid (by rw [samePhase]; exact alive) idle first
      simp only [takeTask, head, shifted, handed, Option.bind_eq_bind, Option.bind_some,
        Option.some.injEq] at iterated
      subst iterated
      simp [State.stackedTasks, (taken state.history).queue.contents_eq]

/-- The tasks of the queue stay the same when only the other places change. -/
theorem stackedTasks_congr {state after : State} {places left : Places}
    (layout : Layout state places) (laid : Layout after left) (queue : left.queue = places.queue)
    (started : after.history.started = state.history.started)
    (unstacked : after.history.unstacked = state.history.unstacked) :
    after.stackedTasks = state.stackedTasks := by
  rw [stackedTasks_eq layout, stackedTasks_eq laid, queue, started, unstacked]

theorem collect_stackedTasks {state after : State} (consistent : Consistent state)
    {answers : Task → Bool} (stepped : step state (.collect answers) = some after) :
    after.stackedTasks = state.stackedTasks := by
  obtain ⟨places, layout, accounted⟩ := consistent
  obtain ⟨middle, taken, left, collected, -, sameHistory, laid, -⟩ :=
    workerCollectTasks_removes layout accounted answers
  obtain ⟨-, removed⟩ := Option.ite_none_right_eq_some.mp stepped
  simp only [collected, Option.bind_eq_bind, Option.bind_some, Option.some.injEq] at removed
  subst removed
  have middleTasks : middle.stackedTasks = state.stackedTasks :=
    stackedTasks_congr layout laid rfl (by rw [sameHistory]) (by rw [sameHistory])
  exact middleTasks

theorem addGarbage_stackedTasks {state after : State} (consistent : Consistent state)
    (stepped : step state .addGarbage = some after) :
    after.stackedTasks = state.stackedTasks := by
  obtain ⟨places, layout, accounted⟩ := consistent
  simp only [step] at stepped
  split at stepped
  · next task phase =>
    have executing := accounted.executing
    rw [phase] at executing
    obtain ⟨item, running, -⟩ := List.map_eq_singleton_iff.mp executing
    obtain ⟨memory, gc, pointer, pushed, laid⟩ :=
      addGarbage_layout layout (by simp [phase]) running
    simp only [workerAddGarbage, pointer, pushed, Option.bind_eq_bind, Option.bind_some,
      Option.some.injEq] at stepped
    subst stepped
    exact stackedTasks_congr layout (laid task) rfl rfl rfl
  · cases stepped

theorem recordDone_stackedTasks {state after : State} (consistent : Consistent state)
    {address : Nat} (stepped : step state (.recordDone address) = some after) :
    after.stackedTasks = state.stackedTasks := by
  obtain ⟨places, layout, -⟩ := consistent
  simp only [step] at stepped
  split at stepped
  · next task phase =>
    cases fresh : state.memory address with
    | some cell => simp [recordDone, queuePushNew, queueItemNew, fresh] at stepped
    | none =>
        obtain ⟨memory, cache, pushed, laid⟩ :=
          recordDone_layout layout (by simp [phase]) fresh task
        simp only [recordDone, pushed, Option.bind_eq_bind, Option.bind_some,
          Option.some.injEq] at stepped
        subst stepped
        exact stackedTasks_congr layout laid rfl rfl rfl
  · cases stepped

theorem destroy_stackedTasks {state after : State} (consistent : Consistent state)
    (stepped : step state .destroy = some after) :
    after.stackedTasks = state.stackedTasks := by
  obtain ⟨places, layout, -⟩ := consistent
  obtain ⟨enabled, destroyed⟩ := Option.ite_none_right_eq_some.mp stepped
  obtain ⟨memory, cleaned, laid⟩ := destroy_layout layout (by simp [enabled.1])
  simp only [cleaned, Option.bind_eq_bind, Option.bind_some, Option.some.injEq] at destroyed
  subst destroyed
  exact stackedTasks_congr layout laid rfl rfl rfl

/-- The task that an action stacks. -/
def stackedBy (state : State) : Action → List Task
  | .stack _ object => [⟨object, state.history.stacked⟩]
  | _ => []

/-- No action loses or invents a task. -/
theorem step_stackedTasks {state after : State} {action : Action} (consistent : Consistent state)
    (stepped : step state action = some after) :
    after.stackedTasks.Perm (state.stackedTasks ++ stackedBy state action) := by
  cases action with
  | stack address object => exact stack_stackedTasks consistent stepped
  | unstack => simpa [stackedBy] using unstack_stackedTasks consistent stepped
  | collect answers => simp [stackedBy, collect_stackedTasks consistent stepped]
  | nextTask => simp [stackedBy, nextTask_stackedTasks consistent stepped]
  | addGarbage => simp [stackedBy, addGarbage_stackedTasks consistent stepped]
  | recordDone address => simp [stackedBy, recordDone_stackedTasks consistent stepped]
  | destroy => simp [stackedBy, destroy_stackedTasks consistent stepped]
  | start | join | joinWoken | joinSync | joinExit | joinReturn | enterLoop | spuriousWakeup
  | signalAwaitJoin =>
      obtain ⟨-, ⟨⟩⟩ := Option.ite_none_right_eq_some.mp stepped
      simp [stackedBy, State.stackedTasks]

/-- The worker has left its loop. -/
def WorkerPhase.left : WorkerPhase → Bool
  | .finished | .awaitingExit | .destroyed => true
  | _ => false

@[simp]
theorem left_notify (phase : WorkerPhase) : (notify phase).left = phase.left := by
  cases phase <;> rfl

/-- The worker leaves its loop because of a join, with an empty queue. -/
structure Drained (state : State) : Prop where
  joined : state.worker.left = true → state.monitor .joined = true
  empty : state.worker.left = true → state.creator ≠ .free → state.data.queue.head = none

theorem drained_initial : Drained initial := by
  constructor <;> simp [initial, WorkerPhase.left]

/-- What does not touch the queue keeps it empty. -/
theorem Drained.congr {state after : State} (drained : Drained state)
    (left : after.worker.left = true → state.worker.left = true)
    (joined : state.monitor .joined = true → after.monitor .joined = true)
    (creator : after.creator ≠ .free → state.creator ≠ .free)
    (queue : after.data.queue.head = state.data.queue.head) : Drained after := by
  refine ⟨fun isLeft => joined (drained.joined (left isLeft)), fun isLeft busy => ?_⟩
  rw [queue]
  exact drained.empty (left isLeft) (creator busy)

theorem nextTask_drained {state after : State}
    (stepped : step state .nextTask = some after) : Drained after := by
  obtain ⟨-, middle, -, taken⟩ := nextTask_eq stepped
  rcases takeTask_eq taken with
      ⟨empty, joined, rfl⟩ | ⟨-, -, rfl⟩ | ⟨head, removal, task, -, -, -, rfl⟩
  · exact ⟨fun _ => joined, fun _ _ => empty⟩
  · constructor <;> simp [WorkerPhase.left]
  · constructor <;> simp [WorkerPhase.left]

theorem step_drained {state after : State} {action : Action} (drained : Drained state)
    (stepped : step state action = some after) : Drained after := by
  cases action with
  | nextTask => exact nextTask_drained stepped
  | stack address object =>
      obtain ⟨free, memory, queue, -, rfl⟩ := stack_eq stepped
      refine ⟨fun isLeft => drained.joined ?_, fun _ busy => absurd free busy⟩
      dsimp only at isLeft
      split at isLeft
      · simpa using isLeft
      · exact isLeft
  | unstack =>
      obtain ⟨free, removal, -, rfl⟩ := unstack_eq stepped
      exact ⟨drained.joined, fun _ busy => absurd free busy⟩
  | collect answers =>
      obtain ⟨memory, gc, collected, -, rfl⟩ := collect_eq stepped
      refine drained.congr ?_ ?_ (fun busy => busy) rfl
      · dsimp only
        split
        · exact fun isLeft => left_notify state.worker ▸ isLeft
        · exact fun isLeft => isLeft
      · dsimp only
        split
        · simp [monitorAdd]
        · exact fun joined => joined
  | join =>
      -- the flag was not set, so the worker is still in its loop
      obtain ⟨⟨-, -, notJoined⟩, ⟨⟩⟩ := Option.ite_none_right_eq_some.mp stepped
      have inLoop : state.worker.left ≠ true := fun isLeft => notJoined (drained.joined isLeft)
      constructor <;> simp [inLoop]
  | joinWoken =>
      obtain ⟨⟨waiting, -⟩, ⟨⟩⟩ := Option.ite_none_right_eq_some.mp stepped
      exact drained.congr (by simp) (by simp) (by simp [waiting]) rfl
  | joinSync =>
      obtain ⟨syncing, ⟨⟩⟩ := Option.ite_none_right_eq_some.mp stepped
      exact drained.congr (by simp) (by simp) (by simp [syncing]) rfl
  | joinExit =>
      obtain ⟨synced, ⟨⟩⟩ := Option.ite_none_right_eq_some.mp stepped
      exact drained.congr (by simp) (by simp [monitorAdd]) (by simp [synced]) rfl
  | joinReturn =>
      obtain ⟨-, ⟨⟩⟩ := Option.ite_none_right_eq_some.mp stepped
      exact drained.congr (by simp) (by simp) (by simp) rfl
  | start | enterLoop | spuriousWakeup =>
      obtain ⟨-, ⟨⟩⟩ := Option.ite_none_right_eq_some.mp stepped
      exact drained.congr (by simp [WorkerPhase.left]) (by simp [monitorAdd]) (by simp) rfl
  | signalAwaitJoin =>
      obtain ⟨finished, ⟨⟩⟩ := Option.ite_none_right_eq_some.mp stepped
      exact drained.congr (by simp [finished, WorkerPhase.left]) (by simp [monitorAdd]) (by simp)
        rfl
  | addGarbage =>
      obtain ⟨task, running, memory, gc, -, -, -, rfl⟩ := addGarbage_eq stepped
      exact drained.congr (by simp [WorkerPhase.left]) (by simp) (by simp) rfl
  | recordDone address =>
      obtain ⟨task, memory, cache, -, -, rfl⟩ := recordDone_eq stepped
      exact drained.congr (by simp [WorkerPhase.left]) (by simp) (by simp) rfl
  | destroy =>
      obtain ⟨awaiting, memory, -, rfl⟩ := destroy_eq stepped
      exact drained.congr (by simp [awaiting, WorkerPhase.left]) (by simp) (by simp) rfl

/-- A worker that executes no task points to none. -/
theorem Consistent.running_eq_none {state : State} (consistent : Consistent state)
    (idle : state.worker.executed = []) : state.data.running = none := by
  obtain ⟨places, layout, accounted⟩ := consistent
  have executing := accounted.executing
  rw [idle] at executing
  rw [layout.running, List.map_eq_nil_iff.mp executing]
  rfl

/-- The serial numbers tell the stacked tasks apart. -/
theorem Consistent.nodup_stackedTasks {state : State} (consistent : Consistent state) :
    state.stackedTasks.Nodup := by
  obtain ⟨places, layout, accounted⟩ := consistent
  rw [stackedTasks_eq layout]
  apply List.Nodup.of_map Task.serial
  exact accounted.conserved.nodup_iff.mpr List.nodup_range

theorem dropCollected_keeps {state after : State} (dropped : dropCollected state = some after) :
    after.history.started = state.history.started ∧ after.worker = state.worker := by
  rcases dropCollected_eq dropped with ⟨-, rfl⟩ | ⟨-, memory, cache, tasks, -, rfl⟩
  · exact ⟨rfl, rfl⟩
  · exact ⟨rfl, rfl⟩

/-- What `pthreads_worker_next_task` starts, the worker then executes. -/
theorem nextTask_executes {state after : State} (stepped : step state .nextTask = some after) :
    state.worker.executed = [] ∧
      after.history.started = state.history.started ++ after.worker.executed := by
  obtain ⟨phase, middle, dropped, taken⟩ := nextTask_eq stepped
  obtain ⟨started, -⟩ := dropCollected_keeps dropped
  constructor
  · exact (WorkerPhase.seeking phase).2.1
  · rw [← started]
    rcases takeTask_eq taken with ⟨-, -, rfl⟩ | ⟨-, -, rfl⟩ | ⟨head, removal, task, -, -, -, rfl⟩
    · exact (List.append_nil _).symm
    · exact (List.append_nil _).symm
    · rfl

/-- No other action starts a task. -/
theorem step_started {state after : State} {action : Action}
    (stepped : step state action = some after) (other : action ≠ .nextTask) :
    after.history.started = state.history.started := by
  cases action with
  | nextTask => exact absurd rfl other
  | stack address object =>
      obtain ⟨-, memory, queue, -, rfl⟩ := stack_eq stepped
      rfl
  | unstack =>
      obtain ⟨-, removal, -, rfl⟩ := unstack_eq stepped
      rfl
  | collect answers =>
      obtain ⟨memory, gc, collected, -, rfl⟩ := collect_eq stepped
      rfl
  | addGarbage =>
      obtain ⟨task, running, memory, gc, -, -, -, rfl⟩ := addGarbage_eq stepped
      rfl
  | recordDone address =>
      obtain ⟨task, memory, cache, -, -, rfl⟩ := recordDone_eq stepped
      rfl
  | destroy =>
      obtain ⟨-, memory, -, rfl⟩ := destroy_eq stepped
      rfl
  | start | join | joinWoken | joinSync | joinExit | joinReturn | enterLoop | spuriousWakeup
  | signalAwaitJoin =>
      obtain ⟨-, ⟨⟩⟩ := Option.ite_none_right_eq_some.mp stepped
      rfl

/-- A task is executed from the `pthreads_worker_next_task` that hands it out to
the `pthreads_worker_add_garbage` after it. -/
theorem step_executed {state after : State} {action : Action}
    (stepped : step state action = some after) (notTaking : action ≠ .nextTask)
    (notDropping : action ≠ .addGarbage) : after.worker.executed = state.worker.executed := by
  cases action with
  | nextTask => exact absurd rfl notTaking
  | addGarbage => exact absurd rfl notDropping
  | stack address object =>
      obtain ⟨-, memory, queue, -, rfl⟩ := stack_eq stepped
      dsimp only
      split
      · exact executed_notify _
      · rfl
  | unstack =>
      obtain ⟨-, removal, -, rfl⟩ := unstack_eq stepped
      rfl
  | collect answers =>
      obtain ⟨memory, gc, collected, -, rfl⟩ := collect_eq stepped
      dsimp only
      split
      · exact executed_notify _
      · rfl
  | recordDone address =>
      obtain ⟨task, memory, cache, phase, -, rfl⟩ := recordDone_eq stepped
      rw [phase]
      rfl
  | destroy =>
      obtain ⟨awaiting, memory, -, rfl⟩ := destroy_eq stepped
      rw [awaiting]
      rfl
  | start | enterLoop | spuriousWakeup | signalAwaitJoin =>
      obtain ⟨enabled, ⟨⟩⟩ := Option.ite_none_right_eq_some.mp stepped
      simp [enabled, WorkerPhase.executed]
  | join | joinExit =>
      obtain ⟨-, ⟨⟩⟩ := Option.ite_none_right_eq_some.mp stepped
      exact executed_notify _
  | joinWoken | joinSync | joinReturn =>
      obtain ⟨-, ⟨⟩⟩ := Option.ite_none_right_eq_some.mp stepped
      rfl

/-- A worker that was destroyed stays so. -/
theorem step_destroyed {state after : State} {action : Action}
    (stepped : step state action = some after) (destroyed : state.worker = .destroyed) :
    after.worker = .destroyed := by
  cases action with
  | stack address object =>
      obtain ⟨-, memory, queue, -, rfl⟩ := stack_eq stepped
      simp [destroyed, notify]
  | unstack =>
      obtain ⟨-, removal, -, rfl⟩ := unstack_eq stepped
      exact destroyed
  | collect answers =>
      obtain ⟨memory, gc, collected, -, rfl⟩ := collect_eq stepped
      simp [destroyed, notify]
  | addGarbage | recordDone address => simp [step, destroyed] at stepped
  | start | nextTask | enterLoop | spuriousWakeup | signalAwaitJoin | destroy =>
      obtain ⟨enabled, -⟩ := Option.ite_none_right_eq_some.mp stepped
      simp [destroyed] at enabled
  | join | joinWoken | joinSync | joinExit | joinReturn =>
      obtain ⟨-, ⟨⟩⟩ := Option.ite_none_right_eq_some.mp stepped
      simp [destroyed, notify]

end Pthreads.WorkerTasks
