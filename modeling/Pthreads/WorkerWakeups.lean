import Pthreads.WorkerGuarantees

/-!
# The wakeups of a waiting worker

`pthreads_worker_add_task` notifies only when the queue was empty, so a worker
that sleeps with no wakeup on its way relies on the queue having stayed empty
since.  Nothing it waits for can be there.
-/

namespace Pthreads.WorkerTasks

open LinkedCells TaskQueue GuardedRuns

/-- A worker without a wakeup on its way has nothing to wake up for. -/
def Undisturbed (state : State) : Prop :=
  state.worker = .waiting false →
    state.data.queue.head = none ∧ state.monitor .joined = false ∧
      state.monitor .collectGarbage = false

@[simp]
theorem notify_ne_waiting (phase : WorkerPhase) : notify phase ≠ .waiting false := by
  cases phase <;> simp [notify]

/-- The queue has a first item unless its size is zero. -/
theorem Consistent.head_eq_none {state : State} (consistent : Consistent state)
    (head : state.data.queue.head = none) : state.data.queue.size = 0 := by
  obtain ⟨places, layout, -⟩ := consistent
  have empty := layout.queue.head_eq_none.mp head
  have size := layout.queue.size
  rw [empty] at size
  simpa using size

section Steps

variable {state after : State}

theorem stack_undisturbed (consistent : Consistent state) (undisturbed : Undisturbed state)
    {address object : Nat} (stepped : step state (.stack address object) = some after) :
    Undisturbed after := by
  obtain ⟨-, memory, queue, -, rfl⟩ := stack_eq stepped
  intro blocked
  dsimp only at blocked
  -- without a notification the queue was not empty, and the worker not asleep
  split at blocked
  · exact absurd blocked (notify_ne_waiting _)
  · next nonempty => exact absurd (consistent.head_eq_none (undisturbed blocked).1) nonempty

theorem unstack_undisturbed (consistent : Consistent state) (undisturbed : Undisturbed state)
    (stepped : step state .unstack = some after) : Undisturbed after := by
  obtain ⟨-, removal, shifted, rfl⟩ := unstack_eq stepped
  intro blocked
  obtain ⟨head, flags⟩ := undisturbed blocked
  obtain ⟨places, layout, -⟩ := consistent
  have represented := layout.queue
  rw [layout.queue.head_eq_none.mp head] at represented
  rw [queueShift_empty represented] at shifted
  cases shifted
  exact ⟨head, flags⟩

theorem collect_undisturbed (undisturbed : Undisturbed state) {answers : Task → Bool}
    (stepped : step state (.collect answers) = some after) : Undisturbed after := by
  obtain ⟨memory, gc, collected, -, rfl⟩ := collect_eq stepped
  intro blocked
  dsimp only at blocked ⊢
  split at blocked
  · exact absurd blocked (notify_ne_waiting _)
  · next none =>
    rw [if_neg none]
    exact undisturbed blocked

/-- The worker has noticed every collection when it looks for a task. -/
theorem dropCollected_noticed (dropped : dropCollected state = some after) :
    after.monitor .collectGarbage = false := by
  rcases dropCollected_eq dropped with ⟨notSet, rfl⟩ | ⟨-, memory, cache, tasks, -, rfl⟩
  · exact notSet
  · simp [monitorRemove]

theorem nextTask_undisturbed (stepped : step state .nextTask = some after) :
    Undisturbed after := by
  obtain ⟨-, middle, dropped, taken⟩ := nextTask_eq stepped
  have noticed := dropCollected_noticed dropped
  intro blocked
  rcases takeTask_eq taken with
      ⟨-, -, rfl⟩ | ⟨empty, notJoined, rfl⟩ | ⟨head, removal, task, -, -, -, rfl⟩
  · cases blocked
  · exact ⟨empty, notJoined, noticed⟩
  · cases blocked

/-- Every action leaves a worker that sleeps undisturbed or on its way to wake. -/
theorem step_undisturbed {action : Action} (consistent : Consistent state)
    (undisturbed : Undisturbed state) (stepped : step state action = some after) :
    Undisturbed after := by
  cases action with
  | stack address object => exact stack_undisturbed consistent undisturbed stepped
  | unstack => exact unstack_undisturbed consistent undisturbed stepped
  | collect answers => exact collect_undisturbed undisturbed stepped
  | nextTask => exact nextTask_undisturbed stepped
  | start | enterLoop | spuriousWakeup | signalAwaitJoin =>
      obtain ⟨-, ⟨⟩⟩ := Option.ite_none_right_eq_some.mp stepped
      intro blocked
      cases blocked
  | join | joinExit =>
      obtain ⟨-, ⟨⟩⟩ := Option.ite_none_right_eq_some.mp stepped
      exact fun blocked => absurd blocked (notify_ne_waiting _)
  | joinWoken | joinSync | joinReturn =>
      obtain ⟨-, ⟨⟩⟩ := Option.ite_none_right_eq_some.mp stepped
      exact undisturbed
  | addGarbage =>
      obtain ⟨task, running, memory, gc, -, -, -, rfl⟩ := addGarbage_eq stepped
      intro blocked
      cases blocked
  | recordDone address =>
      obtain ⟨task, memory, cache, -, -, rfl⟩ := recordDone_eq stepped
      intro blocked
      cases blocked
  | destroy =>
      obtain ⟨-, memory, -, rfl⟩ := destroy_eq stepped
      intro blocked
      cases blocked

end Steps

theorem undisturbed_of_reaches {state : State} (reached : Reaches step anyAction initial state) :
    Undisturbed state := by
  have keeps : ∀ before action after, Consistent before ∧ Undisturbed before →
      anyAction before action → step before action = some after →
        Consistent after ∧ Undisturbed after := by
    intro before action after invariant _ stepped
    exact ⟨step_consistent before action after invariant.1 stepped,
      step_undisturbed invariant.1 invariant.2 stepped⟩
  have initially : Undisturbed initial := by
    intro blocked
    cases blocked
  exact (reached.preserves keeps ⟨consistent_initial, initially⟩).2

/-- In no reachable state is the worker blocked in `pthreads_monitor_wait` without
a wakeup on its way while there is a task in the queue or one of the two flags is
set. -/
theorem no_lost_wakeup {state : State} (reached : Reaches step anyAction initial state)
    (blocked : state.worker = .waiting false) :
    contents state.memory state.data.queue = [] ∧ state.data.queue.head = none ∧
      state.monitor .joined = false ∧ state.monitor .collectGarbage = false := by
  obtain ⟨head, flags⟩ := undisturbed_of_reaches reached blocked
  obtain ⟨places, layout, -⟩ := consistent_of_reaches reached
  refine ⟨?_, head, flags⟩
  rw [layout.queue.contents_eq, layout.queue.head_eq_none.mp head]
  rfl

/-- A task is stacked while the worker waits, and taken back before it wakes. -/
def stackThenUnstack : List Action :=
  [.start, .enterLoop, .nextTask, .stack 1 70, .unstack, .nextTask]

theorem no_lost_wakeup_stackThenUnstack :
    ∃ state, execute step initial stackThenUnstack = some state ∧
      state.worker = .waiting false ∧ contents state.memory state.data.queue = [] := by
  refine ⟨_, rfl, rfl, ?_⟩
  exact (no_lost_wakeup
    (reaches_of_execute (admits_anyAction step initial stackThenUnstack) rfl) rfl).1

end Pthreads.WorkerTasks
