import Pthreads.CountedMemory
import Pthreads.WorkerProgress

/-!
# What a worker's data refers to

The items of a worker's queues refer to the objects of tasks.  The garbage collector of
PHP is told of these references by `pthreads_worker_get_gc_extra`, and
`pthreads_worker_data_free` gives them up when the worker object is freed.  No item is
left over then, whatever the creator and the worker have done.
-/

namespace Pthreads.WorkerTasks

open LinkedCells TaskQueue GuardedRuns

/-- One of the loops of `pthreads_worker_get_gc_extra`, from `item` on. -/
def gcLoop : Nat → Memory Task → Option Nat → Option (List Task)
  | _, _, none => some []
  | 0, _, some _ => none
  | fuel + 1, memory, some item => do
      let cell ← memory item
      let others ← gcLoop fuel memory cell.next
      some (cell.value :: others)

/-- The task of `running`, if it is set. -/
def gcRunning (memory : Memory Task) : Option Nat → Option (List Task)
  | none => some []
  | some item => (memory item).map fun cell => [cell.value]

/-- `pthreads_worker_get_gc_extra`. -/
def workerGetGcExtra (state : State) : Option (List Task) := do
  let queued ← gcLoop state.data.queue.size.toNat state.memory state.data.queue.head
  let running ← gcRunning state.memory state.data.running
  let collectable ← gcLoop state.data.gc.size.toNat state.memory state.data.gc.head
  some (queued ++ running ++ collectable)

/-- `pthreads_worker_data_free`, with the assertion that no task is running. -/
def workerDataFree (state : State) : Option (Memory Task) := do
  let memory ← queueClean state.data.queue.size.toNat state.memory state.data.queue.head
  let memory ← queueClean state.data.gc.size.toNat memory state.data.gc.head
  if state.data.running = none then some memory else none

section Reports

variable {memory : Memory Task} {items : List (Nat × Task)}

theorem gcLoop_chain {before : Option Nat} (chain : Chain memory before items none) :
    gcLoop items.length memory (firstAddress items) = some (tasks items) := by
  induction items generalizing before with
  | nil => rfl
  | cons item items ih =>
      rw [List.length_cons, firstAddress_cons, gcLoop, chain.1]
      simp only [Option.or_none, Option.bind_eq_bind, Option.bind_some, ih chain.2]
      rfl

theorem gcLoop_represents {queue : Queue} (represented : Represents memory queue items) :
    gcLoop queue.size.toNat memory queue.head = some (tasks items) := by
  rw [represented.size, represented.head, Int.toNat_natCast]
  exact gcLoop_chain represented.chain

/-- What is reported is what lies in the places of the creator. -/
theorem workerGetGcExtra_eq {state : State} {places : Places} (layout : Layout state places)
    (accounted : Accounted state places) :
    workerGetGcExtra state =
      some (tasks places.queue ++ tasks places.running ++ tasks places.gc) := by
  have running : gcRunning state.memory state.data.running = some (tasks places.running) := by
    have atMostOne := accounted.running_length_le
    rw [layout.running]
    match isRunning : places.running with
    | [] => rfl
    | [item] =>
        obtain ⟨next, prev, found⟩ := layout.cell item (by simp [isRunning])
        simp [gcRunning, found]
    | _ :: _ :: _ => simp [isRunning] at atMostOne
  unfold workerGetGcExtra
  rw [gcLoop_represents layout.queue, gcLoop_represents layout.gc, running]
  rfl

end Reports

section Counts

variable {memory after : Memory Task} {queue left : Queue}

theorem collectLoop_frees {collect : Task → Bool} {fuel : Nat} {item : Option Nat}
    {collected : List Task} (bounded : memory.Bounded)
    (loop : collectLoop collect fuel memory queue item = some (after, left, collected)) :
    (after.count : Int) - left.size = memory.count - queue.size := by
  induction fuel generalizing memory queue item collected with
  | zero =>
      cases item with
      | none =>
          cases loop
          rfl
      | some item => cases loop
  | succ fuel ih =>
      cases item with
      | none =>
          cases loop
          rfl
      | some item =>
          obtain ⟨cell, -, rest⟩ := Option.bind_eq_some_iff.mp loop
          split at rest
          · obtain ⟨removal, shift, later⟩ := Option.bind_eq_some_iff.mp rest
            obtain ⟨⟨last, queue, others⟩, deeper, ⟨⟩⟩ := Option.bind_eq_some_iff.mp later
            rw [ih (bounded.grows (queueShift_grows shift)) deeper]
            exact queueShift_frees bounded shift
          · cases rest
            rfl

theorem drainLoop_frees {count : Nat} {dropped : List Task} (bounded : memory.Bounded)
    (loop : drainLoop count memory queue = some (after, left, dropped)) :
    (after.count : Int) - left.size = memory.count - queue.size := by
  induction count generalizing memory queue dropped with
  | zero =>
      cases loop
      rfl
  | succ count ih =>
      obtain ⟨removal, shift, later⟩ := Option.bind_eq_some_iff.mp loop
      obtain ⟨⟨last, queue, others⟩, deeper, ⟨⟩⟩ := Option.bind_eq_some_iff.mp later
      rw [ih (bounded.grows (queueShift_grows shift)) deeper]
      exact queueShift_frees bounded shift

/-- Cleaning a queue takes one from the count for each of its items. -/
theorem queueClean_counts {before : Option Nat} {items : List (Nat × Task)}
    (bounded : memory.Bounded) (chain : Chain memory before items none)
    (nodup : (addresses items).Nodup)
    (cleaned : queueClean items.length memory (firstAddress items) = some after) :
    after.count + items.length = memory.count := by
  induction items generalizing memory before with
  | nil =>
      cases cleaned
      rfl
  | cons item items ih =>
      have used : memory item.1 ≠ none := by simp [chain.1]
      have others := List.nodup_cons.mp nodup
      have kept : Chain (memory.erase item.1) (some item.1) items none := by
        apply chain_congr _ chain.2
        intro address member
        apply Memory.erase_other
        rintro rfl
        exact others.1 member
      rw [List.length_cons, firstAddress_cons, queueClean, chain.1] at cleaned
      simp only [Option.or_none, Option.bind_eq_bind, Option.bind_some] at cleaned
      have rest := ih (bounded.grows (Memory.grows_erase memory item.1)) kept others.2 cleaned
      have erased := Memory.count_erase bounded used
      rw [List.length_cons]
      omega

/-- A queue in memory can be cleaned, and nothing of it is left. -/
theorem queueClean_represents {items : List (Nat × Task)} (represented : Represents memory queue items)
    (bounded : memory.Bounded) :
    ∃ after, queueClean queue.size.toNat memory queue.head = some after ∧
      (after.count : Int) + queue.size = memory.count ∧ after.Bounded ∧
      ∀ other ∉ addresses items, after other = memory other := by
  obtain ⟨after, cleaned, frame⟩ := queueClean_frees represented.chain represented.nodup
  have counted := queueClean_counts bounded represented.chain represented.nodup cleaned
  rw [represented.size, represented.head, Int.toNat_natCast]
  have stillBounded := bounded.grows (queueClean_grows cleaned)
  exact ⟨after, cleaned, by omega, stillBounded, frame⟩

end Counts

/-- The number of items that the worker's data and its cache have. -/
def State.held (state : State) : Int :=
  state.data.queue.size + state.data.gc.size +
    (if state.data.running.isSome then 1 else 0) +
      if state.worker = .destroyed then 0 else state.doneTasksCache.size

/-- Every item in memory is one of those. -/
structure Balanced (state : State) : Prop where
  bounded : state.memory.Bounded
  count : (state.memory.count : Int) = state.held
  unstarted : state.worker = .unstarted → state.doneTasksCache.size = 0

theorem balanced_initial : Balanced initial where
  bounded := by simp [Memory.Bounded, initial]
  count := by simp [Memory.count, Memory.allocated, State.held, initial, Queue.empty]
  unstarted := fun _ => rfl

section Steps

variable {state after : State}

/-- What leaves the items alone. -/
theorem Balanced.rephase (balanced : Balanced state) {monitor : MonitorState}
    {worker : WorkerPhase} {creator : CreatorPhase}
    (destroyed : worker = .destroyed ↔ state.worker = .destroyed)
    (unstarted : worker = .unstarted → state.worker = .unstarted) :
    Balanced { state with monitor := monitor, worker := worker, creator := creator } := by
  constructor
  · exact balanced.bounded
  · rw [balanced.count]
    simp only [State.held, destroyed]
  · exact fun isUnstarted => balanced.unstarted (unstarted isUnstarted)

theorem stack_balanced (balanced : Balanced state) {address object : Nat}
    (stepped : step state (.stack address object) = some after) : Balanced after := by
  obtain ⟨-, memory, queue, pushed, rfl⟩ := stack_eq stepped
  obtain ⟨count, size⟩ := queuePushNew_counts balanced.bounded pushed
  have before := balanced.count
  constructor
  · exact balanced.bounded.grows (queuePushNew_grows pushed)
  · split
    · simp only [State.held, notify_eq_destroyed] at before ⊢
      omega
    · simp only [State.held] at before ⊢
      omega
  · split
    · simpa using balanced.unstarted
    · exact balanced.unstarted

theorem unstack_balanced (balanced : Balanced state)
    (stepped : step state .unstack = some after) : Balanced after := by
  obtain ⟨-, removal, shifted, rfl⟩ := unstack_eq stepped
  have frees := queueShift_frees balanced.bounded shifted
  have before := balanced.count
  refine ⟨balanced.bounded.grows (queueShift_grows shifted), ?_, balanced.unstarted⟩
  simp only [State.held] at before ⊢
  omega

theorem collect_balanced (balanced : Balanced state) {answers : Task → Bool}
    (stepped : step state (.collect answers) = some after) : Balanced after := by
  obtain ⟨memory, gc, collected, loop, rfl⟩ := collect_eq stepped
  have frees := collectLoop_frees balanced.bounded loop
  have before := balanced.count
  constructor
  · exact balanced.bounded.grows (collectLoop_grows loop)
  · split
    · simp only [State.held, notify_eq_destroyed] at before ⊢
      omega
    · simp only [State.held] at before ⊢
      omega
  · split
    · simpa using balanced.unstarted
    · exact balanced.unstarted

theorem dropCollected_balanced (balanced : Balanced state) (alive : state.worker ≠ .destroyed)
    (started : state.worker ≠ .unstarted) (dropped : dropCollected state = some after) :
    Balanced after := by
  rcases dropCollected_eq dropped with ⟨-, rfl⟩ | ⟨-, memory, cache, tasks, loop, rfl⟩
  · exact balanced
  · have frees := drainLoop_frees balanced.bounded loop
    have before := balanced.count
    refine ⟨balanced.bounded.grows (drainLoop_grows loop), ?_, fun contra => absurd contra started⟩
    simp only [State.held, if_neg alive] at before ⊢
    omega

theorem takeTask_balanced (balanced : Balanced state) (alive : state.worker ≠ .destroyed)
    (idle : state.data.running = none) (taken : takeTask state = some after) :
    Balanced after := by
  have before := balanced.count
  rcases takeTask_eq taken with
      ⟨-, -, rfl⟩ | ⟨-, -, rfl⟩ | ⟨head, removal, task, isHead, shifted, -, rfl⟩
  · apply balanced.rephase
    · simp [alive]
    · simp
  · apply balanced.rephase
    · simp [alive]
    · simp
  · obtain ⟨count, size⟩ := queueShift_keeps shifted isHead
    refine ⟨balanced.bounded.grows (queueShift_grows shifted), ?_, by simp⟩
    simp [State.held, alive, idle] at before ⊢
    omega

theorem nextTask_balanced (balanced : Balanced state) (consistent : Consistent state)
    (stepped : step state .nextTask = some after) : Balanced after := by
  obtain ⟨phase, middle, dropped, taken⟩ := nextTask_eq stepped
  obtain ⟨alive, executed, -⟩ := WorkerPhase.seeking phase
  have started : state.worker ≠ .unstarted := by
    rcases phase with isPhase | isPhase <;> simp [isPhase]
  obtain ⟨-, sameWorker⟩ := dropCollected_keeps dropped
  have sameRunning : middle.data.running = state.data.running := by
    rcases dropCollected_eq dropped with ⟨-, rfl⟩ | ⟨-, memory, cache, tasks, -, rfl⟩
    · rfl
    · rfl
  have idle : middle.data.running = none := by
    rw [sameRunning]
    exact consistent.running_eq_none executed
  have between := dropCollected_balanced balanced alive started dropped
  exact takeTask_balanced between (by rwa [sameWorker]) idle taken

theorem addGarbage_balanced (balanced : Balanced state)
    (stepped : step state .addGarbage = some after) : Balanced after := by
  obtain ⟨task, running, memory, gc, phase, isRunning, pushed, rfl⟩ := addGarbage_eq stepped
  obtain ⟨count, size⟩ := queuePush_counts pushed
  have before := balanced.count
  refine ⟨balanced.bounded.grows (queuePush_grows pushed), ?_, by simp⟩
  simp [State.held, phase, isRunning] at before ⊢
  omega

theorem recordDone_balanced (balanced : Balanced state) {address : Nat}
    (stepped : step state (.recordDone address) = some after) : Balanced after := by
  obtain ⟨task, memory, cache, phase, pushed, rfl⟩ := recordDone_eq stepped
  obtain ⟨count, size⟩ := queuePushNew_counts balanced.bounded pushed
  have before := balanced.count
  refine ⟨balanced.bounded.grows (queuePushNew_grows pushed), ?_, by simp⟩
  simp [State.held, phase] at before ⊢
  omega

theorem destroy_balanced (balanced : Balanced state) (consistent : Consistent state)
    (stepped : step state .destroy = some after) : Balanced after := by
  obtain ⟨awaiting, memory, isCleaned, rfl⟩ := destroy_eq stepped
  have alive : state.worker ≠ .destroyed := by simp [awaiting]
  obtain ⟨places, layout, -⟩ := consistent
  obtain ⟨cleaned, same, counted, bounded, -⟩ :=
    queueClean_represents (layout.done alive) balanced.bounded
  cases Option.some.inj (same.symm.trans isCleaned)
  have before := balanced.count
  refine ⟨bounded, ?_, by simp⟩
  simp [State.held, awaiting] at before ⊢
  omega

/-- No action loses an item, nor frees one twice. -/
theorem step_balanced (balanced : Balanced state) (consistent : Consistent state)
    {action : Action} (stepped : step state action = some after) : Balanced after := by
  cases action with
  | stack address object => exact stack_balanced balanced stepped
  | unstack => exact unstack_balanced balanced stepped
  | collect answers => exact collect_balanced balanced stepped
  | nextTask => exact nextTask_balanced balanced consistent stepped
  | addGarbage => exact addGarbage_balanced balanced stepped
  | recordDone address => exact recordDone_balanced balanced stepped
  | destroy => exact destroy_balanced balanced consistent stepped
  | start | enterLoop | spuriousWakeup | signalAwaitJoin =>
      obtain ⟨enabled, ⟨⟩⟩ := Option.ite_none_right_eq_some.mp stepped
      apply balanced.rephase
      · simp [enabled]
      · simp
  | join | joinExit =>
      obtain ⟨-, ⟨⟩⟩ := Option.ite_none_right_eq_some.mp stepped
      apply balanced.rephase
      · simp
      · simp
  | joinWoken | joinSync | joinReturn =>
      obtain ⟨-, ⟨⟩⟩ := Option.ite_none_right_eq_some.mp stepped
      exact balanced.rephase Iff.rfl fun isUnstarted => isUnstarted

theorem balanced_of_reaches (reached : Reaches step anyAction initial state) :
    Balanced state := by
  have both : Consistent state ∧ Balanced state := by
    apply reached.preserves _ ⟨consistent_of_reaches .refl, balanced_initial⟩
    intro before action next holds _ stepped
    exact ⟨step_consistent before action next holds.1 stepped,
      step_balanced holds.2 holds.1 stepped⟩
  exact both.2

end Steps

/-- When the creator frees a worker that it has joined or never started, no task is
running, the queues can be cleaned, and then no item that was ever allocated is left. -/
theorem data_freed (reached : Reaches step anyAction initial state)
    (isOver : state.worker = .unstarted ∨ state.worker = .destroyed) :
    ∃ memory, workerDataFree state = some memory ∧ ∀ address, memory address = none := by
  have balanced := balanced_of_reaches reached
  have consistent := consistent_of_reaches reached
  have executed : state.worker.executed = [] := by
    rcases isOver with phase | phase <;> rw [phase] <;> rfl
  have idle := consistent.running_eq_none executed
  have held : state.held = state.data.queue.size + state.data.gc.size := by
    rcases isOver with phase | phase
    · simp [State.held, idle, phase, balanced.unstarted phase]
    · simp [State.held, idle, phase]
  obtain ⟨places, layout, -⟩ := consistent
  obtain ⟨middle, cleanedQueue, countedQueue, bounded, frame⟩ :=
    queueClean_represents layout.queue balanced.bounded
  have collectable : Represents middle state.data.gc places.gc := by
    apply layout.gc.congr
    intro address member
    exact frame address fun inQueue => (layout.disjoint.1 address inQueue).2.1 member
  obtain ⟨after, cleanedGc, countedGc, stillBounded, -⟩ := queueClean_represents collectable bounded
  have freed : workerDataFree state = some after := by
    simp only [workerDataFree, cleanedQueue, cleanedGc, idle, Option.bind_eq_bind,
      Option.bind_some, if_true]
  have total := balanced.count
  exact ⟨after, freed, Memory.eq_none_of_count_eq_zero stillBounded (by omega)⟩

/-- A task is left in the garbage list by the join, and another one is stacked after it. -/
def stackAfterJoin : List Action :=
  [.start, .enterLoop, .stack 1 70, .nextTask, .addGarbage, .recordDone 2, .join, .nextTask,
    .signalAwaitJoin, .joinWoken, .joinSync, .joinExit, .destroy, .joinReturn, .stack 3 71]

theorem data_freed_stackAfterJoin :
    ∃ state memory, execute step initial stackAfterJoin = some state ∧
      (state.memory 1).isSome = true ∧ (state.memory 3).isSome = true ∧
      workerDataFree state = some memory ∧ memory 1 = none ∧ memory 3 = none := by
  have reached := reaches_of_execute (admits_anyAction step initial stackAfterJoin) rfl
  obtain ⟨memory, freed, empty⟩ := data_freed reached (Or.inr rfl)
  exact ⟨_, memory, rfl, rfl, rfl, freed, empty 1, empty 3⟩

end Pthreads.WorkerTasks

namespace Pthreads.TaskExecution

open GuardedRuns
open WorkerTasks (Task workerGetGcExtra)

/-- The garbage collector is told of a task once for each time that it was stacked and
neither unstacked nor collected, and of nothing else. -/
theorem gc_extra_reports {definesRun : Nat → Bool} {state : State}
    (reached : Reaches (step definesRun) anyAction initial state) :
    ∃ reported, workerGetGcExtra state.worker = some reported ∧
      (reported ++ (state.worker.history.collected ++ state.worker.history.unstacked)).Perm
        state.stacked := by
  have executes := executes_of_reaches reached
  obtain ⟨places, layout, accounted⟩ := executes.consistent
  refine ⟨_, WorkerTasks.workerGetGcExtra_eq layout accounted, ?_⟩
  have all := executes.stacked
  rw [WorkerTasks.stackedTasks_eq layout, accounted.started] at all
  apply List.Perm.trans _ all
  rw [List.perm_iff_count]
  intro task
  simp only [List.count_append]
  omega

/-- One task is finished, one is running and one is in the queue; another one was taken
back. -/
def stackFourTasks : List Action :=
  [.worker .start, .worker .enterLoop, .worker (.stack 1 70), .worker .unstack,
    .worker (.stack 2 71), .worker (.stack 3 72), .worker (.stack 4 71), .worker .nextTask,
    .enterRun, .runReturns false, .worker .addGarbage, .worker (.recordDone 5),
    .worker .nextTask, .enterRun]

theorem gc_extra_reports_stackFourTasks :
    ∃ state reported, execute (step fun _ => true) initial stackFourTasks = some state ∧
      workerGetGcExtra state.worker = some reported ∧
      (reported ++ [(⟨70, 0⟩ : Task)]).Perm state.stacked ∧ state.stacked.length = 4 := by
  have reached := reaches_of_execute
    (admits_anyAction (step fun _ => true) initial stackFourTasks) rfl
  obtain ⟨reported, isReported, all⟩ := gc_extra_reports reached
  exact ⟨_, reported, rfl, isReported, all, rfl⟩

end Pthreads.TaskExecution
