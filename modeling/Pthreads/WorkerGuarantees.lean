import Pthreads.WorkerInvariant

/-!
# Guarantees of the task hand-over

Every action keeps the places of a worker's tasks consistent with its history,
so in every reachable state no task is lost, duplicated or run twice, and the
worker drops its connections in step with the creator's collections.
-/

namespace Pthreads.WorkerTasks

open LinkedCells TaskQueue GuardedRuns

/-- Consistency does not depend on the creator, on most flags, or on the
phases in which the worker touches no task. -/
theorem Consistent.rephase {state : State} (consistent : Consistent state)
    {monitor : MonitorState} {worker : WorkerPhase} {creator : CreatorPhase}
    (executed : worker.executed = state.worker.executed)
    (unrecorded : worker.unrecorded = state.worker.unrecorded)
    (dead : worker = .destroyed ↔ state.worker = .destroyed)
    (flag : monitor .collectGarbage = state.monitor .collectGarbage) :
    Consistent { state with monitor := monitor, worker := worker, creator := creator } := by
  obtain ⟨places, layout, accounted⟩ := consistent
  refine ⟨places, ?_, ?_⟩
  · exact ⟨layout.queue, layout.gc, fun alive => layout.done fun gone => alive (dead.mpr gone),
      fun gone => layout.gone (dead.mp gone), layout.running, layout.cell, layout.apart⟩
  · exact ⟨accounted.executing.trans executed.symm, accounted.started, accounted.ordered,
      accounted.conserved,
      fun alive => (accounted.cached fun gone => alive (dead.mpr gone)).trans
        (by rw [unrecorded]),
      accounted.counted, accounted.prefixed, flag.trans accounted.flagged⟩

theorem Accounted.serial_lt {state : State} {places : Places}
    (accounted : Accounted state places) {task : Task}
    (member : task ∈ state.history.started ++ tasks places.queue) :
    task.serial < state.history.stacked := by
  refine List.mem_range.mp (accounted.conserved.mem_iff.mp ?_)
  exact List.mem_map_of_mem (List.mem_append_left _ member)

theorem stack_consistent {state after : State} (consistent : Consistent state)
    {address object : Nat} (stepped : step state (.stack address object) = some after) :
    Consistent after := by
  obtain ⟨places, layout, accounted⟩ := consistent
  simp only [step] at stepped
  split at stepped
  · next free =>
    cases fresh : state.memory address with
    | some cell => simp [workerAddTask, queuePushNew, queueItemNew, fresh] at stepped
    | none =>
        obtain ⟨memory, queue, pushed, laid⟩ :=
          queuePushNew_layout layout fresh ⟨object, state.history.stacked⟩
        simp only [workerAddTask, pushed, Option.bind_eq_bind, Option.bind_some,
          Option.some.injEq] at stepped
        subst stepped
        have sameDeath : (if state.data.queue.size = 0 then notify state.worker
            else state.worker) = .destroyed ↔ state.worker = .destroyed := by
          split <;> simp
        have laid := laid _ sameDeath
        refine ⟨_, ⟨laid.queue, laid.gc, laid.done, laid.gone, laid.running, laid.cell,
          laid.apart⟩, ?_⟩
        refine ⟨?_, accounted.started, ?_, ?_, ?_, accounted.counted, accounted.prefixed,
          accounted.flagged⟩
        · rw [accounted.executing]
          split <;> simp
        · simp only [List.map_append, List.map_cons, List.map_nil, ← List.append_assoc]
          refine List.pairwise_append.mpr ⟨accounted.ordered, by simp, ?_⟩
          intro earlier member later isNew
          cases List.mem_singleton.mp isNew
          exact accounted.serial_lt member
        · simp only [List.range_succ, List.map_append, List.map_cons, List.map_nil,
            List.append_assoc, List.cons_append, List.nil_append]
          have grown := accounted.conserved.append_right [state.history.stacked]
          simp only [List.map_append, List.append_assoc] at grown
          refine List.Perm.trans ?_ grown
          refine (List.Perm.append_left _ ?_).append_left _
          exact (List.perm_append_singleton _ _).symm
        · intro alive
          rw [accounted.cached fun gone => alive (sameDeath.mpr gone)]
          congr 2
          split <;> simp
  · simp at stepped

theorem unstack_consistent {state after : State} (consistent : Consistent state)
    (stepped : step state .unstack = some after) : Consistent after := by
  obtain ⟨places, layout, accounted⟩ := consistent
  simp only [step] at stepped
  split at stepped
  · cases first : places.queue with
    | nil =>
        have represented := layout.queue
        rw [first] at represented
        simp only [workerDequeueTask, queueShift_empty represented, Option.bind_eq_bind,
          Option.bind_some, Option.toList_none, List.append_nil, Option.some.injEq] at stepped
        subst stepped
        exact ⟨places, layout, accounted⟩
    | cons item rest =>
        obtain ⟨removal, shifted, handed, laid⟩ := queueShift_layout layout first
        simp only [workerDequeueTask, shifted, handed, Option.bind_eq_bind, Option.bind_some,
          Option.toList_some, Option.some.injEq] at stepped
        subst stepped
        refine ⟨_, ⟨laid.queue, laid.gc, laid.done, laid.gone, laid.running, laid.cell,
          laid.apart⟩, ?_⟩
        have ordered := accounted.ordered
        have conserved := accounted.conserved
        simp only [first, List.map_cons] at ordered conserved
        refine ⟨accounted.executing, accounted.started, ?_, ?_, accounted.cached,
          accounted.counted, accounted.prefixed, accounted.flagged⟩
        · exact ordered.sublist ((List.sublist_cons_self _ _).append_left _)
        · refine List.Perm.trans (List.Perm.map _ ?_) conserved
          simp only [List.append_assoc, List.cons_append]
          apply List.Perm.append_left _
          rw [← List.append_assoc]
          exact List.perm_append_singleton _ _
  · simp at stepped

/-- At most one task is running. -/
theorem Accounted.running_length_le {state : State} {places : Places}
    (accounted : Accounted state places) : places.running.length ≤ 1 := by
  have lengths := congrArg List.length accounted.executing
  rw [List.length_map] at lengths
  rw [lengths]
  cases state.worker <;> simp [WorkerPhase.executed]

/-- A collection removes the front of the garbage list and returns the number
of tasks that are left anywhere. -/
theorem workerCollectTasks_removes {state : State} {places : Places}
    (layout : Layout state places) (accounted : Accounted state places)
    (collect : Task → Bool) :
    ∃ after taken left, workerCollectTasks state collect =
        some (after, tasks taken,
          (places.queue.length : Int) + left.length + places.running.length) ∧
      places.gc = taken ++ left ∧
      after.history = state.history ∧
      Layout after { places with gc := left } ∧
      Accounted { after with history :=
          { after.history with collected := after.history.collected ++ tasks taken } }
        { places with gc := left } := by
  obtain ⟨memory, gc, taken, left, loop, split, size, laid⟩ := collectLoop_layout layout collect
  have runningSize : (if state.data.running.isSome then (1 : Int) else 0) =
      places.running.length := by
    have atMostOne := accounted.running_length_le
    rw [layout.running]
    match running : places.running with
    | [] => simp
    | [_] => simp
    | _ :: _ :: _ => simp [running] at atMostOne
  have started : state.history.started =
      (state.history.collected ++ tasks taken) ++ (tasks left ++ tasks places.running) := by
    simpa [split] using accounted.started
  have cached : state.worker ≠ .destroyed →
      (state.history.collected ++ tasks taken) ++ tasks left =
        state.history.drained ++ (tasks places.done ++ state.worker.unrecorded) := by
    intro alive
    simpa [split] using accounted.cached alive
  have counted : (state.history.collected ++ tasks taken).length =
      state.history.drained.length + (state.data.tasksCollected + (tasks taken).length) := by
    rw [List.length_append, accounted.counted, Nat.add_assoc]
  have prefixed : state.history.drained <+: state.history.collected ++ tasks taken :=
    accounted.prefixed.trans (List.prefix_append _ _)
  by_cases some : 0 < (tasks taken).length
  · refine ⟨{ state with
        memory := memory
        data := { state.data with
          gc := gc, tasksCollected := state.data.tasksCollected + (tasks taken).length }
        monitor := monitorAdd state.monitor .collectGarbage
        worker := notify state.worker }, taken, left, ?_, split, rfl, ?_, ?_⟩
    · simp only [workerCollectTasks, loop, Option.bind_eq_bind, Option.bind_some, some, if_true,
        layout.queue.size, size, runningSize]
    · have laid := laid (notify state.worker) (state.data.tasksCollected + (tasks taken).length)
        (by simp)
      exact ⟨laid.queue, laid.gc, laid.done, laid.gone, laid.running, laid.cell, laid.apart⟩
    · refine ⟨by simpa using accounted.executing, started, accounted.ordered,
        accounted.conserved, by simpa using cached, counted, prefixed, ?_⟩
      simp only [monitorAdd, Function.update_self, true_eq_decide_iff]
      omega
  · have none : tasks taken = [] := List.eq_nil_of_length_eq_zero (by omega)
    refine ⟨{ state with
        memory := memory
        data := { state.data with
          gc := gc, tasksCollected := state.data.tasksCollected + (tasks taken).length } },
      taken, left, ?_, split, rfl, ?_, ?_⟩
    · simp only [workerCollectTasks, loop, Option.bind_eq_bind, Option.bind_some, some, if_false,
        layout.queue.size, size, runningSize]
    · exact laid state.worker _ Iff.rfl
    · refine ⟨accounted.executing, started, accounted.ordered, accounted.conserved, cached,
        counted, prefixed, ?_⟩
      simpa [none] using accounted.flagged

theorem collect_consistent {state after : State} (consistent : Consistent state)
    {collect : Task → Bool} (stepped : step state (.collect collect) = some after) :
    Consistent after := by
  obtain ⟨places, layout, accounted⟩ := consistent
  obtain ⟨middle, taken, left, collected, -, -, laid, kept⟩ :=
    workerCollectTasks_removes layout accounted collect
  simp only [step] at stepped
  split at stepped
  · simp only [collected, Option.bind_eq_bind, Option.bind_some, Option.some.injEq] at stepped
    subst stepped
    exact ⟨_, ⟨laid.queue, laid.gc, laid.done, laid.gone, laid.running, laid.cell, laid.apart⟩,
      kept.executing, kept.started, kept.ordered, kept.conserved, kept.cached, kept.counted,
      kept.prefixed, kept.flagged⟩
  · simp at stepped

/-- When the worker notices a collection, the front of its cache is exactly
what the creator has collected since it last noticed one. -/
theorem Accounted.collected_split {state : State} {places : Places}
    (accounted : Accounted state places) (alive : state.worker ≠ .destroyed)
    (recorded : state.worker.unrecorded = []) :
    state.data.tasksCollected ≤ places.done.length ∧
      state.history.drained ++ (tasks places.done).take state.data.tasksCollected =
        state.history.collected := by
  obtain ⟨noticed, split⟩ := accounted.prefixed
  have counted := accounted.counted
  have cached := accounted.cached alive
  rw [recorded, List.append_nil, ← split, List.append_assoc] at cached
  have sameTail := List.append_cancel_left cached
  have noticedLength : noticed.length = state.data.tasksCollected := by
    rw [← split, List.length_append] at counted
    omega
  constructor
  · have lengths := congrArg List.length sameTail
    simp only [List.length_append, List.length_map] at lengths
    omega
  · rw [← sameTail, List.take_append_of_le_length (by omega), ← noticedLength, List.take_length,
      split]

/-- The first half of `pthreads_worker_next_task` never runs out of cache. -/
theorem dropCollected_drops {state : State} {places : Places} (layout : Layout state places)
    (accounted : Accounted state places) (alive : state.worker ≠ .destroyed)
    (recorded : state.worker.unrecorded = []) :
    ∃ after left, dropCollected state = some after ∧
      Layout after { places with done := left } ∧
      Accounted after { places with done := left } ∧
      after.worker = state.worker ∧
      after.history = { state.history with drained := state.history.collected } := by
  obtain ⟨enough, split⟩ := accounted.collected_split alive recorded
  by_cases flag : state.monitor .collectGarbage = true
  · have parts : places.done = places.done.take state.data.tasksCollected ++
        places.done.drop state.data.tasksCollected := (List.take_append_drop _ _).symm
    have takenLength : (places.done.take state.data.tasksCollected).length =
        state.data.tasksCollected := by simp [enough]
    obtain ⟨memory, cache, loop, laid⟩ := drainLoop_layout layout alive parts
    rw [takenLength] at loop
    have drained : state.history.drained ++
        tasks (places.done.take state.data.tasksCollected) = state.history.collected := by
      simpa [List.map_take] using split
    refine ⟨_, places.done.drop state.data.tasksCollected, by
      simp only [dropCollected, flag, if_true, loop, Option.bind_eq_bind, Option.bind_some]; rfl,
      laid _ _ _, ?_, rfl, by simp only [drained]⟩
    refine ⟨accounted.executing, accounted.started, accounted.ordered, accounted.conserved, ?_,
      ?_, ?_, by simp [monitorRemove]⟩
    · intro _
      have whole : tasks places.done = tasks (places.done.take state.data.tasksCollected) ++
          tasks (places.done.drop state.data.tasksCollected) := by
        rw [← List.map_append, ← parts]
      have cached := accounted.cached alive
      rw [whole, List.append_assoc, ← List.append_assoc, drained] at cached
      simpa only [drained] using cached
    · simp only [drained, Nat.add_zero]
    · simp only [drained]
      exact List.prefix_rfl
  · have zero : state.data.tasksCollected = 0 := by
      have flagged := accounted.flagged
      simp only [Bool.not_eq_true] at flag
      rw [flag] at flagged
      simpa using flagged
    have drained : state.history.drained = state.history.collected := by
      simpa [zero] using split
    exact ⟨state, places.done, by simp [dropCollected, flag], layout, accounted, rfl, by
      rw [← drained]⟩

/-- The second half of `pthreads_worker_next_task` starts the oldest queued
task, or leaves everything where it is. -/
theorem takeTask_consistent {state : State} {places : Places} (layout : Layout state places)
    (accounted : Accounted state places)
    (phase : state.worker = .looping ∨ state.worker = .waiting true) :
    ∃ after, takeTask state = some after ∧ Consistent after ∧
      after.history = { state.history with started := after.history.started } := by
  obtain ⟨alive, executed, recorded⟩ := WorkerPhase.seeking phase
  have idle : places.running = [] := by
    have executing := accounted.executing
    rw [executed] at executing
    exact List.map_eq_nil_iff.mp executing
  have consistent : Consistent state := ⟨places, layout, accounted⟩
  cases first : places.queue with
  | nil =>
      have head : state.data.queue.head = none := layout.queue.head_eq_none.mpr first
      by_cases joined : state.monitor .joined = true
      · exact ⟨{ state with worker := .finished }, by simp [takeTask, head, joined],
          consistent.rephase (by rw [executed]; rfl) (by rw [recorded]; rfl) (by simp [alive]) rfl,
          rfl⟩
      · exact ⟨{ state with worker := .waiting false }, by simp [takeTask, head, joined],
          consistent.rephase (by rw [executed]; rfl) (by rw [recorded]; rfl) (by simp [alive]) rfl,
          rfl⟩
  | cons item rest =>
      obtain ⟨removal, shifted, head, handed, laid⟩ := takeTask_layout layout alive idle first
      refine ⟨_, by simp only [takeTask, head, shifted, handed, Option.bind_eq_bind,
        Option.bind_some]; rfl, ⟨_, laid _, ?_⟩, rfl⟩
      have started := accounted.started
      have ordered := accounted.ordered
      have conserved := accounted.conserved
      have cached := accounted.cached alive
      simp only [first, List.map_cons] at ordered conserved
      refine ⟨rfl, ?_, ?_, ?_, ?_, accounted.counted, accounted.prefixed, accounted.flagged⟩
      · simpa [idle] using congrArg (· ++ [item.2]) started
      · simpa using ordered
      · simpa using conserved
      · intro _
        rw [recorded] at cached
        exact cached

theorem nextTask_consistent {state after : State} (consistent : Consistent state)
    (stepped : step state .nextTask = some after) : Consistent after := by
  obtain ⟨places, layout, accounted⟩ := consistent
  obtain ⟨phase, between, isBetween, isAfter⟩ := nextTask_eq stepped
  obtain ⟨alive, -, recorded⟩ := WorkerPhase.seeking phase
  obtain ⟨middle, left, dropped, laid, kept, samePhase, -⟩ :=
    dropCollected_drops layout accounted alive recorded
  cases Option.some.inj (dropped.symm.trans isBetween)
  obtain ⟨last, taken, consistent, -⟩ :=
    takeTask_consistent laid kept (by rw [samePhase]; exact phase)
  cases Option.some.inj (taken.symm.trans isAfter)
  exact consistent

theorem addGarbage_consistent {state after : State} (consistent : Consistent state)
    (stepped : step state .addGarbage = some after) : Consistent after := by
  obtain ⟨places, layout, accounted⟩ := consistent
  simp only [step] at stepped
  split at stepped
  · next task phase =>
    have alive : state.worker ≠ .destroyed := by simp [phase]
    have executing := accounted.executing
    rw [phase] at executing
    obtain ⟨item, running, isTask⟩ := List.map_eq_singleton_iff.mp executing
    obtain ⟨memory, gc, pointer, pushed, laid⟩ := addGarbage_layout layout alive running
    simp only [workerAddGarbage, pointer, pushed, Option.bind_eq_bind, Option.bind_some,
      Option.some.injEq] at stepped
    subst stepped
    refine ⟨_, laid task, rfl, ?_, accounted.ordered, accounted.conserved, ?_, accounted.counted,
      accounted.prefixed, accounted.flagged⟩
    · simpa [running] using accounted.started
    · intro _
      have cached := congrArg (· ++ [item.2]) (accounted.cached alive)
      simpa [phase, WorkerPhase.unrecorded, isTask] using cached
  · simp at stepped

theorem recordDone_consistent {state after : State} (consistent : Consistent state)
    {address : Nat} (stepped : step state (.recordDone address) = some after) :
    Consistent after := by
  obtain ⟨places, layout, accounted⟩ := consistent
  simp only [step] at stepped
  split at stepped
  · next task phase =>
    have alive : state.worker ≠ .destroyed := by simp [phase]
    cases fresh : state.memory address with
    | some cell => simp [recordDone, queuePushNew, queueItemNew, fresh] at stepped
    | none =>
        obtain ⟨memory, cache, pushed, laid⟩ := recordDone_layout layout alive fresh task
        simp only [recordDone, pushed, Option.bind_eq_bind, Option.bind_some,
          Option.some.injEq] at stepped
        subst stepped
        refine ⟨_, laid, ?_, accounted.started, accounted.ordered, accounted.conserved, ?_,
          accounted.counted, accounted.prefixed, accounted.flagged⟩
        · simpa [phase, WorkerPhase.executed] using accounted.executing
        · intro _
          simpa [phase, WorkerPhase.unrecorded] using accounted.cached alive
  · simp at stepped

theorem destroy_consistent {state after : State} (consistent : Consistent state)
    (stepped : step state .destroy = some after) : Consistent after := by
  obtain ⟨places, layout, accounted⟩ := consistent
  simp only [step] at stepped
  split at stepped
  · next enabled =>
    have alive : state.worker ≠ .destroyed := by simp [enabled.1]
    obtain ⟨memory, cleaned, laid⟩ := destroy_layout layout alive
    simp only [cleaned, Option.bind_eq_bind, Option.bind_some, Option.some.injEq] at stepped
    subst stepped
    refine ⟨_, laid, ?_, accounted.started, accounted.ordered, accounted.conserved,
      fun alive => absurd rfl alive, accounted.counted, accounted.prefixed, accounted.flagged⟩
    simpa [enabled.1, WorkerPhase.executed] using accounted.executing
  · simp at stepped

/-- Every action of the creator or of the worker keeps the tasks accounted for. -/
theorem step_consistent (state : State) (action : Action) (after : State)
    (consistent : Consistent state) (stepped : step state action = some after) :
    Consistent after := by
  cases action with
  | stack address object => exact stack_consistent consistent stepped
  | unstack => exact unstack_consistent consistent stepped
  | collect answers => exact collect_consistent consistent stepped
  | nextTask => exact nextTask_consistent consistent stepped
  | addGarbage => exact addGarbage_consistent consistent stepped
  | recordDone address => exact recordDone_consistent consistent stepped
  | destroy => exact destroy_consistent consistent stepped
  | start =>
      obtain ⟨enabled, ⟨⟩⟩ := Option.ite_none_right_eq_some.mp stepped
      exact consistent.rephase (by rw [enabled.2]; rfl) (by rw [enabled.2]; rfl)
        (by simp [enabled.2]) rfl
  | join =>
      obtain ⟨-, ⟨⟩⟩ := Option.ite_none_right_eq_some.mp stepped
      exact consistent.rephase (by simp) (by simp) (by simp) rfl
  | joinWoken =>
      obtain ⟨-, ⟨⟩⟩ := Option.ite_none_right_eq_some.mp stepped
      exact consistent.rephase rfl rfl Iff.rfl rfl
  | joinSync =>
      obtain ⟨-, ⟨⟩⟩ := Option.ite_none_right_eq_some.mp stepped
      exact consistent.rephase rfl rfl Iff.rfl rfl
  | joinExit =>
      obtain ⟨-, ⟨⟩⟩ := Option.ite_none_right_eq_some.mp stepped
      exact consistent.rephase (by simp) (by simp) (by simp) rfl
  | joinReturn =>
      obtain ⟨-, ⟨⟩⟩ := Option.ite_none_right_eq_some.mp stepped
      exact consistent.rephase rfl rfl Iff.rfl rfl
  | enterLoop =>
      obtain ⟨enabled, ⟨⟩⟩ := Option.ite_none_right_eq_some.mp stepped
      exact consistent.rephase (by rw [enabled]; rfl) (by rw [enabled]; rfl)
        (by simp [enabled]) rfl
  | spuriousWakeup =>
      obtain ⟨enabled, ⟨⟩⟩ := Option.ite_none_right_eq_some.mp stepped
      exact consistent.rephase (by rw [enabled]; rfl) (by rw [enabled]; rfl)
        (by simp [enabled]) rfl
  | signalAwaitJoin =>
      obtain ⟨enabled, ⟨⟩⟩ := Option.ite_none_right_eq_some.mp stepped
      exact consistent.rephase (by rw [enabled]; rfl) (by rw [enabled]; rfl)
        (by simp [enabled]) rfl

theorem consistent_of_reaches {state : State} (reached : Reaches step anyAction initial state) :
    Consistent state :=
  reached.preserves (fun before action after consistent _ stepped =>
    step_consistent before action after consistent stepped) consistent_initial

/-- The task that `running` points to. -/
def State.runningTask (state : State) : List Task :=
  ((state.data.running.bind state.memory).map Cell.value).toList

theorem Layout.runningTask_eq {state : State} {places : Places} (layout : Layout state places)
    (atMostOne : places.running.length ≤ 1) : state.runningTask = tasks places.running := by
  rw [State.runningTask, layout.running]
  match running : places.running with
  | [] => rfl
  | [item] =>
      obtain ⟨next, prev, found⟩ := layout.cell item (by simp [running])
      simp [found]
  | _ :: _ :: _ => simp [running] at atMostOne

/-- In every reachable state each occurrence of a stacked task is in exactly
one place; tasks are started in the order they were stacked, and `collect`
returns the number of tasks that are neither unstacked nor collected. -/
theorem tasks_conserved {state : State} (reached : Reaches step anyAction initial state) :
    ((contents state.memory state.data.queue ++ state.runningTask ++
        contents state.memory state.data.gc ++ state.history.unstacked ++
        state.history.collected).map Task.serial).Perm (List.range state.history.stacked) ∧
      state.history.started = state.history.collected ++
        (contents state.memory state.data.gc ++ state.runningTask) ∧
      state.history.started.Pairwise (fun first second => first.serial < second.serial) ∧
      ∀ answers, state.creatorFree → ∃ after, step state (.collect answers) = some after ∧
        after.history.collectReturned = some ((after.history.stacked : Int) -
          after.history.unstacked.length - after.history.collected.length) := by
  obtain ⟨places, layout, accounted⟩ := consistent_of_reaches reached
  have running := layout.runningTask_eq accounted.running_length_le
  have conserved := accounted.conserved
  rw [accounted.started] at conserved
  rw [layout.queue.contents_eq, layout.gc.contents_eq, running]
  refine ⟨?_, accounted.started, (List.pairwise_append.mp accounted.ordered).1, ?_⟩
  · refine List.Perm.trans (List.Perm.map _ ?_) conserved
    apply (List.perm_append_comm).trans
    simp only [List.append_assoc]
    apply List.Perm.append_left _
    simp only [← List.append_assoc]
    apply List.Perm.append_right _
    apply (List.perm_append_comm).trans
    simp only [List.append_assoc]
    exact List.Perm.append_left _ List.perm_append_comm
  · intro answers free
    obtain ⟨middle, taken, left, collected, split, sameHistory, -, -⟩ :=
      workerCollectTasks_removes layout accounted answers
    refine ⟨_, by simp only [step, free, if_true, collected, Option.bind_eq_bind,
      Option.bind_some]; rfl, ?_⟩
    have total := conserved.length_eq
    simp only [split, List.map_append, List.length_append, List.length_map,
      List.length_range] at total
    simp only [sameHistory, List.length_append, List.length_map, Option.some.injEq]
    omega

/-- A run in which the creator stacks two tasks, takes none back, and collects
the first one while the second is running. -/
def collectDuringRun : List Action :=
  [.start, .stack 1 70, .stack 2 71, .enterLoop, .nextTask, .addGarbage, .recordDone 3,
    .nextTask, .collect fun _ => true]

theorem tasks_conserved_collectDuringRun :
    ∃ state, execute step initial collectDuringRun = some state ∧
      state.history.collectReturned = some 1 ∧
      state.history.started = state.history.collected ++
        (contents state.memory state.data.gc ++ state.runningTask) := by
  refine ⟨_, rfl, rfl, ?_⟩
  exact (tasks_conserved (reaches_of_execute (admits_anyAction step initial collectDuringRun)
    rfl)).2.1

/-- The worker drops its connections in step with the creator: it never drops
one the creator has not collected, and when it notices a collection its cache
starts with exactly the tasks collected since it last noticed one. -/
theorem drain_follows_collect {state : State} (reached : Reaches step anyAction initial state) :
    state.history.drained <+: state.history.collected ∧
      (state.worker = .looping ∨ state.worker = .waiting true →
        ∃ after, step state .nextTask = some after ∧
          after.history.drained = state.history.collected ∧
          (state.monitor .collectGarbage = true →
            state.data.tasksCollected ≤
                (contents state.memory state.doneTasksCache).length ∧
              (contents state.memory state.doneTasksCache).take state.data.tasksCollected =
                state.history.collected.drop state.history.drained.length ∧
              after.history.drained = state.history.drained ++
                (contents state.memory state.doneTasksCache).take state.data.tasksCollected)) := by
  obtain ⟨places, layout, accounted⟩ := consistent_of_reaches reached
  refine ⟨accounted.prefixed, fun phase => ?_⟩
  obtain ⟨alive, -, recorded⟩ := WorkerPhase.seeking phase
  obtain ⟨enough, split⟩ := accounted.collected_split alive recorded
  obtain ⟨middle, left, dropped, laid, kept, samePhase, noticed⟩ :=
    dropCollected_drops layout accounted alive recorded
  obtain ⟨last, taken, -, history⟩ :=
    takeTask_consistent laid kept (by rw [samePhase]; exact phase)
  have drained : last.history.drained = state.history.collected := by rw [history, noticed]
  rw [(layout.done alive).contents_eq]
  refine ⟨last, by simp [step, phase, workerNextTask, dropped, taken], drained, fun _ => ?_⟩
  refine ⟨by simpa using enough, ?_, ?_⟩
  · rw [← split, List.drop_left]
  · rw [drained, split]

/-- A collection that the worker notices before it goes back to wait. -/
def collectThenWait : List Action :=
  [.start, .enterLoop, .stack 1 70, .nextTask, .addGarbage, .collect fun _ => true,
    .recordDone 2, .nextTask]

theorem drain_follows_collect_collectThenWait :
    ∃ state, execute step initial collectThenWait = some state ∧
      state.history.drained.length = 1 ∧ state.history.drained <+: state.history.collected := by
  refine ⟨_, rfl, rfl, ?_⟩
  exact (drain_follows_collect (reaches_of_execute (admits_anyAction step initial collectThenWait)
    rfl)).1

end Pthreads.WorkerTasks
