import Pthreads.TaskExecution

/-!
# The order in which a worker runs its tasks

`Worker::stack` adds at the end of the queue, `Worker::unstack` takes away at its head,
and so does `pthreads_worker_next_task`.  The started tasks and the queued ones after
them are therefore in the order of the `stack` calls, whatever else happens to the
worker, and so are the tasks whose `run` is called.
-/

namespace Pthreads.WorkerTasks

open LinkedCells TaskQueue

/-- The tasks that were started, and then the ones that are queued. -/
def State.orderedTasks (state : State) : List Task :=
  state.history.started ++ contents state.memory state.data.queue

section Order

variable {state after : State}

theorem orderedTasks_eq {places : Places} (layout : Layout state places) :
    state.orderedTasks = state.history.started ++ tasks places.queue := by
  rw [State.orderedTasks, layout.queue.contents_eq]

/-- Only `unstack` takes a task back. -/
theorem step_unstacked {action : Action} (stepped : step state action = some after)
    (other : action ≠ .unstack) : after.history.unstacked = state.history.unstacked := by
  cases action with
  | unstack => exact absurd rfl other
  | stack address object =>
      obtain ⟨-, memory, queue, -, rfl⟩ := stack_eq stepped
      rfl
  | collect answers =>
      obtain ⟨memory, gc, collected, -, rfl⟩ := collect_eq stepped
      rfl
  | nextTask =>
      obtain ⟨-, middle, dropped, taken⟩ := nextTask_eq stepped
      have kept : middle.history.unstacked = state.history.unstacked := by
        rcases dropCollected_eq dropped with ⟨-, rfl⟩ | ⟨-, memory, cache, tasks, -, rfl⟩
        · rfl
        · rfl
      rw [← kept]
      rcases takeTask_eq taken with
        ⟨-, -, rfl⟩ | ⟨-, -, rfl⟩ | ⟨head, removal, task, -, -, -, rfl⟩
      · rfl
      · rfl
      · rfl
  | addGarbage =>
      obtain ⟨task, running, memory, gc, -, -, -, rfl⟩ := addGarbage_eq stepped
      rfl
  | recordDone address =>
      obtain ⟨task, memory, cache, -, -, rfl⟩ := recordDone_eq stepped
      rfl
  | destroy =>
      obtain ⟨-, memory, -, rfl⟩ := destroy_eq stepped
      rfl
  | start | join | joinWoken | joinSync | joinExit | joinReturn | enterLoop | spuriousWakeup
  | signalAwaitJoin =>
      obtain ⟨-, ⟨⟩⟩ := Option.ite_none_right_eq_some.mp stepped
      rfl

/-- What the creator does. -/
def isCreators : Action → Bool
  | .start | .stack _ _ | .unstack | .collect _ | .join | .joinWoken | .joinSync | .joinExit
  | .joinReturn => true
  | _ => false

theorem creator_kept {state after : State} {action : Action}
    (stepped : step state action = some after) (other : isCreators action = false) :
    after.creator = state.creator := by
  cases action with
  | start | stack address object | unstack | collect answers | join | joinWoken | joinSync
  | joinExit | joinReturn => cases other
  | enterLoop | spuriousWakeup | signalAwaitJoin =>
      obtain ⟨-, ⟨⟩⟩ := Option.ite_none_right_eq_some.mp stepped
      rfl
  | nextTask =>
      obtain ⟨-, middle, dropped, taken⟩ := nextTask_eq stepped
      have kept : middle.creator = state.creator := by
        rcases dropCollected_eq dropped with ⟨-, rfl⟩ | ⟨-, memory, cache, tasks, -, rfl⟩
        · rfl
        · rfl
      rw [← kept]
      rcases takeTask_eq taken with
        ⟨-, -, rfl⟩ | ⟨-, -, rfl⟩ | ⟨head, removal, task, -, -, -, rfl⟩
      · rfl
      · rfl
      · rfl
  | addGarbage =>
      obtain ⟨task, running, memory, gc, -, -, -, rfl⟩ := addGarbage_eq stepped
      rfl
  | recordDone address =>
      obtain ⟨task, memory, cache, -, -, rfl⟩ := recordDone_eq stepped
      rfl
  | destroy =>
      obtain ⟨-, memory, -, rfl⟩ := destroy_eq stepped
      rfl

/-- The flag that an action sets, but for `COLLECT_GARBAGE`. -/
def sets : Action → Option MonitorFlag
  | .start => some .started
  | .join => some .joined
  | .joinExit => some .exit
  | .signalAwaitJoin => some .awaitJoin
  | _ => none

theorem step_monitor {action : Action} (stepped : step state action = some after)
    {flag : MonitorFlag} (other : flag ≠ .collectGarbage) :
    after.monitor flag = (state.monitor flag || decide (sets action = some flag)) := by
  cases action with
  | stack address object =>
      obtain ⟨-, memory, queue, -, rfl⟩ := stack_eq stepped
      simp [sets]
  | unstack =>
      obtain ⟨-, removal, -, rfl⟩ := unstack_eq stepped
      simp [sets]
  | collect answers =>
      obtain ⟨memory, gc, collected, -, rfl⟩ := collect_eq stepped
      dsimp only
      split
      · simp [sets, monitorAdd, other]
      · simp [sets]
  | nextTask =>
      obtain ⟨-, middle, dropped, taken⟩ := nextTask_eq stepped
      have kept : middle.monitor flag = state.monitor flag := by
        rcases dropCollected_eq dropped with ⟨-, rfl⟩ | ⟨-, memory, cache, tasks, -, rfl⟩
        · rfl
        · exact Function.update_of_ne other _ _
      rw [← kept]
      rcases takeTask_eq taken with
        ⟨-, -, rfl⟩ | ⟨-, -, rfl⟩ | ⟨head, removal, task, -, -, -, rfl⟩
      · simp [sets]
      · simp [sets]
      · simp [sets]
  | addGarbage =>
      obtain ⟨task, running, memory, gc, -, -, -, rfl⟩ := addGarbage_eq stepped
      simp [sets]
  | recordDone address =>
      obtain ⟨task, memory, cache, -, -, rfl⟩ := recordDone_eq stepped
      simp [sets]
  | destroy =>
      obtain ⟨-, memory, -, rfl⟩ := destroy_eq stepped
      simp [sets]
  | joinWoken | joinSync | joinReturn | enterLoop | spuriousWakeup =>
      obtain ⟨-, ⟨⟩⟩ := Option.ite_none_right_eq_some.mp stepped
      simp [sets]
  | start | join | joinExit | signalAwaitJoin =>
      obtain ⟨-, ⟨⟩⟩ := Option.ite_none_right_eq_some.mp stepped
      cases flag <;> simp [sets, monitorAdd]

/-- What moves no task into or out of the worker keeps all of them in their places. -/
theorem step_stackedTasks_eq {action : Action} (consistent : Consistent state)
    (stepped : step state action = some after)
    (notStack : ∀ address object, action ≠ .stack address object) (notUnstack : action ≠ .unstack) :
    after.stackedTasks = state.stackedTasks := by
  cases action with
  | stack address object => exact absurd rfl (notStack address object)
  | unstack => exact absurd rfl notUnstack
  | collect answers => exact collect_stackedTasks consistent stepped
  | nextTask => exact nextTask_stackedTasks consistent stepped
  | addGarbage => exact addGarbage_stackedTasks consistent stepped
  | recordDone address => exact recordDone_stackedTasks consistent stepped
  | destroy => exact destroy_stackedTasks consistent stepped
  | start | join | joinWoken | joinSync | joinExit | joinReturn | enterLoop | spuriousWakeup
  | signalAwaitJoin =>
      obtain ⟨-, ⟨⟩⟩ := Option.ite_none_right_eq_some.mp stepped
      rfl

theorem stack_orderedTasks (consistent : Consistent state) {address object : Nat}
    (stepped : step state (.stack address object) = some after) :
    after.orderedTasks = state.orderedTasks ++ [⟨object, state.history.stacked⟩] := by
  obtain ⟨places, layout, -⟩ := consistent
  obtain ⟨-, memory, queue, pushed, rfl⟩ := stack_eq stepped
  cases fresh : state.memory address with
  | some cell => simp [queuePushNew, queueItemNew, fresh] at pushed
  | none =>
      obtain ⟨newMemory, newQueue, pushedHere, laid⟩ :=
        queuePushNew_layout layout fresh ⟨object, state.history.stacked⟩
      rw [pushedHere] at pushed
      cases pushed
      have queued := (laid state.worker Iff.rfl).queue.contents_eq
      rw [orderedTasks_eq layout]
      simp only [State.orderedTasks, queued, List.map_append, List.map_cons, List.map_nil,
        List.append_assoc]

theorem unstack_orderedTasks (consistent : Consistent state)
    (stepped : step state .unstack = some after) :
    after.orderedTasks.Sublist state.orderedTasks := by
  obtain ⟨places, layout, -⟩ := consistent
  obtain ⟨-, removal, shifted, rfl⟩ := unstack_eq stepped
  rw [orderedTasks_eq layout]
  cases first : places.queue with
  | nil =>
      have represented := layout.queue
      rw [first] at represented
      rw [queueShift_empty represented] at shifted
      cases shifted
      simp only [State.orderedTasks, represented.contents_eq]
      exact List.Sublist.refl _
  | cons item rest =>
      obtain ⟨taken, shiftedHere, -, laid⟩ := queueShift_layout layout first
      rw [shiftedHere] at shifted
      cases shifted
      simp only [State.orderedTasks, laid.queue.contents_eq]
      apply List.Sublist.append_left
      exact List.sublist_cons_self _ _

/-- No action brings the tasks out of order. -/
theorem step_orderedTasks {action : Action} (consistent : Consistent state)
    (stepped : step state action = some after) :
    after.orderedTasks.Sublist (state.orderedTasks ++ stackedBy state action) := by
  by_cases adds : ∃ address object, action = .stack address object
  · obtain ⟨address, object, rfl⟩ := adds
    rw [stack_orderedTasks consistent stepped]
    exact List.Sublist.refl _
  have nothing : stackedBy state action = [] := by
    cases action with
    | stack address object => exact absurd ⟨address, object, rfl⟩ adds
    | _ => rfl
  rw [nothing, List.append_nil]
  by_cases takes : action = .unstack
  · subst takes
    exact unstack_orderedTasks consistent stepped
  · have tasks : after.orderedTasks ++ after.history.unstacked =
        state.orderedTasks ++ state.history.unstacked :=
      step_stackedTasks_eq consistent stepped
        (fun address object equal => adds ⟨address, object, equal⟩) takes
    rw [step_unstacked stepped takes] at tasks
    rw [List.append_cancel_right tasks]

end Order

end Pthreads.WorkerTasks

namespace Pthreads.TaskExecution

open WorkerTasks (Task)

/-- The tasks are started in the order of their `stack` calls, and `run` is called in
the order in which they are started. -/
structure InOrder (state : State) : Prop where
  ordered : state.worker.orderedTasks.Sublist state.stacked
  called : (state.called ++ state.undecided).Sublist state.worker.history.started

theorem inOrder_initial : InOrder initial := by
  constructor
  · exact List.Sublist.refl _
  · exact List.Sublist.refl _

section Order

variable {definesRun : Nat → Bool} {state after : State}

theorem worker_inOrder {action : WorkerTasks.Action} (executes : Executes definesRun state)
    (inOrder : InOrder state) (stepped : step definesRun state (.worker action) = some after) :
    InOrder after := by
  obtain ⟨turn, worker, moved, rfl⟩ := step_worker_cases stepped
  have ordered : worker.orderedTasks.Sublist
      (state.stacked ++ WorkerTasks.stackedBy state.worker action) :=
    (WorkerTasks.step_orderedTasks executes.consistent moved).trans
      (inOrder.ordered.append_right _)
  have called := inOrder.called
  apply InOrder.mk ordered
  by_cases taking : action = .nextTask
  · subst taking
    obtain ⟨idle, started⟩ := WorkerTasks.nextTask_executes moved
    have outside := executes.outside idle
    rw [State.undecided, outside, if_neg (by simp), List.append_nil] at called
    dsimp only
    rw [started]
    by_cases nothing : worker.worker.executed = []
    · simpa [State.undecided, phaseAfter, nothing, outside] using called
    · simpa [State.undecided, phaseAfter, nothing] using called.append_right worker.worker.executed
  · have started := WorkerTasks.step_started moved taking
    dsimp only
    rw [started]
    by_cases dropping : action = .addGarbage
    · subst dropping
      have returned : state.phase = .returned := by simpa [inTurn] using turn
      simpa [State.undecided, phaseAfter, returned] using called
    · have executed := WorkerTasks.step_executed moved taking dropping
      have samePhase : phaseAfter state.phase state.worker.worker.executed action =
          state.phase := by
        cases action with
        | nextTask => exact absurd rfl taking
        | addGarbage => exact absurd rfl dropping
        | _ => rfl
      simpa only [State.undecided, executed, samePhase] using called

theorem enterRun_cases (stepped : step definesRun state .enterRun = some after) :
    after.worker = state.worker ∧ after.stacked = state.stacked ∧ state.phase = .entering ∧
      (∃ task, state.worker.worker = .executing task) ∧
        (after.phase = .inside ∨ after.phase = .returned) := by
  simp only [step] at stepped
  split at stepped
  · next task phase =>
    obtain ⟨entering, ⟨⟩⟩ := Option.ite_none_right_eq_some.mp stepped
    unfold enterRun
    split
    · exact ⟨rfl, rfl, entering, ⟨task, phase⟩, Or.inr rfl⟩
    · split
      · exact ⟨rfl, rfl, entering, ⟨task, phase⟩, Or.inl rfl⟩
      · exact ⟨rfl, rfl, entering, ⟨task, phase⟩, Or.inr rfl⟩
  · cases stepped

theorem runReturns_cases {failed : Bool}
    (stepped : step definesRun state (.runReturns failed) = some after) :
    after.worker = state.worker ∧ after.stacked = state.stacked ∧ state.phase = .inside ∧
      (∃ task, state.worker.worker = .executing task) ∧ after.phase = .returned := by
  simp only [step] at stepped
  split at stepped
  · next task phase =>
    obtain ⟨inside, ⟨⟩⟩ := Option.ite_none_right_eq_some.mp stepped
    exact ⟨rfl, rfl, inside, ⟨task, phase⟩, rfl⟩
  · cases stepped

/-- Only `unstack` takes a task back. -/
theorem step_unstacked {action : Action} (stepped : step definesRun state action = some after)
    (other : action ≠ .worker .unstack) :
    after.worker.history.unstacked = state.worker.history.unstacked := by
  cases action with
  | worker action =>
      obtain ⟨-, worker, moved, rfl⟩ := step_worker_cases stepped
      apply WorkerTasks.step_unstacked moved
      intro isUnstack
      exact other (congrArg Action.worker isUnstack)
  | failsElsewhere object =>
      cases stepped
      rfl
  | runReturns failed => rw [(runReturns_cases stepped).1]
  | enterRun => rw [(enterRun_cases stepped).1]

theorem step_inOrder {action : Action} (executes : Executes definesRun state)
    (inOrder : InOrder state) (stepped : step definesRun state action = some after) :
    InOrder after := by
  cases action with
  | worker action => exact worker_inOrder executes inOrder stepped
  | failsElsewhere object =>
      cases stepped
      exact ⟨inOrder.ordered, inOrder.called⟩
  | runReturns failed =>
      simp only [step] at stepped
      split at stepped
      · next task phase =>
        obtain ⟨inside, ⟨⟩⟩ := Option.ite_none_right_eq_some.mp stepped
        have called := inOrder.called
        rw [State.undecided, inside, if_neg (by simp)] at called
        exact ⟨inOrder.ordered, called⟩
      · cases stepped
  | enterRun =>
      simp only [step] at stepped
      split at stepped
      · next task phase =>
        obtain ⟨entering, ⟨⟩⟩ := Option.ite_none_right_eq_some.mp stepped
        have called := inOrder.called
        simp only [State.undecided, entering, if_true, phase,
          WorkerTasks.WorkerPhase.executed] at called
        have earlier : state.called.Sublist state.worker.history.started :=
          (List.sublist_append_left _ _).trans called
        unfold enterRun
        split
        · exact ⟨inOrder.ordered, by simpa [State.undecided] using earlier⟩
        · split
          · exact ⟨inOrder.ordered, by simpa [State.undecided] using called⟩
          · exact ⟨inOrder.ordered, by simpa [State.undecided] using earlier⟩
      · cases stepped

/-- Without `unstack`, the started and the queued tasks are the stacked ones. -/
theorem InOrder.all (inOrder : InOrder state) (executes : Executes definesRun state)
    (kept : state.worker.history.unstacked = []) :
    state.worker.orderedTasks = state.stacked := by
  apply inOrder.ordered.eq_of_length
  have lengths := executes.stacked.length_eq
  simpa [WorkerTasks.State.stackedTasks, kept, WorkerTasks.State.orderedTasks] using lengths

end Order

end Pthreads.TaskExecution
