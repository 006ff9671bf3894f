import Pthreads.PoolTasks
import Pthreads.WorkerProgress
import Mathlib.Algebra.Order.BigOperators.Group.Finset

/-!
# The methods of a pool return

The creator is in one call on one worker at a time, and only `shutdown` waits, for the
worker that it is called on.  What a run lowers is first what the creator has left to do
in the current method, and then what all the workers have left to do until they wait or
end.
-/

namespace Pthreads.PoolTasks

open GuardedRuns LinkedCells
open PoolWorkers (Pool Call)
open TaskExecution (Lively onThread joinRank isJoining)

/-- The method goes on, and so do the workers, without spurious wakeups. -/
def goesOn (_ : State) : Action → Prop
  | .thread _ action => onThread action = true
  | _ => True

/-- How much of a call is left. -/
def callRank (creator : WorkerTasks.CreatorPhase) : Nat :=
  if creator = .free then 5 else joinRank creator

/-- How much the creator has to do until the current method returns. -/
def State.creatorRank (state : State) : Nat :=
  match state.pending with
  | [] => 0
  | (worker, _) :: rest => 5 * rest.length + callRank (state.machines worker).worker.creator

/-- How much all the workers have to do until they wait or end. -/
def State.workersRank (state : State) : Nat :=
  ∑ worker ∈ Finset.range state.pool.made, (state.machines worker).rank

theorem callRank_bounds (creator : WorkerTasks.CreatorPhase) :
    0 < callRank creator ∧ callRank creator ≤ 5 := by
  cases creator <;> decide

/-- What is left of a method is less than what is left before its first call. -/
theorem creatorRank_le (state : State) : state.creatorRank ≤ 5 * state.pending.length := by
  unfold State.creatorRank
  split
  · exact Nat.zero_le _
  · next worker call rest pending =>
    have bounds := (callRank_bounds (state.machines worker).worker.creator).2
    rw [pending, List.length_cons]
    omega

section Workers

variable {definesRun : Nat → Bool} {machines : Nat → TaskExecution.State}
  {machine after : TaskExecution.State} {worker other : Nat}

theorem lively_withErrors (lively : Lively definesRun machine) {error : Nat → Bool}
    (grows : ∀ object, machine.error object = true → error object = true) :
    Lively definesRun (withErrors error machine) where
  executes :=
    { lively.executes with
      reason := fun task isIn => (lively.executes.reason task isIn).imp_left (grows task.object) }
  undisturbed := lively.undisturbed
  flagged := lively.flagged
  bounded := lively.bounded
  inside := lively.inside

theorem advance_lively (lively : ∀ other, Lively definesRun (machines other))
    (errors : ∀ first second, (machines first).error = (machines second).error)
    {action : TaskExecution.Action}
    (stepped : TaskExecution.step definesRun (machines worker) action = some after)
    (other : Nat) : Lively definesRun (advance machines worker after other) := by
  by_cases same : other = worker
  · subst same
    rw [advance_same]
    exact TaskExecution.step_lively (lively other) stepped
  · have grows : ∀ object, (machines other).error object = true →
        after.error object = true := by
      intro object failed
      rw [errors other worker] at failed
      exact error_grows stepped failed
    simpa [advance, same] using lively_withErrors (lively other) grows

@[simp]
theorem rank_advance_other (different : other ≠ worker) :
    (advance machines worker after other).rank = (machines other).rank := by
  simp [advance, withErrors, different, TaskExecution.State.rank]

/-- A worker whose thread goes on has been started. -/
theorem onThread_begun {action : TaskExecution.Action} (own : onThread action = true)
    (stepped : TaskExecution.step definesRun machine action = some after) :
    machine.worker.worker ≠ .unstarted := by
  intro unstarted
  cases action with
  | failsElsewhere object => cases own
  | enterRun | runReturns failed => simp [TaskExecution.step, unstarted] at stepped
  | worker action =>
      obtain ⟨-, next, moved, rfl⟩ := TaskExecution.step_worker_cases stepped
      cases action with
      | start | stack address object | unstack | collect answers | join | joinWoken | joinSync
      | joinExit | joinReturn | spuriousWakeup => cases own
      | enterLoop | nextTask | addGarbage | recordDone address | signalAwaitJoin | destroy =>
          simp [WorkerTasks.step, unstarted] at moved

theorem elsewhere_of_onThread {action : TaskExecution.Action} (own : onThread action = true) :
    elsewhere action = true := by
  cases action with
  | enterRun | runReturns failed | failsElsewhere object => rfl
  | worker action => cases action <;> first | rfl | cases own

theorem performs_of_isJoining {action : WorkerTasks.Action} (isJoin : isJoining action = true) :
    performs .shutdown action = true := by
  cases action <;> first | rfl | cases isJoin

theorem performs_isCreators {call : Call} {action : WorkerTasks.Action}
    (performing : performs call action = true) : WorkerTasks.isCreators action = true := by
  cases action <;> first | rfl | (cases call <;> cases performing)

end Workers

section Progress

variable {classExists : String → Bool} {definesRun : Nat → Bool} {state after : State}

structure Underway (definesRun : Nat → Bool) (state : State) : Prop where
  served : Served definesRun state
  lively : ∀ worker, Lively definesRun (state.machines worker)

theorem step_underway {action : Action} (underway : Underway definesRun state)
    (stepped : step classExists definesRun state action = some after) :
    Underway definesRun after := by
  refine ⟨step_served underway.served stepped, ?_⟩
  have errors := underway.served.together.errors
  cases action with
  | method action =>
      obtain ⟨-, called⟩ := Option.ite_none_right_eq_some.mp stepped
      obtain ⟨pool, -, rfl⟩ := Option.map_eq_some_iff.mp called
      exact underway.lively
  | thread worker action =>
      obtain ⟨-, moving⟩ := Option.ite_none_right_eq_some.mp stepped
      obtain ⟨machine, moved, rfl⟩ := Option.map_eq_some_iff.mp moving
      exact advance_lively underway.lively errors moved
  | creator action =>
      simp only [step] at stepped
      split at stepped
      · cases stepped
      · obtain ⟨-, moving⟩ := Option.ite_none_right_eq_some.mp stepped
        obtain ⟨machine, moved, rfl⟩ := Option.map_eq_some_iff.mp moving
        exact advance_lively underway.lively errors moved

theorem underway_of_reaches {size : Int} {className : String}
    (reached : Reaches (step classExists definesRun) anyAction (starting size className) state) :
    Underway definesRun state :=
  reached.preserves (fun _ _ _ underway _ stepped => step_underway underway stepped)
    ⟨served_starting definesRun size className,
      fun _ => TaskExecution.lively_initial definesRun⟩

/-- The creator can begin every call. -/
theorem call_begins (underway : Underway definesRun state) {worker : Nat} {call : Call}
    {rest : List (Nat × Call)} (pending : state.pending = (worker, call) :: rest)
    (free : (state.machines worker).worker.creator = .free) :
    ∃ action machine, performs call action = true ∧
      TaskExecution.step definesRun (state.machines worker) (.worker action) = some machine := by
  obtain ⟨performed, done⟩ := underway.served.performed
  have lively := underway.lively worker
  have consistent := lively.executes.consistent
  have isFree : (state.machines worker).worker.creatorFree = true := decide_eq_true free
  have first : call = .start ↔ (worker, .start) ∉ performed := by
    apply underway.served.isSealed.startFirst performed worker call rest
    rw [done.calls, pending]
  cases call with
  | start =>
      have unstarted : (state.machines worker).worker.worker = .unstarted := by
        by_contra isStarted
        exact first.mp rfl ((done.started worker).mp (lively.flagged.started.mpr isStarted))
      obtain ⟨machine, stepped⟩ := @TaskExecution.worker_enabled definesRun
        (state.machines worker) .start _ rfl (if_pos ⟨isFree, unstarted⟩)
      exact ⟨.start, machine, rfl, stepped⟩
  | stack task =>
      obtain ⟨address, unused⟩ := lively.bounded.exists_free
      obtain ⟨next, moved⟩ := WorkerTasks.stack_enabled consistent free unused task
      obtain ⟨machine, stepped⟩ := @TaskExecution.worker_enabled definesRun _ _ _ rfl moved
      exact ⟨.stack address task, machine, decide_eq_true rfl, stepped⟩
  | collect =>
      obtain ⟨next, moved⟩ := WorkerTasks.collect_enabled consistent free fun _ => true
      obtain ⟨machine, stepped⟩ := @TaskExecution.worker_enabled definesRun _ _ _ rfl moved
      exact ⟨_, machine, rfl, stepped⟩
  | shutdown =>
      have started : (state.machines worker).worker.monitor .started = true := by
        apply (done.started worker).mpr
        by_contra notStarted
        cases first.mpr notStarted
      have notJoined : ¬ (state.machines worker).worker.monitor .joined = true := by
        intro isSet
        rcases done.joined worker isSet with busy | isShut
        · exact busy free
        · exact underway.served.not_finished done (pending ▸ List.mem_cons_self) isShut
      obtain ⟨machine, stepped⟩ := @TaskExecution.worker_enabled definesRun
        (state.machines worker) .join _ rfl (if_pos ⟨isFree, started, notJoined⟩)
      exact ⟨.join, machine, rfl, stepped⟩

/-- A method that has not returned is never stuck. -/
theorem method_goes_on (underway : Underway definesRun state) (busy : state.pending ≠ []) :
    ∃ action after, goesOn state action ∧
      step classExists definesRun state action = some after := by
  obtain ⟨⟨worker, call⟩, rest, pending⟩ := List.exists_cons_of_ne_nil busy
  have byCreator : ∀ {action machine}, performs call action = true →
      TaskExecution.step definesRun (state.machines worker) (.worker action) = some machine →
        ∃ action after, goesOn state action ∧
          step classExists definesRun state action = some after := by
    intro action machine performing moved
    exact ⟨.creator action, _, trivial, by
      simp only [step, pending, if_pos performing, moved, Option.map_some]; rfl⟩
  by_cases free : (state.machines worker).worker.creator = .free
  · obtain ⟨action, machine, performing, moved⟩ := call_begins underway pending free
    exact byCreator performing moved
  · obtain ⟨performed, done⟩ := underway.served.performed
    obtain ⟨later, isHead⟩ := done.busy worker free
    have isShutdown : call = .shutdown := by
      rw [pending] at isHead
      exact (Prod.mk.inj (List.cons.inj isHead).1).2
    rcases TaskExecution.joining_enabled (underway.lively worker) free with
      ⟨action, machine, own, moved⟩ | ⟨action, machine, isJoin, moved⟩
    · exact ⟨.thread worker action, _, own, by
        simp only [step, if_pos (elsewhere_of_onThread own), moved, Option.map_some]; rfl⟩
    · exact byCreator (isShutdown ▸ performs_of_isJoining isJoin) moved

/-- Whatever the creator does brings the method closer to its end. -/
theorem creator_lowers {action : WorkerTasks.Action}
    (stepped : step classExists definesRun state (.creator action) = some after) :
    after.creatorRank < state.creatorRank := by
  simp only [step] at stepped
  split at stepped
  · cases stepped
  · next worker call rest pending =>
    obtain ⟨performing, moving⟩ := Option.ite_none_right_eq_some.mp stepped
    obtain ⟨machine, moved, rfl⟩ := Option.map_eq_some_iff.mp moving
    have before : state.creatorRank =
        5 * rest.length + callRank (state.machines worker).worker.creator := by
      simp only [State.creatorRank, pending]
    rw [before]
    cases isOver : completes action with
    | true =>
        rw [if_pos rfl]
        apply Nat.lt_of_le_of_lt (creatorRank_le _)
        have positive := (callRank_bounds (state.machines worker).worker.creator).1
        dsimp only
        omega
    | false =>
        have isShutdown : call = .shutdown := by
          by_contra other
          have finished := (performs_at_once performing other moved).1
          rw [isOver] at finished
          cases finished
        subst isShutdown
        have joining := (performs_shutdown performing moved).2.2.2 isOver
        rw [if_neg (by simp)]
        simp only [State.creatorRank, pending, advance_same]
        apply Nat.add_lt_add_left
        by_cases free : (state.machines worker).worker.creator = .free
        · simp only [callRank, if_neg joining, if_pos free]
          generalize machine.worker.creator = creator
          cases creator <;> decide
        · obtain ⟨-, next, next_moved, rfl⟩ := TaskExecution.step_worker_cases moved
          simp only [callRank, if_neg joining, if_neg free]
          exact (TaskExecution.joining_lowers free (performs_isCreators performing) next_moved).1

/-- What the thread of a worker does leaves the creator where it is. -/
theorem thread_lowers (underway : Underway definesRun state) {worker : Nat}
    {action : TaskExecution.Action} (own : onThread action = true)
    (stepped : step classExists definesRun state (.thread worker action) = some after) :
    after.creatorRank = state.creatorRank ∧ after.workersRank < state.workersRank := by
  obtain ⟨-, moving⟩ := Option.ite_none_right_eq_some.mp stepped
  obtain ⟨machine, moved, rfl⟩ := Option.map_eq_some_iff.mp moving
  have lively := underway.lively worker
  obtain ⟨performed, done⟩ := underway.served.performed
  have creator : ∀ other, (advance state.machines worker machine other).worker.creator =
      (state.machines other).worker.creator := by
    intro other
    by_cases same : other = worker
    · rw [same, advance_same, TaskExecution.onThread_creator own moved]
    · rw [advance_worker_other same]
  constructor
  · simp only [State.creatorRank, creator]
  · have isMade : worker < state.pool.made := by
      have isStarted := lively.flagged.started.mpr (onThread_begun own moved)
      apply underway.served.isSealed.made (worker, .start)
      rw [done.calls]
      exact List.mem_append_left _ ((done.started worker).mp isStarted)
    have lowered := TaskExecution.onThread_lowers lively.executes own moved
    apply Finset.sum_lt_sum
    · intro other _
      dsimp only
      by_cases same : other = worker
      · rw [same, advance_same]
        exact Nat.le_of_lt lowered
      · rw [rank_advance_other same]
    · exact ⟨worker, Finset.mem_range.mpr isMade, by
        simpa only [advance_same] using lowered⟩

end Progress

end Pthreads.PoolTasks
