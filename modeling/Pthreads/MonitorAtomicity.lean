import Pthreads.ObjectMonitors
import Pthreads.WorkerTasks

/-!
# Monitors as sets of flags

Where threads, workers and tasks are modelled, a monitor is a set of flags that are
added, removed and waited for in one step.  Threads that run the functions of
`src/monitor.c` command by command change the flags in no other way.
-/

namespace Pthreads.ObjectMonitors

open GuardedRuns ConditionMonitors Relation
open WorkerTasks (MonitorFlag MonitorState monitorAdd monitorRemove)

/-- The bit of `PTHREADS_MONITOR_STARTED` and of the flags after it. -/
def flagBit : MonitorFlag → Nat
  | .started => 0
  | .running => 1
  | .joined => 2
  | .error => 3
  | .ready => 4
  | .collectGarbage => 5
  | .exit => 6
  | .awaitJoin => 7

def flagState (flag : MonitorFlag) : Flags := 1 <<< flagBit flag

/-- The flags, read one by one. -/
def readFlags (value : Flags) : MonitorState := fun flag => monitorCheck (flagState flag) value

theorem flagBit_lt (flag : MonitorFlag) : flagBit flag < 64 := by
  cases flag <;> decide

theorem flagState_eq (flag : MonitorFlag) : flagState flag = BitVec.twoPow 64 (flagBit flag) := by
  cases flag <;> decide

theorem readFlags_apply (value : Flags) (flag : MonitorFlag) :
    readFlags value flag = value.getLsbD (flagBit flag) := by
  rw [readFlags, monitorCheck, flagState_eq, BitVec.and_twoPow]
  by_cases isSet : value.getLsbD (flagBit flag) = true
  · have nonzero : BitVec.twoPow 64 (flagBit flag) ≠ 0#64 := by
      rw [← flagState_eq]
      cases flag <;> decide
    simp [isSet, nonzero]
  · simp [isSet]

theorem getLsbD_flagState (flag other : MonitorFlag) :
    (flagState flag).getLsbD (flagBit other) = decide (flag = other) := by
  cases flag <;> cases other <;> decide

theorem readFlags_add (value : Flags) (flag : MonitorFlag) :
    readFlags (value ||| flagState flag) = monitorAdd (readFlags value) flag := by
  funext other
  rw [readFlags_apply, BitVec.getLsbD_or, getLsbD_flagState, monitorAdd]
  by_cases same : other = flag
  · subst same
    simp
  · simp [readFlags_apply, same, Ne.symm same]

theorem readFlags_remove (value : Flags) (flag : MonitorFlag) :
    readFlags (value &&& ~~~flagState flag) = monitorRemove (readFlags value) flag := by
  funext other
  rw [readFlags_apply, BitVec.getLsbD_and, BitVec.getLsbD_not, getLsbD_flagState, monitorRemove]
  by_cases same : other = flag
  · subst same
    simp
  · simp [readFlags_apply, same, Ne.symm same, flagBit_lt]

/-- One flag is added or removed at a time. -/
def Changes (before after : MonitorState) : Prop :=
  ∃ flag, after = monitorAdd before flag ∨ after = monitorRemove before flag

/-- The program changes single flags only. -/
def NamesFlags (program : List (Command Flags)) : Prop :=
  ∀ update, .change update ∈ program →
    ∃ flag, update = (· ||| flagState flag) ∨ update = (· &&& ~~~flagState flag)

/-- The extension passes one of its constants to the functions of the monitor. -/
def namedFlags (_ : State Flags) : Action → Prop
  | .begin _ calls => NamesFlags (commandsAll calls)
  | _ => True

section Runs

variable {value : Flags} {state after : State Flags} {action : Action}

theorem NamesFlags.suffix {program rest : List (Command Flags)} (names : NamesFlags program)
    (shorter : rest <:+ program) : NamesFlags rest :=
  fun update isIn => names update (shorter.subset isIn)

theorem step_namesFlags (names : ∀ thread, NamesFlags (state.remaining thread))
    (named : namedFlags state action) (stepped : step state action = some after) (thread : Nat) :
    NamesFlags (after.remaining thread) := by
  cases action with
  | begin mover calls =>
      obtain ⟨-, ⟨⟩⟩ := Option.ite_none_right_eq_some.mp stepped
      by_cases same : thread = mover
      · subst same
        rw [State.remaining_proceed_self]
        exact named
      · rw [State.remaining_proceed_of_ne same]
        exact names thread
  | run mover chosen =>
      obtain ⟨-, ran⟩ := Option.ite_none_right_eq_some.mp stepped
      by_cases same : thread = mover
      · subst same
        exact (names thread).suffix (runCommand_suffix ran)
      · rw [runCommand_remaining same ran]
        exact names thread
  | awaken mover =>
      obtain ⟨-, ⟨⟩⟩ := Option.ite_none_right_eq_some.mp stepped
      exact names thread
  | reacquire mover =>
      obtain ⟨-, ⟨⟩⟩ := Option.ite_none_right_eq_some.mp stepped
      by_cases same : thread = mover
      · subst same
        have shorter := (names thread).suffix (suffix_afterSleep (state.remaining thread))
        simpa [State.proceed] using shorter
      · simpa [State.proceed, State.take, same] using names thread

/-- A step of the threads is one change of the flags or none. -/
theorem step_changes (names : ∀ thread, NamesFlags (state.remaining thread))
    (stepped : step state action = some after) :
    after.value = state.value ∨ Changes (readFlags state.value) (readFlags after.value) := by
  cases action with
  | begin mover calls =>
      obtain ⟨-, ⟨⟩⟩ := Option.ite_none_right_eq_some.mp stepped
      exact Or.inl rfl
  | run mover chosen =>
      obtain ⟨-, ran⟩ := Option.ite_none_right_eq_some.mp stepped
      by_cases changes : ∃ update rest, state.remaining mover = .change update :: rest
      · obtain ⟨update, rest, program⟩ := changes
        have isIn : .change update ∈ state.remaining mover := by simp [program]
        rw [runCommand, program] at ran
        cases ran
        obtain ⟨flag, rfl | rfl⟩ := names mover update isIn
        · exact Or.inr ⟨flag, Or.inl (readFlags_add state.value flag)⟩
        · exact Or.inr ⟨flag, Or.inr (readFlags_remove state.value flag)⟩
      · apply Or.inl
        apply runCommand_value ran
        intro update rest program
        exact changes ⟨update, rest, program⟩
  | awaken mover =>
      obtain ⟨-, ⟨⟩⟩ := Option.ite_none_right_eq_some.mp stepped
      exact Or.inl rfl
  | reacquire mover =>
      obtain ⟨-, ⟨⟩⟩ := Option.ite_none_right_eq_some.mp stepped
      exact Or.inl rfl

theorem flags_of_reaches (reached : Reaches step namedFlags (initial value) state) :
    (∀ thread, NamesFlags (state.remaining thread)) ∧
      ReflTransGen Changes (readFlags value) (readFlags state.value) := by
  induction reached with
  | refl =>
      constructor
      · intro thread update isIn
        cases isIn
      · exact ReflTransGen.refl
  | tail _ moved ih =>
      obtain ⟨names, changed⟩ := ih
      obtain ⟨action, named, stepped⟩ := moved
      constructor
      · exact step_namesFlags names named stepped
      · rcases step_changes names stepped with same | changes
        · rw [same]
          exact changed
        · exact changed.tail changes

/-- A thread moves on from `pthreads_monitor_wait_until` only while it has the monitor
and the flag is set. -/
theorem run_waitUntil {thread chosen : Nat} {wanted : Flags} {rest : List (Command Flags)}
    (settled : Settled state)
    (waits : state.remaining thread = .waitUntil (monitorCheck wanted) :: rest)
    (stepped : step state (.run thread chosen) = some after)
    (moved : after.remaining thread = rest) :
    monitorCheck wanted state.value = true ∧ after.holder = some thread := by
  obtain ⟨awake, ran⟩ := Option.ite_none_right_eq_some.mp stepped
  have level := settled.level thread
  rw [waits] at level
  have isHolder := settled.holder_eq awake rfl level.1
  rw [runCommand, waits] at ran
  dsimp only at ran
  split at ran <;> cases ran
  · next isReady => exact ⟨isReady.resolve_right (not_not.mpr isHolder), isHolder⟩
  · -- a thread that sleeps has not moved on
    have same : .waitUntil (monitorCheck wanted) :: rest = rest := waits.symm.trans moved
    exact absurd same (List.cons_ne_self _ _)

/-- Threads on a monitor refine a set of flags that are added and removed one at a time,
and `pthreads_monitor_wait_until` returns in a state of it where the flag is set. -/
theorem monitor_refines_flags (reached : Reaches step namedFlags (initial value) state) :
    ReflTransGen Changes (readFlags value) (readFlags state.value) ∧
      ∀ thread chosen flag rest after,
        state.remaining thread = .waitUntil (monitorCheck (flagState flag)) :: rest →
          step state (.run thread chosen) = some after → after.remaining thread = rest →
            readFlags state.value flag = true ∧ after.holder = some thread := by
  constructor
  · exact (flags_of_reaches reached).2
  · intro thread chosen flag rest after waits stepped moved
    have unrestricted := reached.weaken fun _ _ _ => trivial
    exact run_waitUntil (consistent_of_reaches unrestricted).1 waits stepped moved

/-- The creator adds a flag, and thread 2 waits for it and removes it. -/
def addThenRemove : List Action :=
  [.begin 1 [.monitorAdd (flagState .joined)], .run 1 0, .run 1 0, .run 1 0, .run 1 0,
    .begin 2 [.monitorWaitUntil (flagState .joined), .monitorRemove (flagState .joined)], .run 2 0]

theorem monitor_refines_flags_addThenRemove :
    ∃ state, execute step (initial 0) addThenRemove = some state ∧
      ∃ after, step state (.run 2 0) = some after ∧ readFlags state.value .joined = true ∧
        after.holder = some 2 := by
  have admitted : Admits step namedFlags (initial 0) addThenRemove := by
    refine ⟨?_, trivial, trivial, trivial, trivial, ?_, trivial, trivial⟩
    · intro update isIn
      simp [commandsAll, commands] at isIn
      exact ⟨.joined, Or.inl isIn⟩
    · intro update isIn
      simp [commandsAll, commands] at isIn
      exact ⟨.joined, Or.inr isIn⟩
  have reached := reaches_of_execute admitted rfl
  exact ⟨_, rfl, _, rfl, (monitor_refines_flags reached).2 2 0 .joined _ _ rfl rfl rfl⟩

end Runs

end Pthreads.ObjectMonitors
