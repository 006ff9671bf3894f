import Pthreads.MonitorAnnouncements

/-!
# The monitor of an object

Every shared object has a monitor: a set of flags, a recursive mutex and a condition.
Threads call the functions of `src/monitor.c` on it, alone or inside
`ThreadedBase::synchronized` and the other functions that lock it around what they do.
-/

namespace Pthreads.ObjectMonitors

open GuardedRuns ConditionMonitors

/-- `pthreads_monitor_state_t`. -/
abbrev Flags := BitVec 64

/-- What a thread does with a monitor. -/
inductive Call where
  | monitorAdd (state : Flags)
  | monitorRemove (state : Flags)
  | monitorWaitUntil (state : Flags)
  /-- `ThreadedBase::wait`, with or without a timeout. -/
  | wait
  | notify
  | notifyOne
  /-- `ThreadedBase::synchronized`, or another function that locks the monitor. -/
  | synchronized (inside : List Call)

/-- `pthreads_monitor_check`. -/
def monitorCheck (state : Flags) (value : Flags) : Bool :=
  value &&& state != 0

mutual

/-- The commands of a call. -/
def commands : Call → List (Command Flags)
  | .monitorAdd state => [.lock, .change (· ||| state), .broadcast, .unlock]
  | .monitorRemove state => [.lock, .change (· &&& ~~~state), .broadcast, .unlock]
  | .monitorWaitUntil state => [.lock, .waitUntil (monitorCheck state), .unlock]
  | .wait => [.wait]
  | .notify => [.broadcast]
  | .notifyOne => [.signal]
  | .synchronized inside => .lock :: commandsAll inside ++ [.unlock]

def commandsAll : List Call → List (Command Flags)
  | [] => []
  | call :: calls => commands call ++ commandsAll calls

end

/-- `pthreads_join`, after its checks and before `pthread_join`. -/
def join : List Call :=
  [.monitorAdd (1 <<< 2), .monitorWaitUntil (1 <<< 7), .synchronized [], .monitorAdd (1 <<< 6)]

inductive Action where
  | begin (thread : Nat) (calls : List Call)
  | run (thread chosen : Nat)
  | awaken (thread : Nat)
  | reacquire (thread : Nat)

def Action.onMonitor : Action → ConditionMonitors.Action Flags
  | .begin thread calls => .begin thread (commandsAll calls)
  | .run thread chosen => .run thread chosen
  | .awaken thread => .awaken thread
  | .reacquire thread => .reacquire thread

def step (state : State Flags) (action : Action) : Option (State Flags) :=
  ConditionMonitors.step state action.onMonitor

mutual

theorem bracketed_commands (call : Call) (level : Nat) {rest : List (Command Flags)}
    (bracketed : Bracketed level rest) : Bracketed level (commands call ++ rest) := by
  cases call with
  | monitorAdd state => simpa [commands, Bracketed] using bracketed
  | monitorRemove state => simpa [commands, Bracketed] using bracketed
  | monitorWaitUntil state => simpa [commands, Bracketed] using bracketed
  | wait => exact bracketed
  | notify => exact bracketed
  | notifyOne => exact bracketed
  | synchronized inside =>
      have released : Bracketed (level + 1) (.unlock :: rest) := ⟨Nat.succ_pos level, bracketed⟩
      have whole := bracketed_commandsAll inside (level + 1) released
      simpa [commands, Bracketed] using whole

theorem bracketed_commandsAll (calls : List Call) (level : Nat) {rest : List (Command Flags)}
    (bracketed : Bracketed level rest) : Bracketed level (commandsAll calls ++ rest) := by
  cases calls with
  | nil => exact bracketed
  | cons call calls =>
      have others := bracketed_commandsAll calls level bracketed
      have whole := bracketed_commands call level others
      simpa [commandsAll] using whole

end

theorem disciplined_onMonitor (state : State Flags) (action : Action) :
    Disciplined state action.onMonitor := by
  cases action with
  | begin thread calls =>
      have nothing : Bracketed 0 ([] : List (Command Flags)) := rfl
      have whole := bracketed_commandsAll calls 0 nothing
      rwa [List.append_nil] at whole
  | run | awaken | reacquire => trivial

section Runs

variable {value : Flags} {state : State Flags}

theorem consistent_of_reaches (reached : Reaches step anyAction (initial value) state) :
    Settled state ∧ Heard state := by
  have keeps : ∀ before action after, Settled before ∧ Heard before → anyAction before action →
      step before action = some after → Settled after ∧ Heard after := by
    intro before action after ⟨settled, heard⟩ _ stepped
    constructor
    · exact step_settled settled (disciplined_onMonitor before action) stepped
    · exact step_heard settled heard stepped
  exact reached.preserves keeps ⟨settled_initial value, heard_initial value⟩

/-- A thread that has awakened while the monitor is free and its flag is set goes on. -/
theorem goes_on {thread : Nat} {wanted : Flags} {rest : List (Command Flags)}
    (awakened : state.phase thread = .awakened) (isFree : state.holder = none)
    (waits : state.remaining thread = .waitUntil (monitorCheck wanted) :: rest)
    (isSet : monitorCheck wanted state.value = true) :
    ∃ after, execute step state [.reacquire thread, .run thread 0] = some after ∧
      after.remaining thread = rest ∧ after.holder = some thread := by
  obtain ⟨woken, taken, isHolder, awake, program, value⟩ :
      ∃ woken, step state (.reacquire thread) = some woken ∧ woken.holder = some thread ∧
        woken.phase thread = .awake ∧
        woken.remaining thread = .waitUntil (monitorCheck wanted) :: rest ∧
        woken.value = state.value := by
    refine ⟨_, if_pos ⟨awakened, Or.inl isFree⟩, rfl, Function.update_self _ _ _, ?_, rfl⟩
    simp [State.proceed, waits, afterSleep]
  have passed : step woken (.run thread 0) = some (woken.proceed thread rest) := by
    simp [step, Action.onMonitor, ConditionMonitors.step, runCommand, awake, program, value, isSet]
  refine ⟨woken.proceed thread rest, ?_, State.remaining_proceed_self _ _ _, isHolder⟩
  simp only [execute, taken, passed]

/-- A thread that sleeps in `pthreads_monitor_wait_until` with its flag set is about to
be awakened, and once the monitor is free it needs no other thread to go on. -/
theorem flag_not_missed (reached : Reaches step anyAction (initial value) state)
    {thread : Nat} {wanted : Flags} {rest : List (Command Flags)}
    (waits : state.remaining thread = .waitUntil (monitorCheck wanted) :: rest)
    (isSet : monitorCheck wanted state.value = true) :
    (state.phase thread = .asleep → ∃ announcer, Announces state announcer) ∧
      (state.holder = none → ∃ after,
        execute step state [.reacquire thread, .run thread 0] = some after ∧
          after.remaining thread = rest ∧ after.holder = some thread) := by
  obtain ⟨settled, heard⟩ := consistent_of_reaches reached
  constructor
  · intro asleep
    exact heard thread (monitorCheck wanted) ⟨asleep, rest, waits⟩ isSet
  · intro isFree
    have level := settled.level thread
    rw [waits] at level
    apply goes_on _ isFree waits isSet
    cases phase : state.phase thread with
    | awakened => rfl
    | awake =>
        have isHolder := settled.holder_eq phase rfl level.1
        rw [isFree] at isHolder
        cases isHolder
    | asleep =>
        obtain ⟨announcer, announces⟩ := heard thread _ ⟨phase, rest, waits⟩ isSet
        have isHolder := announces.holder
        rw [isFree] at isHolder
        cases isHolder

/-- Thread 1 sleeps until the flag is set, and thread 2 sets it. -/
def waitThenAdd : List Action :=
  [.begin 1 [.monitorWaitUntil 4], .run 1 0, .run 1 0, .begin 2 [.monitorAdd 4], .run 2 0,
    .run 2 0, .run 2 0, .run 2 0]

theorem flag_not_missed_waitThenAdd :
    ∃ state, execute step (initial 0) waitThenAdd = some state ∧
      ∃ after, execute step state [.reacquire 1, .run 1 0] = some after ∧
        after.remaining 1 = [.unlock] ∧ after.holder = some 1 := by
  have reached := reaches_of_execute (admits_anyAction step (initial 0) waitThenAdd) rfl
  exact ⟨_, rfl, (flag_not_missed reached rfl (by decide)).2 rfl⟩

/-- A thread that is awake holds the monitor exactly as often as it has left to release
it, and has it to itself then. -/
theorem synchronized_exclusive (reached : Reaches step anyAction (initial value) state) :
    (∀ thread, state.phase thread = .awake →
      state.held thread = debt (state.remaining thread)) ∧
      (∀ first second, state.phase first = .awake → state.phase second = .awake →
        0 < debt (state.remaining first) → 0 < debt (state.remaining second) →
          first = second) ∧
      ∀ thread, state.remaining thread = [] → state.holder ≠ some thread := by
  obtain ⟨settled, -⟩ := consistent_of_reaches reached
  have holds : ∀ thread, state.phase thread = .awake →
      state.held thread = debt (state.remaining thread) := by
    intro thread awake
    have level := (settled.level thread).debt_eq
    rwa [State.due, if_pos awake, Nat.add_zero] at level
  have isHolder : ∀ thread, state.phase thread = .awake → 0 < debt (state.remaining thread) →
      state.holder = some thread := by
    intro thread awake inside
    rw [← holds thread awake] at inside
    by_contra notHolder
    rw [settled.held_eq_zero.mpr notHolder] at inside
    cases inside
  refine ⟨holds, ?_, ?_⟩
  · intro first second firstAwake secondAwake firstInside secondInside
    have isFirst := isHolder first firstAwake firstInside
    have isSecond := isHolder second secondAwake secondInside
    rw [isFirst, Option.some.injEq] at isSecond
    exact isSecond
  · intro thread finished
    exact (settled.awake finished).2

/-- Thread 1 waits inside a synchronized section, and thread 2 enters one meanwhile. -/
def waitAndEnter : List Action :=
  [.begin 1 [.synchronized [.wait]], .run 1 0, .run 1 0,
    .begin 2 [.synchronized [.monitorAdd 1, .notify]], .run 2 0, .run 2 0]

theorem synchronized_exclusive_waitAndEnter :
    ∃ state, execute step (initial 0) waitAndEnter = some state ∧
      state.held 2 = debt (state.remaining 2) ∧ state.held 2 = 2 := by
  have reached := reaches_of_execute (admits_anyAction step (initial 0) waitAndEnter) rfl
  exact ⟨_, rfl, (synchronized_exclusive reached).1 2 rfl, rfl⟩

/-- The thread is in a call of `pthreads_monitor_wait_until` that it began with the
monitor held, for a flag that is not set. -/
def Entangled (state : State Flags) (thread : Nat) (wanted : Flags) (rest : List (Command Flags)) :
    Prop :=
  (state.holder = some thread ∧ state.phase thread = .awake ∧
      state.remaining thread = commands (.monitorWaitUntil wanted) ++ rest ∧
      monitorCheck wanted state.value = false) ∨
    (Captured state thread (monitorCheck wanted) ∧
      state.remaining thread = .waitUntil (monitorCheck wanted) :: .unlock :: rest)

theorem step_entangled {after : State Flags} {action : Action} {thread : Nat} {wanted : Flags}
    {rest : List (Command Flags)} (settled : Settled state)
    (entangled : Entangled state thread wanted rest) (stepped : step state action = some after) :
    Entangled after thread wanted rest ∧ after.value = state.value := by
  rcases entangled with ⟨isHolder, awake, program, notSet⟩ | ⟨captured, program⟩
  · by_cases isRun : ∃ chosen, action = .run thread chosen
    · -- the thread takes the monitor once more
      obtain ⟨chosen, rfl⟩ := isRun
      obtain ⟨-, ran⟩ := Option.ite_none_right_eq_some.mp stepped
      have positive := settled.taken thread isHolder
      simp only [runCommand, program, commands, List.cons_append, List.nil_append, isHolder,
        or_true, if_true, Option.some.injEq] at ran
      subst ran
      refine ⟨Or.inr ⟨⟨rfl, ?_, ⟨_, State.remaining_proceed_self _ _ _⟩, notSet⟩,
        State.remaining_proceed_self _ _ _⟩, rfl⟩
      simp only [State.take, State.proceed]
      omega
    · have busy : state.remaining thread ≠ [] := by simp [program, commands]
      have notRun : ∀ chosen, action.onMonitor ≠ .run thread chosen := by
        intro chosen isChosen
        cases action with
        | run mover other =>
            cases isChosen
            exact isRun ⟨_, rfl⟩
        | begin | awaken | reacquire => cases isChosen
      have notBack : action.onMonitor ≠ .reacquire thread := by
        intro isBack
        rw [step, isBack] at stepped
        obtain ⟨⟨awakened, -⟩, -⟩ := Option.ite_none_right_eq_some.mp stepped
        rw [awake] at awakened
        cases awakened
      obtain ⟨untouched, remaining⟩ :=
        step_untouched settled isHolder busy notRun notBack stepped
      refine ⟨Or.inl ⟨untouched.holder.trans isHolder, (untouched.awake thread).mpr awake,
        remaining.trans program, ?_⟩, untouched.value⟩
      rw [untouched.value]
      exact notSet
  · obtain ⟨still, unchanged, remaining⟩ := captured.step settled stepped
    exact ⟨Or.inr ⟨still, remaining.trans program⟩, unchanged⟩

/-- `pthreads_monitor_wait_until`, called with the monitor held already and for a flag
that is not set, never returns: the thread keeps the monitor while it sleeps, so no other
thread can set the flag. -/
theorem waitUntil_within_synchronized {later : State Flags} {thread : Nat} {wanted : Flags}
    {rest : List (Command Flags)} (reached : Reaches step anyAction (initial value) state)
    (inside : state.holder = some thread) (awake : state.phase thread = .awake)
    (calls : state.remaining thread = commands (.monitorWaitUntil wanted) ++ rest)
    (notSet : monitorCheck wanted state.value = false)
    (continued : Reaches step anyAction state later) :
    later.holder = some thread ∧ later.value = state.value ∧
      (later.remaining thread = commands (.monitorWaitUntil wanted) ++ rest ∨
        later.remaining thread = .waitUntil (monitorCheck wanted) :: .unlock :: rest) := by
  have keeps : ∀ before action after,
      (Settled before ∧ Entangled before thread wanted rest ∧ before.value = state.value) →
        anyAction before action → step before action = some after →
          Settled after ∧ Entangled after thread wanted rest ∧ after.value = state.value := by
    intro before action after ⟨settled, entangled, same⟩ _ stepped
    obtain ⟨still, unchanged⟩ := step_entangled settled entangled stepped
    exact ⟨step_settled settled (disciplined_onMonitor before action) stepped, still,
      unchanged.trans same⟩
  obtain ⟨settled, -⟩ := consistent_of_reaches reached
  obtain ⟨-, entangled, same⟩ :=
    continued.preserves keeps ⟨settled, Or.inl ⟨inside, awake, calls, notSet⟩, rfl⟩
  rcases entangled with ⟨isHolder, -, program, -⟩ | ⟨captured, program⟩
  · exact ⟨isHolder, same, Or.inl program⟩
  · exact ⟨captured.holder, same, Or.inr program⟩

/-- The creator joins a thread inside a synchronized section of that thread. -/
def joinInside : List Action :=
  [.begin 1 [.synchronized join], .run 1 0, .run 1 0, .run 1 0, .run 1 0, .run 1 0]

/-- The thread then asks for the monitor, to say that it awaits the join. -/
def sleepAndAdd : List Action :=
  [.run 1 0, .run 1 0, .begin 2 [.monitorAdd (1 <<< 7)], .awaken 1, .reacquire 1, .run 1 0]

theorem waitUntil_within_synchronized_joinInside :
    ∃ state, execute step (initial 0) joinInside = some state ∧
      ∃ later, execute step state sleepAndAdd = some later ∧ later.holder = some 1 ∧
        step later (.run 2 0) = none := by
  have reached := reaches_of_execute (admits_anyAction step (initial 0) joinInside) rfl
  refine ⟨_, rfl, _, rfl, ?_, rfl⟩
  have entangled := @waitUntil_within_synchronized _ _ _ 1 (1 <<< 7) _ reached rfl rfl rfl
    (by decide) (reaches_of_execute (admits_anyAction step _ sleepAndAdd) rfl)
  exact entangled.1

end Runs

section Starting

/-- `PTHREADS_MONITOR_READY`. -/
def readyFlag : Flags := 1 <<< 4

/-- `pthreads_start` has created the thread and calls `pthreads_routine_wait` on a monitor
that is its own; the new thread adds the flag when it is prepared. -/
def starting (creator thread : Nat) : State Flags :=
  { initial 0 with
    remaining := Function.update
      (Function.update (fun _ => []) creator (commands (.monitorWaitUntil readyFlag)))
      thread (commands (.monitorAdd readyFlag)) }

/-- Nobody else knows the monitor, and the two call nothing else on it. -/
def onlyRuns (_ : State Flags) : Action → Prop
  | .begin _ _ => False
  | _ => True

/-- How far the creator and the new thread are. -/
structure Progressed (creator thread : Nat) (state : State Flags) (waited added : Nat) : Prop where
  creatorProgram : state.remaining creator = (commands (.monitorWaitUntil readyFlag)).drop waited
  threadProgram : state.remaining thread = (commands (.monitorAdd readyFlag)).drop added
  others : ∀ other, other ≠ creator → other ≠ thread → state.remaining other = []
  threadAwake : state.phase thread = .awake
  value : state.value = if added ≤ 1 then 0 else readyFlag
  passed : 2 ≤ waited → 4 ≤ added
  slept : state.phase creator ≠ .awake → waited = 1

variable {creator thread : Nat} {state after : State Flags}

theorem progressed_starting (different : creator ≠ thread) :
    Progressed creator thread (starting creator thread) 0 0 where
  creatorProgram := by simp [starting, different]
  threadProgram := by simp [starting]
  others := by
    intro other notCreator notThread
    simp [starting, notCreator, notThread]
  threadAwake := rfl
  value := rfl
  passed := by simp
  slept := fun notAwake => absurd rfl notAwake

/-- The new thread holds the monitor between its two calls. -/
theorem Progressed.holder {waited added : Nat}
    (progressed : Progressed creator thread state waited added) (settled : Settled state)
    (begun : 1 ≤ added) (unfinished : added < 4) : state.holder = some thread := by
  have level := (settled.level thread).debt_eq
  apply settled.holder_eq progressed.threadAwake level
  rw [progressed.threadProgram]
  obtain rfl | rfl | rfl : added = 1 ∨ added = 2 ∨ added = 3 := by omega
  all_goals simp [commands, debt]

theorem threadRun_progressed {waited added chosen : Nat} (different : creator ≠ thread)
    (progressed : Progressed creator thread state waited added)
    (ran : runCommand state thread chosen = some after) :
    Progressed creator thread after waited (added + 1) := by
  have awake := progressed.threadAwake
  have value := progressed.value
  have program := progressed.threadProgram
  have unfinished : added < 4 := by
    by_contra finished
    have nothing : state.remaining thread = [] := by
      rw [program]
      apply List.drop_eq_nil_of_le
      simp only [commands, List.length_cons, List.length_nil]
      omega
    simp [runCommand, nothing] at ran
  -- what the command does to the thread itself and to the flags
  have moved : after.remaining thread = (commands (.monitorAdd readyFlag)).drop (added + 1) ∧
      after.phase thread = .awake ∧ after.value = if added + 1 ≤ 1 then 0 else readyFlag := by
    obtain rfl | rfl | rfl | rfl : added = 0 ∨ added = 1 ∨ added = 2 ∨ added = 3 := by omega
    · simp only [runCommand, program, commands, List.drop_zero] at ran
      obtain ⟨-, ⟨⟩⟩ := Option.ite_none_right_eq_some.mp ran
      exact ⟨State.remaining_proceed_self _ _ _, awake, value⟩
    · simp only [runCommand, program, commands, List.drop_succ_cons, List.drop_zero] at ran
      cases ran
      refine ⟨State.remaining_proceed_self _ _ _, awake, ?_⟩
      simp only [State.proceed, value]
      decide
    · simp only [runCommand, program, commands, List.drop_succ_cons, List.drop_zero] at ran
      cases ran
      exact ⟨State.remaining_proceed_self _ _ _, (isAwake_awaken _).mpr awake, value⟩
    · simp only [runCommand, program, commands, List.drop_succ_cons, List.drop_zero] at ran
      cases ran
      split <;> exact ⟨State.remaining_proceed_self _ _ _, awake, value⟩
  constructor
  · rw [runCommand_remaining different ran]
    exact progressed.creatorProgram
  · exact moved.1
  · intro other notCreator notThread
    rw [runCommand_remaining notThread ran]
    exact progressed.others other notCreator notThread
  · exact moved.2.1
  · exact moved.2.2
  · intro returned
    have := progressed.passed returned
    omega
  · intro notAwake
    apply progressed.slept
    intro wasAwake
    exact notAwake (runCommand_awake different ran wasAwake)

theorem creatorRun_progressed {waited added chosen : Nat} (different : creator ≠ thread)
    (settled : Settled state) (awake : state.phase creator = .awake)
    (progressed : Progressed creator thread state waited added)
    (ran : runCommand state creator chosen = some after) :
    ∃ later, Progressed creator thread after later added := by
  have program := progressed.creatorProgram
  have unfinished : waited < 3 := by
    by_contra finished
    have nothing : state.remaining creator = [] := by
      rw [program]
      apply List.drop_eq_nil_of_le
      simp only [commands, List.length_cons, List.length_nil]
      omega
    simp [runCommand, nothing] at ran
  obtain ⟨later, moved, threadAwake, value, passed, slept⟩ :
      ∃ later, after.remaining creator = (commands (.monitorWaitUntil readyFlag)).drop later ∧
        after.phase thread = .awake ∧ after.value = state.value ∧ (2 ≤ later → 4 ≤ added) ∧
        (after.phase creator ≠ .awake → later = 1) := by
    obtain rfl | rfl | rfl : waited = 0 ∨ waited = 1 ∨ waited = 2 := by omega
    · simp only [runCommand, program, commands, List.drop_zero] at ran
      obtain ⟨-, ⟨⟩⟩ := Option.ite_none_right_eq_some.mp ran
      exact ⟨1, State.remaining_proceed_self _ _ _, progressed.threadAwake, rfl, by omega,
        fun _ => rfl⟩
    · have level := (settled.level creator).debt_eq
      have isHolder : state.holder = some creator := by
        apply settled.holder_eq awake level
        simp [program, commands, debt]
      simp only [runCommand, program, commands, List.drop_succ_cons, List.drop_zero] at ran
      split at ran <;> cases ran
      · next isReady =>
        have isSet := isReady.resolve_right (not_not.mpr isHolder)
        refine ⟨2, State.remaining_proceed_self _ _ _, progressed.threadAwake, rfl, ?_,
          fun notAwake => absurd awake notAwake⟩
        -- the flag is set, and the thread that set it no longer has the monitor
        intro _
        by_contra unfinished
        have begun : ¬ added ≤ 1 := by
          intro notYet
          rw [progressed.value, if_pos notYet] at isSet
          exact absurd isSet (by decide)
        have isOther := progressed.holder settled (by omega) (by omega)
        rw [isHolder, Option.some.injEq] at isOther
        exact different isOther
      · refine ⟨1, program, ?_, rfl, by omega, fun _ => rfl⟩
        simp [State.sleep, Ne.symm different, progressed.threadAwake]
    · simp only [runCommand, program, commands, List.drop_succ_cons, List.drop_zero] at ran
      cases ran
      refine ⟨3, State.remaining_proceed_self _ _ _, ?_, ?_,
        fun _ => progressed.passed (Nat.le_refl 2), ?_⟩
      · split <;> exact progressed.threadAwake
      · split <;> rfl
      · intro notAwake
        refine absurd ?_ notAwake
        split <;> exact awake
  refine ⟨later, moved, ?_, ?_, threadAwake, value.trans progressed.value, passed, slept⟩
  · rw [runCommand_remaining different.symm ran]
    exact progressed.threadProgram
  · intro other notCreator notThread
    rw [runCommand_remaining notCreator ran]
    exact progressed.others other notCreator notThread

theorem step_progressed {waited added : Nat} {action : Action} (different : creator ≠ thread)
    (settled : Settled state) (progressed : Progressed creator thread state waited added)
    (onlyRun : onlyRuns state action) (stepped : step state action = some after) :
    ∃ waitedLater addedLater, Progressed creator thread after waitedLater addedLater := by
  cases action with
  | begin mover calls => exact onlyRun.elim
  | run mover chosen =>
      obtain ⟨awake, ran⟩ := Option.ite_none_right_eq_some.mp stepped
      by_cases isCreator : mover = creator
      · subst isCreator
        obtain ⟨later, moved⟩ := creatorRun_progressed different settled awake progressed ran
        exact ⟨later, added, moved⟩
      · by_cases isThread : mover = thread
        · subst isThread
          exact ⟨waited, added + 1, threadRun_progressed different progressed ran⟩
        · have nothing := progressed.others mover isCreator isThread
          simp [runCommand, nothing] at ran
  | awaken mover =>
      obtain ⟨asleep, ⟨⟩⟩ := Option.ite_none_right_eq_some.mp stepped
      have notThread : thread ≠ mover := by
        rintro rfl
        rw [progressed.threadAwake] at asleep
        cases asleep
      refine ⟨waited, added, progressed.creatorProgram, progressed.threadProgram,
        progressed.others, ?_, progressed.value, progressed.passed, ?_⟩
      · simp [notThread, progressed.threadAwake]
      · intro notAwake
        apply progressed.slept
        intro wasAwake
        by_cases same : creator = mover
        · subst same
          rw [wasAwake] at asleep
          cases asleep
        · exact notAwake (by simpa [same] using wasAwake)
  | reacquire mover =>
      obtain ⟨⟨awakened, isFree⟩, ⟨⟩⟩ := Option.ite_none_right_eq_some.mp stepped
      have notThread : thread ≠ mover := by
        rintro rfl
        rw [progressed.threadAwake] at awakened
        cases awakened
      have same : afterSleep (state.remaining mover) = state.remaining mover := by
        by_cases isCreator : mover = creator
        · subst isCreator
          have inWait := progressed.slept (by simp [awakened])
          rw [progressed.creatorProgram, inWait]
          rfl
        · rw [progressed.others mover isCreator (Ne.symm notThread)]
          rfl
      refine ⟨waited, added, ?_, ?_, ?_, ?_, progressed.value, progressed.passed, ?_⟩
      · simpa [State.proceed, State.take, same] using progressed.creatorProgram
      · simpa [State.proceed, State.take, same] using progressed.threadProgram
      · simpa [State.proceed, State.take, same] using progressed.others
      · simp [notThread, progressed.threadAwake]
      · intro notAwake
        apply progressed.slept
        intro wasAwake
        by_cases isMover : creator = mover
        · subst isMover
          simp at notAwake
        · exact notAwake (by simpa [isMover] using wasAwake)

/-- What holds along the start of a thread. -/
structure Handshake (creator thread : Nat) (state : State Flags) : Prop where
  settled : Settled state
  heard : Heard state
  progressed : ∃ waited added, Progressed creator thread state waited added

theorem handshake_starting (different : creator ≠ thread) :
    Handshake creator thread (starting creator thread) where
  settled :=
    { free := fun _ => rfl
      taken := fun _ isHolder => by cases isHolder
      level := by
        have progressed := progressed_starting different
        intro other
        by_cases isCreator : other = creator
        · subst isCreator
          rw [progressed.creatorProgram]
          exact ⟨Nat.succ_pos _, Nat.succ_pos _, rfl⟩
        · by_cases isThread : other = thread
          · subst isThread
            rw [progressed.threadProgram]
            exact ⟨Nat.succ_pos _, Nat.succ_pos _, rfl⟩
          · rw [progressed.others other isCreator isThread]
            rfl }
  heard := by
    intro other ready sleeps
    cases sleeps.1
  progressed := ⟨0, 0, progressed_starting different⟩

theorem handshake_of_reaches (different : creator ≠ thread)
    (reached : Reaches step onlyRuns (starting creator thread) state) :
    Handshake creator thread state := by
  have keeps : ∀ before action after, Handshake creator thread before → onlyRuns before action →
      step before action = some after → Handshake creator thread after := by
    intro before action after ⟨settled, heard, waited, added, progressed⟩ onlyRun stepped
    constructor
    · exact step_settled settled (disciplined_onMonitor before action) stepped
    · exact step_heard settled heard stepped
    · exact step_progressed different settled progressed onlyRun stepped
  exact reached.preserves keeps (handshake_starting different)

theorem Progressed.waited_lt {waited added : Nat}
    (progressed : Progressed creator thread state waited added)
    (busy : state.remaining creator ≠ []) : waited < 3 := by
  by_contra returned
  rw [progressed.creatorProgram] at busy
  apply busy
  apply List.drop_eq_nil_of_le
  simp only [commands, List.length_cons, List.length_nil]
  omega

theorem Progressed.thread_eq_nil {waited added : Nat}
    (progressed : Progressed creator thread state waited added) (finished : 4 ≤ added) :
    state.remaining thread = [] := by
  rw [progressed.threadProgram]
  apply List.drop_eq_nil_of_le
  simp only [commands, List.length_cons, List.length_nil]
  omega

/-- Whoever has the monitor is one of the two and is awake. -/
theorem Handshake.holder_awake {holder : Nat} (handshake : Handshake creator thread state)
    (isHolder : state.holder = some holder) :
    holder ∈ [creator, thread] ∧ state.phase holder = .awake := by
  obtain ⟨settled, -, waited, added, progressed⟩ := handshake
  by_cases isThread : holder = thread
  · subst isThread
    exact ⟨by simp, progressed.threadAwake⟩
  · by_cases isCreator : holder = creator
    · subst isCreator
      refine ⟨by simp, ?_⟩
      by_contra notAwake
      have inWait := progressed.slept notAwake
      subst inWait
      have level := (settled.level holder).debt_eq
      have positive := settled.taken holder isHolder
      rw [progressed.creatorProgram, State.due, if_neg notAwake, State.held, if_pos isHolder]
        at level
      simp only [commands, List.drop_succ_cons, List.drop_zero, debt] at level
      omega
    · have nothing := settled.awake (progressed.others holder isCreator isThread)
      exact absurd isHolder nothing.2

/-- While the monitor is free and the creator has not returned, one of the two can
take it. -/
theorem Handshake.takes (handshake : Handshake creator thread state)
    (isFree : state.holder = none) (busy : state.remaining creator ≠ []) :
    ∃ mover ∈ [creator, thread], ∃ after,
      step state (.run mover 0) = some after ∨ step state (.reacquire mover) = some after := by
  obtain ⟨settled, heard, waited, added, progressed⟩ := handshake
  by_cases unfinished : added < 4
  · have notBegun : added = 0 := by
      by_contra begun
      have isHolder := progressed.holder settled (by omega) unfinished
      rw [isFree] at isHolder
      cases isHolder
    subst notBegun
    obtain ⟨after, ran⟩ := runCommand_lock isFree progressed.threadProgram 0
    exact ⟨thread, by simp, after, Or.inl ((if_pos progressed.threadAwake).trans ran)⟩
  · have isSet : monitorCheck readyFlag state.value = true := by
      rw [progressed.value, if_neg (by omega)]
      decide
    have early := progressed.waited_lt busy
    have program := progressed.creatorProgram
    cases phase : state.phase creator with
    | awake =>
        have notBegun : waited = 0 := by
          by_contra begun
          have isHolder : state.holder = some creator := by
            apply settled.holder_eq phase (settled.level creator).debt_eq
            rw [program]
            obtain rfl | rfl : waited = 1 ∨ waited = 2 := by omega
            all_goals simp [commands, debt]
          rw [isFree] at isHolder
          cases isHolder
        subst notBegun
        obtain ⟨after, ran⟩ := runCommand_lock isFree program 0
        exact ⟨creator, by simp, after, Or.inl ((if_pos phase).trans ran)⟩
    | asleep =>
        have inWait := progressed.slept (by simp [phase])
        subst inWait
        obtain ⟨announcer, announces⟩ := heard creator _ ⟨phase, _, program⟩ isSet
        have isHolder := announces.holder
        rw [isFree] at isHolder
        cases isHolder
    | awakened => exact ⟨creator, by simp, _, Or.inr (if_pos ⟨phase, Or.inl isFree⟩)⟩

/-- The creator returns from `pthreads_routine_wait`, and destroys the monitor, only
when the new thread is through with it; until then one of the two can go on. -/
theorem start_handshake (different : creator ≠ thread)
    (reached : Reaches step onlyRuns (starting creator thread) state) :
    (state.remaining creator = [] → state.remaining thread = [] ∧ state.holder = none) ∧
      (state.remaining creator ≠ [] → ∃ mover ∈ [creator, thread], ∃ after,
        step state (.run mover 0) = some after ∨ step state (.reacquire mover) = some after) := by
  have handshake := handshake_of_reaches different reached
  constructor
  · intro returned
    obtain ⟨settled, -, waited, added, progressed⟩ := handshake
    have late : 3 ≤ waited := by
      by_contra early
      have program := progressed.creatorProgram
      rw [returned] at program
      have shorter := congrArg List.length program
      simp only [commands, List.length_drop, List.length_cons, List.length_nil] at shorter
      omega
    have nothing := progressed.thread_eq_nil (progressed.passed (by omega))
    refine ⟨nothing, ?_⟩
    cases isHolder : state.holder with
    | none => rfl
    | some holder =>
        have finished : state.remaining holder = [] := by
          by_cases isCreator : holder = creator
          · rw [isCreator, returned]
          · by_cases isThread : holder = thread
            · rw [isThread, nothing]
            · exact progressed.others holder isCreator isThread
        exact absurd isHolder (settled.awake finished).2
  · intro busy
    cases isHolder : state.holder with
    | none => exact handshake.takes isHolder busy
    | some holder =>
        have concerned := handshake.holder_awake isHolder
        have unfinished : state.remaining holder ≠ [] :=
          fun finished => (handshake.settled.awake finished).2 isHolder
        obtain ⟨after, ran⟩ := runCommand_holder isHolder unfinished 0
        refine ⟨holder, concerned.1, after, Or.inl ?_⟩
        exact (if_pos concerned.2).trans ran

/-- The creator sleeps before the new thread adds the flag. -/
def sleepThenStart : List Action :=
  [.run 1 0, .run 1 0, .run 2 0, .run 2 0, .run 2 0, .run 2 0, .reacquire 1, .run 1 0, .run 1 0]

theorem start_handshake_sleepThenStart :
    ∃ state, execute step (starting 1 2) sleepThenStart = some state ∧
      state.remaining 2 = [] ∧ state.holder = none := by
  have admitted : Admits step onlyRuns (starting 1 2) sleepThenStart :=
    ⟨trivial, trivial, trivial, trivial, trivial, trivial, trivial, trivial, trivial, trivial⟩
  have reached := reaches_of_execute admitted rfl
  exact ⟨_, rfl, (start_handshake (by decide) reached).1 rfl⟩

end Starting

end Pthreads.ObjectMonitors
