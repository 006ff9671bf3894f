import Pthreads.ConditionMonitors

/-!
# What threads hear of a value that others change

A change is announced before the lock is given back.  So a thread that sleeps until
the value is ready sleeps on only while the thread that made it ready still has the
lock and announces next.  A thread that holds the lock more than once keeps it while
it sleeps, and what it sleeps for can then not come about.
-/

namespace Pthreads.ConditionMonitors

open GuardedRuns

variable {V : Type*} {state after : State V} {thread other : Nat}

/-- The thread has the lock and broadcasts next. -/
structure Announces (state : State V) (announcer : Nat) : Prop where
  holder : state.holder = some announcer
  awake : state.phase announcer = .awake
  next : ∃ later, state.remaining announcer = .broadcast :: later

/-- The thread sleeps until the value is ready. -/
def SleepsUntil (state : State V) (thread : Nat) (ready : V → Bool) : Prop :=
  state.phase thread = .asleep ∧ ∃ rest, state.remaining thread = .waitUntil ready :: rest

/-- A thread sleeps for a value that is already ready only while it is announced. -/
def Heard (state : State V) : Prop :=
  ∀ thread ready, SleepsUntil state thread ready → ready state.value = true →
    ∃ announcer, Announces state announcer

theorem heard_initial (value : V) : Heard (initial value) := by
  intro thread ready sleeps
  cases sleeps.1

/-- A thread whose program is run through is not asleep. -/
theorem Settled.awake (settled : Settled state) (finished : state.remaining thread = []) :
    state.phase thread = .awake ∧ state.holder ≠ some thread := by
  have level := settled.level thread
  rw [finished] at level
  have nothing : state.held thread + state.due thread = 0 := level
  constructor
  · by_contra notAwake
    simp [State.due, notAwake] at nothing
  · apply settled.held_eq_zero.mp
    omega

@[simp]
theorem awaken_ne_asleep (phase : Phase) : phase.awaken ≠ .asleep := by
  cases phase <;> simp [Phase.awaken]

/-- Signals and broadcasts only make threads wake up. -/
theorem update_awaken (phases : Nat → Phase) (chosen thread : Nat) :
    Function.update phases chosen (phases chosen).awaken thread = .awake ↔
      phases thread = .awake := by
  by_cases same : thread = chosen
  · subst same
    simp
  · simp [same]

/-- What a thread that does not have the lock leaves alone while it is taken. -/
structure Untouched (state after : State V) : Prop where
  value : after.value = state.value
  holder : after.holder = state.holder
  depth : after.depth = state.depth
  awake : ∀ keeper, after.phase keeper = .awake ↔ state.phase keeper = .awake

theorem runCommand_untouched {chosen keeper : Nat} (settled : Settled state)
    (awake : state.phase thread = .awake) (isHolder : state.holder = some keeper)
    (different : thread ≠ keeper) (ran : runCommand state thread chosen = some after) :
    Untouched state after := by
  have notHolder : state.holder ≠ some thread := by simp [isHolder, Ne.symm different]
  have outside : state.held thread + state.due thread = 0 := by
    simp [settled.held_eq_zero.mpr notHolder, State.due, awake]
  have level := settled.level thread
  cases program : state.remaining thread with
  | nil => simp [runCommand, program] at ran
  | cons command rest =>
      rw [runCommand, program] at ran
      rw [program, outside] at level
      cases command <;> dsimp only at ran
      case lock =>
        obtain ⟨isFree, -⟩ := Option.ite_none_right_eq_some.mp ran
        simp [isHolder, Ne.symm different] at isFree
      case unlock => exact absurd level.1 (Nat.lt_irrefl 0)
      case change update => exact absurd level.change.1 (Nat.lt_irrefl 0)
      case broadcast =>
        cases ran
        exact ⟨rfl, rfl, rfl, fun other => isAwake_awaken _⟩
      case signal =>
        cases ran
        exact ⟨rfl, rfl, rfl, update_awaken _ _⟩
      case wait =>
        rw [if_neg notHolder] at ran
        cases ran
        exact ⟨rfl, rfl, rfl, fun _ => Iff.rfl⟩
      case waitUntil ready => exact absurd level.1 (Nat.lt_irrefl 0)

/-- A command moves on in no other thread's program. -/
theorem runCommand_remaining {chosen : Nat} (different : other ≠ thread)
    (ran : runCommand state thread chosen = some after) :
    after.remaining other = state.remaining other := by
  cases program : state.remaining thread with
  | nil => simp [runCommand, program] at ran
  | cons command rest =>
      rw [runCommand, program] at ran
      cases command <;> dsimp only at ran
      case lock =>
        obtain ⟨-, ⟨⟩⟩ := Option.ite_none_right_eq_some.mp ran
        exact State.remaining_proceed_of_ne different _ _
      case unlock =>
        cases ran
        rw [State.remaining_proceed_of_ne different]
        split <;> rfl
      case change | broadcast | signal =>
        cases ran
        exact State.remaining_proceed_of_ne different _ _
      case wait =>
        split at ran <;> cases ran
        · rfl
        · exact State.remaining_proceed_of_ne different _ _
      case waitUntil =>
        split at ran <;> cases ran
        · exact State.remaining_proceed_of_ne different _ _
        · rfl

/-- A thread that has the lock is not blocked. -/
theorem runCommand_holder (isHolder : state.holder = some thread)
    (busy : state.remaining thread ≠ []) (chosen : Nat) :
    ∃ after, runCommand state thread chosen = some after := by
  cases program : state.remaining thread with
  | nil => exact absurd program busy
  | cons command rest =>
      rw [runCommand, program]
      cases command <;> dsimp only
      case lock => exact ⟨_, if_pos (Or.inr isHolder)⟩
      case wait | waitUntil => split <;> exact ⟨_, rfl⟩
      case unlock | change | broadcast | signal => exact ⟨_, rfl⟩

/-- A thread that takes the lock is not blocked while it is free. -/
theorem runCommand_lock {rest : List (Command V)} (isFree : state.holder = none)
    (program : state.remaining thread = .lock :: rest) (chosen : Nat) :
    ∃ after, runCommand state thread chosen = some after := by
  rw [runCommand, program]
  exact ⟨_, if_pos (Or.inl isFree)⟩

/-- A thread only moves on in its program. -/
theorem runCommand_suffix {chosen : Nat} (ran : runCommand state thread chosen = some after) :
    after.remaining thread <:+ state.remaining thread := by
  cases program : state.remaining thread with
  | nil => simp [runCommand, program] at ran
  | cons command rest =>
      have shorter := List.suffix_cons command rest
      rw [runCommand, program] at ran
      cases command <;> dsimp only at ran
      case lock =>
        obtain ⟨-, ⟨⟩⟩ := Option.ite_none_right_eq_some.mp ran
        rwa [State.remaining_proceed_self]
      case unlock | change | broadcast | signal =>
        cases ran
        rwa [State.remaining_proceed_self]
      case wait =>
        split at ran <;> cases ran
        · simp [State.sleep, State.release, program]
        · rwa [State.remaining_proceed_self]
      case waitUntil =>
        split at ran <;> cases ran
        · rwa [State.remaining_proceed_self]
        · simp [State.sleep, State.release, program]

theorem suffix_afterSleep (program : List (Command V)) : afterSleep program <:+ program := by
  cases program with
  | nil => exact List.suffix_refl _
  | cons command rest =>
      cases command with
      | wait => exact List.suffix_cons _ _
      | lock | unlock | change | broadcast | signal | waitUntil => exact List.suffix_refl _

/-- The steps of other threads while one that has something left to run has the lock. -/
theorem step_untouched {keeper : Nat} {action : Action V} (settled : Settled state)
    (isHolder : state.holder = some keeper) (busy : state.remaining keeper ≠ [])
    (notRun : ∀ chosen, action ≠ .run keeper chosen) (notBack : action ≠ .reacquire keeper)
    (stepped : step state action = some after) :
    Untouched state after ∧ after.remaining keeper = state.remaining keeper := by
  cases action with
  | begin thread program =>
      obtain ⟨finished, ⟨⟩⟩ := Option.ite_none_right_eq_some.mp stepped
      have different : keeper ≠ thread := by
        rintro rfl
        exact busy (List.isEmpty_iff.mp finished)
      exact ⟨⟨rfl, rfl, rfl, fun _ => Iff.rfl⟩, State.remaining_proceed_of_ne different _ _⟩
  | run thread chosen =>
      obtain ⟨awake, ran⟩ := Option.ite_none_right_eq_some.mp stepped
      have different : thread ≠ keeper := by
        rintro rfl
        exact notRun chosen rfl
      exact ⟨runCommand_untouched settled awake isHolder different ran,
        runCommand_remaining different.symm ran⟩
  | awaken thread =>
      obtain ⟨asleep, ⟨⟩⟩ := Option.ite_none_right_eq_some.mp stepped
      refine ⟨⟨rfl, rfl, rfl, ?_⟩, rfl⟩
      intro other
      by_cases same : other = thread
      · subst same
        simp [asleep]
      · simp [same]
  | reacquire thread =>
      obtain ⟨⟨-, isFree⟩, -⟩ := Option.ite_none_right_eq_some.mp stepped
      have same : keeper = thread := by simpa [isHolder] using isFree
      exact absurd (by rw [same]) notBack

section Announcing

/-- An announcement stays due until its thread makes it. -/
theorem Announces.step {announcer : Nat} {action : Action V} (settled : Settled state)
    (announces : Announces state announcer) (notRun : ∀ chosen, action ≠ .run announcer chosen)
    (stepped : step state action = some after) : Announces after announcer := by
  obtain ⟨later, next⟩ := announces.next
  have notBack : action ≠ .reacquire announcer := by
    rintro rfl
    obtain ⟨⟨awakened, -⟩, -⟩ := Option.ite_none_right_eq_some.mp stepped
    rw [announces.awake] at awakened
    cases awakened
  have busy : state.remaining announcer ≠ [] := by simp [next]
  have untouched := step_untouched settled announces.holder busy notRun notBack stepped
  exact ⟨untouched.1.holder.trans announces.holder, (untouched.1.awake _).mpr announces.awake,
    later, untouched.2.trans next⟩

/-- Only a change changes the value. -/
theorem runCommand_value {chosen : Nat} (ran : runCommand state thread chosen = some after)
    (notChange : ∀ update rest, state.remaining thread ≠ .change update :: rest) :
    after.value = state.value := by
  cases program : state.remaining thread with
  | nil => simp [runCommand, program] at ran
  | cons command rest =>
      rw [runCommand, program] at ran
      cases command <;> dsimp only at ran
      case lock =>
        obtain ⟨-, ⟨⟩⟩ := Option.ite_none_right_eq_some.mp ran
        rfl
      case unlock =>
        cases ran
        split <;> rfl
      case change update => exact absurd program (notChange update rest)
      case broadcast | signal =>
        cases ran
        rfl
      case wait | waitUntil => split at ran <;> cases ran <;> rfl

/-- A command puts no other thread to sleep. -/
theorem runCommand_phase {chosen : Nat} (ran : runCommand state thread chosen = some after)
    (different : other ≠ thread) (asleep : after.phase other = .asleep) :
    state.phase other = .asleep := by
  cases program : state.remaining thread with
  | nil => simp [runCommand, program] at ran
  | cons command rest =>
      rw [runCommand, program] at ran
      cases command <;> dsimp only at ran
      case lock =>
        obtain ⟨-, ⟨⟩⟩ := Option.ite_none_right_eq_some.mp ran
        exact asleep
      case unlock =>
        cases ran
        split at asleep <;> exact asleep
      case change update =>
        cases ran
        exact asleep
      case broadcast =>
        cases ran
        exact absurd asleep (awaken_ne_asleep _)
      case signal =>
        cases ran
        by_cases same : other = chosen
        · subst same
          simp [State.proceed] at asleep
        · simpa [State.proceed, same] using asleep
      case wait | waitUntil =>
        split at ran <;> cases ran
        · first | exact asleep | simpa [State.sleep, different] using asleep
        · first | exact asleep | simpa [State.sleep, different] using asleep

/-- A command leaves every other thread awake that is awake. -/
theorem runCommand_awake {chosen : Nat} (different : other ≠ thread)
    (ran : runCommand state thread chosen = some after) (awake : state.phase other = .awake) :
    after.phase other = .awake := by
  cases program : state.remaining thread with
  | nil => simp [runCommand, program] at ran
  | cons command rest =>
      rw [runCommand, program] at ran
      cases command <;> dsimp only at ran
      case lock =>
        obtain ⟨-, ⟨⟩⟩ := Option.ite_none_right_eq_some.mp ran
        exact awake
      case unlock =>
        cases ran
        split <;> exact awake
      case change update =>
        cases ran
        exact awake
      case broadcast =>
        cases ran
        exact (isAwake_awaken _).mpr awake
      case signal =>
        cases ran
        exact (update_awaken _ _ _).mpr awake
      case wait | waitUntil =>
        split at ran <;> cases ran
        · first | exact awake | simpa [State.sleep, different] using awake
        · first | exact awake | simpa [State.sleep, different] using awake

/-- A thread goes to sleep only for a value that is not ready. -/
theorem runCommand_blocked {chosen : Nat} {ready : V → Bool}
    (awake : state.phase thread = .awake) (ran : runCommand state thread chosen = some after)
    (sleeps : SleepsUntil after thread ready) : ready after.value = false := by
  obtain ⟨asleep, later, waits⟩ := sleeps
  cases program : state.remaining thread with
  | nil => simp [runCommand, program] at ran
  | cons command rest =>
      rw [runCommand, program] at ran
      cases command <;> dsimp only at ran
      case lock =>
        obtain ⟨-, ⟨⟩⟩ := Option.ite_none_right_eq_some.mp ran
        exact absurd (awake.symm.trans asleep) (by simp)
      case unlock =>
        cases ran
        split at asleep <;> exact absurd (awake.symm.trans asleep) (by simp)
      case change update =>
        cases ran
        exact absurd (awake.symm.trans asleep) (by simp)
      case broadcast =>
        cases ran
        exact absurd asleep (awaken_ne_asleep _)
      case signal =>
        cases ran
        have stillAwake := (update_awaken state.phase chosen thread).mpr awake
        exact absurd (stillAwake.symm.trans asleep) (by simp)
      case wait =>
        split at ran <;> cases ran
        · have keeps : state.remaining thread = .waitUntil ready :: later := waits
          rw [program] at keeps
          cases keeps
        · exact absurd (awake.symm.trans asleep) (by simp)
      case waitUntil wanted =>
        split at ran <;> cases ran
        · exact absurd (awake.symm.trans asleep) (by simp)
        · next blocked =>
          have keeps : state.remaining thread = .waitUntil ready :: later := waits
          rw [program] at keeps
          cases keeps
          exact Bool.eq_false_iff.mpr fun isReady => blocked (Or.inl isReady)

/-- A thread that changes the value has the lock and announces the change next. -/
theorem runCommand_change {chosen : Nat} {update : V → V} {rest : List (Command V)}
    (settled : Settled state) (awake : state.phase thread = .awake)
    (program : state.remaining thread = .change update :: rest)
    (ran : runCommand state thread chosen = some after) : Announces after thread := by
  have level := settled.level thread
  rw [program] at level
  obtain ⟨positive, later, rfl, -⟩ := level.change
  have isHolder := settled.holder_eq awake rfl positive
  rw [runCommand, program] at ran
  cases ran
  exact ⟨isHolder, awake, later, Function.update_self _ _ _⟩

/-- A broadcast leaves nobody asleep. -/
theorem runCommand_broadcast {chosen : Nat} {later : List (Command V)}
    (program : state.remaining thread = .broadcast :: later)
    (ran : runCommand state thread chosen = some after) (sleeper : Nat) :
    after.phase sleeper ≠ .asleep := by
  rw [runCommand, program] at ran
  cases ran
  exact awaken_ne_asleep _

/-- What a thread sleeps for after a step other than a change it slept for before. -/
theorem step_sleeps {action : Action V} {ready : V → Bool} (settled : Settled state)
    (stepped : step state action = some after) (sleeps : SleepsUntil after other ready)
    (isReady : ready after.value = true)
    (notChange : ∀ mover chosen update rest, action = .run mover chosen →
      state.remaining mover ≠ .change update :: rest) :
    SleepsUntil state other ready ∧ ready state.value = true := by
  cases action with
  | begin thread program =>
      obtain ⟨finished, ⟨⟩⟩ := Option.ite_none_right_eq_some.mp stepped
      have different : other ≠ thread := by
        rintro rfl
        have awake := (settled.awake (List.isEmpty_iff.mp finished)).1
        exact absurd (awake.symm.trans sleeps.1) (by simp)
      obtain ⟨asleep, later, waits⟩ := sleeps
      rw [State.remaining_proceed_of_ne different] at waits
      exact ⟨⟨asleep, later, waits⟩, isReady⟩
  | run thread chosen =>
      obtain ⟨awake, ran⟩ := Option.ite_none_right_eq_some.mp stepped
      have value := runCommand_value ran fun update rest => notChange thread chosen update rest rfl
      by_cases same : other = thread
      · subst same
        have notReady := runCommand_blocked awake ran sleeps
        rw [isReady] at notReady
        cases notReady
      · obtain ⟨asleep, later, waits⟩ := sleeps
        rw [runCommand_remaining same ran] at waits
        rw [value] at isReady
        exact ⟨⟨runCommand_phase ran same asleep, later, waits⟩, isReady⟩
  | awaken thread =>
      obtain ⟨-, ⟨⟩⟩ := Option.ite_none_right_eq_some.mp stepped
      obtain ⟨asleep, waits⟩ := sleeps
      by_cases same : other = thread
      · subst same
        simp at asleep
      · exact ⟨⟨by simpa [same] using asleep, waits⟩, isReady⟩
  | reacquire thread =>
      obtain ⟨-, ⟨⟩⟩ := Option.ite_none_right_eq_some.mp stepped
      obtain ⟨asleep, later, waits⟩ := sleeps
      by_cases same : other = thread
      · subst same
        simp at asleep
      · refine ⟨⟨by simpa [same] using asleep, later, ?_⟩, isReady⟩
        exact (State.remaining_proceed_of_ne same _ _).symm.trans waits

theorem step_heard {action : Action V} (settled : Settled state) (heard : Heard state)
    (stepped : step state action = some after) : Heard after := by
  intro sleeper ready sleeps isReady
  by_cases changes : ∃ mover chosen update rest, action = .run mover chosen ∧
      state.remaining mover = .change update :: rest
  · obtain ⟨mover, chosen, update, rest, rfl, program⟩ := changes
    obtain ⟨awake, ran⟩ := Option.ite_none_right_eq_some.mp stepped
    exact ⟨mover, runCommand_change settled awake program ran⟩
  · have notChange : ∀ mover chosen update rest, action = .run mover chosen →
        state.remaining mover ≠ .change update :: rest := by
      intro mover chosen update rest isRun program
      exact changes ⟨mover, chosen, update, rest, isRun, program⟩
    have before := step_sleeps settled stepped sleeps isReady notChange
    obtain ⟨announcer, announces⟩ := heard sleeper ready before.1 before.2
    refine ⟨announcer, announces.step settled ?_ stepped⟩
    rintro chosen rfl
    -- the announcement itself would have awakened the sleeper
    obtain ⟨later, program⟩ := announces.next
    obtain ⟨-, ran⟩ := Option.ite_none_right_eq_some.mp stepped
    exact runCommand_broadcast program ran sleeper sleeps.1

end Announcing

section Capturing

/-- The thread sleeps, or is about to, for a value that is not ready, and keeps the lock
meanwhile. -/
structure Captured (state : State V) (thread : Nat) (ready : V → Bool) : Prop where
  holder : state.holder = some thread
  often : 1 < state.depth + state.due thread
  next : ∃ rest, state.remaining thread = .waitUntil ready :: rest
  notReady : ready state.value = false

/-- A captured thread stays where it is, whatever the threads do. -/
theorem Captured.step {action : Action V} {ready : V → Bool} (settled : Settled state)
    (captured : Captured state thread ready) (stepped : step state action = some after) :
    Captured after thread ready ∧ after.value = state.value ∧
      after.remaining thread = state.remaining thread := by
  obtain ⟨rest, next⟩ := captured.next
  by_cases isRun : ∃ chosen, action = .run thread chosen
  · obtain ⟨chosen, rfl⟩ := isRun
    obtain ⟨awake, ran⟩ := Option.ite_none_right_eq_some.mp stepped
    have often := captured.often
    rw [State.due, if_pos awake] at often
    have blocked : ¬ (ready state.value = true ∨ state.holder ≠ some thread) := by
      simp [captured.notReady, captured.holder]
    simp only [runCommand, next, if_neg blocked] at ran
    cases ran
    have notOnce : state.depth ≠ 1 := by omega
    refine ⟨⟨?_, ?_, ⟨rest, next⟩, captured.notReady⟩, rfl, rfl⟩
    · simp [State.sleep, State.release, notOnce, captured.holder]
    · simp only [State.sleep, State.release, State.due, Function.update_self, reduceCtorEq,
        if_false]
      omega
  · by_cases isBack : action = .reacquire thread
    · subst isBack
      obtain ⟨⟨awakened, -⟩, ⟨⟩⟩ := Option.ite_none_right_eq_some.mp stepped
      have positive := settled.taken thread captured.holder
      have same : afterSleep (state.remaining thread) = state.remaining thread := by rw [next]; rfl
      refine ⟨⟨rfl, ?_, ⟨rest, ?_⟩, captured.notReady⟩, rfl, ?_⟩
      · simp only [State.take, State.proceed, State.due, Function.update_self, if_true]
        omega
      · simp [State.proceed, next, afterSleep]
      · simp [State.proceed, same]
    · have busy : state.remaining thread ≠ [] := by simp [next]
      obtain ⟨untouched, remaining⟩ := step_untouched settled captured.holder busy
        (fun chosen isChosen => isRun ⟨chosen, isChosen⟩) isBack stepped
      refine ⟨⟨untouched.holder.trans captured.holder, ?_, ⟨rest, remaining.trans next⟩, ?_⟩,
        untouched.value, remaining⟩
      · rw [untouched.depth, State.due, if_congr (untouched.awake thread) rfl rfl]
        exact captured.often
      · rw [untouched.value]
        exact captured.notReady

end Capturing

end Pthreads.ConditionMonitors
