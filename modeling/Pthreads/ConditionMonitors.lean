import Mathlib.Data.List.Basic
import Mathlib.Logic.Function.Basic
import Pthreads.GuardedRuns

/-!
# Monitors with a condition

Threads share a value, a lock that its holder may take again, and one condition to
sleep on.  Going to sleep releases the lock once, however often the thread holds it,
and a thread that wakes up takes it once again before it goes on.  A thread can wake
up without having been awakened.  The programs of the threads are bracketed: they
release what they take, they sleep and they change the value only while they hold
the lock, and every change is announced at once.
-/

namespace Pthreads.ConditionMonitors

open GuardedRuns

/-- What a thread does next. -/
inductive Command (V : Type*) where
  | lock
  | unlock
  | change (update : V → V)
  | broadcast
  | signal
  | wait
  /-- Sleep as long as the value is not ready. -/
  | waitUntil (ready : V → Bool)

inductive Phase where
  | awake
  | asleep
  /-- No longer asleep, but without the lock that it had. -/
  | awakened
deriving DecidableEq

/-- The value, the lock, and what each thread has left to run. -/
structure State (V : Type*) where
  value : V
  holder : Option Nat
  depth : Nat
  phase : Nat → Phase
  remaining : Nat → List (Command V)

inductive Action (V : Type*) where
  | begin (thread : Nat) (program : List (Command V))
  /-- The next command of a thread; a signal is for the chosen thread. -/
  | run (thread chosen : Nat)
  | awaken (thread : Nat)
  | reacquire (thread : Nat)

variable {V : Type*}

/-- Nobody holds the lock, and no thread has anything to run. -/
def initial (value : V) : State V := ⟨value, none, 0, fun _ => .awake, fun _ => []⟩

def Phase.awaken : Phase → Phase
  | .asleep => .awakened
  | phase => phase

namespace State

def take (state : State V) (thread : Nat) : State V :=
  { state with holder := some thread, depth := state.depth + 1 }

def release (state : State V) : State V :=
  { state with
    holder := if state.depth = 1 then none else state.holder
    depth := state.depth - 1 }

/-- Release the lock once and sleep. -/
def sleep (state : State V) (thread : Nat) : State V :=
  { state.release with phase := Function.update state.phase thread .asleep }

def proceed (state : State V) (thread : Nat) (rest : List (Command V)) : State V :=
  { state with remaining := Function.update state.remaining thread rest }

/-- How often the thread holds the lock. -/
def held (state : State V) (thread : Nat) : Nat :=
  if state.holder = some thread then state.depth else 0

/-- How often the thread takes the lock again before it goes on. -/
def due (state : State V) (thread : Nat) : Nat :=
  if state.phase thread = .awake then 0 else 1

@[simp]
theorem held_proceed (state : State V) (mover thread : Nat) (rest : List (Command V)) :
    (state.proceed mover rest).held thread = state.held thread :=
  rfl

@[simp]
theorem due_proceed (state : State V) (mover thread : Nat) (rest : List (Command V)) :
    (state.proceed mover rest).due thread = state.due thread :=
  rfl

@[simp]
theorem remaining_proceed_self (state : State V) (thread : Nat) (rest : List (Command V)) :
    (state.proceed thread rest).remaining thread = rest :=
  Function.update_self _ _ _

theorem remaining_proceed_of_ne {thread other : Nat} (different : other ≠ thread)
    (state : State V) (rest : List (Command V)) :
    (state.proceed thread rest).remaining other = state.remaining other :=
  Function.update_of_ne different _ _

@[simp]
theorem due_take (state : State V) (mover thread : Nat) :
    (state.take mover).due thread = state.due thread :=
  rfl

@[simp]
theorem due_release (state : State V) (thread : Nat) :
    state.release.due thread = state.due thread :=
  rfl

@[simp]
theorem held_sleep (state : State V) (sleeper thread : Nat) :
    (state.sleep sleeper).held thread = state.release.held thread :=
  rfl

@[simp]
theorem due_sleep_self (state : State V) (thread : Nat) : (state.sleep thread).due thread = 1 := by
  simp [due, sleep]

end State

/-- A thread that is awake runs its next command. -/
def runCommand (state : State V) (thread chosen : Nat) : Option (State V) :=
  match state.remaining thread with
  | [] => none
  | .lock :: rest =>
      if state.holder = none ∨ state.holder = some thread then
        some ((state.take thread).proceed thread rest)
      else none
  | .unlock :: rest =>
      some ((if state.holder = some thread then state.release else state).proceed thread rest)
  | .change update :: rest =>
      some ({ state with value := update state.value }.proceed thread rest)
  | .broadcast :: rest =>
      some ({ state with phase := fun other => (state.phase other).awaken }.proceed thread rest)
  | .signal :: rest =>
      some ({ state with
        phase := Function.update state.phase chosen (state.phase chosen).awaken
      }.proceed thread rest)
  | .wait :: rest =>
      if state.holder = some thread then some (state.sleep thread)
      else some (state.proceed thread rest)
  | .waitUntil ready :: rest =>
      if ready state.value = true ∨ state.holder ≠ some thread then
        some (state.proceed thread rest)
      else some (state.sleep thread)

/-- A thread that wakes up is through with its wait, or looks at the value again. -/
def afterSleep : List (Command V) → List (Command V)
  | .wait :: rest => rest
  | program => program

def step (state : State V) : Action V → Option (State V)
  | .begin thread program =>
      if (state.remaining thread).isEmpty = true then some (state.proceed thread program)
      else none
  | .run thread chosen =>
      if state.phase thread = .awake then runCommand state thread chosen else none
  | .awaken thread =>
      if state.phase thread = .asleep then
        some { state with phase := Function.update state.phase thread .awakened }
      else none
  | .reacquire thread =>
      if state.phase thread = .awakened ∧
          (state.holder = none ∨ state.holder = some thread) then
        some { (state.take thread).proceed thread (afterSleep (state.remaining thread)) with
          phase := Function.update state.phase thread .awake }
      else none

/-- The program keeps the discipline of the monitor when it is begun by a thread that
holds the lock so often. -/
def Bracketed : Nat → List (Command V) → Prop
  | level, [] => level = 0
  | level, .lock :: rest => Bracketed (level + 1) rest
  | level, .unlock :: rest => 0 < level ∧ Bracketed (level - 1) rest
  | level, .change _ :: .broadcast :: rest => 0 < level ∧ Bracketed level rest
  | _, .change _ :: _ => False
  | level, .broadcast :: rest => Bracketed level rest
  | level, .signal :: rest => Bracketed level rest
  | level, .wait :: rest => Bracketed level rest
  | level, .waitUntil _ :: rest => 0 < level ∧ Bracketed level rest

/-- How often the program releases the lock beyond what it takes itself. -/
def debt : List (Command V) → Nat
  | [] => 0
  | .lock :: rest => debt rest - 1
  | .unlock :: rest => debt rest + 1
  | _ :: rest => debt rest

/-- Only bracketed programs are begun. -/
def Disciplined (_ : State V) : Action V → Prop
  | .begin _ program => Bracketed 0 program
  | _ => True

theorem Bracketed.change {level : Nat} {update : V → V} {rest : List (Command V)}
    (bracketed : Bracketed level (.change update :: rest)) :
    0 < level ∧ ∃ later, rest = .broadcast :: later ∧ Bracketed level rest := by
  cases rest with
  | nil => exact bracketed.elim
  | cons next later =>
      cases next with
      | broadcast => exact ⟨bracketed.1, later, rfl, bracketed.2⟩
      | lock | unlock | change | signal | wait | waitUntil => exact bracketed.elim

/-- The level at which a program is bracketed is what it has to release. -/
theorem Bracketed.debt_eq {level : Nat} {program : List (Command V)}
    (bracketed : Bracketed level program) : level = debt program := by
  induction program generalizing level with
  | nil => exact bracketed
  | cons command rest ih =>
      cases command with
      | lock =>
          have deeper : level + 1 = debt rest := ih bracketed
          simp only [debt]
          omega
      | unlock =>
          have shallower : level - 1 = debt rest := ih bracketed.2
          have positive : 0 < level := bracketed.1
          simp only [debt]
          omega
      | change update =>
          obtain ⟨-, later, -, same⟩ := bracketed.change
          exact ih same
      | broadcast | signal | wait => exact ih bracketed
      | waitUntil ready => exact ih bracketed.2

/-- The lock is held as often as it was taken, and every thread has as much left to
release as it holds or will take again. -/
structure Settled (state : State V) : Prop where
  free : state.holder = none → state.depth = 0
  taken : ∀ thread, state.holder = some thread → 0 < state.depth
  level : ∀ thread,
    Bracketed (state.held thread + state.due thread) (state.remaining thread)

theorem settled_initial (value : V) : Settled (initial value) where
  free _ := rfl
  taken _ isHolder := by cases isHolder
  level _ := rfl

section Locking

variable {state : State V} {thread other : Nat}

theorem Settled.held_eq_zero (settled : Settled state) :
    state.held thread = 0 ↔ state.holder ≠ some thread := by
  by_cases isHolder : state.holder = some thread
  · have positive := settled.taken thread isHolder
    simp only [State.held, isHolder, if_true, ne_eq, not_true_eq_false, iff_false]
    omega
  · simp [State.held, isHolder]

theorem Settled.held_take (settled : Settled state)
    (isFree : state.holder = none ∨ state.holder = some thread) :
    (state.take thread).held thread = state.held thread + 1 := by
  rcases isFree with isNone | isOwn
  · simp [State.held, State.take, isNone, settled.free isNone]
  · simp [State.held, State.take, isOwn]

theorem held_take_of_ne (isFree : state.holder = none ∨ state.holder = some thread)
    (different : other ≠ thread) : (state.take thread).held other = state.held other := by
  rcases isFree with isNone | isOwn
  · simp [State.held, State.take, isNone, Ne.symm different]
  · simp [State.held, State.take, isOwn, Ne.symm different]

theorem Settled.held_release (settled : Settled state) (isHolder : state.holder = some thread) :
    state.release.held thread + 1 = state.held thread := by
  have positive := settled.taken thread isHolder
  by_cases once : state.depth = 1
  · simp [State.held, State.release, once, isHolder]
  · simp only [State.held, State.release, once, if_false, isHolder, if_true]
    omega

theorem held_release_of_ne (isHolder : state.holder = some thread) (different : other ≠ thread) :
    state.release.held other = state.held other := by
  have notOther : state.holder ≠ some other := by simp [isHolder, Ne.symm different]
  by_cases once : state.depth = 1
  · simp [State.held, State.release, once, notOther]
  · simp [State.held, State.release, once, notOther]

theorem release_free (isNone : state.release.holder = none)
    (settled : Settled state) : state.release.depth = 0 := by
  by_cases once : state.depth = 1
  · simp [State.release, once]
  · have before : state.holder = none := by simpa [State.release, once] using isNone
    simp [State.release, settled.free before]

theorem release_taken (settled : Settled state)
    (isHolder : state.release.holder = some other) : 0 < state.release.depth := by
  by_cases once : state.depth = 1
  · simp [State.release, once] at isHolder
  · have before : state.holder = some other := by simpa [State.release, once] using isHolder
    have positive := settled.taken other before
    simp only [State.release]
    omega

end Locking

section Steps

variable {state after : State V} {thread : Nat}

/-- A thread that is awake and has the lock still to release holds it. -/
theorem Settled.holder_eq (settled : Settled state) (awake : state.phase thread = .awake)
    {level : Nat} (owes : state.held thread + state.due thread = level) (positive : 0 < level) :
    state.holder = some thread := by
  by_contra notHolder
  have nothing := settled.held_eq_zero.mpr notHolder
  simp only [nothing, State.due, awake, if_true] at owes
  omega

/-- A step that moves one thread keeps the account of the others. -/
theorem Settled.of_moved (thread : Nat) (settled : Settled state)
    (free : after.holder = none → after.depth = 0)
    (taken : ∀ other, after.holder = some other → 0 < after.depth)
    (others : ∀ other, other ≠ thread → after.held other = state.held other)
    (dues : ∀ other, other ≠ thread → after.due other = state.due other)
    (programs : ∀ other, other ≠ thread → after.remaining other = state.remaining other)
    (own : Bracketed (after.held thread + after.due thread) (after.remaining thread)) :
    Settled after where
  free := free
  taken := taken
  level := by
    intro other
    by_cases same : other = thread
    · subst same
      exact own
    · rw [others other same, dues other same, programs other same]
      exact settled.level other

@[simp]
theorem isAwake_awaken (phase : Phase) : phase.awaken = .awake ↔ phase = .awake := by
  cases phase <;> simp [Phase.awaken]

theorem begin_settled {program : List (Command V)} (settled : Settled state)
    (bracketed : Bracketed 0 program)
    (stepped : step state (.begin thread program) = some after) : Settled after := by
  obtain ⟨finished, ⟨⟩⟩ := Option.ite_none_right_eq_some.mp stepped
  have nothing := settled.level thread
  rw [List.isEmpty_iff.mp finished] at nothing
  apply settled.of_moved thread
  · exact settled.free
  · exact settled.taken
  · exact fun _ _ => rfl
  · exact fun _ _ => rfl
  · intro other different
    exact Function.update_of_ne different _ _
  · have level : state.held thread + state.due thread = 0 := nothing
    simpa [level] using bracketed

theorem awaken_settled (settled : Settled state)
    (stepped : step state (.awaken thread) = some after) : Settled after := by
  obtain ⟨sleeps, ⟨⟩⟩ := Option.ite_none_right_eq_some.mp stepped
  apply settled.of_moved thread
  · exact settled.free
  · exact settled.taken
  · exact fun _ _ => rfl
  · intro other different
    simp [State.due, different]
  · exact fun _ _ => rfl
  · have level := settled.level thread
    simpa [State.held, State.due, sleeps] using level

theorem Bracketed.afterSleep {level : Nat} {program : List (Command V)}
    (bracketed : Bracketed level program) : Bracketed level (afterSleep program) := by
  cases program with
  | nil => exact bracketed
  | cons command rest => cases command <;> exact bracketed

theorem reacquire_settled (settled : Settled state)
    (stepped : step state (.reacquire thread) = some after) : Settled after := by
  obtain ⟨⟨awakened, isFree⟩, ⟨⟩⟩ := Option.ite_none_right_eq_some.mp stepped
  apply settled.of_moved thread
  · intro isNone
    simp [State.take, State.proceed] at isNone
  · intro other _
    exact Nat.succ_pos _
  · intro other different
    exact held_take_of_ne isFree different
  · intro other different
    simp [State.due, different]
  · intro other different
    exact State.remaining_proceed_of_ne different _ _
  · -- the level that was due is held now
    have level := (settled.level thread).afterSleep
    have holds := settled.held_take isFree
    have owes : (state.take thread).held thread = state.held thread + state.due thread := by
      simp [holds, State.due, awakened]
    rw [← owes] at level
    simpa [State.due, State.held, State.take, State.proceed] using level

/-- A thread runs on to the rest of its program without touching the lock. -/
theorem Settled.proceed {rest : List (Command V)} (settled : Settled state)
    (bracketed : Bracketed (state.held thread + state.due thread) rest) :
    Settled (state.proceed thread rest) := by
  apply settled.of_moved thread
  · exact settled.free
  · exact settled.taken
  · exact fun _ _ => rfl
  · exact fun _ _ => rfl
  · intro other different
    exact Function.update_of_ne different _ _
  · simpa using bracketed

theorem Settled.lock {rest : List (Command V)} (settled : Settled state)
    (program : state.remaining thread = .lock :: rest)
    (isFree : state.holder = none ∨ state.holder = some thread) :
    Settled ((state.take thread).proceed thread rest) := by
  apply settled.of_moved thread
  · intro isNone
    simp [State.take, State.proceed] at isNone
  · intro other _
    exact Nat.succ_pos _
  · intro other different
    exact held_take_of_ne isFree different
  · exact fun _ _ => rfl
  · intro other different
    exact Function.update_of_ne different _ _
  · have level := settled.level thread
    rw [program] at level
    have holds := settled.held_take isFree
    have grows : (state.take thread).held thread + state.due thread =
        state.held thread + state.due thread + 1 := by omega
    have bracketed : Bracketed (state.held thread + state.due thread + 1) rest := level
    rw [← grows] at bracketed
    simpa using bracketed

theorem Settled.unlock {rest : List (Command V)} (settled : Settled state)
    (awake : state.phase thread = .awake)
    (program : state.remaining thread = .unlock :: rest) :
    Settled
      ((if state.holder = some thread then state.release else state).proceed thread rest) := by
  have level := settled.level thread
  rw [program] at level
  obtain ⟨positive, bracketed⟩ := level
  have isHolder := settled.holder_eq awake rfl positive
  rw [if_pos isHolder]
  apply settled.of_moved thread
  · exact fun isNone => release_free isNone settled
  · exact fun other => release_taken settled
  · intro other different
    exact held_release_of_ne isHolder different
  · exact fun _ _ => rfl
  · intro other different
    exact Function.update_of_ne different _ _
  · have shrinks := settled.held_release isHolder
    have less : state.release.held thread + state.due thread =
        state.held thread + state.due thread - 1 := by omega
    rw [← less] at bracketed
    simpa using bracketed

/-- A thread that sleeps takes back later the one level that it releases. -/
theorem Settled.level_sleep (settled : Settled state) (awake : state.phase thread = .awake)
    (isHolder : state.holder = some thread) :
    (state.sleep thread).held thread + (state.sleep thread).due thread =
      state.held thread + state.due thread := by
  have shrinks := settled.held_release isHolder
  have nothingDue : state.due thread = 0 := by simp [State.due, awake]
  rw [State.held_sleep, State.due_sleep_self, nothingDue]
  omega

theorem Settled.sleep (settled : Settled state) (awake : state.phase thread = .awake)
    (isHolder : state.holder = some thread) : Settled (state.sleep thread) := by
  apply settled.of_moved thread
  · exact fun isNone => release_free isNone settled
  · exact fun other => release_taken settled
  · intro other different
    exact held_release_of_ne isHolder different
  · intro other different
    simp [State.due, State.sleep, different]
  · exact fun _ _ => rfl
  · rw [settled.level_sleep awake isHolder]
    exact settled.level thread

/-- Waking sleepers takes no lock. -/
theorem Settled.phases {phases : Nat → Phase} (settled : Settled state)
    (kept : ∀ other, phases other = .awake ↔ state.phase other = .awake) :
    Settled { state with phase := phases } where
  free := settled.free
  taken := settled.taken
  level := by
    intro other
    have level := settled.level other
    by_cases awake : state.phase other = .awake
    · simpa [State.held, State.due, awake, (kept other).mpr awake] using level
    · have notAwake : phases other ≠ .awake := fun isAwake => awake ((kept other).mp isAwake)
      simpa [State.held, State.due, awake, notAwake] using level

theorem runCommand_settled {chosen : Nat} (settled : Settled state)
    (awake : state.phase thread = .awake)
    (stepped : runCommand state thread chosen = some after) : Settled after := by
  have level := settled.level thread
  cases program : state.remaining thread with
  | nil => simp [runCommand, program] at stepped
  | cons command rest =>
      rw [runCommand, program] at stepped
      rw [program] at level
      cases command <;> dsimp only at stepped
      case lock =>
        obtain ⟨isFree, ⟨⟩⟩ := Option.ite_none_right_eq_some.mp stepped
        exact settled.lock program isFree
      case unlock =>
        cases stepped
        exact settled.unlock awake program
      case change update =>
        cases stepped
        have changed : Settled { state with value := update state.value } :=
          ⟨settled.free, settled.taken, settled.level⟩
        obtain ⟨-, later, -, bracketed⟩ := level.change
        exact changed.proceed bracketed
      case broadcast =>
        cases stepped
        have awakened := settled.phases fun other => isAwake_awaken (state.phase other)
        apply awakened.proceed
        have bracketed : Bracketed (state.held thread + state.due thread) rest := level
        simpa [State.held, State.due] using bracketed
      case signal =>
        cases stepped
        have kept : ∀ other, Function.update state.phase chosen (state.phase chosen).awaken other =
            .awake ↔ state.phase other = .awake := by
          intro other
          by_cases same : other = chosen
          · subst same
            simp
          · simp [same]
        have awakened := settled.phases kept
        apply awakened.proceed
        have bracketed : Bracketed (state.held thread + state.due thread) rest := level
        simpa only [State.held, State.due, kept thread] using bracketed
      case wait =>
        split at stepped
        · next isHolder =>
          cases stepped
          exact settled.sleep awake isHolder
        · cases stepped
          exact settled.proceed level
      case waitUntil ready =>
        split at stepped
        · cases stepped
          exact settled.proceed level.2
        · cases stepped
          have isHolder := settled.holder_eq awake rfl level.1
          exact settled.sleep awake isHolder

/-- Every step of a bracketed program keeps the account of the lock. -/
theorem step_settled {action : Action V} (settled : Settled state)
    (disciplined : Disciplined state action) (stepped : step state action = some after) :
    Settled after := by
  cases action with
  | begin thread program => exact begin_settled settled disciplined stepped
  | run thread chosen =>
      obtain ⟨awake, ran⟩ := Option.ite_none_right_eq_some.mp stepped
      exact runCommand_settled settled awake ran
  | awaken thread => exact awaken_settled settled stepped
  | reacquire thread => exact reacquire_settled settled stepped

end Steps

end Pthreads.ConditionMonitors
