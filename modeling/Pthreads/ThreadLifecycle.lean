import Pthreads.GuardedRuns
import Pthreads.WorkerTasks

/-!
# The life of a thread

A Thread or Worker is started, joined and destroyed by its creator, through the
original object.  `pthreads_start`, `pthreads_join` and `pthreads_base_dtor` of
`src/object.c` run on the creator, `pthreads_routine` on the child, and they meet
in the flags of the object's monitor.  Every section under the monitor is one
action here; what runs between two of them on one thread and concerns only that
thread is part of the action before.

The fields of `History` are never read by the program.
-/

namespace Pthreads.ThreadLifecycle

open WorkerTasks (MonitorFlag MonitorState monitorAdd monitorRemove)

/-- Where a thread is in `pthreads_monitor_wait_until`. -/
inductive Wait where
  /-- About to check the flag, under the monitor. -/
  | checking
  /-- In `pthread_cond_wait`, with or without a wakeup on its way. -/
  | asleep (woken : Bool)
deriving DecidableEq, Repr

/-- Where the creator is. -/
inductive CreatorPhase where
  /-- In user code. -/
  | free
  /-- In `pthreads_routine_wait`. -/
  | awaitingReady (wait : Wait)
  /-- `JOINED` is set; waiting for `AWAIT_JOIN`. -/
  | awaitingJoin (wait : Wait)
  /-- `AWAIT_JOIN` was seen. -/
  | joinAwaited
  /-- In `pthreads_store_full_sync_local_properties` of the thread. -/
  | syncingThread
  /-- In `pthreads_worker_sync_collectable_tasks`. -/
  | syncingTasks
  /-- Synchronised; `EXIT` is not set yet. -/
  | synced
  /-- In `pthread_join`. -/
  | awaitingThread
deriving DecidableEq, Repr

/-- Where the child is in `pthreads_routine`. -/
inductive ChildPhase where
  /-- There is no such thread. -/
  | absent
  /-- In `pthreads_prepared_startup`. -/
  | preparing
  /-- In `run`, or in the loop over the tasks of a worker. -/
  | running
  /-- Behind `zend_end_try`, before `AWAIT_JOIN` is set. -/
  | left
  /-- Waiting for `EXIT`. -/
  | awaitingExit (wait : Wait)
  /-- Dropping `PTHREADS_ZG(this)` and cleaning `done_tasks_cache`. -/
  | destroying
  /-- In `pthreads_prepared_shutdown`. -/
  | shuttingDown
  | exited
deriving DecidableEq, Repr

/-- What has become of the original object. -/
inductive OriginalPhase where
  | alive
  /-- `pthreads_base_dtor` calls the `join` of the user's class. -/
  | joining
  /-- `zend_objects_destroy_object` calls the `__destruct` of the user's class. -/
  | destructing
  /-- The destructor has run.  A `__destruct` that stored `$this` somewhere keeps
  the object usable. -/
  | destructed
  | freed
deriving DecidableEq, Repr

/-- What happens on the two threads. -/
inductive Event where
  /-- The child executes user code, which may modify properties. -/
  | childUserCode
  /-- The child is out of `run` and of its tasks. -/
  | childLeft
  | syncBegins
  | syncEnds
  /-- The child begins to destroy its own objects. -/
  | childDestroys
deriving DecidableEq, Repr

structure History where
  /-- The last event first. -/
  events : List Event
  /-- The successful calls of `pthread_create`. -/
  created : Nat
  /-- The calls of `pthread_join`: the thread that calls, and whether through the
  original. -/
  joins : List (Nat × Bool)
  /-- A start succeeded after the check of `pthreads_base_dtor`. -/
  startedLate : Bool

structure State where
  monitor : MonitorState
  /-- `PTHREADS_MONITOR_READY` of the routine's own monitor. -/
  ready : Bool
  creator : CreatorPhase
  child : ChildPhase
  original : OriginalPhase
  history : History

/-- A thread object that was just constructed. -/
def initial : State where
  monitor := fun _ => false
  ready := false
  creator := .free
  child := .absent
  original := .alive
  history := ⟨[], 0, [], false⟩

def State.record (state : State) (event : Event) : State :=
  { state with history := { state.history with events := event :: state.history.events } }

def Wait.notify : Wait → Wait
  | .checking => .checking
  | .asleep _ => .asleep true

/-- A notification on the object's monitor reaches the creator. -/
def CreatorPhase.notify : CreatorPhase → CreatorPhase
  | .awaitingJoin wait => .awaitingJoin wait.notify
  | phase => phase

/-- A notification on the routine's monitor reaches the creator. -/
def CreatorPhase.notifyReady : CreatorPhase → CreatorPhase
  | .awaitingReady wait => .awaitingReady wait.notify
  | phase => phase

/-- A notification on the object's monitor reaches the child. -/
def ChildPhase.notify : ChildPhase → ChildPhase
  | .awaitingExit wait => .awaitingExit wait.notify
  | phase => phase

/-- `pthreads_monitor_notify` on the object's monitor. -/
def State.notify (state : State) : State :=
  { state with
    creator := state.creator.notify
    child := state.child.notify }

/-- `pthreads_monitor_add`. -/
def State.add (state : State) (flag : MonitorFlag) : State :=
  { state with monitor := monitorAdd state.monitor flag }.notify

/-- `pthreads_monitor_remove`. -/
def State.remove (state : State) (flag : MonitorFlag) : State :=
  { state with monitor := monitorRemove state.monitor flag }.notify

/-- Why a call throws a `RuntimeException`. -/
inductive Refusal where
  | notCreatorStart
  | alreadyStarted
  | outOfResources
  | unknownError
  | notCreatorJoin
  | alreadyJoined
  | notStarted
deriving DecidableEq, Repr

def Refusal.message (className : String) : Refusal → String
  | .notCreatorStart => "only the creator of this " ++ className ++ " may start it"
  | .alreadyStarted => "the creator of " ++ className ++ " already started it"
  | .outOfResources => "cannot start " ++ className ++ ", out of resources"
  | .unknownError => "cannot start " ++ className ++ ", unknown error"
  | .notCreatorJoin => "only the creator of this " ++ className ++ " may join with it"
  | .alreadyJoined => "the creator of " ++ className ++ " already joined with it"
  | .notStarted => className ++ " has not been started"

/-- What `pthread_create` returns. -/
inductive CreateResult where
  | success
  | again
  | other
deriving DecidableEq, Repr

/-- `pthreads_start`, called on some thread through the original or through a
connection, as far as the wait for the child. -/
def pthreadsStart (creator : Nat) (state : State) (caller : Nat) (throughOriginal : Bool)
    (result : CreateResult) : State × Option Refusal :=
  if caller ≠ creator ∨ ¬ throughOriginal then (state, some .notCreatorStart)
  else if state.monitor .started then (state, some .alreadyStarted)
  else
    let started := state.add .started
    match result with
    | .success =>
        ({ started with
          ready := false
          creator := .awaitingReady .checking
          child := .preparing
          history := { started.history with
            created := started.history.created + 1
            startedLate := started.history.startedLate ||
              (state.original = .destructing || state.original = .destructed) } }, none)
    | .again => (started.remove .started, some .outOfResources)
    | .other => (started.remove .started, some .unknownError)

/-- `pthreads_join`, as far as the wait for the child. -/
def pthreadsJoin (creator : Nat) (state : State) (caller : Nat) (throughOriginal : Bool) :
    State × Option Refusal :=
  if caller ≠ creator ∨ ¬ throughOriginal then (state, some .notCreatorJoin)
  else if state.monitor .joined then (state, some .alreadyJoined)
  else if ¬ state.monitor .started then (state, some .notStarted)
  else ({ state.add .joined with creator := .awaitingJoin .checking }, none)

/-- One round of the loop of `pthreads_monitor_wait_until`: the next phase if the
flag is set. -/
def Wait.step {Phase : Type} (wait : Wait) (flag : Bool) (next : Phase)
    (waiting : Wait → Phase) : Option Phase :=
  match wait with
  | .checking => some (if flag then next else waiting (.asleep false))
  | .asleep true => some (waiting .checking)
  | .asleep false => none

/-- User code on the creator can use the original. -/
def State.creatorCanCall (state : State) : Bool :=
  state.creator = .free ∧ state.original ≠ .freed

/-- A thread can make a call: other threads at any time, through connections. -/
def State.canCall (creator : Nat) (state : State) (caller : Nat) (throughOriginal : Bool) : Bool :=
  if caller = creator then
    state.creator = .free ∧ (throughOriginal → state.creatorCanCall)
  else true

inductive Action where
  /-- `Thread::start`. -/
  | start (caller : Nat) (throughOriginal : Bool) (result : CreateResult)
  /-- `Thread::join` and `Worker::shutdown`, if the user's class does not override
  them or calls them. -/
  | join (caller : Nat) (throughOriginal : Bool)
  /-- The creator takes one round of its wait. -/
  | creatorWaits
  /-- `pthread_cond_wait` of the creator returns without a notification. -/
  | creatorWakes
  | syncThread
  | syncTasks
  | syncDone
  /-- The creator sets `EXIT` and calls `pthread_join`. -/
  | exit
  /-- `pthread_join` returns. -/
  | joinReturns
  /-- The last reference to the original goes: `pthreads_base_dtor` begins. -/
  | destructor
  /-- The user's `join` returns to `pthreads_base_dtor`. -/
  | userJoinReturns
  /-- The user's `__destruct` returns. -/
  | destructReturns
  /-- `pthreads_base_free` of the original. -/
  | free
  /-- `pthreads_prepared_startup` is done. -/
  | childReady
  /-- The child executes user code. -/
  | childUserCode
  /-- `pthreads_routine_run_function` and `pthreads_worker_next_task` change other
  flags of the monitor. -/
  | childSetsFlag (flag : MonitorFlag) (on : Bool)
  /-- The child is behind `zend_end_try`. -/
  | childLeaves
  /-- The child sets `AWAIT_JOIN`. -/
  | childAwaitsJoin
  | childWaits
  | childWakes
  /-- Destroying an object of the child calls its `__destruct`. -/
  | childDestructor
  /-- The child has destroyed its objects. -/
  | childShutsDown
  | childExits
deriving DecidableEq, Repr

/-- The flags of the monitor that the child changes while it runs. -/
def runningFlag : MonitorFlag → Bool
  | .running | .error | .collectGarbage => true
  | _ => false

def step (creator : Nat) (state : State) : Action → Option State
  | .start caller throughOriginal result =>
      if state.canCall creator caller throughOriginal then
        some (pthreadsStart creator state caller throughOriginal result).1
      else none
  | .join caller throughOriginal =>
      if state.canCall creator caller throughOriginal then
        some (pthreadsJoin creator state caller throughOriginal).1
      else none
  | .creatorWaits =>
      match state.creator with
      | .awaitingReady wait =>
          (wait.step state.ready .free .awaitingReady).map fun phase =>
            { state with creator := phase }
      | .awaitingJoin wait =>
          (wait.step (state.monitor .awaitJoin) .joinAwaited .awaitingJoin).map fun phase =>
            { state with creator := phase }
      | _ => none
  | .creatorWakes =>
      match state.creator with
      | .awaitingReady (.asleep false) =>
          some { state with creator := .awaitingReady (.asleep true) }
      | .awaitingJoin (.asleep false) =>
          some { state with creator := .awaitingJoin (.asleep true) }
      | _ => none
  | .syncThread =>
      if state.creator = .joinAwaited then
        some ({ state with creator := .syncingThread }.record .syncBegins)
      else none
  | .syncTasks =>
      if state.creator = .syncingThread then some { state with creator := .syncingTasks } else none
  | .syncDone =>
      if state.creator = .syncingTasks then
        some ({ state with creator := .synced }.record .syncEnds)
      else none
  | .exit =>
      if state.creator = .synced then
        let exited := state.add .exit
        some { exited with
          creator := .awaitingThread
          history := { exited.history with joins := (creator, true) :: exited.history.joins } }
      else none
  | .joinReturns =>
      if state.creator = .awaitingThread ∧ state.child = .exited then
        some { state with creator := .free }
      else none
  | .destructor =>
      if state.creator = .free ∧ state.original = .alive then
        some { state with
          original := if state.monitor .started ∧ ¬ state.monitor .joined then .joining
            else .destructing }
      else none
  | .userJoinReturns =>
      if state.creator = .free ∧ state.original = .joining then
        let checked := { state with original := .destructing }
        some (if state.monitor .joined then checked
          else (pthreadsJoin creator checked creator true).1)
      else none
  | .destructReturns =>
      if state.creator = .free ∧ state.original = .destructing then
        some { state with original := .destructed }
      else none
  | .free =>
      if state.creator = .free ∧ state.original = .destructed then
        some { state with original := .freed }
      else none
  | .childReady =>
      if state.child = .preparing then
        some { state with
          ready := true
          child := .running
          creator := state.creator.notifyReady }
      else none
  | .childUserCode =>
      if state.child = .running then some (state.record .childUserCode) else none
  | .childSetsFlag flag on =>
      if state.child = .running ∧ runningFlag flag then
        some (if on then state.add flag else state.remove flag)
      else none
  | .childLeaves =>
      if state.child = .running then
        some ({ state with child := .left }.record .childLeft)
      else none
  | .childAwaitsJoin =>
      if state.child = .left then
        some { state.add .awaitJoin with child := .awaitingExit .checking }
      else none
  | .childWaits =>
      match state.child with
      | .awaitingExit wait =>
          (wait.step (state.monitor .exit) .destroying .awaitingExit).map fun phase =>
            if phase = .destroying then { state with child := phase }.record .childDestroys
            else { state with child := phase }
      | _ => none
  | .childWakes =>
      match state.child with
      | .awaitingExit (.asleep false) => some { state with child := .awaitingExit (.asleep true) }
      | _ => none
  | .childDestructor =>
      if state.child = .destroying ∨ state.child = .shuttingDown then
        some (state.record .childUserCode)
      else none
  | .childShutsDown =>
      if state.child = .destroying then some { state with child := .shuttingDown } else none
  | .childExits =>
      if state.child = .shuttingDown then some { state with child := .exited } else none

end Pthreads.ThreadLifecycle
