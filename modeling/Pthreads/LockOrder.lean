import Pthreads.GuardedRuns
import Pthreads.RecursiveLocks

/-!
# The order of the global monitor and the object monitors

Store operations lock the monitor of their object and then, for a Threaded
member, the global monitor.  `pthreads_base_free` locks the global monitor and
then, in `pthreads_store_persist_local_properties` or `pthreads_ts_object_free`,
the monitor of its object, and `src/prepare.c` sets up and shuts down a whole request
under the global monitor.  Here every piece of work is given by the locks it
takes, as in `src/store.c`, `src/object.c`, `src/globals.c`, `src/worker.c` and
`src/prepare.c`, and threads run such work in any interleaving.
-/

namespace Pthreads.LockOrder

open GuardedRuns Locks

inductive Monitor where
  | global
  | object (object : Nat)
  /-- Of an object that only this thread knows yet. -/
  | unshared (thread : Nat)
deriving DecidableEq

/-- Work of a thread, with what happens inside. -/
inductive Work where
  /-- The functions of `src/globals.c` that only look something up or register it:
  `pthreads_globals_object_valid`, `_alloc`, `_delete`. -/
  | globalsAccess
  /-- `pthreads_globals_object_connect`, which may create a connection; its class
  has this many defaults. -/
  | globalsObjectConnect (created : Option Nat)
  /-- `pthreads_connect` of an object that the thread has just created, a worker or
  not. -/
  | connect (isWorker : Bool)
  /-- `pthreads_base_free`: a worker first frees the tasks of its queues, and the
  values of the local table are released last. -/
  | baseFree (object : Nat) (tasks : Option (List Work)) (released : List Work)
  /-- A store or worker operation, with what it does under the object's monitor:
  validate and restore members, release cached values, work on members. -/
  | storeOperation (object : Nat) (inside : List Work)
  /-- `pthreads_prepared_startup` and `pthreads_prepared_shutdown`, with the work that is
  done between `PTHREADS_PREPARATION_BEGIN_CRITICAL` and `_END_CRITICAL`: values are copied,
  and `php_request_shutdown` runs shutdown functions and destructors and frees objects. -/
  | preparation (inside : List Work)

/-- The instructions between a lock and its release. -/
def locked (monitor : Monitor) (inside : List (Instruction Monitor)) :
    List (Instruction Monitor) :=
  .lock monitor :: inside ++ [.unlock monitor]

/-- The new object of a connection: it is registered, its defaults are written, and
its own shared object is freed again when it is connected. -/
def createdConnection (thread : Nat) : Option Nat → List (Instruction Monitor)
  | none => []
  | some defaults =>
      locked .global [] ++
        (List.replicate (defaults + 1) (locked (.unshared thread) [])).flatten

mutual

/-- The locks that a piece of work takes. -/
def trace (thread : Nat) : Work → List (Instruction Monitor)
  | .globalsAccess => locked .global []
  | .globalsObjectConnect created =>
      locked .global (locked .global [] ++ createdConnection thread created)
  | .connect isWorker =>
      locked .global ((if isWorker then locked (.unshared thread) [] else []) ++
        locked (.unshared thread) [])
  | .baseFree object tasks released =>
      (match tasks with
        | none => []
        | some queued => locked (.object object) (traces thread queued)) ++
      locked .global (locked (.object object) [] ++ locked .global []) ++
      traces thread released
  | .storeOperation object inside => locked (.object object) (traces thread inside)
  | .preparation inside => locked .global (traces thread inside)

def traces (thread : Nat) : List Work → List (Instruction Monitor)
  | [] => []
  | work :: works => trace thread work ++ traces thread works

end

inductive Action where
  /-- An idle thread begins a piece of work. -/
  | start (thread : Nat) (work : Work)
  | advance (thread : Nat)

def step (locks : Locks Monitor) : Action → Option (Locks Monitor)
  | .start thread work => locks.start thread (trace thread work)
  | .advance thread => locks.advance thread

/-- One thread holds the global monitor and is blocked on the monitor of an object
whose holder is blocked on the global monitor. -/
def CircularWait (locks : Locks Monitor) : Prop :=
  ∃ first second object, first ≠ second ∧
    locks.holder .global = some first ∧
    (locks.remaining first).head? = some (.lock (.object object)) ∧
    locks.holder (.object object) = some second ∧
    (locks.remaining second).head? = some (.lock .global)

/-- No other thread holds the object's monitor and still needs the global one. -/
def noneAscends (locks : Locks Monitor) (object thread : Nat) : Bool :=
  (locks.holder (.object object)).all fun other =>
    other = thread ∨ .lock .global ∉ locks.remaining other

/-- No other thread holds the global monitor and locks the object's next. -/
def noneDescends (locks : Locks Monitor) (object thread : Nat) : Bool :=
  (locks.holder .global).all fun other =>
    other = thread ∨ (locks.remaining other).head? ≠ some (.lock (.object object))

/-- Locking an object's monitor under the global one does not overlap with an operation
of another thread on that object that needs the global monitor. -/
def orderly (locks : Locks Monitor) : Action → Bool
  | .start _ _ => true
  | .advance thread =>
      match locks.remaining thread with
      | [] => true
      | instruction :: rest =>
          (match rest with
            | .lock (.object object) :: _ =>
                !(locks.holder .global = some thread || instruction = .lock .global) ||
                  noneAscends locks object thread
            | _ => true) &&
          match instruction with
          | .lock (.object object) =>
              .lock .global ∉ rest || noneDescends locks object thread
          | _ => true

theorem balanced_append {first second : List (Instruction Monitor)} (isFirst : Balanced first)
    (isSecond : Balanced second) : Balanced (first ++ second) := by
  intro monitor
  rw [List.count_append, List.count_append, isFirst monitor, isSecond monitor]

theorem balanced_nil : Balanced ([] : List (Instruction Monitor)) := fun _ => rfl

theorem balanced_locked (monitor : Monitor) {inside : List (Instruction Monitor)}
    (isInside : Balanced inside) : Balanced (locked monitor inside) := by
  intro other
  have same := isInside other
  by_cases isMonitor : monitor = other
  · subst isMonitor
    simp [locked, List.count_append, same]
  · simp [locked, List.count_append, same, isMonitor]

theorem balanced_createdConnection (thread : Nat) (created : Option Nat) :
    Balanced (createdConnection thread created) := by
  cases created with
  | none => exact balanced_nil
  | some defaults =>
      apply balanced_append (balanced_locked _ balanced_nil)
      induction defaults + 1 with
      | zero => exact balanced_nil
      | succ count ih =>
          rw [List.replicate_succ, List.flatten_cons]
          exact balanced_append (balanced_locked _ balanced_nil) ih

theorem balanced_freeing (object : Nat) :
    Balanced (locked .global (locked (.object object) [] ++ locked .global [])) :=
  balanced_locked _ (balanced_append (balanced_locked _ balanced_nil)
    (balanced_locked _ balanced_nil))

mutual

theorem balanced_trace (thread : Nat) : ∀ work : Work, Balanced (trace thread work)
  | .globalsAccess => balanced_locked _ balanced_nil
  | .globalsObjectConnect created =>
      balanced_locked _ (balanced_append (balanced_locked _ balanced_nil)
        (balanced_createdConnection thread created))
  | .connect isWorker => by
      refine balanced_locked _ (balanced_append ?_ (balanced_locked _ balanced_nil))
      cases isWorker with
      | false => exact balanced_nil
      | true => exact balanced_locked _ balanced_nil
  | .baseFree object none released =>
      balanced_append (balanced_append balanced_nil (balanced_freeing object))
        (balanced_traces thread released)
  | .baseFree object (some tasks) released =>
      balanced_append (balanced_append (balanced_locked _ (balanced_traces thread tasks))
        (balanced_freeing object)) (balanced_traces thread released)
  | .storeOperation object inside => balanced_locked _ (balanced_traces thread inside)
  | .preparation inside => balanced_locked _ (balanced_traces thread inside)

theorem balanced_traces (thread : Nat) : ∀ works : List Work, Balanced (traces thread works)
  | [] => balanced_nil
  | work :: works => balanced_append (balanced_trace thread work) (balanced_traces thread works)

end

theorem yields_of_orderly {locks : Locks Monitor} {thread : Nat}
    (isOrderly : orderly locks (.advance thread) = true) (object : Nat) :
    locks.Yields .global (.object object) thread := by
  refine ⟨?_, ?_⟩
  · intro instruction rest program takes other different ⟨holds, needs⟩
    simp only [orderly, program, Bool.and_eq_true, Bool.or_eq_true] at isOrderly
    rcases isOrderly.1 with notTaking | clear
    · simp only [Bool.not_eq_true', Bool.or_eq_false_iff, decide_eq_false_iff_not] at notTaking
      exact takes.elim notTaking.1 notTaking.2
    · simp [noneAscends, holds, needs, different] at clear
  · intro rest program needs other different ⟨holds, next⟩
    simp only [orderly, program, Bool.and_eq_true, Bool.or_eq_true, decide_eq_true_eq]
      at isOrderly
    rcases isOrderly.2 with notNeeded | clear
    · exact notNeeded needs
    · simp [noneDescends, holds, next, different] at clear

/-- The invariant of an orderly run. -/
structure Uncrossed (locks : Locks Monitor) : Prop where
  settled : locks.Settled
  uncrossed : ∀ object, ¬ locks.Crossed .global (.object object)

theorem step_uncrossed {locks after : Locks Monitor} {action : Action}
    (invariant : Uncrossed locks) (isOrderly : orderly locks action = true)
    (stepped : step locks action = some after) : Uncrossed after := by
  obtain ⟨settled, uncrossed⟩ := invariant
  cases action with
  | start thread work =>
      exact ⟨start_settled settled (balanced_trace thread work) stepped,
        fun object => start_not_crossed settled (uncrossed object) stepped⟩
  | advance thread =>
      exact ⟨advance_settled settled stepped, fun object =>
        advance_not_crossed (uncrossed object) (yields_of_orderly isOrderly object) stepped⟩

/-- The action keeps what locks an object under the global monitor and the work of others
on that object apart. -/
def Orderly (locks : Locks Monitor) (action : Action) : Prop := orderly locks action = true

instance (locks : Locks Monitor) (action : Action) : Decidable (Orderly locks action) :=
  inferInstanceAs (Decidable (_ = _))

theorem CircularWait.crossed {locks : Locks Monitor} (waits : CircularWait locks) :
    ∃ object, locks.Crossed .global (.object object) := by
  obtain ⟨first, second, object, different, holdsGlobal, next, holdsObject, needs⟩ := waits
  refine ⟨object, first, second, different, ⟨holdsGlobal, next⟩, holdsObject, ?_⟩
  exact List.mem_of_head? needs

/-- In every orderly run no thread waits for an object whose holder waits for
it. -/
theorem no_circular_wait {locks : Locks Monitor}
    (reached : Reaches step Orderly unlocked locks) : ¬ CircularWait locks := by
  have invariant : Uncrossed locks := by
    refine reached.preserves (fun _ _ _ invariant isOrderly stepped =>
      step_uncrossed invariant isOrderly stepped) ⟨settled_unlocked, ?_⟩
    rintro object ⟨first, second, -, ⟨⟨⟩, -⟩, -⟩
  intro waits
  obtain ⟨object, crossed⟩ := waits.crossed
  exact invariant.uncrossed object crossed

/-- Thread 1 reads a Threaded member of object 5; thread 2 then shuts down, and a
shutdown function writes to object 5 before thread 2 frees its connection to it. -/
def readThenFree : List Action :=
  [.start 1 (.storeOperation 5 [.globalsObjectConnect none])] ++ List.replicate 6 (.advance 1) ++
    [.start 2 (.preparation [.storeOperation 5 [.globalsAccess], .baseFree 5 none []])] ++
    List.replicate 12 (.advance 2)

theorem no_circular_wait_readThenFree :
    ∃ locks, execute step unlocked readThenFree = some locks ∧
      Admits step Orderly unlocked readThenFree ∧ ¬ CircularWait locks := by
  have admitted : Admits step Orderly unlocked readThenFree := by decide
  exact ⟨_, rfl, admitted, no_circular_wait (reaches_of_execute admitted rfl)⟩

/-- Thread 1 has locked object 5 to read a Threaded member when thread 2, freeing
its connection, locks the global monitor. -/
def freeDuringRead : List Action :=
  [.start 1 (.storeOperation 5 [.globalsObjectConnect none]), .advance 1,
    .start 2 (.baseFree 5 none []), .advance 2]

theorem circular_wait_freeDuringRead :
    ∃ locks, execute step unlocked freeDuringRead = some locks ∧ CircularWait locks ∧
      step locks (.advance 1) = none ∧ step locks (.advance 2) = none := by
  refine ⟨_, rfl, ⟨2, 1, 5, by decide, rfl, rfl, rfl, rfl⟩, rfl, rfl⟩

end Pthreads.LockOrder
