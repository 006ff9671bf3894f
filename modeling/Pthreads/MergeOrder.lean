import Pthreads.LockOrder

/-!
# The order of two object monitors

`pthreads_store_merge` locks the destination and then the source, in the order of
its arguments, and `pthreads_store_full_sync_local_properties` locks the members of
an object while it holds the object's own monitor.  Nothing else orders them: two
operations that nest a pair of monitors in opposite orders can block each other.
-/

namespace Pthreads.MergeOrder

open GuardedRuns Locks LockOrder

/-- What a full sync does to the members of an object, and with the finished tasks
of a worker. -/
inductive Member where
  /-- A value is restored that leads to no further sync. -/
  | restored (created : Option Nat)
  /-- A Threaded member is restored and synced; its outdated cache entries are
  released first. -/
  | synced (created : Option Nat) (object : Nat) (released : List Work) (members : List Member)
  /-- `pthreads_worker_sync_collectable_tasks`, under the worker's own monitor. -/
  | tasks (worker : Nat) (tasks : List Member)
  /-- A finished task is locked and synced. -/
  | task (object : Nat) (released : List Work) (members : List Member)

mutual

def Member.works : Member → List Work
  | .restored created => [.globalsObjectConnect created]
  | .synced created object released members =>
      [.globalsObjectConnect created, .storeOperation object (released ++ membersWork members)]
  | .tasks worker tasks => [.storeOperation worker (membersWork tasks)]
  | .task object released members =>
      [.storeOperation object [.storeOperation object (released ++ membersWork members)]]

def membersWork : List Member → List Work
  | [] => []
  | member :: members => member.works ++ membersWork members

end

inductive Operation where
  /-- `pthreads_store_merge` from a ThreadedArray; cached values of the destination
  are released on the way. -/
  | merge (destination source : Nat) (released : List Work)
  /-- `pthreads_store_full_sync_local_properties`. -/
  | fullSync (object : Nat) (released : List Work) (members : List Member)
  /-- Any other work. -/
  | other (work : Work)

def Operation.work : Operation → Work
  | .merge destination source released =>
      .storeOperation destination [.storeOperation source released]
  | .fullSync object released members => .storeOperation object (released ++ membersWork members)
  | .other work => work

structure State where
  locks : Locks Monitor
  /-- The locks of the operation that each thread began last, never read by the
  program. -/
  begun : Nat → List (Instruction Monitor)

def initial : State := ⟨unlocked, fun _ => []⟩

inductive Action where
  /-- An idle thread begins an operation. -/
  | start (thread : Nat) (operation : Operation)
  | advance (thread : Nat)

def step (state : State) : Action → Option State
  | .start thread operation =>
      (state.locks.start thread (trace thread operation.work)).map fun locks =>
        ⟨locks, Function.update state.begun thread (trace thread operation.work)⟩
  | .advance thread => (state.locks.advance thread).map fun locks => { state with locks := locks }

def isObject : Monitor → Bool
  | .object _ => true
  | _ => false

/-- A thread begins an operation only if no other thread is in the middle of one
that takes two of the object monitors in the opposite order. -/
def Compatible (state : State) : Action → Prop
  | .start thread operation => ∀ other, other ≠ thread → state.locks.remaining other ≠ [] →
      ¬ Opposed (state.begun other) (trace thread operation.work) isObject
  | .advance _ => True

/-- The operations in progress are compatible with each other. -/
structure Ordered (state : State) : Prop where
  settled : state.locks.Settled
  begun : ∀ thread, state.locks.Begun thread (state.begun thread)
  compatible : ∀ one other, one ≠ other → state.locks.remaining one ≠ [] →
    state.locks.remaining other ≠ [] → ¬ Opposed (state.begun one) (state.begun other) isObject

theorem ordered_initial : Ordered initial := by
  refine ⟨settled_unlocked, fun _ => ⟨balanced_nil, [], rfl⟩, ?_⟩
  intro one other _ busy
  exact absurd rfl busy

section Steps

variable {state after : State}

theorem start_ordered {thread : Nat} {operation : Operation} (ordered : Ordered state)
    (compatible : Compatible state (.start thread operation))
    (stepped : step state (.start thread operation) = some after) : Ordered after := by
  obtain ⟨locks, started, rfl⟩ := Option.map_eq_some_iff.mp stepped
  have balanced := balanced_trace thread operation.work
  have settled := start_settled ordered.settled balanced started
  obtain ⟨-, ⟨⟩⟩ := Option.ite_none_right_eq_some.mp started
  refine ⟨settled, ?_, ?_⟩
  · intro other
    by_cases same : other = thread
    · subst same
      exact ⟨by simpa using balanced, [], by simp⟩
    · obtain ⟨isBalanced, finished, whole⟩ := ordered.begun other
      simp only [Begun, Function.update_of_ne same]
      exact ⟨isBalanced, finished, whole⟩
  · intro one other different busyOne busyOther
    by_cases isOne : one = thread
    · subst isOne
      simp only [Function.update_self, Function.update_of_ne different.symm] at busyOther ⊢
      exact fun opposed => compatible other different.symm busyOther opposed.symm
    · by_cases isOther : other = thread
      · subst isOther
        simp only [Function.update_self, Function.update_of_ne isOne] at busyOne ⊢
        exact compatible one isOne busyOne
      · simp only [Function.update_of_ne isOne, Function.update_of_ne isOther]
          at busyOne busyOther ⊢
        exact ordered.compatible one other different busyOne busyOther

theorem advance_ordered {thread : Nat} (ordered : Ordered state)
    (stepped : step state (.advance thread) = some after) : Ordered after := by
  obtain ⟨locks, advanced, rfl⟩ := Option.map_eq_some_iff.mp stepped
  obtain ⟨instruction, rest, left, remaining, -⟩ := advance_cases advanced
  have wasBusy : ∀ other, locks.remaining other ≠ [] → state.locks.remaining other ≠ [] := by
    intro other busy
    by_cases same : other = thread
    · subst same
      simp [left]
    · rw [remaining, Function.update_of_ne same] at busy
      exact busy
  refine ⟨advance_settled ordered.settled advanced,
    fun other => (ordered.begun other).advance advanced, ?_⟩
  intro one other different busyOne busyOther
  exact ordered.compatible one other different (wasBusy one busyOne) (wasBusy other busyOther)

theorem step_ordered {action : Action} (ordered : Ordered state)
    (compatible : Compatible state action) (stepped : step state action = some after) :
    Ordered after := by
  cases action with
  | start thread operation => exact start_ordered ordered compatible stepped
  | advance thread => exact advance_ordered ordered stepped

end Steps

/-- In every run in which no thread begins an operation while another is in the
middle of one that takes two object monitors in the opposite order, no two threads
hold one of two object monitors each and are blocked on the other's. -/
theorem no_opposed_wait {state : State} (reached : Reaches step Compatible initial state)
    (first second : Nat) : ¬ state.locks.BlockEachOther (.object first) (.object second) := by
  have ordered : Ordered state :=
    reached.preserves (fun _ _ _ holds compatible stepped => step_ordered holds compatible stepped)
      ordered_initial
  intro blocked
  obtain ⟨one, other, different, busyOne, busyOther, opposed⟩ :=
    @BlockEachOther.opposed _ _ _ _ _ isObject _ blocked ordered.settled ordered.begun rfl rfl
  exact ordered.compatible one other different busyOne busyOther opposed

/-- Two threads merge array 6 into array 5 at the same time. -/
def mergeAlike : List Action :=
  [.start 1 (.merge 5 6 []), .start 2 (.merge 5 6 []), .advance 1, .advance 1]

theorem no_opposed_wait_mergeAlike :
    ∃ state, execute step initial mergeAlike = some state ∧
      state.locks.holder (.object 5) = some 1 ∧
      ¬ state.locks.BlockEachOther (.object 5) (.object 6) := by
  have admitted : Admits step Compatible initial mergeAlike := by
    refine ⟨fun other _ busy => absurd rfl busy, ?_, trivial, trivial, trivial⟩
    intro other _ busy
    by_cases isFirst : other = 1
    · subst isFirst
      decide
    · simp [isFirst, initial, unlocked] at busy
  exact ⟨_, rfl, rfl, no_opposed_wait (reaches_of_execute admitted rfl) 5 6⟩

/-- Thread 1 merges array 6 into array 5 while thread 2 merges array 5 into
array 6. -/
def mergeOpposed : List Action :=
  [.start 1 (.merge 5 6 []), .start 2 (.merge 6 5 []), .advance 1, .advance 2]

theorem mergeOpposed_blocks :
    ∃ state, execute step initial mergeOpposed = some state ∧
      Reaches step anyAction initial state ∧
      state.locks.BlockEachOther (.object 5) (.object 6) ∧
      step state (.advance 1) = none ∧ step state (.advance 2) = none := by
  refine ⟨_, rfl, ?_, ⟨1, 2, by decide, rfl, rfl, rfl, rfl⟩, rfl, rfl⟩
  exact reaches_of_execute (admits_anyAction step initial mergeOpposed) rfl

end Pthreads.MergeOrder
