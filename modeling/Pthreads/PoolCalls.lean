import Pthreads.PoolResize

/-!
# What a pool calls on its workers

The methods of a pool call `start` on a worker that they have just made, and the other
methods on the workers of the table.  Nothing is called on a worker after its `shutdown`,
and the tasks that the pool has accepted are those that it has stacked on some worker.
-/

namespace Pthreads.PoolWorkers

/-- The task of a call of `stack`. -/
def Call.task : Call → Option Nat
  | .stack task => some task
  | _ => none

/-- The tasks that are stacked. -/
def tasksOf (calls : List (Nat × Call)) : List Nat := calls.filterMap fun call => call.2.task

/-- The tasks that are stacked on a worker. -/
def tasksOn (worker : Nat) (calls : List (Nat × Call)) : List Nat :=
  tasksOf (calls.filter fun call => call.1 = worker)

@[simp]
theorem tasksOf_append (calls added : List (Nat × Call)) :
    tasksOf (calls ++ added) = tasksOf calls ++ tasksOf added :=
  List.filterMap_append

@[simp]
theorem tasksOn_append (worker : Nat) (calls added : List (Nat × Call)) :
    tasksOn worker (calls ++ added) = tasksOn worker calls ++ tasksOn worker added := by
  simp [tasksOn]

/-- A worker on which nothing is called has no tasks. -/
theorem tasksOn_of_notMem {worker : Nat} {calls : List (Nat × Call)}
    (others : ∀ call ∈ calls, call.1 ≠ worker) : tasksOn worker calls = [] := by
  have none : calls.filter (fun call => decide (call.1 = worker)) = [] := by
    apply List.filter_eq_nil_iff.mpr
    intro call isIn
    simpa using others call isIn
  rw [tasksOn, none]
  rfl

/-- The stacked tasks, worker by worker. -/
theorem tasksOf_perm {bound : Nat} {calls : List (Nat × Call)}
    (below : ∀ call ∈ calls, call.1 < bound) :
    ((List.range bound).flatMap fun worker => tasksOn worker calls).Perm (tasksOf calls) := by
  induction bound generalizing calls with
  | zero =>
      cases calls with
      | nil => exact List.Perm.refl _
      | cons call calls => exact absurd (below call List.mem_cons_self) (Nat.not_lt_zero _)
  | succ bound ih =>
      have split := (List.filter_append_perm (fun call => decide (call.1 = bound)) calls).symm
      have others : ∀ call ∈ calls.filter (fun call => !decide (call.1 = bound)),
          call.1 < bound := by
        intro call isIn
        obtain ⟨isCall, different⟩ := List.mem_filter.mp isIn
        have small := below call isCall
        have notBound : call.1 ≠ bound := by simpa using different
        omega
      have same : ∀ worker ∈ List.range bound,
          tasksOn worker (calls.filter fun call => !decide (call.1 = bound)) =
            tasksOn worker calls := by
        intro worker isIn
        have small := List.mem_range.mp isIn
        rw [tasksOn, tasksOn, List.filter_filter]
        congr 2
        funext call
        by_cases isWorker : call.1 = worker
        · have notBound : call.1 ≠ bound := by omega
          simp [isWorker, isWorker ▸ notBound]
        · simp [isWorker]
      rw [List.range_succ, List.flatMap_append, List.flatMap_singleton]
      have earlier := ih others
      rw [List.flatMap_congr same] at earlier
      apply (earlier.append_right (tasksOn bound calls)).trans
      rw [tasksOn, ← tasksOf_append]
      exact (List.perm_append_comm.trans split.symm).filterMap _

/-- A task is taken when the index of a worker is returned. -/
def Outcome.taken (task : Nat) : Outcome → List Nat
  | .value _ => [task]
  | _ => []

/-- The task that a method takes, unless it throws. -/
def accepts (classExists : String → Bool) (pool : Pool) : Action → List Nat
  | .submit task => (submit classExists pool task).2.taken task
  | .submitTo worker task => (submitTo pool worker task).2.taken task
  | _ => []

/-- Nothing is called on a worker after its `shutdown`. -/
def ShutLast (calls : List (Nat × Call)) : Prop :=
  calls.Pairwise fun earlier later => later.1 = earlier.1 → earlier.2 ≠ .shutdown

/-- A worker is called from its `start` on, which is called once. -/
def StartFirst (calls : List (Nat × Call)) : Prop :=
  ∀ before worker call after, calls = before ++ (worker, call) :: after →
    (call = .start ↔ (worker, .start) ∉ before)

/-- A method calls workers of the table, or a new one. -/
structure Calls (pool after : Pool) (added : List (Nat × Call)) : Prop where
  calls : after.calls = pool.calls ++ added
  workers : (after.made = pool.made ∧
      ∀ call ∈ added, call.1 ∈ Workers.handles pool.table ∧ call.2 ≠ .start) ∨
    (after.made = pool.made + 1 ∧
      ∃ task, added = [(pool.made, .start), (pool.made, .stack task)])
  shutLast : ShutLast added

section Methods

variable {classExists : String → Bool} {pool after : Pool}

theorem Tallied.lt_made (tallied : Tallied pool) {worker : Nat}
    (isIn : worker ∈ Workers.handles pool.table) : worker < pool.made := by
  have counted := List.count_pos_iff.mpr isIn
  have total := tallied worker
  by_contra unmade
  rw [if_neg unmade] at total
  omega

theorem Tallied.nodup (tallied : Tallied pool) : (Workers.handles pool.table).Nodup := by
  apply List.nodup_iff_count_le_one.mpr
  intro worker
  have total := tallied worker
  split at total <;> omega

/-- A worker of the table was not shut down. -/
theorem Tallied.working (tallied : Tallied pool) {worker : Nat}
    (isIn : worker ∈ Workers.handles pool.table) : (worker, .shutdown) ∉ pool.calls := by
  intro isShut
  have counted := List.count_pos_iff.mpr isIn
  have shut : 0 < pool.shutdowns worker := List.count_pos_iff.mpr isShut
  have total := tallied worker
  split at total <;> omega

/-- A worker that is not in the table was shut down. -/
theorem Tallied.removed (tallied : Tallied pool) {worker : Nat} (made : worker < pool.made)
    (removed : worker ∉ Workers.handles pool.table) : (worker, .shutdown) ∈ pool.calls := by
  have total := tallied worker
  rw [if_pos made, List.count_eq_zero_of_not_mem removed] at total
  have shut : 0 < pool.shutdowns worker := by omega
  exact List.count_pos_iff.mp shut

theorem shutLast_of_others {calls : List (Nat × Call)}
    (others : ∀ call ∈ calls, call.2 ≠ .shutdown) : ShutLast calls := by
  apply List.Pairwise.imp_of_mem _ (List.pairwise_of_forall fun _ _ => trivial)
  intro earlier later isIn _ _ _
  exact others earlier isIn

theorem shutLast_of_nodup {shut : List Nat} (nodup : shut.Nodup) :
    ShutLast (shut.map fun worker => (worker, .shutdown)) := by
  apply List.pairwise_map.mpr
  apply nodup.imp
  intro earlier later different same
  exact absurd same.symm different

theorem tasksOf_shutdowns (shut : List Nat) :
    tasksOf (shut.map fun worker => (worker, .shutdown)) = [] := by
  apply List.filterMap_eq_nil_iff.mpr
  intro call isIn
  obtain ⟨worker, -, rfl⟩ := List.mem_map.mp isIn
  rfl

theorem mem_handles_of_find {key : Int} {worker : Nat} {workers : Workers}
    (found : workers.find key = some worker) : worker ∈ Workers.handles workers :=
  List.mem_map.mpr ⟨_, OrderedTable.find_eq_some_iff.mp found, rfl⟩

theorem Calls.none (calls : after.calls = pool.calls) (made : after.made = pool.made) :
    Calls pool after [] where
  calls := by rw [calls, List.append_nil]
  workers := Or.inl ⟨made, by simp⟩
  shutLast := List.Pairwise.nil

theorem submit_calls (task : Nat) :
    ∃ added, Calls pool (submit classExists pool task).1 added ∧
      tasksOf added = accepts classExists pool (.submit task) := by
  unfold accepts submit
  dsimp only
  split
  · next worker found =>
    refine ⟨[(worker, .stack task)], ⟨rfl, Or.inl ⟨rfl, ?_⟩, ?_⟩, rfl⟩
    · intro call isIn
      cases List.mem_singleton.mp isIn
      exact ⟨mem_handles_of_find found, nofun⟩
    · exact List.pairwise_singleton _ _
  · split
    · exact ⟨[], Calls.none rfl rfl, rfl⟩
    · split
      · refine ⟨[(pool.made, .start), (pool.made, .stack task)],
          ⟨?_, Or.inr ⟨rfl, task, rfl⟩, ?_⟩, rfl⟩
        · simp [submitSelected]
        · apply shutLast_of_others
          simp
      · exact ⟨[], Calls.none rfl rfl, rfl⟩

theorem submitTo_calls (worker : Int) (task : Nat) :
    ∃ added, Calls pool (submitTo pool worker task).1 added ∧
      tasksOf added = accepts classExists pool (.submitTo worker task) := by
  unfold accepts submitTo
  dsimp only
  split
  · next selected found =>
    refine ⟨[(selected, .stack task)], ⟨rfl, Or.inl ⟨rfl, ?_⟩, ?_⟩, rfl⟩
    · intro call isIn
      cases List.mem_singleton.mp isIn
      exact ⟨mem_handles_of_find found, nofun⟩
    · exact List.pairwise_singleton _ _
  · exact ⟨[], Calls.none rfl rfl, rfl⟩

theorem collect_calls (sizes : Nat → Int) :
    ∃ added, Calls pool (collect pool sizes).1 added ∧ tasksOf added = [] := by
  unfold collect
  split
  · exact ⟨[], Calls.none rfl rfl, rfl⟩
  · next workers present =>
    refine ⟨(workers.entries.map Prod.snd).map (·, .collect),
      ⟨rfl, Or.inl ⟨rfl, ?_⟩, ?_⟩, ?_⟩
    · intro call isIn
      obtain ⟨worker, isWorker, rfl⟩ := List.mem_map.mp isIn
      refine ⟨?_, nofun⟩
      rw [Workers.handles, Pool.table, present]
      exact isWorker
    · apply shutLast_of_others
      intro call isIn
      obtain ⟨worker, -, rfl⟩ := List.mem_map.mp isIn
      exact Call.noConfusion
    · apply List.filterMap_eq_nil_iff.mpr
      intro call isIn
      obtain ⟨worker, -, rfl⟩ := List.mem_map.mp isIn
      rfl

/-- Workers that go out of the table are shut down. -/
theorem Calls.shut (tallied : Tallied pool) {shut : List Nat}
    (handles : (Workers.handles pool.table).Perm (shut ++ Workers.handles after.table))
    (made : after.made = pool.made)
    (calls : after.calls = pool.calls ++ shut.map fun worker => (worker, .shutdown)) :
    Calls pool after (shut.map fun worker => (worker, .shutdown)) where
  calls := calls
  workers := by
    refine Or.inl ⟨made, ?_⟩
    intro call isIn
    obtain ⟨worker, isShut, rfl⟩ := List.mem_map.mp isIn
    exact ⟨handles.mem_iff.mpr (List.mem_append_left _ isShut), nofun⟩
  shutLast :=
    shutLast_of_nodup (List.nodup_append.mp (handles.nodup_iff.mp tallied.nodup)).1

theorem shutdown_calls (tallied : Tallied pool) :
    ∃ added, Calls pool (shutdown pool).1 added ∧ tasksOf added = [] := by
  unfold shutdown
  split
  · exact ⟨[], Calls.none rfl rfl, rfl⟩
  · next workers present =>
    refine ⟨(Workers.handles workers).map fun worker => (worker, .shutdown), ?_,
      tasksOf_shutdowns _⟩
    apply Calls.shut tallied
    · simp [Pool.table, present, Workers.handles, OrderedTable.empty]
    · rfl
    · simp [Workers.handles]

/-- Every method stacks the task that it takes. -/
theorem step_calls (tallied : Tallied pool) {action : Action}
    (stepped : step classExists pool action = some after) :
    ∃ added, Calls pool after added ∧ tasksOf added = accepts classExists pool action := by
  cases action with
  | submit task =>
      cases stepped
      exact submit_calls task
  | submitTo worker task =>
      cases stepped
      exact submitTo_calls worker task
  | collect sizes =>
      cases stepped
      exact collect_calls sizes
  | resize newSize =>
      obtain ⟨⟨left, outcome⟩, resized, rfl⟩ := Option.map_eq_some_iff.mp stepped
      rw [resize_eq_within] at resized
      obtain ⟨-, made, shut, handles, calls⟩ := resizeWithin_eq resized
      exact ⟨_, Calls.shut tallied handles made calls, tasksOf_shutdowns shut⟩
  | shutdown =>
      cases stepped
      exact shutdown_calls tallied

/-- A worker is called from its `start` to its `shutdown`. -/
structure Sealed (pool : Pool) : Prop where
  tallied : Tallied pool
  made : ∀ call ∈ pool.calls, call.1 < pool.made
  begun : ∀ worker < pool.made, (worker, .start) ∈ pool.calls
  startFirst : StartFirst pool.calls
  shutLast : ShutLast pool.calls

theorem sealed_construct (size : Int) (className : String) :
    Sealed (construct size className) where
  tallied := tallied_construct size className
  made := by simp [construct]
  begun := by simp [construct]
  startFirst := by simp [StartFirst, construct]
  shutLast := List.Pairwise.nil

theorem StartFirst.snoc {calls : List (Nat × Call)} (startFirst : StartFirst calls) {worker : Nat}
    {call : Call} (first : call = .start ↔ (worker, .start) ∉ calls) :
    StartFirst (calls ++ [(worker, call)]) := by
  intro before other otherCall after split
  rcases List.eq_nil_or_concat after with rfl | ⟨rest, last, rfl⟩
  · obtain ⟨rfl, equal⟩ := List.append_inj' split rfl
    cases equal
    exact first
  · rw [List.concat_eq_append, ← List.cons_append, ← List.append_assoc] at split
    exact startFirst before other otherCall rest (List.append_inj' split rfl).1

theorem StartFirst.append {calls added : List (Nat × Call)} (startFirst : StartFirst calls)
    (started : ∀ call ∈ added, (call.1, .start) ∈ calls ∧ call.2 ≠ .start) :
    StartFirst (calls ++ added) := by
  induction added generalizing calls with
  | nil =>
      rw [List.append_nil]
      exact startFirst
  | cons call added ih =>
      obtain ⟨worker, call⟩ := call
      obtain ⟨isStarted, notStart⟩ := started _ List.mem_cons_self
      have one := startFirst.snoc (iff_of_false notStart (not_not.mpr isStarted))
      have rest := ih one (by
        intro later isIn
        obtain ⟨laterStarted, laterNotStart⟩ := started later (List.mem_cons_of_mem _ isIn)
        exact ⟨List.mem_append_left _ laterStarted, laterNotStart⟩)
      rwa [List.append_assoc] at rest

/-- The new calls are on workers that were not shut down. -/
theorem Sealed.working (isSealed : Sealed pool) {added : List (Nat × Call)}
    (calls : Calls pool after added) {call : Nat × Call} (isIn : call ∈ added) :
    (call.1, .shutdown) ∉ pool.calls := by
  rcases calls.workers with ⟨-, inTable⟩ | ⟨-, task, rfl⟩
  · exact isSealed.tallied.working (inTable call isIn).1
  · intro isShut
    have isMade := isSealed.made _ isShut
    rcases List.mem_pair.mp isIn with rfl | rfl
    · exact absurd isMade (Nat.lt_irrefl _)
    · exact absurd isMade (Nat.lt_irrefl _)

theorem Sealed.calls (isSealed : Sealed pool) {added : List (Nat × Call)}
    (calls : Calls pool after added) (tallied : Tallied after) : Sealed after := by
  have shutLast : ShutLast after.calls := by
    rw [calls.calls]
    apply List.pairwise_append.mpr
    refine ⟨isSealed.shutLast, calls.shutLast, ?_⟩
    intro earlier isEarlier later isLater same shut
    apply isSealed.working calls isLater
    rw [same, ← shut]
    exact isEarlier
  rcases calls.workers with ⟨made, inTable⟩ | ⟨made, task, rfl⟩
  · have below : ∀ call ∈ added, call.1 < pool.made := fun call isIn =>
      isSealed.tallied.lt_made (inTable call isIn).1
    refine ⟨tallied, ?_, ?_, ?_, shutLast⟩
    · intro call isIn
      rw [calls.calls, List.mem_append] at isIn
      rw [made]
      exact isIn.elim (isSealed.made call) (below call)
    · intro worker isMade
      rw [made] at isMade
      rw [calls.calls]
      exact List.mem_append_left _ (isSealed.begun worker isMade)
    · rw [calls.calls]
      apply isSealed.startFirst.append
      intro call isIn
      exact ⟨isSealed.begun _ (below call isIn), (inTable call isIn).2⟩
  · have new : (pool.made, Call.start) ∉ pool.calls := fun isIn =>
      absurd (isSealed.made _ isIn) (Nat.lt_irrefl _)
    refine ⟨tallied, ?_, ?_, ?_, shutLast⟩
    · intro call isIn
      rw [calls.calls, List.mem_append] at isIn
      rcases isIn with before | isNew
      · have := isSealed.made call before
        omega
      · rcases List.mem_pair.mp isNew with rfl | rfl
        · omega
        · omega
    · intro worker isMade
      rw [calls.calls]
      by_cases isNew : worker = pool.made
      · simp [isNew]
      · exact List.mem_append_left _ (isSealed.begun worker (by omega))
    · have started := isSealed.startFirst.snoc (iff_of_true rfl new)
      have stacked : StartFirst
          (pool.calls ++ [(pool.made, .start)] ++ [(pool.made, .stack task)]) :=
        started.snoc (iff_of_false nofun (by simp))
      rw [List.append_assoc] at stacked
      rw [calls.calls]
      exact stacked

end Methods

end Pthreads.PoolWorkers
