import Pthreads.PoolDensity
import Mathlib.Data.List.Count

/-!
# The loop that resizes a pool

`Pool::resize` removes the worker at the last index until the number of workers is
the new size.  The loop ends exactly if every removal finds its worker and the new
size can be reached from above.  Every worker that a pool has made is in its table
or has been shut down, once.
-/

namespace Pthreads.PoolWorkers

open GuardedRuns

/-- The workers of the table, in its order. -/
def Workers.handles (workers : Workers) : List Nat := workers.entries.map Prod.snd

/-- `Pool::resize`, if its loop ends within a number of iterations. -/
def resizeWithin (fuel : Nat) (pool : Pool) (newSize : Int) : Option (Pool × Outcome) :=
  match pool.workers with
  | none => some ({ pool with size := newSize }, .void)
  | some workers =>
      if newSize < Workers.count workers then
        (resizeLoop newSize fuel workers).map fun (left, shut) =>
          ({ pool with
              size := newSize
              workers := some left
              calls := pool.calls ++ shut.map fun worker => (worker, .shutdown) }, .void)
      else
        some ({ pool with size := newSize }, .void)

/-- Every index that the loop of `resize` comes to has a worker. -/
def Workers.Shrinks (workers : Workers) (newSize : Int) : Prop :=
  0 ≤ newSize ∧
    ∀ index, newSize ≤ index → index < Workers.count workers → index ∈ workers.keys

/-- The pool has no worker table yet, or the loop finds what it removes. -/
def Pool.Resizes (pool : Pool) (newSize : Int) : Prop :=
  ∀ workers, pool.workers = some workers → Workers.Shrinks workers newSize

/-- How often a worker has been shut down. -/
def Pool.shutdowns (pool : Pool) (worker : Nat) : Nat := pool.calls.count (worker, .shutdown)

/-- Every worker made is in the table or has been shut down, once. -/
def Tallied (pool : Pool) : Prop :=
  ∀ worker, pool.shutdowns worker + (Workers.handles pool.table).count worker =
    if worker < pool.made then 1 else 0

section Removal

variable {workers : Workers} {key : Int}

theorem delete_absent (absent : key ∉ workers.keys) : workers.delete key = workers := by
  obtain ⟨entries, distinct⟩ := workers
  simp only [OrderedTable.delete, OrderedTable.filter, OrderedTable.mk.injEq]
  apply List.filter_eq_self.mpr
  intro entry isIn
  apply decide_eq_true
  rintro rfl
  exact absent (List.mem_map_of_mem isIn)

/-- The removed worker is gone, and the others stay. -/
theorem handles_delete {worker : Nat} (found : workers.find key = some worker) :
    (Workers.handles workers).Perm (worker :: Workers.handles (workers.delete key)) := by
  obtain ⟨entries, distinct⟩ := workers
  simp only [OrderedTable.find, OrderedTable.delete, OrderedTable.filter, Workers.handles]
    at found ⊢
  induction entries with
  | nil => cases found
  | cons entry entries ih =>
      obtain ⟨notIn, rest⟩ := List.nodup_cons.mp distinct
      by_cases same : entry.1 = key
      · simp only [OrderedTable.lookup, same, if_true, Option.some.injEq] at found
        have others : entries.filter (fun other => !decide (other.1 = key)) = entries := by
          apply List.filter_eq_self.mpr
          intro other isIn
          rw [Bool.not_eq_true', decide_eq_false_iff_not]
          intro equal
          exact notIn (List.mem_map.mpr ⟨other, isIn, equal.trans same.symm⟩)
        simp [same, others, found]
      · simp only [OrderedTable.lookup, same, if_false] at found
        have kept := (ih rest found).cons entry.2
        simpa [same] using kept.trans (List.Perm.swap _ _ _)

theorem count_delete (isIn : key ∈ workers.keys) :
    Workers.count workers = Workers.count (workers.delete key) + 1 := by
  obtain ⟨worker, found⟩ := Option.ne_none_iff_exists'.mp
    fun absent => OrderedTable.find_eq_none_iff.mp absent isIn
  simpa [Workers.handles, Workers.count] using (handles_delete found).length_eq

theorem count_pos (isIn : key ∈ workers.keys) : 0 < Workers.count workers := by
  rw [count_delete isIn]
  omega

/-- Once the last worker is removed, the loop goes on with the others. -/
theorem Workers.Shrinks.delete_last {newSize : Int} (shrinks : Workers.Shrinks workers newSize)
    (smaller : newSize < Workers.count workers) :
    (Workers.count workers : Int) - 1 ∈ workers.keys ∧
      Workers.Shrinks (workers.delete ((Workers.count workers : Int) - 1)) newSize := by
  obtain ⟨nonnegative, filled⟩ := shrinks
  have isIn := filled ((Workers.count workers : Int) - 1) (by omega) (by omega)
  refine ⟨isIn, nonnegative, ?_⟩
  intro index atLeast below
  have fewer := count_delete isIn
  exact mem_keys_delete.mpr ⟨filled index atLeast (by omega), by omega⟩

end Removal

section Loop

variable {newSize : Int}

/-- While it finds a worker at the last index, the loop comes closer to its end. -/
theorem resizeLoop_of_shrinks {fuel : Nat} {workers : Workers}
    (shrinks : Workers.Shrinks workers newSize) (smaller : newSize < Workers.count workers)
    (enough : Workers.count workers ≤ fuel) :
    (resizeLoop newSize fuel workers).isSome := by
  induction fuel generalizing workers with
  | zero =>
      have := shrinks.1
      omega
  | succ fuel ih =>
      obtain ⟨isIn, later⟩ := shrinks.delete_last smaller
      have fewer := count_delete isIn
      simp only [resizeLoop]
      split
      · next unfinished =>
        rw [Option.isSome_map]
        apply ih later <;> omega
      · rfl

/-- An iteration that finds no worker is repeated for ever, so a loop that ends has
found them all. -/
theorem shrinks_of_resizeLoop {fuel : Nat} {workers : Workers}
    (smaller : newSize < Workers.count workers)
    (ended : (resizeLoop newSize fuel workers).isSome) : Workers.Shrinks workers newSize := by
  induction fuel generalizing workers with
  | zero => cases ended
  | succ fuel ih =>
      simp only [resizeLoop] at ended
      by_cases isIn : (Workers.count workers : Int) - 1 ∈ workers.keys
      · have fewer := count_delete isIn
        have positive := count_pos isIn
        split at ended
        · next unfinished =>
          rw [Option.isSome_map] at ended
          obtain ⟨nonnegative, filled⟩ := ih (by omega) ended
          refine ⟨nonnegative, ?_⟩
          intro index atLeast below
          by_cases last : index = (Workers.count workers : Int) - 1
          · rw [last]
            exact isIn
          · exact (mem_keys_delete.mp (filled index atLeast (by omega))).1
        · next finished =>
          have reached : (Workers.count workers : Int) - 1 = newSize := by omega
          refine ⟨by omega, ?_⟩
          intro index atLeast below
          have last : index = (Workers.count workers : Int) - 1 := by omega
          rw [last]
          exact isIn
      · rw [delete_absent isIn, if_pos (by omega), Option.isSome_map] at ended
        exact ih smaller ended

/-- The loop shuts down what it removes. -/
theorem resizeLoop_handles {fuel : Nat} {workers left : Workers} {shut : List Nat}
    (ended : resizeLoop newSize fuel workers = some (left, shut)) :
    (Workers.handles workers).Perm (shut ++ Workers.handles left) := by
  induction fuel generalizing workers shut with
  | zero => cases ended
  | succ fuel ih =>
      simp only [resizeLoop] at ended
      have removed : (Workers.handles workers).Perm
          ((workers.find ((Workers.count workers : Int) - 1)).toList ++
            Workers.handles (workers.delete ((Workers.count workers : Int) - 1))) := by
        cases found : workers.find ((Workers.count workers : Int) - 1) with
        | none => rw [delete_absent (OrderedTable.find_eq_none_iff.mp found)]; rfl
        | some worker => exact handles_delete found
      split at ended
      · obtain ⟨⟨last, later⟩, looped, equal⟩ := Option.map_eq_some_iff.mp ended
        cases equal
        rw [List.append_assoc]
        exact removed.trans ((ih looped).append_left _)
      · cases ended
        exact removed

end Loop

section Tally

variable {classExists : String → Bool} {pool after : Pool}

theorem tallied_construct (size : Int) (className : String) :
    Tallied (construct size className) := by
  intro worker
  simp [Pool.shutdowns, construct, Pool.table, Workers.handles, OrderedTable.empty]

/-- A call that is no shutdown leaves the tally as it is. -/
theorem Tallied.congr (tallied : Tallied pool) (table : after.table = pool.table)
    (made : after.made = pool.made) (shutdowns : after.shutdowns = pool.shutdowns) :
    Tallied after := by
  intro worker
  rw [table, made, shutdowns]
  exact tallied worker

theorem shutdowns_append (calls : List (Nat × Call))
    (appended : after.calls = pool.calls ++ calls)
    (others : ∀ call ∈ calls, call.2 ≠ .shutdown) : after.shutdowns = pool.shutdowns := by
  funext worker
  have unseen : (worker, Call.shutdown) ∉ calls := fun isIn => others _ isIn rfl
  rw [Pool.shutdowns, appended, List.count_append, List.count_eq_zero_of_not_mem unseen]
  rfl

theorem Tallied.of_calls (tallied : Tallied pool) (calls : List (Nat × Call))
    (table : after.table = pool.table) (made : after.made = pool.made)
    (appended : after.calls = pool.calls ++ calls)
    (others : ∀ call ∈ calls, call.2 ≠ .shutdown) : Tallied after :=
  tallied.congr table made (shutdowns_append calls appended others)

theorem handles_update_of_notMem {workers : Workers} {key : Int} (worker : Nat)
    (absent : key ∉ workers.keys) :
    Workers.handles (workers.update key worker) = Workers.handles workers ++ [worker] := by
  rw [Workers.handles, OrderedTable.entries_update_of_notMem worker absent, List.map_append]
  rfl

/-- What `submit` does to workers and calls. -/
theorem submit_eq (task : Nat) :
    ((submit classExists pool task).1.table = pool.table ∧
        (submit classExists pool task).1.made = pool.made ∧
        (submit classExists pool task).1.shutdowns = pool.shutdowns) ∨
      (pool.index ∉ pool.table.keys ∧
        (submit classExists pool task).1.table = pool.table.update pool.index pool.made ∧
        (submit classExists pool task).1.made = pool.made + 1 ∧
        (submit classExists pool task).1.shutdowns = pool.shutdowns) := by
  unfold submit
  dsimp only
  split
  · next worker found =>
    refine Or.inl ⟨rfl, rfl, shutdowns_append [(worker, .stack task)] rfl ?_⟩
    simp
  · next absent =>
    split
    · exact Or.inl ⟨rfl, rfl, rfl⟩
    · split
      · refine Or.inr ⟨OrderedTable.find_eq_none_iff.mp absent, rfl, rfl,
          shutdowns_append [(pool.made, .start), (pool.made, .stack task)] ?_ ?_⟩
        · simp [submitSelected]
        · simp
      · exact Or.inl ⟨rfl, rfl, rfl⟩

theorem submit_tallied (tallied : Tallied pool) (task : Nat) :
    Tallied (submit classExists pool task).1 := by
  rcases @submit_eq classExists pool task with
    ⟨table, made, shutdowns⟩ | ⟨absent, table, made, shutdowns⟩
  · exact tallied.congr table made shutdowns
  · intro worker
    have before := tallied worker
    rw [shutdowns, table, made, handles_update_of_notMem _ absent, List.count_append,
      ← Nat.add_assoc, before, List.count_singleton]
    simp only [beq_iff_eq]
    split_ifs <;> omega

theorem count_shutdown (shut : List Nat) (worker : Nat) :
    (shut.map fun other => (other, Call.shutdown)).count (worker, .shutdown) =
      shut.count worker :=
  List.count_map_of_injective shut _ (fun _ _ equal => (Prod.mk.inj equal).1) worker

/-- Workers that go from the table to the shutdowns stay in the tally. -/
theorem Tallied.shut (tallied : Tallied pool) {shut : List Nat}
    (handles : (Workers.handles pool.table).Perm (shut ++ Workers.handles after.table))
    (made : after.made = pool.made)
    (calls : after.calls = pool.calls ++ shut.map fun worker => (worker, .shutdown)) :
    Tallied after := by
  intro worker
  rw [made, ← tallied worker, handles.count_eq, List.count_append, Pool.shutdowns, calls,
    List.count_append, count_shutdown, Nat.add_assoc]
  rfl

/-- What `resize` does when it returns. -/
theorem resizeWithin_eq {fuel : Nat} {newSize : Int} {outcome : Outcome}
    (resized : resizeWithin fuel pool newSize = some (after, outcome)) :
    outcome = .void ∧ after.made = pool.made ∧
      ∃ shut : List Nat,
        (Workers.handles pool.table).Perm (shut ++ Workers.handles after.table) ∧
          after.calls = pool.calls ++ shut.map fun worker => (worker, .shutdown) := by
  unfold resizeWithin at resized
  split at resized
  · cases resized
    exact ⟨rfl, rfl, [], List.Perm.refl _, (List.append_nil _).symm⟩
  · next workers present =>
    split at resized
    · obtain ⟨⟨left, shut⟩, looped, equal⟩ := Option.map_eq_some_iff.mp resized
      cases equal
      refine ⟨rfl, rfl, shut, ?_, rfl⟩
      simpa only [Pool.table, present, Option.getD_some] using resizeLoop_handles looped
    · cases resized
      exact ⟨rfl, rfl, [], List.Perm.refl _, (List.append_nil _).symm⟩

/-- `resize` allows its loop as many iterations as there are workers. -/
theorem resize_eq_within (newSize : Int) :
    resize pool newSize = resizeWithin (Workers.count pool.table) pool newSize := by
  unfold resize resizeWithin Pool.table
  cases pool.workers <;> rfl

theorem shutdown_tallied (tallied : Tallied pool) : Tallied (shutdown pool).1 := by
  unfold shutdown
  split
  · exact tallied
  · next workers present =>
    have emptied : (Workers.handles pool.table).Perm (Workers.handles workers ++ []) := by
      simp [Pool.table, present]
    exact tallied.shut emptied rfl (by simp [Workers.handles])

theorem step_tallied {action : Action} (tallied : Tallied pool)
    (stepped : step classExists pool action = some after) : Tallied after := by
  cases action with
  | submit task =>
      cases stepped
      exact submit_tallied tallied task
  | submitTo worker task =>
      cases stepped
      unfold submitTo
      dsimp only
      split
      · next selected _ =>
        exact tallied.of_calls [(selected, .stack task)] rfl rfl rfl (by simp)
      · exact tallied.congr rfl rfl rfl
  | collect sizes =>
      cases stepped
      unfold collect
      split
      · exact tallied
      · next workers present =>
        exact tallied.of_calls ((workers.entries.map Prod.snd).map (·, .collect)) rfl rfl rfl
          (by
            intro call isIn
            obtain ⟨worker, -, rfl⟩ := List.mem_map.mp isIn
            exact Call.noConfusion)
  | resize newSize =>
      obtain ⟨⟨left, outcome⟩, resized, rfl⟩ := Option.map_eq_some_iff.mp stepped
      rw [resize_eq_within] at resized
      obtain ⟨-, made, shut, handles, calls⟩ := resizeWithin_eq resized
      exact tallied.shut handles made calls
  | shutdown =>
      cases stepped
      exact shutdown_tallied tallied

theorem tallied_of_reaches {size : Int} {name : String}
    (reached : Reaches (step classExists) anyAction (construct size name) pool) : Tallied pool :=
  reached.preserves (fun _ _ _ tallied _ stepped => step_tallied tallied stepped)
    (tallied_construct size name)

/-- A worker that is no longer in the table has been shut down once. -/
theorem Tallied.shutdowns_eq_one (tallied : Tallied pool) (talliedAfter : Tallied after)
    (made : after.made = pool.made) {worker : Nat} (before : worker ∈ Workers.handles pool.table)
    (removed : worker ∉ Workers.handles after.table) : after.shutdowns worker = 1 := by
  have counted := List.count_pos_iff.mpr before
  have isMade : worker < pool.made := by
    by_contra unmade
    have := tallied worker
    rw [if_neg unmade] at this
    omega
  have total := talliedAfter worker
  rw [made, if_pos isMade, List.count_eq_zero_of_not_mem removed] at total
  exact total

end Tally

/-- A pool without gaps can be resized to any size. -/
theorem Dense.resizes {pool : Pool} (dense : Dense pool) {newSize : Int}
    (nonnegative : 0 ≤ newSize) : pool.Resizes newSize := by
  intro workers present
  obtain ⟨m, keys, -⟩ := dense
  have count := keys.count_eq
  simp only [Pool.table, present, Option.getD_some] at keys count
  refine ⟨nonnegative, ?_⟩
  intro index atLeast below
  rw [count] at below
  exact (keys index).mpr ⟨Int.le_trans nonnegative atLeast, below⟩

section Returns

variable {pool after : Pool} {newSize : Int}

theorem resizes_of_returns {fuel : Nat} {outcome : Outcome}
    (returned : resizeWithin fuel pool newSize = some (after, outcome)) :
    pool.Resizes newSize := by
  intro workers present
  by_cases smaller : newSize < Workers.count workers
  · simp only [resizeWithin, present, if_pos smaller] at returned
    obtain ⟨result, looped, -⟩ := Option.map_eq_some_iff.mp returned
    exact shrinks_of_resizeLoop smaller (by rw [looped]; rfl)
  · refine ⟨by omega, ?_⟩
    intro index atLeast below
    omega

theorem returns_of_resizes (resizes : pool.Resizes newSize) :
    ∃ after outcome,
      resizeWithin (Workers.count pool.table) pool newSize = some (after, outcome) := by
  unfold resizeWithin
  split
  · exact ⟨_, _, rfl⟩
  · next workers present =>
    split
    · next smaller =>
      obtain ⟨result, looped⟩ := Option.isSome_iff_exists.mp
        (resizeLoop_of_shrinks (resizes workers present) smaller (Nat.le_refl _))
      simp only [Pool.table, present, Option.getD_some, looped]
      exact ⟨_, _, rfl⟩
    · exact ⟨_, _, rfl⟩

end Returns

/-- In every state that a pool comes to, `resize` returns if and only if the pool has
no worker table yet, or the new size is not negative and there is a worker at every
index from the new size up to the number of workers.  It then has shut down every
worker that it removed, once. -/
theorem resize_returns_iff {classExists : String → Bool} {size : Int} {name : String} {pool : Pool}
    (reached : Reaches (step classExists) anyAction (construct size name) pool) (newSize : Int) :
    (∃ fuel after, resizeWithin fuel pool newSize = some (after, .void) ∧
        ∀ worker ∈ Workers.handles pool.table, worker ∉ Workers.handles after.table →
          after.shutdowns worker = 1) ↔
      pool.Resizes newSize := by
  have tallied := tallied_of_reaches reached
  constructor
  · rintro ⟨fuel, after, returned, -⟩
    exact resizes_of_returns returned
  · intro resizes
    obtain ⟨after, outcome, returned⟩ := returns_of_resizes resizes
    obtain ⟨rfl, made, shut, handles, calls⟩ := resizeWithin_eq returned
    refine ⟨_, after, returned, ?_⟩
    intro worker before removed
    exact tallied.shutdowns_eq_one (tallied.shut handles made calls) made before removed

/-- A pool with three workers is shrunk to one. -/
theorem resize_returns_threeWorkers :
    ∃ pool, execute (step fun _ => true) (construct 3 "Worker")
        [.submit 7, .submit 8, .submit 9] = some pool ∧
      (resizeWithin 2 pool 1).map (fun result => result.1.table.keys) = some [0] ∧
      ∃ fuel after, resizeWithin fuel pool 1 = some (after, .void) ∧
        ∀ worker ∈ Workers.handles pool.table, worker ∉ Workers.handles after.table →
          after.shutdowns worker = 1 := by
  have ran : execute (step fun _ => true) (construct 3 "Worker")
      [.submit 7, .submit 8, .submit 9] = some (submit (fun _ => true)
        (submit (fun _ => true) (submit (fun _ => true) (construct 3 "Worker") 7).1 8).1 9).1 :=
    rfl
  refine ⟨_, ran, rfl, ?_⟩
  apply (resize_returns_iff (reaches_of_execute (admits_anyAction _ _ _) ran) 1).mpr
  intro workers present
  cases present
  refine ⟨by decide, ?_⟩
  intro index atLeast below
  have count : index < 3 := below
  obtain rfl | rfl : index = 1 ∨ index = 2 := by omega
  all_goals decide

/-- With one worker, a pool is resized to minus one. -/
theorem negativeResize_loops :
    ¬ ∀ pool, Reaches (step fun _ => true) anyAction (construct 1 "Worker") pool →
      ∀ newSize, ∃ fuel after, resizeWithin fuel pool newSize = some (after, .void) ∧
        ∀ worker ∈ Workers.handles pool.table, worker ∉ Workers.handles after.table →
          after.shutdowns worker = 1 := by
  intro claim
  have ran : execute (step fun _ => true) (construct 1 "Worker") [.submit 7] =
      some (submit (fun _ => true) (construct 1 "Worker") 7).1 := rfl
  obtain ⟨fuel, after, returned, -⟩ :=
    claim _ (reaches_of_execute (admits_anyAction _ _ _) ran) (-1)
  have nonnegative := (resizes_of_returns returned _ rfl).1
  revert nonnegative
  decide

end Pthreads.PoolWorkers
