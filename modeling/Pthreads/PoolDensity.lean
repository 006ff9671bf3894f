import Pthreads.PoolWorkers

/-!
# Gaps in the worker table of a pool

`Pool::resize` counts on keys without gaps.  `Pool::submit` keeps them so as long
as `last` has not run ahead of the workers that `resize` and `shutdown` have left.
-/

namespace Pthreads.PoolWorkers

open GuardedRuns

/-- The keys are the numbers below a bound. -/
def DenseKeys (workers : Workers) (bound : Int) : Prop :=
  ∀ key, key ∈ workers.keys ↔ 0 ≤ key ∧ key < bound

/-- The keys of the workers are `0`, ..., `m - 1` for some `m` up to the size. -/
def Dense (pool : Pool) : Prop :=
  ∃ m : Nat, DenseKeys pool.table m ∧ (m : Int) ≤ pool.size

/-- The workers without gaps are as many as the bound says. -/
theorem DenseKeys.count_eq {workers : Workers} {bound : Nat}
    (dense : DenseKeys workers bound) : Workers.count workers = bound := by
  have same : workers.keys.Perm ((List.range bound).map Int.ofNat) := by
    refine (List.perm_ext_iff_of_nodup workers.distinct ?_).mpr ?_
    · exact List.nodup_range.map fun _ _ equal => Int.ofNat.inj equal
    · intro key
      apply Iff.trans (dense key)
      constructor
      · intro inside
        refine List.mem_map.mpr ⟨key.toNat, List.mem_range.mpr (by omega), ?_⟩
        exact Int.toNat_of_nonneg inside.1
      · intro isIn
        obtain ⟨number, below, rfl⟩ := List.mem_map.mp isIn
        have := List.mem_range.mp below
        exact ⟨by simp, by simpa using this⟩
  have lengths := same.length_eq
  simpa [OrderedTable.keys, Workers.count] using lengths

theorem denseKeys_empty : DenseKeys OrderedTable.empty 0 := by
  intro key
  simp only [OrderedTable.keys, OrderedTable.empty, List.map_nil, List.not_mem_nil, false_iff]
  omega

theorem mem_keys_update {workers : Workers} {key other : Int} {worker : Nat} :
    other ∈ (workers.update key worker).keys ↔ other = key ∨ other ∈ workers.keys :=
  OrderedTable.mem_map_place

theorem mem_keys_delete {workers : Workers} {key other : Int} :
    other ∈ (workers.delete key).keys ↔ other ∈ workers.keys ∧ other ≠ key := by
  simp [OrderedTable.keys, OrderedTable.delete, OrderedTable.filter]

/-- A new worker at the end leaves no gap. -/
theorem DenseKeys.update_end {workers : Workers} {bound : Int} (dense : DenseKeys workers bound)
    (nonnegative : 0 ≤ bound) (worker : Nat) :
    DenseKeys (workers.update bound worker) (bound + 1) := by
  intro key
  rw [mem_keys_update, dense key]
  omega

theorem DenseKeys.delete_last {workers : Workers} {bound : Int} (dense : DenseKeys workers bound) :
    DenseKeys (workers.delete (bound - 1)) (bound - 1) := by
  intro key
  rw [mem_keys_delete, dense key]
  omega

/-- Without gaps the loop of `resize` ends, at the new size. -/
theorem resizeLoop_dense {newSize bound fuel : Nat} {workers : Workers}
    (dense : DenseKeys workers bound) (smaller : newSize < bound) (enough : bound ≤ fuel) :
    ∃ left shut, resizeLoop newSize fuel workers = some (left, shut) ∧
      DenseKeys left newSize := by
  induction fuel generalizing workers bound with
  | zero => omega
  | succ fuel ih =>
      have top := dense.count_eq
      have deleted := dense.delete_last
      have reduced : (bound : Int) - 1 = ((bound - 1 : Nat) : Int) := by omega
      rw [reduced] at deleted
      have leftCount := deleted.count_eq
      simp only [resizeLoop, top, reduced, leftCount]
      by_cases finished : bound - 1 = newSize
      · rw [finished] at deleted ⊢
        exact ⟨_, _, if_neg (by simp), deleted⟩
      · obtain ⟨left, shut, looped, denseLeft⟩ := ih deleted (by omega) (by omega)
        rw [if_pos (by omega), looped]
        exact ⟨left, _, rfl, denseLeft⟩

section Steps

variable {classExists : String → Bool} {pool after : Pool}

theorem resize_dense {newSize : Int} {outcome : Outcome} (dense : Dense pool)
    (positive : 1 ≤ newSize) (resized : resize pool newSize = some (after, outcome)) :
    Dense after := by
  obtain ⟨m, keys, below⟩ := dense
  unfold resize at resized
  unfold Pool.table at keys
  split at resized
  · next absent =>
    cases resized
    rw [absent] at keys
    have empty : m = 0 := by
      by_contra some
      have first := (keys 0).mpr ⟨Int.le_refl _, by omega⟩
      cases first
    subst empty
    refine ⟨0, ?_, Int.le_trans (by decide) positive⟩
    simpa [Pool.table, absent] using keys
  · next workers present =>
    rw [present, Option.getD_some] at keys
    have count := keys.count_eq
    split at resized
    · next smaller =>
      obtain ⟨number, rfl⟩ : ∃ number : Nat, newSize = number := ⟨newSize.toNat, by omega⟩
      have isSmaller : number < m := by omega
      obtain ⟨left, shut, looped, denseLeft⟩ :=
        resizeLoop_dense keys isSmaller (Nat.le_of_eq count.symm)
      rw [looped] at resized
      cases resized
      exact ⟨number, denseLeft, Int.le_refl _⟩
    · next enough =>
      cases resized
      rw [count] at enough
      exact ⟨m, by simpa [Pool.table, present] using keys, Int.not_lt.mp enough⟩

theorem shutdown_dense (dense : Dense pool) (positive : 1 ≤ pool.size) :
    Dense (shutdown pool).1 := by
  unfold shutdown
  split
  · exact dense
  · exact ⟨0, denseKeys_empty, by simpa using Int.le_trans (by decide) positive⟩

/-- The index at which `submit` looks for a worker. -/
def Pool.index (pool : Pool) : Int := if pool.last ≥ pool.size then 0 else pool.last

/-- What `submit` does to the fields of the pool. -/
theorem submit_cases (task : Nat) :
    (submit classExists pool task).1.size = pool.size ∧
      ((submit classExists pool task).1.last = pool.index ∨
        (submit classExists pool task).1.last = pool.index + 1) ∧
      ((submit classExists pool task).1.table = pool.table ∨
        (pool.index ∉ pool.table.keys ∧
          (submit classExists pool task).1.table = pool.table.update pool.index pool.made)) := by
  unfold submit
  dsimp only
  split
  · exact ⟨rfl, Or.inr rfl, Or.inl rfl⟩
  · next absent =>
    split
    · exact ⟨rfl, Or.inl rfl, Or.inl rfl⟩
    · split
      · exact ⟨rfl, Or.inr rfl, Or.inr ⟨OrderedTable.find_eq_none_iff.mp absent, rfl⟩⟩
      · exact ⟨rfl, Or.inl rfl, Or.inl rfl⟩

/-- `submit` makes the worker that it does not find. -/
theorem submit_makes (absent : pool.index ∉ pool.table.keys) {name : String}
    (hasClass : pool.className = some name) (found : classExists name = true) (task : Nat) :
    (submit classExists pool task).1.table = pool.table.update pool.index pool.made := by
  have notThere : pool.table.find pool.index = none := OrderedTable.find_eq_none_iff.mpr absent
  simp only [Pool.index] at notThere
  simp [submit, submitSelected, Pool.table, Pool.index] at notThere ⊢
  simp [notThere, hasClass, found]

/-- The index of `submit` is in the table or right behind it. -/
def InLine (pool : Pool) : Prop :=
  pool.size ≤ pool.last ∨ pool.last ≤ Workers.count pool.table

theorem index_bounds (positive : 1 ≤ pool.size) (nonnegative : 0 ≤ pool.last) :
    0 ≤ pool.index ∧ pool.index < pool.size := by
  unfold Pool.index
  split <;> omega

theorem InLine.index_le (inLine : InLine pool) : pool.index ≤ Workers.count pool.table := by
  unfold Pool.index
  rcases inLine with wraps | follows
  · rw [if_pos wraps]
    exact Int.natCast_nonneg _
  · split
    · exact Int.natCast_nonneg _
    · exact follows

theorem submit_dense (dense : Dense pool) (positive : 1 ≤ pool.size) (nonnegative : 0 ≤ pool.last)
    (inLine : InLine pool) (task : Nat) : Dense (submit classExists pool task).1 := by
  obtain ⟨m, keys, below⟩ := dense
  obtain ⟨size, -, (table | ⟨absent, table⟩)⟩ :=
    @submit_cases classExists pool task
  · exact ⟨m, by rw [table]; exact keys, by rw [size]; exact below⟩
  · obtain ⟨low, high⟩ := index_bounds positive nonnegative
    have atMost := inLine.index_le
    rw [keys.count_eq] at atMost
    have outside : ¬ (0 ≤ pool.index ∧ pool.index < m) := fun inside => absent ((keys _).mpr inside)
    have atEnd : pool.index = m := by omega
    refine ⟨m + 1, ?_, by rw [size]; omega⟩
    rw [table, atEnd]
    exact keys.update_end (Int.natCast_nonneg _) _

/-- The condition of `submit_dense` is needed: beyond the end a gap appears. -/
theorem submit_gap (dense : Dense pool) (notInLine : ¬ InLine pool) {name : String}
    (hasClass : pool.className = some name) (found : classExists name = true) (task : Nat) :
    ¬ Dense (submit classExists pool task).1 := by
  obtain ⟨m, keys, below⟩ := dense
  have count := keys.count_eq
  simp only [InLine, not_or, Int.not_le, count] at notInLine
  have index : pool.index = pool.last := if_neg (by omega)
  have absent : pool.index ∉ pool.table.keys := by
    intro isIn
    have inside := (keys _).mp isIn
    omega
  have table := submit_makes absent hasClass found task
  rintro ⟨n, keysAfter, -⟩
  rw [table, index] at keysAfter
  have lastIn := (keysAfter pool.last).mp (mem_keys_update.mpr (Or.inl rfl))
  rcases mem_keys_update.mp ((keysAfter m).mpr (by omega)) with isLast | old
  · omega
  · have := (keys m).mp old
    omega

/-- The pool is only resized to positive sizes. -/
def PositiveSizes (_ : Pool) : Action → Prop
  | .resize newSize => 1 ≤ newSize
  | _ => True

/-- Sizes are positive, and `submit` stays in line. -/
def Regular (pool : Pool) : Action → Prop
  | .submit _ => InLine pool
  | action => PositiveSizes pool action

/-- What every regular call keeps. -/
structure Orderly (pool : Pool) : Prop where
  dense : Dense pool
  positive : 1 ≤ pool.size
  nonnegative : 0 ≤ pool.last

theorem orderly_construct {size : Int} (positive : 1 ≤ size) (className : String) :
    Orderly (construct size className) :=
  ⟨⟨0, denseKeys_empty, Int.le_trans (by decide) positive⟩, positive, Int.le_refl _⟩

theorem resize_fields {newSize : Int} {outcome : Outcome}
    (resized : resize pool newSize = some (after, outcome)) :
    after.size = newSize ∧ after.last = pool.last := by
  unfold resize at resized
  split at resized
  · cases resized
    exact ⟨rfl, rfl⟩
  · split at resized
    · obtain ⟨⟨left, shut⟩, -, ⟨⟩⟩ := Option.map_eq_some_iff.mp resized
      exact ⟨rfl, rfl⟩
    · cases resized
      exact ⟨rfl, rfl⟩

theorem step_orderly {action : Action} (orderly : Orderly pool) (regular : Regular pool action)
    (stepped : step classExists pool action = some after) : Orderly after := by
  obtain ⟨dense, positive, nonnegative⟩ := orderly
  cases action with
  | submit task =>
      cases stepped
      obtain ⟨size, last, -⟩ := @submit_cases classExists pool task
      obtain ⟨low, -⟩ := index_bounds positive nonnegative
      exact ⟨submit_dense dense positive nonnegative regular task, by rw [size]; exact positive,
        by omega⟩
  | submitTo worker task =>
      cases stepped
      unfold submitTo
      dsimp only
      split <;> exact ⟨dense, positive, nonnegative⟩
  | collect sizes =>
      cases stepped
      unfold collect
      split
      · exact ⟨dense, positive, nonnegative⟩
      · exact ⟨dense, positive, nonnegative⟩
  | resize newSize =>
      obtain ⟨⟨left, outcome⟩, resized, rfl⟩ := Option.map_eq_some_iff.mp stepped
      obtain ⟨size, last⟩ := resize_fields resized
      exact ⟨resize_dense dense regular resized, by rw [size]; exact regular,
        by rw [last]; exact nonnegative⟩
  | shutdown =>
      cases stepped
      have emptied := shutdown_dense dense positive
      unfold shutdown at emptied ⊢
      split at emptied <;> exact ⟨emptied, positive, nonnegative⟩

end Steps

/-- In every run from a pool of positive size in which sizes stay positive and no
`submit` comes while `last` lies behind the end of the workers and before the
size, the keys of the workers are `0`, ..., `m - 1` with `m` at most the size.
The first `submit` at such a `last` leaves a gap. -/
theorem workers_dense {classExists : String → Bool} {size : Int} {name : String} {pool : Pool}
    (positive : 1 ≤ size)
    (reached : Reaches (step classExists) Regular (construct size name) pool) :
    Dense pool ∧ ∀ task, ¬ InLine pool → pool.className.any classExists = true →
      ¬ Dense (submit classExists pool task).1 := by
  have orderly : Orderly pool :=
    reached.preserves (fun _ _ _ holds regular stepped => step_orderly holds regular stepped)
      (orderly_construct positive name)
  refine ⟨orderly.dense, fun task notInLine valid => ?_⟩
  obtain ⟨other, hasClass, found⟩ := (Option.any_eq_true _ _).mp valid
  exact submit_gap orderly.dense notInLine hasClass found task

instance PositiveSizes.decidable (pool : Pool) :
    ∀ action, Decidable (PositiveSizes pool action)
  | .resize newSize => inferInstanceAs (Decidable (1 ≤ newSize))
  | .submit _ | .submitTo _ _ | .collect _ | .shutdown => isTrue trivial

instance Regular.decidable (pool : Pool) : ∀ action, Decidable (Regular pool action)
  | .submit _ =>
      inferInstanceAs (Decidable (pool.size ≤ pool.last ∨ pool.last ≤ Workers.count pool.table))
  | .resize newSize => inferInstanceAs (Decidable (1 ≤ newSize))
  | .submitTo _ _ | .collect _ | .shutdown => isTrue trivial

theorem workers_dense_twoSubmits :
    ∃ pool, execute (step fun _ => true) (construct 3 "Worker") [.submit 7, .submit 8] =
        some pool ∧
      pool.table.keys = [0, 1] ∧ Dense pool := by
  refine ⟨_, rfl, rfl, ?_⟩
  have admitted : Admits (step fun _ => true) Regular (construct 3 "Worker")
      [.submit 7, .submit 8] := by decide
  exact (workers_dense (by decide) (reaches_of_execute admitted rfl)).1

/-- A pool of size 3 with two workers is shut down, and used again. -/
def submitAfterShutdown : List Action := [.submit 7, .submit 8, .shutdown, .submit 9]

/-- The worker that is made after the shutdown has index 2. -/
theorem submitAfterShutdown_gap :
    ¬ ∀ pool, Reaches (step fun _ => true) PositiveSizes (construct 3 "Worker") pool →
      Dense pool := by
  intro claim
  have admitted : Admits (step fun _ => true) PositiveSizes (construct 3 "Worker")
      submitAfterShutdown := by decide
  obtain ⟨m, keys, -⟩ := claim _ (reaches_of_execute admitted rfl)
  have last := (keys 2).mp (by decide)
  have first := (keys 0).mpr (by omega)
  revert first
  decide

end Pthreads.PoolWorkers
