import Pthreads.PoolDensity

/-!
# Round-robin submission

As long as a pool is neither resized nor shut down, its rotating index follows the
number of submits alone: the workers come one by one at the indices below the
size, and then take turns.
-/

namespace Pthreads.PoolWorkers

open GuardedRuns

/-- The call is a `submit`. -/
def Action.isSubmit : Action → Bool
  | .submit _ => true
  | .submitTo _ _ | .collect _ | .resize _ | .shutdown => false

/-- The call is a `submit`, a `submitTo` or a `collect`. -/
def Action.isRotation : Action → Bool
  | .submit _ | .submitTo _ _ | .collect _ => true
  | .resize _ | .shutdown => false

/-- The number of submits among the calls. -/
def submits (actions : List Action) : Nat := actions.countP Action.isSubmit

/-- The workers of a pool that has made the first `made` of them. -/
def firstWorkers (made : Nat) : List (Int × Nat) :=
  (List.range made).map fun index => (Int.ofNat index, index)

/-- What a pool of size `size` is after `count` submits. -/
structure Rotation (size count : Nat) (name : String) (pool : Pool) : Prop where
  size_eq : pool.size = size
  className_eq : pool.className = some name
  index_eq : pool.index = (count % size : Nat)
  entries_eq : pool.table.entries = firstWorkers (min count size)
  made_eq : pool.made = min count size

section FirstWorkers

theorem firstWorkers_succ (made : Nat) :
    firstWorkers (made + 1) = firstWorkers made ++ [((made : Int), made)] := by
  simp [firstWorkers, List.range_succ]

theorem mem_keys_firstWorkers {workers : Workers} {made : Nat}
    (entries : workers.entries = firstWorkers made) (index : Nat) :
    (index : Int) ∈ workers.keys ↔ index < made := by
  simp [OrderedTable.keys, entries, firstWorkers]

theorem find_firstWorkers {workers : Workers} {made index : Nat}
    (entries : workers.entries = firstWorkers made) (below : index < made) :
    workers.find index = some index := by
  apply OrderedTable.find_eq_some_iff.mpr
  simp [entries, firstWorkers, below]

end FirstWorkers

section Submit

variable {classExists : String → Bool} {size count : Nat} {name : String} {pool after : Pool}

/-- The rotating index wraps at the size. -/
theorem index_succ (positive : 1 ≤ size) (sizeEq : after.size = size)
    (lastEq : after.last = (count % size : Nat) + 1) :
    after.index = ((count + 1) % size : Nat) := by
  have below : count % size < size := Nat.mod_lt _ positive
  unfold Pool.index
  rw [sizeEq, lastEq, Nat.add_mod]
  by_cases wraps : count % size + 1 = size
  · rw [if_pos (by omega)]
    by_cases single : size = 1
    · simp [single]
    · rw [Nat.mod_eq_of_lt (by omega : 1 < size), wraps, Nat.mod_self]
      rfl
  · rw [if_neg (by omega), Nat.mod_eq_of_lt (by omega : 1 < size),
      Nat.mod_eq_of_lt (by omega : count % size + 1 < size)]
    rfl

/-- A submit in the first round makes the next worker. -/
theorem submit_first (rotation : Rotation size count name pool)
    (valid : classExists name = true) (first : count < size) (task : Nat) :
    submit classExists pool task =
      ({ pool with
          last := (count : Int) + 1
          workers := some (pool.table.update count count)
          made := count + 1
          calls := pool.calls ++ [(count, .start), (count, .stack task)] }, .value count) := by
  have index : pool.index = count := by rw [rotation.index_eq, Nat.mod_eq_of_lt first]
  have entries : pool.table.entries = firstWorkers count := by
    rw [rotation.entries_eq, Nat.min_eq_left (by omega)]
  have made : pool.made = count := by rw [rotation.made_eq, Nat.min_eq_left (by omega)]
  have absent : pool.table.find count = none := by
    apply OrderedTable.find_eq_none_iff.mpr
    rw [mem_keys_firstWorkers entries]
    exact Nat.lt_irrefl count
  unfold Pool.index at index
  simp [submit, submitSelected, Pool.table, index] at absent ⊢
  simp [absent, rotation.className_eq, valid, made]

/-- A later submit takes the worker whose turn it is. -/
theorem submit_later (rotation : Rotation size count name pool) (positive : 1 ≤ size)
    (later : size ≤ count) (task : Nat) :
    submit classExists pool task =
      ({ pool with
          last := (count % size : Nat) + 1
          workers := some pool.table
          calls := pool.calls ++ [(count % size, .stack task)] }, .value (count % size : Nat)) := by
  have index := rotation.index_eq
  have entries : pool.table.entries = firstWorkers size := by
    rw [rotation.entries_eq, Nat.min_eq_right later]
  have found := find_firstWorkers entries (Nat.mod_lt count positive)
  unfold Pool.index at index
  simp only [submit, index]
  have again : Pool.table { pool with
      workers := some pool.table, last := ((count % size : Nat) : Int) } = pool.table := rfl
  rw [again, found]
  rfl

/-- A pool whose workers, size, class and index are the same is as far in its rotation. -/
theorem Rotation.congr (rotation : Rotation size count name pool)
    (sizeEq : after.size = pool.size) (className : after.className = pool.className)
    (last : after.last = pool.last) (table : after.table = pool.table)
    (made : after.made = pool.made) : Rotation size count name after where
  size_eq := by rw [sizeEq, rotation.size_eq]
  className_eq := by rw [className, rotation.className_eq]
  index_eq := by rw [Pool.index, last, sizeEq, ← rotation.index_eq, Pool.index]
  entries_eq := by rw [table, rotation.entries_eq]
  made_eq := by rw [made, rotation.made_eq]

theorem Rotation.submit (rotation : Rotation size count name pool) (positive : 1 ≤ size)
    (valid : classExists name = true) (task : Nat) :
    Rotation size (count + 1) name (submit classExists pool task).1 := by
  by_cases first : count < size
  · rw [submit_first rotation valid first]
    have entries : pool.table.entries = firstWorkers count := by
      rw [rotation.entries_eq, Nat.min_eq_left (by omega)]
    have absent : (count : Int) ∉ pool.table.keys := by
      rw [mem_keys_firstWorkers entries]
      exact Nat.lt_irrefl count
    have fewer : min (count + 1) size = count + 1 := Nat.min_eq_left first
    refine ⟨rotation.size_eq, rotation.className_eq, ?_, ?_, fewer.symm⟩
    · apply index_succ positive
      · exact rotation.size_eq
      · rw [Nat.mod_eq_of_lt first]
    · rw [fewer, firstWorkers_succ, ← entries]
      exact OrderedTable.entries_update_of_notMem _ absent
  · have later : size ≤ count := Nat.not_lt.mp first
    rw [submit_later rotation positive later]
    refine ⟨rotation.size_eq, rotation.className_eq, ?_, ?_, ?_⟩
    · apply index_succ positive
      · exact rotation.size_eq
      · rfl
    · rw [Nat.min_eq_right (by omega), ← Nat.min_eq_right later]
      exact rotation.entries_eq
    · rw [Nat.min_eq_right (by omega), ← Nat.min_eq_right later]
      exact rotation.made_eq

theorem rotation_construct (positive : 1 ≤ size) (name : String) :
    Rotation size 0 name (construct size name) where
  size_eq := rfl
  className_eq := rfl
  index_eq := by
    rw [Nat.zero_mod]
    exact if_neg (by simp only [construct]; omega)
  entries_eq := by rw [Nat.zero_min]; rfl
  made_eq := by rw [Nat.zero_min]; rfl

/-- Only a submit goes on in the rotation. -/
theorem step_rotation {action : Action} (rotation : Rotation size count name pool)
    (positive : 1 ≤ size) (valid : classExists name = true) (isRotation : action.isRotation)
    (stepped : step classExists pool action = some after) :
    Rotation size (count + submits [action]) name after := by
  cases action with
  | submit task =>
      cases stepped
      exact rotation.submit positive valid task
  | submitTo worker task =>
      cases stepped
      unfold submitTo
      dsimp only
      split <;> exact rotation.congr rfl rfl rfl rfl rfl
  | collect sizes =>
      cases stepped
      unfold collect
      split <;> exact rotation.congr rfl rfl rfl rfl rfl
  | resize newSize => cases isRotation
  | shutdown => cases isRotation

theorem execute_rotation {actions : List Action} (rotation : Rotation size count name pool)
    (positive : 1 ≤ size) (valid : classExists name = true)
    (kinds : ∀ action ∈ actions, action.isRotation)
    (ran : execute (step classExists) pool actions = some after) :
    Rotation size (count + submits actions) name after := by
  induction actions generalizing count pool with
  | nil =>
      cases ran
      exact rotation
  | cons action actions ih =>
      simp only [execute] at ran
      cases stepped : step classExists pool action with
      | none => rw [stepped] at ran; cases ran
      | some next =>
          rw [stepped] at ran
          have once := step_rotation rotation positive valid (kinds action (by simp)) stepped
          have all := ih once (fun other isIn => kinds other (by simp [isIn])) ran
          have counted : submits (action :: actions) = submits [action] + submits actions := by
            simp [submits, List.countP_cons, Nat.add_comm]
          rw [counted, ← Nat.add_assoc]
          exact all

/-- A run of submits does not fail. -/
theorem execute_submits (actions : List Action) (only : ∀ action ∈ actions, action.isSubmit)
    (pool : Pool) : ∃ last, execute (step classExists) pool actions = some last := by
  induction actions generalizing pool with
  | nil => exact ⟨pool, rfl⟩
  | cons action actions ih =>
      have isSubmit := only action (by simp)
      cases action with
      | submit task => exact ih (fun other isIn => only other (by simp [isIn])) _
      | submitTo worker task => cases isSubmit
      | collect sizes => cases isSubmit
      | resize newSize => cases isSubmit
      | shutdown => cases isSubmit

/-- What a submit returns and leaves in the table depends on the number of submits alone. -/
theorem Rotation.submit_agree {other : Pool} (rotation : Rotation size count name pool)
    (otherRotation : Rotation size count name other) (positive : 1 ≤ size)
    (valid : classExists name = true) (task : Nat) :
    (PoolWorkers.submit classExists pool task).2 =
        (PoolWorkers.submit classExists other task).2 ∧
      (PoolWorkers.submit classExists pool task).1.table.entries =
        (PoolWorkers.submit classExists other task).1.table.entries := by
  refine ⟨?_, ?_⟩
  · by_cases first : count < size
    · rw [submit_first rotation valid first, submit_first otherRotation valid first]
    · have later : size ≤ count := Nat.not_lt.mp first
      rw [submit_later rotation positive later, submit_later otherRotation positive later]
  · rw [(rotation.submit positive valid task).entries_eq,
      (otherRotation.submit positive valid task).entries_eq]

/-- The next submit makes the worker at its index in the first round, and finds it there
later. -/
theorem Rotation.submit_worker (rotation : Rotation size count name pool) (positive : 1 ≤ size)
    (valid : classExists name = true) (task : Nat) :
    ∃ worker,
      (PoolWorkers.submit classExists pool task).2 = .value (count % size : Nat) ∧
      (PoolWorkers.submit classExists pool task).1.table.find (count % size : Nat) = some worker ∧
      (¬ size ≤ count →
        pool.table.find (count % size : Nat) = none ∧ worker = pool.made ∧
          (PoolWorkers.submit classExists pool task).1.made = pool.made + 1 ∧
          (PoolWorkers.submit classExists pool task).1.calls =
            pool.calls ++ [(worker, .start), (worker, .stack task)]) ∧
      (size ≤ count →
        pool.table.find (count % size : Nat) = some worker ∧
          (PoolWorkers.submit classExists pool task).1.made = pool.made ∧
          (PoolWorkers.submit classExists pool task).1.calls =
            pool.calls ++ [(worker, .stack task)]) := by
  by_cases first : count < size
  · have entries : pool.table.entries = firstWorkers count := by
      rw [rotation.entries_eq, Nat.min_eq_left (by omega)]
    have made : pool.made = count := by
      rw [rotation.made_eq, Nat.min_eq_left (by omega)]
    have absent : pool.table.find (count : Nat) = none := by
      apply OrderedTable.find_eq_none_iff.mpr
      rw [mem_keys_firstWorkers entries]
      exact Nat.lt_irrefl _
    rw [submit_first rotation valid first, Nat.mod_eq_of_lt first]
    refine ⟨count, rfl, OrderedTable.find_update_same _ _ _, ?_, ?_⟩
    · intro _
      exact ⟨absent, made.symm, by rw [made], rfl⟩
    · intro again
      omega
  · have later : size ≤ count := Nat.not_lt.mp first
    have entries : pool.table.entries = firstWorkers size := by
      rw [rotation.entries_eq, Nat.min_eq_right later]
    have found := find_firstWorkers entries (Nat.mod_lt count positive)
    rw [submit_later rotation positive later]
    refine ⟨count % size, rfl, found, ?_, ?_⟩
    · intro never
      omega
    · intro _
      exact ⟨found, rfl, rfl⟩

/-- The submits of a run, without what happens between them, lead to the same. -/
theorem Rotation.submit_alone (rotation : Rotation size count name pool) (positive : 1 ≤ size)
    (valid : classExists name = true) {actions : List Action}
    (kinds : ∀ action ∈ actions, action.isRotation) (counts : count = submits actions)
    (task : Nat) :
    ∃ alone, execute (step classExists) (construct size name)
        (actions.filter Action.isSubmit) = some alone ∧
      (PoolWorkers.submit classExists pool task).2 =
        (PoolWorkers.submit classExists alone task).2 ∧
      (PoolWorkers.submit classExists pool task).1.table.entries =
        (PoolWorkers.submit classExists alone task).1.table.entries := by
  have only : ∀ action ∈ actions.filter Action.isSubmit, action.isSubmit = true :=
    fun action isIn => (List.mem_filter.mp isIn).2
  obtain ⟨alone, ranAlone⟩ := @execute_submits classExists _ only (construct size name)
  have counted : submits (actions.filter Action.isSubmit) = count := by
    simp [counts, submits, List.countP_filter]
  have rotationAlone := execute_rotation (rotation_construct positive name) positive valid
    (fun action isIn => kinds action (List.mem_filter.mp isIn).1) ranAlone
  rw [Nat.zero_add, counted] at rotationAlone
  exact ⟨alone, ranAlone, rotation.submit_agree rotationAlone positive valid task⟩

/-- The first round is over as soon as an index comes again. -/
theorem repeated_iff (positive : 1 ≤ size) :
    (∃ earlier < count, earlier % size = count % size) ↔ size ≤ count := by
  constructor
  · rintro ⟨earlier, before, same⟩
    by_contra first
    rw [Nat.mod_eq_of_lt (by omega), Nat.mod_eq_of_lt (by omega)] at same
    omega
  · intro later
    refine ⟨count - size, by omega, ?_⟩
    rw [← Nat.add_mod_right, Nat.sub_add_cancel later]

end Submit

/-- After a run with any calls of `submitTo` and `collect` among its submits, the next
submit returns the number of submits modulo the size and stacks its task on the worker
at that index.  It makes and starts this worker exactly if no submit before it came to
the same index.  A run of the submits alone leads to the same. -/
theorem submit_roundRobin {classExists : String → Bool} {size : Nat} {name : String}
    (positive : 1 ≤ size) (valid : classExists name = true) {actions : List Action}
    (kinds : ∀ action ∈ actions, action.isRotation) {pool : Pool}
    (ran : execute (step classExists) (construct size name) actions = some pool) (task : Nat) :
    (∃ worker,
      (submit classExists pool task).2 = .value (submits actions % size : Nat) ∧
      (submit classExists pool task).1.table.find (submits actions % size : Nat) = some worker ∧
      ((¬ ∃ earlier < submits actions, earlier % size = submits actions % size) →
        pool.table.find (submits actions % size : Nat) = none ∧ worker = pool.made ∧
          (submit classExists pool task).1.made = pool.made + 1 ∧
          (submit classExists pool task).1.calls =
            pool.calls ++ [(worker, .start), (worker, .stack task)]) ∧
      ((∃ earlier < submits actions, earlier % size = submits actions % size) →
        pool.table.find (submits actions % size : Nat) = some worker ∧
          (submit classExists pool task).1.made = pool.made ∧
          (submit classExists pool task).1.calls = pool.calls ++ [(worker, .stack task)])) ∧
    ∃ alone, execute (step classExists) (construct size name)
        (actions.filter Action.isSubmit) = some alone ∧
      (submit classExists pool task).2 = (submit classExists alone task).2 ∧
      (submit classExists pool task).1.table.entries =
        (submit classExists alone task).1.table.entries := by
  have rotation := execute_rotation (rotation_construct positive name) positive valid kinds ran
  rw [Nat.zero_add] at rotation
  rw [repeated_iff positive]
  exact ⟨rotation.submit_worker positive valid task,
    rotation.submit_alone positive valid kinds rfl task⟩

/-- Two workers take turns: the third submit comes to the first of them again. -/
theorem submit_roundRobin_thirdSubmit :
    ∃ pool, execute (step fun _ => true) (construct 2 "Worker")
        [.submit 7, .submitTo 0 8, .submit 9, .collect fun _ => 1] = some pool ∧
      (submit (fun _ => true) pool 10).2 = .value 0 ∧
      pool.table.find 0 = some 0 ∧
      (submit (fun _ => true) pool 10).1.calls = pool.calls ++ [(0, .stack 10)] := by
  refine ⟨_, rfl, ?_⟩
  have kinds : ∀ action ∈ [Action.submit 7, .submitTo 0 8, .submit 9, .collect fun _ => 1],
      action.isRotation := by simp [Action.isRotation]
  obtain ⟨⟨worker, returned, -, -, again⟩, -⟩ :=
    @submit_roundRobin (fun _ => true) 2 "Worker" (by decide) rfl _ kinds _ rfl 10
  obtain ⟨found, -, calls⟩ := again ⟨0, by decide, by decide⟩
  have isFirst : some 0 = some worker := found
  cases isFirst
  exact ⟨returned, found, calls⟩

end Pthreads.PoolWorkers
