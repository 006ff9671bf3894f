import Mathlib.Data.Set.Card
import Pthreads.FiniteMemory

/-!
# Counting the cells of a memory

A queue operation changes the number of allocated cells and the size of its queue
together, so that a run of such operations can be balanced without looking at what the
queues hold.
-/

namespace Pthreads.LinkedCells.Memory

variable {Value : Type*} {memory after : Memory Value} {address : Nat}

/-- The addresses that are in use. -/
def allocated (memory : Memory Value) : Set Nat := {address | memory address ≠ none}

/-- How many addresses are in use. -/
noncomputable def count (memory : Memory Value) : Nat := memory.allocated.ncard

@[simp]
theorem mem_allocated : address ∈ memory.allocated ↔ memory address ≠ none := Iff.rfl

theorem allocated_put (memory : Memory Value) (address : Nat) (cell : Cell Value) :
    (memory.put address cell).allocated = insert address memory.allocated := by
  ext other
  by_cases same : other = address
  · simp [same]
  · simp [put_other memory same, same]

theorem allocated_erase (memory : Memory Value) (address : Nat) :
    (memory.erase address).allocated = memory.allocated \ {address} := by
  ext other
  by_cases same : other = address
  · simp [same]
  · simp [erase_other memory same, same]

/-- An allocated cell is written. -/
theorem allocated_of_map {write : Cell Value → Cell Value}
    (written : (memory address).map (fun cell => memory.put address (write cell)) = some after) :
    after.allocated = memory.allocated := by
  obtain ⟨cell, found, rfl⟩ := Option.map_eq_some_iff.mp written
  have isIn : address ∈ memory.allocated := by simp [found]
  rw [allocated_put, Set.insert_eq_of_mem isIn]

theorem count_put_of_free (bounded : memory.Bounded) (free : memory address = none)
    (cell : Cell Value) : (memory.put address cell).count = memory.count + 1 := by
  have notIn : address ∉ memory.allocated := by simp [free]
  rw [count, count, allocated_put, Set.ncard_insert_of_notMem notIn bounded]

theorem count_erase (bounded : memory.Bounded) (used : memory address ≠ none) :
    (memory.erase address).count + 1 = memory.count := by
  rw [count, count, allocated_erase]
  exact Set.ncard_sdiff_singleton_add_one used bounded

theorem count_pos (bounded : memory.Bounded) (used : memory address ≠ none) :
    0 < memory.count :=
  (Set.ncard_pos bounded).mpr ⟨address, used⟩

/-- A memory without cells is empty. -/
theorem eq_none_of_count_eq_zero (bounded : memory.Bounded) (empty : memory.count = 0)
    (address : Nat) : memory address = none := by
  by_contra used
  have positive := count_pos bounded used
  omega

end Pthreads.LinkedCells.Memory

namespace Pthreads.TaskQueue

open LinkedCells

variable {Value : Type} {memory after : Memory Value} {queue pushed : Queue} {item : Nat}

theorem queuePush_allocated (push : queuePush memory queue item = some (after, pushed)) :
    after.allocated = memory.allocated ∧ pushed.size = queue.size + 1 := by
  unfold queuePush at push
  split at push
  · obtain ⟨changed, written, ⟨⟩⟩ := Option.bind_eq_some_iff.mp push
    exact ⟨Memory.allocated_of_map written, rfl⟩
  · obtain ⟨linked, link, rest⟩ := Option.bind_eq_some_iff.mp push
    obtain ⟨changed, written, ⟨⟩⟩ := Option.bind_eq_some_iff.mp rest
    exact ⟨(Memory.allocated_of_map written).trans (Memory.allocated_of_map link), rfl⟩

theorem queuePush_counts (push : queuePush memory queue item = some (after, pushed)) :
    after.count = memory.count ∧ pushed.size = queue.size + 1 := by
  obtain ⟨allocated, size⟩ := queuePush_allocated push
  exact ⟨congrArg Set.ncard allocated, size⟩

theorem queuePushNew_counts (bounded : memory.Bounded) {value : Value}
    (push : queuePushNew memory queue item value = some (after, pushed)) :
    after.count = memory.count + 1 ∧ pushed.size = queue.size + 1 := by
  obtain ⟨allocated, new, rest⟩ := Option.bind_eq_some_iff.mp push
  obtain ⟨count, size⟩ := queuePush_counts rest
  unfold queueItemNew at new
  split at new
  · cases new
  · next free =>
    cases new
    rw [Memory.count_put_of_free bounded free] at count
    exact ⟨count, size⟩

theorem queueUnlink_allocated {cell : Cell Value}
    (unlink : queueUnlink memory queue item cell = some (after, pushed)) :
    after.allocated = memory.allocated ∧ pushed.size = queue.size := by
  unfold queueUnlink at unlink
  split at unlink
  · cases unlink
    exact ⟨rfl, rfl⟩
  · split at unlink
    · obtain ⟨next, -, rest⟩ := Option.bind_eq_some_iff.mp unlink
      obtain ⟨changed, written, ⟨⟩⟩ := Option.bind_eq_some_iff.mp rest
      exact ⟨Memory.allocated_of_map written, rfl⟩
    · split at unlink
      · obtain ⟨prev, -, rest⟩ := Option.bind_eq_some_iff.mp unlink
        obtain ⟨changed, written, ⟨⟩⟩ := Option.bind_eq_some_iff.mp rest
        exact ⟨Memory.allocated_of_map written, rfl⟩
      · obtain ⟨next, -, both⟩ := Option.bind_eq_some_iff.mp unlink
        obtain ⟨prev, -, links⟩ := Option.bind_eq_some_iff.mp both
        obtain ⟨linked, link, rest⟩ := Option.bind_eq_some_iff.mp links
        obtain ⟨changed, written, ⟨⟩⟩ := Option.bind_eq_some_iff.mp rest
        exact ⟨(Memory.allocated_of_map written).trans (Memory.allocated_of_map link), rfl⟩

/-- A shift that frees its item takes one from the count and one from the size, or nothing
from either. -/
theorem queueShift_frees (bounded : memory.Bounded) {wanted : Bool} {removal : Removal Value}
    (shift : queueShift memory queue wanted .free = some removal) :
    (removal.memory.count : Int) - removal.queue.size = memory.count - queue.size := by
  unfold queueShift queueRemove at shift
  split at shift
  · cases shift
    rfl
  · next head _ =>
    obtain ⟨cell, found, rest⟩ := Option.bind_eq_some_iff.mp shift
    obtain ⟨⟨unlinked, left⟩, unlink, ⟨⟩⟩ := Option.bind_eq_some_iff.mp rest
    obtain ⟨allocated, size⟩ := queueUnlink_allocated unlink
    have same : unlinked.count = memory.count := congrArg Set.ncard allocated
    have used : unlinked head ≠ none := by
      rw [← Memory.mem_allocated, allocated, Memory.mem_allocated, found]
      exact Option.some_ne_none cell
    have stillBounded : unlinked.Bounded := bounded.grows (queueUnlink_grows unlink)
    have erased := Memory.count_erase stillBounded used
    dsimp only
    omega

/-- A shift that leaves its item to the caller frees nothing. -/
theorem queueShift_keeps {wanted : Bool} {removal : Removal Value}
    (shift : queueShift memory queue wanted .nothing = some removal)
    (head : queue.head = some item) :
    removal.memory.count = memory.count ∧ removal.queue.size = queue.size - 1 := by
  unfold queueShift queueRemove at shift
  simp only [head] at shift
  obtain ⟨cell, -, rest⟩ := Option.bind_eq_some_iff.mp shift
  obtain ⟨⟨unlinked, left⟩, unlink, ⟨⟩⟩ := Option.bind_eq_some_iff.mp rest
  obtain ⟨allocated, size⟩ := queueUnlink_allocated unlink
  exact ⟨congrArg Set.ncard allocated, by rw [size]⟩

end Pthreads.TaskQueue
