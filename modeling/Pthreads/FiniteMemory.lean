import Pthreads.WorkerGuarantees
import Mathlib.Data.Set.Finite.Basic

/-!
# The memory of a worker's queues

Every action allocates at most one item, so that the allocator always has an address to
give.
-/

namespace Pthreads.LinkedCells

variable {Value : Type*}

/-- Nothing is allocated but at these addresses. -/
def Memory.Grows (memory after : Memory Value) (addresses : List Nat) : Prop :=
  ∀ address, memory address = none → address ∉ addresses → after address = none

namespace Memory

variable {memory middle after : Memory Value} {first second : List Nat}

theorem Grows.refl (memory : Memory Value) : memory.Grows memory [] :=
  fun _ free _ => free

theorem Grows.trans (earlier : memory.Grows middle first) (later : middle.Grows after second) :
    memory.Grows after (first ++ second) := by
  intro address free notIn
  simp only [List.mem_append, not_or] at notIn
  exact later address (earlier address free notIn.1) notIn.2

theorem grows_erase (memory : Memory Value) (address : Nat) :
    memory.Grows (memory.erase address) [] := by
  intro other free _
  by_cases same : other = address
  · rw [same, erase_same]
  · rw [erase_other memory same, free]

theorem grows_put (memory : Memory Value) (address : Nat) (cell : Cell Value) :
    memory.Grows (memory.put address cell) [address] := by
  intro other free notIn
  rw [put_other memory (by simpa using notIn), free]

/-- An allocated cell is written. -/
theorem grows_of_map {address : Nat} {write : Cell Value → Cell Value}
    (written : (memory address).map (fun cell => memory.put address (write cell)) = some after) :
    memory.Grows after [] := by
  obtain ⟨cell, allocated, rfl⟩ := Option.map_eq_some_iff.mp written
  intro other free _
  have different : other ≠ address := by
    rintro rfl
    rw [free] at allocated
    cases allocated
  rw [put_other memory different, free]

/-- Finitely many addresses are in use. -/
def Bounded (memory : Memory Value) : Prop := {address | memory address ≠ none}.Finite

theorem Bounded.grows (bounded : memory.Bounded) (grows : memory.Grows after first) :
    after.Bounded := by
  apply (bounded.union first.finite_toSet).subset
  intro address allocated
  by_contra outside
  simp only [Set.mem_union, Set.mem_ofPred_eq, not_or, not_not] at outside
  exact allocated (grows address outside.1 outside.2)

theorem Bounded.exists_free (bounded : memory.Bounded) : ∃ address, memory address = none := by
  obtain ⟨address, free⟩ := bounded.exists_notMem
  exact ⟨address, not_not.mp free⟩

end Memory

end Pthreads.LinkedCells

namespace Pthreads.TaskQueue

open LinkedCells

variable {Value : Type} {memory after : Memory Value} {queue pushed : Queue}

theorem queuePush_grows {item : Nat}
    (push : queuePush memory queue item = some (after, pushed)) : memory.Grows after [] := by
  unfold queuePush at push
  split at push
  · obtain ⟨changed, written, ⟨⟩⟩ := Option.bind_eq_some_iff.mp push
    exact Memory.grows_of_map written
  · obtain ⟨linked, link, rest⟩ := Option.bind_eq_some_iff.mp push
    obtain ⟨changed, written, ⟨⟩⟩ := Option.bind_eq_some_iff.mp rest
    exact (Memory.grows_of_map link).trans (Memory.grows_of_map written)

theorem queuePushNew_grows {address : Nat} {value : Value}
    (push : queuePushNew memory queue address value = some (after, pushed)) :
    memory.Grows after [address] := by
  obtain ⟨allocated, new, rest⟩ := Option.bind_eq_some_iff.mp push
  unfold queueItemNew at new
  split at new
  · cases new
  · cases new
    exact (Memory.grows_put memory address _).trans (queuePush_grows rest)

theorem queueUnlink_grows {item : Nat} {cell : Cell Value}
    (unlink : queueUnlink memory queue item cell = some (after, pushed)) :
    memory.Grows after [] := by
  unfold queueUnlink at unlink
  split at unlink
  · cases unlink
    exact Memory.Grows.refl memory
  · split at unlink
    · obtain ⟨next, -, rest⟩ := Option.bind_eq_some_iff.mp unlink
      obtain ⟨changed, written, ⟨⟩⟩ := Option.bind_eq_some_iff.mp rest
      exact Memory.grows_of_map written
    · split at unlink
      · obtain ⟨prev, -, rest⟩ := Option.bind_eq_some_iff.mp unlink
        obtain ⟨changed, written, ⟨⟩⟩ := Option.bind_eq_some_iff.mp rest
        exact Memory.grows_of_map written
      · obtain ⟨next, -, both⟩ := Option.bind_eq_some_iff.mp unlink
        obtain ⟨prev, -, links⟩ := Option.bind_eq_some_iff.mp both
        obtain ⟨linked, link, rest⟩ := Option.bind_eq_some_iff.mp links
        obtain ⟨changed, written, ⟨⟩⟩ := Option.bind_eq_some_iff.mp rest
        exact (Memory.grows_of_map link).trans (Memory.grows_of_map written)

theorem queueShift_grows {wanted : Bool} {garbage : Garbage} {removal : Removal Value}
    (shift : queueShift memory queue wanted garbage = some removal) :
    memory.Grows removal.memory [] := by
  unfold queueShift queueRemove at shift
  split at shift
  · cases shift
    exact Memory.Grows.refl memory
  · obtain ⟨cell, -, rest⟩ := Option.bind_eq_some_iff.mp shift
    obtain ⟨⟨unlinked, left⟩, unlink, ⟨⟩⟩ := Option.bind_eq_some_iff.mp rest
    have grows := queueUnlink_grows unlink
    cases garbage with
    | free => exact grows.trans (Memory.grows_erase unlinked _)
    | nothing => exact grows

end Pthreads.TaskQueue

namespace Pthreads.WorkerTasks

open LinkedCells TaskQueue

theorem collectLoop_grows {collect : Task → Bool} {fuel : Nat} {memory after : Memory Task}
    {gc left : Queue} {item : Option Nat} {collected : List Task}
    (loop : collectLoop collect fuel memory gc item = some (after, left, collected)) :
    memory.Grows after [] := by
  induction fuel generalizing memory gc item collected with
  | zero =>
      cases item with
      | none =>
          cases loop
          exact Memory.Grows.refl _
      | some item => cases loop
  | succ fuel ih =>
      cases item with
      | none =>
          cases loop
          exact Memory.Grows.refl _
      | some item =>
          obtain ⟨cell, -, rest⟩ := Option.bind_eq_some_iff.mp loop
          split at rest
          · obtain ⟨removal, shift, later⟩ := Option.bind_eq_some_iff.mp rest
            obtain ⟨⟨last, queue, others⟩, deeper, ⟨⟩⟩ := Option.bind_eq_some_iff.mp later
            exact (queueShift_grows shift).trans (ih deeper)
          · cases rest
            exact Memory.Grows.refl _

theorem drainLoop_grows {count : Nat} {memory after : Memory Task} {cache left : Queue}
    {dropped : List Task} (loop : drainLoop count memory cache = some (after, left, dropped)) :
    memory.Grows after [] := by
  induction count generalizing memory cache dropped with
  | zero =>
      cases loop
      exact Memory.Grows.refl _
  | succ count ih =>
      obtain ⟨removal, shift, later⟩ := Option.bind_eq_some_iff.mp loop
      obtain ⟨⟨last, queue, others⟩, deeper, ⟨⟩⟩ := Option.bind_eq_some_iff.mp later
      exact (queueShift_grows shift).trans (ih deeper)

theorem queueClean_grows {fuel : Nat} {memory after : Memory Task} {item : Option Nat}
    (cleaned : queueClean fuel memory item = some after) : memory.Grows after [] := by
  induction fuel generalizing memory item with
  | zero =>
      cases item with
      | none =>
          cases cleaned
          exact Memory.Grows.refl _
      | some item => cases cleaned
  | succ fuel ih =>
      cases item with
      | none =>
          cases cleaned
          exact Memory.Grows.refl _
      | some item =>
          obtain ⟨cell, -, rest⟩ := Option.bind_eq_some_iff.mp cleaned
          exact (Memory.grows_erase _ item).trans (ih rest)

/-- Every action allocates one item or none. -/
theorem step_grows {state after : State} {action : Action}
    (stepped : step state action = some after) :
    ∃ addresses, state.memory.Grows after.memory addresses := by
  cases action with
  | stack address object =>
      obtain ⟨-, memory, queue, pushed, rfl⟩ := stack_eq stepped
      exact ⟨_, queuePushNew_grows pushed⟩
  | unstack =>
      obtain ⟨-, removal, shifted, rfl⟩ := unstack_eq stepped
      exact ⟨_, queueShift_grows shifted⟩
  | collect answers =>
      obtain ⟨memory, gc, collected, loop, rfl⟩ := collect_eq stepped
      exact ⟨_, collectLoop_grows loop⟩
  | nextTask =>
      obtain ⟨-, middle, dropped, taken⟩ := nextTask_eq stepped
      have drained : state.memory.Grows middle.memory [] := by
        rcases dropCollected_eq dropped with ⟨-, rfl⟩ | ⟨-, memory, cache, tasks, loop, rfl⟩
        · exact Memory.Grows.refl _
        · exact drainLoop_grows loop
      have shifted : middle.memory.Grows after.memory [] := by
        rcases takeTask_eq taken with
          ⟨-, -, rfl⟩ | ⟨-, -, rfl⟩ | ⟨head, removal, task, -, shift, -, rfl⟩
        · exact Memory.Grows.refl _
        · exact Memory.Grows.refl _
        · exact queueShift_grows shift
      exact ⟨_, drained.trans shifted⟩
  | addGarbage =>
      obtain ⟨task, running, memory, gc, -, -, pushed, rfl⟩ := addGarbage_eq stepped
      exact ⟨_, queuePush_grows pushed⟩
  | recordDone address =>
      obtain ⟨task, memory, cache, -, pushed, rfl⟩ := recordDone_eq stepped
      exact ⟨_, queuePushNew_grows pushed⟩
  | destroy =>
      obtain ⟨-, memory, cleaned, rfl⟩ := destroy_eq stepped
      exact ⟨_, queueClean_grows cleaned⟩
  | start | join | joinWoken | joinSync | joinExit | joinReturn | enterLoop | spuriousWakeup
  | signalAwaitJoin =>
      obtain ⟨-, ⟨⟩⟩ := Option.ite_none_right_eq_some.mp stepped
      exact ⟨_, Memory.Grows.refl _⟩

theorem step_bounded {state after : State} {action : Action} (bounded : state.memory.Bounded)
    (stepped : step state action = some after) : after.memory.Bounded := by
  obtain ⟨addresses, grows⟩ := step_grows stepped
  exact bounded.grows grows

end Pthreads.WorkerTasks
