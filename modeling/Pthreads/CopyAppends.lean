import Pthreads.CopyFaithfulness
import Pthreads.ZendArrays

/-!
# Appending to the copy of an array

`pthreads_copy_hash` makes a new array and inserts the elements of the old one into it.
The next free index of the copy therefore follows from the elements that are there, that
of the array from all the keys it ever had.
-/

namespace Pthreads.ValueCopies

open RecursiveCalls ZendArrays

/-- What a hash table compares of a key. -/
def Key.hashed : Key → ArrayKey Bytes
  | .index value => .index value
  | .name text => .name text.bytes

section Appends

variable {Address : Type}

/-- The elements in the memory of the source are those of the array. -/
def Heap.HoldsArray (heap : Heap Address) (address : Address)
    (array : ZendArray Bytes (Slot Address)) : Prop :=
  (heap.array address).map (fun element => (element.1.hashed, element.2)) = array.table.entries

/-- The table that `pthreads_copy_hash` fills. -/
def copiedArray (copies : List (Key × Copied Address)) : ZendArray Bytes (Copied Address) :=
  .build (copies.map fun element => (element.1.hashed, element.2))

theorem hashed_copyKey (receiver : Receiver) (key : Key) :
    (copyKey receiver key).hashed = key.hashed := by
  cases key with
  | index value => rfl
  | name text =>
      rcases text with ⟨bytes, permanent | _ | _⟩ <;> rfl

variable [DecidableEq Address] {heap : Heap Address} {receiver : Receiver} {memo : Memo Address}

/-- Where every element can be copied, the copy has the same keys in the same order. -/
theorem DeepElements.keys {elements : List (Key × Slot Address)}
    {copies : List (Key × Copied Address)}
    (each : DeepElements heap receiver memo elements copies)
    (copyable : ∀ element ∈ elements, heap.Copyable element.2) :
    copies.map (fun element => element.1.hashed) =
      elements.map fun element => element.1.hashed := by
  induction elements generalizing copies with
  | nil =>
      cases each
      rfl
  | cons element elements ih =>
      have others := fun other isIn => copyable other (List.mem_cons_of_mem element isIn)
      cases each with
      | copied copy each =>
          rw [List.map_cons, List.map_cons, ih each others, hashed_copyKey]
      | dropped uncopyable _ => exact (uncopyable (copyable _ List.mem_cons_self)).elim

/-- An append to the copy of an array takes the same key as one to the array exactly when
the array has kept its place. -/
theorem copiedArray_appends_alike_iff (heap : Heap Address) (receiver : Receiver)
    (memo : Memo Address) (actions : List (Action Bytes (Slot Address)))
    (inRange : ∀ action ∈ actions, action.InRange) {address : Address}
    (holds : heap.HoldsArray address (ZendArray.empty.run actions))
    (copyable : ∀ element ∈ heap.array address, heap.Copyable element.2) {fuel : Nat}
    {after : Memo Address} {copies : List (Key × Copied Address)}
    (copied : copyHash receiver (copy heap receiver fuel) memo (heap.array address) =
      some (after, .array copies)) :
    (copiedArray copies).appendIndex = (ZendArray.empty.run actions).appendIndex ↔
      (ZendArray.empty.run actions).KeepsPlace (ZendArray.empty.peak none actions) := by
  obtain ⟨-, _, ⟨⟩, each⟩ := copyHash_deep (copy_deep fuel) (heap.array address) memo after _
    (Memo.Faithful.refl memo) copied
  have counted : Counted (ZendArray.empty.run actions) (ZendArray.empty.peak none actions) :=
    counted_empty.run inRange
  have keys : (copies.map fun element => (element.1.hashed, element.2)).map Prod.fst =
      (ZendArray.empty.run actions).table.keys := by
    rw [List.map_map, OrderedTable.keys, ← holds, List.map_map]
    exact each.keys copyable
  have elementsInRange : ∀ element ∈ copies.map (fun element => (element.1.hashed, element.2)),
      element.1.InRange := by
    intro element isIn
    have isKey : element.1 ∈ (ZendArray.empty.run actions).table.keys :=
      keys ▸ List.mem_map_of_mem isIn
    exact counted.key_inRange isKey
  obtain ⟨last, attained⟩ := build_attained elementsInRange
  refine appendIndex_eq_iff counted attained ?_
  intro key
  rw [← keys]
  exact keys_build

end Appends

/-- Two arrays with one element, at the first or at the second index. -/
def numbersHeap : Heap Bool where
  referent := fun _ => .undef
  array := fun first => [(.index (if first then 0 else 1), .constant (.scalar (.long 1)))]
  ast := fun _ => .constant 0 ⟨[110], .permanent⟩
  function := fun _ => functionWith false []

def one : Slot Bool := .constant (.scalar (.long 1))

/-- `$a = [1, 1]; unset($a[0]);` -/
def grown : ZendArray Bytes (Slot Bool) :=
  ZendArray.empty.run [.append one, .append one, .remove (.index 0)]

/-- `$a = [1, 1]; unset($a[1]);` -/
def shrunk : ZendArray Bytes (Slot Bool) :=
  ZendArray.empty.run [.append one, .append one, .remove (.index 1)]

theorem numbersHeap_copyable (first : Bool) :
    ∀ element ∈ numbersHeap.array first, numbersHeap.Copyable element.2 :=
  List.forall_mem_singleton.mpr ⟨_, .value rfl⟩

/-- An append goes to 2 in the array and in its copy. -/
theorem copiedArray_appends_alike_iff_grown :
    ∃ after copies, copyHash otherThread (copy numbersHeap otherThread 0) freshMemo
        (numbersHeap.array false) = some (after, .array copies) ∧
      (copiedArray copies).appendIndex = grown.appendIndex := by
  have copied : copyHash otherThread (copy numbersHeap otherThread 0) freshMemo
      (numbersHeap.array false) = some (freshMemo, .array [(.index 1, .scalar (.long 1))]) := rfl
  have holds : numbersHeap.HoldsArray false grown := rfl
  refine ⟨_, _, copied, ?_⟩
  refine (copiedArray_appends_alike_iff numbersHeap otherThread freshMemo
    [.append one, .append one, .remove (.index 0)] ?_ holds (numbersHeap_copyable false)
    copied).mpr ?_
  · simp [Action.InRange, ArrayKey.InRange]
  · exact Or.inl List.mem_cons_self

/-- An append to the array goes to 2, one to its copy to 1. -/
theorem copiedArray_appends_elsewhere :
    ∃ after copies, numbersHeap.HoldsArray true shrunk ∧
      (∀ element ∈ numbersHeap.array true, numbersHeap.Copyable element.2) ∧
      copyHash otherThread (copy numbersHeap otherThread 0) freshMemo
        (numbersHeap.array true) = some (after, .array copies) ∧
      shrunk.appendIndex = some 2 ∧ (copiedArray copies).appendIndex = some 1 := by
  refine ⟨freshMemo, [(.index 0, .scalar (.long 1))], rfl, numbersHeap_copyable true, rfl, ?_, ?_⟩
  · decide
  · decide

end Pthreads.ValueCopies
