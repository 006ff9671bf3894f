import Mathlib.Logic.Function.Basic
import Mathlib.Data.List.Nodup

/-!
# Doubly linked cells in memory

A memory maps addresses to cells that carry a value and two links.  `Chain`
says that a list of addressed values is laid out as a run of cells that are
linked in both directions, between a given predecessor and a given successor.
The lemmas split a chain at any point, change the outer links of a chain, and
transport a chain to a memory that agrees with the old one on its addresses.
-/

namespace Pthreads.LinkedCells

variable {Value : Type*}

/-- A cell of a doubly linked list; a missing link is a null pointer. -/
structure Cell (Value : Type*) where
  next : Option Nat
  prev : Option Nat
  value : Value
deriving DecidableEq, Repr

/-- Addresses that are not allocated have no cell. -/
abbrev Memory (Value : Type*) := Nat → Option (Cell Value)

namespace Memory

/-- Write a whole cell. -/
def put (memory : Memory Value) (address : Nat) (cell : Cell Value) : Memory Value :=
  Function.update memory address (some cell)

/-- Give a cell back to the allocator. -/
def erase (memory : Memory Value) (address : Nat) : Memory Value :=
  Function.update memory address none

/-- Write the `next` link of an allocated cell. -/
def setNext (memory : Memory Value) (address : Nat) (next : Option Nat) :
    Option (Memory Value) :=
  (memory address).map fun cell => memory.put address { cell with next := next }

/-- Write the `prev` link of an allocated cell. -/
def setPrev (memory : Memory Value) (address : Nat) (prev : Option Nat) :
    Option (Memory Value) :=
  (memory address).map fun cell => memory.put address { cell with prev := prev }

@[simp]
theorem put_same (memory : Memory Value) (address : Nat) (cell : Cell Value) :
    memory.put address cell address = some cell := by
  simp [put]

theorem put_other (memory : Memory Value) {address other : Nat}
    (different : other ≠ address) (cell : Cell Value) :
    memory.put address cell other = memory other := by
  simp [put, different]

@[simp]
theorem erase_same (memory : Memory Value) (address : Nat) :
    memory.erase address address = none := by
  simp [erase]

theorem erase_other (memory : Memory Value) {address other : Nat}
    (different : other ≠ address) : memory.erase address other = memory other := by
  simp [erase, different]

end Memory

/-- The addresses of a list of addressed values. -/
abbrev addresses (items : List (Nat × Value)) : List Nat := items.map Prod.fst

/-- The address a chain starts at, if it is not empty. -/
def firstAddress (items : List (Nat × Value)) : Option Nat := items.head?.map Prod.fst

/-- The address a chain ends at, if it is not empty. -/
def lastAddress (items : List (Nat × Value)) : Option Nat := items.getLast?.map Prod.fst

@[simp]
theorem firstAddress_nil : firstAddress ([] : List (Nat × Value)) = none := rfl

@[simp]
theorem firstAddress_cons (item : Nat × Value) (items : List (Nat × Value)) :
    firstAddress (item :: items) = some item.1 := rfl

@[simp]
theorem firstAddress_append (front back : List (Nat × Value)) :
    firstAddress (front ++ back) = (firstAddress front).or (firstAddress back) := by
  cases front <;> simp

@[simp]
theorem lastAddress_nil : lastAddress ([] : List (Nat × Value)) = none := rfl

@[simp]
theorem lastAddress_singleton (item : Nat × Value) : lastAddress [item] = some item.1 := rfl

@[simp]
theorem lastAddress_append (front back : List (Nat × Value)) :
    lastAddress (front ++ back) = (lastAddress back).or (lastAddress front) := by
  simp only [lastAddress, List.getLast?_append]
  cases back.getLast? <;> simp

theorem lastAddress_cons (item : Nat × Value) (items : List (Nat × Value)) :
    lastAddress (item :: items) = (lastAddress items).or (some item.1) := by
  simpa using lastAddress_append [item] items

theorem lastAddress_mem {items : List (Nat × Value)} {address : Nat}
    (last : lastAddress items = some address) : address ∈ addresses items := by
  obtain ⟨item, atEnd, rfl⟩ := Option.map_eq_some_iff.mp last
  exact List.mem_map_of_mem (List.mem_of_getLast? atEnd)

/-- The items are cells linked in both directions: the first one's `prev` is
`before` and the last one's `next` is `after`. -/
def Chain (memory : Memory Value) :
    Option Nat → List (Nat × Value) → Option Nat → Prop
  | _, [], _ => True
  | before, item :: items, after =>
      memory item.1 = some ⟨(firstAddress items).or after, before, item.2⟩ ∧
        Chain memory (some item.1) items after

@[simp]
theorem chain_nil (memory : Memory Value) (before after : Option Nat) :
    Chain memory before [] after := trivial

theorem chain_append (memory : Memory Value) (before after : Option Nat)
    (front back : List (Nat × Value)) :
    Chain memory before (front ++ back) after ↔
      Chain memory before front ((firstAddress back).or after) ∧
        Chain memory ((lastAddress front).or before) back after := by
  induction front generalizing before with
  | nil => simp
  | cons item front ih =>
      simp only [List.cons_append, Chain, ih, lastAddress_cons, firstAddress_append,
        Option.or_assoc, Option.some_or, and_assoc]

theorem chain_congr {memory changed : Memory Value} {before after : Option Nat}
    {items : List (Nat × Value)}
    (agrees : ∀ address ∈ addresses items, changed address = memory address)
    (chain : Chain memory before items after) :
    Chain changed before items after := by
  induction items generalizing before with
  | nil => trivial
  | cons item items ih =>
      refine ⟨?_, ih (fun address member => agrees address (by simp [member])) chain.2⟩
      rw [agrees item.1 (by simp)]
      exact chain.1

/-- Every address of a chain holds the value the list gives it. -/
theorem Chain.cell {memory : Memory Value} {before after : Option Nat}
    {items : List (Nat × Value)} (chain : Chain memory before items after)
    {item : Nat × Value} (member : item ∈ items) :
    ∃ next prev, memory item.1 = some ⟨next, prev, item.2⟩ := by
  induction items generalizing before with
  | nil => simp at member
  | cons first items ih =>
      rcases List.mem_cons.mp member with rfl | later
      · exact ⟨_, _, chain.1⟩
      · exact ih chain.2 later

theorem Chain.allocated {memory : Memory Value} {before after : Option Nat}
    {items : List (Nat × Value)} (chain : Chain memory before items after)
    {address : Nat} (member : address ∈ addresses items) :
    (memory address).isSome := by
  obtain ⟨item, present, rfl⟩ := List.mem_map.mp member
  obtain ⟨next, prev, found⟩ := chain.cell present
  simp [found]

/-- Redirect the `next` link that leaves a nonempty chain. -/
theorem chain_setNext {memory : Memory Value} {before after : Option Nat}
    {items : List (Nat × Value)} {item : Nat × Value}
    (chain : Chain memory before (items ++ [item]) after)
    (nodup : (addresses (items ++ [item])).Nodup) (redirected : Option Nat) :
    ∃ changed, memory.setNext item.1 redirected = some changed ∧
      Chain changed before (items ++ [item]) redirected ∧
        ∀ other, other ≠ item.1 → changed other = memory other := by
  obtain ⟨front, last⟩ := (chain_append memory before after items [item]).mp chain
  have found := last.1
  simp only [firstAddress_nil, Option.none_or] at found
  refine ⟨memory.put item.1 ⟨redirected, (lastAddress items).or before, item.2⟩, ?_, ?_, ?_⟩
  · simp [Memory.setNext, found]
  · refine (chain_append _ _ _ _ _).mpr ⟨chain_congr ?_ front, by simp [Chain]⟩
    intro address member
    apply Memory.put_other
    rintro rfl
    simp only [List.map_append, List.nodup_append] at nodup
    exact nodup.2.2 item.1 member item.1 (by simp) rfl
  · intro other different
    exact Memory.put_other memory different _

/-- Redirect the `prev` link that leaves a nonempty chain. -/
theorem chain_setPrev {memory : Memory Value} {before after : Option Nat}
    {item : Nat × Value} {items : List (Nat × Value)}
    (chain : Chain memory before (item :: items) after)
    (nodup : (addresses (item :: items)).Nodup) (redirected : Option Nat) :
    ∃ changed, memory.setPrev item.1 redirected = some changed ∧
      Chain changed redirected (item :: items) after ∧
        ∀ other, other ≠ item.1 → changed other = memory other := by
  have found := chain.1
  refine ⟨memory.put item.1 ⟨(firstAddress items).or after, redirected, item.2⟩, ?_, ?_, ?_⟩
  · simp [Memory.setPrev, found]
  · refine ⟨by simp, chain_congr ?_ chain.2⟩
    intro address member
    apply Memory.put_other
    rintro rfl
    exact (List.nodup_cons.mp nodup).1 member
  · intro other different
    exact Memory.put_other memory different _

end Pthreads.LinkedCells
