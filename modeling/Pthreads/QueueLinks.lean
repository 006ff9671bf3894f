import Pthreads.TaskQueue

/-!
# The links of a queue apart from its size

No operation of `src/queue.c` looks at the `size` field before it changes it,
so what an operation does to the links does not depend on the size.  `Linked`
says that the links of a queue run through the given items, whatever its size
is.  `queuePush` and `queueRemove` act on it as they act on `Represents`;
`queueUnshift`, which forgets the size, can only be described in this way.

`DoublyLinked` spells out, pointer by pointer, what a reader expects of a
doubly linked list.  It follows from `Linked`.
-/

namespace Pthreads.TaskQueue

open LinkedCells

variable {Value : Type}

/-- The links of the queue run through exactly these items, in this order. -/
structure Linked (memory : Memory Value) (queue : Queue) (items : List (Nat × Value)) :
    Prop where
  chain : Chain memory none items none
  head : queue.head = firstAddress items
  tail : queue.tail = lastAddress items
  nodup : (addresses items).Nodup

/-- The same queue with another size. -/
def Queue.sized (queue : Queue) (size : Int) : Queue := { queue with size := size }

@[simp]
theorem Queue.sized_self (queue : Queue) : queue.sized queue.size = queue := rfl

@[simp]
theorem Queue.sized_sized (queue : Queue) (first second : Int) :
    (queue.sized first).sized second = queue.sized second := rfl

theorem linked_empty (memory : Memory Value) : Linked memory Queue.empty [] :=
  ⟨trivial, rfl, rfl, List.nodup_nil⟩

theorem Linked.sized {memory : Memory Value} {queue : Queue} {items : List (Nat × Value)}
    (linked : Linked memory queue items) (size : Int) :
    Linked memory (queue.sized size) items :=
  ⟨linked.chain, linked.head, linked.tail, linked.nodup⟩

/-- A linked queue whose size is right represents its items. -/
theorem Linked.represents {memory : Memory Value} {queue : Queue}
    {items : List (Nat × Value)} (linked : Linked memory queue items) :
    Represents memory (queue.sized items.length) items :=
  ⟨linked.chain, linked.head, linked.tail, rfl, linked.nodup⟩

theorem Represents.linked {memory : Memory Value} {queue : Queue}
    {items : List (Nat × Value)} (represented : Represents memory queue items) :
    Linked memory queue items :=
  ⟨represented.chain, represented.head, represented.tail, represented.nodup⟩

theorem Linked.congr {memory changed : Memory Value} {queue : Queue}
    {items : List (Nat × Value)} (linked : Linked memory queue items)
    (agrees : ∀ address ∈ addresses items, changed address = memory address) :
    Linked changed queue items :=
  { linked with chain := chain_congr agrees linked.chain }

/-! ### The operations do not look at the size -/

theorem queuePush_sized (memory : Memory Value) (queue : Queue) (size : Int) (item : Nat) :
    queuePush memory (queue.sized size) item =
      (queuePush memory queue item).map fun pushed => (pushed.1, pushed.2.sized (size + 1)) := by
  cases tailIs : queue.tail with
  | none =>
      simp only [queuePush, Queue.sized, tailIs]
      cases setPrevAndNext memory item none none <;> rfl
  | some tail =>
      simp only [queuePush, Queue.sized, tailIs, Option.bind_eq_bind]
      cases memory.setNext tail (some item) with
      | none => rfl
      | some linked =>
          simp only [Option.bind_some]
          cases setPrevAndNext linked item (some tail) none <;> rfl

theorem queueUnlink_sized (memory : Memory Value) (queue : Queue) (size : Int) (item : Nat)
    (cell : Cell Value) :
    queueUnlink memory (queue.sized size) item cell =
      (queueUnlink memory queue item cell).map fun left => (left.1, left.2.sized size) := by
  simp only [queueUnlink, Queue.sized, Option.bind_eq_bind]
  by_cases only : queue.head = some item ∧ queue.tail = some item
  · refine (if_pos only).trans ?_
    rw [if_pos only]
    rfl
  refine (if_neg only).trans ?_
  rw [if_neg only]
  by_cases first : queue.head = some item
  · refine (if_pos first).trans ?_
    rw [if_pos first]
    cases cell.next with
    | none => rfl
    | some next =>
        simp only [Option.bind_some]
        cases memory.setPrev next none <;> rfl
  refine (if_neg first).trans ?_
  rw [if_neg first]
  by_cases last : queue.tail = some item
  · refine (if_pos last).trans ?_
    rw [if_pos last]
    cases cell.prev with
    | none => rfl
    | some prev =>
        simp only [Option.bind_some]
        cases memory.setNext prev none <;> rfl
  refine (if_neg last).trans ?_
  rw [if_neg last]
  cases cell.next with
  | none => rfl
  | some next =>
      cases cell.prev with
      | none => rfl
      | some prev =>
          simp only [Option.bind_some]
          cases memory.setPrev next (some prev) with
          | none => rfl
          | some relinked =>
              simp only [Option.bind_some]
              cases relinked.setNext prev (some next) <;> rfl

/-- The removal of the same item from a queue of another size. -/
def Removal.sized (removal : Removal Value) (size : Int) : Removal Value :=
  { removal with queue := removal.queue.sized size, returned := size }

theorem queueRemove_sized (memory : Memory Value) (queue : Queue) (size : Int) (item : Nat)
    (wanted : Bool) (garbage : Garbage) :
    queueRemove memory (queue.sized size) (some item) wanted garbage =
      (queueRemove memory queue (some item) wanted garbage).map fun removal =>
        removal.sized (size - 1) := by
  simp only [queueRemove, Option.bind_eq_bind]
  cases memory item with
  | none => rfl
  | some cell =>
      simp only [Option.bind_some, queueUnlink_sized]
      cases queueUnlink memory queue item cell <;> rfl

/-! ### What the operations do to the links -/

/-- The outcome of putting `item` into a queue that held `items` and then holds
`placed`. -/
structure Inserts (memory : Memory Value) (queue : Queue) (item : Nat)
    (items placed : List (Nat × Value)) (change : Int) (outcome : Memory Value × Queue) :
    Prop where
  linked : Linked outcome.1 outcome.2 placed
  size : outcome.2.size = queue.size + change
  frame : ∀ other ∉ addresses items, other ≠ item → outcome.1 other = memory other

/-- `pthreads_queue_push` appends an allocated item that is not in the queue. -/
theorem queuePush_linked {memory : Memory Value} {queue : Queue}
    {items : List (Nat × Value)} (linked : Linked memory queue items)
    {item : Nat} {cell : Cell Value} (allocated : memory item = some cell)
    (outside : item ∉ addresses items) :
    ∃ outcome, queuePush memory queue item = some outcome ∧
      Inserts memory queue item items (items ++ [(item, cell.value)]) 1 outcome := by
  obtain ⟨changed, pushed, push, represented, -, frame⟩ :=
    queuePush_represents linked.represents allocated outside
  rw [queuePush_sized] at push
  obtain ⟨outcome, pushes, same⟩ := Option.map_eq_some_iff.mp push
  obtain ⟨rfl, rfl⟩ := Prod.mk.inj same
  refine ⟨outcome, pushes, represented.linked.sized outcome.2.size, ?_, frame⟩
  have own := queuePush_sized memory queue queue.size item
  rw [Queue.sized_self, pushes] at own
  exact congrArg (fun pushed => pushed.2.size) (Option.some.inj own)

/-- `pthreads_queue_unshift` prepends an allocated item that is not in the
queue. -/
theorem queueUnshift_linked {memory : Memory Value} {queue : Queue}
    {items : List (Nat × Value)} (linked : Linked memory queue items)
    {item : Nat} {cell : Cell Value} (allocated : memory item = some cell)
    (outside : item ∉ addresses items) :
    ∃ outcome, queueUnshift memory queue item = some outcome ∧
      Inserts memory queue item items ((item, cell.value) :: items) 0 outcome := by
  cases items with
  | nil =>
      have noHead : queue.head = none := linked.head
      refine ⟨(memory.put item ⟨none, none, cell.value⟩,
        { queue with head := some item, tail := some item }),
        by simp [queueUnshift, noHead, setPrevAndNext, allocated], ?_, by simp, ?_⟩
      · exact ⟨by simp [Chain], rfl, rfl, by simp⟩
      · intro other _ different
        exact Memory.put_other memory different _
  | cons first items =>
      have headIs : queue.head = some first.1 := linked.head
      obtain ⟨relinked, setLink, chain, frame⟩ :=
        chain_setPrev linked.chain linked.nodup (some item)
      have itemNotFirst : item ≠ first.1 := by
        rintro rfl
        exact outside (by simp)
      have stillAllocated : relinked item = some cell := by
        rw [frame item itemNotFirst, allocated]
      refine ⟨(relinked.put item ⟨some first.1, none, cell.value⟩,
        { queue with head := some item }),
        by simp [queueUnshift, headIs, setLink, setPrevAndNext, stillAllocated],
        ?_, by simp, ?_⟩
      · constructor
        · refine ⟨by simp, chain_congr ?_ chain⟩
          intro address member
          apply Memory.put_other
          rintro rfl
          exact outside member
        · rfl
        · rw [lastAddress_cons, ← linked.tail]
          have nonempty : queue.tail = (lastAddress items).or (some first.1) := by
            rw [linked.tail, lastAddress_cons]
          cases atEnd : lastAddress items <;> simp [nonempty, atEnd]
        · exact List.nodup_cons.mpr ⟨outside, linked.nodup⟩
      · intro other notIn different
        have notFirst : other ≠ first.1 := by
          rintro rfl
          exact notIn (by simp)
        exact (Memory.put_other relinked different _).trans (frame other notFirst)

/-- The outcome of taking `item`, which held `value`, out of a queue whose
other items are `rest`. -/
structure Removal.Extracts (removal : Removal Value) (memory : Memory Value) (queue : Queue)
    (item : Nat) (value : Value) (rest : List (Nat × Value)) (wanted : Bool)
    (garbage : Garbage) : Prop where
  linked : Linked removal.memory removal.queue rest
  size : removal.queue.size = queue.size - 1
  returned : removal.returned = removal.queue.size
  handed : removal.handed = if wanted then some value else none
  destroyed : removal.destroyed = if wanted then none else some value
  freed : garbage = .free → removal.memory item = none
  kept : garbage = .nothing → removal.memory item = memory item
  frame : ∀ other ∉ addresses rest, other ≠ item → removal.memory other = memory other

/-- `pthreads_queue_remove` takes out exactly the item it is given. -/
theorem queueRemove_linked {memory : Memory Value} {queue : Queue}
    {front back : List (Nat × Value)} {item : Nat} {value : Value}
    (linked : Linked memory queue (front ++ (item, value) :: back))
    (wanted : Bool) (garbage : Garbage) :
    ∃ removal, queueRemove memory queue (some item) wanted garbage = some removal ∧
      removal.Extracts memory queue item value (front ++ back) wanted garbage := by
  obtain ⟨taken, remove, takes⟩ := queueRemove_takes linked.represents wanted garbage
  rw [queueRemove_sized] at remove
  obtain ⟨removal, removes, rfl⟩ := Option.map_eq_some_iff.mp remove
  have own := queueRemove_sized memory queue queue.size item wanted garbage
  rw [Queue.sized_self, removes] at own
  have same := Option.some.inj own
  have size : removal.queue.size = queue.size - 1 :=
    congrArg (fun removal => removal.queue.size) same
  have returned : removal.returned = queue.size - 1 :=
    congrArg Removal.returned same
  exact ⟨removal, removes,
    { linked := takes.represents.linked.sized removal.queue.size
      size := size
      returned := returned.trans size.symm
      handed := takes.handed
      destroyed := takes.destroyed
      freed := takes.freed
      kept := takes.kept
      frame := takes.frame }⟩

/-! ### Pointer by pointer -/

/-- Following the `next` links from a pointer visits these items and ends at a
null pointer. -/
def Follows (memory : Memory Value) : Option Nat → List Nat → Prop
  | start, [] => start = none
  | start, item :: items =>
      start = some item ∧ ∃ cell, memory item = some cell ∧ Follows memory cell.next items

/-- The links from a pointer visit one sequence of items only. -/
theorem Follows.unique {memory : Memory Value} {start : Option Nat} {items others : List Nat}
    (follows : Follows memory start items) (again : Follows memory start others) :
    items = others := by
  induction items generalizing start others with
  | nil =>
      cases others with
      | nil => rfl
      | cons other others => exact absurd (again.1.symm.trans follows) (by simp)
  | cons item items ih =>
      cases others with
      | nil => exact absurd (follows.1.symm.trans again) (by simp)
      | cons other others =>
          obtain ⟨rfl, cell, found, later⟩ := follows
          obtain ⟨same, otherCell, otherFound, otherLater⟩ := again
          cases same
          cases found.symm.trans otherFound
          rw [ih later otherLater]

/-- A well-formed doubly linked list whose items, in order, are these. -/
structure DoublyLinked (memory : Memory Value) (queue : Queue) (items : List Nat) : Prop where
  follows : Follows memory queue.head items
  head : queue.head = items.head?
  tail : queue.tail = items.getLast?
  ends : queue.head = none ↔ queue.tail = none
  /-- The head has no `prev`. -/
  first : ∀ item cell, queue.head = some item → memory item = some cell → cell.prev = none
  /-- The tail has no `next`. -/
  last : ∀ item cell, queue.tail = some item → memory item = some cell → cell.next = none
  /-- `next` and `prev` are mutually inverse. -/
  inverse : ∀ left ∈ items, ∀ right ∈ items, ∀ leftCell rightCell,
    memory left = some leftCell → memory right = some rightCell →
      (leftCell.next = some right ↔ rightCell.prev = some left)
  /-- No link leads out of the queue. -/
  closed : ∀ item ∈ items, ∀ cell, memory item = some cell →
    (∀ next, cell.next = some next → next ∈ items) ∧
      ∀ prev, cell.prev = some prev → prev ∈ items
  nodup : items.Nodup

theorem follows_of_chain {memory : Memory Value} {before : Option Nat}
    {items : List (Nat × Value)} (chain : Chain memory before items none) :
    Follows memory (firstAddress items) (addresses items) := by
  induction items generalizing before with
  | nil => rfl
  | cons item items ih =>
      refine ⟨rfl, _, chain.1, ?_⟩
      rw [Option.or_none]
      exact ih chain.2

/-- The cell of an item points to its two neighbours. -/
theorem Linked.cell {memory : Memory Value} {queue : Queue} {front back : List (Nat × Value)}
    {item : Nat × Value} (linked : Linked memory queue (front ++ item :: back)) :
    memory item.1 = some ⟨firstAddress back, lastAddress front, item.2⟩ := by
  obtain ⟨-, found, -⟩ := (chain_append memory none none front (item :: back)).mp linked.chain
  simpa using found

theorem exists_split_of_mem_addresses {items : List (Nat × Value)} {address : Nat}
    (member : address ∈ addresses items) :
    ∃ front value back, items = front ++ (address, value) :: back := by
  obtain ⟨⟨address, value⟩, present, rfl⟩ := List.mem_map.mp member
  obtain ⟨front, back, rfl⟩ := List.append_of_mem present
  exact ⟨front, value, back, rfl⟩

/-- What `next` points to is the following item, which points back. -/
theorem Linked.prev_of_next {memory : Memory Value} {queue : Queue}
    {items : List (Nat × Value)} (linked : Linked memory queue items)
    {left right : Nat} (member : left ∈ addresses items) {leftCell : Cell Value}
    (found : memory left = some leftCell) (next : leftCell.next = some right) :
    right ∈ addresses items ∧
      ∀ rightCell, memory right = some rightCell → rightCell.prev = some left := by
  obtain ⟨front, value, back, rfl⟩ := exists_split_of_mem_addresses member
  cases found.symm.trans linked.cell
  cases back with
  | nil => simp at next
  | cons following back =>
      obtain rfl : following.1 = right := by simpa using next
      refine ⟨by simp, fun rightCell rightFound => ?_⟩
      have reassociated : Linked memory queue
          ((front ++ [(left, value)]) ++ following :: back) := by
        simpa using linked
      cases rightFound.symm.trans reassociated.cell
      simp

/-- What `prev` points to is the preceding item, which points forward. -/
theorem Linked.next_of_prev {memory : Memory Value} {queue : Queue}
    {items : List (Nat × Value)} (linked : Linked memory queue items)
    {left right : Nat} (member : right ∈ addresses items) {rightCell : Cell Value}
    (found : memory right = some rightCell) (prev : rightCell.prev = some left) :
    left ∈ addresses items ∧
      ∀ leftCell, memory left = some leftCell → leftCell.next = some right := by
  obtain ⟨front, value, back, rfl⟩ := exists_split_of_mem_addresses member
  cases found.symm.trans linked.cell
  rcases List.eq_nil_or_concat front with rfl | ⟨front, preceding, rfl⟩
  · simp at prev
  · rw [List.concat_eq_append] at linked prev ⊢
    obtain rfl : preceding.1 = left := by simpa using prev
    refine ⟨by simp, fun leftCell leftFound => ?_⟩
    have reassociated : Linked memory queue
        (front ++ preceding :: (right, value) :: back) := by
      simpa using linked
    cases leftFound.symm.trans reassociated.cell
    simp

/-- A linked queue is a well-formed doubly linked list. -/
theorem Linked.doublyLinked {memory : Memory Value} {queue : Queue}
    {items : List (Nat × Value)} (linked : Linked memory queue items) :
    DoublyLinked memory queue (addresses items) where
  follows := by
    rw [linked.head]
    exact follows_of_chain linked.chain
  head := by rw [linked.head, firstAddress, List.head?_map]
  tail := by rw [linked.tail, lastAddress, List.getLast?_map]
  ends := by
    rw [linked.head, linked.tail]
    simp [firstAddress, lastAddress]
  first := by
    intro item cell headIs found
    rw [linked.head] at headIs
    cases items with
    | nil => simp at headIs
    | cons first items =>
        obtain rfl : first.1 = item := by simpa using headIs
        cases found.symm.trans linked.chain.1
        rfl
  last := by
    intro item cell tailIs found
    rw [linked.tail] at tailIs
    rcases List.eq_nil_or_concat items with rfl | ⟨front, last, rfl⟩
    · simp at tailIs
    · rw [List.concat_eq_append] at linked tailIs
      obtain rfl : last.1 = item := by simpa using tailIs
      cases found.symm.trans linked.cell
      rfl
  inverse := by
    intro left leftMember right rightMember leftCell rightCell leftFound rightFound
    constructor
    · intro next
      exact (linked.prev_of_next leftMember leftFound next).2 rightCell rightFound
    · intro prev
      exact (linked.next_of_prev rightMember rightFound prev).2 leftCell leftFound
  closed := by
    intro item member cell found
    constructor
    · intro next forward
      exact (linked.prev_of_next member found forward).1
    · intro prev backward
      exact (linked.next_of_prev member found backward).1
  nodup := linked.nodup

end Pthreads.TaskQueue
