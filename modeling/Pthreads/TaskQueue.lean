import Pthreads.LinkedCells

/-!
# The item queue of `src/queue.c`

`pthreads_queue` keeps a size and the two ends of a doubly linked list of
items.  The operations below follow the source branch by branch and run in
`Option`: a null or dangling item that the source would dereference has no
result.  `Represents` relates a queue in memory to the abstract sequence of
its items, and each operation is shown to act on that sequence.
-/

namespace Pthreads.TaskQueue

open LinkedCells

variable {Value : Type}

/-- `struct _pthreads_queue`. -/
structure Queue where
  size : Int
  head : Option Nat
  tail : Option Nat
deriving DecidableEq, Repr

/-- A queue cleared by `memset`. -/
def Queue.empty : Queue := ⟨0, none, none⟩

/-- The `garbage` argument: `PTHREADS_STACK_FREE` or `PTHREADS_STACK_NOTHING`. -/
inductive Garbage where
  | free
  | nothing
deriving DecidableEq, Repr

/-- What `pthreads_queue_remove` leaves behind.  The removed value is either
copied to the caller or destroyed. -/
structure Removal (Value : Type) where
  memory : Memory Value
  queue : Queue
  returned : Int
  handed : Option Value
  destroyed : Option Value

/-- `pthreads_queue_item_new` at the address the allocator returns.  The links
are set by the caller before they are read. -/
def queueItemNew (memory : Memory Value) (address : Nat) (value : Value) :
    Option (Memory Value) :=
  match memory address with
  | some _ => none
  | none => some (memory.put address ⟨none, none, value⟩)

/-- `set_prev_and_next`. -/
def setPrevAndNext (memory : Memory Value) (item : Nat) (prev next : Option Nat) :
    Option (Memory Value) :=
  (memory item).map fun cell => memory.put item { cell with prev := prev, next := next }

/-- `pthreads_queue_push`. -/
def queuePush (memory : Memory Value) (queue : Queue) (item : Nat) :
    Option (Memory Value × Queue) :=
  match queue.tail with
  | none => do
      let memory ← setPrevAndNext memory item none none
      some (memory, ⟨queue.size + 1, some item, some item⟩)
  | some tail => do
      let memory ← memory.setNext tail (some item)
      let memory ← setPrevAndNext memory item (some tail) none
      some (memory, ⟨queue.size + 1, queue.head, some item⟩)

/-- `pthreads_queue_push_new`. -/
def queuePushNew (memory : Memory Value) (queue : Queue) (address : Nat) (value : Value) :
    Option (Memory Value × Queue) := do
  let memory ← queueItemNew memory address value
  queuePush memory queue address

/-- `pthreads_queue_unshift`, which leaves the size alone. -/
def queueUnshift (memory : Memory Value) (queue : Queue) (item : Nat) :
    Option (Memory Value × Queue) :=
  match queue.head with
  | none => do
      let memory ← setPrevAndNext memory item none none
      some (memory, { queue with head := some item, tail := some item })
  | some head => do
      let memory ← memory.setPrev head (some item)
      let memory ← setPrevAndNext memory item none (some head)
      some (memory, { queue with head := some item })

/-- `pthreads_queue_unshift_new`. -/
def queueUnshiftNew (memory : Memory Value) (queue : Queue) (address : Nat) (value : Value) :
    Option (Memory Value × Queue) := do
  let memory ← queueItemNew memory address value
  queueUnshift memory queue address

/-- The pointer surgery of `pthreads_queue_remove`, before the size changes. -/
def queueUnlink (memory : Memory Value) (queue : Queue) (item : Nat) (cell : Cell Value) :
    Option (Memory Value × Queue) :=
  if queue.head = some item ∧ queue.tail = some item then
    some (memory, { queue with head := none, tail := none })
  else if queue.head = some item then do
    let next ← cell.next
    let memory ← memory.setPrev next none
    some (memory, { queue with head := some next })
  else if queue.tail = some item then do
    let prev ← cell.prev
    let memory ← memory.setNext prev none
    some (memory, { queue with tail := some prev })
  else do
    let next ← cell.next
    let prev ← cell.prev
    let memory ← memory.setPrev next (some prev)
    let memory ← memory.setNext prev (some next)
    some (memory, queue)

/-- `pthreads_queue_remove`; `wanted` says that the caller passed a place to
copy the value to. -/
def queueRemove (memory : Memory Value) (queue : Queue) (item : Option Nat)
    (wanted : Bool) (garbage : Garbage) : Option (Removal Value) :=
  match item with
  | none => some ⟨memory, queue, 0, none, none⟩
  | some item => do
      let cell ← memory item
      let (memory, queue) ← queueUnlink memory queue item cell
      let queue := { queue with size := queue.size - 1 }
      let memory := match garbage with
        | .free => memory.erase item
        | .nothing => memory
      some ⟨memory, queue, queue.size,
        if wanted then some cell.value else none,
        if wanted then none else some cell.value⟩

/-- `pthreads_queue_shift`. -/
def queueShift (memory : Memory Value) (queue : Queue) (wanted : Bool) (garbage : Garbage) :
    Option (Removal Value) :=
  queueRemove memory queue queue.head wanted garbage

/-- `pthreads_queue_pop`. -/
def queuePop (memory : Memory Value) (queue : Queue) (wanted : Bool) (garbage : Garbage) :
    Option (Removal Value) :=
  queueRemove memory queue queue.tail wanted garbage

/-- The values found by following at most `fuel` links from an item. -/
def valuesFrom (memory : Memory Value) : Nat → Option Nat → List Value
  | 0, _ => []
  | _, none => []
  | fuel + 1, some item =>
      match memory item with
      | none => []
      | some cell => cell.value :: valuesFrom memory fuel cell.next

/-- The values in a queue, from its head. -/
def contents (memory : Memory Value) (queue : Queue) : List Value :=
  valuesFrom memory queue.size.toNat queue.head

/-- The queue holds exactly these items, in this order, as a well-formed
doubly linked list. -/
structure Represents (memory : Memory Value) (queue : Queue)
    (items : List (Nat × Value)) : Prop where
  chain : Chain memory none items none
  head : queue.head = firstAddress items
  tail : queue.tail = lastAddress items
  size : queue.size = items.length
  nodup : (addresses items).Nodup

theorem represents_empty (memory : Memory Value) : Represents memory Queue.empty [] :=
  ⟨trivial, rfl, rfl, rfl, List.nodup_nil⟩

theorem Represents.congr {memory changed : Memory Value} {queue : Queue}
    {items : List (Nat × Value)} (represented : Represents memory queue items)
    (agrees : ∀ address ∈ addresses items, changed address = memory address) :
    Represents changed queue items :=
  { represented with chain := chain_congr agrees represented.chain }

/-- A queue that holds no items has no head. -/
theorem Represents.head_eq_none {memory : Memory Value} {queue : Queue}
    {items : List (Nat × Value)} (represented : Represents memory queue items) :
    queue.head = none ↔ items = [] := by
  rw [represented.head]
  cases items <;> simp

theorem valuesFrom_chain {memory : Memory Value} {items : List (Nat × Value)}
    {before : Option Nat} (chain : Chain memory before items none) :
    valuesFrom memory items.length (firstAddress items) = items.map Prod.snd := by
  induction items generalizing before with
  | nil => rfl
  | cons item items ih =>
      simp only [List.length_cons, firstAddress_cons, valuesFrom, chain.1, Option.or_none,
        List.map_cons, ih chain.2]

theorem Represents.contents_eq {memory : Memory Value} {queue : Queue}
    {items : List (Nat × Value)} (represented : Represents memory queue items) :
    contents memory queue = items.map Prod.snd := by
  rw [contents, represented.size, Int.toNat_natCast, represented.head]
  exact valuesFrom_chain represented.chain

/-- Pushing an allocated item that is not in the queue appends it. -/
theorem queuePush_represents {memory : Memory Value} {queue : Queue}
    {items : List (Nat × Value)} (represented : Represents memory queue items)
    {item : Nat} {cell : Cell Value} (allocated : memory item = some cell)
    (outside : item ∉ addresses items) :
    ∃ changed pushed, queuePush memory queue item = some (changed, pushed) ∧
      Represents changed pushed (items ++ [(item, cell.value)]) ∧
      pushed.size = queue.size + 1 ∧
      ∀ other ∉ addresses items, other ≠ item → changed other = memory other := by
  rcases List.eq_nil_or_concat items with rfl | ⟨front, last, rfl⟩
  · have noTail : queue.tail = none := represented.tail
    refine ⟨memory.put item ⟨none, none, cell.value⟩, ⟨queue.size + 1, some item, some item⟩,
      by simp [queuePush, noTail, setPrevAndNext, allocated], ?_, rfl, ?_⟩
    · exact ⟨by simp [Chain], rfl, rfl, by simp [represented.size], by simp⟩
    · intro other _ different
      exact Memory.put_other memory different _
  · rw [List.concat_eq_append] at represented outside ⊢
    have tailIs : queue.tail = some last.1 := by simp [represented.tail]
    obtain ⟨linked, setLink, chain, frame⟩ :=
      chain_setNext represented.chain represented.nodup (some item)
    have itemNotLast : item ≠ last.1 := by
      rintro rfl
      exact outside (by simp)
    have stillAllocated : linked item = some cell := by
      rw [frame item itemNotLast, allocated]
    refine ⟨linked.put item ⟨none, some last.1, cell.value⟩,
      ⟨queue.size + 1, queue.head, some item⟩,
      by simp [queuePush, tailIs, setLink, setPrevAndNext, stillAllocated], ?_, rfl, ?_⟩
    · constructor
      · refine (chain_append _ _ _ _ _).mpr ⟨chain_congr ?_ chain, by simp [Chain]⟩
        intro address member
        apply Memory.put_other
        rintro rfl
        exact outside member
      · have nonempty : (firstAddress (front ++ [last])).or (some item) =
            firstAddress (front ++ [last]) := by
          cases front <;> simp
        simp only [represented.head, firstAddress_append, firstAddress_cons] at nonempty ⊢
        exact nonempty.symm
      · simp only [lastAddress_append, lastAddress_singleton, Option.some_or]
      · simp only [represented.size, List.length_append, List.length_singleton]
        rfl
      · simp only [List.map_append, List.map_cons, List.map_nil]
        refine List.nodup_append.mpr ⟨by simpa using represented.nodup, by simp, ?_⟩
        intro address member other memberOther same
        simp only [List.mem_singleton] at memberOther
        subst memberOther
        subst same
        exact outside (by simpa using member)
    · intro other notIn different
      have notLast : other ≠ last.1 := by
        rintro rfl
        exact notIn (by simp)
      rw [Memory.put_other linked different, frame other notLast]

/-- Pushing a new item appends its value. -/
theorem queuePushNew_represents {memory : Memory Value} {queue : Queue}
    {items : List (Nat × Value)} (represented : Represents memory queue items)
    {address : Nat} (fresh : memory address = none) (value : Value) :
    ∃ changed pushed, queuePushNew memory queue address value = some (changed, pushed) ∧
      Represents changed pushed (items ++ [(address, value)]) ∧
      pushed.size = queue.size + 1 ∧
      ∀ other ∉ addresses items, other ≠ address → changed other = memory other := by
  have outside : address ∉ addresses items := by
    intro member
    have := represented.chain.allocated member
    simp [fresh] at this
  have kept : Represents (memory.put address ⟨none, none, value⟩) queue items := by
    apply represented.congr
    intro other member
    apply Memory.put_other
    rintro rfl
    exact outside member
  obtain ⟨changed, pushed, push, after, size, frame⟩ :=
    queuePush_represents kept (Memory.put_same memory address ⟨none, none, value⟩) outside
  refine ⟨changed, pushed, ?_, after, size, ?_⟩
  · simpa [queuePushNew, queueItemNew, fresh] using push
  · intro other notIn different
    rw [frame other notIn different, Memory.put_other memory different]

/-- The four shapes of `pthreads_queue_remove` depend on which neighbours the
item has. -/
theorem Represents.head_eq_item {memory : Memory Value} {queue : Queue}
    {front back : List (Nat × Value)} {item : Nat × Value}
    (represented : Represents memory queue (front ++ item :: back)) :
    queue.head = some item.1 ↔ front = [] := by
  have nodup := represented.nodup
  rw [represented.head]
  cases front with
  | nil => simp
  | cons first front =>
      simp only [List.cons_append, List.map_cons, List.nodup_cons, firstAddress_cons,
        Option.some.injEq, List.cons_ne_nil, iff_false] at nodup ⊢
      intro same
      exact nodup.1 (by simp [same])

theorem Represents.tail_eq_item {memory : Memory Value} {queue : Queue}
    {front back : List (Nat × Value)} {item : Nat × Value}
    (represented : Represents memory queue (front ++ item :: back)) :
    queue.tail = some item.1 ↔ back = [] := by
  have nodup := represented.nodup
  rw [represented.tail, lastAddress_append, lastAddress_cons]
  simp only [List.map_append, List.map_cons, List.nodup_append, List.nodup_cons] at nodup
  cases back with
  | nil => simp
  | cons right back =>
      simp only [List.cons_ne_nil, iff_false]
      intro same
      cases last : lastAddress (right :: back) with
      | none => simp [lastAddress] at last
      | some address =>
          simp only [last, Option.some_or, Option.some.injEq] at same
          exact nodup.2.1.1 (lastAddress_mem (last.trans (congrArg some same)))

/-- Unlinking an item joins its two neighbours; only they change. -/
theorem queueUnlink_represents {memory : Memory Value} {queue : Queue}
    {front back : List (Nat × Value)} {item : Nat} {cell : Cell Value}
    (represented : Represents memory queue (front ++ (item, cell.value) :: back))
    (found : memory item = some cell) :
    ∃ changed unlinked, queueUnlink memory queue item cell = some (changed, unlinked) ∧
      unlinked.size = queue.size ∧
      unlinked.head = firstAddress (front ++ back) ∧
      unlinked.tail = lastAddress (front ++ back) ∧
      Chain changed none (front ++ back) none ∧
      changed item = some cell ∧
      ∀ other ∉ addresses (front ++ back), changed other = memory other := by
  obtain ⟨frontChain, itemCell, backChain⟩ :=
    (chain_append memory none none front ((item, cell.value) :: back)).mp represented.chain
  have cellIs := Option.some.inj (found.symm.trans itemCell)
  have nextIs : cell.next = firstAddress back := by rw [cellIs]; simp
  have prevIs : cell.prev = lastAddress front := by rw [cellIs]; simp
  have headIs := represented.head
  have tailIs := represented.tail
  have atHead := represented.head_eq_item
  have atTail := represented.tail_eq_item
  have nodup := represented.nodup
  simp only [List.map_append, List.map_cons, List.nodup_append, List.nodup_cons] at nodup
  obtain ⟨frontNodup, ⟨itemNotBack, backNodup⟩, apart⟩ := nodup
  have itemNotFront : item ∉ addresses front := fun member =>
    apart item member item (by simp) rfl
  rcases List.eq_nil_or_concat front with rfl | ⟨front, left, rfl⟩ <;>
    rcases back with _ | ⟨right, back⟩
  · -- the only item
    refine ⟨memory, { queue with head := none, tail := none }, ?_, rfl, rfl, rfl, trivial,
      found, fun _ _ => rfl⟩
    simp [queueUnlink, atHead, atTail]
  · -- the head of a longer queue
    obtain ⟨changed, setLink, chain, frame⟩ := chain_setPrev backChain backNodup none
    refine ⟨changed, { queue with head := some right.1 }, ?_, rfl, rfl, ?_, chain, ?_, ?_⟩
    · simp [queueUnlink, atHead, atTail, nextIs, setLink]
    · simp [tailIs, lastAddress_cons]
    · rw [frame item, found]
      rintro rfl
      exact itemNotBack (by simp)
    · intro other notIn
      apply frame
      rintro rfl
      exact notIn (by simp)
  · -- the tail of a longer queue
    rw [List.concat_eq_append] at *
    obtain ⟨changed, setLink, chain, frame⟩ := chain_setNext frontChain frontNodup none
    refine ⟨changed, { queue with tail := some left.1 },
      ?_, rfl, ?_, ?_, by simpa using chain, ?_, ?_⟩
    · simp [queueUnlink, atHead, atTail, prevIs, setLink]
    · cases front <;> simp [headIs]
    · simp
    · rw [frame item, found]
      rintro rfl
      exact itemNotFront (by simp)
    · intro other notIn
      apply frame
      rintro rfl
      exact notIn (by simp)
  · -- between two neighbours
    rw [List.concat_eq_append] at *
    obtain ⟨relinked, setBack, newBack, backFrame⟩ :=
      chain_setPrev backChain backNodup (some left.1)
    have oldFront : Chain relinked none (front ++ [left]) (some item) := by
      refine chain_congr ?_ (by simpa using frontChain)
      intro address member
      apply backFrame
      rintro rfl
      exact apart _ (by simpa using member) _ (by simp) rfl
    obtain ⟨changed, setFront, newFront, frontFrame⟩ :=
      chain_setNext oldFront frontNodup (some right.1)
    refine ⟨changed, queue, ?_, rfl, ?_, ?_, ?_, ?_, ?_⟩
    · simp [queueUnlink, atHead, atTail, nextIs, prevIs, setBack, setFront]
    · cases front <;> simp [headIs]
    · simp [tailIs, lastAddress_cons]
    · refine (chain_append _ _ _ _ _).mpr
        ⟨by simpa using newFront, chain_congr ?_ (by simpa using newBack)⟩
      intro address member
      apply frontFrame
      rintro rfl
      exact apart left.1 (by simp) left.1 (by simp at member ⊢; exact Or.inr member) rfl
    · rw [frontFrame item, backFrame item, found]
      · rintro rfl
        exact itemNotBack (by simp)
      · rintro rfl
        exact itemNotFront (by simp)
    · intro other notIn
      rw [frontFrame other, backFrame other]
      · rintro rfl
        exact notIn (by simp)
      · rintro rfl
        exact notIn (by simp)

/-- The outcome of removing `item`, which held `value`, from a queue whose
other items are `rest`. -/
structure Removal.Takes (removal : Removal Value) (memory : Memory Value)
    (item : Nat) (value : Value) (rest : List (Nat × Value)) (wanted : Bool)
    (garbage : Garbage) : Prop where
  represents : Represents removal.memory removal.queue rest
  returned : removal.returned = rest.length
  handed : removal.handed = if wanted then some value else none
  destroyed : removal.destroyed = if wanted then none else some value
  freed : garbage = .free → removal.memory item = none
  kept : garbage = .nothing → removal.memory item = memory item
  frame : ∀ other ∉ addresses rest, other ≠ item → removal.memory other = memory other

/-- Removing an item of the queue takes out exactly that item. -/
theorem queueRemove_takes {memory : Memory Value} {queue : Queue}
    {front back : List (Nat × Value)} {item : Nat} {value : Value}
    (represented : Represents memory queue (front ++ (item, value) :: back))
    (wanted : Bool) (garbage : Garbage) :
    ∃ removal, queueRemove memory queue (some item) wanted garbage = some removal ∧
      removal.Takes memory item value (front ++ back) wanted garbage := by
  obtain ⟨next, prev, found⟩ := represented.chain.cell
    (List.mem_append_right front (List.mem_cons_self : (item, value) ∈ (item, value) :: back))
  obtain ⟨changed, unlinked, unlink, size, head, tail, chain, kept, frame⟩ :=
    @queueUnlink_represents _ _ _ front back item ⟨next, prev, value⟩ represented found
  have nodup := represented.nodup
  simp only [List.map_append, List.map_cons, List.nodup_append, List.nodup_cons] at nodup
  obtain ⟨frontNodup, ⟨itemNotBack, backNodup⟩, apart⟩ := nodup
  have itemNotRest : item ∉ addresses (front ++ back) := by
    simp only [List.map_append, List.mem_append, not_or]
    exact ⟨fun member => apart item member item (by simp) rfl, itemNotBack⟩
  have restNodup : (addresses (front ++ back)).Nodup := by
    simp only [List.map_append, List.nodup_append]
    exact ⟨frontNodup, backNodup, fun first inFront second inBack =>
      apart first inFront second (by simp [inBack])⟩
  have sizeIs : queue.size - 1 = (front ++ back).length := by
    rw [represented.size]
    simp only [List.length_append, List.length_cons]
    omega
  have linked : Represents changed { unlinked with size := unlinked.size - 1 } (front ++ back) :=
    ⟨chain, head, tail, by simpa [size] using sizeIs, restNodup⟩
  cases garbage with
  | free =>
      refine ⟨_, by simp only [queueRemove, found, unlink, Option.bind_eq_bind,
        Option.bind_some]; rfl, ?_⟩
      refine ⟨linked.congr ?_, by simpa [size] using sizeIs, rfl, rfl, by simp, by simp, ?_⟩
      · intro other member
        apply Memory.erase_other
        rintro rfl
        exact itemNotRest member
      · intro other notIn different
        exact (Memory.erase_other changed different).trans (frame other notIn)
  | nothing =>
      refine ⟨_, by simp only [queueRemove, found, unlink, Option.bind_eq_bind,
        Option.bind_some]; rfl, ?_⟩
      refine ⟨linked, by simpa [size] using sizeIs, rfl, rfl, by simp, ?_, ?_⟩
      · intro _
        exact kept.trans found.symm
      · intro other notIn _
        exact frame other notIn

/-- Shifting a nonempty queue takes out its first item. -/
theorem queueShift_takes {memory : Memory Value} {queue : Queue}
    {item : Nat} {value : Value} {rest : List (Nat × Value)}
    (represented : Represents memory queue ((item, value) :: rest))
    (wanted : Bool) (garbage : Garbage) :
    ∃ removal, queueShift memory queue wanted garbage = some removal ∧
      removal.Takes memory item value rest wanted garbage := by
  have head : queue.head = some item := represented.head
  rw [queueShift, head]
  exact @queueRemove_takes _ _ _ [] rest item value represented wanted garbage

/-- Shifting leaves what is not in the queue. -/
theorem Removal.Takes.frame_cons {removal : Removal Value} {memory : Memory Value}
    {item : Nat × Value} {rest : List (Nat × Value)} {wanted : Bool} {garbage : Garbage}
    (takes : removal.Takes memory item.1 item.2 rest wanted garbage) {other : Nat}
    (notIn : other ∉ addresses (item :: rest)) : removal.memory other = memory other := by
  simp only [List.map_cons, List.mem_cons, not_or] at notIn
  exact takes.frame other notIn.2 notIn.1

/-- Shifting an empty queue changes nothing and hands nothing out. -/
theorem queueShift_empty {memory : Memory Value} {queue : Queue}
    (represented : Represents memory queue []) (wanted : Bool) (garbage : Garbage) :
    queueShift memory queue wanted garbage = some ⟨memory, queue, 0, none, none⟩ := by
  have head : queue.head = none := represented.head
  rw [queueShift, head]
  rfl

end Pthreads.TaskQueue
