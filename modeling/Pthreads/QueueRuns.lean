import Pthreads.GuardedRuns
import Pthreads.QueueLinks

/-!
# Queues that exchange items

A run is any sequence of calls of the interface in `src/queue.h` on any number
of queues, all empty at first.  An item that was taken out of a queue without
being freed stays allocated, with the links it had, and may later be put into
any queue.  `Queues` is the state of the code.  `Sequences` is what the calls
are for: each queue is a plain sequence of items, and each removal hands the
value of its item out or destroys it.
-/

namespace Pthreads.TaskQueue

open GuardedRuns LinkedCells

variable {Label Value : Type}

/-- A call of the interface on the queue with the given label.  The addresses
of new items are the allocator's choice. -/
inductive Call (Label Value : Type) where
  | push (label : Label) (item : Nat)
  | pushNew (label : Label) (address : Nat) (value : Value)
  | unshift (label : Label) (item : Nat)
  | unshiftNew (label : Label) (address : Nat) (value : Value)
  | remove (label : Label) (item : Nat) (wanted : Bool) (garbage : Garbage)
  | shift (label : Label) (wanted : Bool) (garbage : Garbage)
  | pop (label : Label) (wanted : Bool) (garbage : Garbage)

/-- The state of the code.  `handed` and `destroyed` record the values that
`pthreads_queue_remove` copied to its callers and destroyed. -/
structure Queues (Label Value : Type) where
  memory : Memory Value
  queue : Label → Queue
  handed : List Value
  destroyed : List Value

/-- All queues are cleared and nothing is allocated. -/
def Queues.empty : Queues Label Value := ⟨fun _ => none, fun _ => Queue.empty, [], []⟩

/-- What the calls are for. -/
structure Sequences (Label Value : Type) where
  items : Label → List Nat
  values : Nat → Option Value
  handed : List Value
  destroyed : List Value

/-- No queue has an item. -/
def Sequences.empty : Sequences Label Value := ⟨fun _ => [], fun _ => none, [], []⟩

section Steps

variable [DecidableEq Label]

/-- The queue with this label and the memory after an item was put in. -/
def Queues.placed (state : Queues Label Value) (label : Label)
    (outcome : Memory Value × Queue) : Queues Label Value :=
  { state with
    memory := outcome.1
    queue := Function.update state.queue label outcome.2 }

/-- The queue with this label and the memory after a removal. -/
def Queues.taken (state : Queues Label Value) (label : Label) (removal : Removal Value) :
    Queues Label Value where
  memory := removal.memory
  queue := Function.update state.queue label removal.queue
  handed := state.handed ++ removal.handed.toList
  destroyed := state.destroyed ++ removal.destroyed.toList

/-- One call of the code. -/
def Queues.step (state : Queues Label Value) : Call Label Value → Option (Queues Label Value)
  | .push label item =>
      (queuePush state.memory (state.queue label) item).map (state.placed label)
  | .pushNew label address value =>
      (queuePushNew state.memory (state.queue label) address value).map (state.placed label)
  | .unshift label item =>
      (queueUnshift state.memory (state.queue label) item).map (state.placed label)
  | .unshiftNew label address value =>
      (queueUnshiftNew state.memory (state.queue label) address value).map (state.placed label)
  | .remove label item wanted garbage =>
      (queueRemove state.memory (state.queue label) (some item) wanted garbage).map
        (state.taken label)
  | .shift label wanted garbage =>
      (queueShift state.memory (state.queue label) wanted garbage).map (state.taken label)
  | .pop label wanted garbage =>
      (queuePop state.memory (state.queue label) wanted garbage).map (state.taken label)

/-- A new item with a value. -/
def Sequences.allocated (sequences : Sequences Label Value) (address : Nat) (value : Value) :
    Sequences Label Value :=
  { sequences with values := Function.update sequences.values address (some value) }

/-- Another sequence of items for one queue. -/
def Sequences.arranged (sequences : Sequences Label Value) (label : Label)
    (items : List Nat) : Sequences Label Value :=
  { sequences with items := Function.update sequences.items label items }

/-- Delete an item of a queue; its value is handed out or destroyed. -/
def Sequences.removed (sequences : Sequences Label Value) (label : Label) (item : Nat)
    (wanted : Bool) (garbage : Garbage) : Sequences Label Value where
  items := Function.update sequences.items label ((sequences.items label).erase item)
  values := match garbage with
    | .free => Function.update sequences.values item none
    | .nothing => sequences.values
  handed := sequences.handed ++ if wanted then (sequences.values item).toList else []
  destroyed := sequences.destroyed ++ if wanted then [] else (sequences.values item).toList

/-- Delete an item if there is one. -/
def Sequences.removedIfAny (sequences : Sequences Label Value) (label : Label)
    (wanted : Bool) (garbage : Garbage) : Option Nat → Sequences Label Value
  | none => sequences
  | some item => sequences.removed label item wanted garbage

/-- What one call does to the sequences. -/
def Sequences.step (sequences : Sequences Label Value) :
    Call Label Value → Sequences Label Value
  | .push label item => sequences.arranged label (sequences.items label ++ [item])
  | .pushNew label address value =>
      (sequences.allocated address value).arranged label (sequences.items label ++ [address])
  | .unshift label item => sequences.arranged label (item :: sequences.items label)
  | .unshiftNew label address value =>
      (sequences.allocated address value).arranged label (address :: sequences.items label)
  | .remove label item wanted garbage => sequences.removed label item wanted garbage
  | .shift label wanted garbage =>
      sequences.removedIfAny label wanted garbage (sequences.items label).head?
  | .pop label wanted garbage =>
      sequences.removedIfAny label wanted garbage (sequences.items label).getLast?

/-- What a list of calls does to the sequences. -/
def Sequences.after (sequences : Sequences Label Value) (calls : List (Call Label Value)) :
    Sequences Label Value :=
  calls.foldl Sequences.step sequences

/-- The item is allocated and in no queue. -/
def Sequences.Loose (sequences : Sequences Label Value) (item : Nat) : Prop :=
  (sequences.values item).isSome ∧ ∀ label, item ∉ sequences.items label

/-- What the interface asks of its callers: an item that is put into a queue is
allocated and in no queue, a new item has a fresh address, and an item that is
removed is in the queue. -/
def Sequences.Permits (sequences : Sequences Label Value) : Call Label Value → Prop
  | .push _ item => sequences.Loose item
  | .pushNew _ address _ => sequences.values address = none
  | .unshift _ item => sequences.Loose item
  | .unshiftNew _ address _ => sequences.values address = none
  | .remove label item _ _ => item ∈ sequences.items label
  | .shift _ _ _ => True
  | .pop _ _ _ => True

/-- Every call is permitted where it is made. -/
def Sequences.PermitsAll (sequences : Sequences Label Value) :
    List (Call Label Value) → Prop :=
  Admits (fun sequences call => some (Sequences.step sequences call)) Sequences.Permits sequences

/-! ### The simulation -/

/-- The state of the code shows these sequences. -/
structure Agrees (state : Queues Label Value) (sequences : Sequences Label Value) : Prop where
  linked : ∀ label, ∃ cells, Linked state.memory (state.queue label) cells ∧
    addresses cells = sequences.items label
  values : ∀ item, (state.memory item).map Cell.value = sequences.values item
  apart : ∀ label other item, item ∈ sequences.items label → item ∈ sequences.items other →
    label = other
  handed : state.handed = sequences.handed
  destroyed : state.destroyed = sequences.destroyed

omit [DecidableEq Label] in
theorem agrees_empty : Agrees (Queues.empty : Queues Label Value) Sequences.empty where
  linked _ := ⟨[], linked_empty _, rfl⟩
  values _ := rfl
  apart _ _ _ member := absurd member List.not_mem_nil
  handed := rfl
  destroyed := rfl

variable {state : Queues Label Value} {sequences : Sequences Label Value}

omit [DecidableEq Label] in
/-- The cells of a queue hold the values of its items. -/
theorem Agrees.value_of_mem (agrees : Agrees state sequences) {queue : Queue}
    {cells : List (Nat × Value)} (linked : Linked state.memory queue cells)
    {entry : Nat × Value} (member : entry ∈ cells) :
    sequences.values entry.1 = some entry.2 := by
  obtain ⟨next, prev, found⟩ := linked.chain.cell member
  rw [← agrees.values, found]
  rfl

omit [DecidableEq Label] in
/-- Every item of a queue is allocated. -/
theorem Agrees.isSome_of_mem (agrees : Agrees state sequences) {label : Label} {item : Nat}
    (member : item ∈ sequences.items label) : (sequences.values item).isSome := by
  obtain ⟨cells, linked, shown⟩ := agrees.linked label
  rw [← shown] at member
  obtain ⟨front, value, back, rfl⟩ := exists_split_of_mem_addresses member
  have holds := agrees.value_of_mem linked
    (List.mem_append_right front (List.mem_cons_self : (item, value) ∈ (item, value) :: back))
  simp [holds]

omit [DecidableEq Label] in
/-- A new item is loose. -/
theorem Agrees.allocated (agrees : Agrees state sequences) {address : Nat}
    (fresh : sequences.values address = none) (value : Value) :
    Agrees { state with memory := state.memory.put address ⟨none, none, value⟩ }
        (sequences.allocated address value) ∧
      (sequences.allocated address value).Loose address := by
  have outside : ∀ label, address ∉ sequences.items label := by
    intro label member
    have := agrees.isSome_of_mem member
    simp [fresh] at this
  refine ⟨⟨?_, ?_, agrees.apart, agrees.handed, agrees.destroyed⟩, ?_, outside⟩
  · intro label
    obtain ⟨cells, linked, shown⟩ := agrees.linked label
    refine ⟨cells, linked.congr ?_, shown⟩
    intro other member
    apply Memory.put_other
    rintro rfl
    rw [shown] at member
    exact outside label member
  · intro item
    by_cases same : item = address
    · subst same
      simp [Sequences.allocated]
    · simp only [Sequences.allocated, Memory.put_other state.memory same,
        Function.update_of_ne same]
      exact agrees.values item
  · simp [Sequences.allocated]

/-- Putting a loose item into a queue. -/
theorem Agrees.placed (agrees : Agrees state sequences) {label : Label} {item : Nat}
    (loose : sequences.Loose item) {cells placed : List (Nat × Value)} {change : Int}
    {outcome : Memory Value × Queue} (shown : addresses cells = sequences.items label)
    (inserts : Inserts state.memory (state.queue label) item cells placed change outcome)
    (holds : ∀ entry ∈ placed, sequences.values entry.1 = some entry.2)
    (members : ∀ address, address ∈ addresses placed ↔
      address = item ∨ address ∈ sequences.items label) :
    Agrees (state.placed label outcome) (sequences.arranged label (addresses placed)) where
  linked := by
    intro other
    by_cases same : other = label
    · subst same
      exact ⟨placed, by simpa [Queues.placed] using inserts.linked,
        by simp [Sequences.arranged]⟩
    · obtain ⟨others, linked, othersShown⟩ := agrees.linked other
      refine ⟨others, ?_, by simpa [Sequences.arranged, same] using othersShown⟩
      simp only [Queues.placed, Function.update_of_ne same]
      apply linked.congr
      intro address member
      rw [othersShown] at member
      apply inserts.frame
      · intro inCells
        rw [shown] at inCells
        exact same (agrees.apart other label address member inCells)
      · rintro rfl
        exact loose.2 other member
  values := by
    intro address
    by_cases member : address ∈ addresses placed
    · obtain ⟨entry, present, rfl⟩ := List.mem_map.mp member
      obtain ⟨next, prev, found⟩ := inserts.linked.chain.cell present
      simpa [Queues.placed, Sequences.arranged, found] using (holds entry present).symm
    · rw [members, not_or] at member
      have unchanged := inserts.frame address (by rw [shown]; exact member.2) member.1
      simpa [Queues.placed, Sequences.arranged, unchanged] using agrees.values address
  apart := by
    -- every item of the changed queue is the loose one or was there before
    have origin : ∀ place address,
        address ∈ (sequences.arranged label (addresses placed)).items place →
          (address = item ∧ place = label) ∨ address ∈ sequences.items place := by
      intro place address member
      by_cases same : place = label
      · subst same
        simp only [Sequences.arranged, Function.update_self] at member
        rcases (members address).mp member with isItem | before
        · exact Or.inl ⟨isItem, rfl⟩
        · exact Or.inr before
      · simp only [Sequences.arranged, Function.update_of_ne same] at member
        exact Or.inr member
    intro first second address inFirst inSecond
    rcases origin first address inFirst with ⟨rfl, rfl⟩ | inFirst
    · rcases origin second address inSecond with ⟨-, rfl⟩ | inSecond
      · rfl
      · exact absurd inSecond (loose.2 second)
    · rcases origin second address inSecond with ⟨rfl, -⟩ | inSecond
      · exact absurd inFirst (loose.2 first)
      · exact agrees.apart first second address inFirst inSecond
  handed := agrees.handed
  destroyed := agrees.destroyed

/-- Taking an item out of a queue. -/
theorem Agrees.taken (agrees : Agrees state sequences) {label : Label} {item : Nat}
    {value : Value} {front back : List (Nat × Value)} {wanted : Bool} {garbage : Garbage}
    {removal : Removal Value}
    (linked : Linked state.memory (state.queue label) (front ++ (item, value) :: back))
    (shown : addresses (front ++ (item, value) :: back) = sequences.items label)
    (extracts : removal.Extracts state.memory (state.queue label) item value (front ++ back)
      wanted garbage) :
    Agrees (state.taken label removal) (sequences.removed label item wanted garbage) := by
  have erased : (sequences.items label).erase item = addresses (front ++ back) := by
    have nodup := linked.nodup
    simp only [List.map_append, List.map_cons, List.nodup_append] at nodup
    have itemNotFront : item ∉ addresses front := fun member =>
      nodup.2.2 item member item List.mem_cons_self rfl
    rw [← shown]
    change ((front ++ (item, value) :: back).map Prod.fst).erase item =
      (front ++ back).map Prod.fst
    rw [List.map_append, List.map_cons, List.erase_append_right _ itemNotFront,
      List.erase_cons_head, List.map_append]
  have sublist : ∀ address ∈ addresses (front ++ back), address ∈ sequences.items label := by
    intro address member
    rw [← erased] at member
    exact List.mem_of_mem_erase member
  have holds : sequences.values item = some value :=
    agrees.value_of_mem linked (List.mem_append_right front List.mem_cons_self)
  have itemInside : item ∈ sequences.items label := by
    rw [← shown]
    simp
  constructor
  · intro other
    by_cases same : other = label
    · subst same
      exact ⟨front ++ back, by simpa [Queues.taken] using extracts.linked,
        by simpa [Sequences.removed] using erased.symm⟩
    · obtain ⟨others, otherLinked, othersShown⟩ := agrees.linked other
      refine ⟨others, ?_, by simpa [Sequences.removed, same] using othersShown⟩
      simp only [Queues.taken, Function.update_of_ne same]
      apply otherLinked.congr
      intro address member
      rw [othersShown] at member
      apply extracts.frame
      · intro inRest
        exact same (agrees.apart other label address member (sublist address inRest))
      · rintro rfl
        exact same (agrees.apart other label address member itemInside)
  · intro address
    by_cases isItem : address = item
    · subst isItem
      cases garbage with
      | free => simp [Queues.taken, Sequences.removed, extracts.freed rfl]
      | nothing =>
          simpa [Queues.taken, Sequences.removed, extracts.kept rfl] using agrees.values address
    · have values : (sequences.removed label item wanted garbage).values address =
          sequences.values address := by
        cases garbage <;> simp [Sequences.removed, isItem]
      rw [values]
      by_cases member : address ∈ addresses (front ++ back)
      · obtain ⟨entry, present, rfl⟩ := List.mem_map.mp member
        obtain ⟨next, prev, found⟩ := extracts.linked.chain.cell present
        have before : entry ∈ front ++ (item, value) :: back := by
          simp only [List.mem_append, List.mem_cons] at present ⊢
          tauto
        simpa [Queues.taken, found] using (agrees.value_of_mem linked before).symm
      · have unchanged := extracts.frame address member isItem
        simpa [Queues.taken, unchanged] using agrees.values address
  · have origin : ∀ place address,
        address ∈ (sequences.removed label item wanted garbage).items place →
          address ∈ sequences.items place := by
      intro place address member
      by_cases same : place = label
      · subst same
        simp only [Sequences.removed, Function.update_self] at member
        exact List.mem_of_mem_erase member
      · simpa [Sequences.removed, same] using member
    intro first second address inFirst inSecond
    exact agrees.apart first second address (origin first address inFirst)
      (origin second address inSecond)
  · simp only [Queues.taken, Sequences.removed, agrees.handed, extracts.handed, holds]
    cases wanted <;> rfl
  · simp only [Queues.taken, Sequences.removed, agrees.destroyed, extracts.destroyed, holds]
    cases wanted <;> rfl

/-! ### The size beside the links -/

/-- How far the size of a queue is from the number of its items. -/
def Queues.drift (state : Queues Label Value) (sequences : Sequences Label Value)
    (label : Label) : Int :=
  (state.queue label).size - (sequences.items label).length

theorem drift_placed {label other : Label} {item : Nat} {cells placed : List (Nat × Value)}
    {change : Int} {outcome : Memory Value × Queue}
    (shown : addresses cells = sequences.items label)
    (inserts : Inserts state.memory (state.queue label) item cells placed change outcome)
    (longer : placed.length = cells.length + 1) :
    (state.placed label outcome).drift (sequences.arranged label (addresses placed)) other =
      state.drift sequences other + if other = label then change - 1 else 0 := by
  by_cases same : other = label
  · subst same
    have before : (sequences.items other).length = cells.length := by
      rw [← shown, List.length_map]
    simp only [Queues.drift, Queues.placed, Sequences.arranged, Function.update_self,
      inserts.size, List.length_map, longer, before, if_true]
    omega
  · simp [Queues.drift, Queues.placed, Sequences.arranged, same]

theorem drift_taken {label other : Label} {item : Nat} {value : Value}
    {rest : List (Nat × Value)} {wanted : Bool} {garbage : Garbage} {removal : Removal Value}
    (member : item ∈ sequences.items label)
    (extracts : removal.Extracts state.memory (state.queue label) item value rest wanted garbage) :
    (state.taken label removal).drift (sequences.removed label item wanted garbage) other =
      state.drift sequences other := by
  by_cases same : other = label
  · subst same
    have shorter := List.length_erase_add_one member
    simp only [Queues.drift, Queues.taken, Sequences.removed, Function.update_self,
      extracts.size]
    omega
  · simp [Queues.drift, Queues.taken, Sequences.removed, same]

/-- The call is an `unshift` or `unshift_new` on the queue with this label. -/
def Call.unshiftsInto (label : Label) : Call Label Value → Bool
  | .unshift place _ => label = place
  | .unshiftNew place _ _ => label = place
  | _ => false

/-- What a permitted call leads to. -/
structure Follow (state : Queues Label Value) (sequences : Sequences Label Value)
    (call : Call Label Value) (after : Queues Label Value) : Prop where
  stepped : state.step call = some after
  agrees : Agrees after (sequences.step call)
  drift : ∀ label, after.drift (sequences.step call) label =
    state.drift sequences label - (call.unshiftsInto label).toNat

theorem Agrees.push (agrees : Agrees state sequences) (label : Label) {item : Nat}
    (loose : sequences.Loose item) : ∃ after, Follow state sequences (.push label item) after := by
  obtain ⟨cells, linked, shown⟩ := agrees.linked label
  obtain ⟨value, holds⟩ := Option.isSome_iff_exists.mp loose.1
  obtain ⟨cell, allocated, rfl⟩ := Option.map_eq_some_iff.mp ((agrees.values item).trans holds)
  have outside : item ∉ addresses cells := by
    rw [shown]
    exact loose.2 label
  obtain ⟨outcome, pushed, inserts⟩ := queuePush_linked linked allocated outside
  have arranged : sequences.step (.push label item) =
      sequences.arranged label (addresses (cells ++ [(item, cell.value)])) := by
    simp [Sequences.step, ← shown]
  refine ⟨state.placed label outcome, by simp [Queues.step, pushed], ?_, ?_⟩
  · rw [arranged]
    apply agrees.placed loose shown inserts
    · intro entry member
      rcases List.mem_append.mp member with before | new
      · exact agrees.value_of_mem linked before
      · obtain rfl := List.mem_singleton.mp new
        exact holds
    · intro address
      rw [← shown]
      simp [or_comm]
  · intro other
    rw [arranged, drift_placed shown inserts (by simp)]
    simp [Call.unshiftsInto]

theorem Agrees.unshift (agrees : Agrees state sequences) (label : Label) {item : Nat}
    (loose : sequences.Loose item) :
    ∃ after, Follow state sequences (.unshift label item) after := by
  obtain ⟨cells, linked, shown⟩ := agrees.linked label
  obtain ⟨value, holds⟩ := Option.isSome_iff_exists.mp loose.1
  obtain ⟨cell, allocated, rfl⟩ := Option.map_eq_some_iff.mp ((agrees.values item).trans holds)
  have outside : item ∉ addresses cells := by
    rw [shown]
    exact loose.2 label
  obtain ⟨outcome, unshifted, inserts⟩ := queueUnshift_linked linked allocated outside
  have arranged : sequences.step (.unshift label item) =
      sequences.arranged label (addresses ((item, cell.value) :: cells)) := by
    simp [Sequences.step, ← shown]
  refine ⟨state.placed label outcome, by simp [Queues.step, unshifted], ?_, ?_⟩
  · rw [arranged]
    apply agrees.placed loose shown inserts
    · intro entry member
      rcases List.mem_cons.mp member with rfl | before
      · exact holds
      · exact agrees.value_of_mem linked before
    · intro address
      rw [← shown]
      simp
  · intro other
    rw [arranged, drift_placed shown inserts (by simp)]
    by_cases same : other = label <;> simp [Call.unshiftsInto, same]
    rfl

/-- A call with a new item is the allocation followed by the call with the
item. -/
theorem Follow.ofNew {address : Nat} {value : Value}
    {call newCall : Call Label Value} {after : Queues Label Value}
    (stepped : state.step newCall =
      { state with memory := state.memory.put address ⟨none, none, value⟩ }.step call)
    (arranged : sequences.step newCall = (sequences.allocated address value).step call)
    (unshifts : ∀ label, newCall.unshiftsInto label = call.unshiftsInto label)
    (follow : Follow { state with memory := state.memory.put address ⟨none, none, value⟩ }
      (sequences.allocated address value) call after) :
    Follow state sequences newCall after where
  stepped := stepped.trans follow.stepped
  agrees := by
    rw [arranged]
    exact follow.agrees
  drift label := by
    rw [arranged, unshifts]
    exact follow.drift label

theorem Agrees.pushNew (agrees : Agrees state sequences) (label : Label) {address : Nat}
    (fresh : sequences.values address = none) (value : Value) :
    ∃ after, Follow state sequences (.pushNew label address value) after := by
  obtain ⟨allocated, loose⟩ := agrees.allocated fresh value
  obtain ⟨after, follow⟩ := allocated.push label loose
  have free : state.memory address = none := by
    simpa [fresh] using agrees.values address
  have stepped : state.step (.pushNew label address value) =
      { state with memory := state.memory.put address ⟨none, none, value⟩ }.step
        (.push label address) := by
    simp only [Queues.step, queuePushNew, queueItemNew, free, Option.bind_eq_bind,
      Option.bind_some]
    rfl
  exact ⟨after, follow.ofNew stepped rfl fun _ => rfl⟩

theorem Agrees.unshiftNew (agrees : Agrees state sequences) (label : Label) {address : Nat}
    (fresh : sequences.values address = none) (value : Value) :
    ∃ after, Follow state sequences (.unshiftNew label address value) after := by
  obtain ⟨allocated, loose⟩ := agrees.allocated fresh value
  obtain ⟨after, follow⟩ := allocated.unshift label loose
  have free : state.memory address = none := by
    simpa [fresh] using agrees.values address
  have stepped : state.step (.unshiftNew label address value) =
      { state with memory := state.memory.put address ⟨none, none, value⟩ }.step
        (.unshift label address) := by
    simp only [Queues.step, queueUnshiftNew, queueItemNew, free, Option.bind_eq_bind,
      Option.bind_some]
    rfl
  exact ⟨after, follow.ofNew stepped rfl fun _ => rfl⟩

theorem Agrees.remove (agrees : Agrees state sequences) {label : Label} {item : Nat}
    (member : item ∈ sequences.items label) (wanted : Bool) (garbage : Garbage) :
    ∃ after, Follow state sequences (.remove label item wanted garbage) after := by
  obtain ⟨cells, linked, shown⟩ := agrees.linked label
  have inCells := member
  rw [← shown] at inCells
  obtain ⟨front, value, back, rfl⟩ := exists_split_of_mem_addresses inCells
  obtain ⟨removal, removed, extracts⟩ := queueRemove_linked linked wanted garbage
  refine ⟨state.taken label removal, by simp [Queues.step, removed],
    agrees.taken linked shown extracts, ?_⟩
  intro other
  rw [Sequences.step, drift_taken member extracts]
  simp [Call.unshiftsInto]

/-- Removing at an end of a queue that has no item there does nothing. -/
theorem Agrees.removeNone (agrees : Agrees state sequences) {label : Label} {wanted : Bool}
    {garbage : Garbage} {call : Call Label Value}
    (stepped : state.step call =
      (queueRemove state.memory (state.queue label) none wanted garbage).map (state.taken label))
    (kept : sequences.step call = sequences) (unshifts : ∀ place, call.unshiftsInto place = false) :
    ∃ after, Follow state sequences call after := by
  refine ⟨state, stepped.trans ?_, by rw [kept]; exact agrees, ?_⟩
  · simp [queueRemove, Queues.taken]
  · intro other
    rw [kept, unshifts]
    simp

/-- A removal at an end of a queue is the removal of the item there. -/
theorem Agrees.removeEnd (agrees : Agrees state sequences) {label : Label} {wanted : Bool}
    {garbage : Garbage} {call : Call Label Value} (chosen : Option Nat)
    (stepped : state.step call =
      (queueRemove state.memory (state.queue label) chosen wanted garbage).map (state.taken label))
    (removed : sequences.step call = sequences.removedIfAny label wanted garbage chosen)
    (unshifts : ∀ place, call.unshiftsInto place = false)
    (members : ∀ item, chosen = some item → item ∈ sequences.items label) :
    ∃ after, Follow state sequences call after := by
  cases chosen with
  | none => exact agrees.removeNone stepped removed unshifts
  | some item =>
      obtain ⟨after, follow⟩ := agrees.remove (members item rfl) wanted garbage
      refine ⟨after, stepped.trans follow.stepped, ?_, ?_⟩
      · rw [removed]
        exact follow.agrees
      · intro other
        rw [removed, unshifts]
        exact follow.drift other

theorem Agrees.shift (agrees : Agrees state sequences) (label : Label) (wanted : Bool)
    (garbage : Garbage) : ∃ after, Follow state sequences (.shift label wanted garbage) after := by
  obtain ⟨cells, linked, shown⟩ := agrees.linked label
  have head := linked.doublyLinked.head
  rw [shown] at head
  apply agrees.removeEnd (sequences.items label).head?
  · rw [Queues.step, queueShift, head]
  · rfl
  · exact fun _ => rfl
  · exact fun item first => List.mem_of_mem_head? first

theorem Agrees.pop (agrees : Agrees state sequences) (label : Label) (wanted : Bool)
    (garbage : Garbage) : ∃ after, Follow state sequences (.pop label wanted garbage) after := by
  obtain ⟨cells, linked, shown⟩ := agrees.linked label
  have tail := linked.doublyLinked.tail
  rw [shown] at tail
  apply agrees.removeEnd (sequences.items label).getLast?
  · rw [Queues.step, queuePop, tail]
  · rfl
  · exact fun _ => rfl
  · exact fun item last => List.mem_of_mem_getLast? last

/-- The code follows the sequences through one permitted call. -/
theorem Agrees.step (agrees : Agrees state sequences) {call : Call Label Value}
    (permitted : sequences.Permits call) : ∃ after, Follow state sequences call after := by
  cases call with
  | push label item => exact agrees.push label permitted
  | pushNew label address value => exact agrees.pushNew label permitted value
  | unshift label item => exact agrees.unshift label permitted
  | unshiftNew label address value => exact agrees.unshiftNew label permitted value
  | remove label item wanted garbage => exact agrees.remove permitted wanted garbage
  | shift label wanted garbage => exact agrees.shift label wanted garbage
  | pop label wanted garbage => exact agrees.pop label wanted garbage

/-- The number of items that a list of calls unshifts into a queue. -/
def unshiftsOf (label : Label) (calls : List (Call Label Value)) : Nat :=
  calls.countP (Call.unshiftsInto label)

omit [DecidableEq Label] in
/-- The item that a call takes out of its queue. -/
def Sequences.takenBy (sequences : Sequences Label Value) : Call Label Value → Option Nat
  | .remove _ item _ _ => some item
  | .shift label _ _ => (sequences.items label).head?
  | .pop label _ _ => (sequences.items label).getLast?
  | _ => none

/-- The items that a list of calls takes out, in order. -/
def Sequences.takenIn (sequences : Sequences Label Value) : List (Call Label Value) → List Nat
  | [] => []
  | call :: calls => (sequences.takenBy call).toList ++ (sequences.step call).takenIn calls

/-- The number of values handed out or destroyed so far. -/
def Sequences.disposed (sequences : Sequences Label Value) : Nat :=
  sequences.handed.length + sequences.destroyed.length

theorem Agrees.disposed_removed (agrees : Agrees state sequences) {label : Label} {item : Nat}
    (member : item ∈ sequences.items label) (wanted : Bool) (garbage : Garbage) :
    (sequences.removed label item wanted garbage).disposed = sequences.disposed + 1 := by
  obtain ⟨value, holds⟩ := Option.isSome_iff_exists.mp (agrees.isSome_of_mem member)
  simp only [Sequences.disposed, Sequences.removed, List.length_append, holds]
  cases wanted
  · simp only [Bool.false_eq_true, if_false, Option.toList_some, List.length_nil,
      List.length_singleton]
    omega
  · simp only [if_true, Option.toList_some, List.length_nil, List.length_singleton]
    omega

theorem Agrees.disposed_removedIfAny (agrees : Agrees state sequences) {label : Label}
    {chosen : Option Nat} (members : ∀ item, chosen = some item → item ∈ sequences.items label)
    (wanted : Bool) (garbage : Garbage) :
    (sequences.removedIfAny label wanted garbage chosen).disposed =
      sequences.disposed + chosen.toList.length := by
  cases chosen with
  | none => rfl
  | some item => exact agrees.disposed_removed (members item rfl) wanted garbage

/-- A call that takes an item out hands out or destroys one value, and no other
call does. -/
theorem Agrees.disposed_step (agrees : Agrees state sequences) {call : Call Label Value}
    (permitted : sequences.Permits call) :
    (sequences.step call).disposed =
      sequences.disposed + (sequences.takenBy call).toList.length := by
  cases call with
  | push label item => rfl
  | pushNew label address value => rfl
  | unshift label item => rfl
  | unshiftNew label address value => rfl
  | remove label item wanted garbage => exact agrees.disposed_removed permitted wanted garbage
  | shift label wanted garbage =>
      exact agrees.disposed_removedIfAny (fun item first => List.mem_of_mem_head? first)
        wanted garbage
  | pop label wanted garbage =>
      exact agrees.disposed_removedIfAny (fun item last => List.mem_of_mem_getLast? last)
        wanted garbage

/-- The code follows the sequences through every permitted list of calls, and
the size of a queue falls behind by one for each item unshifted into it. -/
theorem Agrees.run {calls : List (Call Label Value)} (agrees : Agrees state sequences)
    (permitted : sequences.PermitsAll calls) :
    ∃ after, execute Queues.step state calls = some after ∧
      Agrees after (sequences.after calls) ∧
      (∀ label, after.drift (sequences.after calls) label =
        state.drift sequences label - unshiftsOf label calls) ∧
      (sequences.after calls).disposed =
        sequences.disposed + (sequences.takenIn calls).length := by
  induction calls generalizing state sequences with
  | nil =>
      exact ⟨state, rfl, agrees, fun label => by simp [unshiftsOf, Sequences.after], rfl⟩
  | cons call calls ih =>
      obtain ⟨first, later⟩ := permitted
      obtain ⟨next, follow⟩ := agrees.step first
      obtain ⟨after, executed, final, drift, disposed⟩ := ih follow.agrees later
      refine ⟨after, ?_, final, ?_, ?_⟩
      · simp only [execute, follow.stepped, executed]
      · intro label
        have here := follow.drift label
        have there := drift label
        have counted : unshiftsOf label (call :: calls) =
            (call.unshiftsInto label).toNat + unshiftsOf label calls := by
          cases unshifts : call.unshiftsInto label <;>
            simp [unshiftsOf, unshifts, Nat.add_comm]
        simp only [Sequences.after, List.foldl_cons] at there ⊢
        omega
      · have here := agrees.disposed_step first
        simp only [Sequences.after, List.foldl_cons, Sequences.takenIn,
          List.length_append] at disposed ⊢
        omega

/-- The queues show the sequences after every permitted list of calls. -/
theorem run_from_empty {calls : List (Call Label Value)}
    (permitted : (Sequences.empty : Sequences Label Value).PermitsAll calls) :
    ∃ state, execute Queues.step Queues.empty calls = some state ∧
      Agrees state (Sequences.empty.after calls) ∧
      (∀ label, state.drift (Sequences.empty.after calls) label = - unshiftsOf label calls) ∧
      (Sequences.empty.after calls).disposed = (Sequences.empty.takenIn calls).length := by
  obtain ⟨state, executed, agrees, drift, disposed⟩ := agrees_empty.run permitted
  refine ⟨state, executed, agrees, fun label => ?_, ?_⟩
  · rw [drift label]
    simp [Queues.drift, Queues.empty, Queue.empty, Sequences.empty]
  · rw [disposed]
    simp [Sequences.disposed, Sequences.empty]

/-- After every permitted list of calls each queue is a well-formed doubly
linked list of its sequence of items, every item holds its value, and each item
that was taken out had its value handed out or destroyed once. -/
theorem queues_show_sequences {calls : List (Call Label Value)}
    (permitted : (Sequences.empty : Sequences Label Value).PermitsAll calls) :
    ∃ state, execute Queues.step Queues.empty calls = some state ∧
      (∀ label, DoublyLinked state.memory (state.queue label)
        ((Sequences.empty.after calls).items label)) ∧
      (∀ item, (state.memory item).map Cell.value = (Sequences.empty.after calls).values item) ∧
      state.handed = (Sequences.empty.after calls).handed ∧
      state.destroyed = (Sequences.empty.after calls).destroyed ∧
      state.handed.length + state.destroyed.length =
        (Sequences.empty.takenIn calls).length := by
  obtain ⟨state, executed, agrees, -, disposed⟩ := run_from_empty permitted
  refine ⟨state, executed, ?_, agrees.values, agrees.handed, agrees.destroyed, ?_⟩
  · intro label
    obtain ⟨cells, linked, shown⟩ := agrees.linked label
    rw [← shown]
    exact linked.doublyLinked
  · rw [agrees.handed, agrees.destroyed]
    exact disposed

/-- A task moves from one queue to another while a second one waits. -/
def movedBetweenQueues : List (Call Bool Nat) :=
  [.pushNew false 1 10, .pushNew false 2 20, .shift false true .nothing, .push true 1,
    .unshiftNew true 3 30, .remove true 1 false .free]

theorem queues_show_sequences_movedBetweenQueues :
    (∃ state, execute Queues.step Queues.empty movedBetweenQueues = some state ∧
      (∀ label, DoublyLinked state.memory (state.queue label)
        ((Sequences.empty.after movedBetweenQueues).items label)) ∧
      (∀ item, (state.memory item).map Cell.value =
        (Sequences.empty.after movedBetweenQueues).values item) ∧
      state.handed = (Sequences.empty.after movedBetweenQueues).handed ∧
      state.destroyed = (Sequences.empty.after movedBetweenQueues).destroyed ∧
      state.handed.length + state.destroyed.length =
        (Sequences.empty.takenIn movedBetweenQueues).length) ∧
    (Sequences.empty.after movedBetweenQueues).items true = [3] ∧
    (Sequences.empty.after movedBetweenQueues).handed = [10] ∧
    (Sequences.empty.after movedBetweenQueues).destroyed = [10] := by
  refine ⟨queues_show_sequences ?_, by decide, by decide, by decide⟩
  refine ⟨rfl, rfl, trivial, ⟨rfl, ?_⟩, rfl, ?_, trivial⟩
  · decide
  · change 1 ∈ [3, 1]
    decide

/-! ### The size -/

/-- The size is the number of items reachable from the head, is not negative,
and is zero exactly when there is no head. -/
structure Counted (memory : Memory Value) (queue : Queue) : Prop where
  reachable : ∃ items, Follows memory queue.head items ∧ queue.size = items.length
  nonneg : 0 ≤ queue.size
  zero : queue.size = 0 ↔ queue.head = none

/-- After every permitted list of calls the size of a queue is right exactly if
nothing was ever unshifted into that queue. -/
theorem counted_iff_never_unshifted {calls : List (Call Label Value)}
    (permitted : (Sequences.empty : Sequences Label Value).PermitsAll calls) :
    ∃ state, execute Queues.step Queues.empty calls = some state ∧
      ∀ label, Counted state.memory (state.queue label) ↔
        ∀ call ∈ calls, call.unshiftsInto label = false := by
  obtain ⟨state, executed, agrees, drift, -⟩ := run_from_empty permitted
  refine ⟨state, executed, fun label => ?_⟩
  obtain ⟨cells, linked, shown⟩ := agrees.linked label
  have links := linked.doublyLinked
  rw [shown] at links
  have behind := drift label
  rw [Queues.drift] at behind
  have never : (∀ call ∈ calls, call.unshiftsInto label = false) ↔ unshiftsOf label calls = 0 := by
    simp [unshiftsOf, List.countP_eq_zero]
  rw [never]
  constructor
  · intro counted
    obtain ⟨items, follows, size⟩ := counted.reachable
    obtain rfl := follows.unique links.follows
    omega
  · intro none
    have size : (state.queue label).size = ((Sequences.empty.after calls).items label).length := by
      omega
    refine ⟨⟨_, links.follows, size⟩, by omega, ?_⟩
    rw [size, links.head]
    simp

/-- One item, unshifted into an empty queue. -/
def unshiftOne : List (Call Unit Nat) := [.unshiftNew () 1 10]

/-- Two items, pushed into one queue, and two that are unshifted into another. -/
def pushAndUnshift : List (Call Bool Nat) :=
  [.pushNew true 1 10, .unshiftNew false 2 11, .pushNew true 3 12, .unshiftNew false 4 13,
    .shift true true .free]

theorem counted_iff_never_unshifted_pushAndUnshift :
    ∃ state, execute Queues.step Queues.empty pushAndUnshift = some state ∧
      ∀ label, Counted state.memory (state.queue label) ↔ label = true := by
  have permitted : (Sequences.empty : Sequences Bool Nat).PermitsAll pushAndUnshift :=
    ⟨rfl, rfl, rfl, rfl, trivial, trivial⟩
  obtain ⟨state, executed, counted⟩ := counted_iff_never_unshifted permitted
  refine ⟨state, executed, fun label => (counted label).trans ?_⟩
  cases label with
  | true => decide
  | false => decide

/-- The size of a queue stays zero when an item is unshifted into it, and then
becomes negative when the item is taken out. -/
theorem unshift_is_not_counted :
    (Sequences.empty : Sequences Unit Nat).PermitsAll (unshiftOne ++ [.shift () true .free]) ∧
    (∃ state, execute Queues.step Queues.empty unshiftOne = some state ∧
      (state.queue ()).head = some 1 ∧ ¬ Counted state.memory (state.queue ())) ∧
    ∃ state, execute Queues.step Queues.empty (unshiftOne ++ [.shift () true .free]) = some state ∧
      (state.queue ()).size = -1 ∧ ¬ Counted state.memory (state.queue ()) := by
  refine ⟨⟨rfl, trivial, trivial⟩, ⟨_, rfl, rfl, ?_⟩, ⟨_, rfl, rfl, ?_⟩⟩
  · intro counted
    exact Option.some_ne_none 1 (counted.zero.mp rfl)
  · intro counted
    exact absurd counted.nonneg (by decide)

end Steps

end Pthreads.TaskQueue
