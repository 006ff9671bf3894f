import Pthreads.StoreHashes
import Mathlib.Data.List.Forall2

/-!
# A ThreadedArray as a queue

Threads append to a ThreadedArray and take elements from it with `shift`, `pop`
and `chunk`, each through a connection of its own.  A run begins in any state of
the store and records what each call appends and returns.  In between the array
may be read, connected and disconnected in any way that leaves its elements alone.
-/

namespace Pthreads.ArrayQueue

open Store GuardedRuns

/-- `pthreads_store_count`. -/
def storeCount (props : Props) : Nat := props.hash.table.entries.length

/-- A storage without the place of its string, which may be moved into persistent
memory at any time. -/
def content : Storage → Storage
  | .stringPtr string _ => .string { string with pointer := 0 }
  | .string string => .string { string with pointer := 0 }
  | storage => storage

structure State where
  store : Store.State
  /-- The keys and values of the appends, never read by the program. -/
  appended : List (Key × Zval)
  /-- The keys and values that calls have returned, never read by the program. -/
  returned : List (Key × Option Zval)

def State.start (store : Store.State) : State := ⟨store, [], []⟩

/-- The elements of a table, in its order. -/
def elementsOf (hash : HashTable) : List (Key × Storage) :=
  hash.table.entries.map fun entry => (entry.1, content entry.2)

def State.elements (state : State) : List (Key × Storage) := elementsOf state.store.props.hash

inductive Action where
  /-- `$array[] = $value`. -/
  | append (connection : Nat) (value : Zval) (coerceArrays : Bool) (fresh : Fresh)
  | shift (connection : Nat) (fresh : Key → Fresh)
  | pop (connection : Nat) (fresh : Key → Fresh)
  | chunk (connection : Nat) (size : Int) (fresh : Key → Fresh)
  /-- Anything that leaves the elements alone. -/
  | other (action : Store.Action)

/-- The action modifies no element and does not destroy the array. -/
def keepsElements (store : Store.State) : Store.Action → Bool
  | .disconnect connection _ => ¬ (store.connections.delete connection).entries.isEmpty
  | .connect _ _ _ | .read _ _ _ _ | .toHash _ _ _ | .toOwnHash _ _ | .fullSync _ _ | .persist _ _
  | .finish _ | .registry _ | .loadEnum _ _ _ => true
  | _ => false

/-- What an append writes, unless the value cannot be stored. -/
def appendedBy (store : Store.State) (connection : Nat) (value : Zval) (coerceArrays : Bool)
    (fresh : Fresh) : List (Key × Zval) :=
  match (store.idle connection).bind fun found =>
      storeWrite store.registry store.props found none value coerceArrays fresh with
  | some (some written) => [(written.member, written.value)]
  | _ => []

/-- What an operation that removes elements returns. -/
def returnedBy (store : Store.State) (connection : Nat)
    (operation : Connection → Option Removed) : List (Key × Option Zval) :=
  (((store.idle connection).bind operation).map Removed.values).getD []

def step (state : State) : Action → Option State
  | .append connection value coerceArrays fresh =>
      (Store.step state.store (.write connection none value coerceArrays fresh)).map fun after =>
        { state with
          store := after
          appended := state.appended ++
            appendedBy state.store connection value coerceArrays fresh }
  | .shift connection fresh =>
      (Store.step state.store (.shift connection fresh)).map fun after =>
        { state with
          store := after
          returned := state.returned ++ returnedBy state.store connection fun found =>
            storeShift state.store.enumCases state.store.registry state.store.props found fresh }
  | .pop connection fresh =>
      (Store.step state.store (.pop connection fresh)).map fun after =>
        { state with
          store := after
          returned := state.returned ++ returnedBy state.store connection fun found =>
            storePop state.store.enumCases state.store.registry state.store.props found fresh }
  | .chunk connection size fresh =>
      (Store.step state.store (.chunk connection size fresh)).map fun after =>
        { state with
          store := after
          returned := state.returned ++ returnedBy state.store connection fun found =>
            storeChunk state.store.enumCases state.store.registry state.store.props found fresh
              size }
  | .other action =>
      if keepsElements state.store action then
        (Store.step state.store action).map fun after => { state with store := after }
      else none

/-- The value was saved as the element. -/
def SavedAs (appended : Key × Zval) (element : Key × Storage) : Prop :=
  appended.1 = element.1 ∧ ∃ registry thread storage,
    saveZval registry thread appended.2 = some storage ∧ content storage = element.2

/-- The value was restored from the element, or there is none for an enum case that
the thread cannot load. -/
def RestoredFrom (returned : Key × Option Zval) (element : Key × Storage) : Prop :=
  returned.1 = element.1 ∧ ∃ enumCases registry thread fresh storage after,
    content storage = element.2 ∧
      restoreElement enumCases registry thread fresh storage = some (after, returned.2)

theorem content_persistStorage (thread pointer : Nat) (storage : Storage) :
    content (persistStorage thread pointer storage) = content storage := by
  cases storage with
  | stringPtr string owner =>
      simp only [persistStorage]
      split
      · unfold saveString
        split <;> rfl
      · rfl
  | _ => rfl

/-- The storages are moved, and the elements stay. -/
theorem elementsOf_persist (thread : Nat) (pointers : Key → Nat) (props : Props) :
    elementsOf (persistLocalProperties thread pointers props).hash = elementsOf props.hash := by
  simp [elementsOf, persistLocalProperties, OrderedTable.mapValues, content_persistStorage]

section Removal

variable {enumCases : EnumCases} {registry : ObjectRegistry.Registry} {props : Props}
  {connection : Connection} {fresh : Key → Fresh} {removed : Removed}

/-- The operation returns what it took, and leaves the rest. -/
structure Takes (props : Props) (removed : Removed) (taken left : List (Key × Storage)) : Prop where
  left : elementsOf removed.props.hash = left
  restored : List.Forall₂ RestoredFrom removed.values taken
  nextFree : removed.props.hash.nextFreeElement = props.hash.nextFreeElement

theorem takeElement_restores {entry : Key × Storage}
    (taken : takeElement enumCases registry props connection fresh entry = some removed) :
    removed.props.hash = props.hash.delete entry.1 ∧
      List.Forall₂ RestoredFrom removed.values [(entry.1, content entry.2)] := by
  obtain ⟨⟨restored, value⟩, isRestored, rfl⟩ := Option.map_eq_some_iff.mp taken
  refine ⟨rfl, .cons ⟨rfl, ?_⟩ .nil⟩
  exact ⟨enumCases, registry, connection.owner, fresh entry.1, entry.2, restored, rfl, isRestored⟩

/-- Taking elements from the front. -/
theorem takeFront_removes {count : Nat}
    (taken : takeFront enumCases registry props connection fresh count = some removed) :
    Takes props removed ((elementsOf props.hash).take count)
      ((elementsOf props.hash).drop count) := by
  induction count generalizing registry props connection removed with
  | zero =>
      cases taken
      exact ⟨rfl, .nil, rfl⟩
  | succ count ih =>
      rcases takeFront_succ_cases taken with ⟨entries, rfl⟩ |
        ⟨entry, rest, first, later, entries, isFirst, isLater, rfl⟩
      · exact ⟨by simp [elementsOf, entries], by simp [elementsOf, entries], rfl⟩
      · obtain ⟨deleted, restored⟩ := takeElement_restores isFirst
        obtain ⟨left, restoredLater, nextFree⟩ := ih isLater
        have tail : elementsOf first.props.hash =
            rest.map fun entry => (entry.1, content entry.2) := by
          rw [elementsOf, deleted, delete_head entries]
        rw [tail] at left restoredLater
        refine ⟨?_, ?_, ?_⟩
        · simpa [elementsOf, entries] using left
        · have both := List.rel_append restored restoredLater
          simpa [elementsOf, entries] using both
        · rw [deleted] at nextFree
          exact nextFree

theorem storeShift_removes
    (shifted : storeShift enumCases registry props connection fresh = some removed) :
    Takes props removed ((elementsOf props.hash).take 1) ((elementsOf props.hash).drop 1) := by
  rcases storeShift_cases shifted with ⟨vacant, rfl⟩ | ⟨entry, taken, isFirst, isTaken, rfl⟩
  · have empty := List.head?_eq_none_iff.mp vacant
    exact ⟨by simp [elementsOf, empty], by simp [elementsOf, empty], rfl⟩
  · obtain ⟨rest, entries⟩ := List.head?_eq_some_iff.mp isFirst
    obtain ⟨deleted, restored⟩ := takeElement_restores isTaken
    refine ⟨?_, by simpa [elementsOf, entries, Removed.bump] using restored, ?_⟩
    · rw [Removed.bump_hash, elementsOf, deleted, delete_head entries]
      simp [elementsOf, entries]
    · rw [Removed.bump_hash, deleted]
      rfl

theorem storePop_removes
    (popped : storePop enumCases registry props connection fresh = some removed) :
    Takes props removed (elementsOf props.hash).getLast?.toList
      (elementsOf props.hash).dropLast := by
  rcases storePop_cases popped with ⟨vacant, rfl⟩ | ⟨entry, taken, last, isTaken, rfl⟩
  · have empty := List.getLast?_eq_none_iff.mp vacant
    exact ⟨by simp [elementsOf, empty], by simp [elementsOf, empty], rfl⟩
  · obtain ⟨deleted, restored⟩ := takeElement_restores isTaken
    have entries : props.hash.table.entries =
        props.hash.table.entries.dropLast ++ entry :: [] :=
      (List.dropLast_append_getLast? entry last).symm
    refine ⟨?_, ?_, ?_⟩
    · rw [Removed.bump_hash, elementsOf, deleted, delete_middle entries]
      simp [elementsOf, List.map_dropLast]
    · simpa [elementsOf, last, Removed.bump] using restored
    · rw [Removed.bump_hash, deleted]
      rfl

theorem storeChunk_removes {size : Int}
    (chunked : storeChunk enumCases registry props connection fresh size = some removed) :
    Takes props removed ((elementsOf props.hash).take size.toNat)
      ((elementsOf props.hash).drop size.toNat) := by
  obtain ⟨taken, isTaken, rfl⟩ := Option.map_eq_some_iff.mp chunked
  obtain ⟨left, restored, nextFree⟩ := takeFront_removes isTaken
  refine ⟨?_, restored, ?_⟩
  · rw [Removed.bump_hash]
    exact left
  · rw [Removed.bump_hash]
    exact nextFree

end Removal

/-- What a call that removes elements does to the array. -/
structure Removes (state after : State) (taken left : List (Key × Storage)) : Prop where
  left : after.elements = left
  returned : ∃ values, after.returned = state.returned ++ values ∧
    List.Forall₂ RestoredFrom values taken
  appended : after.appended = state.appended
  nextFree : after.store.props.hash.nextFreeElement = state.store.props.hash.nextFreeElement

/-- The calls that remove elements do so as the operation of the store does. -/
theorem removes_of_takes {state after : State} {connection : Nat} {next : Store.State}
    {operation : Connection → Option Removed} {taken left : List (Key × Storage)}
    (takes : ∀ found removed, operation found = some removed →
      Takes state.store.props removed taken left)
    (stepped : ((state.store.idle connection).bind fun found =>
      state.store.remove connection (operation found)) = some next)
    (result : after = { state with
      store := next
      returned := state.returned ++ returnedBy state.store connection operation }) :
    Removes state after taken left := by
  obtain ⟨found, idle, removing⟩ := Option.bind_eq_some_iff.mp stepped
  obtain ⟨removed, isRemoved, rfl⟩ := Option.map_eq_some_iff.mp removing
  obtain ⟨isLeft, restored, nextFree⟩ := takes found removed isRemoved
  subst result
  refine ⟨isLeft, ⟨removed.values, ?_, restored⟩, rfl, nextFree⟩
  simp [returnedBy, idle, isRemoved]

section Steps

variable {state after : State}

theorem shift_removes {connection : Nat} {fresh : Key → Fresh}
    (stepped : step state (.shift connection fresh) = some after) :
    Removes state after (state.elements.take 1) (state.elements.drop 1) := by
  obtain ⟨next, shifted, rfl⟩ := Option.map_eq_some_iff.mp stepped
  exact removes_of_takes (fun _ _ isRemoved => storeShift_removes isRemoved) shifted rfl

theorem pop_removes {connection : Nat} {fresh : Key → Fresh}
    (stepped : step state (.pop connection fresh) = some after) :
    Removes state after state.elements.getLast?.toList state.elements.dropLast := by
  obtain ⟨next, popped, rfl⟩ := Option.map_eq_some_iff.mp stepped
  exact removes_of_takes (fun _ _ isRemoved => storePop_removes isRemoved) popped rfl

theorem chunk_removes {connection : Nat} {size : Int} {fresh : Key → Fresh}
    (stepped : step state (.chunk connection size fresh) = some after) :
    Removes state after (state.elements.take size.toNat) (state.elements.drop size.toNat) := by
  obtain ⟨next, chunked, rfl⟩ := Option.map_eq_some_iff.mp stepped
  exact removes_of_takes (fun _ _ isRemoved => storeChunk_removes isRemoved) chunked rfl

/-- An append adds one element at the end, or the value cannot be stored. -/
theorem append_adds {connection : Nat} {value : Zval} {coerceArrays : Bool} {fresh : Fresh}
    (absent : appendKey state.store.props ∉ state.store.props.hash.table.keys)
    (stepped : step state (.append connection value coerceArrays fresh) = some after) :
    after = state ∨ ∃ written storage,
      after.appended = state.appended ++ [(appendKey state.store.props, written)] ∧
      SavedAs (appendKey state.store.props, written)
        (appendKey state.store.props, content storage) ∧
      after.elements = state.elements ++ [(appendKey state.store.props, content storage)] ∧
      after.returned = state.returned ∧
      after.store.props.hash =
        state.store.props.hash.update (appendKey state.store.props) storage := by
  obtain ⟨next, moved, rfl⟩ := Option.map_eq_some_iff.mp stepped
  obtain ⟨found, idle, -, ⟨wrote, rfl⟩ | ⟨written, wrote, rfl⟩⟩ := Store.write_eq moved
  · left
    simp [appendedBy, idle, wrote]
  · obtain ⟨storage, -, saved, member, props, -⟩ := storeWrite_eq wrote
    simp only [Option.map_none, Option.getD_none] at member
    have hash : written.props.hash =
        state.store.props.hash.update (appendKey state.store.props) storage := by
      rw [props, bumpModcount_hash, member]
    refine Or.inr ⟨written.value, storage, ?_, ⟨rfl, _, _, storage, saved, rfl⟩, ?_, rfl, hash⟩
    · simp [appendedBy, idle, wrote, member]
    · show elementsOf written.props.hash = _
      simp only [hash, elementsOf, HashTable.update, OrderedTable.update]
      rw [OrderedTable.place_of_notMem storage absent]
      simp [State.elements, elementsOf]

/-- The actions that leave the elements alone. -/
theorem step_keeps {store next : Store.State} {action : Store.Action}
    (keeps : keepsElements store action = true) (stepped : Store.step store action = some next) :
    elementsOf next.props.hash = elementsOf store.props.hash ∧
      next.props.hash.nextFreeElement = store.props.hash.nextFreeElement := by
  cases action with
  | construct _ _ _ _ | write _ _ _ _ _ | delete _ _ | shift _ _ | pop _ _ | chunk _ _ _
  | mergeThreaded _ _ _ _ | mergeArray _ _ _ _ _ => cases keeps
  | connect connection owner hasTable =>
      obtain ⟨-, -, rfl⟩ := Store.connect_eq stepped
      exact ⟨rfl, rfl⟩
  | disconnect connection pointers =>
      obtain ⟨found, -, rfl⟩ := Option.map_eq_some_iff.mp stepped
      have others : (store.connections.delete connection).entries.isEmpty = false := by
        simpa [keepsElements] using keeps
      simp only [State.disconnect, others, Bool.false_eq_true, if_false]
      exact ⟨elementsOf_persist _ _ _, rfl⟩
  | read connection key type fresh =>
      obtain ⟨found, registry, updated, outcome, -, -, rfl⟩ := Store.read_eq stepped
      exact ⟨rfl, rfl⟩
  | toHash connection hash fresh =>
      obtain ⟨found, registry, updated, table, -, -, rfl⟩ := Store.toHash_eq stepped
      exact ⟨rfl, rfl⟩
  | toOwnHash connection fresh =>
      obtain ⟨found, registry, updated, -, -, rfl⟩ := Store.toOwnHash_eq stepped
      exact ⟨rfl, rfl⟩
  | fullSync connection fresh =>
      obtain ⟨found, registry, updated, -, -, rfl⟩ := Store.fullSync_eq stepped
      exact ⟨rfl, rfl⟩
  | persist connection pointers =>
      obtain ⟨found, -, rfl⟩ := Option.map_eq_some_iff.mp stepped
      exact ⟨elementsOf_persist _ _ _, rfl⟩
  | finish connection =>
      obtain ⟨found, -, rfl⟩ := Option.map_eq_some_iff.mp stepped
      exact ⟨rfl, rfl⟩
  | registry other =>
      obtain ⟨-, moved⟩ := Option.ite_none_right_eq_some.mp stepped
      obtain ⟨registry, -, rfl⟩ := Option.map_eq_some_iff.mp moved
      exact ⟨rfl, rfl⟩
  | loadEnum thread className memberName =>
      cases stepped
      exact ⟨rfl, rfl⟩

/-- The elements that were there or came are those that were taken and those that
are left. -/
structure Conserved (started : List (Key × Storage)) (state : State)
    (added taken : List (Key × Storage)) : Prop where
  nextFree : NextFree state.store.props.hash
  saved : List.Forall₂ SavedAs state.appended added
  restored : List.Forall₂ RestoredFrom state.returned taken
  conserved : (started ++ added).Perm (taken ++ state.elements)
  ahead : ∀ value, .long value ∈ (started ++ added).map Prod.fst →
    value < state.store.props.hash.nextFreeElement ∨ zendLongMax ≤ value
  distinct : ((started ++ added).map Prod.fst).Nodup

theorem keys_eq (hash : HashTable) : (elementsOf hash).map Prod.fst = hash.table.keys := by
  simp [elementsOf, OrderedTable.keys, Function.comp_def]

theorem conserved_start {store : Store.State} (nextFree : NextFree store.props.hash) :
    Conserved (elementsOf store.props.hash) (State.start store) [] [] := by
  refine ⟨nextFree, .nil, .nil, ?_, ?_, ?_⟩
  · simp [State.start, State.elements]
  · rw [List.append_nil, keys_eq]
    exact nextFree.ahead
  · rw [List.append_nil, keys_eq]
    exact store.props.hash.table.distinct

variable {started added taken : List (Key × Storage)}

theorem Conserved.removes (conserved : Conserved started state added taken)
    {now left : List (Key × Storage)} (removes : Removes state after now left)
    (parts : state.elements.Perm (now ++ left)) (nextFree : NextFree after.store.props.hash) :
    Conserved started after added (taken ++ now) := by
  obtain ⟨isLeft, ⟨values, returned, restored⟩, appended, sameNext⟩ := removes
  refine ⟨nextFree, ?_, ?_, ?_, ?_, conserved.distinct⟩
  · rw [appended]
    exact conserved.saved
  · rw [returned]
    exact List.rel_append conserved.restored restored
  · rw [isLeft, List.append_assoc]
    exact conserved.conserved.trans (parts.append_left _)
  · rw [sameNext]
    exact conserved.ahead

theorem Conserved.append (conserved : Conserved started state added taken) {connection : Nat}
    {value : Zval} {coerceArrays : Bool} {fresh : Fresh}
    (below : appendKey state.store.props ≠ .long zendLongMax)
    (stepped : step state (.append connection value coerceArrays fresh) = some after) :
    ∃ added, Conserved started after added taken := by
  obtain ⟨nextFree, saved, restored, sum, ahead, distinct⟩ := conserved
  have absent := appendKey_notMem nextFree.atMost nextFree.ahead below
  have isNew := appendKey_notMem nextFree.atMost ahead below
  rcases append_adds absent stepped with
      rfl | ⟨written, storage, appended, savedAs, elements, returned, hash⟩
  · exact ⟨added, nextFree, saved, restored, sum, ahead, distinct⟩
  · obtain ⟨nextAfter, grows⟩ := nextFree.update (appendKey state.store.props) storage
    refine ⟨added ++ [(appendKey state.store.props, content storage)], ?_, ?_, ?_, ?_, ?_, ?_⟩
    · rw [hash]
      exact nextAfter
    · rw [appended]
      exact List.rel_append saved (.cons savedAs .nil)
    · rw [returned]
      exact restored
    · rw [elements, ← List.append_assoc, ← List.append_assoc]
      exact sum.append_right _
    · intro number isIn
      rw [hash]
      rw [← List.append_assoc, List.map_append] at isIn
      rcases List.mem_append.mp isIn with old | new
      · rcases ahead number old with isBelow | largest
        · exact Or.inl (Int.lt_of_lt_of_le isBelow grows)
        · exact Or.inr largest
      · refine nextAfter.ahead number (OrderedTable.mem_map_place.mpr (Or.inl ?_))
        simpa using new
    · rw [← List.append_assoc, List.map_append]
      refine List.nodup_append.mpr ⟨distinct, by simp, ?_⟩
      rintro key isOld _ isKey rfl
      simp only [List.map_cons, List.map_nil, List.mem_singleton] at isKey
      exact isNew (isKey ▸ isOld)

/-- No append stores the largest integer key. -/
def BelowLargestKey (state : State) : Action → Prop
  | .append _ _ _ _ => appendKey state.store.props ≠ .long zendLongMax
  | _ => True

/-- The store of a step's result is that of a step of the store. -/
theorem step_nextFree {action : Action} (nextFree : NextFree state.store.props.hash)
    (stepped : step state action = some after) : NextFree after.store.props.hash := by
  cases action with
  | append _ _ _ _ | shift _ _ | pop _ _ | chunk _ _ _ =>
      obtain ⟨next, moved, rfl⟩ := Option.map_eq_some_iff.mp stepped
      exact (step_hash moved).nextFree nextFree
  | other action =>
      obtain ⟨-, moving⟩ := Option.ite_none_right_eq_some.mp stepped
      obtain ⟨next, moved, rfl⟩ := Option.map_eq_some_iff.mp moving
      exact (step_hash moved).nextFree nextFree

theorem step_conserved {action : Action} (conserved : Conserved started state added taken)
    (below : BelowLargestKey state action) (stepped : step state action = some after) :
    ∃ added taken, Conserved started after added taken := by
  have nextFree := step_nextFree conserved.nextFree stepped
  cases action with
  | append connection value coerceArrays fresh =>
      obtain ⟨grown, kept⟩ := conserved.append below stepped
      exact ⟨grown, taken, kept⟩
  | shift connection fresh =>
      refine ⟨added, _, conserved.removes (shift_removes stepped) ?_ nextFree⟩
      rw [List.take_append_drop]
  | pop connection fresh =>
      refine ⟨added, _, conserved.removes (pop_removes stepped) ?_ nextFree⟩
      cases last : state.elements.getLast? with
      | none =>
          rw [List.getLast?_eq_none_iff.mp last]
          exact List.Perm.refl _
      | some element =>
          nth_rewrite 1 [← List.dropLast_append_getLast? element last]
          exact List.perm_append_comm
  | chunk connection size fresh =>
      refine ⟨added, _, conserved.removes (chunk_removes stepped) ?_ nextFree⟩
      rw [List.take_append_drop]
  | other action =>
      obtain ⟨keeps, moving⟩ := Option.ite_none_right_eq_some.mp stepped
      obtain ⟨next, moved, rfl⟩ := Option.map_eq_some_iff.mp moving
      obtain ⟨elements, sameNext⟩ := step_keeps keeps moved
      refine ⟨added, taken, nextFree, conserved.saved, conserved.restored, ?_, ?_,
        conserved.distinct⟩
      · show (started ++ added).Perm (taken ++ elementsOf next.props.hash)
        rw [elements]
        exact conserved.conserved
      · show ∀ value, _ → value < next.props.hash.nextFreeElement ∨ _
        rw [sameNext]
        exact conserved.ahead

end Steps

theorem conserved_of_reaches {declared : List Key} {store : Store.State} {state : State}
    (reached : Reaches Store.step anyAction (Store.initial declared) store)
    (runs : Reaches step BelowLargestKey (State.start store) state) :
    ∃ added taken, Conserved (elementsOf store.props.hash) state added taken := by
  have nextFree : NextFree store.props.hash :=
    reached.preserves (fun _ _ _ holds _ stepped => (step_hash stepped).nextFree holds)
      nextFree_empty
  have keeps : ∀ before action after,
      (∃ added taken, Conserved (elementsOf store.props.hash) before added taken) →
        BelowLargestKey before action → step before action = some after →
          ∃ added taken, Conserved (elementsOf store.props.hash) after added taken := by
    rintro before action after ⟨added, taken, conserved⟩ below stepped
    exact step_conserved conserved below stepped
  exact runs.preserves keeps ⟨[], [], conserved_start nextFree⟩

/-- However threads append to an array and take from it: as long as no append
stores the largest integer key, the elements that were there and those appended
are, each once, those returned and those left; the count is that of the elements
left; `shift` and `chunk` take from the front, `pop` from the back, and an append
adds at the end. -/
theorem queue_conserves {declared : List Key} {store : Store.State} {state : State}
    (reached : Reaches Store.step anyAction (Store.initial declared) store)
    (runs : Reaches step BelowLargestKey (State.start store) state) :
    (∃ added taken, List.Forall₂ SavedAs state.appended added ∧
      List.Forall₂ RestoredFrom state.returned taken ∧
      (elementsOf store.props.hash ++ added).Perm (taken ++ state.elements) ∧
      ((taken ++ state.elements).map Prod.fst).Nodup) ∧
    storeCount state.store.props = state.elements.length ∧
    state.returned.length + storeCount state.store.props =
      storeCount store.props + state.appended.length ∧
    (∀ connection fresh after, step state (.shift connection fresh) = some after →
      Removes state after (state.elements.take 1) (state.elements.drop 1)) ∧
    (∀ connection size fresh after, step state (.chunk connection size fresh) = some after →
      Removes state after (state.elements.take size.toNat) (state.elements.drop size.toNat)) ∧
    (∀ connection fresh after, step state (.pop connection fresh) = some after →
      Removes state after state.elements.getLast?.toList state.elements.dropLast) ∧
    ∀ connection value coerceArrays fresh after,
      BelowLargestKey state (.append connection value coerceArrays fresh) →
      step state (.append connection value coerceArrays fresh) = some after →
        after = state ∨ ∃ element, after.elements = state.elements ++ [element] := by
  obtain ⟨added, taken, conserved⟩ := conserved_of_reaches reached runs
  have count : storeCount state.store.props = state.elements.length := by
    simp [storeCount, State.elements, elementsOf]
  refine ⟨⟨added, taken, conserved.saved, conserved.restored, conserved.conserved, ?_⟩, count, ?_,
    fun _ _ _ => shift_removes, fun _ _ _ _ => chunk_removes, fun _ _ _ => pop_removes, ?_⟩
  · exact (conserved.conserved.map Prod.fst).nodup_iff.mp conserved.distinct
  · have lengths := conserved.conserved.length_eq
    have savedLength := conserved.saved.length_eq
    have restoredLength := conserved.restored.length_eq
    have startCount : storeCount store.props = (elementsOf store.props.hash).length := by
      simp [storeCount, elementsOf]
    rw [List.length_append, List.length_append] at lengths
    omega
  · intro connection value coerceArrays fresh after below stepped
    have absent :=
      appendKey_notMem conserved.nextFree.atMost conserved.nextFree.ahead below
    rcases append_adds absent stepped with same | ⟨written, storage, -, -, elements, -, -⟩
    · exact Or.inl same
    · exact Or.inr ⟨_, elements⟩

/-- Two threads append to a new array and take both elements back. -/
def appendAndTake : List Action :=
  [.append 0 (.long 5) false ⟨0, 0, 0⟩, .other (.finish 0), .append 1 (.long 6) false ⟨0, 0, 0⟩,
    .other (.finish 1), .shift 1 fun _ => ⟨0, 0, 0⟩, .pop 0 fun _ => ⟨0, 0, 0⟩]

/-- A new array gets a connection on a second thread. -/
def makeArray : List Store.Action := [.construct 0 1 [] fun _ => ⟨0, 0, 0⟩, .connect 1 2 false]

def newArray : Store.State := (execute Store.step (Store.initial []) makeArray).getD (initial [])

instance BelowLargestKey.decidable (state : State) :
    ∀ action, Decidable (BelowLargestKey state action)
  | .append _ _ _ _ => inferInstanceAs (Decidable (_ ≠ _))
  | .shift _ _ | .pop _ _ | .chunk _ _ _ | .other _ => isTrue trivial

theorem queue_conserves_appendAndTake :
    ∃ state, execute Store.step (Store.initial []) makeArray = some newArray ∧
      execute step (State.start newArray) appendAndTake = some state ∧
      state.returned.map Prod.fst = [.long 0, .long 1] ∧ state.elements = [] ∧
      state.returned.length + storeCount state.store.props =
        storeCount newArray.props + state.appended.length := by
  refine ⟨_, rfl, rfl, rfl, rfl, ?_⟩
  have reached : Reaches Store.step anyAction (Store.initial []) newArray :=
    reaches_of_execute (admits_anyAction Store.step (Store.initial []) makeArray) rfl
  have admitted : Admits step BelowLargestKey (State.start newArray) appendAndTake := by decide
  exact (queue_conserves reached (reaches_of_execute admitted rfl)).2.2.1

end Pthreads.ArrayQueue
