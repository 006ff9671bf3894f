import Pthreads.StorePointers
import Pthreads.StoreReads

/-!
# The memory behind the storages of a store

A run of the property store, together with the memory that its storages point to.  A
string or a closure belongs to the thread that wrote it, and the names of an enum case to
the storage, unless a merge has shared them with another array.  When such memory is
freed, its storage stays in the table.  An operation that reads freed memory has no
result, and neither has one that copies a closure whose copying does not end.
-/

namespace Pthreads.StoreMemory

open GuardedRuns Store

structure State where
  store : Store.State
  freed : List Block
  /-- The keys of the enum cases whose names have been freed. -/
  freedNames : List Key
  /-- The closures whose copying does not end. -/
  endless : List Nat

def initial (declared : List Key) : State := ⟨Store.initial declared, [], [], []⟩

def isEnumCase : Storage → Bool
  | .enumCase _ _ => true
  | _ => false

def isStringPtr : Storage → Bool
  | .stringPtr _ _ => true
  | _ => false

/-- The storage points to a string of the thread. -/
def isStringOf (thread : Nat) : Storage → Bool
  | .stringPtr _ owner => owner = thread
  | _ => false

/-- The elements for which the connection has nothing to offer once it is in sync. -/
def uncached (store : Store.State) (found : Connection) : List (Key × Storage) :=
  store.props.hash.table.entries.filter fun entry =>
    ((syncLocalProperties store.registry store.props found).cached entry.1).isNone

/-- The storage that a read restores. -/
def readFollows (store : Store.State) (found : Connection) (key : KeyZval) (type : AccessType) :
    List (Key × Storage) :=
  (uncached store found).filter fun entry =>
    entry.1 = coerce key && (isThreaded entry.2 || type.onlyReads)

/-- Freeing the connection frees the store. -/
def isLast (store : Store.State) (connection : Nat) : Bool :=
  (store.connections.delete connection).entries.isEmpty

/-- The storages whose pointers an action follows. -/
def followed (store : Store.State) : Store.Action → List (Key × Storage)
  | .read connection key type _ =>
      (store.idle connection).elim [] fun found => readFollows store found key type
  | .toHash connection _ _ | .toOwnHash connection _ =>
      (store.idle connection).elim [] (uncached store)
  | .fullSync connection _ =>
      (store.idle connection).elim [] fun found =>
        (uncached store found).filter fun entry => storageIsCacheable entry.2
  | .shift _ _ => store.props.hash.table.entries.take 1
  | .pop _ _ => store.props.hash.table.entries.getLast?.toList
  | .chunk _ size _ => store.props.hash.table.entries.take size.toNat
  | .persist connection _ =>
      (store.idle connection).elim [] fun found =>
        store.props.hash.table.entries.filter fun entry => isStringOf found.owner entry.2
  | .disconnect connection _ =>
      if isLast store connection then []
      else (store.idle connection).elim [] fun found =>
        store.props.hash.table.entries.filter fun entry => isStringOf found.owner entry.2
  | .mergeThreaded connection source overwrite pointers =>
      (store.copied (.mergeThreaded connection source overwrite pointers)).filter fun entry =>
        isStringPtr entry.2
  | _ => []

/-- The keys whose storages an action destroys. -/
def destroyed (store : Store.State) : Store.Action → List Key
  | .disconnect connection _ =>
      if isLast store connection then store.props.hash.table.keys else []
  | action => store.targets action

/-- What the value or the storage points to has not been freed. -/
def State.isLive (state : State) (block : Option Block) : Bool :=
  block.all fun block => block ∉ state.freed

/-- Copying the closure of the storage ends. -/
def State.copies (state : State) : Storage → Bool
  | .closure made _ => made.pointer ∉ state.endless
  | _ => true

/-- The pointers of the storage can be followed. -/
def State.readable (state : State) (entry : Key × Storage) : Bool :=
  state.isLive entry.2.block && state.copies entry.2 &&
    (!isEnumCase entry.2 || entry.1 ∉ state.freedNames)

/-- The action reads no freed memory and frees no names twice, and user code has the
values that it writes. -/
def State.performs (state : State) (action : Store.Action) : Bool :=
  (followed state.store action).all state.readable &&
    (destroyed state.store action).all (fun key => key ∉ state.freedNames) &&
    action.values.all fun value => state.isLive value.block

inductive Action where
  | operate (action : Store.Action)
  /-- The memory is freed.  An operation may give up the last reference and follow a
  storage afterwards: the memory is then freed before it. -/
  | free (block : Block)
  /-- A storage that shares the names of the enum case under the key is destroyed. -/
  | freeNames (key : Key)
  /-- What the closure holds refers back to it from now on, or no longer does. -/
  | bind (closure : Nat) (ends : Bool)

def step (state : State) : Action → Option State
  | .operate action =>
      if state.performs action then
        (Store.step state.store action).map fun store => { state with store := store }
      else none
  | .free block => some { state with freed := block :: state.freed }
  | .freeNames key =>
      if (state.store.props.hash.find key).any isEnumCase then
        some { state with freedNames := key :: state.freedNames }
      else none
  | .bind closure ends =>
      some { state with
        endless := if ends then state.endless.filter (fun other => other ≠ closure)
          else closure :: state.endless }

/-- A read, with what it returns. -/
def State.readThrough (state : State) (connection : Nat) (key : KeyZval) (type : AccessType)
    (fresh : Fresh) : Option (State × ReadOutcome) :=
  if state.performs (.read connection key type fresh) then
    (state.store.readThrough connection key type fresh).map fun (store, outcome) =>
      ({ state with store := store }, outcome)
  else none

/-- `pthreads_store_tohash` into another table, with the table it fills. -/
def State.copyThrough (state : State) (connection : Nat) (hash : OrderedTable Key Zval)
    (fresh : Key → Fresh) : Option (State × OrderedTable Key Zval) :=
  if state.performs (.toHash connection hash fresh) then
    (state.store.copyThrough connection hash fresh).map fun (store, table) =>
      ({ state with store := store }, table)
  else none

/-- The action stays clear of the gaps: of those of the caches, and it frees nothing that
a storage of the table points to, and copies no storage from another array whose memory
has been freed. -/
def State.trustworthy (own : Bool) (state : State) : Action → Bool
  | .operate action => state.store.trustworthy own action &&
      (state.store.copied action).all fun entry => state.isLive entry.2.block
  | .free block => state.store.props.hash.table.entries.all fun entry =>
      entry.2.block ≠ some block
  | .freeNames _ => false
  | .bind _ _ => true

def Trustworthy (own : Bool) (state : State) (action : Action) : Prop :=
  state.trustworthy own action = true

instance (own : Bool) (state : State) (action : Action) :
    Decidable (Trustworthy own state action) :=
  inferInstanceAs (Decidable (_ = _))

/-- No storage of the table points to freed memory. -/
structure Intact (state : State) : Prop where
  live : state.store.props.hash.Points fun block => block ∉ state.freed
  named : state.freedNames = []

structure Trusted (own : Bool) (state : State) : Prop where
  store : Store.Trusted own state.store
  intact : Intact state

section Runs

variable {own : Bool} {state after : State} {action : Action}

theorem isLive_iff {block : Option Block} :
    state.isLive block = true ↔ ∀ freed, block = some freed → freed ∉ state.freed := by
  simp [State.isLive, Option.all_eq_true]

theorem operate_eq {operation : Store.Action}
    (stepped : step state (.operate operation) = some after) :
    state.performs operation = true ∧ ∃ store, Store.step state.store operation = some store ∧
      after = { state with store := store } := by
  obtain ⟨performs, operated⟩ := Option.ite_none_right_eq_some.mp stepped
  obtain ⟨store, isAfter, rfl⟩ := Option.map_eq_some_iff.mp operated
  exact ⟨performs, store, isAfter, rfl⟩

/-- What user code writes, it has. -/
theorem written_live {operation : Store.Action} (performs : state.performs operation = true)
    {value : Zval} (isIn : value ∈ operation.values) {block : Block}
    (isBlock : value.block = some block) : block ∉ state.freed := by
  have written := List.all_eq_true.mp (Bool.and_eq_true_iff.mp performs).2 value isIn
  exact isLive_iff.mp written block isBlock

theorem step_trusted (trusted : Trusted own state) (allowed : Trustworthy own state action)
    (stepped : step state action = some after) : Trusted own after := by
  obtain ⟨store, live, named⟩ := trusted
  cases action with
  | operate operation =>
      obtain ⟨performs, next, isNext, rfl⟩ := operate_eq stepped
      obtain ⟨trustworthy, copied⟩ := Bool.and_eq_true_iff.mp allowed
      refine ⟨Store.step_trusted store trustworthy isNext, ?_, named⟩
      apply step_points live _ _ isNext
      · intro value isIn block isBlock
        exact written_live performs isIn isBlock
      · intro entry isIn block isBlock
        exact isLive_iff.mp (List.all_eq_true.mp copied entry isIn) block isBlock
  | free block =>
      cases stepped
      refine ⟨store, ?_, named⟩
      intro key storage other isStored isBlock
      have isIn := OrderedTable.find_eq_some_iff.mp isStored
      have kept := List.all_eq_true.mp allowed (key, storage) isIn
      have different : other ≠ block := by
        rintro rfl
        simp [isBlock] at kept
      simp [different, live key storage other isStored isBlock]
  | freeNames key => cases allowed
  | bind closure ends =>
      cases stepped
      exact ⟨store, live, named⟩

theorem trusted_of_reaches {declared : List Key}
    (reached : Reaches step (Trustworthy own) (initial declared) state) : Trusted own state := by
  apply reached.preserves
  · intro before action after trusted allowed stepped
    exact step_trusted trusted allowed stepped
  · refine ⟨Store.trusted_initial own declared, ?_, rfl⟩
    rintro key storage block ⟨⟩

/-- What the table holds can be read, once its closures can be copied. -/
theorem Intact.readable (intact : Intact state) {entry : Key × Storage}
    (isIn : entry ∈ state.store.props.hash.table.entries)
    (copies : state.copies entry.2 = true) : state.readable entry = true := by
  have live : state.isLive entry.2.block = true := by
    apply isLive_iff.mpr
    intro block isBlock
    exact intact.live entry.1 entry.2 block (OrderedTable.find_eq_some_iff.mpr isIn) isBlock
  simp [State.readable, live, copies, intact.named]

/-- An action that writes nothing and follows storages of the table only. -/
theorem Intact.performs (intact : Intact state) {operation : Store.Action}
    (stored : ∀ entry ∈ followed state.store operation,
      entry ∈ state.store.props.hash.table.entries ∧ state.copies entry.2 = true)
    (nothing : operation.values = []) : state.performs operation = true := by
  have follows : (followed state.store operation).all state.readable = true := by
    apply List.all_eq_true.mpr
    intro entry isFollowed
    obtain ⟨isIn, copies⟩ := stored entry isFollowed
    exact intact.readable isIn copies
  simp [State.performs, follows, intact.named, nothing]

theorem mem_uncached {found : Connection} {entry : Key × Storage}
    (isIn : entry ∈ uncached state.store found) :
    entry ∈ state.store.props.hash.table.entries :=
  List.mem_of_mem_filter isIn

end Runs

end Pthreads.StoreMemory
