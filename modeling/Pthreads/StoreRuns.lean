import Pthreads.GuardedRuns
import Pthreads.StoreOperations

/-!
# Runs of the property store of one object

Any number of threads work on one shared object, each through connections of its
own.  Every lock-protected section is one action, and so is the cache update
that some operations make after the unlock.  In between, other objects are
created, connected and freed.  The state also records who modified each key
last, and to what.
-/

namespace Pthreads.Store

open ObjectRegistry (Registry ZendObject)

/-- The last modification of a key, with no meaning if it was removed. -/
structure Modification where
  connection : Nat
  meaning : Option Meaning
deriving DecidableEq, Repr

structure State where
  registry : Registry
  enumCases : EnumCases
  /-- The declared properties of the object's class. -/
  declared : List Key
  props : Props
  connections : OrderedTable Nat Connection
  modified : Key → Option Modification

def initial (declared : List Key) : State where
  registry := ObjectRegistry.initial
  enumCases := fun _ _ _ => false
  declared := declared
  props := storeInit
  connections := OrderedTable.empty
  modified := fun _ => none

/-- A zval that refers to the zend object. -/
def refersTo (address : Nat) : Zval → Bool
  | .threaded other => other = address
  | .reference target => refersTo address target
  | .indirect slot => refersTo address slot
  | _ => false

/-- A local table keeps its values alive. -/
def Connection.holds (connection : Connection) (address : Nat) : Bool :=
  (connection.properties.any fun table =>
      table.entries.any fun entry => refersTo address entry.2) ||
    match connection.pending with
    | some (.update _ value) => refersTo address value
    | _ => false

/-- What user code of a thread may pass on: Threaded objects of its own that are
fully constructed. -/
def usable (registry : Registry) (thread : Nat) : Zval → Bool
  | .threaded address =>
      (registry.zobjs address).any fun zobj =>
        zobj.owner = some thread ∧ zobj.tsObj.isSome ∧ zobj.fresh = false
  | .reference target => usable registry thread target
  | .indirect slot => usable registry thread slot
  | _ => true

/-- The connection, if its thread is not in the middle of an operation on it. -/
def State.idle (state : State) (connection : Nat) : Option Connection :=
  (state.connections.find connection).filter fun found => found.pending.isNone

/-- Note who modified the keys. -/
def recordModified (modified : Key → Option Modification) (connection : Nat)
    (changes : List (Key × Option Meaning)) : Key → Option Modification :=
  changes.foldl (fun noted change =>
    Function.update noted change.1 (some ⟨connection, change.2⟩)) modified

/-- The state after an operation through a connection. -/
def State.after (state : State) (connection : Nat) (registry : Registry) (props : Props)
    (updated : Connection) (changes : List (Key × Option Meaning)) : State :=
  { state with
    registry := registry
    props := props
    connections := state.connections.update connection updated
    modified := recordModified state.modified connection changes }

/-- The new table of a connection whose class has string defaults exists and is
empty. -/
def freshConnection (owner : Nat) (hasTable : Bool) : Connection :=
  ⟨owner, if hasTable then some OrderedTable.empty else none, -1, none⟩

inductive Action where
  /-- `pthreads_base_ctor` of the original. -/
  | construct (connection owner : Nat) (defaults : List (Key × Zval)) (fresh : Key → Fresh)
  /-- A connection is created, on the thread that will own it. -/
  | connect (connection owner : Nat) (hasTable : Bool)
  /-- `pthreads_base_free`. -/
  | disconnect (connection : Nat) (pointers : Key → Nat)
  | read (connection : Nat) (key : KeyZval) (type : AccessType) (fresh : Fresh)
  | write (connection : Nat) (key : Option KeyZval) (value : Zval) (coerceArrays : Bool)
      (fresh : Fresh)
  | delete (connection : Nat) (key : KeyZval)
  | shift (connection : Nat) (fresh : Key → Fresh)
  | pop (connection : Nat) (fresh : Key → Fresh)
  | chunk (connection : Nat) (size : Int) (fresh : Key → Fresh)
  | mergeThreaded (connection : Nat) (source : List (Key × Storage)) (overwrite : Bool)
      (pointers : Key → Nat)
  | mergeArray (connection : Nat) (source : List (Key × Zval)) (overwrite coerceArrays : Bool)
      (fresh : Key → Fresh)
  | toHash (connection : Nat) (hash : OrderedTable Key Zval) (fresh : Key → Fresh)
  | toOwnHash (connection : Nat) (fresh : Key → Fresh)
  | fullSync (connection : Nat) (fresh : Key → Fresh)
  | persist (connection : Nat) (pointers : Key → Nat)
  /-- The work after the unlock. -/
  | finish (connection : Nat)
  /-- Another object is created, connected, saved or freed. -/
  | registry (action : ObjectRegistry.Action)
  /-- A thread loads an enum. -/
  | loadEnum (thread : Nat) (className memberName : Bytes)

/-- The elements removed, as changes. -/
def Removed.changes (removed : Removed) : List (Key × Option Meaning) :=
  removed.values.map fun element => (element.1, none)

def State.remove (state : State) (connection : Nat) (result : Option Removed) : Option State :=
  result.map fun removed =>
    state.after connection removed.registry removed.props removed.connection removed.changes

/-- A read, with what it returns. -/
def State.readThrough (state : State) (connection : Nat) (key : KeyZval) (type : AccessType)
    (fresh : Fresh) : Option (State × ReadOutcome) := do
  let found ← state.idle connection
  let (registry, updated, outcome) ←
    storeRead state.enumCases state.registry state.props found key type fresh
  some (state.after connection registry state.props updated [], outcome)

/-- `pthreads_store_tohash` into another table, with the table it fills. -/
def State.copyThrough (state : State) (connection : Nat) (hash : OrderedTable Key Zval)
    (fresh : Key → Fresh) : Option (State × OrderedTable Key Zval) := do
  let found ← state.idle connection
  let (registry, updated, table) ←
    storeToHash state.enumCases state.declared state.registry state.props found fresh hash
  some (state.after connection registry state.props updated [], table)

/-- Freeing a connection: the last one takes the store with it, any other leaves
persistent copies of its thread's strings.  What it modified was then modified by
none that still exists. -/
def State.disconnect (state : State) (connection : Nat) (found : Connection)
    (pointers : Key → Nat) : State :=
  let connections := state.connections.delete connection
  if connections.entries.isEmpty then
    { state with
      props := storeInit
      connections := connections
      modified := fun _ => none }
  else
    { state with
      props := persistLocalProperties found.owner pointers state.props
      connections := connections
      modified := fun key => (state.modified key).filter fun last => last.connection ≠ connection }

/-- The registry action does not free an object that a local table holds. -/
def State.permits (state : State) : ObjectRegistry.Action → Bool
  | .free _ address => state.connections.entries.all fun entry => ¬ entry.2.holds address
  | _ => true

def step (state : State) : Action → Option State
  | .construct connection owner defaults fresh => do
      if state.connections.entries.isEmpty ∧
          defaults.all fun element => usable state.registry owner element.2 then
        let built ← baseInit state.declared fresh defaults
          ⟨state.registry, state.props, ⟨owner, none, 0, none⟩, []⟩
        some (state.after connection built.registry built.props
          { built.connection with localPropsModcount := built.props.modcount - 1 }
          (built.written.map fun element => (element.1, element.2.meaning built.registry)))
      else none
  | .connect connection owner hasTable =>
      if state.connections.entries.isEmpty ∨ (state.connections.find connection).isSome then none
      else some { state with
        connections := state.connections.update connection (freshConnection owner hasTable) }
  | .disconnect connection pointers =>
      (state.idle connection).map fun found => state.disconnect connection found pointers
  | .read connection key type fresh =>
      (state.readThrough connection key type fresh).map Prod.fst
  | .write connection key value coerceArrays fresh => do
      let found ← state.idle connection
      if usable state.registry found.owner value then
        let result ← storeWrite state.registry state.props found key value coerceArrays fresh
        match result with
        | none => some state
        | some written =>
            some (state.after connection written.registry written.props written.connection
              [(written.member, written.value.meaning written.registry)])
      else none
  | .delete connection key => do
      let found ← state.idle connection
      let (props, updated, removed) := storeDelete state.props found key
      some (state.after connection state.registry props updated
        (if removed then [(coerce key, none)] else []))
  | .shift connection fresh => do
      let found ← state.idle connection
      state.remove connection
        (storeShift state.enumCases state.registry state.props found fresh)
  | .pop connection fresh => do
      let found ← state.idle connection
      state.remove connection (storePop state.enumCases state.registry state.props found fresh)
  | .chunk connection size fresh => do
      let found ← state.idle connection
      state.remove connection
        (storeChunk state.enumCases state.registry state.props found fresh size)
  | .mergeThreaded connection source overwrite pointers => do
      let found ← state.idle connection
      let merged := storeMergeThreaded state.props found source overwrite pointers
      some (state.after connection state.registry merged.props merged.connection
        (merged.written.map fun key =>
          (key, (merged.props.hash.find key).bind (Storage.meaning state.registry))))
  | .mergeArray connection source overwrite coerceArrays fresh => do
      let found ← state.idle connection
      if source.all fun element => usable state.registry found.owner element.2 then
        let merged ← storeMergeArray state.declared overwrite coerceArrays fresh source
          ⟨state.registry, state.props, found, []⟩
        some (state.after connection merged.registry merged.props merged.connection
          (merged.written.map fun element => (element.1, element.2.meaning merged.registry)))
      else none
  | .toHash connection hash fresh => (state.copyThrough connection hash fresh).map Prod.fst
  | .toOwnHash connection fresh => do
      let found ← state.idle connection
      let (registry, updated) ← storeToOwnHash state.enumCases state.declared state.registry
        state.props found fresh
      some (state.after connection registry state.props updated [])
  | .fullSync connection fresh => do
      let found ← state.idle connection
      let (registry, updated) ← fullSyncLocalProperties state.enumCases state.declared
        state.registry state.props found fresh
      some (state.after connection registry state.props updated [])
  | .persist connection pointers =>
      (state.idle connection).map fun found =>
        { state with props := persistLocalProperties found.owner pointers state.props }
  | .finish connection =>
      (state.connections.find connection).map fun found =>
        { state with
          connections := state.connections.update connection
            (finishPending state.declared found) }
  | .registry action =>
      if state.permits action then
        (ObjectRegistry.step state.registry action).map fun registry =>
          { state with registry := registry }
      else none
  | .loadEnum thread className memberName =>
      some { state with
        enumCases := fun other otherClass otherMember =>
          (other = thread ∧ otherClass = className ∧ otherMember = memberName) ||
            state.enumCases other otherClass otherMember }

section Inversion

variable {state after : State} {connection : Nat}

theorem construct_eq {owner : Nat} {defaults : List (Key × Zval)} {fresh : Key → Fresh}
    (stepped : step state (.construct connection owner defaults fresh) = some after) :
    state.connections.entries = [] ∧
      (∀ element ∈ defaults, usable state.registry owner element.2 = true) ∧
      ∃ built, baseInit state.declared fresh defaults
          ⟨state.registry, state.props, ⟨owner, none, 0, none⟩, []⟩ = some built ∧
        after = state.after connection built.registry built.props
          { built.connection with localPropsModcount := built.props.modcount - 1 }
          (built.written.map fun element =>
            (element.1, element.2.meaning built.registry)) := by
  obtain ⟨⟨vacant, isUsable⟩, building⟩ := Option.ite_none_right_eq_some.mp stepped
  obtain ⟨built, isBuilt, ⟨⟩⟩ := Option.bind_eq_some_iff.mp building
  exact ⟨List.isEmpty_iff.mp vacant, List.all_eq_true.mp isUsable, built, isBuilt, rfl⟩

theorem connect_eq {owner : Nat} {hasTable : Bool}
    (stepped : step state (.connect connection owner hasTable) = some after) :
    state.connections.entries ≠ [] ∧ state.connections.find connection = none ∧
      after = { state with
        connections := state.connections.update connection (freshConnection owner hasTable) } := by
  simp only [step] at stepped
  split at stepped
  · cases stepped
  · next vacancy =>
    cases stepped
    simp only [not_or, List.isEmpty_iff, Option.not_isSome_iff_eq_none] at vacancy
    exact ⟨vacancy.1, vacancy.2, rfl⟩

theorem read_eq {key : KeyZval} {type : AccessType} {fresh : Fresh}
    (stepped : step state (.read connection key type fresh) = some after) :
    ∃ found registry updated outcome, state.idle connection = some found ∧
      storeRead state.enumCases state.registry state.props found key type fresh =
        some (registry, updated, outcome) ∧
      after = state.after connection registry state.props updated [] := by
  obtain ⟨_, reading, rfl⟩ := Option.map_eq_some_iff.mp stepped
  simp only [State.readThrough, Option.bind_eq_bind, Option.bind_eq_some_iff] at reading
  obtain ⟨found, idle, ⟨registry, updated, outcome⟩, read, ⟨⟩⟩ := reading
  exact ⟨found, registry, updated, outcome, idle, read, rfl⟩

/-- A write of a value that cannot be stored leaves everything as it is. -/
theorem write_eq {key : Option KeyZval} {value : Zval} {coerceArrays : Bool} {fresh : Fresh}
    (stepped : step state (.write connection key value coerceArrays fresh) = some after) :
    ∃ found, state.idle connection = some found ∧ usable state.registry found.owner value = true ∧
      (storeWrite state.registry state.props found key value coerceArrays fresh = some none ∧
          after = state ∨
        ∃ written, storeWrite state.registry state.props found key value coerceArrays fresh =
            some (some written) ∧
          after = state.after connection written.registry written.props written.connection
            [(written.member, written.value.meaning written.registry)]) := by
  obtain ⟨found, idle, writing⟩ := Option.bind_eq_some_iff.mp stepped
  obtain ⟨isUsable, writing⟩ := Option.ite_none_right_eq_some.mp writing
  obtain ⟨result, wrote, writing⟩ := Option.bind_eq_some_iff.mp writing
  refine ⟨found, idle, isUsable, ?_⟩
  cases result with
  | none =>
      cases writing
      exact Or.inl ⟨wrote, rfl⟩
  | some written =>
      cases writing
      exact Or.inr ⟨written, wrote, rfl⟩

theorem delete_eq {key : KeyZval} (stepped : step state (.delete connection key) = some after) :
    ∃ found, state.idle connection = some found ∧
      after = state.after connection state.registry (storeDelete state.props found key).1
        (storeDelete state.props found key).2.1
        (if (storeDelete state.props found key).2.2 then [(coerce key, none)] else []) := by
  obtain ⟨found, idle, ⟨⟩⟩ := Option.bind_eq_some_iff.mp stepped
  exact ⟨found, idle, rfl⟩

/-- The actions that remove elements differ in what they remove. -/
theorem remove_eq {remove : Connection → Option Removed}
    (stepped : (state.idle connection).bind (fun found =>
      state.remove connection (remove found)) = some after) :
    ∃ found removed, state.idle connection = some found ∧ remove found = some removed ∧
      after = state.after connection removed.registry removed.props removed.connection
        removed.changes := by
  obtain ⟨found, idle, removing⟩ := Option.bind_eq_some_iff.mp stepped
  obtain ⟨removed, isRemoved, rfl⟩ := Option.map_eq_some_iff.mp removing
  exact ⟨found, removed, idle, isRemoved, rfl⟩

theorem mergeThreaded_eq {source : List (Key × Storage)} {overwrite : Bool}
    {pointers : Key → Nat}
    (stepped : step state (.mergeThreaded connection source overwrite pointers) = some after) :
    ∃ found merged, state.idle connection = some found ∧
      merged = storeMergeThreaded state.props found source overwrite pointers ∧
      after = state.after connection state.registry merged.props merged.connection
        (merged.written.map fun key =>
          (key, (merged.props.hash.find key).bind (Storage.meaning state.registry))) := by
  obtain ⟨found, idle, ⟨⟩⟩ := Option.bind_eq_some_iff.mp stepped
  exact ⟨found, _, idle, rfl, rfl⟩

theorem mergeArray_eq {source : List (Key × Zval)} {overwrite coerceArrays : Bool}
    {fresh : Key → Fresh}
    (stepped : step state (.mergeArray connection source overwrite coerceArrays fresh) =
      some after) :
    ∃ found merged, state.idle connection = some found ∧
      (∀ element ∈ source, usable state.registry found.owner element.2 = true) ∧
      storeMergeArray state.declared overwrite coerceArrays fresh source
        ⟨state.registry, state.props, found, []⟩ = some merged ∧
      after = state.after connection merged.registry merged.props merged.connection
        (merged.written.map fun element =>
          (element.1, element.2.meaning merged.registry)) := by
  obtain ⟨found, idle, merging⟩ := Option.bind_eq_some_iff.mp stepped
  obtain ⟨isUsable, merging⟩ := Option.ite_none_right_eq_some.mp merging
  obtain ⟨merged, isMerged, ⟨⟩⟩ := Option.bind_eq_some_iff.mp merging
  exact ⟨found, merged, idle, List.all_eq_true.mp isUsable, isMerged, rfl⟩

theorem toHash_eq {hash : OrderedTable Key Zval} {fresh : Key → Fresh}
    (stepped : step state (.toHash connection hash fresh) = some after) :
    ∃ found registry updated table, state.idle connection = some found ∧
      storeToHash state.enumCases state.declared state.registry state.props found fresh hash =
        some (registry, updated, table) ∧
      after = state.after connection registry state.props updated [] := by
  obtain ⟨_, copying, rfl⟩ := Option.map_eq_some_iff.mp stepped
  simp only [State.copyThrough, Option.bind_eq_bind, Option.bind_eq_some_iff] at copying
  obtain ⟨found, idle, ⟨registry, updated, table⟩, copied, ⟨⟩⟩ := copying
  exact ⟨found, registry, updated, table, idle, copied, rfl⟩

theorem toOwnHash_eq {fresh : Key → Fresh}
    (stepped : step state (.toOwnHash connection fresh) = some after) :
    ∃ found registry updated, state.idle connection = some found ∧
      storeToOwnHash state.enumCases state.declared state.registry state.props found fresh =
        some (registry, updated) ∧
      after = state.after connection registry state.props updated [] := by
  obtain ⟨found, idle, copying⟩ := Option.bind_eq_some_iff.mp stepped
  obtain ⟨⟨registry, updated⟩, copied, ⟨⟩⟩ := Option.bind_eq_some_iff.mp copying
  exact ⟨found, registry, updated, idle, copied, rfl⟩

theorem fullSync_eq {fresh : Key → Fresh}
    (stepped : step state (.fullSync connection fresh) = some after) :
    ∃ found registry updated, state.idle connection = some found ∧
      fullSyncLocalProperties state.enumCases state.declared state.registry state.props found
        fresh = some (registry, updated) ∧
      after = state.after connection registry state.props updated [] := by
  obtain ⟨found, idle, syncing⟩ := Option.bind_eq_some_iff.mp stepped
  obtain ⟨⟨registry, updated⟩, synced, ⟨⟩⟩ := Option.bind_eq_some_iff.mp syncing
  exact ⟨found, registry, updated, idle, synced, rfl⟩

end Inversion

end Pthreads.Store
