import Pthreads.StoreValues

/-!
# Operations of the property store

The lock-protected sections of `src/store.c`, each as a function of what it can
see: the objects in memory, the shared properties, and the local property table
of the connection it works through.  The local table caches values that are
expensive to restore; the two modification counts tell whether it is in sync.
The cache update that an operation makes after it has released the monitor is
returned as pending work.
-/

namespace Pthreads.Store

open ObjectRegistry

/-- `pthreads_store_t`. -/
structure Props where
  hash : HashTable
  modcount : Int

/-- `pthreads_store_init`. -/
def storeInit : Props := ⟨HashTable.empty, 0⟩

/-- What an operation still has to do to its own cache after the unlock. -/
inductive Pending where
  | update (key : Key) (value : Zval)
  | evict (key : Key)

/-- The part of `pthreads_zend_object_t` that the store uses. -/
structure Connection where
  owner : Nat
  /-- `std.properties`, which may not exist yet. -/
  properties : Option (OrderedTable Key Zval)
  localPropsModcount : Int
  pending : Option Pending

/-- The local table as a partial function. -/
def Connection.cached (connection : Connection) (key : Key) : Option Zval :=
  (connection.properties.bind fun table => table.find key).filter validLocalCacheItem

/-- `ZVAL_DEINDIRECT`. -/
def deindirect : Zval → Zval
  | .indirect slot => slot
  | value => value

/-- The test of `pthreads_store_sync_local_properties`: the cached value is what
the storage stands for. -/
def staysCached (registry : Registry) (thread : Nat) (storage : Option Storage) (value : Zval) :
    Bool :=
  match storage, deindirect value with
  | some (.pthreads shared), .threaded own =>
      shared = own ∨
        (globalsObjectValid registry shared ∧ tsObjAt registry shared = tsObjAt registry own)
  | some (.closure shared _), .closure own => shared = own
  | some (.socket shared), .socket own _ => shared.bsdSocket = own.bsdSocket
  | some (.stringPtr shared owner), .string own => owner = thread ∧ shared = own
  | _, _ => false

/-- `pthreads_store_sync_local_properties`. -/
def syncLocalProperties (registry : Registry) (props : Props) (connection : Connection) :
    Connection :=
  if connection.localPropsModcount = props.modcount then connection
  else
    { connection with
      properties := connection.properties.map fun table =>
        table.filter fun key value =>
          staysCached registry connection.owner (props.hash.find key) value
      localPropsModcount := props.modcount }

/-- `rebuild_object_properties` for a class with these declared properties, whose
slots are never initialised. -/
def declaredSlots (declared : List Key) : OrderedTable Key Zval :=
  declared.foldl (fun table key => table.update key (.indirect .undef)) OrderedTable.empty

/-- `pthreads_store_init_local_properties`. -/
def initLocalProperties (declared : List Key) (connection : Connection) : OrderedTable Key Zval :=
  connection.properties.getD (declaredSlots declared)

/-- The connection with its local table prepared. -/
def prepared (declared : List Key) (connection : Connection) : Connection :=
  { connection with properties := some (initLocalProperties declared connection) }

/-- `pthreads_store_update_local_property`. -/
def updateLocalProperty (declared : List Key) (connection : Connection) (key : Key)
    (value : Zval) : Connection :=
  if retainInLocalCache value then
    { connection with
      properties := some ((initLocalProperties declared connection).update key value) }
  else connection

/-- Removal from the local table, if there is one. -/
def evictLocalProperty (connection : Connection) (key : Key) : Connection :=
  { connection with properties := connection.properties.map fun table => table.delete key }

/-- The work after the unlock. -/
def finishPending (declared : List Key) (connection : Connection) : Connection :=
  match connection.pending with
  | none => connection
  | some (.update key value) =>
      { updateLocalProperty declared connection key value with pending := none }
  | some (.evict key) => { evictLocalProperty connection key with pending := none }

/-- `_pthreads_store_bump_modcount_nolock`, when the flag is set. -/
def bumpModcount (bump : Bool) (props : Props) (connection : Connection) : Props × Connection :=
  if bump then
    ({ props with modcount := props.modcount + 1 },
      if connection.localPropsModcount = props.modcount then
        { connection with localPropsModcount := connection.localPropsModcount + 1 }
      else connection)
  else (props, connection)

/-- `pthreads_store_member_is_cacheable`. -/
def memberIsCacheable (props : Props) (key : Key) : Bool :=
  (props.hash.find key).any storageIsCacheable

/-- How user code accesses a member. -/
inductive AccessType where
  | read
  | isset
  | write
  | readWrite
  | unset
  | functionArgument
deriving DecidableEq, Repr

/-- An access that only reads. -/
def AccessType.onlyReads : AccessType → Bool
  | .read | .isset => true
  | _ => false

inductive ReadOutcome where
  | value (value : Zval)
  | undefined
  /-- "Indirect modification of non-Threaded members of %s is not supported" -/
  | indirectModification

/-- `STORE_TYPE_PTHREADS`. -/
def isThreaded : Storage → Bool
  | .pthreads _ => true
  | _ => false

/-- `pthreads_store_read`. -/
def storeRead (enumCases : EnumCases) (registry : Registry) (props : Props)
    (connection : Connection) (key : KeyZval) (type : AccessType) (fresh : Fresh) :
    Option (Registry × Connection × ReadOutcome) :=
  let member := coerce key
  let synced :=
    if connection.properties.isSome then syncLocalProperties registry props connection
    else connection
  match synced.cached member with
  | some value => some (registry, synced, .value value)
  | none =>
      match props.hash.find member with
      | none => some (registry, synced, .undefined)
      | some storage =>
          if ¬ isThreaded storage ∧ type ≠ .read ∧ type ≠ .isset then
            some (registry, synced, .indirectModification)
          else
            (restoreZval enumCases registry connection.owner fresh storage).map
              fun (restored, value) =>
                (restored, { synced with pending := some (.update member value) }, .value value)

/-- The ThreadedArray that an array is turned into. -/
def coerceArray (registry : Registry) (thread : Nat) (fresh : Fresh) :
    Option (Registry × Zval) := do
  let allocated ← globalsObjectAlloc registry fresh.newAddress
  let constructed ← baseCtor allocated thread fresh.newAddress fresh.newTs
  let published ← step constructed (.publish fresh.newAddress)
  some (published, .threaded fresh.newAddress)

/-- The key of an append: `zend_hash_next_free_element`. -/
def appendKey (props : Props) : Key :=
  .long (if props.hash.nextFreeElement = zendLongMin then 0 else props.hash.nextFreeElement)

/-- What one write does under the monitor, once the storage is made. -/
structure Written where
  registry : Registry
  props : Props
  connection : Connection
  member : Key
  value : Zval

/-- The value that a write stores: arrays become ThreadedArrays if asked for. -/
def writtenValue (registry : Registry) (thread : Nat) (value : Zval) (coerceArrays : Bool)
    (fresh : Fresh) : Option (Registry × Zval) :=
  match value, coerceArrays with
  | .array _, true => coerceArray registry thread fresh
  | _, _ => some (registry, value)

/-- `pthreads_store_write`: nothing changes when the type is not supported, and
`none` in place of the result says so. -/
def storeWrite (registry : Registry) (props : Props) (connection : Connection)
    (key : Option KeyZval) (value : Zval) (coerceArrays : Bool) (fresh : Fresh) :
    Option (Option Written) := do
  let (stored, write) ← writtenValue registry connection.owner value coerceArrays fresh
  match saveZval stored connection.owner write with
  | none => some none
  | some storage =>
      let member := (key.map coerce).getD (appendKey props)
      let updated := { props with hash := props.hash.update member storage }
      let (bumped, counted) := bumpModcount (memberIsCacheable props member) updated connection
      let synced := syncLocalProperties stored bumped counted
      some (some ⟨stored, bumped, { synced with pending := some (.update member write) }, member,
        write⟩)

/-- `pthreads_store_delete`: the flag tells whether there was such an element. -/
def storeDelete (props : Props) (connection : Connection) (key : KeyZval) :
    Props × Connection × Bool :=
  let member := coerce key
  match props.hash.find member with
  | none => (props, connection, false)
  | some storage =>
      let removed := { props with hash := props.hash.delete member }
      let (bumped, counted) := bumpModcount (storageIsCacheable storage) removed connection
      (bumped, { counted with pending := some (.evict member) }, true)

/-- What removing elements gives: the keys and values in the order of removal, with no
value where the zval that was to take it was left as it was. -/
structure Removed where
  registry : Registry
  props : Props
  connection : Connection
  values : List (Key × Option Zval)
  /-- Whether one of the storages was cacheable. -/
  cacheable : Bool

/-- Restore an element and remove it from the shared and the local table, which is done
whether it was restored or not. -/
def takeElement (enumCases : EnumCases) (registry : Registry) (props : Props)
    (connection : Connection) (fresh : Key → Fresh) (entry : Key × Storage) : Option Removed :=
  (restoreElement enumCases registry connection.owner (fresh entry.1) entry.2).map
    fun (restored, value) =>
      ⟨restored, { props with hash := props.hash.delete entry.1 },
        evictLocalProperty connection entry.1, [(entry.1, value)], storageIsCacheable entry.2⟩

/-- Remove the given number of elements from the front, or fewer if there are
fewer. -/
def takeFront (enumCases : EnumCases) (registry : Registry) (props : Props)
    (connection : Connection) (fresh : Key → Fresh) : Nat → Option Removed
  | 0 => some ⟨registry, props, connection, [], false⟩
  | count + 1 =>
      match props.hash.table.entries.head? with
      | none => some ⟨registry, props, connection, [], false⟩
      | some entry => do
          let first ← takeElement enumCases registry props connection fresh entry
          let rest ← takeFront enumCases first.registry first.props first.connection fresh count
          some { rest with
            values := first.values ++ rest.values
            cacheable := first.cacheable || rest.cacheable }

/-- The count is bumped when something cacheable was removed. -/
def Removed.bump (removed : Removed) : Removed :=
  let (bumped, counted) := bumpModcount removed.cacheable removed.props removed.connection
  { removed with
    props := bumped
    connection := counted }

/-- `pthreads_store_shift`: no element stands for the null of an empty table, and the
zval of the caller that is left as it was is null as well. -/
def storeShift (enumCases : EnumCases) (registry : Registry) (props : Props)
    (connection : Connection) (fresh : Key → Fresh) : Option Removed :=
  match props.hash.table.entries.head? with
  | none => some ⟨registry, props, connection, [], false⟩
  | some entry =>
      (takeElement enumCases registry props connection fresh entry).map Removed.bump

/-- `pthreads_store_pop`. -/
def storePop (enumCases : EnumCases) (registry : Registry) (props : Props)
    (connection : Connection) (fresh : Key → Fresh) : Option Removed :=
  match props.hash.table.entries.getLast? with
  | none => some ⟨registry, props, connection, [], false⟩
  | some entry =>
      (takeElement enumCases registry props connection fresh entry).map Removed.bump

/-- `pthreads_store_chunk`: a zval that is left as it was is on the stack and not
initialised. -/
def storeChunk (enumCases : EnumCases) (registry : Registry) (props : Props)
    (connection : Connection) (fresh : Key → Fresh) (size : Int) : Option Removed :=
  (takeFront enumCases registry props connection fresh size.toNat).map Removed.bump

/-- `pthreads_store_hard_copy_storage`. -/
def hardCopyStorage (pointer : Nat) : Storage → Storage
  | .stringPtr string _ => .string (saveString string pointer)
  | .string string => .string (saveString string pointer)
  | storage => storage

/-- What a merge of storages has done so far. -/
structure Merged where
  props : Props
  connection : Connection
  /-- Whether one of the replaced storages was cacheable. -/
  overwrote : Bool
  /-- The keys written. -/
  written : List Key

/-- One element of the storage-copying path of `pthreads_store_merge`. -/
def mergeStorage (overwrite : Bool) (pointers : Key → Nat) (merged : Merged)
    (entry : Key × Storage) : Merged :=
  if ¬ overwrite ∧ (merged.props.hash.find entry.1).isSome then merged
  else
    { props := { merged.props with
        hash := merged.props.hash.update entry.1 (hardCopyStorage (pointers entry.1) entry.2) }
      connection := evictLocalProperty merged.connection entry.1
      overwrote := merged.overwrote || memberIsCacheable merged.props entry.1
      written := merged.written ++ [entry.1] }

/-- `pthreads_store_merge` from the table of a ThreadedArray. -/
def storeMergeThreaded (props : Props) (connection : Connection) (source : List (Key × Storage))
    (overwrite : Bool) (pointers : Key → Nat) : Merged :=
  let merged := source.foldl (mergeStorage overwrite pointers) ⟨props, connection, false, []⟩
  let (bumped, counted) := bumpModcount merged.overwrote merged.props merged.connection
  { merged with
    props := bumped
    connection := counted }

/-- A key of an array or of an object's property table, as it is given to a
write. -/
def Key.toZval : Key → KeyZval
  | .long value => .long value
  | .string bytes => .string bytes

/-- What a sequence of writes under one lock has done so far. -/
structure WrittenAll where
  registry : Registry
  props : Props
  connection : Connection
  /-- The elements written. -/
  written : List (Key × Zval)

/-- A write whose work after the unlock is done at once, since the caller still
holds the monitor; `none` in place of the result for a value that cannot be
stored. -/
def writeAndFinish (declared : List Key) (state : WrittenAll) (key : KeyZval) (value : Zval)
    (coerceArrays : Bool) (fresh : Fresh) : Option (Option WrittenAll) :=
  (storeWrite state.registry state.props state.connection (some key) value coerceArrays fresh).map
    fun result => result.map fun written =>
      ⟨written.registry, written.props, finishPending declared written.connection,
        state.written ++ [(written.member, written.value)]⟩

/-- The element-writing path of `pthreads_store_merge`, from an array or a plain
object.  A value that cannot be stored throws, and the loop goes on. -/
def storeMergeArray (declared : List Key) (overwrite coerceArrays : Bool) (fresh : Key → Fresh) :
    List (Key × Zval) → WrittenAll → Option WrittenAll
  | [], state => some state
  | (key, value) :: source, state =>
      if ¬ overwrite ∧ (state.props.hash.find key).isSome then
        storeMergeArray declared overwrite coerceArrays fresh source state
      else do
        let result ← writeAndFinish declared state key.toZval value coerceArrays (fresh key)
        storeMergeArray declared overwrite coerceArrays fresh source (result.getD state)

/-- The writes of `pthreads_base_init`, with the defaults that its loops come to.  A
default that cannot be stored throws, and the loop over the class is left for that over
its parent. -/
def baseInit (declared : List Key) (fresh : Key → Fresh) :
    List (Key × Zval) → WrittenAll → Option WrittenAll
  | [], state => some state
  | (key, value) :: defaults, state => do
      let result ← writeAndFinish declared state key.toZval value false (fresh key)
      baseInit declared fresh defaults (result.getD state)

/-- Copying the shared table out: the table filled so far, and whether something
was added to it. -/
structure Copied where
  registry : Registry
  table : OrderedTable Key Zval
  changed : Bool

/-- One element of `pthreads_store_tohash`.  The own table already has what it
caches; another table gets it from there. -/
def copyElement (enumCases : EnumCases) (thread : Nat) (own : Option (OrderedTable Key Zval))
    (fresh : Key → Fresh) (copied : Copied) (entry : Key × Storage) : Option Copied :=
  match ((own.getD copied.table).find entry.1).filter validLocalCacheItem with
  | some value =>
      some (if own.isSome then { copied with table := copied.table.update entry.1 value }
        else copied)
  | none =>
      (restoreZval enumCases copied.registry thread (fresh entry.1) entry.2).map
        fun (restored, value) => ⟨restored, copied.table.update entry.1 value, true⟩

/-- A declared property that has no element is uninitialised. -/
def copyDeclared (copied : Copied) (key : Key) : Copied :=
  if (copied.table.find key).isNone then
    { copied with
      table := copied.table.update key (.indirect .undef)
      changed := true }
  else copied

/-- `pthreads_store_tohash` into another table, with the table it fills. -/
def storeToHash (enumCases : EnumCases) (declared : List Key) (registry : Registry)
    (props : Props) (connection : Connection) (fresh : Key → Fresh)
    (hash : OrderedTable Key Zval) :
    Option (Registry × Connection × OrderedTable Key Zval) := do
  let synced := syncLocalProperties registry props (prepared declared connection)
  let copied ← props.hash.table.entries.foldlM
    (copyElement enumCases connection.owner synced.properties fresh) ⟨registry, hash, false⟩
  some (copied.registry, synced, (declared.foldl copyDeclared copied).table)

/-- `pthreads_store_tohash` into the object's own table. -/
def storeToOwnHash (enumCases : EnumCases) (declared : List Key) (registry : Registry)
    (props : Props) (connection : Connection) (fresh : Key → Fresh) :
    Option (Registry × Connection) := do
  let synced := syncLocalProperties registry props (prepared declared connection)
  let copied ← props.hash.table.entries.foldlM
    (copyElement enumCases connection.owner none fresh)
    ⟨registry, initLocalProperties declared synced, false⟩
  let filled := declared.foldl copyDeclared copied
  some (filled.registry, { synced with
    properties := some filled.table
    localPropsModcount :=
      if filled.changed then props.modcount - 1 else synced.localPropsModcount })

/-- One element of `pthreads_store_full_sync_local_properties`. -/
def fullSyncElement (enumCases : EnumCases) (thread : Nat) (fresh : Key → Fresh)
    (copied : Copied) (entry : Key × Storage) : Option Copied :=
  if ((copied.table.find entry.1).filter validLocalCacheItem).isSome ∨
      ¬ storageIsCacheable entry.2 then
    some copied
  else
    (restoreZval enumCases copied.registry thread (fresh entry.1) entry.2).map
      fun (restored, value) => ⟨restored, copied.table.update entry.1 value, true⟩

/-- `pthreads_store_full_sync_local_properties`, without what it goes on to do to
the tables of the members. -/
def fullSyncLocalProperties (enumCases : EnumCases) (declared : List Key) (registry : Registry)
    (props : Props) (connection : Connection) (fresh : Key → Fresh) :
    Option (Registry × Connection) := do
  let synced := syncLocalProperties registry props connection
  let copied ← props.hash.table.entries.foldlM (fullSyncElement enumCases connection.owner fresh)
    ⟨registry, initLocalProperties declared synced, false⟩
  some (copied.registry, { synced with properties := some copied.table })

/-- A storage that points to a string of the thread gets a persistent copy. -/
def persistStorage (thread pointer : Nat) : Storage → Storage
  | .stringPtr string owner =>
      if owner = thread then .string (saveString string pointer) else .stringPtr string owner
  | storage => storage

/-- `pthreads_store_persist_local_properties`, on the given thread. -/
def persistLocalProperties (thread : Nat) (pointers : Key → Nat) (props : Props) : Props :=
  { props with
    hash := { props.hash with
      table := props.hash.table.mapValues fun key storage =>
        persistStorage thread (pointers key) storage } }

section Cases

variable {enumCases : EnumCases} {declared : List Key} {registry registry' : Registry}
  {props : Props} {connection updated : Connection} {removed : Removed}

/-- A read syncs the local table if there is one.  It changes nothing else, unless it
restores the value of the member for the local table to take. -/
theorem storeRead_cases {key : KeyZval} {type : AccessType} {fresh : Fresh}
    {outcome : ReadOutcome}
    (read : storeRead enumCases registry props connection key type fresh =
      some (registry', updated, outcome)) :
    ∃ synced, synced = (if connection.properties.isSome then
        syncLocalProperties registry props connection else connection) ∧
      (registry' = registry ∧ updated = synced ∨
        ∃ storage value, synced.cached (coerce key) = none ∧
          props.hash.find (coerce key) = some storage ∧
          restoreZval enumCases registry connection.owner fresh storage =
            some (registry', value) ∧
          updated = { synced with pending := some (.update (coerce key) value) }) := by
  refine ⟨_, rfl, ?_⟩
  unfold storeRead at read
  dsimp only at read
  split at read
  · cases read
    exact Or.inl ⟨rfl, rfl⟩
  · next absent =>
    split at read
    · cases read
      exact Or.inl ⟨rfl, rfl⟩
    · next storage isStored =>
      split at read
      · cases read
        exact Or.inl ⟨rfl, rfl⟩
      · obtain ⟨⟨restored, value⟩, isRestored, ⟨⟩⟩ := Option.map_eq_some_iff.mp read
        exact Or.inr ⟨storage, value, absent, isStored, isRestored, rfl⟩

theorem storeDelete_cases (props : Props) (connection : Connection) (key : KeyZval) :
    props.hash.find (coerce key) = none ∧
        storeDelete props connection key = (props, connection, false) ∨
      ∃ storage bumped, props.hash.find (coerce key) = some storage ∧
        bumped = bumpModcount (storageIsCacheable storage)
          { props with hash := props.hash.delete (coerce key) } connection ∧
        storeDelete props connection key =
          (bumped.1, { bumped.2 with pending := some (.evict (coerce key)) }, true) := by
  unfold storeDelete
  dsimp only
  split
  · next absent => exact Or.inl ⟨absent, rfl⟩
  · next storage isStored => exact Or.inr ⟨storage, _, isStored, rfl, rfl⟩

theorem storeShift_cases {fresh : Key → Fresh}
    (shifted : storeShift enumCases registry props connection fresh = some removed) :
    props.hash.table.entries.head? = none ∧
        removed = ⟨registry, props, connection, [], false⟩ ∨
      ∃ entry taken, props.hash.table.entries.head? = some entry ∧
        takeElement enumCases registry props connection fresh entry = some taken ∧
        removed = taken.bump := by
  unfold storeShift at shifted
  split at shifted
  · next vacant =>
    cases shifted
    exact Or.inl ⟨vacant, rfl⟩
  · next entry isFirst =>
    obtain ⟨taken, took, rfl⟩ := Option.map_eq_some_iff.mp shifted
    exact Or.inr ⟨entry, taken, isFirst, took, rfl⟩

theorem storePop_cases {fresh : Key → Fresh}
    (popped : storePop enumCases registry props connection fresh = some removed) :
    props.hash.table.entries.getLast? = none ∧
        removed = ⟨registry, props, connection, [], false⟩ ∨
      ∃ entry taken, props.hash.table.entries.getLast? = some entry ∧
        takeElement enumCases registry props connection fresh entry = some taken ∧
        removed = taken.bump := by
  unfold storePop at popped
  split at popped
  · next vacant =>
    cases popped
    exact Or.inl ⟨vacant, rfl⟩
  · next entry isLast =>
    obtain ⟨taken, took, rfl⟩ := Option.map_eq_some_iff.mp popped
    exact Or.inr ⟨entry, taken, isLast, took, rfl⟩

theorem storeToHash_eq {fresh : Key → Fresh} {hash table : OrderedTable Key Zval}
    (copied : storeToHash enumCases declared registry props connection fresh hash =
      some (registry', updated, table)) :
    ∃ filled, updated = syncLocalProperties registry props (prepared declared connection) ∧
      props.hash.table.entries.foldlM
        (copyElement enumCases connection.owner updated.properties fresh)
        ⟨registry, hash, false⟩ = some filled ∧
      registry' = filled.registry ∧ table = (declared.foldl copyDeclared filled).table := by
  simp only [storeToHash, Option.bind_eq_bind, Option.bind_eq_some_iff] at copied
  obtain ⟨filled, done, ⟨⟩⟩ := copied
  exact ⟨filled, rfl, done, rfl, rfl⟩

theorem storeToOwnHash_eq {fresh : Key → Fresh}
    (copied : storeToOwnHash enumCases declared registry props connection fresh =
      some (registry', updated)) :
    ∃ synced filled, synced = syncLocalProperties registry props (prepared declared connection) ∧
      props.hash.table.entries.foldlM (copyElement enumCases connection.owner none fresh)
        ⟨registry, initLocalProperties declared synced, false⟩ = some filled ∧
      registry' = (declared.foldl copyDeclared filled).registry ∧
      updated = { synced with
        properties := some (declared.foldl copyDeclared filled).table
        localPropsModcount :=
          if (declared.foldl copyDeclared filled).changed then props.modcount - 1
          else synced.localPropsModcount } := by
  simp only [storeToOwnHash, Option.bind_eq_bind, Option.bind_eq_some_iff] at copied
  obtain ⟨filled, done, ⟨⟩⟩ := copied
  exact ⟨_, filled, rfl, done, rfl, rfl⟩

theorem fullSyncLocalProperties_eq {fresh : Key → Fresh}
    (synced : fullSyncLocalProperties enumCases declared registry props connection fresh =
      some (registry', updated)) :
    ∃ filled, props.hash.table.entries.foldlM (fullSyncElement enumCases connection.owner fresh)
        ⟨registry, initLocalProperties declared (syncLocalProperties registry props connection),
          false⟩ = some filled ∧
      registry' = filled.registry ∧
      updated = { syncLocalProperties registry props connection with
        properties := some filled.table } := by
  simp only [fullSyncLocalProperties, Option.bind_eq_bind, Option.bind_eq_some_iff] at synced
  obtain ⟨filled, done, ⟨⟩⟩ := synced
  exact ⟨filled, done, rfl, rfl⟩

end Cases

end Pthreads.Store
