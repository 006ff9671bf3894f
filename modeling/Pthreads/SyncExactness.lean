import Pthreads.BucketDeletions
import Pthreads.PartialFolds
import Pthreads.StoreHashes

/-!
# What a sync leaves in the local table

`pthreads_store_sync_local_properties` goes through the buckets of the local table
and deletes from it, while it iterates, what the shared table no longer stands
for.  `SameValue` says what it means that a storage and a cached value denote the
same thing.  The sync keeps exactly the entries whose storage does, in their
order.

A local table refers to property slots of its object by `IS_INDIRECT` entries, and
the slots of a Threaded object are never initialised.  `LocalBuckets` carries this
fact, and the tables of all runs have it.
-/

namespace Pthreads.Store

open BucketTables
open GuardedRuns
open ObjectRegistry (Registry globalsObjectValid)

/-- An `IS_INDIRECT` value refers to a slot that is not initialised. -/
def Zval.slotUndefined : Zval → Bool
  | .indirect .undef => true
  | .indirect _ => false
  | _ => true

/-- `std.properties` of a Threaded object, in buckets. -/
structure LocalBuckets where
  slots : Slots Key Zval
  distinct : ((live slots).map Prod.fst).Nodup
  undefined : ∀ entry ∈ live slots, entry.2.slotUndefined = true

/-- The elements of the table in their order. -/
def LocalBuckets.elements (table : LocalBuckets) : OrderedTable Key Zval :=
  ⟨live table.slots, table.distinct⟩

/-- The loop of `pthreads_store_sync_local_properties`: every bucket is visited, and
an element that does not stay is deleted by its key at once. -/
def syncSlots (registry : Registry) (thread : Nat) (props : Props) (slots : Slots Key Zval) :
    Slots Key Zval :=
  retain (fun key value => staysCached registry thread (props.hash.find key) value)
    slots.length 0 slots

theorem live_syncSlots (registry : Registry) (thread : Nat) (props : Props) (table : LocalBuckets) :
    live (syncSlots registry thread props table.slots) =
      (live table.slots).filter fun entry =>
        staysCached registry thread (props.hash.find entry.1) entry.2 :=
  live_retain_all _ table.distinct

/-- What the sync leaves is again a local table. -/
def LocalBuckets.sync (registry : Registry) (thread : Nat) (props : Props) (table : LocalBuckets) :
    LocalBuckets where
  slots := syncSlots registry thread props table.slots
  distinct := by
    rw [live_syncSlots]
    exact table.distinct.sublist (List.filter_sublist.map _)
  undefined entry isIn := by
    rw [live_syncSlots] at isIn
    exact table.undefined entry (List.mem_of_mem_filter isIn)

/-- What a sync sees of a `pthreads_zend_object_t`. -/
structure LocalProperties where
  owner : Nat
  properties : Option LocalBuckets
  localPropsModcount : Int

/-- `pthreads_store_sync_local_properties`, on the buckets. -/
def LocalProperties.sync (registry : Registry) (props : Props) (localProperties : LocalProperties) :
    LocalProperties :=
  if localProperties.localPropsModcount = props.modcount then localProperties
  else
    { localProperties with
      properties := localProperties.properties.map
        (LocalBuckets.sync registry localProperties.owner props)
      localPropsModcount := props.modcount }

/-- The connection as the operations of the store see it, whose table is a list of
elements. -/
structure LocalProperties.Shows (localProperties : LocalProperties) (connection : Connection) :
    Prop where
  owner : connection.owner = localProperties.owner
  properties : connection.properties = localProperties.properties.map LocalBuckets.elements
  modcount : connection.localPropsModcount = localProperties.localPropsModcount

/-- Deleting from the buckets while going through them filters the elements. -/
theorem LocalProperties.Shows.sync {localProperties : LocalProperties} {connection : Connection}
    (shown : localProperties.Shows connection) (registry : Registry) (props : Props) :
    (localProperties.sync registry props).Shows
      (syncLocalProperties registry props connection) := by
  unfold syncLocalProperties LocalProperties.sync
  rw [shown.modcount]
  split
  · exact shown
  · refine ⟨shown.owner, ?_, rfl⟩
    simp only [shown.properties, shown.owner, Option.map_map]
    cases localProperties.properties with
    | none => rfl
    | some table =>
        simp only [Option.map_some, Function.comp_apply, Option.some.injEq, LocalBuckets.elements,
          OrderedTable.filter, OrderedTable.mk.injEq]
        exact (live_syncSlots registry localProperties.owner props table).symm

/-- The storage and the cached value denote the same thing, for this thread. -/
inductive SameValue (registry : Registry) (thread : Nat) : Storage → Zval → Prop
  | object (address : Nat) : SameValue registry thread (.pthreads address) (.threaded address)
  | connection {shared own : Nat} (valid : globalsObjectValid registry shared = true)
      (same : tsObjAt registry shared = tsObjAt registry own) :
      SameValue registry thread (.pthreads shared) (.threaded own)
  | closure (shared : Closure) (owner : Nat) :
      SameValue registry thread (.closure shared owner) (.closure shared)
  | socket {shared own : Socket} (hasStream : Bool) (same : shared.bsdSocket = own.bsdSocket) :
      SameValue registry thread (.socket shared) (.socket own hasStream)
  | string (shared : ZString) :
      SameValue registry thread (.stringPtr shared thread) (.string shared)

theorem deindirect_eq {value target : Zval} (undefined : value.slotUndefined = true)
    (leads : deindirect value = target) (defined : target ≠ .undef) : value = target := by
  cases value with
  | indirect slot =>
      cases slot with
      | undef => exact absurd leads.symm defined
      | _ => cases undefined
  | _ => exact leads

/-- The test of the sync decides whether the storage denotes the cached value. -/
theorem staysCached_iff {registry : Registry} {thread : Nat} {storage : Option Storage}
    {value : Zval} (undefined : value.slotUndefined = true) :
    staysCached registry thread storage value = true ↔
      ∃ stored, storage = some stored ∧ SameValue registry thread stored value := by
  constructor
  · intro stays
    unfold staysCached at stays
    split at stays
    · next shared own leads =>
      obtain rfl := deindirect_eq undefined leads (by simp)
      simp only [decide_eq_true_eq] at stays
      rcases stays with rfl | ⟨valid, same⟩
      · exact ⟨_, rfl, .object shared⟩
      · exact ⟨_, rfl, .connection valid same⟩
    · next shared owner own leads =>
      obtain rfl := deindirect_eq undefined leads (by simp)
      obtain rfl := of_decide_eq_true stays
      exact ⟨_, rfl, .closure shared owner⟩
    · next shared own hasStream leads =>
      obtain rfl := deindirect_eq undefined leads (by simp)
      exact ⟨_, rfl, .socket hasStream (of_decide_eq_true stays)⟩
    · next shared owner own leads =>
      obtain rfl := deindirect_eq undefined leads (by simp)
      obtain ⟨rfl, rfl⟩ := of_decide_eq_true stays
      exact ⟨_, rfl, .string shared⟩
    · cases stays
  · rintro ⟨stored, rfl, same⟩
    cases same with
    | object address => simp [staysCached, deindirect]
    | connection valid same => simp [staysCached, deindirect, valid, same]
    | closure shared owner => simp [staysCached, deindirect]
    | socket hasStream same => simp [staysCached, deindirect, same]
    | string shared => simp [staysCached, deindirect]

/-- What denotes the same as a storage is worth caching. -/
theorem SameValue.retained {registry : Registry} {thread : Nat} {storage : Storage} {value : Zval}
    (same : SameValue registry thread storage value) :
    retainInLocalCache value = true ∧ validLocalCacheItem value = true := by
  cases same <;> exact ⟨rfl, rfl⟩

/-- A sync of a table that is out of date leaves exactly the entries whose storage
denotes the same value, in their order, and the counts are equal afterwards. -/
theorem sync_keeps_exactly (registry : Registry) (props : Props) (before : LocalProperties)
    (outdated : before.localPropsModcount ≠ props.modcount) :
    (before.sync registry props).localPropsModcount = props.modcount ∧
      (before.properties = none → (before.sync registry props).properties = none) ∧
      ∀ table, before.properties = some table → ∃ left,
        (before.sync registry props).properties = some left ∧
        (live left.slots).Sublist (live table.slots) ∧
        (∀ key value, (key, value) ∈ live left.slots ↔ (key, value) ∈ live table.slots ∧
          ∃ storage, props.hash.find key = some storage ∧
            SameValue registry before.owner storage value) ∧
        ∀ key value, (key, value) ∈ live left.slots →
          retainInLocalCache value = true ∧ validLocalCacheItem value = true := by
  rw [LocalProperties.sync, if_neg outdated]
  refine ⟨rfl, fun noTable => by simp only [noTable, Option.map_none], ?_⟩
  intro table isTable
  have kept : ∀ key value, (key, value) ∈ live (table.sync registry before.owner props).slots ↔
      (key, value) ∈ live table.slots ∧ ∃ storage, props.hash.find key = some storage ∧
        SameValue registry before.owner storage value := by
    intro key value
    simp only [LocalBuckets.sync, live_syncSlots, List.mem_filter]
    constructor
    · rintro ⟨isIn, stays⟩
      exact ⟨isIn, (staysCached_iff (table.undefined _ isIn)).mp stays⟩
    · rintro ⟨isIn, denotes⟩
      exact ⟨isIn, (staysCached_iff (table.undefined _ isIn)).mpr denotes⟩
  refine ⟨table.sync registry before.owner props, by simp only [isTable, Option.map_some], ?_,
    kept, ?_⟩
  · simp only [LocalBuckets.sync, live_syncSlots]
    exact List.filter_sublist
  · intro key value isIn
    obtain ⟨-, storage, -, same⟩ := (kept key value).mp isIn
    exact same.retained

/-- Thread 1's local table: a string that the store still points to, a scalar, the
slot of a declared property, an outdated string and a socket. -/
def mixedTable : LocalBuckets where
  slots := [some (.long 0, .string ⟨5, [97], false⟩), none, some (.long 1, .long 7),
    some (.string [120], .indirect .undef), some (.long 2, .string ⟨6, [98], false⟩),
    some (.long 3, .socket ⟨4, 1, 0, 1⟩ false), some (.long 4, .null)]
  distinct := by decide
  undefined := List.all_eq_true.mp rfl

/-- The store behind it. -/
def mixedProps : Props where
  hash := (((HashTable.empty.update (.long 0) (.stringPtr ⟨5, [97], false⟩ 1)).update
    (.long 1) (.long 7)).update (.long 2) (.stringPtr ⟨9, [98], false⟩ 1)).update
    (.long 3) (.socket ⟨4, 2, 9, 0⟩)
  modcount := 3

theorem sync_keeps_exactly_mixedTable :
    (⟨1, some mixedTable, 2⟩ : LocalProperties).localPropsModcount ≠ mixedProps.modcount ∧
      ∃ left, ((⟨1, some mixedTable, 2⟩ : LocalProperties).sync ObjectRegistry.initial
          mixedProps).properties = some left ∧
        (.long 0, .string ⟨5, [97], false⟩) ∈ live left.slots ∧
        (.long 3, .socket ⟨4, 1, 0, 1⟩ false) ∈ live left.slots ∧
        (.long 1, .long 7) ∉ live left.slots := by
  have outdated : (⟨1, some mixedTable, 2⟩ : LocalProperties).localPropsModcount ≠
      mixedProps.modcount := by decide
  obtain ⟨-, -, exactly⟩ := sync_keeps_exactly ObjectRegistry.initial mixedProps
    ⟨1, some mixedTable, 2⟩ outdated
  obtain ⟨left, isLeft, -, kept, retained⟩ := exactly mixedTable rfl
  refine ⟨outdated, left, isLeft, ?_, ?_, ?_⟩
  · exact (kept _ _).mpr ⟨by simp [mixedTable, live], _, rfl, .string _⟩
  · exact (kept _ _).mpr ⟨by simp [mixedTable, live], _, rfl, .socket false rfl⟩
  · intro isIn
    exact Bool.false_ne_true (retained _ _ isIn).1

/-! ### The tables of all runs -/

/-- The slots that the table refers to are not initialised. -/
def UndefinedSlots (table : OrderedTable Key Zval) : Prop :=
  ∀ key value, table.find key = some value → value.slotUndefined = true

/-- The same for the local table of a connection, if it has one. -/
def Connection.UndefinedSlots (connection : Connection) : Prop :=
  ∀ table, connection.properties = some table → Store.UndefinedSlots table

section Tables

variable {table : OrderedTable Key Zval}

theorem undefinedSlots_empty : UndefinedSlots OrderedTable.empty := nofun

theorem UndefinedSlots.update (undefined : UndefinedSlots table) (key : Key) {value : Zval}
    (isUndefined : value.slotUndefined = true) : UndefinedSlots (table.update key value) := by
  intro other found isThere
  rcases OrderedTable.find_update_cases isThere with ⟨-, rfl⟩ | ⟨-, before⟩
  · exact isUndefined
  · exact undefined other found before

theorem UndefinedSlots.delete (undefined : UndefinedSlots table) (key : Key) :
    UndefinedSlots (table.delete key) :=
  fun other found isThere => undefined other found (OrderedTable.find_of_find_delete isThere).2

theorem UndefinedSlots.filter (undefined : UndefinedSlots table) (test : Key → Zval → Bool) :
    UndefinedSlots (table.filter test) := by
  intro other found isThere
  rw [OrderedTable.find_filter] at isThere
  exact undefined other found (Option.filter_eq_some_iff.mp isThere).1

theorem slotUndefined_of_retained {value : Zval} (retained : retainInLocalCache value = true) :
    value.slotUndefined = true := by
  cases value with
  | indirect slot => cases retained
  | _ => rfl

/-- No storage is restored to a reference to a slot. -/
theorem restoreZval_slotUndefined {enumCases : EnumCases} {registry : Registry} {thread : Nat}
    {fresh : Fresh} {storage : Storage} {result : Registry × Zval}
    (restored : restoreZval enumCases registry thread fresh storage = some result) :
    result.2.slotUndefined = true := by
  cases storage with
  | stringPtr string owner =>
      simp only [restoreZval] at restored
      split at restored
      · cases restored
        rfl
      · cases restored
        rfl
  | pthreads address =>
      obtain ⟨⟨after, object⟩, -, rfl⟩ := Option.map_eq_some_iff.mp restored
      cases object <;> rfl
  | enumCase className memberName =>
      obtain ⟨-, ⟨⟩⟩ := Option.ite_none_right_eq_some.mp restored
      rfl
  | _ =>
      cases restored
      rfl

end Tables

section Operations

variable {registry registry' : Registry} {props : Props} {connection updated : Connection}
  {enumCases : EnumCases} {declared : List Key}

theorem Connection.UndefinedSlots.congr (undefined : connection.UndefinedSlots)
    (same : updated.properties = connection.properties) : updated.UndefinedSlots := by
  intro table isTable
  exact undefined table (same.symm.trans isTable)

theorem Connection.UndefinedSlots.init (undefined : connection.UndefinedSlots)
    (declared : List Key) : Store.UndefinedSlots (initLocalProperties declared connection) := by
  intro key value isThere
  rcases initLocalProperties_find isThere with rfl | ⟨table, isTable, found⟩
  · rfl
  · exact undefined table isTable key value found

theorem Connection.UndefinedSlots.prepared (undefined : connection.UndefinedSlots)
    (declared : List Key) : (prepared declared connection).UndefinedSlots := by
  rintro table ⟨⟩
  exact undefined.init declared

theorem Connection.UndefinedSlots.sync (undefined : connection.UndefinedSlots)
    (registry : Registry) (props : Props) :
    (syncLocalProperties registry props connection).UndefinedSlots := by
  unfold syncLocalProperties
  split
  · exact undefined
  · intro table isTable
    obtain ⟨before, isBefore, rfl⟩ := Option.map_eq_some_iff.mp isTable
    exact (undefined before isBefore).filter _

theorem Connection.UndefinedSlots.evict (undefined : connection.UndefinedSlots) (key : Key) :
    (evictLocalProperty connection key).UndefinedSlots := by
  intro table isTable
  obtain ⟨before, isBefore, rfl⟩ := Option.map_eq_some_iff.mp isTable
  exact (undefined before isBefore).delete key

theorem Connection.UndefinedSlots.finish (undefined : connection.UndefinedSlots)
    (declared : List Key) : (finishPending declared connection).UndefinedSlots := by
  unfold finishPending
  split
  · exact undefined
  · next key value isPending =>
    unfold updateLocalProperty
    split
    · next retained =>
      rintro table ⟨⟩
      exact (undefined.init declared).update key (slotUndefined_of_retained retained)
    · exact undefined.congr rfl
  · next key isPending => exact (undefined.evict key).congr rfl

theorem Connection.UndefinedSlots.bump (undefined : connection.UndefinedSlots) (bump : Bool)
    (props : Props) : (bumpModcount bump props connection).2.UndefinedSlots :=
  undefined.congr (bumpModcount_eq bump props connection).2.2.1

theorem storeRead_undefinedSlots {key : KeyZval} {type : AccessType} {fresh : Fresh}
    {outcome : ReadOutcome} (undefined : connection.UndefinedSlots)
    (read : storeRead enumCases registry props connection key type fresh =
      some (registry', updated, outcome)) : updated.UndefinedSlots := by
  obtain ⟨synced, isSynced, reads⟩ := storeRead_cases read
  have isUndefined : synced.UndefinedSlots := by
    rw [isSynced]
    split
    · exact undefined.sync registry props
    · exact undefined
  rcases reads with ⟨-, rfl⟩ | ⟨storage, value, -, -, -, rfl⟩
  · exact isUndefined
  · exact isUndefined.congr rfl

theorem storeWrite_undefinedSlots {key : Option KeyZval} {value : Zval} {coerceArrays : Bool}
    {fresh : Fresh} {result : Written} (undefined : connection.UndefinedSlots)
    (wrote : storeWrite registry props connection key value coerceArrays fresh =
      some (some result)) : result.connection.UndefinedSlots := by
  obtain ⟨storage, -, -, -, -, isConnection⟩ := storeWrite_eq wrote
  rw [isConnection]
  exact ((undefined.bump _ _).sync _ _).congr rfl

theorem writeAndFinish_undefinedSlots {state result : WrittenAll} {key : KeyZval} {value : Zval}
    {coerceArrays : Bool} {fresh : Fresh} (undefined : state.connection.UndefinedSlots)
    (wrote : writeAndFinish declared state key value coerceArrays fresh = some (some result)) :
    result.connection.UndefinedSlots := by
  obtain ⟨outcome, stored, finished⟩ := Option.map_eq_some_iff.mp wrote
  obtain ⟨written, rfl, rfl⟩ := Option.map_eq_some_iff.mp finished
  exact (storeWrite_undefinedSlots undefined stored).finish declared

theorem storeDelete_undefinedSlots (undefined : connection.UndefinedSlots) (key : KeyZval) :
    (storeDelete props connection key).2.1.UndefinedSlots := by
  rcases storeDelete_cases props connection key with ⟨-, same⟩ | ⟨storage, _, -, rfl, same⟩
  · rw [same]
    exact undefined
  · rw [same]
    exact (undefined.bump _ _).congr rfl

theorem takeElement_undefinedSlots {fresh : Key → Fresh} {entry : Key × Storage}
    {removed : Removed} (undefined : connection.UndefinedSlots)
    (taken : takeElement enumCases registry props connection fresh entry = some removed) :
    removed.connection.UndefinedSlots := by
  obtain ⟨⟨restored, value⟩, -, rfl⟩ := Option.map_eq_some_iff.mp taken
  exact undefined.evict entry.1

theorem takeFront_undefinedSlots {fresh : Key → Fresh} {count : Nat} {removed : Removed}
    (undefined : connection.UndefinedSlots)
    (taken : takeFront enumCases registry props connection fresh count = some removed) :
    removed.connection.UndefinedSlots := by
  induction count generalizing registry props connection removed with
  | zero =>
      cases taken
      exact undefined
  | succ count ih =>
      rcases takeFront_succ_cases taken with ⟨-, rfl⟩ |
        ⟨entry, others, first, rest, -, tookFirst, tookRest, rfl⟩
      · exact undefined
      · have later : rest.connection.UndefinedSlots :=
          ih (takeElement_undefinedSlots undefined tookFirst) tookRest
        exact later

theorem foldl_mergeStorage_undefinedSlots (overwrite : Bool) (pointers : Key → Nat)
    (source : List (Key × Storage)) {merged : Merged}
    (undefined : merged.connection.UndefinedSlots) :
    (source.foldl (mergeStorage overwrite pointers) merged).connection.UndefinedSlots := by
  induction source generalizing merged with
  | nil => exact undefined
  | cons entry source ih =>
      rw [List.foldl_cons]
      apply ih
      unfold mergeStorage
      split
      · exact undefined
      · exact undefined.evict entry.1

theorem storeMergeThreaded_undefinedSlots (source : List (Key × Storage)) (overwrite : Bool)
    (pointers : Key → Nat) (undefined : connection.UndefinedSlots) :
    (storeMergeThreaded props connection source overwrite pointers).connection.UndefinedSlots := by
  have merged := @foldl_mergeStorage_undefinedSlots overwrite pointers source
    ⟨props, connection, false, []⟩ undefined
  exact merged.bump _ _

theorem copyDeclared_undefinedSlots {copied : Copied} (undefined : UndefinedSlots copied.table)
    (keys : List Key) : UndefinedSlots (keys.foldl copyDeclared copied).table := by
  induction keys generalizing copied with
  | nil => exact undefined
  | cons key keys ih =>
      rw [List.foldl_cons]
      apply ih
      unfold copyDeclared
      split
      · exact undefined.update key rfl
      · exact undefined

theorem removedBump_undefinedSlots {removed : Removed}
    (undefined : removed.connection.UndefinedSlots) : removed.bump.connection.UndefinedSlots :=
  undefined.bump removed.cacheable removed.props

theorem storeShift_undefinedSlots {fresh : Key → Fresh} {removed : Removed}
    (undefined : connection.UndefinedSlots)
    (shifted : storeShift enumCases registry props connection fresh = some removed) :
    removed.connection.UndefinedSlots := by
  rcases storeShift_cases shifted with ⟨-, rfl⟩ | ⟨entry, taken, -, took, rfl⟩
  · exact undefined
  · exact removedBump_undefinedSlots (takeElement_undefinedSlots undefined took)

theorem storePop_undefinedSlots {fresh : Key → Fresh} {removed : Removed}
    (undefined : connection.UndefinedSlots)
    (popped : storePop enumCases registry props connection fresh = some removed) :
    removed.connection.UndefinedSlots := by
  rcases storePop_cases popped with ⟨-, rfl⟩ | ⟨entry, taken, -, took, rfl⟩
  · exact undefined
  · exact removedBump_undefinedSlots (takeElement_undefinedSlots undefined took)

theorem storeMergeArray_undefinedSlots {overwrite coerceArrays : Bool} {fresh : Key → Fresh}
    {source : List (Key × Zval)} {state result : WrittenAll}
    (undefined : state.connection.UndefinedSlots)
    (merged : storeMergeArray declared overwrite coerceArrays fresh source state = some result) :
    result.connection.UndefinedSlots := by
  apply @storeMergeArray_keeps declared (fun next => next.connection.UndefinedSlots)
    _ _ _ _ _ _ _ undefined merged
  intro middle next isUndefined _ _ _ wrote
  exact writeAndFinish_undefinedSlots isUndefined wrote

theorem baseInit_undefinedSlots {fresh : Key → Fresh} {defaults : List (Key × Zval)}
    {state result : WrittenAll} (undefined : state.connection.UndefinedSlots)
    (built : baseInit declared fresh defaults state = some result) :
    result.connection.UndefinedSlots := by
  apply @baseInit_keeps declared (fun next => next.connection.UndefinedSlots)
    _ _ _ _ _ undefined built
  intro middle next isUndefined _ _ wrote
  exact writeAndFinish_undefinedSlots isUndefined wrote

/-- A copy into the object's own table. -/
theorem copyElement_undefinedSlots {thread : Nat} {fresh : Key → Fresh} {copied after : Copied}
    {entry : Key × Storage} (undefined : UndefinedSlots copied.table)
    (one : copyElement enumCases thread none fresh copied entry = some after) :
    UndefinedSlots after.table := by
  unfold copyElement at one
  split at one
  · cases one
    exact undefined
  · obtain ⟨⟨restored, value⟩, isRestored, rfl⟩ := Option.map_eq_some_iff.mp one
    exact undefined.update entry.1 (restoreZval_slotUndefined isRestored)

theorem fullSyncElement_undefinedSlots {thread : Nat} {fresh : Key → Fresh}
    {copied after : Copied} {entry : Key × Storage} (undefined : UndefinedSlots copied.table)
    (one : fullSyncElement enumCases thread fresh copied entry = some after) :
    UndefinedSlots after.table := by
  unfold fullSyncElement at one
  split at one
  · cases one
    exact undefined
  · obtain ⟨⟨restored, value⟩, isRestored, rfl⟩ := Option.map_eq_some_iff.mp one
    exact undefined.update entry.1 (restoreZval_slotUndefined isRestored)

theorem storeToOwnHash_undefinedSlots {fresh : Key → Fresh}
    (undefined : connection.UndefinedSlots)
    (copied : storeToOwnHash enumCases declared registry props connection fresh =
      some (registry', updated)) : updated.UndefinedSlots := by
  obtain ⟨_, filled, rfl, done, rfl, rfl⟩ := storeToOwnHash_eq copied
  rintro table ⟨⟩
  apply copyDeclared_undefinedSlots
  refine @PartialFolds.foldlM_keeps _ _ _ (fun copied => UndefinedSlots copied.table) _ ?_ _ _ done
    (((undefined.prepared declared).sync registry props).init declared)
  intro copied after isUndefined entry _ one
  exact copyElement_undefinedSlots isUndefined one

/-- The other table that a copy goes to is not the local one. -/
theorem storeToHash_undefinedSlots {fresh : Key → Fresh} {hash table : OrderedTable Key Zval}
    (undefined : connection.UndefinedSlots)
    (copied : storeToHash enumCases declared registry props connection fresh hash =
      some (registry', updated, table)) : updated.UndefinedSlots := by
  obtain ⟨filled, rfl, -, rfl, rfl⟩ := storeToHash_eq copied
  exact (undefined.prepared declared).sync registry props

theorem fullSyncLocalProperties_undefinedSlots {fresh : Key → Fresh}
    (undefined : connection.UndefinedSlots)
    (synced : fullSyncLocalProperties enumCases declared registry props connection fresh =
      some (registry', updated)) : updated.UndefinedSlots := by
  obtain ⟨filled, done, rfl, rfl⟩ := fullSyncLocalProperties_eq synced
  rintro table ⟨⟩
  refine @PartialFolds.foldlM_keeps _ _ _ (fun copied => UndefinedSlots copied.table) _ ?_ _ _ done
    ((undefined.sync registry props).init declared)
  intro copied after isUndefined entry _ one
  exact fullSyncElement_undefinedSlots isUndefined one

end Operations

/-- Every local table refers to slots that are not initialised. -/
def State.UndefinedSlots (state : State) : Prop :=
  ∀ connection found, state.connections.find connection = some found → found.UndefinedSlots

theorem State.UndefinedSlots.idle {state : State} (undefined : state.UndefinedSlots)
    {connection : Nat} {found : Connection} (idle : state.idle connection = some found) :
    found.UndefinedSlots :=
  undefined connection found (Option.filter_eq_some_iff.mp idle).1

/-- An operation through one connection leaves the tables of the others alone. -/
theorem State.UndefinedSlots.after {state : State} (undefined : state.UndefinedSlots)
    {updated : Connection} (isUpdated : updated.UndefinedSlots) (connection : Nat)
    (registry : Registry) (props : Props) (changes : List (Key × Option Meaning)) :
    (state.after connection registry props updated changes).UndefinedSlots := by
  intro other found isThere
  rcases OrderedTable.find_update_cases isThere with ⟨-, rfl⟩ | ⟨-, before⟩
  · exact isUpdated
  · exact undefined other found before

theorem step_undefinedSlots {state after : State} {action : Action}
    (undefined : state.UndefinedSlots) (stepped : step state action = some after) :
    after.UndefinedSlots := by
  cases action with
  | construct connection owner defaults fresh =>
      obtain ⟨-, -, built, isBuilt, rfl⟩ := construct_eq stepped
      have noTable : (⟨owner, none, 0, none⟩ : Connection).UndefinedSlots := nofun
      have isBuiltUndefined := baseInit_undefinedSlots noTable isBuilt
      apply undefined.after
      exact isBuiltUndefined.congr rfl
  | connect connection owner hasTable =>
      obtain ⟨-, -, rfl⟩ := connect_eq stepped
      intro other found isThere
      rcases OrderedTable.find_update_cases isThere with ⟨-, rfl⟩ | ⟨-, before⟩
      · intro table isTable
        obtain ⟨-, ⟨⟩⟩ := Option.ite_none_right_eq_some.mp isTable
        exact undefinedSlots_empty
      · exact undefined other found before
  | disconnect connection pointers =>
      obtain ⟨gone, -, rfl⟩ := Option.map_eq_some_iff.mp stepped
      rcases disconnect_cases state connection gone pointers with ⟨vacant, -⟩ | ⟨-, kept⟩
      · intro other found isThere
        rw [OrderedTable.find, vacant] at isThere
        cases isThere
      · rw [kept]
        intro other found isThere
        exact undefined other found (OrderedTable.find_of_find_delete isThere).2
  | read connection key type fresh =>
      obtain ⟨found, registry, updated, outcome, idle, read, rfl⟩ := read_eq stepped
      exact undefined.after (storeRead_undefinedSlots (undefined.idle idle) read) _ _ _ _
  | write connection key value coerceArrays fresh =>
      obtain ⟨found, idle, -, ⟨-, rfl⟩ | ⟨written, wrote, rfl⟩⟩ := write_eq stepped
      · exact undefined
      · exact undefined.after (storeWrite_undefinedSlots (undefined.idle idle) wrote) _ _ _ _
  | delete connection key =>
      obtain ⟨found, idle, rfl⟩ := delete_eq stepped
      exact undefined.after (storeDelete_undefinedSlots (undefined.idle idle) key) _ _ _ _
  | shift connection fresh =>
      obtain ⟨found, removed, idle, isRemoved, rfl⟩ := remove_eq stepped
      exact undefined.after (storeShift_undefinedSlots (undefined.idle idle) isRemoved) _ _ _ _
  | pop connection fresh =>
      obtain ⟨found, removed, idle, isRemoved, rfl⟩ := remove_eq stepped
      exact undefined.after (storePop_undefinedSlots (undefined.idle idle) isRemoved) _ _ _ _
  | chunk connection size fresh =>
      obtain ⟨found, removed, idle, isRemoved, rfl⟩ := remove_eq stepped
      obtain ⟨taken, took, rfl⟩ := Option.map_eq_some_iff.mp isRemoved
      have left := takeFront_undefinedSlots (undefined.idle idle) took
      exact undefined.after (removedBump_undefinedSlots left) _ _ _ _
  | mergeThreaded connection source overwrite pointers =>
      obtain ⟨found, merged, idle, rfl, rfl⟩ := mergeThreaded_eq stepped
      apply undefined.after
      exact storeMergeThreaded_undefinedSlots source overwrite pointers (undefined.idle idle)
  | mergeArray connection source overwrite coerceArrays fresh =>
      obtain ⟨found, merged, idle, -, isMerged, rfl⟩ := mergeArray_eq stepped
      have left := storeMergeArray_undefinedSlots (undefined.idle idle) isMerged
      exact undefined.after left _ _ _ _
  | toHash connection hash fresh =>
      obtain ⟨found, registry, updated, table, idle, copied, rfl⟩ := toHash_eq stepped
      exact undefined.after (storeToHash_undefinedSlots (undefined.idle idle) copied) _ _ _ _
  | toOwnHash connection fresh =>
      obtain ⟨found, registry, updated, idle, copied, rfl⟩ := toOwnHash_eq stepped
      exact undefined.after (storeToOwnHash_undefinedSlots (undefined.idle idle) copied) _ _ _ _
  | fullSync connection fresh =>
      obtain ⟨found, registry, updated, idle, synced, rfl⟩ := fullSync_eq stepped
      have left := fullSyncLocalProperties_undefinedSlots (undefined.idle idle) synced
      exact undefined.after left _ _ _ _
  | persist connection pointers =>
      obtain ⟨found, -, rfl⟩ := Option.map_eq_some_iff.mp stepped
      exact undefined
  | finish connection =>
      obtain ⟨found, isThere, rfl⟩ := Option.map_eq_some_iff.mp stepped
      intro other keeper present
      rcases OrderedTable.find_update_cases present with ⟨-, rfl⟩ | ⟨-, before⟩
      · exact (undefined connection found isThere).finish state.declared
      · exact undefined other keeper before
  | registry other =>
      obtain ⟨-, stepped⟩ := Option.ite_none_right_eq_some.mp stepped
      obtain ⟨registry, -, rfl⟩ := Option.map_eq_some_iff.mp stepped
      exact undefined
  | loadEnum thread className memberName =>
      cases stepped
      exact undefined

theorem undefinedSlots_of_reaches {declared : List Key} {state : State}
    (reached : Reaches step anyAction (initial declared) state) : state.UndefinedSlots :=
  reached.preserves (fun _ _ _ undefined _ stepped => step_undefinedSlots undefined stepped) nofun

/-- The buckets of a table from which nothing was deleted. -/
theorem live_map_some {Key Value : Type*} (entries : List (Key × Value)) :
    live (entries.map some) = entries := by
  simp [live]

/-- The local tables of all runs, whatever order of threads and operations made
them, are tables that a sync is exact on. -/
theorem shown_of_reaches {declared : List Key} {state : State} {connection : Nat}
    {found : Connection} (reached : Reaches step anyAction (initial declared) state)
    (isThere : state.connections.find connection = some found) :
    ∃ localProperties : LocalProperties, localProperties.Shows found := by
  have undefined := undefinedSlots_of_reaches reached connection found isThere
  cases isTable : found.properties with
  | none =>
      refine ⟨⟨found.owner, none, found.localPropsModcount⟩, rfl, ?_, rfl⟩
      rw [isTable, Option.map_none]
  | some table =>
      have entries := live_map_some table.entries
      have distinct : ((live (table.entries.map some)).map Prod.fst).Nodup := by
        rw [entries]
        exact table.distinct
      have isUndefined : ∀ entry ∈ live (table.entries.map some),
          entry.2.slotUndefined = true := by
        intro entry isIn
        rw [entries] at isIn
        exact undefined table isTable entry.1 entry.2 (OrderedTable.find_eq_some_iff.mpr isIn)
      refine ⟨⟨found.owner, some ⟨table.entries.map some, distinct, isUndefined⟩,
        found.localPropsModcount⟩, rfl, ?_, rfl⟩
      rw [isTable, Option.map_some]
      simp only [LocalBuckets.elements, entries]

end Pthreads.Store
