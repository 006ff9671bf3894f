import Pthreads.MergeTwins

/-!
# When the two ways of merging agree

A read shows the entry of an up-to-date local table, and otherwise what the
storage is restored to.  With what the element by element comparison says of the
tables, both ways show the same, as long as nothing that they show is freed with
the source.
-/

namespace Pthreads.Store

open ObjectRegistry GuardedRuns

/-- What a thread sees of a storage. -/
def storageView (enumCases : EnumCases) (memory : Memory) (thread : Nat) (key : Key) :
    Option Storage → Option Seen
  | none => some .undefined
  | some storage =>
      if memory.dangling key storage then none
      else some ((storage.restored enumCases memory.registry thread).elim .unloadable
        fun meaning => .value (some meaning))

/-- What a read through the connection shows. -/
def view (enumCases : EnumCases) (memory : Memory) (props : Props) (connection : Connection)
    (key : Key) : Option Seen :=
  match if connection.localPropsModcount = props.modcount then connection.cached key else none with
  | some value => some (.value (value.meaning memory.registry))
  | none => storageView enumCases memory connection.owner key (props.hash.find key)

section Reading

variable {enumCases : EnumCases} {registry : Registry} {memory : Memory} {props : Props}
  {connection : Connection} {thread : Nat} {fresh : Fresh} {storage : Storage} {value : Zval}

/-- Restoring a storage shows what it is restored to. -/
theorem restoreZval_seen (sound : Sound registry)
    (available : Available registry fresh.newAddress fresh.newTs)
    (settled : ∀ address, storage = .pthreads address → SettledAt registry address) :
    (restoreZval enumCases registry thread fresh storage).map
        (fun result => result.2.meaning result.1) =
      (storage.restored enumCases registry thread).map some := by
  cases storage with
  | pthreads address =>
      cases found : registry.zobjs address with
      | none =>
          have invalid : globalsObjectValid registry address = false := by
            simp [globalsObjectValid, sound.table, found]
          simp [restoreZval, globalsObjectConnect, invalid, Storage.restored, Storage.meaning,
            tsObjAt, found, Zval.meaning]
      | some zobj =>
          obtain ⟨visible, constructed⟩ := settled address rfl zobj found
          obtain ⟨tsObj, points⟩ := Option.isSome_iff_exists.mp constructed
          have restorable : Restorable enumCases registry thread fresh (.pthreads address) :=
            ⟨by simp [tsObjAt, found, points], available⟩
          obtain ⟨after, value, restored⟩ := restoreZval_succeeds sound restorable
          have stands := restoreZval_stands sound settled restored
          have kept := (restoreZval_restores sound settled restored).extended.kept address zobj
            found visible constructed
          rw [restored, Option.map_some, stands.meaning]
          simp [Storage.restored, Storage.meaning, tsObjAt, found, kept]
  | stringPtr string owner =>
      simp only [restoreZval]
      split <;> simp [Zval.meaning, Storage.restored, Storage.meaning, restoreString_bytes]
  | string string =>
      simp [restoreZval, Zval.meaning, Storage.restored, Storage.meaning, restoreString_bytes]
  | enumCase className memberName =>
      simp only [restoreZval, Storage.restored]
      split <;> rfl
  | _ => rfl

/-- Only an enum case that is not loaded is not restored. -/
theorem restored_isNone (enumCases : EnumCases) (registry : Registry) (thread : Nat)
    (storage : Storage) :
    (storage.restored enumCases registry thread).isNone = unloadable enumCases thread storage := by
  cases storage with
  | enumCase className memberName =>
      simp only [Storage.restored, unloadable]
      cases enumCases thread className memberName <;> rfl
  | _ => rfl

/-- A value that the sync keeps stands for what the storage is restored to. -/
theorem restored_of_staysCached {stored : Option Storage} (settled : SettledValue registry value)
    (valid : validLocalCacheItem value = true)
    (stays : staysCached registry thread stored value = true) (reader : Nat) :
    ∃ found meaning, stored = some found ∧
      found.restored enumCases registry reader = some meaning ∧
      value.meaning registry = some meaning ∧ storageIsCacheable found = true ∧
      ∀ closure owner, found = .closure closure owner → value = .closure closure := by
  simp only [staysCached, deindirect_of_valid valid] at stays
  split at stays
  · next shared own =>
    obtain ⟨zobj, found, -, constructed⟩ := settled own (by simp [refersTo])
    obtain ⟨tsObj, points⟩ := Option.isSome_iff_exists.mp constructed
    have atOwn : tsObjAt registry own = some tsObj := by
      rw [tsObjAt, found, Option.bind_some, points]
    have atShared : tsObjAt registry shared = some tsObj := by
      simp only [decide_eq_true_eq] at stays
      rcases stays with rfl | ⟨-, sameTs⟩
      · exact atOwn
      · exact sameTs.trans atOwn
    exact ⟨_, .threaded tsObj, rfl, by simp [Storage.restored, Storage.meaning, atShared],
      by simp [Zval.meaning, atOwn], rfl, by simp⟩
  · next shared owner own =>
    simp only [decide_eq_true_eq] at stays
    subst stays
    exact ⟨_, .closure shared.source, rfl, rfl, rfl, rfl, by simp⟩
  · next shared own hasStream =>
    simp only [decide_eq_true_eq] at stays
    exact ⟨_, .socket shared.bsdSocket, rfl, rfl, by simp [Zval.meaning, stays], rfl, by simp⟩
  · next shared owner own =>
    simp only [decide_eq_true_eq] at stays
    obtain ⟨-, rfl⟩ := stays
    exact ⟨_, .string shared.bytes, rfl, rfl, rfl, rfl, by simp⟩
  · simp at stays

theorem Connection.valid_of_cached {key : Key} (cached : connection.cached key = some value) :
    validLocalCacheItem value = true :=
  (Option.filter_eq_some_iff.mp cached).2

theorem Connection.keepsAny_iff {test : Zval → Bool} :
    connection.keepsAny test = true ↔ ∃ value, connection.Keeps value ∧ test value = true := by
  unfold Connection.keepsAny
  constructor
  · intro isKept
    rcases (Bool.or_eq_true _ _).mp isKept with inTable | waits
    · obtain ⟨table, isTable, isKept⟩ := (Option.any_eq_true _ _).mp inTable
      obtain ⟨⟨key, value⟩, isIn, passes⟩ := List.any_eq_true.mp isKept
      exact ⟨value, Or.inl ⟨table, key, isTable, OrderedTable.find_eq_some_iff.mpr isIn⟩, passes⟩
    · split at waits
      · next key value waiting => exact ⟨value, Or.inr ⟨key, waiting⟩, waits⟩
      · cases waits
  · rintro ⟨value, ⟨table, key, isTable, isThere⟩ | ⟨key, waiting⟩, passes⟩
    · have isIn := OrderedTable.find_eq_some_iff.mp isThere
      simp only [isTable, Option.any_some, Bool.or_eq_true, List.any_eq_true]
      exact Or.inl ⟨(key, value), isIn, passes⟩
    · simp [waiting, passes]

theorem Connection.holds_eq_keepsAny (address : Nat) :
    connection.holds address = connection.keepsAny (refersTo address) :=
  rfl

theorem Connection.holdsClosure_of_cached {key : Key} {closure : Closure}
    (cached : connection.cached key = some (.closure closure)) :
    connection.holdsClosure closure.pointer = true :=
  Connection.keepsAny_iff.mpr ⟨_, Connection.keeps_of_cached cached, by simp [isClosure]⟩

theorem syncedForRead_cached (registry : Registry) (props : Props) (connection : Connection)
    (key : Key) :
    (syncedForRead registry props connection).cached key =
      if connection.localPropsModcount = props.modcount then connection.cached key
      else (connection.cached key).filter
        (staysCached registry connection.owner (props.hash.find key)) := by
  unfold syncedForRead
  split
  · exact syncLocalProperties_cached registry props connection key
  · next noTable =>
    have empty : connection.cached key = none := by
      have isNone : connection.properties = none := by simpa using noTable
      simp [Connection.cached, isNone]
    simp [empty]

/-- Nothing that the connection shows has been freed. -/
structure Readable (memory : Memory) (props : Props) (connection : Connection) : Prop where
  sound : Sound memory.registry
  stored : ∀ key address, props.hash.find key = some (.pthreads address) →
    SettledAt memory.registry address
  held : ∀ key value, connection.cached key = some value → SettledValue memory.registry value
  closures : ∀ pointer, connection.holdsClosure pointer = true →
    memory.freedClosures pointer = false

/-- Without an entry in the local table a read shows the storage. -/
theorem readLater_of_uncached (readable : Readable memory props connection)
    (available : Available memory.registry fresh.newAddress fresh.newTs) {key : KeyZval}
    (uncached : (syncedForRead memory.registry props connection).cached (coerce key) = none) :
    readLater enumCases memory props connection key fresh =
      storageView enumCases memory connection.owner (coerce key)
        (props.hash.find (coerce key)) := by
  have uncached' := uncached
  rw [syncedForRead] at uncached'
  simp only [readLater, uncached, Option.isNone_none, true_and, storeRead, uncached']
  cases stored : props.hash.find (coerce key) with
  | none => simp [storageView, ReadOutcome.seen]
  | some storage =>
      have isNone := restored_isNone enumCases memory.registry connection.owner storage
      simp only [storageView, Option.any_some]
      split
      · rfl
      · split
        · next isUnloadable =>
          rw [isUnloadable, Option.isNone_iff_eq_none] at isNone
          rw [isNone]
          rfl
        · next isLoadable =>
          have seen := @restoreZval_seen enumCases memory.registry connection.owner fresh storage
            readable.sound available
            (fun address isHandle => readable.stored (coerce key) address (isHandle ▸ stored))
          have isSome : (storage.restored enumCases memory.registry connection.owner).isSome = true := by
            rw [← Option.not_isNone, isNone]
            simpa using isLoadable
          obtain ⟨meaning, isMeaning⟩ := Option.isSome_iff_exists.mp isSome
          simp only [ne_eq, not_true_eq_false, false_and, and_false, if_false, Option.map_map]
          have shown := congrArg (Option.map Seen.value) seen
          rw [Option.map_map, Option.map_map, isMeaning] at shown
          rw [isMeaning]
          exact shown

theorem readLater_eq_view (readable : Readable memory props connection)
    (available : Available memory.registry fresh.newAddress fresh.newTs) (key : KeyZval) :
    readLater enumCases memory props connection key fresh =
      view enumCases memory props connection (coerce key) := by
  have synced := syncedForRead_cached memory.registry props connection (coerce key)
  cases cached : (syncedForRead memory.registry props connection).cached (coerce key) with
  | none =>
      rw [readLater_of_uncached readable available cached, view]
      split
      · next value inTable =>
        obtain ⟨inSync, isCached⟩ := Option.ite_none_right_eq_some.mp inTable
        rw [if_pos inSync, isCached, cached] at synced
        cases synced
      · rfl
  | some value =>
      have shown : readLater enumCases memory props connection key fresh =
          some (.value (value.meaning memory.registry)) := by
        have cached' := cached
        rw [syncedForRead] at cached'
        simp [readLater, cached, storeRead, cached', ReadOutcome.seen]
      rw [shown, view]
      split
      · next other inTable =>
        obtain ⟨inSync, isCached⟩ := Option.ite_none_right_eq_some.mp inTable
        rw [if_pos inSync, isCached, cached] at synced
        cases synced
        rfl
      · next notTrusted =>
        -- the table is outdated, and the sync has kept the entry
        have outdated : connection.localPropsModcount ≠ props.modcount := by
          intro inSync
          rw [if_pos inSync] at synced notTrusted
          rw [notTrusted, cached] at synced
          cases synced
        rw [if_neg outdated, cached] at synced
        obtain ⟨isCached, stays⟩ := Option.filter_eq_some_iff.mp synced.symm
        obtain ⟨found, meaning, isFound, restored, sameMeaning, isCacheable, isClosure⟩ :=
          @restored_of_staysCached enumCases memory.registry connection.owner value
            (props.hash.find (coerce key))
            (readable.held (coerce key) value isCached)
            (Connection.valid_of_cached isCached) stays connection.owner
        have safe : memory.dangling (coerce key) found = false := by
          cases found with
          | closure closure owner =>
              cases isClosure closure owner rfl
              exact readable.closures _ (Connection.holdsClosure_of_cached isCached)
          | enumCase className memberName => simp [storageIsCacheable] at isCacheable
          | _ => rfl
        rw [isFound, storageView, safe, restored, sameMeaning]
        rfl

end Reading

theorem Storage.restored_congr {first second : Registry} {storage : Storage}
    (same : ∀ address, storage = .pthreads address →
      first.zobjs address = second.zobjs address) (enumCases : EnumCases) (thread : Nat) :
    storage.restored enumCases first thread = storage.restored enumCases second thread := by
  cases storage with
  | pthreads address =>
      simp only [Storage.restored, Storage.meaning, tsObjAt, same address rfl]
  | _ => rfl

section Reads

variable {enumCases : EnumCases} {memory memory' : Memory} {props props' : Props}
  {connection connection' : Connection}

theorem readsAlike_of_views (readable : Readable memory props connection)
    (readable' : Readable memory' props' connection')
    (same : ∀ key, view enumCases memory props connection key =
      view enumCases memory' props' connection' key) :
    ReadsAlike enumCases memory memory' props props' connection connection' := by
  intro key first second available available'
  rw [readLater_eq_view readable available, readLater_eq_view readable' available']
  exact same (coerce key)

/-- Every key can be read: a string that is numeric as the string form of another value. -/
theorem coerce_surjective (key : Key) : ∃ given, coerce given = key := by
  cases key with
  | long value => exact ⟨.long value, rfl⟩
  | string bytes => exact ⟨.other bytes, rfl⟩

theorem ReadsAlike.views
    (alike : ReadsAlike enumCases memory memory' props props' connection connection')
    (readable : Readable memory props connection)
    (readable' : Readable memory' props' connection') (room : Roomy memory.registry)
    (room' : Roomy memory'.registry) (key : Key) :
    view enumCases memory props connection key =
      view enumCases memory' props' connection' key := by
  obtain ⟨newAddress, newTs, available⟩ := room
  obtain ⟨newAddress', newTs', available'⟩ := room'
  obtain ⟨given, rfl⟩ := coerce_surjective key
  have same := alike given ⟨0, newAddress, newTs⟩ ⟨0, newAddress', newTs'⟩ available available'
  rw [readLater_eq_view readable available, readLater_eq_view readable' available'] at same
  exact same

end Reads

/-- What the two memories have in common of the state that the merges left: what was
written is still there, what stands under other keys is there in both or in neither, and
so is what the local tables show. -/
structure Outlasts (setting : Setting) (registry : Registry) (merged : Merged)
    (state : WrittenAll) (other : Connection) (direct array : Memory) : Prop where
  written : ∀ key ∈ merged.written, ∀ address,
    setting.source.hash.find key = some (.pthreads address) →
      direct.registry.zobjs address = registry.zobjs address ∧
        array.registry.zobjs address = registry.zobjs address
  kept : ∀ key, key ∉ merged.written → ∀ address,
    setting.destination.hash.find key = some (.pthreads address) →
      direct.registry.zobjs address = array.registry.zobjs address
  stays : ∀ key, key ∉ merged.written → ∀ address,
    setting.destination.hash.find key = some (.pthreads address) →
      setting.connection.localPropsModcount ≠ setting.destination.modcount →
        merged.written ≠ [] → setting.syncedTable.cached key ≠ none →
          array.registry.zobjs address = registry.zobjs address
  held : ∀ value, setting.connection.Keeps value ∨ other.Keeps value → ∀ address,
    refersTo address value = true → direct.registry.zobjs address = registry.zobjs address ∧
      array.registry.zobjs address = registry.zobjs address
  entered : ∀ value, state.connection.Keeps value → ∀ address,
    refersTo address value = true → array.registry.zobjs address = registry.zobjs address
  safe : ∀ key ∈ merged.written, ∀ storage,
    (merged.props.hash.find key = some storage → direct.dangling key storage = false) ∧
      (state.props.hash.find key = some storage → array.dangling key storage = false)
  keptSafe : ∀ key, key ∉ merged.written → ∀ storage,
    setting.destination.hash.find key = some storage →
      direct.dangling key storage = array.dangling key storage

section Agreement

variable {setting : Setting} {registry : Registry} {table : OrderedTable Key Zval}
  {pointers : Key → Nat} {merged : Merged} {state : WrittenAll} {other : Connection}
  {fresh : Key → Fresh} {direct array : Memory}

theorem Twin.storageView_eq (twin : Twin setting registry table pointers merged state)
    (outlasts : Outlasts setting registry merged state other direct array)
    (enumCases : EnumCases) (reader : Nat) (key : Key) :
    storageView enumCases direct reader key (merged.props.hash.find key) =
      storageView enumCases array reader key (state.props.hash.find key) := by
  by_cases isWritten : key ∈ merged.written
  · obtain ⟨storage, value, saved, here⟩ := twin.written key isWritten
    have restored := here.savedAs.restored enumCases reader (pointers key) direct.registry
      array.registry (by
        rintro address rfl
        exact outlasts.written key isWritten address here.source)
    rw [here.direct, here.array]
    simp only [storageView, (outlasts.safe key isWritten _).1 here.direct,
      (outlasts.safe key isWritten _).2 here.array, restored]
  · have here := twin.unwritten key isWritten
    cases stored : setting.destination.hash.find key with
    | none => rw [here.direct, here.array, stored]; rfl
    | some storage =>
        have alike : ∀ address, storage = .pthreads address →
            direct.registry.zobjs address = array.registry.zobjs address := by
          rintro address rfl
          exact outlasts.kept key isWritten address stored
        rw [here.direct, here.array, stored]
        simp only [storageView, outlasts.keptSafe key isWritten storage stored,
          Storage.restored_congr alike enumCases reader]

/-- A value that was held before the merges has the same meaning in both
memories. -/
theorem Outlasts.meaning_eq (outlasts : Outlasts setting registry merged state other direct array)
    {value : Zval} (held : setting.connection.Keeps value ∨ other.Keeps value) :
    value.meaning direct.registry = value.meaning array.registry := by
  apply meaning_congr
  intro address refers
  obtain ⟨isDirect, isArray⟩ := outlasts.held value held address refers
  rw [isDirect, isArray]

/-- A written key through the connection of the merge: the direct way shows the
storage, the other one what it entered in the local table. -/
theorem Twin.view_written (twin : Twin setting registry table pointers merged state)
    (consistent : setting.Consistent) (regular : setting.Regular fresh)
    (extended : Extends (setting.Places fresh) setting.registry registry) (tidy : setting.Tidy)
    (outlasts : Outlasts setting registry merged state other direct array)
    (enumCases : EnumCases) {key : Key} (isWritten : key ∈ merged.written) :
    view enumCases array state.props state.connection key =
      storageView enumCases array state.connection.owner key (state.props.hash.find key) := by
  obtain ⟨storage, value, saved, here⟩ := twin.written key isWritten
  have synced := twin.synced (List.ne_nil_of_mem isWritten)
  rw [view, if_pos synced, here.entered]
  by_cases retained : retainInLocalCache value = true
  · have isEntered := here.entered.trans (if_pos retained)
    obtain ⟨meaning, restored, isMeaning⟩ := here.savedAs.kept retained enumCases
      state.connection.owner array.registry
      (by
        rintro address rfl
        exact (outlasts.written key isWritten address here.source).2)
      (outlasts.entered value (Connection.keeps_of_cached isEntered))
    rw [if_pos retained, here.array]
    simp only [storageView, (outlasts.safe key isWritten saved).2 here.array, restored, isMeaning]
    rfl
  · have notRetained : storageRetained setting.registry storage = false := by
      rw [← consistent.storageRetained_eq regular extended here.source, ← here.savedAs.retained]
      simpa using retained
    rw [if_neg retained, tidy key storage here.writes here.source notRetained]

/-- An entry that the array path has kept when it synced the local table shows
what the storage is restored to. -/
theorem Twin.view_kept (twin : Twin setting registry table pointers merged state)
    (consistent : setting.Consistent) (regular : setting.Regular fresh)
    (extended : Extends (setting.Places fresh) setting.registry registry)
    (outlasts : Outlasts setting registry merged state other direct array)
    (readable : Readable array state.props state.connection)
    (settled : ∀ value, setting.connection.Keeps value → SettledValue registry value)
    (enumCases : EnumCases) {key : Key} (isUnwritten : key ∉ merged.written)
    (outdated : setting.connection.localPropsModcount ≠ setting.destination.modcount) :
    view enumCases array state.props state.connection key =
      storageView enumCases array state.connection.owner key (state.props.hash.find key) := by
  have here := twin.unwritten key isUnwritten
  rw [view]
  split
  · next value inTable =>
    obtain ⟨inSync, isCached⟩ := Option.ite_none_right_eq_some.mp inTable
    have notEmpty : merged.written ≠ [] := by
      intro isEmpty
      obtain ⟨same, count⟩ := twin.untouched isEmpty
      rw [same, count] at inSync
      exact outdated inSync
    have isLeft := twin.left_cached consistent regular extended notEmpty isUnwritten
    rcases here.synced with ⟨current | isEmpty, -⟩ | ⟨-, filtered⟩
    · exact absurd current outdated
    · exact absurd isEmpty notEmpty
    · rw [isCached] at filtered
      obtain ⟨wasCached, stays⟩ := Option.filter_eq_some_iff.mp filtered.symm
      have keeps := Connection.keeps_of_cached wasCached
      obtain ⟨found, meaning, isFound, restored, isMeaning, isCacheable, isClosure⟩ :=
        @restored_of_staysCached enumCases registry setting.connection.owner value
          (setting.destination.hash.find key) (settled value keeps)
          (Connection.valid_of_cached wasCached) stays state.connection.owner
      have alike : ∀ address, found = .pthreads address →
          array.registry.zobjs address = registry.zobjs address := by
        rintro address rfl
        apply outlasts.stays key isUnwritten address isFound outdated notEmpty
        rw [← isLeft, isCached]
        simp
      have safe : array.dangling key found = false := by
        cases found with
        | closure closure owner =>
            cases isClosure closure owner rfl
            exact readable.closures _ (Connection.holdsClosure_of_cached isCached)
        | enumCase className memberName => cases isCacheable
        | _ => rfl
      have sameMeaning : value.meaning array.registry = value.meaning registry :=
        meaning_congr fun address refers => (outlasts.held value (Or.inl keeps) address refers).2
      rw [here.array, isFound]
      simp only [storageView, safe, Storage.restored_congr alike enumCases, restored, sameMeaning,
        isMeaning]
      rfl
  · rfl

/-- The connection of the merge after the direct way. -/
theorem Twin.view_direct (twin : Twin setting registry table pointers merged state)
    (counts : setting.connection.localPropsModcount ≤ setting.destination.modcount)
    (enumCases : EnumCases) (memory : Memory) (key : Key) :
    view enumCases memory (bumpModcount merged.overwrote merged.props merged.connection).1
        (bumpModcount merged.overwrote merged.props merged.connection).2 key =
      match if setting.connection.localPropsModcount = setting.destination.modcount then
        merged.connection.cached key else none with
      | some value => some (.value (value.meaning memory.registry))
      | none => storageView enumCases memory setting.connection.owner key
          (merged.props.hash.find key) := by
  have below : merged.connection.localPropsModcount ≤ merged.props.modcount := by
    rw [twin.count, twin.modcount]
    exact counts
  have bumped := bumpModcount_bumped merged.overwrote merged.props merged.connection below
  simp only [view, bumped.inSync, bumped.cached, bumped.hash, bumped.owner, twin.count,
    twin.modcount, twin.mergedOwner]

/-- The connection of the merge shows the same on both ways. -/
theorem Twin.view_eq (twin : Twin setting registry table pointers merged state)
    (consistent : setting.Consistent) (regular : setting.Regular fresh)
    (extended : Extends (setting.Places fresh) setting.registry registry) (tidy : setting.Tidy)
    (outlasts : Outlasts setting registry merged state other direct array)
    (readable : Readable array state.props state.connection)
    (settled : ∀ value, setting.connection.Keeps value → SettledValue registry value)
    (enumCases : EnumCases) (key : Key) :
    view enumCases direct (bumpModcount merged.overwrote merged.props merged.connection).1
        (bumpModcount merged.overwrote merged.props merged.connection).2 key =
      view enumCases array state.props state.connection key := by
  have stored := twin.storageView_eq outlasts enumCases setting.connection.owner key
  rw [twin.view_direct consistent.counts]
  by_cases isWritten : key ∈ merged.written
  · obtain ⟨storage, value, saved, here⟩ := twin.written key isWritten
    rw [twin.view_written consistent regular extended tidy outlasts enumCases isWritten,
      twin.owner, ← stored, here.evicted]
    simp
  · have here := twin.unwritten key isWritten
    by_cases current : setting.connection.localPropsModcount = setting.destination.modcount
    · have inSync : state.connection.localPropsModcount = state.props.modcount := by
        by_cases isEmpty : merged.written = []
        · obtain ⟨same, count⟩ := twin.untouched isEmpty
          rw [same, count]
          exact current
        · exact twin.synced isEmpty
      have sameTable : state.connection.cached key = setting.connection.cached key := by
        rcases here.synced with ⟨-, same⟩ | ⟨outdated, -⟩
        · exact same
        · exact absurd current outdated
      rw [view, if_pos inSync, if_pos current, sameTable, here.kept, twin.owner]
      cases cached : setting.connection.cached key with
      | none => exact stored
      | some value =>
          have keeps := Connection.keeps_of_cached cached
          simp only [outlasts.meaning_eq (Or.inl keeps)]
    · rw [twin.view_kept consistent regular extended outlasts readable settled enumCases isWritten
        current, if_neg current, twin.owner]
      exact stored

/-- So does every other connection. -/
theorem Twin.view_other (twin : Twin setting registry table pointers merged state)
    (outlasts : Outlasts setting registry merged state other direct array)
    (counts : other.localPropsModcount ≤ setting.destination.modcount)
    (enumCases : EnumCases) (key : Key) :
    view enumCases direct (bumpModcount merged.overwrote merged.props merged.connection).1 other
        key =
      view enumCases array state.props other key := by
  have moved := bumpModcount_modcount merged.overwrote merged.props merged.connection
  have sameHash : (bumpModcount merged.overwrote merged.props merged.connection).1.hash =
      merged.props.hash := by
    unfold bumpModcount
    split <;> rfl
  have inSync : other.localPropsModcount =
      (bumpModcount merged.overwrote merged.props merged.connection).1.modcount ↔
        other.localPropsModcount = state.props.modcount := by
    have grows := twin.grows
    have overwrote := twin.overwrote
    rw [moved, twin.modcount]
    cases isOverwritten : merged.overwrote with
    | false =>
        have unmoved : state.props.modcount = setting.destination.modcount := by
          simpa [isOverwritten] using overwrote
        simp [unmoved]
    | true =>
        have isMoved := overwrote.mp isOverwritten
        simp only [if_true]
        omega
  have stored := twin.storageView_eq outlasts enumCases other.owner key
  simp only [view, inSync, sameHash]
  split
  · next value inTable =>
    obtain ⟨-, isCached⟩ := Option.ite_none_right_eq_some.mp inTable
    rw [outlasts.meaning_eq (Or.inr (Connection.keeps_of_cached isCached))]
  · exact stored

/-- Apart from strings, the direct way leaves the storages of the source and of the
destination as they were. -/
theorem Twin.stores_direct (twin : Twin setting registry table pointers merged state) {key : Key}
    {address : Nat} (found : merged.props.hash.find key = some (.pthreads address)) :
    setting.Stores (.pthreads address) := by
  by_cases isWritten : key ∈ merged.written
  · obtain ⟨source, value, saved, here⟩ := twin.written key isWritten
    rw [here.direct, Option.some.injEq] at found
    cases source with
    | pthreads handle =>
        cases found
        exact Or.inr ⟨key, here.source⟩
    | _ => cases found
  · rw [(twin.unwritten key isWritten).direct] at found
    exact Or.inl ⟨key, found⟩

theorem Twin.stores_array (twin : Twin setting registry table pointers merged state) {key : Key}
    {address : Nat} (found : state.props.hash.find key = some (.pthreads address)) :
    setting.Stores (.pthreads address) := by
  by_cases isWritten : key ∈ merged.written
  · obtain ⟨storage, value, saved, here⟩ := twin.written key isWritten
    rw [here.array, Option.some.injEq] at found
    have same := here.savedAs.handle address found
    exact Or.inr ⟨key, same ▸ here.source⟩
  · rw [(twin.unwritten key isWritten).array] at found
    exact Or.inl ⟨key, found⟩

end Agreement

end Pthreads.Store
