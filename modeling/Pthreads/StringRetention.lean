import Pthreads.StoreTargets

/-!
# Who keeps the strings that storages point to

A `STORE_TYPE_STRING_PTR` storage points to a string of the thread that wrote it
and has no reference of its own.  The string lives as long as that thread's local
table holds it.  The stored string is found behind references and indirect
slots, the cached value is not, so a write through one of these stores a pointer
that nobody keeps.
-/

namespace Pthreads.Store

open ObjectRegistry GuardedRuns

/-- The local table holds the string under the key. -/
def Connection.Has (connection : Connection) (key : Key) (string : ZString) : Prop :=
  connection.properties.bind (fun table => table.find key) = some (.string string)

/-- The table holds the string, and the pending work does not take it away. -/
structure Connection.Retains (connection : Connection) (key : Key) (string : ZString) : Prop where
  has : connection.Has key string
  notEvicted : connection.pending ≠ some (.evict key)
  notReplaced : ∀ value, connection.pending = some (.update key value) → value = .string string

theorem Connection.Has.retains {connection : Connection} {key : Key} {string : ZString}
    (has : connection.Has key string) (idle : connection.pending = none) :
    connection.Retains key string :=
  ⟨has, by simp [idle], by simp [idle]⟩

/-- The value is a reference or a slot that leads to a string. -/
def wrapsString : Zval → Bool
  | .reference (.string _) | .indirect (.string _) => true
  | .reference target => wrapsString target
  | .indirect slot => wrapsString slot
  | _ => false

/-- What an operation does to the storages that point to strings: each was there,
and is still retained if it was, or the operation has just made it. -/
structure KeepsStrings (writes : Bool) (props : Props) (connection : Connection) (props' : Props)
    (connection' : Connection) : Prop where
  owner : connection'.owner = connection.owner
  strings : ∀ key string owner, props'.hash.find key = some (.stringPtr string owner) →
    (props.hash.find key = some (.stringPtr string owner) ∧
      (owner = connection.owner → connection.Has key string → connection'.Retains key string)) ∨
    (owner = connection.owner ∧ (connection'.Retains key string ∨
      (writes = true ∧ connection'.pending = some (.update key (.string string)))))

section Operations

variable {declared : List Key} {enumCases : EnumCases} {registry : Registry} {props : Props}
  {connection : Connection} {key : Key} {string : ZString}

/-- The operation leaves the shared table as it is, or takes storages out of it. -/
theorem keepsStrings_of_fewer {writes : Bool} {props' : Props} {connection' : Connection}
    (owner : connection'.owner = connection.owner)
    (fewer : ∀ key string owner, props'.hash.find key = some (.stringPtr string owner) →
      props.hash.find key = some (.stringPtr string owner) ∧
        (owner = connection.owner → connection.Has key string →
          connection'.Retains key string)) :
    KeepsStrings writes props connection props' connection' :=
  ⟨owner, fun key string owner isStored => Or.inl (fewer key string owner isStored)⟩

theorem KeepsStrings.refl (writes : Bool) (idle : connection.pending = none) :
    KeepsStrings writes props connection props connection :=
  keepsStrings_of_fewer rfl fun _ _ _ isStored => ⟨isStored, fun _ has => has.retains idle⟩

theorem KeepsStrings.trans {writes first : Bool} {props₁ props₂ : Props}
    {connection₁ connection₂ : Connection}
    (earlier : KeepsStrings first props connection props₁ connection₁)
    (idle : connection₁.pending = none)
    (later : KeepsStrings writes props₁ connection₁ props₂ connection₂) :
    KeepsStrings writes props connection props₂ connection₂ := by
  refine ⟨later.owner.trans earlier.owner, ?_⟩
  intro key string owner isStored
  rcases later.strings key string owner isStored with ⟨wasStored, retained⟩ | ⟨isOwner, made⟩
  · rw [earlier.owner] at retained
    rcases earlier.strings key string owner wasStored with ⟨before, wasRetained⟩ | ⟨isOwner, made⟩
    · exact Or.inl ⟨before, fun isOwner has => retained isOwner (wasRetained isOwner has).has⟩
    · rcases made with isRetained | ⟨-, waiting⟩
      · exact Or.inr ⟨isOwner, Or.inl (retained isOwner isRetained.has)⟩
      · rw [idle] at waiting
        cases waiting
  · exact Or.inr ⟨isOwner.trans earlier.owner, made⟩

/-- The sync keeps the strings that the storages of the own thread point to. -/
theorem Connection.Has.sync (registry : Registry) (has : connection.Has key string)
    (isStored : props.hash.find key = some (.stringPtr string connection.owner)) :
    (syncLocalProperties registry props connection).Has key string := by
  unfold syncLocalProperties
  split
  · exact has
  · obtain ⟨table, isTable, isThere⟩ := Option.bind_eq_some_iff.mp has
    simp [Connection.Has, isTable, OrderedTable.find_filter, isThere, isStored, staysCached,
      deindirect]

theorem Connection.Has.prepared (declared : List Key) (has : connection.Has key string) :
    (prepared declared connection).Has key string := by
  obtain ⟨table, isTable, isThere⟩ := Option.bind_eq_some_iff.mp has
  simp [Connection.Has, Store.prepared, initLocalProperties, isTable, isThere]

theorem Connection.Has.cached (has : connection.Has key string) :
    connection.cached key = some (.string string) := by
  unfold Connection.Has at has
  simp [Connection.cached, has, validLocalCacheItem]

theorem Connection.Has.evict {other : Key} (has : connection.Has key string)
    (different : key ≠ other) : (evictLocalProperty connection other).Has key string := by
  obtain ⟨table, isTable, isThere⟩ := Option.bind_eq_some_iff.mp has
  simp [Connection.Has, evictLocalProperty, isTable,
    OrderedTable.find_delete_other _ different, isThere]

theorem syncLocalProperties_owner (registry : Registry) (props : Props) (connection : Connection) :
    (syncLocalProperties registry props connection).owner = connection.owner :=
  (syncLocalProperties_synced registry props connection).owner

theorem syncLocalProperties_pending (registry : Registry) (props : Props)
    (connection : Connection) :
    (syncLocalProperties registry props connection).pending = connection.pending :=
  (syncLocalProperties_synced registry props connection).pending

/-- What is retained once the pending work is done. -/
theorem Connection.Retains.finish (declared : List Key)
    (retains : connection.Retains key string) :
    (finishPending declared connection).Retains key string := by
  refine Connection.Has.retains ?_ (finishPending_pending declared connection)
  obtain ⟨has, notEvicted, notReplaced⟩ := retains
  obtain ⟨table, isTable, isThere⟩ := Option.bind_eq_some_iff.mp has
  unfold finishPending
  split
  · exact has
  · next other value waiting =>
    unfold updateLocalProperty
    split
    · by_cases same : key = other
      · subst same
        simp [Connection.Has, notReplaced value waiting]
      · simp [Connection.Has, initLocalProperties, isTable,
          OrderedTable.find_update_other _ _ same, isThere]
    · exact has
  · next other waiting =>
    apply has.evict
    rintro rfl
    exact notEvicted waiting

theorem finishPending_has_written (declared : List Key)
    (waiting : connection.pending = some (.update key (.string string))) :
    (finishPending declared connection).Retains key string := by
  refine Connection.Has.retains ?_ (finishPending_pending declared connection)
  simp [finishPending, waiting, updateLocalProperty, retainInLocalCache, Connection.Has]

theorem KeepsStrings.finish {writes : Bool} {props' : Props} {connection' : Connection}
    (keeps : KeepsStrings writes props connection props' connection') :
    KeepsStrings false props connection props' (finishPending declared connection') := by
  refine ⟨(finishPending_owner declared connection').trans keeps.owner, ?_⟩
  intro key string owner isStored
  rcases keeps.strings key string owner isStored with ⟨wasStored, retained⟩ | ⟨isOwner, made⟩
  · exact Or.inl ⟨wasStored, fun isOwner has => (retained isOwner has).finish declared⟩
  · refine Or.inr ⟨isOwner, Or.inl ?_⟩
    rcases made with retained | ⟨-, waiting⟩
    · exact retained.finish declared
    · exact finishPending_has_written declared waiting

theorem storeRead_keepsStrings {registry' : Registry} {connection' : Connection} {read : KeyZval}
    {type : AccessType} {fresh : Fresh} {outcome : ReadOutcome}
    (idle : connection.pending = none)
    (reading : storeRead enumCases registry props connection read type fresh =
      some (registry', connection', outcome)) :
    KeepsStrings false props connection props connection' := by
  have syncs : ∀ key string, props.hash.find key = some (.stringPtr string connection.owner) →
      connection.Has key string → (if connection.properties.isSome then
        syncLocalProperties registry props connection else connection).Has key string := by
    intro key string isStored has
    split
    · exact has.sync registry isStored
    · exact has
  obtain ⟨synced, isSynced, reads⟩ := storeRead_cases reading
  rw [← isSynced] at syncs
  have owner : synced.owner = connection.owner := by
    rw [isSynced]
    split
    · exact syncLocalProperties_owner registry props connection
    · rfl
  have pending : synced.pending = none := by
    rw [isSynced]
    split
    · exact (syncLocalProperties_pending registry props connection).trans idle
    · exact idle
  have unchanged : KeepsStrings false props connection props synced := by
    apply keepsStrings_of_fewer owner
    rintro key string _ isStored
    refine ⟨isStored, ?_⟩
    rintro rfl has
    exact (syncs key string isStored has).retains pending
  rcases reads with ⟨-, rfl⟩ | ⟨storage, value, absent, -, -, rfl⟩
  · exact unchanged
  · refine keepsStrings_of_fewer owner ?_
    rintro key string _ isStored
    refine ⟨isStored, ?_⟩
    rintro rfl has
    -- a string that the table holds would have been found there
    have isThere := syncs key string isStored has
    have different : coerce read ≠ key := by
      rintro rfl
      rw [isThere.cached] at absent
      cases absent
    exact ⟨isThere, by simp, by simp [different]⟩

theorem storeCreate_stringPtr {source owner : Nat} :
    ∀ value : Zval, storeCreate registry source value = some (.stringPtr string owner) →
      owner = source ∧ (value = .string string ∨ wrapsString value = true)
  | .string text, created => by
      cases created
      exact ⟨rfl, Or.inl rfl⟩
  | .reference target, created => by
      obtain ⟨isOwner, rfl | wraps⟩ := storeCreate_stringPtr target created
      · exact ⟨isOwner, Or.inr rfl⟩
      · refine ⟨isOwner, Or.inr ?_⟩
        cases target <;> first | exact wraps | rfl
  | .indirect slot, created => by
      obtain ⟨isOwner, rfl | wraps⟩ := storeCreate_stringPtr slot created
      · exact ⟨isOwner, Or.inr rfl⟩
      · refine ⟨isOwner, Or.inr ?_⟩
        cases slot <;> first | exact wraps | rfl
  | .threaded address, created => by
      obtain ⟨zobj, -, ⟨⟩⟩ := Option.map_eq_some_iff.mp created
  | .socket socket hasStream, created => by
      cases hasStream <;> cases created

/-- A storage points to a string only when the written value is that string, or
leads to it. -/
theorem saveZval_stringPtr {source owner : Nat} {value : Zval}
    (notWrapped : wrapsString value = false)
    (saved : saveZval registry source value = some (.stringPtr string owner)) :
    owner = source ∧ value = .string string := by
  have created : storeCreate registry source value = some (.stringPtr string owner) := by
    cases value with
    | string text =>
        simp only [saveZval] at saved
        split at saved
        · cases saved
        · exact saved
    | null | bool | long | double => cases saved
    | _ => exact saved
  obtain ⟨isOwner, isString | wraps⟩ := storeCreate_stringPtr value created
  · exact ⟨isOwner, isString⟩
  · rw [notWrapped] at wraps
    cases wraps

theorem writtenValue_notWrapped {registry' : Registry} {thread : Nat} {value write : Zval}
    {coerceArrays : Bool} {fresh : Fresh} (notWrapped : wrapsString value = false)
    (written : writtenValue registry thread value coerceArrays fresh = some (registry', write)) :
    wrapsString write = false := by
  unfold writtenValue at written
  split at written
  · obtain ⟨-, rfl, -⟩ := coerceArray_eq written
    rfl
  · cases written
    exact notWrapped

theorem storeWrite_keepsStrings {written : Option KeyZval} {value : Zval} {coerceArrays : Bool}
    {fresh : Fresh} {result : Written}
    (notWrapped : wrapsString value = false)
    (wrote : storeWrite registry props connection written value coerceArrays fresh =
      some (some result)) :
    KeepsStrings true props connection result.props result.connection := by
  obtain ⟨storage, isWritten, saved, -, propsEq, connectionEq⟩ := storeWrite_eq wrote
  have notWrapped := writtenValue_notWrapped notWrapped isWritten
  obtain ⟨sameHash, sameOwner, sameTable, samePending⟩ := bumpModcount_eq
    (memberIsCacheable props result.member)
    { props with hash := props.hash.update result.member storage } connection
  have isStorage : ∀ key, result.props.hash.find key =
      if key = result.member then some storage else props.hash.find key := by
    intro key
    rw [propsEq, sameHash, find_hash_update]
  refine ⟨?_, ?_⟩
  · rw [connectionEq]
    exact (syncLocalProperties_owner _ _ _).trans sameOwner
  · intro key string owner isStored
    have wasStored := isStored
    rw [isStorage] at wasStored
    split at wasStored
    · next isMember =>
      cases wasStored
      obtain ⟨isOwner, isString⟩ := saveZval_stringPtr notWrapped saved
      refine Or.inr ⟨isOwner, Or.inr ⟨rfl, ?_⟩⟩
      rw [connectionEq, isMember, isString]
    · next different =>
      refine Or.inl ⟨wasStored, ?_⟩
      rintro rfl has
      have hasCounted : (bumpModcount (memberIsCacheable props result.member)
          { props with hash := props.hash.update result.member storage } connection).2.Has key
            string := by
        rw [Connection.Has, sameTable]
        exact has
      have hasSynced := hasCounted.sync result.registry (sameOwner.symm ▸ isStored)
      rw [connectionEq]
      exact ⟨hasSynced, by simp, by simp [Ne.symm different]⟩

theorem storeDelete_keepsStrings {deleted : KeyZval} (idle : connection.pending = none) :
    KeepsStrings false props connection (storeDelete props connection deleted).1
      (storeDelete props connection deleted).2.1 := by
  rcases storeDelete_cases props connection deleted with ⟨-, same⟩ | ⟨storage, _, -, rfl, same⟩
  · rw [same]
    exact KeepsStrings.refl false idle
  · obtain ⟨sameHash, sameOwner, sameTable, samePending⟩ := bumpModcount_eq
      (storageIsCacheable storage) { props with hash := props.hash.delete (coerce deleted) }
      connection
    rw [same]
    refine keepsStrings_of_fewer sameOwner ?_
    intro key string owner isStored
    rw [sameHash, find_hash_delete] at isStored
    split at isStored
    · cases isStored
    · next different =>
      refine ⟨isStored, fun _ has => ⟨?_, by simp [Ne.symm different], by simp⟩⟩
      rw [Connection.Has, sameTable]
      exact has

/-- Removing an element from both tables. -/
theorem keepsStrings_take (idle : connection.pending = none) (removed : Key) :
    KeepsStrings false props connection { props with hash := props.hash.delete removed }
      (evictLocalProperty connection removed) := by
  refine keepsStrings_of_fewer rfl ?_
  intro key string owner isStored
  simp only [find_hash_delete] at isStored
  split at isStored
  · cases isStored
  · next different =>
    exact ⟨isStored, fun _ has => (has.evict different).retains idle⟩

theorem KeepsStrings.bump {writes bump : Bool} {props' : Props} {connection' : Connection}
    (keeps : KeepsStrings writes props connection props' connection') :
    KeepsStrings writes props connection (bumpModcount bump props' connection').1
      (bumpModcount bump props' connection').2 := by
  obtain ⟨sameHash, sameOwner, sameTable, samePending⟩ := bumpModcount_eq bump props' connection'
  have sameRetained : ∀ key string, connection'.Retains key string →
      (bumpModcount bump props' connection').2.Retains key string := by
    intro key string ⟨has, notEvicted, notReplaced⟩
    refine ⟨?_, samePending.symm ▸ notEvicted, samePending.symm ▸ notReplaced⟩
    rw [Connection.Has, sameTable]
    exact has
  refine ⟨sameOwner.trans keeps.owner, ?_⟩
  intro key string owner isStored
  rw [sameHash] at isStored
  rcases keeps.strings key string owner isStored with ⟨wasStored, retained⟩ | ⟨isOwner, made⟩
  · exact Or.inl ⟨wasStored, fun isOwner has => sameRetained _ _ (retained isOwner has)⟩
  · refine Or.inr ⟨isOwner, ?_⟩
    rcases made with retained | ⟨isWrite, waiting⟩
    · exact Or.inl (sameRetained _ _ retained)
    · exact Or.inr ⟨isWrite, samePending.trans waiting⟩

theorem takeElement_keepsStrings {fresh : Key → Fresh} {entry : Key × Storage} {removed : Removed}
    (idle : connection.pending = none)
    (taken : takeElement enumCases registry props connection fresh entry = some removed) :
    KeepsStrings false props connection removed.props removed.connection ∧
      removed.connection.pending = none := by
  obtain ⟨_, -, rfl⟩ := Option.map_eq_some_iff.mp taken
  exact ⟨keepsStrings_take idle entry.1, idle⟩

theorem storeShift_keepsStrings {fresh : Key → Fresh} {removed : Removed}
    (idle : connection.pending = none)
    (shifted : storeShift enumCases registry props connection fresh = some removed) :
    KeepsStrings false props connection removed.props removed.connection := by
  rcases storeShift_cases shifted with ⟨-, rfl⟩ | ⟨entry, taken, -, isTaken, rfl⟩
  · exact KeepsStrings.refl false idle
  · exact (takeElement_keepsStrings idle isTaken).1.bump

theorem storePop_keepsStrings {fresh : Key → Fresh} {removed : Removed}
    (idle : connection.pending = none)
    (popped : storePop enumCases registry props connection fresh = some removed) :
    KeepsStrings false props connection removed.props removed.connection := by
  rcases storePop_cases popped with ⟨-, rfl⟩ | ⟨entry, taken, -, isTaken, rfl⟩
  · exact KeepsStrings.refl false idle
  · exact (takeElement_keepsStrings idle isTaken).1.bump

theorem takeFront_keepsStrings {fresh : Key → Fresh} {count : Nat} {removed : Removed}
    (idle : connection.pending = none)
    (taken : takeFront enumCases registry props connection fresh count = some removed) :
    KeepsStrings false props connection removed.props removed.connection := by
  induction count generalizing registry props connection removed with
  | zero =>
      cases taken
      exact KeepsStrings.refl false idle
  | succ count ih =>
      rcases takeFront_succ_cases taken with ⟨-, rfl⟩ |
        ⟨entry, others, first, rest, -, isFirst, isRest, rfl⟩
      · exact KeepsStrings.refl false idle
      · obtain ⟨keeps, isIdle⟩ := takeElement_keepsStrings idle isFirst
        have later := ih isIdle isRest
        exact keeps.trans isIdle later

theorem storeChunk_keepsStrings {fresh : Key → Fresh} {size : Int} {removed : Removed}
    (idle : connection.pending = none)
    (chunked : storeChunk enumCases registry props connection fresh size = some removed) :
    KeepsStrings false props connection removed.props removed.connection := by
  obtain ⟨taken, isTaken, rfl⟩ := Option.map_eq_some_iff.mp chunked
  exact (takeFront_keepsStrings idle isTaken).bump

theorem mergeStorage_keepsStrings (overwrite : Bool) (pointers : Key → Nat) (merged : Merged)
    (entry : Key × Storage) (idle : merged.connection.pending = none) :
    KeepsStrings false merged.props merged.connection
        (mergeStorage overwrite pointers merged entry).props
        (mergeStorage overwrite pointers merged entry).connection ∧
      (mergeStorage overwrite pointers merged entry).connection.pending = none := by
  unfold mergeStorage
  split
  · exact ⟨KeepsStrings.refl false idle, idle⟩
  · refine ⟨keepsStrings_of_fewer rfl ?_, idle⟩
    intro key string owner isStored
    simp only [find_hash_update] at isStored
    split at isStored
    · -- a copied storage has a copy of its string
      cases copied : entry.2 <;> simp [copied, hardCopyStorage] at isStored
    · next different =>
      exact ⟨isStored, fun _ has => (has.evict different).retains idle⟩

theorem foldl_mergeStorage_keepsStrings (overwrite : Bool) (pointers : Key → Nat)
    (source : List (Key × Storage)) (merged : Merged) (idle : merged.connection.pending = none) :
    KeepsStrings false merged.props merged.connection
      (source.foldl (mergeStorage overwrite pointers) merged).props
      (source.foldl (mergeStorage overwrite pointers) merged).connection := by
  induction source generalizing merged with
  | nil => exact KeepsStrings.refl false idle
  | cons entry source ih =>
      obtain ⟨keeps, isIdle⟩ := mergeStorage_keepsStrings overwrite pointers merged entry idle
      exact keeps.trans isIdle (ih _ isIdle)

theorem writeAndFinish_keepsStrings {state next : WrittenAll} {written : KeyZval} {value : Zval}
    {coerceArrays : Bool} {fresh : Fresh} (notWrapped : wrapsString value = false)
    (wrote : writeAndFinish declared state written value coerceArrays fresh = some (some next)) :
    KeepsStrings false state.props state.connection next.props next.connection ∧
      next.connection.pending = none := by
  obtain ⟨outcome, isWritten, finished⟩ := Option.map_eq_some_iff.mp wrote
  obtain ⟨one, rfl, rfl⟩ := Option.map_eq_some_iff.mp finished
  exact ⟨(storeWrite_keepsStrings notWrapped isWritten).finish,
    finishPending_pending declared one.connection⟩

/-- Elements that are present and not overwritten are skipped, also later in the
merge. -/
theorem storeMergeArray_keepsStrings {overwrite coerceArrays : Bool} {fresh : Key → Fresh}
    {source : List (Key × Zval)} {state result : WrittenAll}
    (idle : state.connection.pending = none)
    (notWrapped : ∀ element ∈ source, overwrite = true ∨
      state.props.hash.find element.1 = none → wrapsString element.2 = false)
    (merged : storeMergeArray declared overwrite coerceArrays fresh source state = some result) :
    KeepsStrings false state.props state.connection result.props result.connection := by
  have kept : (KeepsStrings false state.props state.connection result.props result.connection ∧
      result.connection.pending = none) ∧ ∀ element ∈ source, overwrite = true ∨
        result.props.hash.find element.1 = none → wrapsString element.2 = false := by
    apply @storeMergeArray_keeps declared (fun next =>
      (KeepsStrings false state.props state.connection next.props next.connection ∧
        next.connection.pending = none) ∧ ∀ element ∈ source, overwrite = true ∨
          next.props.hash.find element.1 = none → wrapsString element.2 = false)
      _ _ _ _ _ _ _ ?_ merged
    · rintro middle next ⟨⟨keeps, isIdle⟩, plain⟩ element isIn isWritten wrote
      obtain ⟨later, laterIdle⟩ :=
        writeAndFinish_keepsStrings (plain element isIn isWritten) wrote
      refine ⟨⟨keeps.trans isIdle later, laterIdle⟩, ?_⟩
      intro other isOther
      rintro (overwrites | absent)
      · exact plain other isOther (Or.inl overwrites)
      · refine plain other isOther (Or.inr ?_)
        have grows := ((writeAndFinish_keys wrote).2 other.1).mpr
        by_contra present
        have isSome := grows (Or.inr (Option.isSome_iff_ne_none.mpr present))
        simp [absent] at isSome
    · exact ⟨⟨KeepsStrings.refl false idle, idle⟩, notWrapped⟩
  exact kept.1.1

theorem baseInit_keepsStrings {fresh : Key → Fresh} {defaults : List (Key × Zval)}
    {state result : WrittenAll} (idle : state.connection.pending = none)
    (notWrapped : ∀ element ∈ defaults, wrapsString element.2 = false)
    (built : baseInit declared fresh defaults state = some result) :
    KeepsStrings false state.props state.connection result.props result.connection ∧
      result.connection.pending = none := by
  apply @baseInit_keeps declared (fun next =>
    KeepsStrings false state.props state.connection next.props next.connection ∧
      next.connection.pending = none) _ _ _ _ _ ⟨KeepsStrings.refl false idle, idle⟩ built
  rintro middle next ⟨keeps, isIdle⟩ element isIn wrote
  obtain ⟨later, laterIdle⟩ := writeAndFinish_keepsStrings (notWrapped element isIn) wrote
  exact ⟨keeps.trans isIdle later, laterIdle⟩

/-- Copying into the own table leaves the strings that it holds. -/
theorem foldlM_keeps_string {element : Copied → Key × Storage → Option Copied}
    (step : ∀ copied entry next, element copied entry = some next →
      copied.table.find key = some (.string string) → next.table.find key = some (.string string))
    {entries : List (Key × Storage)} {copied result : Copied}
    (copy : entries.foldlM element copied = some result)
    (isThere : copied.table.find key = some (.string string)) :
    result.table.find key = some (.string string) := by
  induction entries generalizing copied with
  | nil =>
      cases copy
      exact isThere
  | cons entry entries ih =>
      rw [List.foldlM_cons, Option.bind_eq_bind, Option.bind_eq_some_iff] at copy
      obtain ⟨next, isNext, copy⟩ := copy
      exact ih copy (step copied entry next isNext isThere)

theorem copyElement_keeps_string {thread : Nat} {fresh : Key → Fresh} {copied next : Copied}
    {entry : Key × Storage}
    (copy : copyElement enumCases thread none fresh copied entry = some next)
    (isThere : copied.table.find key = some (.string string)) :
    next.table.find key = some (.string string) := by
  simp only [copyElement, Option.getD_none, Option.isSome_none, Bool.false_eq_true, if_false]
    at copy
  split at copy
  · cases copy
    exact isThere
  · next absent =>
    obtain ⟨_, -, rfl⟩ := Option.map_eq_some_iff.mp copy
    have different : key ≠ entry.1 := by
      rintro rfl
      simp [isThere, validLocalCacheItem] at absent
    rw [OrderedTable.find_update_other _ _ different, isThere]

theorem fullSyncElement_keeps_string {thread : Nat} {fresh : Key → Fresh} {copied next : Copied}
    {entry : Key × Storage}
    (copy : fullSyncElement enumCases thread fresh copied entry = some next)
    (isThere : copied.table.find key = some (.string string)) :
    next.table.find key = some (.string string) := by
  simp only [fullSyncElement] at copy
  split at copy
  · cases copy
    exact isThere
  · next notCached =>
    obtain ⟨_, -, rfl⟩ := Option.map_eq_some_iff.mp copy
    have different : key ≠ entry.1 := by
      rintro rfl
      simp [isThere, validLocalCacheItem] at notCached
    rw [OrderedTable.find_update_other _ _ different, isThere]

theorem initLocalProperties_has (declared : List Key) (has : connection.Has key string) :
    (initLocalProperties declared connection).find key = some (.string string) := by
  obtain ⟨table, isTable, isThere⟩ := Option.bind_eq_some_iff.mp has
  simp [initLocalProperties, isTable, isThere]

theorem storeToHash_keepsStrings {fresh : Key → Fresh} {hash table : OrderedTable Key Zval}
    {registry' : Registry} {connection' : Connection} (idle : connection.pending = none)
    (copy : storeToHash enumCases declared registry props connection fresh hash =
      some (registry', connection', table)) :
    KeepsStrings false props connection props connection' := by
  obtain ⟨copied, rfl, -, rfl, rfl⟩ := storeToHash_eq copy
  refine keepsStrings_of_fewer (syncLocalProperties_owner _ _ _) ?_
  rintro key string _ isStored
  refine ⟨isStored, ?_⟩
  rintro rfl has
  exact ((has.prepared declared).sync registry isStored).retains
    ((syncLocalProperties_pending _ _ _).trans idle)

theorem storeToOwnHash_keepsStrings {fresh : Key → Fresh} {registry' : Registry}
    {connection' : Connection} (idle : connection.pending = none)
    (copy : storeToOwnHash enumCases declared registry props connection fresh =
      some (registry', connection')) :
    KeepsStrings false props connection props connection' := by
  obtain ⟨_, copied, rfl, done, rfl, rfl⟩ := storeToOwnHash_eq copy
  refine keepsStrings_of_fewer (syncLocalProperties_owner _ _ _) ?_
  rintro key string _ isStored
  refine ⟨isStored, ?_⟩
  rintro rfl has
  have hasSynced := (has.prepared declared).sync registry isStored
  have isCopied := foldlM_keeps_string
    (fun _ _ _ copy isThere => copyElement_keeps_string copy isThere) done
    (initLocalProperties_has declared hasSynced)
  refine Connection.Has.retains ?_ ((syncLocalProperties_pending _ _ _).trans idle)
  exact foldl_copyDeclared_find declared copied isCopied

theorem fullSyncLocalProperties_keepsStrings {fresh : Key → Fresh} {registry' : Registry}
    {connection' : Connection} (idle : connection.pending = none)
    (synced : fullSyncLocalProperties enumCases declared registry props connection fresh =
      some (registry', connection')) :
    KeepsStrings false props connection props connection' := by
  obtain ⟨copied, done, rfl, rfl⟩ := fullSyncLocalProperties_eq synced
  refine keepsStrings_of_fewer (syncLocalProperties_owner _ _ _) ?_
  rintro key string _ isStored
  refine ⟨isStored, ?_⟩
  rintro rfl has
  have isCopied := foldlM_keeps_string
    (fun _ _ _ copy isThere => fullSyncElement_keeps_string copy isThere) done
    (initLocalProperties_has declared (has.sync registry isStored))
  exact Connection.Has.retains isCopied ((syncLocalProperties_pending _ _ _).trans idle)

end Operations

end Pthreads.Store
