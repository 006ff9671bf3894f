import Pthreads.StoreMemory

/-!
# Reads with and without the cache

A read that finds an entry in the local table returns it before it looks at the
way the member is accessed, and at what is left behind the storage.  This file
compares it with the same read on a connection that has no such entry.
-/

namespace Pthreads.StoreMemory

open GuardedRuns ObjectRegistry Store

/-- The entry survives the sync that a read begins with, it is of a kind that the
local table retains, and it stands for what the shared table holds, or for the
object that a handle there was made for: the handle does not say which. -/
structure UpToDate (state : State) (found : Connection) (key : KeyZval) (value : Zval) :
    Prop where
  cached : (syncLocalProperties state.store.registry state.store.props found).cached
    (coerce key) = some value
  retained : retainInLocalCache value = true
  stands : ∃ storage meaning, state.store.props.hash.find (coerce key) = some storage ∧
    value.meaning state.store.registry = some meaning ∧
    (storage.meaning state.store.registry = some meaning ∨
      ∃ address tsObj, storage = .pthreads address ∧ meaning = .threaded tsObj)

/-- The connection has no entry that a read could return. -/
def Uncached (state : State) (found : Connection) (key : KeyZval) : Prop :=
  (syncLocalProperties state.store.registry state.store.props found).cached (coerce key) = none

/-- The outcomes are the same: values that stand for the same, or the same
failure. -/
def SameOutcome (registry other : Registry) : ReadOutcome → ReadOutcome → Prop
  | .value first, .value second =>
      ∃ meaning, first.meaning registry = some meaning ∧ second.meaning other = some meaning
  | .undefined, .undefined => True
  | .indirectModification, .indirectModification => True
  | _, _ => False

/-- Both reads come to an end, with the same outcome. -/
def SameRead (first second : Option (Registry × Connection × ReadOutcome)) : Prop :=
  ∃ registry connection outcome other otherConnection otherOutcome,
    first = some (registry, connection, outcome) ∧
    second = some (other, otherConnection, otherOutcome) ∧
    SameOutcome registry other outcome otherOutcome

/-- The read of a state on a connection. -/
def State.readOn (state : State) (found : Connection) (key : KeyZval) (type : AccessType)
    (fresh : Fresh) : Option (Registry × Connection × ReadOutcome) :=
  if (readFollows state.store found key type).all state.readable then
    storeRead state.store.enumCases state.store.registry state.store.props found key type fresh
  else none

/-- What the storage refers to is still there: its handle leads to the shared object that
the value stands for, nothing that it points to has been freed, and the copying of its
closure ends. -/
structure StillThere (state : State) (value : Zval) (entry : Key × Storage) : Prop where
  leads : ∀ address, entry.2 = .pthreads address →
    (tsObjAt state.store.registry address).map Meaning.threaded =
      value.meaning state.store.registry
  readable : state.readable entry = true

section Reads

variable {state : State} {found : Connection} {key : KeyZval} {value : Zval}
  {type : AccessType} {fresh : Fresh} {storage : Storage}

/-- The sync is left out for a connection without a local table, which has nothing
to keep in sync. -/
theorem cached_of_readSync (registry : Registry) (props : Props) (found : Connection)
    (key : Key) :
    (if found.properties.isSome then syncLocalProperties registry props found
      else found).cached key = (syncLocalProperties registry props found).cached key := by
  split
  · rfl
  · next noTable =>
    simp only [Option.not_isSome_iff_eq_none] at noTable
    unfold syncLocalProperties
    split <;> simp [Connection.cached, noTable]

theorem mem_readFollows_iff {entry : Key × Storage} :
    entry ∈ readFollows state.store found key type ↔
      Uncached state found key ∧ entry.1 = coerce key ∧
        state.store.props.hash.find (coerce key) = some entry.2 ∧
        (type.onlyReads = true ∨ isThreaded entry.2 = true) := by
  simp only [readFollows, uncached, List.mem_filter, Bool.and_eq_true, Bool.or_eq_true,
    decide_eq_true_eq, Option.isNone_iff_eq_none]
  constructor
  · rintro ⟨⟨isIn, absent⟩, isKey, allowed⟩
    have isStored := OrderedTable.find_eq_some_iff.mpr isIn
    rw [isKey] at absent isStored
    exact ⟨absent, isKey, isStored, allowed.symm⟩
  · rintro ⟨absent, isKey, isStored, allowed⟩
    rw [← isKey] at isStored
    refine ⟨⟨OrderedTable.find_eq_some_iff.mp isStored, ?_⟩, isKey, allowed.symm⟩
    rw [isKey]
    exact absent

theorem readOn_cached (type : AccessType) (fresh : Fresh)
    (cached : (syncLocalProperties state.store.registry state.store.props found).cached
      (coerce key) = some value) :
    ∃ synced, state.readOn found key type fresh =
      some (state.store.registry, synced, .value value) := by
  have follows : (readFollows state.store found key type).all state.readable = true := by
    apply List.all_eq_true.mpr
    intro entry isFollowed
    have absent : (syncLocalProperties state.store.registry state.store.props found).cached
      (coerce key) = none := (mem_readFollows_iff.mp isFollowed).1
    rw [cached] at absent
    cases absent
  rw [← cached_of_readSync] at cached
  simp only [State.readOn, follows, if_true, storeRead, cached]
  exact ⟨_, rfl⟩

theorem readOn_refused (fresh : Fresh) (uncached : Uncached state found key)
    (isStored : state.store.props.hash.find (coerce key) = some storage)
    (notThreaded : isThreaded storage = false) (writes : type.onlyReads = false) :
    ∃ synced, state.readOn found key type fresh =
      some (state.store.registry, synced, .indirectModification) := by
  have follows : (readFollows state.store found key type).all state.readable = true := by
    apply List.all_eq_true.mpr
    intro entry isFollowed
    obtain ⟨-, -, isEntry, allowed⟩ := mem_readFollows_iff.mp isFollowed
    cases Option.some.inj (isStored.symm.trans isEntry)
    simp [notThreaded, writes] at allowed
  rw [Uncached, ← cached_of_readSync] at uncached
  simp only [State.readOn, follows, if_true, storeRead, uncached, isStored]
  rw [if_pos]
  · exact ⟨_, rfl⟩
  · cases type <;> simp [notThreaded, AccessType.onlyReads] at writes ⊢

/-- The read restores the storage, whose pointers it follows. -/
theorem readOn_restores (fresh : Fresh) (uncached : Uncached state found key)
    (isStored : state.store.props.hash.find (coerce key) = some storage)
    (allowed : type.onlyReads = true ∨ isThreaded storage = true) :
    ∃ synced : Connection, state.readOn found key type fresh =
      if state.readable (coerce key, storage) then
        (restoreZval state.store.enumCases state.store.registry found.owner fresh storage).map
          fun (restored, value) =>
            (restored, { synced with pending := some (.update (coerce key) value) }, .value value)
      else none := by
  have follows : (readFollows state.store found key type).all state.readable =
      state.readable (coerce key, storage) := by
    rw [Bool.eq_iff_iff, List.all_eq_true]
    constructor
    · intro all
      exact all (coerce key, storage)
        (mem_readFollows_iff.mpr ⟨uncached, rfl, isStored, allowed⟩)
    · rintro readable ⟨other, otherStorage⟩ isFollowed
      obtain ⟨-, rfl, isEntry, -⟩ := mem_readFollows_iff.mp isFollowed
      cases Option.some.inj (isStored.symm.trans isEntry)
      exact readable
  have notRefused : ¬ (¬ isThreaded storage = true ∧ type ≠ .read ∧ type ≠ .isset) := by
    rintro ⟨notThreaded, notRead, notIsset⟩
    rcases allowed with reads | threaded
    · cases type <;> simp [AccessType.onlyReads] at reads notRead notIsset
    · exact notThreaded threaded
  rw [Uncached, ← cached_of_readSync] at uncached
  simp only [State.readOn, follows, storeRead, uncached, isStored, if_neg notRefused]
  exact ⟨if found.properties.isSome then
    syncLocalProperties state.store.registry state.store.props found else found, rfl⟩

/-- A handle is restored to what stands at its address, or to null. -/
theorem restored_threaded {enumCases : EnumCases} {registry registry' : Registry}
    {thread address tsObj : Nat} (sound : Sound registry)
    (restored : restoreZval enumCases registry thread fresh (.pthreads address) =
      some (registry', value))
    (stands : value.meaning registry' = some (.threaded tsObj)) :
    tsObjAt registry address = some tsObj := by
  obtain ⟨⟨after, result⟩, connected, isValue⟩ := Option.map_eq_some_iff.mp restored
  cases result with
  | none =>
      cases isValue
      cases stands
  | some object =>
      cases isValue
      obtain ⟨_, isThere, ⟨⟩⟩ := Option.map_eq_some_iff.mp stands
      rcases globalsObjectConnect_cases connected with ⟨-, -, ⟨⟩⟩ | ⟨zobj, -, found, rest⟩
      rcases rest with ⟨-, rfl, ⟨⟩⟩ | ⟨shared, points, -⟩
      · exact isThere
      · obtain ⟨target, isTarget, sameTs⟩ :=
          globalsObjectConnect_attached sound found points connected
        simp only [tsObjAt, isTarget, Option.bind_some, sameTs, Option.some.injEq] at isThere
        simp [tsObjAt, found, points, isThere]

/-- What an up-to-date entry stands for can be restored while it is there. -/
theorem UpToDate.restores (sound : Sound state.store.registry)
    (available : Available state.store.registry fresh.newAddress fresh.newTs)
    (upToDate : UpToDate state found key value) (thread : Nat)
    (isStored : state.store.props.hash.find (coerce key) = some storage)
    (leads : ∀ address, storage = .pthreads address →
      (tsObjAt state.store.registry address).map Meaning.threaded =
        value.meaning state.store.registry) :
    ∃ meaning registry restored, value.meaning state.store.registry = some meaning ∧
      restoreZval state.store.enumCases state.store.registry thread fresh storage =
        some (registry, restored) ∧
      restored.meaning registry = some meaning := by
  obtain ⟨other, meaning, isOther, sameMeaning, stands⟩ := upToDate.stands
  cases Option.some.inj (isStored.symm.trans isOther)
  have retained := upToDate.retained
  refine ⟨meaning, ?_⟩
  cases storage with
  | pthreads address =>
      have isLed := leads address rfl
      rw [sameMeaning] at isLed
      obtain ⟨tsObj, points, rfl⟩ := Option.map_eq_some_iff.mp isLed
      obtain ⟨zobj, isThere, attached⟩ := Option.bind_eq_some_iff.mp points
      obtain ⟨registry, object, connected⟩ :=
        globalsObjectConnect_succeeds sound thread available isThere attached
      obtain ⟨target, isTarget, sameTs⟩ :=
        globalsObjectConnect_attached sound isThere attached connected
      refine ⟨registry, .threaded object, sameMeaning, ?_, ?_⟩
      · simp [restoreZval, connected]
      · simp [Zval.meaning, tsObjAt, isTarget, sameTs]
  | enumCase className memberName =>
      -- no enum case is retained
      rcases stands with ⟨⟨⟩⟩ | ⟨_, _, ⟨⟩, -⟩
      cases value <;> simp [Zval.meaning, retainInLocalCache] at sameMeaning retained
  | stringPtr string owner =>
      rcases stands with ⟨⟨⟩⟩ | ⟨_, _, ⟨⟩, -⟩
      simp only [restoreZval]
      split
      · exact ⟨_, _, sameMeaning, rfl, rfl⟩
      · exact ⟨_, _, sameMeaning, rfl, by simp [Zval.meaning, restoreString_bytes]⟩
  | string string =>
      rcases stands with ⟨⟨⟩⟩ | ⟨_, _, ⟨⟩, -⟩
      exact ⟨_, _, sameMeaning, rfl, by simp [Zval.meaning, restoreString_bytes]⟩
  | _ =>
      rcases stands with ⟨⟨⟩⟩ | ⟨_, _, ⟨⟩, -⟩
      exact ⟨_, _, sameMeaning, rfl, rfl⟩

end Reads

/-- A read that finds an up-to-date entry has the outcome of one that finds none
exactly when the access only reads or the member is a Threaded object, and what the
storage refers to is still there. -/
theorem cached_read_agrees_iff {state : State} (sound : Sound state.store.registry)
    {found other : Connection} {key : KeyZval} (value : Zval) {fresh : Fresh}
    (available : Available state.store.registry fresh.newAddress fresh.newTs)
    (upToDate : UpToDate state found key value) (uncached : Uncached state other key)
    (type : AccessType) :
    SameRead (state.readOn found key type fresh) (state.readOn other key type fresh) ↔
      ∀ storage, state.store.props.hash.find (coerce key) = some storage →
        (type.onlyReads = true ∨ isThreaded storage = true) ∧
          StillThere state value (coerce key, storage) := by
  obtain ⟨synced, cachedRead⟩ := readOn_cached type fresh upToDate.cached
  obtain ⟨storage, meaning, isStored, isMeaning, stands⟩ := upToDate.stands
  rw [cachedRead]
  constructor
  · rintro ⟨_, _, _, registry, _, _, ⟨⟩, otherRead, same⟩ _ isEntry
    cases Option.some.inj (isStored.symm.trans isEntry)
    have allowed : type.onlyReads = true ∨ isThreaded storage = true := by
      by_contra neither
      simp only [not_or, Bool.not_eq_true] at neither
      obtain ⟨_, refused⟩ := readOn_refused fresh uncached isStored neither.2 neither.1
      rw [refused] at otherRead
      cases otherRead
      exact same
    obtain ⟨_, restoring⟩ := readOn_restores fresh uncached isStored allowed
    rw [restoring] at otherRead
    obtain ⟨readable, otherRead⟩ := Option.ite_none_right_eq_some.mp otherRead
    obtain ⟨⟨_, restored⟩, isRestored, ⟨⟩⟩ := Option.map_eq_some_iff.mp otherRead
    obtain ⟨common, isCommon, sameCommon⟩ := same
    refine ⟨allowed, ?_, readable⟩
    rintro address ⟨⟩
    rcases stands with alive | ⟨_, tsObj, -, rfl⟩
    · rw [isMeaning, ← alive]
      rfl
    · cases Option.some.inj (isMeaning.symm.trans isCommon)
      rw [isMeaning, restored_threaded sound isRestored sameCommon]
      rfl
  · intro condition
    obtain ⟨allowed, leads, readable⟩ := condition storage isStored
    obtain ⟨meaning, registry, restored, stands, restores, sameMeaning⟩ :=
      upToDate.restores sound available other.owner isStored leads
    obtain ⟨otherSynced, otherRead⟩ := readOn_restores fresh uncached isStored allowed
    rw [readable, if_pos rfl, restores] at otherRead
    exact ⟨_, _, _, _, _, _, rfl, otherRead, meaning, stands, sameMeaning⟩

/-- A string is written, and the writer caches it. -/
def writesString : List Action :=
  [.operate (.construct 1 1 [] (fun _ => noFresh)),
    .operate (.write 1 (some (.long 0)) (.string ⟨1, [97], false⟩) false noFresh),
    .operate (.finish 1)]

theorem cached_read_agrees_writesString :
    ∃ state found, execute step (initial []) writesString = some state ∧
      state.store.idle 1 = some found ∧
      UpToDate state found (.long 0) (.string ⟨1, [97], false⟩) ∧
      SameRead (state.readOn found (.long 0) .read ⟨0, 1, 1⟩)
        (state.readOn (evictLocalProperty found (.long 0)) (.long 0) .read ⟨0, 1, 1⟩) := by
  refine ⟨_, _, rfl, rfl, ⟨rfl, rfl, _, _, rfl, rfl, Or.inl rfl⟩, ?_⟩
  refine (cached_read_agrees_iff ?_ (.string ⟨1, [97], false⟩) ?_ ?_ ?_ .read).mpr ?_
  · exact ObjectRegistry.sound_initial
  · exact ⟨rfl, by decide, rfl⟩
  · exact ⟨rfl, rfl, _, _, rfl, rfl, Or.inl rfl⟩
  · rfl
  · rintro storage ⟨⟩
    refine ⟨Or.inl rfl, ?_, rfl⟩
    rintro address ⟨⟩

/-- To write through the string is an error for a connection that has not cached
it, and none for one that has. -/
theorem cached_read_disagrees_writesString :
    ∃ state found synced otherSynced, execute step (initial []) writesString = some state ∧
      state.store.idle 1 = some found ∧
      UpToDate state found (.long 0) (.string ⟨1, [97], false⟩) ∧
      state.readOn found (.long 0) .write ⟨0, 1, 1⟩ =
        some (state.store.registry, synced, .value (.string ⟨1, [97], false⟩)) ∧
      state.readOn (evictLocalProperty found (.long 0)) (.long 0) .write ⟨0, 1, 1⟩ =
        some (state.store.registry, otherSynced, .indirectModification) ∧
      ¬ SameRead (state.readOn found (.long 0) .write ⟨0, 1, 1⟩)
        (state.readOn (evictLocalProperty found (.long 0)) (.long 0) .write ⟨0, 1, 1⟩) := by
  refine ⟨_, _, _, _, rfl, rfl, ⟨rfl, rfl, _, _, rfl, rfl, Or.inl rfl⟩, rfl, rfl, ?_⟩
  rintro ⟨_, _, _, _, _, _, ⟨⟩, ⟨⟩, same⟩
  exact same

end Pthreads.StoreMemory
