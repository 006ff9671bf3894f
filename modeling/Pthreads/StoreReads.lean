import Pthreads.StoreCoherence

/-!
# What a read shows

A read or a copy of the table succeeds when the storages can be restored: the
enum cases are loaded, the handles lead to objects, and the allocators return
unused addresses.  In a coherent state it then shows what the table holds.
-/

namespace Pthreads.Store

open ObjectRegistry

/-- The thread can restore the storage. -/
def Restorable (enumCases : EnumCases) (registry : Registry) (thread : Nat) (fresh : Fresh) :
    Storage → Prop
  | .enumCase className memberName => enumCases thread className memberName = true
  | .pthreads address => (tsObjAt registry address).isSome ∧
      Available registry fresh.newAddress fresh.newTs
  | _ => True

/-- The thread can restore every storage, each with its own new object. -/
structure Loadable (state : State) (thread : Nat) (fresh : Key → Fresh) : Prop where
  each : ∀ key storage, state.props.hash.find key = some storage →
    Restorable state.enumCases state.registry thread (fresh key) storage
  apart : ∀ key ∈ state.props.hash.table.keys, ∀ other ∈ state.props.hash.table.keys,
    key ≠ other → (fresh key).newAddress ≠ (fresh other).newAddress

/-- The value stands for what the table held, and there is none if the key was
absent. -/
def Shows (state after : State) (key : Key) (value : Option Zval) : Prop :=
  value.map (Zval.meaning after.registry) =
    (state.props.hash.find key).map (Storage.meaning state.registry)

section Restoring

variable {enumCases : EnumCases} {registry registry' : Registry} {thread : Nat} {fresh : Fresh}
  {storage : Storage} {value : Zval}

theorem Restorable.meaning
    (restorable : Restorable enumCases registry thread fresh storage) :
    ∃ meaning, storage.meaning registry = some meaning := by
  cases storage with
  | pthreads address =>
      obtain ⟨tsObj, isThere⟩ := Option.isSome_iff_exists.mp restorable.1
      exact ⟨.threaded tsObj, by simp [Storage.meaning, isThere]⟩
  | _ => exact ⟨_, rfl⟩

theorem restoreZval_succeeds (sound : Sound registry)
    (restorable : Restorable enumCases registry thread fresh storage) :
    ∃ after value, restoreZval enumCases registry thread fresh storage = some (after, value) := by
  cases storage with
  | pthreads address =>
      obtain ⟨tsObj, isThere⟩ := Option.isSome_iff_exists.mp restorable.1
      obtain ⟨zobj, found, points⟩ := Option.bind_eq_some_iff.mp isThere
      obtain ⟨after, object, connected⟩ :=
        globalsObjectConnect_succeeds sound thread restorable.2 found points
      exact ⟨after, .threaded object, by simp [restoreZval, connected]⟩
  | enumCase className memberName =>
      have isLoaded : enumCases thread className memberName = true := restorable
      exact ⟨registry, .enumCase className memberName, by simp [restoreZval, isLoaded]⟩
  | stringPtr string owner =>
      simp only [restoreZval]
      split <;> exact ⟨_, _, rfl⟩
  | _ => exact ⟨_, _, rfl⟩

theorem restoreZval_tsObjs (sound : Sound registry)
    (restored : restoreZval enumCases registry thread fresh storage = some (registry', value))
    {tsObj : Nat} (unused : registry.tsObjs tsObj = none) : registry'.tsObjs tsObj = none := by
  cases storage with
  | pthreads address =>
      obtain ⟨⟨_, result⟩, connected, outcome⟩ := Option.map_eq_some_iff.mp restored
      cases result with
      | none =>
          cases outcome
          exact globalsObjectConnect_tsObjs sound connected unused
      | some object =>
          cases outcome
          exact globalsObjectConnect_tsObjs sound connected unused
  | enumCase className memberName =>
      obtain ⟨-, ⟨⟩⟩ := Option.ite_none_right_eq_some.mp restored
      exact unused
  | stringPtr string owner =>
      simp only [restoreZval] at restored
      split at restored
      · cases restored
        exact unused
      · cases restored
        exact unused
  | _ =>
      cases restored
      exact unused

/-- Restoring one storage leaves the others restorable. -/
theorem Restorable.later {other : Storage} {otherFresh : Fresh} (sound : Sound registry)
    (settled : ∀ address, storage = .pthreads address → SettledAt registry address)
    (otherSettled : ∀ address, other = .pthreads address → SettledAt registry address)
    (restored : restoreZval enumCases registry thread fresh storage = some (registry', value))
    (apart : otherFresh.newAddress ≠ fresh.newAddress)
    (restorable : Restorable enumCases registry thread otherFresh other) :
    Restorable enumCases registry' thread otherFresh other ∧
      ∀ address, other = .pthreads address → SettledAt registry' address := by
  have extended := (restoreZval_restores sound settled restored).extended
  cases other with
  | pthreads address =>
      obtain ⟨isThere, available⟩ := restorable
      have sturdy : Sturdy (fun other => other = fresh.newAddress) registry address := by
        refine ⟨otherSettled address rfl, ?_⟩
        intro absent
        simp [tsObjAt, absent] at isThere
      have same := extended.zobjs_eq sturdy
      refine ⟨⟨by simpa [tsObjAt, same] using isThere, ?_, available.inRange, ?_⟩, ?_⟩
      · exact extended.absent _ available.address apart
      · exact restoreZval_tsObjs sound restored available.tsObj
      · rintro _ ⟨⟩
        exact (extended.sturdy sturdy).1
  | _ => exact ⟨restorable, by simp⟩

end Restoring

/-- Copying entries that can be restored succeeds. -/
theorem foldlM_copyElement_succeeds {enumCases : EnumCases} {thread : Nat}
    {own : Option (OrderedTable Key Zval)} {fresh : Key → Fresh} {entries : List (Key × Storage)}
    {copied : Copied} (sound : Sound copied.registry)
    (restorable : ∀ entry ∈ entries,
      Restorable enumCases copied.registry thread (fresh entry.1) entry.2 ∧
        ∀ address, entry.2 = .pthreads address → SettledAt copied.registry address)
    (apart : entries.Pairwise fun first second =>
      (fresh second.1).newAddress ≠ (fresh first.1).newAddress) :
    ∃ result, entries.foldlM (copyElement enumCases thread own fresh) copied = some result := by
  induction entries generalizing copied with
  | nil => exact ⟨copied, rfl⟩
  | cons entry entries ih =>
      obtain ⟨others, rest⟩ := List.pairwise_cons.mp apart
      obtain ⟨isRestorable, settled⟩ := restorable entry List.mem_cons_self
      rw [List.foldlM_cons]
      simp only [copyElement]
      split
      · -- the entry comes from the own table, and nothing is connected
        simp only [Option.bind_eq_bind, Option.bind_some]
        refine ih ?_ ?_ rest
        · split <;> exact sound
        · intro later isLater
          have isRestorable := restorable later (List.mem_cons_of_mem _ isLater)
          split <;> exact isRestorable
      · obtain ⟨registry', value, restored⟩ := restoreZval_succeeds sound isRestorable
        simp only [restored, Option.map_some, Option.bind_eq_bind, Option.bind_some]
        refine ih ?_ ?_ rest
        · exact (restoreZval_restores sound settled restored).extended.sound sound
        · intro later isLater
          obtain ⟨laterRestorable, laterSettled⟩ :=
            restorable later (List.mem_cons_of_mem _ isLater)
          exact laterRestorable.later sound settled laterSettled restored (others later isLater)

section Reading

variable {own : Bool} {state : State} {connection : Nat} {found : Connection}

theorem Agrees.shows (after : State) {key : Key} {value : Zval} {placed : Nat → Prop}
    (extended : Extends placed state.registry after.registry)
    (sturdy : ∀ storage, state.props.hash.find key = some storage →
      SturdyStorage placed state.registry storage)
    (meaningful : ∀ storage, state.props.hash.find key = some storage →
      ∃ meaning, storage.meaning state.registry = some meaning)
    (agrees : Agrees after.registry value (state.props.hash.find key)) :
    Shows state after key (some value) := by
  obtain ⟨storage, isStored, same⟩ := agrees
  obtain ⟨meaning, isMeaning⟩ := meaningful storage isStored
  rw [extended.storage_meaning (sturdy storage isStored), isMeaning] at same
  rcases same with dead | same
  · cases dead
  · simp [Shows, isStored, isMeaning, same]

/-- In a coherent state a read shows what the table holds. -/
theorem readThrough_shows (grounded : Grounded state) (coherent : Coherent own state)
    (idle : state.idle connection = some found) {key : KeyZval} {fresh : Fresh}
    (concerned : state.concerns own connection (coerce key))
    (kept : state.handlesKept (.read connection key .read fresh) = true)
    (restorable : ∀ storage, state.props.hash.find (coerce key) = some storage →
      Restorable state.enumCases state.registry found.owner fresh storage) :
    ∃ after value, state.readThrough connection key .read fresh =
        some (after, value.elim .undefined .value) ∧ Shows state after (coerce key) value := by
  have ready := grounded.ready kept idle
  have succeeds : ∃ registry updated value, storeRead state.enumCases state.registry state.props
      found key .read fresh =
        some (registry, updated, (Option.elim value .undefined .value : ReadOutcome)) := by
    simp only [storeRead]
    split
    · next value cached => exact ⟨_, _, some value, rfl⟩
    · split
      · exact ⟨_, _, none, rfl⟩
      · next storage isStored =>
        obtain ⟨after, value, restored⟩ :=
          restoreZval_succeeds grounded.sound (restorable storage isStored)
        rw [if_neg (by simp), restored]
        exact ⟨_, _, some value, rfl⟩
  obtain ⟨registry, updated, value, read⟩ := succeeds
  refine ⟨state.after connection registry state.props updated [], value,
    by simp [State.readThrough, idle, read], ?_⟩
  have isPlaced : state.placed (.read connection key .read fresh) fresh.newAddress := by
    simp [State.placed, State.placements]
  have reads : Effect state.declared _ (fun _ => False) state.registry state.props found registry
      state.props updated [] ∧
        ReadSound registry state.props found (coerce key) (value.elim .undefined .value) :=
    storeRead_effect ready isPlaced read
  obtain ⟨effect, sound⟩ := reads
  cases value with
  | none =>
      have absent : state.props.hash.find (coerce key) = none := sound
      simp [Shows, absent]
  | some value =>
      have agrees : Agrees registry value (state.props.hash.find (coerce key)) := by
        rcases sound with agrees | ⟨inSync, cached⟩
        · exact agrees
        · apply effect.agrees ready.sturdy rfl
            (ready.settled value (Connection.keeps_of_cached cached))
          exact coherent connection found (coerce key) value (find_of_idle idle).1 inSync
            ((offers_of_idle ready.idle).mpr cached) concerned
      refine Agrees.shows (state.after connection registry state.props updated [])
        effect.extended (ready.sturdy _) ?_ agrees
      intro storage isStored
      exact (restorable storage isStored).meaning

/-- What a copy of the table lists for a key that it did not have at the start. -/
theorem HashSound.shows {action : Action} {registry : Registry} {updated : Connection}
    {hash table : OrderedTable Key Zval} {fresh : Key → Fresh} {key : Key}
    (grounded : Grounded state) (coherent : Coherent own state)
    (kept : state.handlesKept action = true) (idle : state.idle connection = some found)
    (loadable : Loadable state found.owner fresh)
    (effect : Effect state.declared (state.placed action) (fun _ => False) state.registry
      state.props found registry state.props updated [])
    (sound : HashSound registry state.props found hash table) (absent : hash.find key = none)
    (concerned : state.concerns own connection key) :
    Shows state (state.after connection registry state.props updated []) key
      ((table.find key).filter validLocalCacheItem) := by
  have ready := grounded.ready kept idle
  have agrees : ∀ value, table.find key = some value → validLocalCacheItem value = true →
      Agrees registry value (state.props.hash.find key) := by
    intro value isThere valid
    rcases sound.entries key value isThere valid with given | agrees | ⟨inSync, cached⟩
    · rw [absent] at given
      cases given
    · exact agrees
    · apply effect.agrees ready.sturdy rfl
        (ready.settled value (Connection.keeps_of_cached cached))
      exact coherent connection found key value (find_of_idle idle).1 inSync
        ((offers_of_idle ready.idle).mpr cached) concerned
  cases isStored : state.props.hash.find key with
  | none =>
      have nothing : (table.find key).filter validLocalCacheItem = none := by
        rw [Option.filter_eq_none_iff]
        intro value isThere valid
        obtain ⟨storage, isStorage, -⟩ := agrees value isThere valid
        rw [isStored] at isStorage
        cases isStorage
      simp [Shows, nothing, isStored]
  | some storage =>
      have isKey : key ∈ state.props.hash.table.keys := by
        by_contra notKey
        have isNone := OrderedTable.find_eq_none_iff.mpr notKey
        rw [← HashTable.find, isStored] at isNone
        cases isNone
      obtain ⟨value, isThere, valid⟩ := sound.complete key isKey
      have listed : (table.find key).filter validLocalCacheItem = some value := by
        simp [isThere, valid]
      rw [listed]
      refine Agrees.shows _ effect.extended (ready.sturdy key) ?_ (agrees value isThere valid)
      intro storage isStorage
      exact (loadable.each key storage isStorage).meaning

/-- Copying the whole table succeeds. -/
theorem Loadable.copies {thread : Nat} {fresh : Key → Fresh} (grounded : Grounded state)
    (loadable : Loadable state thread fresh) (own : Option (OrderedTable Key Zval))
    (table : OrderedTable Key Zval) :
    ∃ result, state.props.hash.table.entries.foldlM
      (copyElement state.enumCases thread own fresh) ⟨state.registry, table, false⟩ =
        some result := by
  apply foldlM_copyElement_succeeds grounded.sound
  · intro entry isIn
    have isStored : state.props.hash.find entry.1 = some entry.2 :=
      OrderedTable.find_eq_some_iff.mpr isIn
    refine ⟨loadable.each entry.1 entry.2 isStored, ?_⟩
    intro address isHandle
    exact grounded.handles entry.1 address (isHandle ▸ isStored)
  · have distinct := state.props.hash.table.distinct
    rw [List.Nodup, List.pairwise_map] at distinct
    apply distinct.imp_of_mem
    intro first second isFirst isSecond different
    exact loadable.apart _ (List.mem_map_of_mem isSecond) _ (List.mem_map_of_mem isFirst)
      (Ne.symm different)

theorem copyThrough_shows (grounded : Grounded state) (coherent : Coherent own state)
    (idle : state.idle connection = some found) (hash : OrderedTable Key Zval)
    {fresh : Key → Fresh} (kept : state.handlesKept (.toHash connection hash fresh) = true)
    (loadable : Loadable state found.owner fresh) :
    ∃ after table, state.copyThrough connection hash fresh = some (after, table) ∧
      ∀ key, hash.find key = none → state.concerns own connection key →
        Shows state after key ((table.find key).filter validLocalCacheItem) := by
  have isPlaced : ∀ key ∈ state.props.hash.table.keys,
      state.placed (.toHash connection hash fresh) (fresh key).newAddress :=
    fun key isKey => List.mem_map_of_mem isKey
  obtain ⟨copied, copy⟩ := loadable.copies grounded (syncLocalProperties state.registry state.props
    (prepared state.declared found)).properties hash
  have copying : ∃ registry updated table, storeToHash state.enumCases state.declared
      state.registry state.props found fresh hash = some (registry, updated, table) := by
    simp only [storeToHash, copy, Option.bind_eq_bind, Option.bind_some]
    exact ⟨_, _, _, rfl⟩
  obtain ⟨registry, updated, table, copying⟩ := copying
  obtain ⟨effect, sound⟩ := storeToHash_effect (grounded.ready kept idle) isPlaced copying
  refine ⟨state.after connection registry state.props updated [], table, ?_, ?_⟩
  · simp only [State.copyThrough, idle, copying, Option.bind_eq_bind, Option.bind_some]
  · intro key absent concerned
    exact sound.shows grounded coherent kept idle loadable effect absent concerned

theorem toOwnHash_shows (grounded : Grounded state) (coherent : Coherent own state)
    (idle : state.idle connection = some found) {fresh : Key → Fresh}
    (kept : state.handlesKept (.toOwnHash connection fresh) = true)
    (loadable : Loadable state found.owner fresh) :
    ∃ after updated table, step state (.toOwnHash connection fresh) = some after ∧
      after.connections.find connection = some updated ∧ updated.properties = some table ∧
      ∀ key, state.concerns own connection key →
        Shows state after key ((table.find key).filter validLocalCacheItem) := by
  have isPlaced : ∀ key ∈ state.props.hash.table.keys,
      state.placed (.toOwnHash connection fresh) (fresh key).newAddress :=
    fun key isKey => List.mem_map_of_mem isKey
  obtain ⟨copied, copy⟩ := loadable.copies grounded none (initLocalProperties state.declared
    (syncLocalProperties state.registry state.props (prepared state.declared found)))
  have copying : ∃ registry updated, storeToOwnHash state.enumCases state.declared state.registry
      state.props found fresh = some (registry, updated) := by
    simp only [storeToOwnHash, copy, Option.bind_eq_bind, Option.bind_some]
    exact ⟨_, _, rfl⟩
  obtain ⟨registry, updated, copying⟩ := copying
  obtain ⟨effect, table, properties, sound⟩ :=
    storeToOwnHash_effect (grounded.ready kept idle) isPlaced copying
  refine ⟨state.after connection registry state.props updated [], updated, table, ?_,
    OrderedTable.find_update_same _ _ _, properties, ?_⟩
  · simp only [step, idle, copying, Option.bind_eq_bind, Option.bind_some]
  · intro key concerned
    exact sound.shows grounded coherent kept idle loadable effect (OrderedTable.find_empty key)
      concerned

end Reading

end Pthreads.Store
