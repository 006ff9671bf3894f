import Pthreads.ObjectHandles
import Pthreads.StoreRuns

/-!
# Cached values that agree with their storages

A cached value agrees with a storage when both have the same meaning.  Objects
come and go while a value is cached, so this file also says what the creation
of objects leaves alone, and that a value restored from a storage agrees with
it.
-/

namespace Pthreads.Store

open ObjectRegistry

theorem find_of_idle {state : State} {connection : Nat} {found : Connection}
    (idle : state.idle connection = some found) :
    state.connections.find connection = some found ∧ found.pending = none := by
  obtain ⟨isThere, isIdle⟩ := Option.filter_eq_some_iff.mp idle
  exact ⟨isThere, by simpa using isIdle⟩

/-- What stands at the address, if anything, is a constructed object that user
code can see. -/
def SettledAt (registry : Registry) (address : Nat) : Prop :=
  ∀ zobj, registry.zobjs address = some zobj → zobj.fresh = false ∧ zobj.tsObj.isSome

/-- The Threaded object that a value refers to exists and is constructed. -/
def SettledValue (registry : Registry) (value : Zval) : Prop :=
  ∀ address, refersTo address value = true →
    ∃ zobj, registry.zobjs address = some zobj ∧ zobj.fresh = false ∧ zobj.tsObj.isSome

/-- Objects were added at some addresses, and what was settled is unchanged. -/
structure Extends (placed : Nat → Prop) (registry after : Registry) : Prop where
  sound : Sound registry → Sound after
  kept : ∀ address zobj, registry.zobjs address = some zobj → zobj.fresh = false →
    zobj.tsObj.isSome → after.zobjs address = some zobj
  absent : ∀ address, registry.zobjs address = none → ¬ placed address →
    after.zobjs address = none

theorem Extends.refl (placed : Nat → Prop) (registry : Registry) :
    Extends placed registry registry :=
  ⟨id, fun _ _ found _ _ => found, fun _ absent _ => absent⟩

theorem Extends.trans {placed : Nat → Prop} {registry middle after : Registry}
    (first : Extends placed registry middle) (second : Extends placed middle after) :
    Extends placed registry after := by
  refine ⟨fun sound => second.sound (first.sound sound), ?_, ?_⟩
  · intro address zobj found visible constructed
    exact second.kept address zobj (first.kept address zobj found visible constructed) visible
      constructed
  · intro address absent notPlaced
    exact second.absent address (first.absent address absent notPlaced) notPlaced

theorem Extends.mono {placed wider : Nat → Prop} {registry after : Registry}
    (extended : Extends placed registry after)
    (implied : ∀ address, placed address → wider address) :
    Extends wider registry after :=
  ⟨extended.sound, extended.kept, fun address absent notPlaced =>
    extended.absent address absent fun isPlaced => notPlaced (implied address isPlaced)⟩

/-- What stands at the address is settled, and if nothing does, nothing will be
placed there. -/
def Sturdy (placed : Nat → Prop) (registry : Registry) (address : Nat) : Prop :=
  SettledAt registry address ∧ (registry.zobjs address = none → ¬ placed address)

theorem Extends.zobjs_eq {placed : Nat → Prop} {registry after : Registry}
    (extended : Extends placed registry after) {address : Nat}
    (sturdy : Sturdy placed registry address) : after.zobjs address = registry.zobjs address := by
  cases earlier : registry.zobjs address with
  | none => exact extended.absent address earlier (sturdy.2 earlier)
  | some zobj =>
      obtain ⟨visible, constructed⟩ := sturdy.1 zobj earlier
      exact extended.kept address zobj earlier visible constructed

theorem Extends.sturdy {placed : Nat → Prop} {registry after : Registry}
    (extended : Extends placed registry after) {address : Nat}
    (sturdy : Sturdy placed registry address) : Sturdy placed after address := by
  unfold Sturdy SettledAt
  rw [extended.zobjs_eq sturdy]
  exact sturdy

theorem Extends.settledValue {placed : Nat → Prop} {registry after : Registry}
    (extended : Extends placed registry after) {value : Zval}
    (settled : SettledValue registry value) : SettledValue after value := by
  intro address refers
  obtain ⟨zobj, found, visible, constructed⟩ := settled address refers
  exact ⟨zobj, extended.kept address zobj found visible constructed, visible, constructed⟩

/-- The meaning of a value is the shared object of what it refers to, if it refers
to an object at all. -/
theorem meaning_congr {before after : Registry} :
    ∀ {value : Zval}, (∀ address, refersTo address value = true →
      after.zobjs address = before.zobjs address) → value.meaning after = value.meaning before
  | .threaded address, same => by
      simp [Zval.meaning, tsObjAt, same address (by simp [refersTo])]
  | .reference target, same => by
      simp only [Zval.meaning]
      exact meaning_congr same
  | .indirect slot, same => by
      simp only [Zval.meaning]
      exact meaning_congr same
  | .undef, _ | .null, _ | .bool _, _ | .long _, _ | .double _, _ | .string _, _ | .array _, _
  | .closure _, _ | .socket _ _, _ | .enumCase _ _, _ | .object _, _ | .resource _, _ => rfl

theorem Extends.value_meaning {placed : Nat → Prop} {registry after : Registry}
    (extended : Extends placed registry after) {value : Zval}
    (settled : SettledValue registry value) : value.meaning after = value.meaning registry := by
  apply meaning_congr
  intro address refers
  obtain ⟨zobj, found, visible, constructed⟩ := settled address refers
  rw [found]
  exact extended.kept address zobj found visible constructed

/-- The address that a storage keeps is sturdy. -/
def SturdyStorage (placed : Nat → Prop) (registry : Registry) (storage : Storage) : Prop :=
  ∀ address, storage = .pthreads address → Sturdy placed registry address

theorem Extends.sturdyStorage {placed : Nat → Prop} {registry after : Registry}
    (extended : Extends placed registry after) {storage : Storage}
    (sturdy : SturdyStorage placed registry storage) : SturdyStorage placed after storage :=
  fun address isHandle => extended.sturdy (sturdy address isHandle)

theorem Extends.storage_meaning {placed : Nat → Prop} {registry after : Registry}
    (extended : Extends placed registry after) {storage : Storage}
    (sturdy : SturdyStorage placed registry storage) :
    storage.meaning after = storage.meaning registry := by
  cases storage with
  | pthreads address =>
      simp only [Storage.meaning, tsObjAt, extended.zobjs_eq (sturdy address rfl)]
  | _ => rfl

/-- The value stands for what the storage stands for.  A handle to an object that
was destroyed stands for nothing. -/
def Agrees (registry : Registry) (value : Zval) (storage : Option Storage) : Prop :=
  ∃ stored, storage = some stored ∧
    (stored.meaning registry = none ∨ value.meaning registry = stored.meaning registry)

theorem Extends.agrees {placed : Nat → Prop} {registry after : Registry}
    (extended : Extends placed registry after) {value : Zval} {storage : Option Storage}
    (agrees : Agrees registry value storage) (settled : SettledValue registry value)
    (sturdy : ∀ stored, storage = some stored → SturdyStorage placed registry stored) :
    Agrees after value storage := by
  obtain ⟨stored, isStored, same⟩ := agrees
  refine ⟨stored, isStored, ?_⟩
  rw [extended.value_meaning settled, extended.storage_meaning (sturdy stored isStored)]
  exact same

theorem settledValue_of_scalar {registry : Registry} {value : Zval}
    (none : ∀ address, refersTo address value = false) : SettledValue registry value := by
  intro address refers
  rw [none address] at refers
  cases refers

theorem restoreString_bytes (string : ZString) (pointer : Nat) :
    (restoreString string pointer).bytes = string.bytes := by
  unfold restoreString
  split <;> rfl

theorem saveString_bytes (string : ZString) (pointer : Nat) :
    (saveString string pointer).bytes = string.bytes := by
  unfold saveString
  split <;> rfl

theorem persistStorage_meaning (thread pointer : Nat) (storage : Storage) (registry : Registry) :
    (persistStorage thread pointer storage).meaning registry = storage.meaning registry := by
  cases storage with
  | stringPtr string owner =>
      simp only [persistStorage]
      split
      · simp [Storage.meaning, saveString_bytes]
      · rfl
  | _ => rfl

theorem persistStorage_handle {thread pointer address : Nat} {storage : Storage}
    (isHandle : persistStorage thread pointer storage = .pthreads address) :
    storage = .pthreads address := by
  cases storage with
  | stringPtr string owner =>
      simp only [persistStorage] at isHandle
      split at isHandle <;> cases isHandle
  | _ => exact isHandle

theorem persistLocalProperties_find (thread : Nat) (pointers : Key → Nat) (props : Props)
    (key : Key) : (persistLocalProperties thread pointers props).hash.find key =
      (props.hash.find key).map (persistStorage thread (pointers key)) :=
  OrderedTable.find_mapValues _ _ key

/-- The connections that are left after one of them is freed, if there are any. -/
theorem disconnect_cases (state : State) (connection : Nat) (found : Connection)
    (pointers : Key → Nat) :
    ((state.disconnect connection found pointers).connections.entries = [] ∧
      (state.disconnect connection found pointers).props = storeInit ∧
      (state.disconnect connection found pointers).registry = state.registry ∧
      (state.disconnect connection found pointers).modified = fun _ => none) ∨
    ((state.connections.delete connection).entries ≠ [] ∧
      state.disconnect connection found pointers =
        { state with
          props := persistLocalProperties found.owner pointers state.props
          connections := state.connections.delete connection
          modified := fun key =>
            (state.modified key).filter fun last => last.connection ≠ connection }) := by
  unfold State.disconnect
  by_cases vacant : (state.connections.delete connection).entries = []
  · simp [vacant]
  · exact Or.inr ⟨vacant, if_neg (by simpa using vacant)⟩

/-- What connecting to a settled address leaves alone, and what it returns. -/
theorem globalsObjectConnect_extends {registry after : Registry} {result : Option Nat}
    {thread address newAddress newTs : Nat}
    (connected : globalsObjectConnect registry thread address newAddress newTs =
      some (after, result)) :
    Extends (fun other => other = newAddress) registry after := by
  refine ⟨fun sound => globalsObjectConnect_sound sound connected, ?_, ?_⟩
  · intro other zobj found _ _
    exact globalsObjectConnect_keeps connected found
  · intro other absent notPlaced
    rcases globalsObjectConnect_cases connected with ⟨-, rfl, -⟩ | ⟨source, -, found, rest⟩
    · exact absent
    · rcases rest with ⟨-, rfl, -⟩ | ⟨shared, -, ⟨connection, -, rfl, -⟩ | ⟨created, -⟩⟩
      · exact absent
      · exact absent
      · obtain ⟨allocated, constructed, joined, target, creates⟩ :=
          createConnection_creates created
        rw [creates.keeps notPlaced, absent]

theorem globalsObjectConnect_settled {registry after : Registry} (sound : Sound registry)
    {thread address newAddress newTs object : Nat} (settled : SettledAt registry address)
    (connected : globalsObjectConnect registry thread address newAddress newTs =
      some (after, some object)) :
    ∃ zobj, after.zobjs object = some zobj ∧ zobj.fresh = false ∧ zobj.tsObj.isSome := by
  rcases globalsObjectConnect_cases connected with ⟨-, -, ⟨⟩⟩ | ⟨source, -, found, rest⟩
  obtain ⟨visible, constructed⟩ := settled source found
  rcases rest with ⟨-, rfl, ⟨⟩⟩ | ⟨shared, target, rest⟩
  · exact ⟨source, found, visible, constructed⟩
  · rcases rest with ⟨connection, present, rfl, ⟨⟩⟩ | ⟨created, ⟨⟩⟩
    · obtain ⟨resolved, isThere, points, -, isVisible⟩ :=
        sound.resolved thread shared object present
      exact ⟨resolved, isThere, isVisible, by simp [points]⟩
    · obtain ⟨allocated, built, joined, reached, creates⟩ := createConnection_creates created
      obtain ⟨placed, -⟩ := creates.placed found
      exact ⟨_, placed, rfl, rfl⟩

/-- What restoring a value gives. -/
structure Restores (registry after : Registry) (newAddress : Nat) (storage : Storage)
    (value : Zval) : Prop where
  extended : Extends (fun other => other = newAddress) registry after
  agrees : Agrees after value (some storage)
  settled : SettledValue after value
  valid : validLocalCacheItem value = true

theorem restoreZval_threaded {enumCases : EnumCases} {registry after : Registry}
    (sound : Sound registry) {thread address : Nat} {fresh : Fresh} {value : Zval}
    (settled : SettledAt registry address)
    (restored : restoreZval enumCases registry thread fresh (.pthreads address) =
      some (after, value)) :
    Restores registry after fresh.newAddress (.pthreads address) value := by
  obtain ⟨⟨_, result⟩, connected, outcome⟩ := Option.map_eq_some_iff.mp restored
  have extended := globalsObjectConnect_extends connected
  cases result with
  | none =>
      cases outcome
      rcases globalsObjectConnect_cases connected with ⟨invalid, rfl, -⟩ | ⟨source, -, -, rest⟩
      · -- the handle is dead, and null stands in for its object
        have absent : tsObjAt after address = none := by
          cases found : after.zobjs address with
          | none => simp [tsObjAt, found]
          | some zobj =>
              have nonzero := (sound.ne_null found).symm
              exact absurd (by simp [globalsObjectValid, nonzero, sound.table, found]) invalid
        exact ⟨extended, ⟨_, rfl, Or.inl (by simp [Storage.meaning, absent])⟩,
          settledValue_of_scalar fun _ => rfl, rfl⟩
      · obtain (⟨-, -, ⟨⟩⟩ | ⟨_, -, ⟨_, -, -, ⟨⟩⟩ | ⟨-, ⟨⟩⟩⟩) := rest
  | some object =>
      cases outcome
      rcases globalsObjectConnect_cases connected with ⟨-, -, ⟨⟩⟩ | ⟨source, -, found, -⟩
      obtain ⟨tsObj, points⟩ := Option.isSome_iff_exists.mp (settled source found).2
      obtain ⟨target, isThere, sameTs⟩ :=
        globalsObjectConnect_attached sound found points connected
      obtain ⟨zobj, isObject, visible, constructed⟩ :=
        globalsObjectConnect_settled sound settled connected
      have kept := extended.kept address source found (settled source found).1
        (settled source found).2
      refine ⟨extended, ⟨_, rfl, Or.inr ?_⟩, ?_, rfl⟩
      · simp [Zval.meaning, Storage.meaning, tsObjAt, isThere, sameTs, kept, points]
      · intro other refers
        simp only [refersTo, decide_eq_true_eq] at refers
        subst refers
        exact ⟨zobj, isObject, visible, constructed⟩

theorem restores_unchanged {registry : Registry} {newAddress : Nat} {storage : Storage}
    {value : Zval} (same : value.meaning registry = storage.meaning registry)
    (noObject : ∀ address, refersTo address value = false)
    (valid : validLocalCacheItem value = true) :
    Restores registry registry newAddress storage value :=
  ⟨Extends.refl _ _, ⟨storage, rfl, Or.inr same⟩, settledValue_of_scalar noObject, valid⟩

/-- A restored value agrees with the storage it was restored from. -/
theorem restoreZval_restores {enumCases : EnumCases} {registry after : Registry}
    (sound : Sound registry) {thread : Nat} {fresh : Fresh} {storage : Storage} {value : Zval}
    (settled : ∀ address, storage = .pthreads address → SettledAt registry address)
    (restored : restoreZval enumCases registry thread fresh storage = some (after, value)) :
    Restores registry after fresh.newAddress storage value := by
  cases storage with
  | pthreads address => exact restoreZval_threaded sound (settled address rfl) restored
  | stringPtr string owner =>
      simp only [restoreZval] at restored
      split at restored
      · cases restored
        exact restores_unchanged rfl (fun _ => rfl) rfl
      · cases restored
        exact restores_unchanged (by simp [Zval.meaning, Storage.meaning, restoreString_bytes])
          (fun _ => rfl) rfl
  | string string =>
      cases restored
      exact restores_unchanged (by simp [Zval.meaning, Storage.meaning, restoreString_bytes])
        (fun _ => rfl) rfl
  | enumCase className memberName =>
      obtain ⟨-, ⟨⟩⟩ := Option.ite_none_right_eq_some.mp restored
      exact restores_unchanged rfl (fun _ => rfl) rfl
  | _ =>
      cases restored
      exact restores_unchanged rfl (fun _ => rfl) rfl

/-- A value that is handed out agrees with the storage; there is none for an enum case
that cannot be loaded, and then nothing has changed. -/
theorem restoreElement_restores {enumCases : EnumCases} {registry after : Registry}
    (sound : Sound registry) {thread : Nat} {fresh : Fresh} {storage : Storage}
    {value : Option Zval} (settled : ∀ address, storage = .pthreads address →
      SettledAt registry address)
    (restored : restoreElement enumCases registry thread fresh storage = some (after, value)) :
    Extends (fun other => other = fresh.newAddress) registry after ∧
      ∀ written, value = some written → Restores registry after fresh.newAddress storage written := by
  rcases restoreElement_cases restored with ⟨written, rfl, -, isRestored⟩ | ⟨rfl, rfl, -⟩
  · have restores := restoreZval_restores sound settled isRestored
    refine ⟨restores.extended, ?_⟩
    rintro _ ⟨⟩
    exact restores
  · exact ⟨Extends.refl _ _, by simp⟩

/-- The values of a local table are not behind an INDIRECT. -/
theorem deindirect_of_valid {value : Zval} (valid : validLocalCacheItem value = true) :
    deindirect value = value := by
  cases value with
  | indirect slot => cases valid
  | _ => rfl

/-- What the sync leaves of one key. -/
theorem syncLocalProperties_cached (registry : Registry) (props : Props) (connection : Connection)
    (key : Key) :
    (syncLocalProperties registry props connection).cached key =
      if connection.localPropsModcount = props.modcount then connection.cached key
      else (connection.cached key).filter
        (staysCached registry connection.owner (props.hash.find key)) := by
  unfold syncLocalProperties
  split
  · rfl
  · cases properties : connection.properties with
    | none => simp [Connection.cached, properties]
    | some table =>
        simp only [Connection.cached, properties, Option.map_some, Option.bind_some,
          OrderedTable.find_filter, Option.filter_filter, Bool.and_comm]

/-- A cached value that the sync keeps agrees with the storage. -/
theorem agrees_of_staysCached {registry : Registry} {thread : Nat} {storage : Option Storage}
    {value : Zval} (valid : validLocalCacheItem value = true)
    (stays : staysCached registry thread storage value = true) :
    Agrees registry value storage := by
  simp only [staysCached, deindirect_of_valid valid] at stays
  split at stays
  · next shared own =>
    refine ⟨_, rfl, Or.inr ?_⟩
    simp only [decide_eq_true_eq] at stays
    rcases stays with rfl | ⟨-, sameTs⟩
    · rfl
    · simp [Zval.meaning, Storage.meaning, sameTs]
  · next shared owner own =>
    simp only [decide_eq_true_eq] at stays
    subst stays
    exact ⟨_, rfl, Or.inr rfl⟩
  · next shared own hasStream =>
    simp only [decide_eq_true_eq] at stays
    exact ⟨_, rfl, Or.inr (by simp [Zval.meaning, Storage.meaning, stays])⟩
  · next shared owner own =>
    simp only [decide_eq_true_eq] at stays
    obtain ⟨-, rfl⟩ := stays
    exact ⟨_, rfl, Or.inr rfl⟩
  · simp at stays

theorem globalsObjectValid_iff {registry : Registry} (sound : Sound registry) {address : Nat} :
    globalsObjectValid registry address = true ↔ registry.zobjs address ≠ none := by
  simp only [globalsObjectValid, decide_eq_true_eq, sound.table, Option.isSome_iff_ne_none]
  refine ⟨fun valid => valid.2, fun isThere => ⟨?_, isThere⟩⟩
  rintro rfl
  exact isThere sound.null

/-- Whether the sync leaves a value alone depends on two objects only. -/
theorem staysCached_congr {registry after : Registry} (sound : Sound registry)
    (soundAfter : Sound after) {thread : Nat} {storage : Option Storage} {value : Zval}
    (original : ∀ handle, storage = some (.pthreads handle) →
      after.zobjs handle = registry.zobjs handle)
    (own : ∀ object, value = .threaded object → after.zobjs object = registry.zobjs object)
    (valid : validLocalCacheItem value = true) :
    staysCached after thread storage value = staysCached registry thread storage value := by
  cases value with
  | threaded object =>
      have ownTs : tsObjAt after object = tsObjAt registry object := by
        rw [tsObjAt, own object rfl]
        rfl
      cases storage with
      | none => rfl
      | some storage =>
          cases storage with
          | pthreads handle =>
              have same := original handle rfl
              have sameValid :
                  globalsObjectValid after handle = globalsObjectValid registry handle := by
                rw [Bool.eq_iff_iff, globalsObjectValid_iff soundAfter,
                  globalsObjectValid_iff sound, same]
              have sameTs : tsObjAt after handle = tsObjAt registry handle := by
                rw [tsObjAt, same]
                rfl
              simp only [staysCached, deindirect, sameValid, sameTs, ownTs]
          | _ => rfl
  | indirect slot => simp [validLocalCacheItem] at valid
  | _ =>
      cases storage with
      | none => rfl
      | some storage => cases storage <;> rfl

/-- A value that the local table or the pending update holds. -/
def Connection.Keeps (connection : Connection) (value : Zval) : Prop :=
  (∃ table key, connection.properties = some table ∧ table.find key = some value) ∨
    ∃ key, connection.pending = some (.update key value)

theorem Connection.keeps_of_cached {connection : Connection} {key : Key} {value : Zval}
    (cached : connection.cached key = some value) : connection.Keeps value := by
  obtain ⟨found, -⟩ := Option.filter_eq_some_iff.mp cached
  obtain ⟨table, isTable, isThere⟩ := Option.bind_eq_some_iff.mp found
  exact Or.inl ⟨table, key, isTable, isThere⟩

/-- What `pthreads_store_sync_local_properties` does to a connection. -/
structure Synced (registry : Registry) (props : Props) (connection after : Connection) : Prop where
  owner : after.owner = connection.owner
  pending : after.pending = connection.pending
  modcount : after.localPropsModcount = props.modcount
  cached : ∀ key value, after.cached key = some value → connection.cached key = some value ∧
    (connection.localPropsModcount = props.modcount ∨
      Agrees registry value (props.hash.find key))
  keeps : ∀ value, after.Keeps value → connection.Keeps value

theorem syncLocalProperties_synced (registry : Registry) (props : Props)
    (connection : Connection) :
    Synced registry props connection (syncLocalProperties registry props connection) := by
  unfold syncLocalProperties
  split
  · next inSync =>
    exact ⟨rfl, rfl, inSync, fun _ _ cached => ⟨cached, Or.inl inSync⟩, fun _ keeps => keeps⟩
  · refine ⟨rfl, rfl, rfl, ?_, ?_⟩
    · intro key value cached
      obtain ⟨found, valid⟩ := Option.filter_eq_some_iff.mp cached
      cases properties : connection.properties with
      | none => simp [properties] at found
      | some table =>
          simp only [properties, Option.map_some, Option.bind_some, OrderedTable.find_filter]
            at found
          obtain ⟨isThere, stays⟩ := Option.filter_eq_some_iff.mp found
          refine ⟨?_, Or.inr (agrees_of_staysCached valid stays)⟩
          simp [Connection.cached, properties, isThere, valid]
    · rintro value (⟨table, key, isTable, isThere⟩ | waiting)
      · obtain ⟨original, isOriginal, rfl⟩ := Option.map_eq_some_iff.mp isTable
        rw [OrderedTable.find_filter] at isThere
        exact Or.inl ⟨original, key, isOriginal, (Option.filter_eq_some_iff.mp isThere).1⟩
      · exact Or.inr waiting

end Pthreads.Store
