import Pthreads.ArrayQueue
import Pthreads.StoreReads

/-!
# What a conversion leaves in its slot

`pthreads_store_convert` writes into a zval of its caller, which is not initialised
before, and reports success or failure, which no caller looks at.  What it can do
depends on what the restoring thread has: its objects, its classes, and its list of
resources.
-/

namespace Pthreads.Store

open ObjectRegistry

/-- A zval of the caller. -/
inductive Slot where
  /-- It was not written, or what was written is no value. -/
  | garbage
  | holds (value : Zval)

/-- `zend_result`. -/
inductive ZendResult where
  | success
  | failure
deriving DecidableEq, Repr

/-- A class constant, for which `zend_enum_get_case` must be an enum case. -/
inductive ClassConstant where
  | enumCase
  | other
deriving DecidableEq, Repr

/-- The part of a `zend_class_entry` that is consulted for an enum. -/
structure ClassEntry where
  /-- `ZEND_ACC_ENUM`. -/
  isEnum : Bool
  /-- `CE_CONSTANTS_TABLE`. -/
  constants : Bytes → Option ClassConstant

/-- `EG(regular_list)`, with the addresses of the resources. -/
structure RegularList where
  table : OrderedTable Int Nat
  nextFreeElement : Int

/-- `zend_hash_next_index_insert`. -/
def RegularList.nextIndexInsert (list : RegularList) (resource : Nat) : Option RegularList :=
  let index := if list.nextFreeElement = zendLongMin then 0 else list.nextFreeElement
  if (list.table.find index).isSome then none
  else some
    { table := list.table.update index resource
      nextFreeElement := if index < zendLongMax then index + 1 else zendLongMax }

/-- What the restoring thread has. -/
structure Receiver where
  thread : Nat
  registry : Registry
  /-- `zend_lookup_class`. -/
  lookupClass : Bytes → Option ClassEntry
  regularList : RegularList
  /-- The `ptr` of each resource. -/
  resourcePtr : Nat → Nat
  /-- Whether `EG(function_table)` takes another function. -/
  functionTableTakes : Bool

/-- The first resource of the list with the same `ptr`. -/
def Receiver.findResource (receiver : Receiver) (original : Nat) : Option Nat :=
  (receiver.regularList.table.entries.map Prod.snd).find? fun resource =>
    receiver.resourcePtr resource = receiver.resourcePtr original

/-- What a conversion throws. -/
inductive ConversionException where
  /-- `pthreads_ce_ThreadedConnectionException`. -/
  | connection
  /-- An `Error` with the names in its text. -/
  | enumCase (className memberName : Bytes)
deriving DecidableEq, Repr

def ConversionException.message : ConversionException → Bytes
  | .connection =>
      ("pthreads detected an attempt to connect to an object which has already been " ++
        "destroyed").toUTF8.toList
  | .enumCase className memberName =>
      "pthreads failed to restore enum case ".toUTF8.toList ++ className ++ "::".toUTF8.toList ++
        memberName ++ " because either it or the class does not exist".toUTF8.toList

/-- What `pthreads_store_convert` returns, leaves and throws. -/
structure Converted where
  receiver : Receiver
  result : ZendResult
  pzval : Slot
  thrown : Option ConversionException

/-- A conversion that returns `SUCCESS`. -/
def succeeded (receiver : Receiver) (pzval : Slot) : Converted :=
  ⟨receiver, .success, pzval, none⟩

/-- The resource case of `pthreads_store_convert`. -/
def convertResource (receiver : Receiver) (original owner : Nat) : Converted :=
  if owner ≠ receiver.thread then
    match receiver.findResource original with
    | some found => succeeded receiver (.holds (.resource found))
    | none =>
        match receiver.regularList.nextIndexInsert original with
        | some list =>
            succeeded { receiver with regularList := list } (.holds (.resource original))
        | none => succeeded receiver (.holds .null)
  else
    succeeded receiver (.holds (.resource original))

/-- The enum case.  The branch that throws leaves `result` and `pzval` as they are, and
`zend_enum_get_case` takes whatever constant it is given for a case. -/
def convertEnum (receiver : Receiver) (className memberName : Bytes) : Converted :=
  match (receiver.lookupClass className).filter ClassEntry.isEnum with
  | some enumClass =>
      match enumClass.constants memberName with
      | some .enumCase => succeeded receiver (.holds (.enumCase className memberName))
      | some .other => succeeded receiver .garbage
      | none => ⟨receiver, .success, .garbage, some (.enumCase className memberName)⟩
  | none => ⟨receiver, .success, .garbage, some (.enumCase className memberName)⟩

/-- `pthreads_store_convert`, which is only called for a `pthreads_storage`.  Copying the
function of a closure is taken to end. -/
def storeConvert (receiver : Receiver) (fresh : Fresh) : Storage → Option Converted
  | .stringPtr string owner =>
      some (succeeded receiver (.holds (.string
        (if owner = receiver.thread then string else restoreString string fresh.pointer))))
  | .resource original owner => some (convertResource receiver original owner)
  | .closure closure _ =>
      some (if receiver.functionTableTakes then
        succeeded receiver (.holds (.closure { closure with pointer := fresh.pointer }))
      else ⟨receiver, .failure, .holds .null, none⟩)
  | .pthreads address =>
      (globalsObjectConnect receiver.registry receiver.thread address fresh.newAddress
        fresh.newTs).map fun
        | (after, some object) =>
            succeeded { receiver with registry := after } (.holds (.threaded object))
        | (after, none) =>
            ⟨{ receiver with registry := after }, .failure, .holds .null, some .connection⟩
  | .socket socket => some (succeeded receiver (.holds (.socket socket false)))
  | .enumCase className memberName => some (convertEnum receiver className memberName)
  | .null | .bool _ | .long _ | .double _ | .string _ => none

/-- The storage is an `IS_PTR`. -/
def Storage.isPtr : Storage → Bool
  | .null | .bool _ | .long _ | .double _ | .string _ => false
  | _ => true

/-- `pthreads_store_restore_zval_ex`, which does not look at the result. -/
def restoreZvalEx (receiver : Receiver) (fresh : Fresh) : Storage → Option (Receiver × Slot)
  | .null => some (receiver, .holds .null)
  | .bool value => some (receiver, .holds (.bool value))
  | .long value => some (receiver, .holds (.long value))
  | .double bits => some (receiver, .holds (.double bits))
  | .string string => some (receiver, .holds (.string (restoreString string fresh.pointer)))
  | storage =>
      (storeConvert receiver fresh storage).map fun converted =>
        (converted.receiver, converted.pzval)

/-- The operations that restore elements. -/
inductive Restoring where
  | read (key : KeyZval) (type : AccessType)
  | shift
  | pop
  | chunk (size : Int)
  /-- `pthreads_store_tohash`, also into the object's own table. -/
  | toHash
  | fullSync

/-- There is a valid item for the key in the table. -/
def isCachedIn (table : OrderedTable Key Zval) (key : Key) : Bool :=
  ((table.find key).filter validLocalCacheItem).isSome

/-- The elements that an operation restores, in the order of its loop. -/
def Restoring.elements (declared : List Key) (registry : Registry) (props : Props)
    (connection : Connection) : Restoring → List (Key × Storage)
  | .read key type =>
      let member := coerce key
      let synced :=
        if connection.properties.isSome then syncLocalProperties registry props connection
        else connection
      match synced.cached member, props.hash.find member with
      | none, some storage =>
          if ¬ isThreaded storage ∧ type ≠ .read ∧ type ≠ .isset then [] else [(member, storage)]
      | _, _ => []
  | .shift => props.hash.table.entries.head?.toList
  | .pop => props.hash.table.entries.getLast?.toList
  | .chunk size => props.hash.table.entries.take size.toNat
  | .toHash =>
      let own := initLocalProperties declared
        (syncLocalProperties registry props (prepared declared connection))
      props.hash.table.entries.filter fun entry => ¬ isCachedIn own entry.1
  | .fullSync =>
      let own := initLocalProperties declared (syncLocalProperties registry props connection)
      props.hash.table.entries.filter fun entry =>
        ¬ isCachedIn own entry.1 ∧ storageIsCacheable entry.2

/-- Restore elements one after the other, with the slots that are handed on or cached. -/
def restoreAll (receiver : Receiver) (fresh : Key → Fresh) :
    List (Key × Storage) → Option (Receiver × List (Key × Slot))
  | [] => some (receiver, [])
  | entry :: entries => do
      let (restored, slot) ← restoreZvalEx receiver (fresh entry.1) entry.2
      let (last, slots) ← restoreAll restored fresh entries
      some (last, (entry.1, slot) :: slots)

/-- The value is what was stored; a resource is as good as another with the same
`ptr`. -/
def RestoredTo (receiver after : Receiver) (storage : Storage) (value : Zval) : Prop :=
  match storage, value with
  | .resource original _, .resource found =>
      receiver.resourcePtr found = receiver.resourcePtr original
  | _, _ => ∃ meaning, storage.meaning receiver.registry = some meaning ∧
      value.meaning after.registry = some meaning

/-- The conversion has succeeded with the restored value, or failed with null. -/
def Converted.Proper (converted : Converted) (receiver : Receiver) (storage : Storage) : Prop :=
  (converted.result = .success ∧ ∃ value, converted.pzval = .holds value ∧
      RestoredTo receiver converted.receiver storage value) ∨
    (converted.result = .failure ∧ converted.pzval = .holds .null)

/-- The thread has the enum, and the member is one of its cases. -/
def LoadsEnum (receiver : Receiver) (className memberName : Bytes) : Prop :=
  ∃ enumClass, receiver.lookupClass className = some enumClass ∧ enumClass.isEnum = true ∧
    enumClass.constants memberName = some .enumCase

/-- An enum case can be loaded. -/
def Loads (receiver : Receiver) : Storage → Prop
  | .enumCase className memberName => LoadsEnum receiver className memberName
  | _ => True

/-- Moreover a resource of another thread has a place in the list. -/
def Converts (receiver : Receiver) : Storage → Prop
  | .enumCase className memberName => LoadsEnum receiver className memberName
  | .resource original owner =>
      owner = receiver.thread ∨ (receiver.findResource original).isSome ∨
        (receiver.regularList.nextIndexInsert original).isSome
  | _ => True

/-- A handle does not lead to an object under construction, and the allocators return
unused addresses. -/
def Accessible (registry : Registry) (fresh : Fresh) : Storage → Prop
  | .pthreads address =>
      SettledAt registry address ∧ Available registry fresh.newAddress fresh.newTs
  | _ => True

section Converting

variable {receiver : Receiver} {fresh : Fresh} {storage : Storage}

/-- A connection that is made or found stands for the stored object. -/
theorem convertThreaded_proper {address : Nat} (sound : Sound receiver.registry)
    (accessible : Accessible receiver.registry fresh (.pthreads address)) :
    ∃ converted, storeConvert receiver fresh (.pthreads address) = some converted ∧
      converted.Proper receiver (.pthreads address) := by
  obtain ⟨settled, available⟩ := accessible
  cases found : receiver.registry.zobjs address with
  | none =>
      have dead : ¬ globalsObjectValid receiver.registry address = true := by
        simp [globalsObjectValid, sound.table, found]
      exact ⟨_, by simp [storeConvert, globalsObjectConnect, dead]; rfl, Or.inr ⟨rfl, rfl⟩⟩
  | some zobj =>
      obtain ⟨tsObj, points⟩ := Option.isSome_iff_exists.mp (settled zobj found).2
      obtain ⟨after, object, connected⟩ :=
        globalsObjectConnect_succeeds sound receiver.thread available found points
      obtain ⟨restored, isThere, sameTs⟩ :=
        globalsObjectConnect_attached sound found points connected
      refine ⟨_, by simp [storeConvert, connected]; rfl, Or.inl ⟨rfl, _, rfl, ?_⟩⟩
      refine ⟨.threaded tsObj, ?_, ?_⟩
      · simp [Storage.meaning, tsObjAt, found, points]
      · simp [Zval.meaning, tsObjAt, succeeded, isThere, sameTs]

theorem not_proper_of_garbage {converted : Converted} (isGarbage : converted.pzval = .garbage) :
    ¬ converted.Proper receiver storage := by
  rintro (⟨-, value, holds, -⟩ | ⟨-, holds⟩)
  · cases isGarbage.symm.trans holds
  · cases isGarbage.symm.trans holds

/-- Without the enum case the slot is left as it was. -/
theorem convertEnum_garbage_iff {className memberName : Bytes} :
    (convertEnum receiver className memberName).pzval = .garbage ↔
      ¬ LoadsEnum receiver className memberName := by
  unfold convertEnum LoadsEnum
  cases found : receiver.lookupClass className with
  | none => simp
  | some entry =>
      cases isEnum : entry.isEnum with
      | false => simp [Option.filter, isEnum]
      | true =>
          cases constant : entry.constants memberName with
          | none => simp [Option.filter, isEnum, constant]
          | some kind => cases kind <;> simp [Option.filter, isEnum, constant, succeeded]

/-- Nothing of the thread is changed. -/
theorem convertEnum_receiver (className memberName : Bytes) :
    (convertEnum receiver className memberName).receiver = receiver := by
  unfold convertEnum
  split
  · split <;> rfl
  · rfl

theorem convertEnum_eq {className memberName : Bytes}
    (loads : LoadsEnum receiver className memberName) :
    convertEnum receiver className memberName =
      succeeded receiver (.holds (.enumCase className memberName)) := by
  obtain ⟨entry, found, isEnum, isCase⟩ := loads
  simp [convertEnum, found, Option.filter, isEnum, isCase]

theorem convertEnum_proper_iff {className memberName : Bytes} :
    (convertEnum receiver className memberName).Proper receiver
        (.enumCase className memberName) ↔ LoadsEnum receiver className memberName := by
  constructor
  · intro proper
    by_contra missing
    exact not_proper_of_garbage (convertEnum_garbage_iff.mpr missing) proper
  · intro loads
    rw [convertEnum_eq loads]
    exact Or.inl ⟨rfl, _, rfl, _, rfl, rfl⟩

/-- With the list full, success is reported for a null. -/
theorem convertResource_proper_iff {original owner : Nat} :
    (convertResource receiver original owner).Proper receiver (.resource original owner) ↔
      Converts receiver (.resource original owner) := by
  unfold convertResource Converts
  by_cases own : owner = receiver.thread
  · simp only [own, ne_eq, not_true_eq_false, if_false, true_or, iff_true]
    exact Or.inl ⟨rfl, _, rfl, rfl⟩
  · simp only [own, ne_eq, not_false_eq_true, if_true, false_or]
    cases search : receiver.findResource original with
    | some found =>
        have same : receiver.resourcePtr found = receiver.resourcePtr original := by
          simpa using List.find?_some search
        simp only [Option.isSome_some, true_or, iff_true]
        exact Or.inl ⟨rfl, _, rfl, same⟩
    | none =>
        cases inserted : receiver.regularList.nextIndexInsert original with
        | some list =>
            simp only [Option.isSome_some, or_true, iff_true]
            exact Or.inl ⟨rfl, _, rfl, rfl⟩
        | none =>
            simp only [Option.isSome_none, Bool.false_eq_true, or_self, iff_false]
            rintro (⟨-, value, holds, restored⟩ | ⟨failed, -⟩)
            · cases holds
              obtain ⟨meaning, stored, isNull⟩ := restored
              cases stored
              cases isNull
            · cases failed

/-- A conversion keeps its promise exactly if the thread has the enum case, or a place for
the resource, that it needs. -/
theorem storeConvert_proper_iff (sound : Sound receiver.registry) (isPtr : storage.isPtr = true)
    (accessible : Accessible receiver.registry fresh storage) :
    ∃ converted, storeConvert receiver fresh storage = some converted ∧
      (converted.Proper receiver storage ↔ Converts receiver storage) := by
  cases storage with
  | null | bool _ | long _ | double _ | string _ => cases isPtr
  | stringPtr string owner =>
      refine ⟨_, rfl, iff_of_true (Or.inl ⟨rfl, _, rfl, .string string.bytes, rfl, ?_⟩) trivial⟩
      split <;> simp [Zval.meaning, restoreString_bytes]
  | closure closure owner =>
      refine ⟨_, rfl, iff_of_true ?_ trivial⟩
      split
      · exact Or.inl ⟨rfl, _, rfl, .closure closure.source, rfl, rfl⟩
      · exact Or.inr ⟨rfl, rfl⟩
  | pthreads address =>
      obtain ⟨converted, isConverted, proper⟩ := convertThreaded_proper sound accessible
      exact ⟨converted, isConverted, iff_of_true proper trivial⟩
  | resource original owner => exact ⟨_, rfl, convertResource_proper_iff⟩
  | socket socket =>
      exact ⟨_, rfl, iff_of_true (Or.inl ⟨rfl, _, rfl, .socket socket.bsdSocket, rfl, rfl⟩) trivial⟩
  | enumCase className memberName => exact ⟨_, rfl, convertEnum_proper_iff⟩

/-- Restoring changes no class, and the objects only by a connection. -/
theorem restoreZvalEx_receiver {after : Receiver} {slot : Slot}
    (restored : restoreZvalEx receiver fresh storage = some (after, slot)) :
    after.lookupClass = receiver.lookupClass ∧
      (after.registry = receiver.registry ∨ ∃ address object, storage = .pthreads address ∧
        globalsObjectConnect receiver.registry receiver.thread address fresh.newAddress
          fresh.newTs = some (after.registry, object)) := by
  cases storage with
  | null | bool _ | long _ | double _ | string _ | stringPtr _ _ | socket _ =>
      cases restored
      exact ⟨rfl, Or.inl rfl⟩
  | closure closure owner =>
      cases restored
      split <;> exact ⟨rfl, Or.inl rfl⟩
  | pthreads address =>
      obtain ⟨converted, isConverted, equal⟩ := Option.map_eq_some_iff.mp restored
      obtain ⟨⟨registry, object⟩, connected, rfl⟩ := Option.map_eq_some_iff.mp isConverted
      cases object with
      | none =>
          cases equal
          exact ⟨rfl, Or.inr ⟨address, none, rfl, connected⟩⟩
      | some object =>
          cases equal
          exact ⟨rfl, Or.inr ⟨address, some object, rfl, connected⟩⟩
  | resource original owner =>
      cases restored
      unfold convertResource
      split
      · split
        · exact ⟨rfl, Or.inl rfl⟩
        · split <;> exact ⟨rfl, Or.inl rfl⟩
      · exact ⟨rfl, Or.inl rfl⟩
  | enumCase className memberName =>
      cases restored
      unfold convertEnum
      split
      · split <;> exact ⟨rfl, Or.inl rfl⟩
      · exact ⟨rfl, Or.inl rfl⟩

/-- Only an enum case that cannot be loaded leaves garbage. -/
theorem restoreZvalEx_garbage_iff (sound : Sound receiver.registry)
    (accessible : Accessible receiver.registry fresh storage) :
    ∃ after slot, restoreZvalEx receiver fresh storage = some (after, slot) ∧
      (slot = .garbage ↔ ¬ Loads receiver storage) := by
  have written : ∀ {value : Zval}, (Slot.holds value = .garbage ↔ ¬ True) := by simp
  cases storage with
  | null | bool _ | long _ | double _ | string _ => exact ⟨_, _, rfl, written⟩
  | stringPtr string owner => exact ⟨_, _, rfl, written⟩
  | socket socket => exact ⟨_, _, rfl, written⟩
  | closure closure owner =>
      refine ⟨_, _, rfl, ?_⟩
      split <;> exact written
  | resource original owner =>
      refine ⟨_, _, rfl, ?_⟩
      unfold convertResource
      split
      · split
        · exact written
        · split <;> exact written
      · exact written
  | pthreads address =>
      obtain ⟨converted, isConverted, proper⟩ := convertThreaded_proper sound accessible
      refine ⟨_, _, by simp only [restoreZvalEx, isConverted, Option.map_some]; rfl, ?_⟩
      rcases proper with ⟨-, value, holds, -⟩ | ⟨-, holds⟩
      · rw [holds]
        exact written
      · rw [holds]
        exact written
  | enumCase className memberName => exact ⟨_, _, rfl, convertEnum_garbage_iff⟩

/-- A new connection may stand where a dead handle leads, and is constructed. -/
theorem globalsObjectConnect_settledAt {registry after : Registry} {result : Option Nat}
    {thread address newAddress newTs other : Nat} (settled : SettledAt registry other)
    (connected : globalsObjectConnect registry thread address newAddress newTs =
      some (after, result)) : SettledAt after other := by
  rcases globalsObjectConnect_cases connected with ⟨-, rfl, -⟩ | ⟨source, -, found, rest⟩
  · exact settled
  · rcases rest with ⟨-, rfl, -⟩ | ⟨shared, -, ⟨connection, -, rfl, -⟩ | ⟨created, -⟩⟩
    · exact settled
    · exact settled
    · obtain ⟨allocated, built, joined, reached, creates⟩ := createConnection_creates created
      intro zobj isThere
      by_cases same : other = newAddress
      · subst same
        obtain ⟨placed, -⟩ := creates.placed found
        cases isThere.symm.trans placed
        exact ⟨rfl, rfl⟩
      · rw [creates.keeps same] at isThere
        exact settled zobj isThere

theorem restoreZvalEx_sound {after : Receiver} {slot : Slot} (sound : Sound receiver.registry)
    (restored : restoreZvalEx receiver fresh storage = some (after, slot)) :
    Sound after.registry := by
  rcases (restoreZvalEx_receiver restored).2 with same | ⟨address, object, -, connected⟩
  · rw [same]
    exact sound
  · exact globalsObjectConnect_sound sound connected

/-- A connection leaves the storages accessible. -/
theorem Accessible.connected {other : Storage} {otherFresh : Fresh} {registry after : Registry}
    {thread address newAddress newTs : Nat} {object : Option Nat} (sound : Sound registry)
    (connected : globalsObjectConnect registry thread address newAddress newTs =
      some (after, object)) (apart : otherFresh.newAddress ≠ newAddress)
    (accessible : Accessible registry otherFresh other) : Accessible after otherFresh other := by
  cases other with
  | pthreads handle =>
      obtain ⟨settled, available⟩ := accessible
      exact ⟨globalsObjectConnect_settledAt settled connected,
        (globalsObjectConnect_extends connected).absent _ available.address apart,
        available.inRange, globalsObjectConnect_tsObjs sound connected available.tsObj⟩
  | _ => trivial

/-- Restoring one storage leaves the others accessible. -/
theorem Accessible.later {other : Storage} {otherFresh : Fresh} {after : Receiver} {slot : Slot}
    (sound : Sound receiver.registry)
    (restored : restoreZvalEx receiver fresh storage = some (after, slot))
    (apart : otherFresh.newAddress ≠ fresh.newAddress)
    (accessible : Accessible receiver.registry otherFresh other) :
    Accessible after.registry otherFresh other := by
  rcases (restoreZvalEx_receiver restored).2 with same | ⟨source, object, -, connected⟩
  · rw [same]
    exact accessible
  · exact accessible.connected sound connected apart

end Converting

section Sequences

variable {receiver : Receiver} {fresh : Key → Fresh}

/-- The elements are accessible, each with its own new object. -/
structure Supplied (registry : Registry) (fresh : Key → Fresh) (entries : List (Key × Storage)) :
    Prop where
  accessible : ∀ entry ∈ entries, Accessible registry (fresh entry.1) entry.2
  apart : entries.Pairwise fun first second =>
    (fresh second.1).newAddress ≠ (fresh first.1).newAddress

theorem Supplied.sublist {registry : Registry} {entries fewer : List (Key × Storage)}
    (supplied : Supplied registry fresh entries) (sublist : fewer.Sublist entries) :
    Supplied registry fresh fewer :=
  ⟨fun entry isIn => supplied.accessible entry (sublist.subset isIn),
    supplied.apart.sublist sublist⟩

theorem loads_congr {other : Receiver} (same : other.lookupClass = receiver.lookupClass)
    (storage : Storage) : Loads other storage ↔ Loads receiver storage := by
  cases storage with
  | enumCase className memberName => simp only [Loads, LoadsEnum, same]
  | _ => exact Iff.rfl

/-- A sequence of restores leaves garbage exactly if an enum case is missing. -/
theorem restoreAll_garbage_iff {entries : List (Key × Storage)} (sound : Sound receiver.registry)
    (supplied : Supplied receiver.registry fresh entries) :
    ∃ after slots, restoreAll receiver fresh entries = some (after, slots) ∧
      ((∀ slot ∈ slots, slot.2 ≠ .garbage) ↔ ∀ entry ∈ entries, Loads receiver entry.2) := by
  induction entries generalizing receiver with
  | nil => exact ⟨receiver, [], rfl, by simp⟩
  | cons entry entries ih =>
      obtain ⟨others, rest⟩ := List.pairwise_cons.mp supplied.apart
      obtain ⟨next, slot, restored, garbage⟩ :=
        restoreZvalEx_garbage_iff sound (supplied.accessible entry List.mem_cons_self)
      have suppliedNext : Supplied next.registry fresh entries := by
        refine ⟨fun other isIn => ?_, rest⟩
        exact (supplied.accessible other (List.mem_cons_of_mem _ isIn)).later sound restored
          (others other isIn)
      obtain ⟨last, slots, all, clean⟩ := ih (restoreZvalEx_sound sound restored) suppliedNext
      refine ⟨last, (entry.1, slot) :: slots, by simp [restoreAll, restored, all], ?_⟩
      have sameClasses := loads_congr (restoreZvalEx_receiver restored).1
      simp only [sameClasses] at clean
      rw [List.forall_mem_cons, List.forall_mem_cons, clean]
      exact and_congr_left fun _ => by rw [Ne, garbage, not_not]

/-- Every operation restores elements of the table, in its order. -/
theorem Restoring.elements_sublist (declared : List Key) (registry : Registry) (props : Props)
    (connection : Connection) (call : Restoring) :
    (call.elements declared registry props connection).Sublist props.hash.table.entries := by
  cases call with
  | read key type =>
      simp only [Restoring.elements]
      split
      · next storage _ isStored =>
        split
        · exact List.nil_sublist _
        · exact List.singleton_sublist.mpr (OrderedTable.find_eq_some_iff.mp isStored)
      · exact List.nil_sublist _
  | shift =>
      cases entries : props.hash.table.entries with
      | nil => simp [Restoring.elements, entries]
      | cons entry entries => simp [Restoring.elements, entries]
  | pop =>
      cases last : props.hash.table.entries.getLast? with
      | none => simp [Restoring.elements, last]
      | some entry =>
          simpa [Restoring.elements, last] using List.mem_of_getLast? last
  | chunk size => exact List.take_sublist _ _
  | toHash => exact List.filter_sublist
  | fullSync => exact List.filter_sublist

end Sequences

section Agreement

variable {receiver : Receiver} {enumCases : EnumCases} {fresh : Key → Fresh}

/-- The classes of the thread are those that `restoreZval` goes by. -/
structure Knows (receiver : Receiver) (enumCases : EnumCases) : Prop where
  enums : ∀ className memberName,
    enumCases receiver.thread className memberName = true ↔ LoadsEnum receiver className memberName
  functions : receiver.functionTableTakes = true

/-- The storage is no resource of another thread. -/
def OwnResource (thread : Nat) (storage : Storage) : Prop :=
  ∀ original owner, storage = .resource original owner → owner = thread

/-- A value that `restoreZval` gives is left in the slot. -/
theorem restoreZvalEx_eq {registry : Registry} {one : Fresh} {storage : Storage} {value : Zval}
    (knows : Knows receiver enumCases) (own : OwnResource receiver.thread storage)
    (restored : restoreZval enumCases receiver.registry receiver.thread one storage =
      some (registry, value)) :
    restoreZvalEx receiver one storage =
      some ({ receiver with registry := registry }, .holds value) := by
  cases storage with
  | null | bool _ | long _ | double _ | string _ | socket _ =>
      cases restored
      rfl
  | stringPtr string owner =>
      simp only [restoreZval] at restored
      split at restored
      · next same =>
        cases restored
        simp [restoreZvalEx, storeConvert, succeeded, same]
      · next different =>
        cases restored
        simp [restoreZvalEx, storeConvert, succeeded, different]
  | closure closure owner =>
      cases restored
      have converted : storeConvert receiver one (.closure closure owner) =
          some (succeeded receiver (.holds (.closure { closure with pointer := one.pointer }))) :=
        congrArg some (if_pos knows.functions)
      simp only [restoreZvalEx, converted, Option.map_some]
      rfl
  | pthreads address =>
      obtain ⟨⟨after, object⟩, connected, equal⟩ := Option.map_eq_some_iff.mp restored
      cases object with
      | none =>
          cases equal
          simp [restoreZvalEx, storeConvert, connected]
      | some object =>
          cases equal
          simp [restoreZvalEx, storeConvert, connected, succeeded]
  | resource original owner =>
      cases restored
      have same := own original owner rfl
      simp [restoreZvalEx, storeConvert, convertResource, same, succeeded]
  | enumCase className memberName =>
      obtain ⟨isLoaded, ⟨⟩⟩ := Option.ite_none_right_eq_some.mp restored
      simp [restoreZvalEx, storeConvert, convertEnum_eq ((knows.enums _ _).mp isLoaded),
        succeeded]

/-- The slot of an element, which is left as it was when there is no value. -/
def slotOf : Option Zval → Slot
  | some value => .holds value
  | none => .garbage

theorem restoreZvalEx_restoreElement {registry : Registry} {one : Fresh} {storage : Storage}
    {value : Option Zval} (knows : Knows receiver enumCases)
    (own : OwnResource receiver.thread storage)
    (restored : restoreElement enumCases receiver.registry receiver.thread one storage =
      some (registry, value)) :
    restoreZvalEx receiver one storage =
      some ({ receiver with registry := registry }, slotOf value) := by
  rcases restoreElement_cases restored with ⟨written, rfl, -, isRestored⟩ | ⟨rfl, rfl, cannot⟩
  · exact restoreZvalEx_eq knows own isRestored
  · cases storage with
    | enumCase className memberName =>
        have missing : ¬ LoadsEnum receiver className memberName := by
          rw [← knows.enums]
          simpa [unloadable] using cannot
        simp only [restoreZvalEx, storeConvert, Option.map_some,
          convertEnum_garbage_iff.mpr missing, convertEnum_receiver]
        rfl
    | _ => cases cannot

/-- What is taken from the front is what the slots hold. -/
theorem restoreAll_takeFront {props : Props} {connection : Connection} {removed : Removed}
    {count : Nat} (knows : Knows receiver enumCases) (owner : connection.owner = receiver.thread)
    (own : ∀ entry ∈ props.hash.table.entries, OwnResource receiver.thread entry.2)
    (taken : takeFront enumCases receiver.registry props connection fresh count = some removed) :
    restoreAll receiver fresh (props.hash.table.entries.take count) =
      some ({ receiver with registry := removed.registry },
        removed.values.map fun element => (element.1, slotOf element.2)) := by
  induction count generalizing receiver props connection removed with
  | zero =>
      cases taken
      rfl
  | succ count ih =>
      rcases takeFront_succ_cases taken with ⟨entries, rfl⟩ |
        ⟨entry, rest, first, later, entries, isFirst, isLater, rfl⟩
      · rw [entries]
        rfl
      · obtain ⟨⟨registry, value⟩, restored, rfl⟩ := Option.map_eq_some_iff.mp isFirst
        rw [entries] at own ⊢
        have left := delete_head entries
        rw [owner] at restored
        have slot := restoreZvalEx_restoreElement knows (own entry List.mem_cons_self) restored
        have ownLeft : ∀ other ∈ (props.hash.delete entry.1).table.entries,
            OwnResource receiver.thread other.2 := by
          rw [left]
          exact fun other isIn => own other (List.mem_cons_of_mem _ isIn)
        have others := @ih { receiver with registry := registry }
          { props with hash := props.hash.delete entry.1 } (evictLocalProperty connection entry.1)
          later ⟨knows.enums, knows.functions⟩ owner ownLeft isLater
        simp only [left] at others
        simp [restoreAll, slot, others]

end Agreement

/-- A thread with no classes of its own and an empty list of resources. -/
def bareReceiver : Receiver where
  thread := 1
  registry := ObjectRegistry.initial
  lookupClass := fun _ => none
  regularList := ⟨OrderedTable.empty, zendLongMin⟩
  resourcePtr := fun resource => resource
  functionTableTakes := true

end Pthreads.Store
