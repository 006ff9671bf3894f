import Pthreads.StoreReads

/-!
# Two ways to merge one ThreadedArray into another

`pthreads_store_merge` copies the storages of a ThreadedArray from table to table.
The array that user code gets from the same object takes the other path: its
elements were restored, and each is saved again and entered in the local table
of the destination.  This file sets the two side by side, together with the
memory in which the destination is read later, when the source may be gone and
with it what nothing else kept alive.
-/

namespace Pthreads.Store

open ObjectRegistry GuardedRuns

/-- A merge on one thread, between two objects of the class ThreadedArray, which
is final and declares no properties. -/
structure Setting where
  enumCases : EnumCases
  registry : Registry
  destination : Props
  /-- The connection to the destination that the merge goes through. -/
  connection : Connection
  source : Props
  /-- The connection of the same thread to the source. -/
  sourceConnection : Connection
  overwrite : Bool

namespace Setting

variable (setting : Setting)

/-- The storages of the object copied into the destination, before the count is bumped. -/
def copied (pointers : Key → Nat) : Merged :=
  setting.source.hash.table.entries.foldl (mergeStorage setting.overwrite pointers)
    ⟨setting.destination, setting.connection, false, []⟩

/-- `ThreadedArray::merge` of the object. -/
def mergeDirectly (pointers : Key → Nat) : Merged :=
  storeMergeThreaded setting.destination setting.connection setting.source.hash.table.entries
    setting.overwrite pointers

/-- The plain array obtained from the object. -/
def plainArray (fresh : Key → Fresh) : Option (Registry × OrderedTable Key Zval) :=
  (storeToHash setting.enumCases [] setting.registry setting.source setting.sourceConnection fresh
    OrderedTable.empty).map fun (registry, _, table) => (registry, table)

/-- `ThreadedArray::merge` of that array. -/
def mergeArray (fresh written : Key → Fresh) : Option WrittenAll := do
  let (registry, table) ← setting.plainArray fresh
  storeMergeArray [] setting.overwrite true written table.entries
    ⟨registry, setting.destination, setting.connection, []⟩

end Setting

/-- What there is in memory when the destination is read. -/
structure Memory where
  registry : Registry
  /-- The `zend_closure`s that were freed. -/
  freedClosures : Nat → Bool
  /-- The keys of the destination whose storage has names of an enum case that
  were freed. -/
  freedNames : Key → Bool

/-- Restoring the storage would read freed memory. -/
def Memory.dangling (memory : Memory) (key : Key) : Storage → Bool
  | .closure closure _ => memory.freedClosures closure.pointer
  | .enumCase _ _ => memory.freedNames key
  | _ => false

/-- What user code sees of a read. -/
inductive Seen where
  | value (meaning : Option Meaning)
  | undefined
  | indirectModification
  /-- "pthreads failed to restore enum case %s::%s because either it or the class does not
  exist" -/
  | unloadable
deriving DecidableEq, Repr

def ReadOutcome.seen (registry : Registry) : ReadOutcome → Seen
  | .value found => .value (found.meaning registry)
  | .undefined => .undefined
  | .indirectModification => .indirectModification

/-- The local table as `pthreads_store_read` finds it. -/
def syncedForRead (registry : Registry) (props : Props) (connection : Connection) : Connection :=
  if connection.properties.isSome then syncLocalProperties registry props connection
  else connection

/-- `pthreads_store_read`, with no result where it reads freed memory. -/
def readLater (enumCases : EnumCases) (memory : Memory) (props : Props) (connection : Connection)
    (key : KeyZval) (fresh : Fresh) : Option Seen :=
  let uncached := ((syncedForRead memory.registry props connection).cached (coerce key)).isNone
  if uncached ∧ (props.hash.find (coerce key)).any (memory.dangling (coerce key)) then none
  else if uncached ∧ (props.hash.find (coerce key)).any (unloadable enumCases connection.owner)
  then some .unloadable
  else
    (storeRead enumCases memory.registry props connection key .read fresh).map
      fun (registry, _, outcome) => outcome.seen registry

/-- Some value that the local table or the pending update holds passes the test. -/
def Connection.keepsAny (connection : Connection) (test : Zval → Bool) : Bool :=
  (connection.properties.any fun table => table.entries.any fun entry => test entry.2) ||
    match connection.pending with
    | some (.update _ value) => test value
    | _ => false

def isClosure (pointer : Nat) : Zval → Bool
  | .closure closure => closure.pointer = pointer
  | _ => false

/-- A local table keeps its closures alive. -/
def Connection.holdsClosure (connection : Connection) (pointer : Nat) : Bool :=
  connection.keepsAny (isClosure pointer)

/-- What nothing but the source keeps alive while it exists. -/
structure Dependents where
  /-- The zend objects with their threads, the connections to the source among
  them. -/
  objects : List (Nat × Nat)
  /-- What the local table of a zend object keeps alive. -/
  members : Nat → List Nat
  closures : Nat → Bool
  /-- Whether the names in the enum storage under a key of the source are
  permanent; otherwise they are freed with the storage. -/
  permanentNames : Key → Bool

/-- The objects that the local table of the destination keeps alive. -/
inductive Spared (members : Nat → List Nat) (connection : Connection) : Nat → Prop
  | held {address : Nat} : connection.holds address = true → Spared members connection address
  | member {address member : Nat} : Spared members connection address → member ∈ members address →
      Spared members connection member

/-- The registry once the source is destroyed: the objects that depend on it are
freed, but for those that the destination has come to keep alive. -/
def Destroys (dependents : Dependents) (connection : Connection) (registry later : Registry) :
    Prop :=
  ∃ freed : List (Nat × Nat),
    (∀ entry, entry ∈ freed ↔ entry ∈ dependents.objects ∧
      ¬ Spared dependents.members connection entry.2) ∧
    execute ObjectRegistry.step registry (freed.map fun entry => .free entry.1 entry.2) =
      some later

/-- Nothing has been freed yet. -/
def Memory.intact (registry : Registry) : Memory := ⟨registry, fun _ => false, fun _ => false⟩

/-- Storages with non-permanent names of enum cases, which
`pthreads_store_hard_copy_storage` shares between the two tables. -/
def sharesNames (dependents : Dependents) (source : Props) (written : List Key) (key : Key) :
    Bool :=
  key ∈ written && !dependents.permanentNames key &&
    (source.hash.find key).any fun storage =>
      match storage with
      | .enumCase _ _ => true
      | _ => false

/-- The memory after the source was merged directly and destroyed. -/
def Memory.afterDirect (dependents : Dependents) (source : Props) (merged : Merged)
    (later : Registry) : Memory where
  registry := later
  freedClosures := fun pointer =>
    dependents.closures pointer && !merged.connection.holdsClosure pointer
  freedNames := sharesNames dependents source merged.written

/-- The memory after the array was merged and the source destroyed. -/
def Memory.afterArray (dependents : Dependents) (written : WrittenAll) (later : Registry) :
    Memory where
  registry := later
  freedClosures := fun pointer =>
    dependents.closures pointer && !written.connection.holdsClosure pointer
  freedNames := fun _ => false

/-- Every key reads the same in both, whatever addresses the allocators return. -/
def ReadsAlike (enumCases : EnumCases) (memory memory' : Memory) (props props' : Props)
    (connection connection' : Connection) : Prop :=
  ∀ key fresh fresh', Available memory.registry fresh.newAddress fresh.newTs →
    Available memory'.registry fresh'.newAddress fresh'.newTs →
      readLater enumCases memory props connection key fresh =
        readLater enumCases memory' props' connection' key fresh'

/-- The two ways lead to the same destination: the same keys in the same order,
and the same values read through the connection of the merge and through another,
both at once and when the source has been destroyed. -/
structure PathsAgree (setting : Setting) (dependents : Dependents) (other : Connection)
    (merged : Merged) (written : WrittenAll) (direct array : Registry) : Prop where
  keys : merged.props.hash.table.keys = written.props.hash.table.keys
  now : ReadsAlike setting.enumCases (.intact setting.registry) (.intact written.registry)
    merged.props written.props merged.connection written.connection
  nowOther : ReadsAlike setting.enumCases (.intact setting.registry) (.intact written.registry)
    merged.props written.props other other
  later : ReadsAlike setting.enumCases (.afterDirect dependents setting.source merged direct)
    (.afterArray dependents written array) merged.props written.props merged.connection
    written.connection
  laterOther : ReadsAlike setting.enumCases
    (.afterDirect dependents setting.source merged direct)
    (.afterArray dependents written array) merged.props written.props other other

/-- A storage of one of the two tables. -/
def Setting.Stores (setting : Setting) (storage : Storage) : Prop :=
  (∃ key, setting.destination.hash.find key = some storage) ∨
    ∃ key, setting.source.hash.find key = some storage

/-- The merge writes the key. -/
def Setting.Writes (setting : Setting) (key : Key) : Prop :=
  key ∈ setting.source.hash.table.keys ∧
    (setting.overwrite = true ∨ setting.destination.hash.find key = none)

/-- The first element that the merge writes. -/
def Setting.firstWritten (setting : Setting) : Option (Key × Storage) :=
  setting.source.hash.table.entries.find? fun entry =>
    setting.overwrite || (setting.destination.hash.find entry.1).isNone

/-- The local table of the destination after the sync that the first write makes. -/
def Setting.syncedTable (setting : Setting) : Connection :=
  match setting.firstWritten with
  | none => setting.connection
  | some (key, storage) =>
      syncLocalProperties setting.registry
        { setting.destination with hash := setting.destination.hash.update key storage }
        setting.connection

/-- What the writes of the elements enter in the local table. -/
def Setting.entering (setting : Setting) (table : OrderedTable Key Zval) : Connection :=
  { setting.connection with
    properties := some (table.filter fun key value =>
      retainInLocalCache value && key ∈ setting.source.hash.table.keys &&
        (setting.overwrite || (setting.destination.hash.find key).isNone))
    pending := none }

/-- The local table of the source, as the copy into the array finds it. -/
def Setting.sourceTable (setting : Setting) : Connection :=
  syncLocalProperties setting.registry setting.source (prepared [] setting.sourceConnection)

/-- The value is no reference, and can be stored if its type can be: a socket is
not exported as a stream. -/
def plain : Zval → Bool
  | .reference _ | .indirect _ | .socket _ true => false
  | _ => true

/-- The local table keeps a value that is restored from the storage. -/
def storageRetained (registry : Registry) : Storage → Bool
  | .string _ | .stringPtr _ _ | .closure _ _ | .socket _ => true
  | .pthreads address => (tsObjAt registry address).isSome
  | _ => false

/-- What every state of the two objects provides: the counts of the connections
are not ahead, the objects that storages and local tables refer to are
constructed, and a local table in sync has only what it retains. -/
structure Setting.Consistent (setting : Setting) : Prop where
  reached : Reaches ObjectRegistry.step anyAction ObjectRegistry.initial setting.registry
  sameThread : setting.sourceConnection.owner = setting.connection.owner
  counts : setting.connection.localPropsModcount ≤ setting.destination.modcount
  stored : ∀ address, setting.Stores (.pthreads address) → SettledAt setting.registry address
  held : ∀ value, setting.connection.Keeps value → SettledValue setting.registry value
  sourceHeld : ∀ value, setting.sourceConnection.Keeps value →
    SettledValue setting.registry value
  retains : ∀ key value,
    setting.connection.localPropsModcount = setting.destination.modcount →
      setting.connection.cached key = some value → retainInLocalCache value = true

/-- Nothing of what other claims are about makes the two ways see different elements:
the keys of the source are canonical; its local table shows what its storages hold, in
values that can be stored; and handles lead to originals, which no new connection
replaces. -/
structure Setting.Regular (setting : Setting) (fresh : Key → Fresh) : Prop where
  canonical : ∀ key, setting.Writes key → coerce key.toZval = key
  current : ∀ key storage value, setting.Writes key →
    setting.source.hash.find key = some storage → setting.sourceTable.cached key = some value →
      (storage.meaning setting.registry).isSome ∧
        value.meaning setting.registry = storage.meaning setting.registry ∧ plain value = true
  original : ∀ key address zobj, setting.Writes key →
    setting.source.hash.find key = some (.pthreads address) →
      setting.registry.zobjs address = some zobj → zobj.originalZobj = none
  unreplaced : ∀ address, setting.Stores (.pthreads address) →
    setting.registry.zobjs address = none →
      ∀ key ∈ setting.source.hash.table.keys, (fresh key).newAddress ≠ address

/-- The local table of the destination has nothing under the keys whose new values it
does not take. -/
def Setting.Tidy (setting : Setting) : Prop :=
  ∀ key storage, setting.Writes key → setting.source.hash.find key = some storage →
    storageRetained setting.registry storage = false → setting.syncedTable.cached key = none

/-- The object goes with the source. -/
def Dependents.Object (dependents : Dependents) (address : Nat) : Prop :=
  ∃ entry ∈ dependents.objects, entry.2 = address

/-- Nothing that is written goes with the source, and what the destination has under other
keys goes with it on both ways or on neither: it is not entered in the local table, by
itself or below what is, and no entry of an outdated local table is kept for it. -/
structure Setting.Independent (setting : Setting) (dependents : Dependents)
    (table : OrderedTable Key Zval) : Prop where
  objects : ∀ key address, setting.Writes key →
    setting.source.hash.find key = some (.pthreads address) → ¬ dependents.Object address
  closures : ∀ key closure owner, setting.Writes key →
    setting.source.hash.find key = some (.closure closure owner) →
      dependents.closures closure.pointer = false
  names : ∀ key className memberName, setting.Writes key →
    setting.source.hash.find key = some (.enumCase className memberName) →
      dependents.permanentNames key = true
  notEntered : ∀ key address, ¬ setting.Writes key →
    setting.destination.hash.find key = some (.pthreads address) → dependents.Object address →
      ¬ Spared dependents.members (setting.entering table) address
  notKept : ∀ key address, ¬ setting.Writes key →
    setting.destination.hash.find key = some (.pthreads address) → dependents.Object address →
      setting.firstWritten.isSome →
        setting.connection.localPropsModcount ≠ setting.destination.modcount →
          setting.syncedTable.cached key = none
  closuresNotEntered : ∀ key closure owner, ¬ setting.Writes key →
    setting.destination.hash.find key = some (.closure closure owner) →
      dependents.closures closure.pointer = true →
        (setting.entering table).holdsClosure closure.pointer = false

/-- Only the source keeps its dependents alive, so the local tables of the destination do
not, and neither do objects that outlast it. -/
structure Dependents.Apart (dependents : Dependents) (connection : Connection) : Prop where
  objects : ∀ address, connection.holds address = true → ¬ dependents.Object address
  closures : ∀ pointer, connection.holdsClosure pointer = true →
    dependents.closures pointer = false
  members : ∀ address, ¬ dependents.Object address →
    ∀ member ∈ dependents.members address, ¬ dependents.Object member

/-- Any other connection to the destination. -/
structure Setting.Fits (setting : Setting) (dependents : Dependents) (other : Connection) :
    Prop where
  counts : other.localPropsModcount ≤ setting.destination.modcount
  held : ∀ value, other.Keeps value → SettledValue setting.registry value
  apart : dependents.Apart other

/-- The allocators can still return an address. -/
def Roomy (registry : Registry) : Prop :=
  ∃ newAddress newTs, Available registry newAddress newTs

end Pthreads.Store
