import Pthreads.ObjectHandles
import Pthreads.StoreRuns

/-!
# Graphs of Threaded objects handed over to their creator

The shared properties of Threaded objects refer to other Threaded objects, so
the shared objects form a graph.  A storage does not keep its object alive: only
the thread that created it does.  Before a child thread destroys its objects, the
creator therefore walks the graph in `pthreads_store_full_sync_local_properties`
and connects to what it finds, once from `pthreads_join` and once for each task
that `pthreads_worker_collect_tasks` visits.  This file models the walk with its
recursion guards, the destruction that follows, and the reads of the creator
after it.
-/

namespace Pthreads.ObjectGraph

open ObjectRegistry (Registry ZendObject baseFree globalsObjectValid)
open Store

/-- `std.properties` and `local_props_modcount` of a zend object. -/
structure LocalTable where
  properties : Option (OrderedTable Key Zval)
  localPropsModcount : Int

/-- The objects in memory, the properties of the shared ones and the local tables
of the zend objects. -/
structure World where
  registry : Registry
  props : Nat → Props
  locals : Nat → LocalTable

/-- The thread that works, and what its classes and workers give it. -/
structure Setting where
  thread : Nat
  enumCases : EnumCases
  /-- The declared properties of the class of each shared object. -/
  declared : Nat → List Key
  /-- Whether the class has string defaults, so that a new connection has a table. -/
  hasTable : Nat → Bool
  /-- The queue `worker_data->gc` of each zend object; it is empty where there is
  no `worker_data`. -/
  tasks : Nat → List Nat

/-- A zend object as the operations of the store see it. -/
def World.connection (world : World) (thread address : Nat) : Connection :=
  ⟨thread, (world.locals address).properties, (world.locals address).localPropsModcount, none⟩

def World.setLocal (world : World) (address : Nat) (connection : Connection) : World :=
  { world with
    locals := Function.update world.locals address
      ⟨connection.properties, connection.localPropsModcount⟩ }

/-- The world with another registry, in which an object may have been created
where none stood. -/
def World.withRegistry (setting : Setting) (world : World) (registry : Registry)
    (newAddress : Nat) : World :=
  let changed := { world with registry := registry }
  if world.registry.zobjs newAddress = none then
    changed.setLocal newAddress (freshConnection setting.thread
      ((tsObjAt registry newAddress).any setting.hasTable))
  else changed

/-- `zend_hash_index_update` and `zend_hash_str_update` on `std.properties`. -/
def World.cache (world : World) (address : Nat) (key : Key) (value : Zval) : World :=
  { world with
    locals := Function.update world.locals address
      { world.locals address with
        properties := some ((((world.locals address).properties).getD OrderedTable.empty).update
          key value) } }

section Walk

variable (setting : Setting) (fresh : Nat → Key → Fresh)

/-- The recursion into a value that is a Threaded object. -/
def descend (recurse : World → Nat → Option World) (world : World) : Zval → Option World
  | .threaded object => recurse world object
  | _ => some world

/-- One element of `pthreads_store_full_sync_local_properties`.  What is in the
local table already is passed over. -/
def fullSyncMember (recurse : World → Nat → Option World) (address : Nat) (world : World)
    (entry : Key × Storage) : Option World :=
  if ((world.connection setting.thread address).cached entry.1).isSome ∨
      ¬ storageIsCacheable entry.2 then
    some world
  else do
    let (registry, value) ← restoreZval setting.enumCases world.registry setting.thread
      (fresh address entry.1) entry.2
    let restored := world.withRegistry setting registry (fresh address entry.1).newAddress
    let deeper ← descend recurse restored value
    some (deeper.cache address entry.1 value)

/-- `pthreads_worker_sync_collectable_tasks`. -/
def workerSyncCollectableTasks (recurse : World → Nat → Option World) (world : World)
    (address : Nat) : Option World :=
  (setting.tasks address).foldlM recurse world

/-- `pthreads_store_full_sync_local_properties`.  The objects whose recursion is
protected are listed, and the depth of the recursion is bounded by the fuel. -/
def fullSync : Nat → List Nat → World → Nat → Option World
  | 0, _, _, _ => none
  | fuel + 1, guarded, world, address =>
      if address ∈ guarded then some world
      else do
        let tsObj ← tsObjAt world.registry address
        let props := world.props tsObj
        let synced := syncLocalProperties world.registry props
          (world.connection setting.thread address)
        let opened := world.setLocal address (prepared (setting.declared tsObj) synced)
        let filled ← props.hash.table.entries.foldlM
          (fullSyncMember setting fresh (fullSync fuel (address :: guarded)) address) opened
        workerSyncCollectableTasks setting (fullSync fuel (address :: guarded)) filled address

/-- What `pthreads_join` does between `PTHREADS_MONITOR_AWAIT_JOIN` and
`PTHREADS_MONITOR_EXIT`. -/
def joinSync (fuel : Nat) (world : World) (thread : Nat) : Option World := do
  let synced ← fullSync setting fresh fuel [] world thread
  workerSyncCollectableTasks setting (fullSync setting fresh fuel []) synced thread

/-- The loop of `pthreads_worker_collect_tasks` over what is left of the queue, as
far as the collector accepts the tasks. -/
def collectTasks (fuel worker : Nat) (collect : Nat → Bool) : List Nat → World → Option World
  | [], world => some world
  | task :: tasks, world => do
      let queue := Function.update setting.tasks worker (task :: tasks)
      let synced ← fullSync { setting with tasks := queue } fresh fuel [] world task
      if collect task then collectTasks fuel worker collect tasks synced else some synced

/-- A thread is joined, or a task comes to the head of a worker's queue and is
visited by the collection. -/
def HandsOver (fuel : Nat) (world : World) (address : Nat) (synced : World) : Prop :=
  joinSync setting fresh fuel world address = some synced ∨
    ∃ worker collect tasks, setting.tasks worker = address :: tasks ∧
      collectTasks setting fresh fuel worker collect (setting.tasks worker) world = some synced

end Walk

/-- `pthreads_base_free` on the thread that owns the object.  The last object of a
shared one takes the store with it, any other leaves persistent copies of its
thread's strings. -/
def World.free (world : World) (thread address : Nat) (pointers : Key → Nat) : Option World := do
  let tsObj ← tsObjAt world.registry address
  let registry ← baseFree world.registry thread address
  some { world with
    registry := registry
    props := Function.update world.props tsObj
      (if (registry.tsObjs tsObj).isSome then
        persistLocalProperties thread pointers (world.props tsObj)
      else storeInit) }

/-- A thread that frees one of its objects after the other, as a child does once
its creator has set `PTHREADS_MONITOR_EXIT`. -/
def destroyStep (thread : Nat) (world : World) (object : Nat × (Key → Nat)) : Option World :=
  world.free thread object.1 object.2

/-- A read of a member by user code, with the work after the unlock. -/
def World.readMember (setting : Setting) (world : World) (address : Nat) (key : KeyZval)
    (fresh : Fresh) : Option (World × ReadOutcome) := do
  let tsObj ← tsObjAt world.registry address
  let (registry, connection, outcome) ← storeRead setting.enumCases world.registry
    (world.props tsObj) (world.connection setting.thread address) key .read fresh
  some ((world.withRegistry setting registry fresh.newAddress).setLocal address
    (finishPending (setting.declared tsObj) connection), outcome)

/-- What a thread has of a shared object: a zend object of its own, or nothing
yet. -/
inductive Place where
  | held (address : Nat)
  | unheld (tsObj : Nat)
deriving DecidableEq, Repr

def Place.tsObj (registry : Registry) : Place → Option Nat
  | .held address => tsObjAt registry address
  | .unheld tsObj => some tsObj

/-- What a thread has of the object behind a handle. -/
def placeOf (registry : Registry) (thread handle : Nat) : Option Place := do
  let zobj ← registry.zobjs handle
  let tsObj ← zobj.tsObj
  if zobj.owner = some thread then some (.held handle)
  else match registry.resolve thread tsObj with
    | some connection => some (.held connection)
    | none => some (.unheld tsObj)

def World.storageAt (world : World) (place : Place) (key : Key) : Option Storage :=
  (place.tsObj world.registry).bind fun tsObj => (world.props tsObj).hash.find key

/-- What the local table has for a key once it is in sync. -/
def World.cachedAt (world : World) (thread : Nat) (place : Place) (key : Key) : Option Zval :=
  match place with
  | .unheld _ => none
  | .held address => do
      let tsObj ← tsObjAt world.registry address
      (syncLocalProperties world.registry (world.props tsObj)
        (world.connection thread address)).cached key

/-- Where a read of a key leads the thread. -/
def World.answer (world : World) (thread : Nat) (place : Place) (key : Key) : Option Place :=
  match world.cachedAt thread place key with
  | some (.threaded object) => some (.held object)
  | some _ => none
  | none =>
      match world.storageAt place key with
      | some (.pthreads handle) => placeOf world.registry thread handle
      | _ => none

/-- The local table is in sync and has the key, so that no read consults the
storage. -/
def World.firm (world : World) (thread : Nat) (place : Place) (key : Key) : Bool :=
  match place with
  | .unheld _ => false
  | .held address =>
      (tsObjAt world.registry address).any fun tsObj =>
        (world.locals address).localPropsModcount = (world.props tsObj).modcount ∧
          ((world.connection thread address).cached key).isSome

/-- The places that the walk comes to: from one to the next it follows the members
that are not in the local table, and the tasks of a worker. -/
inductive Visited (setting : Setting) (world : World) (root : Nat) : Place → Prop
  | root : Visited setting world root (.held root)
  | member {place next : Place} {key : Key} {handle : Nat}
      (before : Visited setting world root place)
      (stored : world.storageAt place key = some (.pthreads handle))
      (uncached : world.cachedAt setting.thread place key = none)
      (leads : placeOf world.registry setting.thread handle = some next) :
      Visited setting world root next
  | task {address task : Nat} (before : Visited setting world root (.held address))
      (queued : task ∈ setting.tasks address) : Visited setting world root (.held task)

/-- A path of keys from a shared object through storages whose objects are valid,
with the shared object that each key leads to. -/
def Trail (world : World) : Nat → List (KeyZval × Nat) → Prop
  | _, [] => True
  | tsObj, (key, next) :: rest =>
      (∃ handle, (world.props tsObj).hash.find (coerce key) = some (.pthreads handle) ∧
        globalsObjectValid world.registry handle ∧
        tsObjAt world.registry handle = some next) ∧
      Trail world next rest

/-- Whether the thread owns the object behind the handle. -/
def ownedBy (registry : Registry) (thread handle : Nat) : Prop :=
  (registry.zobjs handle).bind ZendObject.owner = some thread

/-- The condition under which what lies along a trail outlives the child.  At each
key the local table does not mislead the creator, and the walk visits the
container, or the creator's table has the member and is in sync, or the member's
original is not the child's. -/
def Secured (setting : Setting) (world : World) (child root : Nat) :
    Place → List (KeyZval × Nat) → Prop
  | _, [] => True
  | place, (key, tsObj) :: rest =>
      ∃ next, world.answer setting.thread place (coerce key) = some next ∧
        next.tsObj world.registry = some tsObj ∧
        (Visited setting world root place ∨ world.firm setting.thread place (coerce key) = true ∨
          ∀ handle, world.storageAt place (coerce key) = some (.pthreads handle) →
            ¬ ownedBy world.registry child handle) ∧
        Secured setting world child root next rest

/-- Whatever addresses the allocators return, reading the keys one after the other
gives the objects of the trail, without a connection failure. -/
def CanRestore (setting : Setting) : World → Nat → List (KeyZval × Nat) → Prop
  | _, _, [] => True
  | world, address, (key, tsObj) :: rest =>
      ∀ fresh : Fresh, ObjectRegistry.Available world.registry fresh.newAddress fresh.newTs →
        ∃ after object, world.readMember setting address key fresh =
            some (after, .value (.threaded object)) ∧
          tsObjAt after.registry object = some tsObj ∧ CanRestore setting after object rest

end Pthreads.ObjectGraph
