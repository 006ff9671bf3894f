import Mathlib.Data.Finset.Range
import Pthreads.GraphTraversal
import Pthreads.ValueCopies

/-!
# The walk with its recursion flags, its allocator and its closures

The walk of `pthreads_store_full_sync_local_properties` creates connections on its way,
so that new objects come up while others are protected against recursion.  This file
models the protection as the flag on each zend object that it is, set before the members
of the object are visited and cleared afterwards, and lets an allocator choose where
connections are placed.  A closure among the members is copied for the thread, and what
that does is left open here.  Apart from it, whatever the walk does leaves the objects
and what the local tables have of them in place.
-/

namespace Pthreads.ObjectGraph

open ObjectRegistry (Registry ZendObject Sound Available addressLimit globalsObjectConnect
  globalsObjectConnect_succeeds globalsObjectConnect_tsObjs createConnection
  createConnection_creates globalsObjectValid)
open Store

/-- The walk with the flags of the zend objects, the next address of the allocator and
the tables of the thread that copying a function uses. -/
structure Walking (Tables : Type) where
  world : World
  /-- `GC_IS_RECURSIVE` -/
  isRecursive : Nat → Bool
  next : Nat
  tables : Tables

section Walk

variable {Tables : Type}

/-- `GC_PROTECT_RECURSION` and `GC_UNPROTECT_RECURSION` -/
def Walking.protect (state : Walking Tables) (address : Nat) : Walking Tables :=
  { state with isRecursive := Function.update state.isRecursive address true }

def Walking.unprotect (state : Walking Tables) (address : Nat) : Walking Tables :=
  { state with isRecursive := Function.update state.isRecursive address false }

/-- The object that the walk comes to is protected and its table brought in sync. -/
def Walking.enter (setting : Setting) (state : Walking Tables) (address tsObj : Nat) :
    Walking Tables :=
  { state.protect address with
    world := state.world.setLocal address (prepared (setting.declared tsObj)
      (syncLocalProperties state.world.registry (state.world.props tsObj)
        (state.world.connection setting.thread address))) }

/-- A new connection was placed at the next address.  It is not protected. -/
def Walking.connect (setting : Setting) (state : Walking Tables) (registry : Registry)
    (tables : Tables) : Walking Tables :=
  ⟨state.world.withRegistry setting registry state.next,
    Function.update state.isRecursive state.next false, state.next + 1, tables⟩

variable (setting : Setting) (copyClosure : Tables → Closure → Option Tables)

/-- The closure of a storage is copied with `pthreads_copy_function`. -/
def copyStored (tables : Tables) : Storage → Option Tables
  | .closure closure _ => copyClosure tables closure
  | _ => some tables

/-- The value of a storage, whose closure has been copied. -/
def placeMember (state : Walking Tables) (storage : Storage) (tables : Tables) :
    Option (Walking Tables × Zval) :=
  (restoreZval setting.enumCases state.world.registry setting.thread
    ⟨state.next, state.next, state.next⟩ storage).map fun (registry, value) =>
      if registry.zobjs state.next = none then
        let world := state.world.withRegistry setting registry state.next
        ({ state with world := world, tables := tables }, value)
      else (state.connect setting registry tables, value)

/-- `pthreads_store_restore_zval` in the walk. -/
def restoreMember (state : Walking Tables) (storage : Storage) : Option (Walking Tables × Zval) :=
  (copyStored copyClosure state.tables storage).bind (placeMember setting state storage)

/-- The recursion into a value that is a Threaded object. -/
def descendInto (recurse : Nat → Walking Tables → Option (Walking Tables))
    (state : Walking Tables) : Zval → Option (Walking Tables)
  | .threaded object => recurse object state
  | _ => some state

/-- One element of the loop. -/
def syncMember (recurse : Nat → Walking Tables → Option (Walking Tables)) (address : Nat)
    (state : Walking Tables) (entry : Key × Storage) : Option (Walking Tables) :=
  if ((state.world.connection setting.thread address).cached entry.1).isSome ∨
      ¬ storageIsCacheable entry.2 then
    some state
  else
    (restoreMember setting copyClosure state entry.2).bind fun (restored, value) =>
      (descendInto recurse restored value).map fun deeper =>
        { deeper with world := deeper.world.cache address entry.1 value }

/-- The body of `pthreads_store_full_sync_local_properties`. -/
def fullSyncBody (recurse : Nat → Walking Tables → Option (Walking Tables)) (address : Nat)
    (state : Walking Tables) : Option (Walking Tables) :=
  if state.isRecursive address then some state
  else do
    let tsObj ← tsObjAt state.world.registry address
    let filled ← (state.world.props tsObj).hash.table.entries.foldlM
      (syncMember setting copyClosure recurse address) (state.enter setting address tsObj)
    let tasks ← (setting.tasks address).foldlM (fun state task => recurse task state) filled
    some (tasks.unprotect address)

/-- `pthreads_store_full_sync_local_properties` with a bound for the depth of the
recursion. -/
def fullSyncLocalProperties : Nat → Nat → Walking Tables → Option (Walking Tables)
  | 0 => fun _ _ => none
  | fuel + 1 => fullSyncBody setting copyClosure (fullSyncLocalProperties fuel)

end Walk

/-- The memory that the functions of stored closures are in, how the thread copies them
and the `func` of each closure. -/
structure Functions (Address : Type) where
  heap : ValueCopies.Heap Address
  receiver : ValueCopies.Receiver
  func : Nat → Address

section Functions

variable {Address : Type}

/-- What there is to copy for a stored closure. -/
def Functions.task (functions : Functions Address) (closure : Closure) :
    ValueCopies.Task Address :=
  .function (functions.func closure.pointer)

/-- `pthreads_copy_function` for a stored closure, with a bound for the depth of the
recursion. -/
def Functions.copyClosure [DecidableEq Address] (functions : Functions Address) (depth : Nat)
    (memo : ValueCopies.Memo Address) (closure : Closure) : Option (ValueCopies.Memo Address) :=
  (ValueCopies.copy functions.heap functions.receiver depth memo (functions.task closure)).map
    fun done => done.1

end Functions

section Measure

variable {Tables : Type}

/-- A constructed object of the thread. -/
def isMine (thread : Nat) (registry : Registry) (address : Nat) : Bool :=
  (registry.zobjs address).any fun zobj => zobj.owner = some thread ∧ zobj.tsObj.isSome

theorem isMine_iff {thread address : Nat} {registry : Registry} :
    isMine thread registry address = true ↔ Mine thread registry address := by
  unfold isMine Mine
  rw [Option.any_eq_true]
  simp only [decide_eq_true_eq]

/-- The objects of the thread that are not protected. -/
def Walking.unprotected (thread : Nat) (state : Walking Tables) : Finset Nat :=
  (Finset.range state.next).filter fun address =>
    isMine thread state.world.registry address ∧ state.isRecursive address = false

/-- The shared objects that have no connection on the thread. -/
def Walking.unresolved (thread : Nat) (state : Walking Tables) : Finset Nat :=
  (Finset.range state.next).filter fun tsObj =>
    (state.world.registry.tsObjs tsObj).isSome ∧
      state.world.registry.resolve thread tsObj = none

def Walking.measure (thread : Nat) (state : Walking Tables) : Nat :=
  (state.unprotected thread).card + (state.unresolved thread).card

end Measure

section Invariant

variable {First Second Third : Type} {setting : Setting} {state : Walking First}
  {middle : Walking Second} {after : Walking Third}

/-- What holds at every point of the walk: what is in memory and what the storages name
lies below the next address, memory suffices for a connection to each shared object, the
local tables of the thread keep its objects alive, and the objects that are stored and
queued have been constructed. -/
structure WalkReady (setting : Setting) (state : Walking First) : Prop where
  sane : Sane setting.thread state.world
  zobjs : ∀ address, state.next ≤ address → state.world.registry.zobjs address = none
  tsObjs : ∀ tsObj, state.next ≤ tsObj → state.world.registry.tsObjs tsObj = none
  flags : ∀ address, state.next ≤ address → state.isRecursive address = false
  positive : 0 < state.next
  room : state.next + (state.unresolved setting.thread).card < addressLimit
  handles : ∀ tsObj key handle,
    (state.world.props tsObj).hash.find key = some (.pthreads handle) → handle < state.next
  settled : ∀ tsObj key handle, (state.world.props tsObj).hash.find key = some (.pthreads handle) →
    ∀ zobj, state.world.registry.zobjs handle = some zobj → zobj.tsObj.isSome
  queues : Queues setting state.world

theorem WalkReady.sound (ready : WalkReady setting state) : Sound state.world.registry :=
  ready.sane.sound

/-- What there was and what the local tables had at one point of the walk is there at a
later one. -/
structure Grows (thread : Nat) (state : Walking First) (after : Walking Second) : Prop where
  props : after.world.props = state.world.props
  kept : ∀ address zobj, state.world.registry.zobjs address = some zobj →
    after.world.registry.zobjs address = some zobj
  absent : ∀ address, address < state.next → state.world.registry.zobjs address = none →
    after.world.registry.zobjs address = none
  next : state.next ≤ after.next
  resolved : ∀ tsObj connection, state.world.registry.resolve thread tsObj = some connection →
    after.world.registry.resolve thread tsObj = some connection
  arrived : ∀ tsObj connection, after.world.registry.resolve thread tsObj = some connection →
    state.world.registry.resolve thread tsObj = some connection ∨
      state.world.registry.zobjs connection = none
  inSync : ∀ address, Mine thread state.world.registry address → InSync state.world address →
    InSync after.world address
  cached : ∀ address key, Mine thread state.world.registry address →
    state.world.cachedAt thread (.held address) key ≠ none →
      after.world.cachedAt thread (.held address) key ≠ none

section Grows

variable {thread : Nat} {address : Nat}

theorem Grows.zobjs_eq (grows : Grows thread state middle)
    (existed : state.world.registry.zobjs address ≠ none) :
    middle.world.registry.zobjs address = state.world.registry.zobjs address := by
  obtain ⟨zobj, found⟩ := Option.ne_none_iff_exists'.mp existed
  rw [found, grows.kept address zobj found]

theorem Grows.mine (grows : Grows thread state middle)
    (mine : Mine thread state.world.registry address) :
    Mine thread middle.world.registry address := by
  obtain ⟨zobj, found, facts⟩ := mine
  exact ⟨zobj, grows.kept address zobj found, facts⟩

theorem Grows.tsObjAt (grows : Grows thread state middle) {tsObj : Nat}
    (points : tsObjAt state.world.registry address = some tsObj) :
    tsObjAt middle.world.registry address = some tsObj := by
  obtain ⟨zobj, found, isTs⟩ := Option.bind_eq_some_iff.mp points
  exact Option.bind_eq_some_iff.mpr ⟨zobj, grows.kept address zobj found, isTs⟩

theorem Grows.trans (first : Grows thread state middle) (second : Grows thread middle after) :
    Grows thread state after where
  props := second.props.trans first.props
  kept address zobj found := second.kept address zobj (first.kept address zobj found)
  absent address below missing :=
    second.absent address (Nat.lt_of_lt_of_le below first.next) (first.absent address below missing)
  next := Nat.le_trans first.next second.next
  resolved tsObj connection present :=
    second.resolved tsObj connection (first.resolved tsObj connection present)
  arrived := by
    intro tsObj connection present
    rcases second.arrived tsObj connection present with earlier | missing
    · exact first.arrived tsObj connection earlier
    · right
      by_contra existed
      rw [first.zobjs_eq existed] at missing
      exact existed missing
  inSync address mine inSync :=
    second.inSync address (first.mine mine) (first.inSync address mine inSync)
  cached address key mine isCached :=
    second.cached address key (first.mine mine) (first.cached address key mine isCached)

end Grows

/-- A part of the walk that has ended. -/
structure Walked (setting : Setting) (state : Walking First) (after : Walking Second) : Prop where
  ready : WalkReady setting after
  grows : Grows setting.thread state after
  flags : after.isRecursive = state.isRecursive
  measure : after.measure setting.thread ≤ state.measure setting.thread

theorem Walked.trans (first : Walked setting state middle) (second : Walked setting middle after) :
    Walked setting state after where
  ready := second.ready
  grows := first.grows.trans second.grows
  flags := second.flags.trans first.flags
  measure := second.measure.trans first.measure

/-- A change to one local table that leaves in it what it had. -/
structure Retables (thread : Nat) (world after : World) : Prop where
  sane : Sane thread after
  registry : after.registry = world.registry
  props : after.props = world.props
  inSync : ∀ address, Mine thread world.registry address → InSync world address →
    InSync after address
  cached : ∀ address key, Mine thread world.registry address →
    world.cachedAt thread (.held address) key ≠ none →
      after.cachedAt thread (.held address) key ≠ none

theorem Retables.refl {thread : Nat} {world : World} (sane : Sane thread world) :
    Retables thread world world where
  sane := sane
  registry := rfl
  props := rfl
  inSync _ _ inSync := inSync
  cached _ _ _ isCached := isCached

theorem Retables.walked (ready : WalkReady setting state) {world : World}
    (retables : Retables setting.thread state.world world) (tables : Second) :
    Walked setting state ⟨world, state.isRecursive, state.next, tables⟩ := by
  have registry := retables.registry
  have props := retables.props
  refine ⟨⟨retables.sane, ?_, ?_, ready.flags, ready.positive, ?_, ?_, ?_, ?_⟩,
    ⟨props, ?_, ?_, Nat.le_refl _, ?_, ?_, retables.inSync, retables.cached⟩, rfl, ?_⟩
  · exact registry ▸ ready.zobjs
  · exact registry ▸ ready.tsObjs
  · unfold Walking.unresolved
    rw [registry]
    exact ready.room
  · dsimp only
    rw [props]
    exact ready.handles
  · dsimp only
    rw [registry, props]
    exact ready.settled
  · intro address task queued
    dsimp only
    rw [registry]
    exact ready.queues address task queued
  · intro address zobj found
    dsimp only
    rwa [registry]
  · intro address _ missing
    dsimp only
    rwa [registry]
  · intro tsObj connection present
    dsimp only
    rwa [registry]
  · intro tsObj connection present
    dsimp only at present
    rw [registry] at present
    exact Or.inl present
  · unfold Walking.measure Walking.unprotected Walking.unresolved
    rw [registry]

theorem WalkReady.refl (ready : WalkReady setting state) : Walked setting state state :=
  (Retables.refl ready.sane).walked ready state.tables

theorem WalkReady.lt_next (ready : WalkReady setting state) {address : Nat} {zobj : ZendObject}
    (found : state.world.registry.zobjs address = some zobj) : address < state.next := by
  by_contra above
  rw [ready.zobjs address (Nat.not_lt.mp above)] at found
  cases found

theorem WalkReady.available (ready : WalkReady setting state) :
    Available state.world.registry state.next state.next where
  address := ready.zobjs _ (Nat.le_refl _)
  inRange := ⟨ready.positive, Nat.lt_of_le_of_lt (Nat.le_add_right _ _) ready.room⟩
  tsObj := ready.tsObjs _ (Nat.le_refl _)

end Invariant

section Tables

variable {thread address : Nat} {world : World} {key : Key} {value : Zval}

/-- A place is shown another table only if it is the one that holds it. -/
theorem cachedAt_setLocal_other {connection : Connection} {other : Nat}
    (different : other ≠ address) :
    (world.setLocal address connection).cachedAt thread (.held other) key =
      world.cachedAt thread (.held other) key := by
  unfold World.cachedAt
  dsimp only
  rw [setLocal_connection_other world connection different]
  rfl

theorem cachedAt_missing (missing : world.registry.zobjs address = none) :
    world.cachedAt thread (.held address) key = none := by
  simp [World.cachedAt, tsObjAt, missing]

/-- Bringing a table in sync changes nothing for the reads to come. -/
theorem cachedAt_open {tsObj : Nat} (points : tsObjAt world.registry address = some tsObj)
    (declared : List Key) (other : Nat) :
    (world.setLocal address (prepared declared (syncLocalProperties world.registry
      (world.props tsObj) (world.connection thread address)))).cachedAt thread (.held other) key =
        world.cachedAt thread (.held other) key := by
  by_cases same : other = address
  · subst same
    have synced := syncLocalProperties_synced world.registry (world.props tsObj)
      (world.connection thread other)
    have owned : (prepared declared (syncLocalProperties world.registry (world.props tsObj)
        (world.connection thread other))).owner = thread := synced.owner
    have inSync : (prepared declared (syncLocalProperties world.registry (world.props tsObj)
        (world.connection thread other))).localPropsModcount = (world.props tsObj).modcount :=
      synced.modcount
    rw [cachedAt_setLocal points owned synced.pending, syncLocalProperties_of_inSync inSync,
      prepared_cached, cachedAt_held points]
  · exact cachedAt_setLocal_other same

theorem retables_open {tsObj : Nat} (sane : Sane thread world)
    (mine : Mine thread world.registry address)
    (points : tsObjAt world.registry address = some tsObj) (declared : List Key) :
    Retables thread world (world.setLocal address (prepared declared (syncLocalProperties
      world.registry (world.props tsObj) (world.connection thread address)))) := by
  have follows := follows_open sane mine points declared
  refine ⟨follows.sane, rfl, rfl, follows.inSync, ?_⟩
  intro other key _ isCached
  rwa [cachedAt_open points declared other]

theorem World.cache_cached (other : Key) :
    ((world.cache address key value).connection thread address).cached other =
      if other = key ∧ validLocalCacheItem value = true then some value
      else if other = key then none
      else (world.connection thread address).cached other := by
  simp only [World.connection, World.cache, Function.update_self, Connection.cached,
    Option.bind_some]
  by_cases same : other = key
  · subst same
    rw [OrderedTable.find_update_same, Option.filter_some]
    simp
  · rw [OrderedTable.find_update_other _ _ same, if_neg fun both => same both.1, if_neg same]
    cases (world.locals address).properties with
    | none => rw [Option.getD_none, OrderedTable.find_empty]; rfl
    | some table => rfl

/-- A value that is put into a table in sync is shown from then on. -/
theorem cachedAt_cache (mine : Mine thread world.registry address) (inSync : InSync world address)
    (valid : validLocalCacheItem value = true) (other : Nat) (otherKey : Key) :
    (world.cache address key value).cachedAt thread (.held other) otherKey =
      if other = address ∧ otherKey = key then some value
      else world.cachedAt thread (.held other) otherKey := by
  by_cases same : other = address
  · subst same
    obtain ⟨tsObj, points⟩ := mine.tsObjAt
    have pointsAfter :
        tsObjAt (world.cache other key value).registry other = some tsObj := points
    have inSyncAfter : ((world.cache other key value).connection thread other).localPropsModcount =
        ((world.cache other key value).props tsObj).modcount := by
      simp only [World.connection, World.cache, Function.update_self]
      exact inSync tsObj points
    rw [cachedAt_held pointsAfter, syncLocalProperties_of_inSync inSyncAfter,
      World.cache_cached, cachedAt_held points,
      syncLocalProperties_of_inSync (inSync tsObj points)]
    by_cases sameKey : otherKey = key
    · rw [if_pos ⟨sameKey, valid⟩, if_pos ⟨rfl, sameKey⟩]
    · rw [if_neg fun both => sameKey both.1, if_neg sameKey, if_neg fun both => sameKey both.2]
  · rw [if_neg fun both => same both.1]
    simp only [World.cachedAt, World.connection, World.cache, Function.update_of_ne same]

theorem retables_cache (sane : Sane thread world) (mine : Mine thread world.registry address)
    (inSync : InSync world address) (valid : validLocalCacheItem value = true)
    (known : ∀ object, value = .threaded object → Mine thread world.registry object) :
    Retables thread world (world.cache address key value) := by
  refine ⟨⟨sane.sound, ?_⟩, rfl, rfl, ?_, ?_⟩
  · intro other table otherKey object isMine isTable isThere
    by_cases same : other = address
    · subst same
      simp only [World.cache, Function.update_self] at isTable
      cases isTable
      rcases OrderedTable.find_update_cases isThere with ⟨-, isValue⟩ | ⟨-, wasThere⟩
      · exact known object isValue.symm
      · cases properties : (world.locals other).properties with
        | none =>
          rw [properties, Option.getD_none, OrderedTable.find_empty] at wasThere
          cases wasThere
        | some table =>
          rw [properties, Option.getD_some] at wasThere
          exact sane.holds other table otherKey object isMine properties wasThere
    · simp only [World.cache, Function.update_of_ne same] at isTable
      exact sane.holds other table otherKey object isMine isTable isThere
  · intro other _ wasInSync tsObj points
    have before := wasInSync tsObj points
    by_cases same : other = address
    · subst same
      simp only [World.cache, Function.update_self]
      exact before
    · simp only [World.cache, Function.update_of_ne same]
      exact before
  · intro other otherKey _ isCached
    rw [cachedAt_cache mine inSync valid]
    split
    · exact Option.some_ne_none value
    · exact isCached

/-- A new connection changes nothing in the tables that there are, unless it is placed
where a storage of the object points to. -/
theorem cachedAt_connected {setting : Setting} {registry : Registry} {newAddress tsObj : Nat}
    (sane : Sane setting.thread world)
    (connects : Connects setting.thread world.registry registry newAddress)
    (mine : Mine setting.thread world.registry address)
    (points : tsObjAt world.registry address = some tsObj)
    (apart : ∀ handle, (world.props tsObj).hash.find key = some (.pthreads handle) →
      handle ≠ newAddress) :
    (world.withRegistry setting registry newAddress).cachedAt setting.thread (.held address) key =
      world.cachedAt setting.thread (.held address) key := by
  have pointsAfter : tsObjAt (world.withRegistry setting registry newAddress).registry address =
      some tsObj := by
    rw [withRegistry_registry, tsObjAt, connects.zobjs_eq mine.ne_none]
    exact points
  refine cachedAt_congr sane.sound ?_ points pointsAfter (withRegistry_locals mine.ne_none)
    (by rw [withRegistry_props]) (Or.inr ⟨by rw [withRegistry_props], ?_⟩) ?_
  · rw [withRegistry_registry]
    exact connects.sound
  · intro handle stored
    rw [withRegistry_registry]
    cases found : world.registry.zobjs handle with
    | none => exact connects.absent handle found (apart handle stored)
    | some zobj => exact connects.kept handle zobj found
  · intro object cached
    obtain ⟨table, isTable, isThere⟩ := cached_mem cached
    rw [withRegistry_registry]
    exact connects.zobjs_eq (sane.holds address table key object mine isTable isThere).ne_none

/-- Where no connection is created the tables stay as they are. -/
theorem retables_unconnected {setting : Setting} {newAddress : Nat}
    (sane : Sane setting.thread world)
    (apart : ∀ tsObj key handle, (world.props tsObj).hash.find key = some (.pthreads handle) →
      handle ≠ newAddress) :
    Retables setting.thread world (world.withRegistry setting world.registry newAddress) := by
  have connects := Connects.refl sane.sound setting.thread newAddress
  have follows := follows_withRegistry sane connects
  refine ⟨follows.sane, withRegistry_registry, follows.props, follows.inSync, ?_⟩
  intro address key mine isCached
  obtain ⟨tsObj, points⟩ := mine.tsObjAt
  rwa [cachedAt_connected sane connects mine points (apart tsObj key)]

end Tables

section Connections

variable {Tables : Type} {setting : Setting} {state : Walking Tables} {registry : Registry}
  {handle tsObj : Nat}

/-- The facts about a connection that the walk has created at the next address. -/
structure NewConnection (setting : Setting) (state : Walking Tables) (registry : Registry)
    (tsObj : Nat) : Prop where
  connects : Connects setting.thread state.world.registry registry state.next
  tsObjs : ∀ other, state.world.registry.tsObjs other = none → registry.tsObjs other = none
  live : (state.world.registry.tsObjs tsObj).isSome
  unresolved : state.world.registry.resolve setting.thread tsObj = none
  resolved : registry.resolve setting.thread tsObj = some state.next

theorem NewConnection.mine (connected : NewConnection setting state registry tsObj) {address : Nat}
    (mine : Mine setting.thread state.world.registry address) :
    Mine setting.thread registry address :=
  (connected.connects.mine_iff mine.ne_none).mpr mine

@[simp] theorem connect_registry (tables : Tables) :
    (state.connect setting registry tables).world.registry = registry := withRegistry_registry

@[simp] theorem connect_props (tables : Tables) :
    (state.connect setting registry tables).world.props = state.world.props := withRegistry_props

/-- The new object is the only one that may have come to the unprotected ones. -/
theorem NewConnection.unprotected_subset
    (connected : NewConnection setting state registry tsObj) (tables : Tables) :
    (state.connect setting registry tables).unprotected setting.thread ⊆
      insert state.next (state.unprotected setting.thread) := by
  intro address isIn
  obtain ⟨inRange, mine, flag⟩ := Finset.mem_filter.mp isIn
  rw [Finset.mem_insert]
  by_cases isNew : address = state.next
  · exact Or.inl isNew
  · have below : address < state.next :=
      Nat.lt_of_le_of_ne (Nat.le_of_lt_succ (Finset.mem_range.mp inRange)) isNew
    rw [isMine_iff, connect_registry] at mine
    have existed : state.world.registry.zobjs address ≠ none := fun absent =>
      mine.ne_none (connected.connects.absent address absent isNew)
    unfold Walking.connect at flag
    dsimp only at flag
    rw [Function.update_of_ne isNew] at flag
    exact Or.inr (Finset.mem_filter.mpr ⟨Finset.mem_range.mpr below,
      isMine_iff.mpr ((connected.connects.mine_iff existed).mp mine), flag⟩)

/-- The shared object has a connection now. -/
theorem NewConnection.unresolved_subset (ready : WalkReady setting state)
    (connected : NewConnection setting state registry tsObj) (tables : Tables) :
    (state.connect setting registry tables).unresolved setting.thread ⊆
      (state.unresolved setting.thread).erase tsObj := by
  intro other isIn
  obtain ⟨-, live, absent⟩ := Finset.mem_filter.mp isIn
  rw [connect_registry] at live absent
  have lived : (state.world.registry.tsObjs other).isSome := by
    by_contra dead
    rw [connected.tsObjs other (Option.not_isSome_iff_eq_none.mp dead)] at live
    cases live
  have below : other < state.next := by
    by_contra above
    rw [ready.tsObjs other (Nat.not_lt.mp above)] at lived
    cases lived
  refine Finset.mem_erase.mpr ⟨?_, Finset.mem_filter.mpr ⟨Finset.mem_range.mpr below, lived, ?_⟩⟩
  · rintro rfl
    rw [connected.resolved] at absent
    cases absent
  · rcases connected.connects.resolved other with same | ⟨wasAbsent, -⟩
    · exact same.symm.trans absent
    · exact wasAbsent

theorem NewConnection.mem_unresolved (ready : WalkReady setting state)
    (connected : NewConnection setting state registry tsObj) :
    tsObj ∈ state.unresolved setting.thread := by
  refine Finset.mem_filter.mpr ⟨Finset.mem_range.mpr ?_, connected.live, connected.unresolved⟩
  by_contra above
  have live := connected.live
  rw [ready.tsObjs tsObj (Nat.not_lt.mp above)] at live
  cases live

/-- What an object is connected to has been constructed, the new connection included. -/
theorem NewConnection.settled (ready : WalkReady setting state)
    (connected : NewConnection setting state registry tsObj) {other : Nat} {key : Key}
    {handle : Nat} (stored : (state.world.props other).hash.find key = some (.pthreads handle))
    {zobj : ZendObject} (isThere : registry.zobjs handle = some zobj) :
    zobj.tsObj.isSome := by
  by_cases isNew : handle = state.next
  · subst isNew
    obtain ⟨created, found, -, constructed⟩ :=
      (Sound.mine_of_resolve connected.connects.sound connected.resolved).1
    cases Option.some.inj (isThere.symm.trans found)
    exact constructed
  · cases before : state.world.registry.zobjs handle with
    | none =>
      rw [connected.connects.absent handle before isNew] at isThere
      cases isThere
    | some earlier =>
      rw [connected.connects.kept handle earlier before] at isThere
      exact ready.settled other key handle stored zobj (before.trans isThere)

theorem NewConnection.grows (ready : WalkReady setting state)
    (connected : NewConnection setting state registry tsObj) (tables : Tables) :
    Grows setting.thread state (state.connect setting registry tables) := by
  have follows := follows_withRegistry ready.sane connected.connects
  refine ⟨follows.props, follows.kept, ?_, Nat.le_succ _, follows.resolved, follows.arrived,
    follows.inSync, ?_⟩
  · intro address below missing
    rw [connect_registry]
    exact connected.connects.absent address missing (Nat.ne_of_lt below)
  · intro address key mine isCached
    obtain ⟨shared, points⟩ := mine.tsObjAt
    have same : (state.world.withRegistry setting registry state.next).cachedAt setting.thread
        (.held address) key = state.world.cachedAt setting.thread (.held address) key :=
      cachedAt_connected ready.sane connected.connects mine points fun handle stored =>
        Nat.ne_of_lt (ready.handles shared key handle stored)
    exact same ▸ isCached

/-- One object more on the thread is made up by one shared object less without a
connection. -/
theorem NewConnection.walked (ready : WalkReady setting state)
    (connected : NewConnection setting state registry tsObj) (tables : Tables) :
    Walked setting state (state.connect setting registry tables) := by
  have grows := connected.grows ready tables
  have flagsSame : (state.connect setting registry tables).isRecursive = state.isRecursive := by
    show Function.update state.isRecursive state.next false = state.isRecursive
    rw [← ready.flags state.next (Nat.le_refl _)]
    exact Function.update_eq_self _ _
  have fewer : ((state.connect setting registry tables).unresolved setting.thread).card + 1 ≤
      (state.unresolved setting.thread).card := by
    have less := Finset.card_le_card (connected.unresolved_subset ready tables)
    have erased := Finset.card_erase_add_one (connected.mem_unresolved ready)
    omega
  have more : ((state.connect setting registry tables).unprotected setting.thread).card ≤
      (state.unprotected setting.thread).card + 1 :=
    (Finset.card_le_card (connected.unprotected_subset tables)).trans
      (Finset.card_insert_le _ _)
  refine ⟨⟨sane_withRegistry ready.sane connected.connects, ?_, ?_, ?_, Nat.succ_pos _, ?_, ?_,
    ?_, ?_⟩, grows, flagsSame, ?_⟩
  · intro address above
    rw [connect_registry]
    exact connected.connects.absent address (ready.zobjs address (Nat.le_of_succ_le above))
      (Nat.ne_of_gt above)
  · intro other above
    rw [connect_registry]
    exact connected.tsObjs other (ready.tsObjs other (Nat.le_of_succ_le above))
  · intro address above
    rw [flagsSame]
    exact ready.flags address (Nat.le_of_succ_le above)
  · have room := ready.room
    show state.next + 1 + _ < addressLimit
    omega
  · intro other key handle stored
    rw [connect_props] at stored
    exact Nat.lt_succ_of_lt (ready.handles other key handle stored)
  · intro other key handle stored zobj isThere
    rw [connect_props] at stored
    rw [connect_registry] at isThere
    exact connected.settled ready stored isThere
  · intro address task queued
    exact (ready.queues address task queued).imp grows.mine grows.mine
  · unfold Walking.measure
    omega

end Connections

section Restoring

variable {Tables : Type} {setting : Setting} {state : Walking Tables}

/-- Connecting to a stored object succeeds.  The object is the thread's, and it was
there before unless it is a new connection. -/
theorem connect_cases (ready : WalkReady setting state) {handle : Nat}
    (settled : ∀ zobj, state.world.registry.zobjs handle = some zobj → zobj.tsObj.isSome) :
    ∃ registry result, globalsObjectConnect state.world.registry setting.thread handle
        state.next state.next = some (registry, result) ∧
      (∀ object, result = some object → Mine setting.thread registry object) ∧
      (registry = state.world.registry ∨ ∃ tsObj, NewConnection setting state registry tsObj) := by
  cases found : state.world.registry.zobjs handle with
  | none =>
    have invalid : globalsObjectValid state.world.registry handle ≠ true := fun valid =>
      (globalsObjectValid_iff ready.sound).mp valid found
    refine ⟨state.world.registry, none, ?_, ?_, Or.inl rfl⟩
    · unfold globalsObjectConnect
      rw [if_neg invalid]
    · rintro _ ⟨⟩
  | some zobj =>
    obtain ⟨tsObj, points⟩ := Option.isSome_iff_exists.mp (settled zobj found)
    obtain ⟨registry, object, connected⟩ := globalsObjectConnect_succeeds ready.sound
      setting.thread ready.available found points
    refine ⟨registry, some object, connected, ?_, ?_⟩
    all_goals
      rcases globalsObjectConnect_leads ready.sound connected with
          ⟨rfl, ⟨-, dead⟩ | ⟨same, isObject, leads⟩ | ⟨-, missing⟩⟩ |
          ⟨shared, leads, created, isNew⟩
    · rw [found] at dead
      cases dead
    · rintro _ ⟨⟩
      cases isObject
      exact (placeOf_present ready.sound leads).1
    · unfold tsObjAt at missing
      rw [found, Option.bind_some, points] at missing
      cases missing
    · rintro _ ⟨⟩
      cases isNew
      obtain ⟨connects, resolved⟩ := createConnection_connects ready.sound leads created
      exact (Sound.mine_of_resolve connects.sound resolved).1
    · exact Or.inl rfl
    · exact Or.inl rfl
    · exact Or.inl rfl
    · obtain ⟨connects, resolved⟩ := createConnection_connects ready.sound leads created
      obtain ⟨unheld, sameTs⟩ := placeOf_present ready.sound leads
      refine Or.inr ⟨shared, connects, ?_, ?_, unheld, resolved⟩
      · exact fun other unused => globalsObjectConnect_tsObjs ready.sound connected unused
      · obtain ⟨live, isLive⟩ := ready.sound.tsObj_live found
          (show zobj.tsObj = some shared by
            rw [points]
            have at_handle : tsObjAt state.world.registry handle = some tsObj := by
              unfold tsObjAt
              rw [found, Option.bind_some, points]
            exact at_handle.symm.trans sameTs.symm)
        rw [isLive]
        rfl

theorem registry_eq_of_mine_next (ready : WalkReady setting state) {registry : Registry}
    (cases : registry = state.world.registry ∨
      ∃ tsObj, NewConnection setting state registry tsObj) :
    (registry = state.world.registry ∧ registry.zobjs state.next = none) ∨
      (registry.zobjs state.next ≠ none ∧ ∃ tsObj, NewConnection setting state registry tsObj) := by
  rcases cases with rfl | ⟨tsObj, connected⟩
  · exact Or.inl ⟨rfl, ready.zobjs _ (Nat.le_refl _)⟩
  · exact Or.inr ⟨(Sound.mine_of_resolve connected.connects.sound connected.resolved).1.ne_none,
      tsObj, connected⟩

/-- A member that can be cached is restored. -/
theorem restoreZval_ends (ready : WalkReady setting state) {storage : Storage}
    (cacheable : storageIsCacheable storage = true)
    (settled : ∀ handle, storage = .pthreads handle →
      ∀ zobj, state.world.registry.zobjs handle = some zobj → zobj.tsObj.isSome) :
    ∃ registry value, restoreZval setting.enumCases state.world.registry
        setting.thread ⟨state.next, state.next, state.next⟩ storage = some (registry, value) ∧
      (∀ object, value = .threaded object → Mine setting.thread registry object) ∧
      (registry = state.world.registry ∨ ∃ tsObj, NewConnection setting state registry tsObj) := by
  have notThreaded : ∀ {registry : Registry} {value : Zval},
      (∀ object, value ≠ .threaded object) →
        ∀ object, value = .threaded object → Mine setting.thread registry object :=
    fun other object isObject => absurd isObject (other object)
  cases storage with
  | pthreads handle =>
    obtain ⟨registry, result, connected, mine, isNew⟩ := connect_cases ready (settled handle rfl)
    cases result with
    | none =>
      exact ⟨registry, .null, by simp [restoreZval, connected],
        notThreaded fun _ => Zval.noConfusion, isNew⟩
    | some object =>
      refine ⟨registry, .threaded object, by simp [restoreZval, connected], ?_, isNew⟩
      rintro _ ⟨⟩
      exact mine object rfl
  | stringPtr string owner =>
    by_cases own : owner = setting.thread
    · exact ⟨_, .string string, if_pos own, notThreaded fun _ => Zval.noConfusion, Or.inl rfl⟩
    · exact ⟨_, .string _, if_neg own, notThreaded fun _ => Zval.noConfusion, Or.inl rfl⟩
  | closure closure owner =>
    exact ⟨_, _, rfl, notThreaded fun _ => Zval.noConfusion, Or.inl rfl⟩
  | socket socket => exact ⟨_, _, rfl, notThreaded fun _ => Zval.noConfusion, Or.inl rfl⟩
  | _ => cases cacheable

end Restoring

end Pthreads.ObjectGraph
