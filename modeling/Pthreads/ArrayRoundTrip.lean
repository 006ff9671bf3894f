import Pthreads.ArrayMerging
import Pthreads.RecursiveCalls
import Pthreads.StoreIteration

/-!
# From an array to ThreadedArrays and back

A thread that iterates over the ThreadedArray that it has built finds each leaf in the
local table or restores it from its storage, and finds the objects of the nested arrays
in the local tables that keep them alive.
-/

namespace Pthreads.ArrayConversion

open BucketTables ObjectGraph RecursiveCalls Store StoreIteration
open ObjectRegistry (Registry)

/-- A `foreach` over a Threaded object that nobody changes: `pthreads_store_key` and what
is done with the element, and `pthreads_store_forward`. -/
def iterate {State Result : Type*} (visit : State → Key → Option (State × Result))
    (table : Buckets) : Nat → Option Nat → State → Option (State × List Result)
  | _, none, state => some (state, [])
  | 0, some _, _ => none
  | steps + 1, some position, state =>
      (storeKey table position).bind fun key =>
        (visit state key).bind fun first =>
          (iterate visit table steps (storeForward table position) first.1).map fun rest =>
            (rest.1, first.2 :: rest.2)

section Iterations

variable (setting : ObjectGraph.Setting) (fresh : Nat → Key → Fresh) (existing : Registry)

/-- `pthreads_store_data` at one key.  An object that did not exist before the conversion
was built for a nested array, and is turned back into one. -/
def visitMember (recurse : World → Nat → Option (World × List (Key × Zval))) (object : Nat)
    (world : World) (key : Key) : Option (World × (Key × Zval)) := do
  let (after, outcome) ← world.readMember setting object key.toZval (fresh object key)
  match outcome with
  | .value (.threaded child) =>
      if existing.zobjs child = none then
        (recurse after child).map fun nested => (nested.1, key, .array nested.2)
      else some (after, key, .threaded child)
  | .value value => some (after, key, value)
  | _ => none

/-- The recursive iteration over a ThreadedArray, with the buckets of each table.  The
fuel bounds the depth. -/
def toArray (buckets : Nat → Buckets) : Nat → World → Nat → Option (World × List (Key × Zval))
  | 0, _, _ => none
  | fuel + 1, world, object =>
      (tsObjAt world.registry object).bind fun tsObj =>
        iterate (visitMember setting fresh existing (toArray buckets fuel) object)
          (buckets tsObj) (buckets tsObj).slots.length (storeReset (buckets tsObj)) world

end Iterations

mutual

/-- How deep the arrays are nested in a value. -/
def arrayDepth : Zval → Nat
  | .array entries => arrayDepthAll entries + 1
  | _ => 0

def arrayDepthAll : List (Key × Zval) → Nat
  | [] => 0
  | (_, value) :: entries => max (arrayDepth value) (arrayDepthAll entries)

end

section Iterate

variable {State Result : Type*} {visit : State → Key → Option (State × Result)} {table : Buckets}

/-- What the iteration visits are the keys of the table in their order. -/
theorem iterate_eq_traverse (visit : State → Key → Option (State × Result)) {steps : Nat}
    {position : Option Nat} {state : State}
    (valid : ∀ index, position = some index → (storeKey table index).isSome)
    (enough : (keysAt table position).length ≤ steps) :
    iterate visit table steps position state = traverse visit state (keysAt table position) := by
  induction steps generalizing position state with
  | zero =>
      have empty : keysAt table position = [] := List.eq_nil_of_length_eq_zero (by omega)
      cases position with
      | none => rfl
      | some index =>
          obtain ⟨key, isKey⟩ := Option.isSome_iff_exists.mp (valid index rfl)
          rw [storeKey_eq] at isKey
          have nonempty : table.keysFrom index = [] := empty
          rw [nonempty] at isKey
          cases isKey
  | succ steps ih =>
      cases position with
      | none => rfl
      | some index =>
          obtain ⟨key, isKey⟩ := Option.isSome_iff_exists.mp (valid index rfl)
          have keys :
              keysAt table (some index) = key :: keysAt table (storeForward table index) := by
            rw [keysAt_storeForward]
            rw [storeKey_eq] at isKey
            exact (List.cons_head?_tail isKey).symm
          have later : ∀ next, storeForward table index = some next →
              (storeKey table next).isSome := by
            intro next moved
            obtain ⟨isCurrent, ⟨⟩⟩ := Option.ite_none_right_eq_some.mp moved
            rw [storeKey, Option.isSome_map]
            exact isCurrent
          rw [keys] at enough ⊢
          simp only [iterate, isKey, Option.bind_some, RecursiveCalls.traverse]
          congr 1
          funext first
          rw [ih later (by simpa using enough)]

end Iterate

/-- The buckets hold the elements of the shared tables. -/
def HasBuckets (world : World) (buckets : Nat → Buckets) : Prop :=
  ∀ tsObj, (buckets tsObj).toTable.entries = (world.props tsObj).hash.table.entries

/-- Nothing that is in memory has changed. -/
structure SameWorld (world after : World) : Prop where
  registry : after.registry = world.registry
  props : after.props = world.props
  locals : ∀ address, (world.registry.zobjs address).isSome →
    after.locals address = world.locals address

section Reads

variable {setting : ObjectGraph.Setting} {world middle after : World} {object tsObj : Nat}
  {key : Key} {value : Zval} {fresh : Fresh}

theorem SameWorld.refl (world : World) : SameWorld world world :=
  ⟨rfl, rfl, fun _ _ => rfl⟩

theorem SameWorld.trans (first : SameWorld world middle) (second : SameWorld middle after) :
    SameWorld world after := by
  refine ⟨second.registry.trans first.registry, second.props.trans first.props, ?_⟩
  intro address present
  rw [second.locals address (by rwa [first.registry]), first.locals address present]

theorem SameWorld.sameAt (same : SameWorld world after) (ready : Ready world object tsObj) :
    SameAt object tsObj world after := by
  refine ⟨?_, ?_, same.locals object (zobjs_of_attached ready.attached), by rw [same.props]⟩
  · rw [same.registry]
    exact ready.attached
  · rw [same.registry]
    exact ready.shared

theorem SameWorld.keepsNew {existing : Registry} (same : SameWorld world after) :
    KeepsNew existing existing world after :=
  fun _ _ newChild newShared ready => ⟨newChild, newShared, same.sameAt ready⟩

theorem SameWorld.standsAll {existing : Registry} {enumCases : EnumCases} {thread : Nat}
    {entries : List (Key × Zval)} (same : SameWorld world after) (ready : Ready world object tsObj)
    (stands : StandsAll existing enumCases thread world object tsObj entries) :
    StandsAll existing enumCases thread after object tsObj entries := by
  have sameAt := same.sameAt ready
  apply StandsAll.later same.keepsNew _ stands
  intro key _
  rw [cachedMember, sameAt.locals, sameAt.props]
  exact ⟨rfl, rfl⟩

/-- A read that restores no object and caches nothing changes nothing in memory. -/
theorem sameWorld_setLocal {connection : Connection} {newAddress : Nat}
    (present : (world.registry.zobjs object).isSome)
    (table : connection.properties = (world.locals object).properties)
    (count : connection.localPropsModcount = (world.locals object).localPropsModcount) :
    SameWorld world
      ((world.withRegistry setting world.registry newAddress).setLocal object connection) := by
  have restored : SameWorld world (world.withRegistry setting world.registry newAddress) := by
    unfold World.withRegistry
    split
    · next unused =>
      refine ⟨rfl, rfl, ?_⟩
      intro address isThere
      apply Function.update_of_ne
      rintro rfl
      rw [unused] at isThere
      cases isThere
    · exact SameWorld.refl world
  refine ⟨restored.registry, restored.props, ?_⟩
  intro address isThere
  by_cases isObject : address = object
  · subst isObject
    have unchanged : (⟨connection.properties, connection.localPropsModcount⟩ : LocalTable) =
        world.locals address := by
      rw [table, count]
    exact (Function.update_self _ _ _).trans unchanged
  · exact (Function.update_of_ne isObject _ _).trans (restored.locals address isThere)

theorem synced_connection (ready : Ready world object tsObj) :
    (if (world.connection setting.thread object).properties.isSome then
      syncLocalProperties world.registry (world.props tsObj)
        (world.connection setting.thread object)
    else world.connection setting.thread object) = world.connection setting.thread object := by
  split
  · next present =>
    rcases ready.synced with same | absent
    · exact if_pos same
    · have none : (world.connection setting.thread object).properties = none := absent
      rw [none] at present
      cases present
  · rfl

theorem readMember_cached (ready : Ready world object tsObj) (canonical : key.Canonical)
    (isCached : cachedMember world object key = some value) :
    ∃ after, world.readMember setting object key.toZval fresh = some (after, .value value) ∧
      SameWorld world after := by
  have isKey : coerce key.toZval = key := canonical
  have found : (world.connection setting.thread object).cached key = some value := isCached
  have same := @sameWorld_setLocal setting world object
    (world.connection setting.thread object) fresh.newAddress
    (zobjs_of_attached ready.attached) rfl rfl
  refine ⟨_, ?_, same⟩
  simp only [World.readMember, ready.attached, storeRead, isKey, synced_connection ready,
    found, Option.bind_eq_bind, Option.bind_some]
  rfl

/-- A leaf that the local table does not take is restored each time. -/
theorem readMember_restored {storage : Storage} (ready : Ready world object tsObj)
    (canonical : key.Canonical) (uncached : cachedMember world object key = none)
    (notRetained : retainInLocalCache value = false)
    (stored : (world.props tsObj).hash.find key = some storage)
    (restores : restoreZval setting.enumCases world.registry setting.thread fresh storage =
      some (world.registry, value)) :
    ∃ after, world.readMember setting object key.toZval fresh = some (after, .value value) ∧
      SameWorld world after := by
  have isKey : coerce key.toZval = key := canonical
  have absent : (world.connection setting.thread object).cached key = none := uncached
  have restored : restoreZval setting.enumCases world.registry
      (world.connection setting.thread object).owner fresh storage =
        some (world.registry, value) := restores
  have same := @sameWorld_setLocal setting world object
    (world.connection setting.thread object) fresh.newAddress
    (zobjs_of_attached ready.attached) rfl rfl
  refine ⟨_, ?_, same⟩
  simp only [World.readMember, ready.attached, storeRead, isKey, synced_connection ready,
    absent, stored, restored, Option.bind_eq_bind, Option.bind_some, Option.map_some]
  simp [finishPending, updateLocalProperty, notRetained, World.connection]

end Reads

section Iterating

variable {setting : ObjectGraph.Setting} {fresh : Nat → Key → Fresh} {existing : Registry}
  {buckets : Nat → Buckets} {world after : World} {object tsObj : Nat} {key : Key}
  {value : Zval}

theorem SameWorld.hasBuckets (same : SameWorld world after)
    (hasBuckets : HasBuckets world buckets) :
    HasBuckets after buckets := by
  intro tsObj
  rw [same.props]
  exact hasBuckets tsObj

/-- The iteration visits the keys of the shared table. -/
theorem toArray_succ (fuel : Nat) (attached : tsObjAt world.registry object = some tsObj)
    (hasBuckets : HasBuckets world buckets) :
    toArray setting fresh existing buckets (fuel + 1) world object =
      RecursiveCalls.traverse
        (visitMember setting fresh existing (toArray setting fresh existing buckets fuel) object)
        world (world.props tsObj).hash.table.keys := by
  have keys : (buckets tsObj).keys = (world.props tsObj).hash.table.keys :=
    congrArg (List.map Prod.fst) (hasBuckets tsObj)
  rw [toArray, attached, Option.bind_some, iterate_eq_traverse, keysAt_storeReset, keys]
  · intro index isReset
    obtain ⟨isCurrent, ⟨⟩⟩ := Option.ite_none_right_eq_some.mp isReset
    rw [storeKey, Option.isSome_map]
    exact isCurrent
  · rw [keysAt_storeReset, Buckets.keys, List.length_map]
    exact length_live_le _

theorem visitMember_leaf {recurse : World → Nat → Option (World × List (Key × Zval))}
    (read : world.readMember setting object key.toZval (fresh object key) =
      some (after, .value value))
    (storable : Storable existing setting.enumCases setting.thread value)
    (isLeaf : arrayCount value = 0) :
    visitMember setting fresh existing recurse object world key = some (after, key, value) := by
  cases value with
  | array entries => simp [arrayCount] at isLeaf
  | threaded child =>
      obtain ⟨storage, saved⟩ := storable
      obtain ⟨zobj, found, -⟩ := Option.map_eq_some_iff.mp saved
      simp [visitMember, read, found]
  | _ => simp [visitMember, read]

/-- A leaf is read as it was written. -/
theorem visits_leaf {recurse : World → Nat → Option (World × List (Key × Zval))}
    (ready : Ready world object tsObj) (canonical : key.Canonical)
    (storable : Storable existing setting.enumCases setting.thread value)
    (isLeaf : arrayCount value = 0)
    (stands : Stands existing setting.enumCases setting.thread world
      (cachedMember world object key) ((world.props tsObj).hash.find key) value) :
    ∃ after, visitMember setting fresh existing recurse object world key =
      some (after, key, value) ∧ SameWorld world after := by
  have leaf : cachedMember world object key = some value ∨
      cachedMember world object key = none ∧ retainInLocalCache value = false ∧
        ∃ storage, (world.props tsObj).hash.find key = some storage ∧
          ∀ registry fresh, restoreZval setting.enumCases registry setting.thread fresh storage =
            some (registry, value) := by
    cases value with
    | array entries => simp [arrayCount] at isLeaf
    | _ => exact stands
  rcases leaf with isCached | ⟨uncached, notRetained, storage, stored, restores⟩
  · obtain ⟨after, read, same⟩ := readMember_cached ready canonical isCached
    exact ⟨after, visitMember_leaf read storable isLeaf, same⟩
  · obtain ⟨after, read, same⟩ := readMember_restored ready canonical uncached notRetained stored
      (restores world.registry (fresh object key))
    exact ⟨after, visitMember_leaf read storable isLeaf, same⟩

mutual

/-- A member is turned back into the value that stands in it. -/
theorem visitMember_stands :
    ∀ (value : Zval) (fuel : Nat) (world : World) (object tsObj : Nat) (key : Key),
      Ready world object tsObj → HasBuckets world buckets → key.Canonical →
      Storable existing setting.enumCases setting.thread value → arrayDepth value ≤ fuel →
      Stands existing setting.enumCases setting.thread world (cachedMember world object key)
        ((world.props tsObj).hash.find key) value →
        ∃ after, visitMember setting fresh existing
            (toArray setting fresh existing buckets fuel) object world key =
              some (after, key, value) ∧ SameWorld world after
  | .array entries => by
      intro fuel world object tsObj key ready hasBuckets canonical storable deep stands
      obtain ⟨child, shared, isCached, newChild, -, childReady, keys, nested⟩ := stands
      rw [arrayDepth] at deep
      obtain ⟨fuel, rfl⟩ : ∃ less, fuel = less + 1 := ⟨fuel - 1, by omega⟩
      obtain ⟨middle, read, same⟩ :=
        @readMember_cached setting world object tsObj key _ (fresh object key) ready canonical
          isCached
      have middleReady := childReady.later (same.sameAt childReady)
      have middleBuckets := same.hasBuckets hasBuckets
      obtain ⟨after, traversed, later⟩ := traverse_stands entries fuel middle child shared
        middleReady middleBuckets storable.2 (by omega) (same.standsAll childReady nested)
      refine ⟨after, ?_, same.trans later⟩
      have iterated : toArray setting fresh existing buckets (fuel + 1) middle child =
          some (after, entries) := by
        rw [toArray_succ fuel middleReady.attached middleBuckets, same.props, keys]
        exact traversed
      simp [visitMember, read, newChild, iterated]
  | .undef | .null | .bool _ | .long _ | .double _ | .string _ | .threaded _ | .closure _
  | .socket _ _ | .enumCase _ _ | .object _ | .resource _ | .reference _ | .indirect _ => by
      intro fuel world object tsObj key ready _ canonical storable _ stands
      exact visits_leaf ready canonical storable rfl stands

theorem traverse_stands :
    ∀ (entries : List (Key × Zval)) (fuel : Nat) (world : World) (object tsObj : Nat),
      Ready world object tsObj → HasBuckets world buckets →
      StorableAll existing setting.enumCases setting.thread entries →
      arrayDepthAll entries ≤ fuel →
      StandsAll existing setting.enumCases setting.thread world object tsObj entries →
        ∃ after, RecursiveCalls.traverse (visitMember setting fresh existing
            (toArray setting fresh existing buckets fuel) object) world (entries.map Prod.fst) =
              some (after, entries) ∧ SameWorld world after
  | [] => by
      intro fuel world object tsObj _ _ _ _ _
      exact ⟨world, rfl, SameWorld.refl world⟩
  | (key, value) :: entries => by
      intro fuel world object tsObj ready hasBuckets storable deep stands
      obtain ⟨⟨canonical, valueStorable⟩, restStorable⟩ := storable
      rw [arrayDepthAll] at deep
      obtain ⟨middle, visited, same⟩ := visitMember_stands value fuel world object tsObj key ready
        hasBuckets canonical valueStorable (le_trans (le_max_left _ _) deep) stands.1
      obtain ⟨after, traversed, later⟩ := traverse_stands entries fuel middle object tsObj
        (ready.later (same.sameAt ready)) (same.hasBuckets hasBuckets) restStorable
        (le_trans (le_max_right _ _) deep) (same.standsAll ready stands.2)
      refine ⟨after, ?_, same.trans later⟩
      exact traverse_cons_eq_some.mpr ⟨middle, (key, value), entries, visited, traversed, rfl⟩

end

end Iterating

/-- From every nested array without references whose leaves can all be stored,
`ThreadedArray::fromArray` builds one object for each array, of which none loses its last
reference, and the thread that iterates over them recursively gets the array back. -/
theorem fromArray_roundTrip (setting : ObjectGraph.Setting) {heap : Heap} (supplied : heap.Supplied)
    {entries : List (Key × Zval)} (enough : arrayCount (.array entries) ≤ heap.supply.length)
    (storable : Storable heap.world.registry setting.enumCases setting.thread (.array entries)) :
    ∃ after object, fromArray setting.thread entries heap = some (after, object) ∧
      heap.world.registry.zobjs object = none ∧ after.Alive object ∧
      after.supply = heap.supply.drop (arrayCount (.array entries)) ∧
      (∀ address, heap.world.registry.zobjs address = none →
        (after.world.registry.zobjs address).isSome → after.Alive address) ∧
      ∀ fresh buckets fuel, HasBuckets after.world buckets →
        arrayDepth (.array entries) ≤ fuel →
        ∃ last, toArray setting fresh heap.world.registry buckets fuel after.world object =
            some (last, entries) ∧ SameWorld after.world last := by
  obtain ⟨made, object, tsObj, after, init, isMade, merging, merged⟩ := builds_array
    (fun heap object tsObj supplied ready grows enough absent => storeMergeCoerced_merges entries
      heap object tsObj supplied ready grows enough absent storable.1 storable.2)
    supplied (fun _ _ found => found) enough
  have grown : Spares object tsObj heap made := isMade.spares supplied
  obtain ⟨unused, -⟩ := isMade.unused supplied
  have alive := merged.spares.alive (isMade.alive supplied)
  refine ⟨after, object, ?_, unused, alive, ?_, ?_, ?_⟩
  · simp only [fromArray, init, merging, Option.bind_eq_bind, Option.bind_some]
  · rw [merged.supply, isMade.supply]
    rfl
  · intro address new present
    by_cases isRoot : address = object
    · rw [isRoot]
      exact alive
    · apply merged.alive address _ present
      rw [isMade.zobjs, Function.update_of_ne isRoot, new]
  · intro fresh buckets fuel hasBuckets deep
    rw [arrayDepth] at deep
    obtain ⟨fuel, rfl⟩ : ∃ less, fuel = less + 1 := ⟨fuel - 1, by omega⟩
    have keys : (after.world.props tsObj).hash.table.keys = entries.map Prod.fst := by
      rw [merged.keys, isMade.props, Function.update_self]
      rfl
    obtain ⟨last, traversed, same⟩ := @traverse_stands setting fresh heap.world.registry buckets
      entries fuel after.world object tsObj merged.ready hasBuckets storable.2 (by omega)
      (grown.standsAll merged.stands)
    refine ⟨last, ?_, same⟩
    rw [toArray_succ fuel merged.ready.attached hasBuckets, keys]
    exact traversed

/-- Thread 1 at the start, and three places for objects. -/
def emptyHeap : Heap :=
  ⟨⟨ObjectRegistry.initial, fun _ => Store.storeInit, fun _ => ⟨none, -1⟩⟩, fun _ => 0,
    [(1, 1), (2, 2), (3, 3)]⟩

def firstThread : ObjectGraph.Setting :=
  ⟨1, fun _ _ _ => false, fun _ => [], fun _ => false, fun _ => []⟩

/-- `['a' => 'H', 'b' => [5 => 7, 'c' => [null]], 1 => true]`. -/
def nestedEntries : List (Key × Zval) :=
  [(.string [97], .string ⟨1, [72], false⟩),
    (.string [98], .array [(.long 5, .long 7), (.string [99], .array [(.long 0, .null)])]),
    (.long 1, .bool true)]

theorem fromArray_roundTrip_nested :
    ∃ after object, fromArray 1 nestedEntries emptyHeap = some (after, object) ∧
      after.Alive object ∧ after.supply = [] ∧
      ∀ fresh buckets, HasBuckets after.world buckets →
        ∃ last, toArray firstThread fresh ObjectRegistry.initial buckets 3 after.world object =
          some (last, nestedEntries) := by
  have supplied : emptyHeap.Supplied := by
    refine ⟨?_, by decide, by decide⟩
    intro place isIn
    simp only [emptyHeap, List.mem_cons, List.not_mem_nil, or_false] at isIn
    rcases isIn with rfl | rfl | rfl <;> exact ⟨rfl, rfl, by decide, by decide⟩
  have storable : Storable ObjectRegistry.initial firstThread.enumCases firstThread.thread
      (.array nestedEntries) := by
    have leaves : StorableAll ObjectRegistry.initial firstThread.enumCases firstThread.thread
        [(.long 5, .long 7), (.string [99], .array [(.long 0, .null)])] :=
      ⟨⟨rfl, _, rfl⟩, ⟨rfl, by decide, ⟨rfl, _, rfl⟩, trivial⟩, trivial⟩
    exact ⟨by decide, ⟨rfl, _, rfl⟩, ⟨rfl, by decide, leaves⟩, ⟨rfl, _, rfl⟩, trivial⟩
  obtain ⟨after, object, built, -, alive, supply, -, read⟩ :=
    fromArray_roundTrip firstThread supplied (by decide) storable
  refine ⟨after, object, built, alive, supply, ?_⟩
  intro fresh buckets hasBuckets
  obtain ⟨last, isRead, -⟩ := read fresh buckets 3 hasBuckets (by decide)
  exact ⟨last, isRead⟩

end Pthreads.ArrayConversion
