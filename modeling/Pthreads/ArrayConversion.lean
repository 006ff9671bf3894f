import Pthreads.MergeLaw
import Pthreads.ObjectGraph

/-!
# Turning nested arrays into ThreadedArrays

`ThreadedArray::fromArray` merges an array into a new object, and a write of a nested
array merges that into a new object in turn.  The new object is given no reference of
its own: the only one is the entry of the local table of the object that it is written
to.  This file models the two functions with the reference counts, and shows how an
array of which all parts can be stored stands in the objects that are built.
-/

namespace Pthreads.ArrayConversion

open ObjectGraph Store
open ObjectRegistry (Registry ZendObject addressLimit globalsObjectValid)

/-- What a thread works on while it converts an array. -/
structure Heap where
  world : World
  /-- The reference counts of the zend objects. -/
  refcounts : Nat → Nat
  /-- What the allocators will return, for a zend object and its shared object each. -/
  supply : List (Nat × Nat)

/-- The ThreadedArray class is final and declares no properties. -/
def declaredProperties : List Key := []

/-- `object_init_ex` of a ThreadedArray. -/
def objectInit (thread : Nat) (heap : Heap) : Option (Heap × Nat) :=
  match heap.supply with
  | [] => none
  | (address, tsObj) :: supply => do
      let (registry, _) ← coerceArray heap.world.registry thread ⟨0, address, tsObj⟩
      some ({
        world := {
          registry := registry
          props := Function.update heap.world.props tsObj storeInit
          locals := Function.update heap.world.locals address ⟨none, storeInit.modcount - 1⟩ }
        refcounts := Function.update heap.refcounts address 1
        supply := supply }, address)

/-- `zval_ptr_dtor`, without a result if the last reference goes: what the destruction
of an object does is not followed here. -/
def releaseValue (refcounts : Nat → Nat) : Zval → Option (Nat → Nat)
  | .threaded address =>
      if refcounts address ≤ 1 then none
      else some (Function.update refcounts address (refcounts address - 1))
  | _ => some refcounts

/-- `Z_TRY_ADDREF_P`. -/
def addrefValue (refcounts : Nat → Nat) : Zval → (Nat → Nat)
  | .threaded address => Function.update refcounts address (refcounts address + 1)
  | _ => refcounts

/-- The values that leave a local table when it is brought in sync. -/
def unsyncedValues (before after : Option (OrderedTable Key Zval)) : List Zval :=
  match before with
  | none => []
  | some table =>
      (table.entries.filter fun entry =>
        ((after.bind fun synced => synced.find entry.1)).isNone).map Prod.snd

/-- The references that a write takes from the local table and gives to it. -/
def countWrite (refcounts : Nat → Nat) (before synced : Option (OrderedTable Key Zval))
    (key : Key) (value : Zval) : Option (Nat → Nat) := do
  let unsynced ← (unsyncedValues before synced).foldlM releaseValue refcounts
  if retainInLocalCache value then
    let replaced ← ((synced.bind fun table => table.find key).toList).foldlM releaseValue unsynced
    some (addrefValue replaced value)
  else some unsynced

/-- `pthreads_store_write` of a value that is stored as it is.  One that cannot be stored
throws, and leaves everything as it is. -/
def writeValue (thread : Nat) (heap : Heap) (object : Nat) (key : Key) (value : Zval) :
    Option Heap := do
  let tsObj ← tsObjAt heap.world.registry object
  let result ← storeWrite heap.world.registry (heap.world.props tsObj)
    (heap.world.connection thread object) (some key.toZval) value false ⟨0, 0, 0⟩
  match result with
  | none => some heap
  | some written => do
      let refcounts ← countWrite heap.refcounts (heap.world.locals object).properties
        written.connection.properties written.member value
      let shared := { heap.world with
        registry := written.registry
        props := Function.update heap.world.props tsObj written.props }
      some { heap with
        world := shared.setLocal object (finishPending declaredProperties written.connection)
        refcounts := refcounts }

/-- `Z_SET_REFCOUNT`. -/
def Heap.setRefcount (heap : Heap) (address count : Nat) : Heap :=
  { heap with refcounts := Function.update heap.refcounts address count }

mutual

/-- `pthreads_store_write` with `PTHREADS_STORE_COERCE_ARRAY`. -/
def storeWriteCoerced (thread : Nat) : Zval → Heap → Nat → Key → Option Heap
  | .array entries, heap, object, key => do
      let (made, vol) ← objectInit thread heap
      let merged ← storeMergeCoerced thread entries made vol
      -- the reference is added when the object is cached
      writeValue thread (merged.setRefcount vol 0) object key (.threaded vol)
  | value, heap, object, key => writeValue thread heap object key value

/-- The element-writing path of `pthreads_store_merge`, which overwrites what is there. -/
def storeMergeCoerced (thread : Nat) : List (Key × Zval) → Heap → Nat → Option Heap
  | [], heap, _ => some heap
  | (key, value) :: entries, heap, object => do
      let written ← storeWriteCoerced thread value heap object key
      storeMergeCoerced thread entries written object

end

/-- `ThreadedArray::fromArray`, with the object that it returns. -/
def fromArray (thread : Nat) (entries : List (Key × Zval)) (heap : Heap) : Option (Heap × Nat) := do
  let (made, object) ← objectInit thread heap
  let merged ← storeMergeCoerced thread entries made object
  some (merged, object)

mutual

/-- How many arrays there are in a value. -/
def arrayCount : Zval → Nat
  | .array entries => arrayCountAll entries + 1
  | _ => 0

def arrayCountAll : List (Key × Zval) → Nat
  | [] => 0
  | (_, value) :: entries => arrayCount value + arrayCountAll entries

end

mutual

/-- An array without references whose leaves can all be stored.  Its keys are distinct
and none is the string form of an integer, as in any PHP array, and an enum case that the
thread has is loaded. -/
def Storable (registry : Registry) (enumCases : EnumCases) (thread : Nat) : Zval → Prop
  | .array entries =>
      (entries.map Prod.fst).Nodup ∧ StorableAll registry enumCases thread entries
  | .reference _ | .indirect _ => False
  | .enumCase className memberName => enumCases thread className memberName = true
  | value => ∃ storage, saveZval registry thread value = some storage

def StorableAll (registry : Registry) (enumCases : EnumCases) (thread : Nat) :
    List (Key × Zval) → Prop
  | [] => True
  | (key, value) :: entries =>
      (key.Canonical ∧ Storable registry enumCases thread value) ∧
        StorableAll registry enumCases thread entries

end

/-- The object is attached to its shared object, and its local table needs no
synchronisation and has nothing that the shared one has not. -/
structure Ready (world : World) (object tsObj : Nat) : Prop where
  attached : tsObjAt world.registry object = some tsObj
  shared : (world.registry.tsObjs tsObj).isSome
  synced : (world.locals object).localPropsModcount = (world.props tsObj).modcount ∨
    (world.locals object).properties = none
  within : ∀ key, (world.props tsObj).hash.find key = none →
    ((world.locals object).properties.bind fun table => table.find key) = none

/-- What the local table of an object has under a key. -/
def cachedMember (world : World) (object : Nat) (key : Key) : Option Zval :=
  ((world.locals object).properties.bind fun table => table.find key).filter validLocalCacheItem

section Standing

variable (before : Registry) (enumCases : EnumCases) (thread : Nat) (world : World)

mutual

/-- How a value stands in a member of a ThreadedArray, by what the two tables have: a
nested array is an object that was not in memory before, a leaf is cached or restored
from its storage. -/
def Stands (cached : Option Zval) (stored : Option Storage) : Zval → Prop
  | .array entries => ∃ child tsObj, cached = some (.threaded child) ∧
      before.zobjs child = none ∧ before.tsObjs tsObj = none ∧ Ready world child tsObj ∧
      (world.props tsObj).hash.table.keys = entries.map Prod.fst ∧
      StandsAll child tsObj entries
  | value => cached = some value ∨
      cached = none ∧ retainInLocalCache value = false ∧ ∃ storage, stored = some storage ∧
        ∀ registry fresh,
          restoreZval enumCases registry thread fresh storage = some (registry, value)

def StandsAll (object tsObj : Nat) : List (Key × Zval) → Prop
  | [] => True
  | (key, value) :: entries =>
      Stands (cachedMember world object key) ((world.props tsObj).hash.find key) value ∧
        StandsAll object tsObj entries

end

end Standing

/-- An object and its shared object, with their tables, are the same in two worlds. -/
structure SameAt (child tsObj : Nat) (world later : World) : Prop where
  attached : tsObjAt later.registry child = some tsObj
  shared : (later.registry.tsObjs tsObj).isSome
  locals : later.locals child = world.locals child
  props : later.props tsObj = world.props tsObj

theorem Ready.later {world later : World} {child tsObj : Nat} (ready : Ready world child tsObj)
    (same : SameAt child tsObj world later) : Ready later child tsObj := by
  refine ⟨same.attached, same.shared, ?_, ?_⟩
  · rw [same.locals, same.props]
    exact ready.synced
  · rw [same.locals, same.props]
    exact ready.within

section Frames

variable {before earlier : Registry} {enumCases : EnumCases} {thread : Nat} {world later : World}

/-- The objects that were not in memory before stay as they are, and are new in the
other registry too. -/
def KeepsNew (before earlier : Registry) (world later : World) : Prop :=
  ∀ child tsObj, before.zobjs child = none → before.tsObjs tsObj = none →
    Ready world child tsObj →
      earlier.zobjs child = none ∧ earlier.tsObjs tsObj = none ∧ SameAt child tsObj world later

mutual

theorem Stands.later (keeps : KeepsNew before earlier world later) :
    ∀ {value : Zval} {cached : Option Zval} {stored : Option Storage},
      Stands before enumCases thread world cached stored value →
        Stands earlier enumCases thread later cached stored value
  | .array entries, cached, stored, stands => by
      obtain ⟨child, tsObj, isCached, newChild, newShared, ready, keys, nested⟩ := stands
      obtain ⟨stillNew, sharedNew, same⟩ := keeps child tsObj newChild newShared ready
      refine ⟨child, tsObj, isCached, stillNew, sharedNew, ready.later same, ?_, ?_⟩
      · rw [same.props]
        exact keys
      · apply StandsAll.later keeps _ nested
        intro key _
        rw [cachedMember, same.locals, same.props]
        exact ⟨rfl, rfl⟩
  | .undef, _, _, stands | .null, _, _, stands | .bool _, _, _, stands | .long _, _, _, stands
  | .double _, _, _, stands | .string _, _, _, stands | .threaded _, _, _, stands
  | .closure _, _, _, stands | .socket _ _, _, _, stands | .enumCase _ _, _, _, stands
  | .object _, _, _, stands | .resource _, _, _, stands | .reference _, _, _, stands
  | .indirect _, _, _, stands => stands

theorem StandsAll.later (keeps : KeepsNew before earlier world later) :
    ∀ {entries : List (Key × Zval)} {object tsObj : Nat},
      (∀ key ∈ entries.map Prod.fst, cachedMember later object key = cachedMember world object key ∧
        (later.props tsObj).hash.find key = (world.props tsObj).hash.find key) →
      StandsAll before enumCases thread world object tsObj entries →
        StandsAll earlier enumCases thread later object tsObj entries
  | [], _, _, _, _ => trivial
  | (key, value) :: entries, object, tsObj, same, stands => by
      obtain ⟨sameCached, sameStored⟩ := same key List.mem_cons_self
      refine ⟨?_, StandsAll.later keeps
        (fun other isIn => same other (List.mem_cons_of_mem _ isIn)) stands.2⟩
      rw [sameCached, sameStored]
      exact Stands.later keeps stands.1

end

end Frames

/-- The allocators return memory that is not in use. -/
structure Heap.Supplied (heap : Heap) : Prop where
  free : ∀ place ∈ heap.supply, heap.world.registry.zobjs place.1 = none ∧
    heap.world.registry.tsObjs place.2 = none ∧ 0 < place.1 ∧ place.1 < addressLimit
  addresses : (heap.supply.map Prod.fst).Nodup
  tsObjs : (heap.supply.map Prod.snd).Nodup

/-- The object is in memory, and so is what it shares. -/
structure Heap.Alive (heap : Heap) (address : Nat) : Prop where
  referenced : 0 < heap.refcounts address
  valid : globalsObjectValid heap.world.registry address = true
  attached : ∃ tsObj, tsObjAt heap.world.registry address = some tsObj ∧
    (heap.world.registry.tsObjs tsObj).isSome

/-- All that was in memory stays, and nothing but the tables of one object changes. -/
structure Spares (object tsObj : Nat) (before after : Heap) : Prop where
  zobjs : Grows before.world.registry after.world.registry
  tsObjs : ∀ shared, (before.world.registry.tsObjs shared).isSome →
    (after.world.registry.tsObjs shared).isSome
  objects : before.world.registry.objects ⊆ after.world.registry.objects
  locals : ∀ address, (before.world.registry.zobjs address).isSome → address ≠ object →
    after.world.locals address = before.world.locals address
  props : ∀ shared, (before.world.registry.tsObjs shared).isSome → shared ≠ tsObj →
    after.world.props shared = before.world.props shared
  refcounts : ∀ address, (before.world.registry.zobjs address).isSome →
    before.refcounts address ≤ after.refcounts address

section Changes

variable {thread object tsObj child shared : Nat} {before middle after heap made : Heap}

theorem zobjs_of_attached {registry : Registry} {address : Nat}
    (attached : tsObjAt registry address = some tsObj) : (registry.zobjs address).isSome := by
  obtain ⟨zobj, found, -⟩ := Option.bind_eq_some_iff.mp attached
  rw [found]
  rfl

theorem Spares.attached (spares : Spares object tsObj before after) {address : Nat}
    (attached : tsObjAt before.world.registry address = some shared) :
    tsObjAt after.world.registry address = some shared := by
  obtain ⟨zobj, found, points⟩ := Option.bind_eq_some_iff.mp attached
  exact Option.bind_eq_some_iff.mpr ⟨zobj, spares.zobjs address zobj found, points⟩

theorem Spares.present (spares : Spares object tsObj before after) {address : Nat}
    (present : (before.world.registry.zobjs address).isSome) :
    (after.world.registry.zobjs address).isSome := by
  obtain ⟨zobj, found⟩ := Option.isSome_iff_exists.mp present
  rw [spares.zobjs address zobj found]
  rfl

theorem Spares.alive (spares : Spares object tsObj before after) {address : Nat}
    (alive : before.Alive address) : after.Alive address := by
  obtain ⟨shared, attached, present⟩ := alive.attached
  refine ⟨?_, ?_, shared, spares.attached attached, spares.tsObjs shared present⟩
  · apply alive.referenced.trans_le
    exact spares.refcounts address (zobjs_of_attached attached)
  · obtain ⟨notNull, listed⟩ := of_decide_eq_true alive.valid
    exact decide_eq_true ⟨notNull, spares.objects listed⟩

/-- A second change may be to the same object, or to one that was new. -/
theorem Spares.trans (first : Spares object tsObj before middle)
    (second : Spares child shared middle after)
    (sameObject : child = object ∨ before.world.registry.zobjs child = none)
    (sameShared : shared = tsObj ∨ before.world.registry.tsObjs shared = none) :
    Spares object tsObj before after := by
  refine ⟨?_, ?_, first.objects.trans second.objects, ?_, ?_, ?_⟩
  · intro address zobj found
    exact second.zobjs address zobj (first.zobjs address zobj found)
  · intro other present
    exact second.tsObjs other (first.tsObjs other present)
  · intro address present different
    have other : address ≠ child := by
      rintro rfl
      rcases sameObject with same | new
      · exact different same
      · rw [new] at present
        cases present
    exact (second.locals address (first.present present) other).trans
      (first.locals address present different)
  · intro other present different
    have apart : other ≠ shared := by
      rintro rfl
      rcases sameShared with same | new
      · exact different same
      · rw [new] at present
        cases present
    exact (second.props other (first.tsObjs other present) apart).trans
      (first.props other present different)
  · intro address present
    exact (first.refcounts address present).trans
      (second.refcounts address (first.present present))

theorem Spares.sameAt (spares : Spares object tsObj before after)
    (ready : Ready before.world child shared) (apart : child ≠ object)
    (sharedApart : shared ≠ tsObj) : SameAt child shared before.world after.world :=
  ⟨spares.attached ready.attached, spares.tsObjs shared ready.shared,
    spares.locals child (zobjs_of_attached ready.attached) apart,
    spares.props shared ready.shared sharedApart⟩

/-- What was new before a change to a known object stays as it is after it. -/
theorem Spares.keepsNew {registry : Registry} (spares : Spares object tsObj before after)
    (known : (registry.zobjs object).isSome) (sharedKnown : (registry.tsObjs tsObj).isSome) :
    KeepsNew registry registry before.world after.world := by
  intro child shared newChild newShared ready
  refine ⟨newChild, newShared, spares.sameAt ready ?_ ?_⟩
  · rintro rfl
    rw [newChild] at known
    cases known
  · rintro rfl
    rw [newShared] at sharedKnown
    cases sharedKnown

/-- The heap with one more ThreadedArray. -/
structure Made (thread address tsObj : Nat) (heap made : Heap) : Prop where
  supply : heap.supply = (address, tsObj) :: made.supply
  zobjs : made.world.registry.zobjs = Function.update heap.world.registry.zobjs address
    (some ⟨some tsObj, some thread, none, false⟩)
  tsObjs : ∃ serial, made.world.registry.tsObjs =
    Function.update heap.world.registry.tsObjs tsObj (some ⟨1, thread, serial⟩)
  objects : made.world.registry.objects = insert address heap.world.registry.objects
  props : made.world.props = Function.update heap.world.props tsObj storeInit
  locals : made.world.locals = Function.update heap.world.locals address ⟨none, -1⟩
  refcounts : made.refcounts = Function.update heap.refcounts address 1

/-- The memory that the allocators return is enough for an object. -/
theorem objectInit_made (supplied : heap.Supplied) (nonempty : heap.supply ≠ []) :
    ∃ made address tsObj, objectInit thread heap = some (made, address) ∧
      Made thread address tsObj heap made := by
  obtain ⟨⟨address, tsObj⟩, supply, isSupply⟩ := List.exists_cons_of_ne_nil nonempty
  have first : (address, tsObj) ∈ heap.supply := by
    rw [isSupply]
    exact List.mem_cons_self
  obtain ⟨unused, unshared, positive, inRange⟩ := supplied.free _ first
  have coerced : ∃ registry, coerceArray heap.world.registry thread ⟨0, address, tsObj⟩ =
      some (registry, .threaded address) ∧
      registry.zobjs = Function.update heap.world.registry.zobjs address
        (some ⟨some tsObj, some thread, none, false⟩) ∧
      registry.tsObjs = Function.update heap.world.registry.tsObjs tsObj
        (some ⟨1, thread, heap.world.registry.created⟩) ∧
      registry.objects = insert address heap.world.registry.objects := by
    simp [coerceArray, ObjectRegistry.globalsObjectAlloc, ObjectRegistry.baseCtor,
      ObjectRegistry.step, unused, unshared, positive, inRange]
  obtain ⟨registry, coerced, zobjs, tsObjs, objects⟩ := coerced
  have made : objectInit thread heap = some (⟨⟨registry,
      Function.update heap.world.props tsObj storeInit,
      Function.update heap.world.locals address ⟨none, -1⟩⟩,
      Function.update heap.refcounts address 1, supply⟩, address) := by
    simp only [objectInit, isSupply, coerced, Option.bind_eq_bind, Option.bind_some]
    rfl
  exact ⟨_, address, tsObj, made, isSupply, zobjs, ⟨_, tsObjs⟩, objects, rfl, rfl, rfl⟩

theorem Made.unused (isMade : Made thread child shared heap made) (supplied : heap.Supplied) :
    heap.world.registry.zobjs child = none ∧ heap.world.registry.tsObjs shared = none ∧
      0 < child := by
  have first : (child, shared) ∈ heap.supply := by
    rw [isMade.supply]
    exact List.mem_cons_self
  obtain ⟨unused, unshared, positive, -⟩ := supplied.free _ first
  exact ⟨unused, unshared, positive⟩

theorem Made.ready (isMade : Made thread child shared heap made) :
    Ready made.world child shared := by
  obtain ⟨serial, tsObjs⟩ := isMade.tsObjs
  refine ⟨?_, ?_, Or.inr ?_, ?_⟩
  · simp [tsObjAt, isMade.zobjs]
  · simp [tsObjs]
  · simp [isMade.locals]
  · intro key _
    simp [isMade.locals]

theorem Made.spares (isMade : Made thread child shared heap made) (supplied : heap.Supplied) :
    Spares object tsObj heap made := by
  obtain ⟨unused, unshared, -⟩ := isMade.unused supplied
  obtain ⟨serial, tsObjs⟩ := isMade.tsObjs
  have other : ∀ address, (heap.world.registry.zobjs address).isSome → address ≠ child := by
    rintro _ present rfl
    rw [unused] at present
    cases present
  have apart : ∀ address, (heap.world.registry.tsObjs address).isSome → address ≠ shared := by
    rintro _ present rfl
    rw [unshared] at present
    cases present
  refine ⟨?_, ?_, ?_, ?_, ?_, ?_⟩
  · intro address zobj found
    rw [isMade.zobjs, Function.update_of_ne (other address (by rw [found]; rfl)), found]
  · intro address present
    rwa [tsObjs, Function.update_of_ne (apart address present)]
  · rw [isMade.objects]
    exact Finset.subset_insert child _
  · intro address present _
    rw [isMade.locals, Function.update_of_ne (other address present)]
  · intro address present _
    rw [isMade.props, Function.update_of_ne (apart address present)]
  · intro address present
    rw [isMade.refcounts, Function.update_of_ne (other address present)]

theorem Made.supplied (isMade : Made thread child shared heap made) (supplied : heap.Supplied) :
    made.Supplied := by
  obtain ⟨serial, tsObjs⟩ := isMade.tsObjs
  have addresses := supplied.addresses
  have sharedObjects := supplied.tsObjs
  rw [isMade.supply, List.map_cons, List.nodup_cons] at addresses sharedObjects
  refine ⟨?_, addresses.2, sharedObjects.2⟩
  intro place isIn
  have wasIn : place ∈ heap.supply := by
    rw [isMade.supply]
    exact List.mem_cons_of_mem _ isIn
  obtain ⟨unused, unshared, range⟩ := supplied.free place wasIn
  have other : place.1 ≠ child := by
    rintro rfl
    exact addresses.1 (List.mem_map.mpr ⟨place, isIn, rfl⟩)
  have apart : place.2 ≠ shared := by
    rintro rfl
    exact sharedObjects.1 (List.mem_map.mpr ⟨place, isIn, rfl⟩)
  rw [isMade.zobjs, tsObjs, Function.update_of_ne other, Function.update_of_ne apart]
  exact ⟨unused, unshared, range⟩

theorem Made.alive (isMade : Made thread child shared heap made) (supplied : heap.Supplied) :
    made.Alive child := by
  obtain ⟨-, -, positive⟩ := isMade.unused supplied
  refine ⟨?_, ?_, shared, isMade.ready.attached, isMade.ready.shared⟩
  · simp [isMade.refcounts]
  · simp [globalsObjectValid, isMade.objects, positive.ne']

end Changes

end Pthreads.ArrayConversion
