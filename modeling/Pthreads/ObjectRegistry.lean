import Pthreads.GuardedRuns
import Mathlib.Algebra.Group.Nat.Defs
import Mathlib.Data.Finset.Card
import Mathlib.Data.Finset.Filter

/-!
# Zend objects and the shared objects behind them

Each Threaded object of a thread is a `pthreads_zend_object_t` attached to a
reference-counted `pthreads_object_t` that may be shared with other threads.
The global table `PTHREADS_G(objects)` holds the addresses of the zend objects
that exist, and each thread's `PTHREADS_ZG(resolve)` finds its connection to a
shared object.  The operations of `src/object.c` and `src/globals.c` that
create, connect and free these objects change them only under the global
monitor, so each critical section is one action here.

Memory that the source would read through a null or dangling pointer gives an
operation no result.
-/

namespace Pthreads.ObjectRegistry

open GuardedRuns

/-- The fields of `pthreads_zend_object_t` that concern its identity.  They are
null between `pthreads_globals_object_alloc` and `pthreads_base_ctor`. -/
structure ZendObject where
  tsObj : Option Nat
  owner : Option Nat
  originalZobj : Option Nat
  /-- Only the code that constructs the object refers to it yet. -/
  fresh : Bool
deriving DecidableEq, Repr

/-- The fields of `pthreads_object_t` that concern its lifetime. -/
structure TsObject where
  refcount : Nat
  creator : Nat
  /-- How many shared objects were created before this one: it tells apart two
  that stood at one address. -/
  serial : Nat
deriving DecidableEq, Repr

/-- The address kept in a storage or in a serialized form, with the shared
object that was behind it when it was taken. -/
structure Handle where
  address : Nat
  tsObj : Nat
  serial : Nat
deriving DecidableEq, Repr

structure Registry where
  /-- The zend objects in memory, by address. -/
  zobjs : Nat → Option ZendObject
  /-- The shared objects in memory. -/
  tsObjs : Nat → Option TsObject
  /-- `PTHREADS_G(objects)`. -/
  objects : Finset Nat
  /-- `PTHREADS_ZG(resolve)` of each thread. -/
  resolve : Nat → Nat → Option Nat
  /-- The handles taken so far. -/
  saved : List Handle
  /-- The number of shared objects created so far. -/
  created : Nat

def initial : Registry := ⟨fun _ => none, fun _ => none, ∅, fun _ _ => none, [], 0⟩

/-- `UINTPTR_MAX + 1`. -/
def addressLimit : Nat := 2 ^ 64

/-- `pthreads_globals_object_alloc`, at the address the allocator returns. -/
def globalsObjectAlloc (registry : Registry) (address : Nat) : Option Registry :=
  if registry.zobjs address = none ∧ 0 < address ∧ address < addressLimit then
    some { registry with
      zobjs := Function.update registry.zobjs address (some ⟨none, none, none, true⟩)
      objects := insert address registry.objects }
  else none

/-- `pthreads_globals_object_valid`. -/
def globalsObjectValid (registry : Registry) (address : Nat) : Bool :=
  address ≠ 0 ∧ address ∈ registry.objects

/-- `pthreads_globals_object_delete`. -/
def globalsObjectDelete (registry : Registry) (address : Nat) : Registry :=
  { registry with objects := registry.objects.erase address }

/-- `pthreads_ts_object_ctor` and the part of `pthreads_base_ctor` that attaches
the zend object to the result. -/
def baseCtor (registry : Registry) (thread address tsObj : Nat) : Option Registry :=
  match registry.zobjs address, registry.tsObjs tsObj with
  | some ⟨none, none, none, true⟩, none =>
      some { registry with
        zobjs := Function.update registry.zobjs address
          (some ⟨some tsObj, some thread, none, true⟩)
        tsObjs := Function.update registry.tsObjs tsObj (some ⟨1, thread, registry.created⟩)
        created := registry.created + 1 }
  | _, _ => none

/-- `--ts_obj->refcount == 0` and the `pthreads_ts_object_free` it guards. -/
def tsObjectRelease (registry : Registry) (tsObj : Nat) : Option Registry :=
  (registry.tsObjs tsObj).map fun shared =>
    { registry with
      tsObjs := Function.update registry.tsObjs tsObj
        (if shared.refcount = 1 then none
         else some { shared with refcount := shared.refcount - 1 }) }

/-- `++ts_obj->refcount`. -/
def tsObjectAddref (registry : Registry) (tsObj : Nat) : Option Registry :=
  (registry.tsObjs tsObj).map fun shared =>
    { registry with
      tsObjs := Function.update registry.tsObjs tsObj
        (some { shared with refcount := shared.refcount + 1 }) }

/-- The destination gives up its own shared object, if it has one. -/
def releaseOwn (registry : Registry) : Option Nat → Option Registry
  | none => some registry
  | some own => tsObjectRelease registry own

/-- `_pthreads_connect_nolock`. -/
def connectNolock (registry : Registry) (source destination : Nat) : Option Registry := do
  let target ← registry.zobjs destination
  let origin ← registry.zobjs source
  let released ← releaseOwn registry target.tsObj
  let shared ← origin.tsObj
  let counted ← tsObjectAddref released shared
  some { counted with
    zobjs := Function.update registry.zobjs destination
      (some ⟨some shared, target.owner, some (origin.originalZobj.getD source), false⟩) }

/-- The rest of `pthreads_globals_object_connect` when the thread has no
connection yet: `object_init_ex`, `_pthreads_connect_nolock` and the entry in
the resolve table. -/
def createConnection (registry : Registry) (thread address newAddress newTs : Nat) :
    Option Registry := do
  let allocated ← globalsObjectAlloc registry newAddress
  let constructed ← baseCtor allocated thread newAddress newTs
  let connected ← connectNolock constructed address newAddress
  let connection ← connected.zobjs newAddress
  let shared ← connection.tsObj
  some { connected with
    resolve := Function.update connected.resolve thread
      (Function.update (connected.resolve thread) shared (some newAddress)) }

/-- `pthreads_globals_object_connect`: the object it returns, or nothing when the
address is not valid.  A connection it has to create is placed at `newAddress`,
with a temporary shared object at `newTs`. -/
def globalsObjectConnect (registry : Registry) (thread address newAddress newTs : Nat) :
    Option (Registry × Option Nat) :=
  if globalsObjectValid registry address then do
    let zobj ← registry.zobjs address
    if zobj.owner = some thread then
      some (registry, some address)
    else
      let shared ← zobj.tsObj
      match registry.resolve thread shared with
      | some connection => some (registry, some connection)
      | none =>
          let connected ← createConnection registry thread address newAddress newTs
          some (connected, some newAddress)
  else
    some (registry, none)

/-- `pthreads_base_free`, on the thread that owns the object. -/
def baseFree (registry : Registry) (thread address : Nat) : Option Registry := do
  let zobj ← registry.zobjs address
  let shared ← zobj.tsObj
  if zobj.owner = some thread then
    let resolve := if registry.resolve thread shared = some address then
      Function.update registry.resolve thread
        (Function.update (registry.resolve thread) shared none)
      else registry.resolve
    let released ← tsObjectRelease { registry with resolve := resolve } shared
    let deleted := globalsObjectDelete released address
    some { deleted with zobjs := Function.update deleted.zobjs address none }
  else none

/-- The address that `pthreads_store_create` and `pthreads_threaded_serialize`
keep for an object: its original, if it is a connection. -/
def savedAddress (zobj : ZendObject) (address : Nat) : Nat :=
  zobj.originalZobj.getD address

/-- The critical sections that create, connect, save and free objects. -/
inductive Action where
  /-- `pthreads_globals_object_alloc`. -/
  | alloc (address : Nat)
  /-- The rest of the constructor. -/
  | construct (thread address tsObj : Nat)
  /-- The constructed object becomes visible to user code. -/
  | publish (address : Nat)
  /-- `pthreads_connect` from `pthreads_routine_run_function`, which has just
  constructed the destination for this purpose. -/
  | connect (source destination : Nat)
  /-- `pthreads_globals_object_connect`. -/
  | restore (thread address newAddress newTs : Nat)
  /-- `pthreads_base_free`. -/
  | free (thread address : Nat)
  /-- A storage or a serialized form of the object is made. -/
  | save (address : Nat)
deriving DecidableEq

/-- One critical section. -/
def step (registry : Registry) : Action → Option Registry
  | .alloc address => globalsObjectAlloc registry address
  | .construct thread address tsObj => baseCtor registry thread address tsObj
  | .publish address => do
      let zobj ← registry.zobjs address
      if zobj.tsObj.isSome then
        some { registry with
          zobjs := Function.update registry.zobjs address (some { zobj with fresh := false }) }
      else none
  | .connect source destination => do
      let origin ← registry.zobjs source
      let target ← registry.zobjs destination
      if target.fresh ∧ target.tsObj.isSome ∧ ¬ origin.fresh then
        connectNolock registry source destination
      else none
  | .restore thread address newAddress newTs =>
      (globalsObjectConnect registry thread address newAddress newTs).map Prod.fst
  | .free thread address => baseFree registry thread address
  | .save address => do
      let zobj ← registry.zobjs address
      let tsObj ← zobj.tsObj
      let shared ← registry.tsObjs tsObj
      if zobj.fresh then none
      else some { registry with
        saved := ⟨savedAddress zobj address, tsObj, shared.serial⟩ :: registry.saved }

section Inversion

variable {registry after : Registry}

theorem publish_eq {address : Nat} (stepped : step registry (.publish address) = some after) :
    ∃ zobj, registry.zobjs address = some zobj ∧ after = { registry with
      zobjs := Function.update registry.zobjs address (some { zobj with fresh := false }) } := by
  obtain ⟨zobj, found, publishing⟩ := Option.bind_eq_some_iff.mp stepped
  obtain ⟨-, ⟨⟩⟩ := Option.ite_none_right_eq_some.mp publishing
  exact ⟨zobj, found, rfl⟩

/-- A fresh object is connected to one that is visible, so that they differ. -/
theorem connect_eq {source destination : Nat}
    (stepped : step registry (.connect source destination) = some after) :
    source ≠ destination ∧ ∃ origin target own, registry.zobjs source = some origin ∧
      registry.zobjs destination = some target ∧ target.fresh = true ∧ target.tsObj = some own ∧
      origin.fresh = false ∧ connectNolock registry source destination = some after := by
  obtain ⟨origin, originFound, connecting⟩ := Option.bind_eq_some_iff.mp stepped
  obtain ⟨target, targetFound, connecting⟩ := Option.bind_eq_some_iff.mp connecting
  obtain ⟨⟨isFresh, built, notFresh⟩, connected⟩ := Option.ite_none_right_eq_some.mp connecting
  obtain ⟨own, owns⟩ := Option.isSome_iff_exists.mp built
  refine ⟨?_, origin, target, own, originFound, targetFound, isFresh, owns,
    Bool.eq_false_of_not_eq_true notFresh, connected⟩
  rintro rfl
  cases Option.some.inj (originFound.symm.trans targetFound)
  exact notFresh isFresh

theorem save_eq {address : Nat} (stepped : step registry (.save address) = some after) :
    ∃ zobj tsObj shared, registry.zobjs address = some zobj ∧ zobj.tsObj = some tsObj ∧
      registry.tsObjs tsObj = some shared ∧ zobj.fresh = false ∧
      after = { registry with
        saved := ⟨savedAddress zobj address, tsObj, shared.serial⟩ :: registry.saved } := by
  simp only [step, Option.bind_eq_bind, Option.bind_eq_some_iff] at stepped
  obtain ⟨zobj, found, tsObj, points, shared, isLive, saving⟩ := stepped
  split at saving
  · cases saving
  · next visible =>
    cases saving
    exact ⟨zobj, tsObj, shared, found, points, isLive, Bool.eq_false_of_not_eq_true visible, rfl⟩

/-- A zend object in a table with a changed entry is the changed one or was there before. -/
theorem update_eq_some_cases {zobjs : Nat → Option ZendObject} {changed address : Nat}
    {entry : Option ZendObject} {zobj : ZendObject}
    (found : Function.update zobjs changed entry address = some zobj) :
    address = changed ∧ entry = some zobj ∨ address ≠ changed ∧ zobjs address = some zobj := by
  by_cases same : address = changed
  · subst same
    rw [Function.update_self] at found
    exact Or.inl ⟨rfl, found⟩
  · rw [Function.update_of_ne same] at found
    exact Or.inr ⟨same, found⟩

end Inversion

/-- The zend objects attached to a shared object. -/
def attached (registry : Registry) (tsObj : Nat) : Finset Nat :=
  registry.objects.filter fun address => (registry.zobjs address).bind ZendObject.tsObj = some tsObj

theorem mem_attached {registry : Registry} {tsObj address : Nat} :
    address ∈ attached registry tsObj ↔ address ∈ registry.objects ∧
      (registry.zobjs address).bind ZendObject.tsObj = some tsObj := by
  simp [attached]

/-- The counts, the table and the back pointers are in step, and the resolve
tables lead to connections of their own thread. -/
structure Sound (registry : Registry) : Prop where
  null : registry.zobjs 0 = none
  table : ∀ address, address ∈ registry.objects ↔ (registry.zobjs address).isSome
  counted : ∀ tsObj shared, registry.tsObjs tsObj = some shared →
    shared.refcount = (attached registry tsObj).card
  live : ∀ tsObj, (registry.tsObjs tsObj).isSome ↔ (attached registry tsObj).Nonempty
  resolved : ∀ thread tsObj connection, registry.resolve thread tsObj = some connection →
    ∃ zobj, registry.zobjs connection = some zobj ∧ zobj.tsObj = some tsObj ∧
      zobj.owner = some thread ∧ zobj.fresh = false

theorem sound_initial : Sound initial := by
  constructor <;> simp [initial, attached]

theorem Sound.ne_null {registry : Registry} (sound : Sound registry) {address : Nat}
    {zobj : ZendObject} (found : registry.zobjs address = some zobj) : 0 ≠ address := by
  rintro rfl
  simp [sound.null] at found

theorem Sound.mem_attached_of {registry : Registry} (sound : Sound registry)
    {address tsObj : Nat} {zobj : ZendObject} (found : registry.zobjs address = some zobj)
    (points : zobj.tsObj = some tsObj) : address ∈ attached registry tsObj := by
  rw [mem_attached, sound.table, found]
  exact ⟨rfl, points⟩

/-- No zend object points to a shared object that was freed. -/
theorem Sound.tsObj_live {registry : Registry} (sound : Sound registry)
    {address tsObj : Nat} {zobj : ZendObject} (found : registry.zobjs address = some zobj)
    (points : zobj.tsObj = some tsObj) : ∃ shared, registry.tsObjs tsObj = some shared := by
  have isLive := (sound.live tsObj).mpr ⟨address, sound.mem_attached_of found points⟩
  exact Option.isSome_iff_exists.mp isLive

/-- Rewriting a registered zend object moves only that object. -/
theorem attached_update {registry : Registry} {address : Nat}
    (registered : address ∈ registry.objects) (zobj : ZendObject)
    (tsObjs : Nat → Option TsObject) (resolve : Nat → Nat → Option Nat) (created tsObj : Nat) :
    attached { registry with
        zobjs := Function.update registry.zobjs address (some zobj)
        tsObjs := tsObjs
        resolve := resolve
        created := created } tsObj =
      if zobj.tsObj = some tsObj then insert address (attached registry tsObj)
      else (attached registry tsObj).erase address := by
  ext other
  by_cases same : other = address
  · subst same
    split <;> simp_all [mem_attached]
  · split <;> simp [mem_attached, same]

theorem globalsObjectAlloc_sound {registry after : Registry} (sound : Sound registry)
    {address : Nat} (allocated : globalsObjectAlloc registry address = some after) :
    Sound after := by
  obtain ⟨⟨unused, positive, -⟩, ⟨⟩⟩ := Option.ite_none_right_eq_some.mp allocated
  have unregistered : address ∉ registry.objects := by simp [sound.table, unused]
  have same : ∀ tsObj, attached { registry with
      zobjs := Function.update registry.zobjs address (some ⟨none, none, none, true⟩)
      objects := insert address registry.objects } tsObj = attached registry tsObj := by
    intro tsObj
    ext other
    by_cases equal : other = address
    · subst equal
      simp [mem_attached, unregistered]
    · simp [mem_attached, equal]
  refine ⟨?_, ?_, ?_, ?_, ?_⟩
  · simp [positive.ne, sound.null]
  · intro other
    by_cases equal : other = address
    · subst equal; simp
    · simp [equal, sound.table]
  · intro tsObj shared found
    rw [same]
    exact sound.counted tsObj shared found
  · intro tsObj
    rw [same]
    exact sound.live tsObj
  · intro thread tsObj connection found
    obtain ⟨zobj, present, facts⟩ := sound.resolved thread tsObj connection found
    refine ⟨zobj, ?_, facts⟩
    have different : connection ≠ address := by
      rintro rfl
      simp [unused] at present
    simp [different, present]

theorem baseCtor_sound {registry after : Registry} (sound : Sound registry)
    {thread address tsObj : Nat} (built : baseCtor registry thread address tsObj = some after) :
    Sound after := by
  simp only [baseCtor] at built
  split at built
  · next zobjFound tsFree =>
    simp only [Option.some.injEq] at built
    subst built
    have registered : address ∈ registry.objects := by simp [sound.table, zobjFound]
    have unattached : ∀ other, address ∉ attached registry other := by
      simp [mem_attached, zobjFound]
    have noneAttached : attached registry tsObj = ∅ := by
      rw [← Finset.not_nonempty_iff_eq_empty, ← sound.live, tsFree]
      simp
    have moved := attached_update registered ⟨some tsObj, some thread, none, true⟩
      (Function.update registry.tsObjs tsObj (some ⟨1, thread, registry.created⟩))
      registry.resolve (registry.created + 1)
    refine ⟨?_, ?_, ?_, ?_, ?_⟩
    · simp [sound.ne_null zobjFound, sound.null]
    · intro other
      by_cases equal : other = address
      · subst equal; simp [registered]
      · simp [equal, sound.table]
    · intro other shared found
      rw [moved]
      by_cases equal : other = tsObj
      · subst equal
        simp only [Function.update_self, Option.some.injEq] at found
        simp [← found, noneAttached]
      · simp only [Function.update_of_ne equal] at found
        simp only [Option.some.injEq, Ne.symm equal, if_false,
          Finset.erase_eq_of_notMem (unattached other)]
        exact sound.counted other shared found
    · intro other
      rw [moved]
      by_cases equal : other = tsObj
      · subst equal; simp
      · simp only [Function.update_of_ne equal, Option.some.injEq, Ne.symm equal, if_false,
          Finset.erase_eq_of_notMem (unattached other)]
        exact sound.live other
    · intro other shared connection found
      obtain ⟨zobj, present, points, facts⟩ := sound.resolved other shared connection found
      refine ⟨zobj, ?_, points, facts⟩
      have different : connection ≠ address := by
        rintro rfl
        rw [zobjFound] at present
        cases present
        simp at points
      simp [different, present]
  · simp at built

/-- A shared object is released by freeing it when its last reference goes. -/
theorem tsObjectRelease_eq {registry after : Registry} {tsObj : Nat}
    (released : tsObjectRelease registry tsObj = some after) :
    ∃ shared, registry.tsObjs tsObj = some shared ∧
      after = { registry with
        tsObjs := Function.update registry.tsObjs tsObj
          (if shared.refcount = 1 then none
           else some { shared with refcount := shared.refcount - 1 }) } := by
  obtain ⟨shared, found, ⟨⟩⟩ := Option.map_eq_some_iff.mp released
  exact ⟨shared, found, rfl⟩

theorem tsObjectAddref_eq {registry after : Registry} {tsObj : Nat}
    (counted : tsObjectAddref registry tsObj = some after) :
    ∃ shared, registry.tsObjs tsObj = some shared ∧
      after = { registry with
        tsObjs := Function.update registry.tsObjs tsObj
          (some { shared with refcount := shared.refcount + 1 }) } := by
  obtain ⟨shared, found, ⟨⟩⟩ := Option.map_eq_some_iff.mp counted
  exact ⟨shared, found, rfl⟩

/-- What connecting does to the zend objects: only the destination changes. -/
theorem connectNolock_zobjs {registry after : Registry} {source destination : Nat}
    (connected : connectNolock registry source destination = some after) :
    ∃ target origin shared, registry.zobjs destination = some target ∧
      registry.zobjs source = some origin ∧ origin.tsObj = some shared ∧
      after.zobjs = Function.update registry.zobjs destination
        (some ⟨some shared, target.owner, some (origin.originalZobj.getD source), false⟩) ∧
      after.objects = registry.objects ∧ after.resolve = registry.resolve ∧
      after.saved = registry.saved := by
  simp only [connectNolock, Option.bind_eq_bind, Option.bind_eq_some_iff] at connected
  obtain ⟨target, targetFound, origin, originFound, released, release, shared, points, counted,
    addref, ⟨⟩⟩ := connected
  obtain ⟨-, -, rfl⟩ := tsObjectAddref_eq addref
  refine ⟨target, origin, shared, targetFound, originFound, points, rfl, ?_⟩
  cases own : target.tsObj with
  | none =>
      rw [own] at release
      cases release
      exact ⟨rfl, rfl, rfl⟩
  | some tsObj =>
      rw [own] at release
      obtain ⟨-, -, rfl⟩ := tsObjectRelease_eq release
      exact ⟨rfl, rfl, rfl⟩

/-- What connecting does to the counts: the old shared object of the
destination loses a reference and the source's gains one. -/
theorem connectNolock_counts {registry after : Registry} (sound : Sound registry)
    {source destination own shared : Nat} {target origin : ZendObject}
    (different : source ≠ destination)
    (targetFound : registry.zobjs destination = some target) (owns : target.tsObj = some own)
    (originFound : registry.zobjs source = some origin) (points : origin.tsObj = some shared)
    (connected : connectNolock registry source destination = some after) (tsObj : Nat) :
    (∀ found, after.tsObjs tsObj = some found →
      found.refcount = (if some shared = some tsObj then
        insert destination (attached registry tsObj)
        else (attached registry tsObj).erase destination).card) ∧
    ((after.tsObjs tsObj).isSome ↔ (if some shared = some tsObj then
        insert destination (attached registry tsObj)
        else (attached registry tsObj).erase destination).Nonempty) := by
  have targetIn := sound.mem_attached_of targetFound owns
  have originIn := sound.mem_attached_of originFound points
  simp only [connectNolock, targetFound, originFound, owns, releaseOwn, points,
    Option.bind_eq_bind, Option.bind_some, Option.bind_eq_some_iff] at connected
  obtain ⟨released, release, counted, addref, ⟨⟩⟩ := connected
  obtain ⟨ownTs, ownFound, rfl⟩ := tsObjectRelease_eq release
  obtain ⟨sharedTs, sharedFound, rfl⟩ := tsObjectAddref_eq addref
  have ownCount := sound.counted own ownTs ownFound
  simp only at sharedFound ⊢
  by_cases isShared : tsObj = shared
  · subst isShared
    simp only [Function.update_self, if_true, Option.some.injEq, forall_eq', Option.isSome_some,
      Finset.insert_nonempty, and_true]
    by_cases ownShared : own = tsObj
    · -- both objects are attached to it, so it is not freed in between
      subst ownShared
      have atLeastTwo : 1 < (attached registry own).card :=
        Finset.one_lt_card.mpr ⟨source, originIn, destination, targetIn, different⟩
      rw [Function.update_self, if_neg (by omega)] at sharedFound
      simp only [Option.some.injEq] at sharedFound
      rw [← sharedFound, Finset.insert_eq_of_mem targetIn]
      simp only
      omega
    · rw [Function.update_of_ne (Ne.symm ownShared)] at sharedFound
      have notIn : destination ∉ attached registry tsObj := by
        simp only [mem_attached, targetFound, Option.bind_some, owns, Option.some.injEq,
          ownShared, and_false, not_false_eq_true]
      rw [Finset.card_insert_of_notMem notIn, sound.counted tsObj sharedTs sharedFound]
  · simp only [Function.update_of_ne isShared, Option.some.injEq, Ne.symm isShared, if_false]
    by_cases isOwn : tsObj = own
    · subst isOwn
      have card := Finset.card_erase_of_mem targetIn
      rw [Function.update_self]
      split
      · next last =>
        have empty : (attached registry tsObj).erase destination = ∅ :=
          Finset.card_eq_zero.mp (by omega)
        simp [empty]
      · next more =>
        have positive : 0 < ((attached registry tsObj).erase destination).card := by
          have := Finset.card_pos.mpr ⟨destination, targetIn⟩
          omega
        simp only [Option.some.injEq, forall_eq', Option.isSome_some, true_iff]
        exact ⟨by omega, Finset.card_pos.mp positive⟩
    · have notIn : destination ∉ attached registry tsObj := by
        simp only [mem_attached, targetFound, Option.bind_some, owns, Option.some.injEq,
          Ne.symm isOwn, and_false, not_false_eq_true]
      rw [Function.update_of_ne isOwn, Finset.erase_eq_of_notMem notIn]
      exact ⟨sound.counted tsObj, sound.live tsObj⟩

/-- Connecting moves the destination to the shared object of the source. -/
theorem connectNolock_attached {registry after : Registry} (sound : Sound registry)
    {source destination shared : Nat} {origin : ZendObject}
    (originFound : registry.zobjs source = some origin) (points : origin.tsObj = some shared)
    (connected : connectNolock registry source destination = some after) (tsObj : Nat) :
    attached after tsObj = if some shared = some tsObj then
      insert destination (attached registry tsObj)
      else (attached registry tsObj).erase destination := by
  obtain ⟨target, sameOrigin, sameShared, targetFound, found, equal, zobjs, objects, -⟩ :=
    connectNolock_zobjs connected
  cases Option.some.inj (found.symm.trans originFound)
  cases Option.some.inj (equal.symm.trans points)
  have registered : destination ∈ registry.objects := by simp [sound.table, targetFound]
  rw [← attached_update registered
    ⟨some shared, target.owner, some (origin.originalZobj.getD source), false⟩ after.tsObjs
    registry.resolve registry.created]
  simp only [attached, zobjs, objects]

theorem connectNolock_sound {registry after : Registry} (sound : Sound registry)
    {source destination own : Nat} {target : ZendObject} (different : source ≠ destination)
    (targetFound : registry.zobjs destination = some target) (owns : target.tsObj = some own)
    (isFresh : target.fresh = true)
    (connected : connectNolock registry source destination = some after) : Sound after := by
  obtain ⟨sameTarget, origin, shared, found, originFound, points, zobjs, objects, resolve, -⟩ :=
    connectNolock_zobjs connected
  cases Option.some.inj (found.symm.trans targetFound)
  have counts := connectNolock_counts sound different targetFound owns originFound points connected
  have moved := connectNolock_attached sound originFound points connected
  refine ⟨?_, ?_, ?_, ?_, ?_⟩
  · simp [zobjs, sound.ne_null targetFound, sound.null]
  · intro other
    rw [zobjs, objects, sound.table]
    by_cases equal : other = destination
    · subst equal; simp [targetFound]
    · simp [equal]
  · intro tsObj shared found
    rw [moved]
    exact (counts tsObj).1 shared found
  · intro tsObj
    rw [moved]
    exact (counts tsObj).2
  · intro thread tsObj connection present
    rw [resolve] at present
    obtain ⟨zobj, isThere, facts⟩ := sound.resolved thread tsObj connection present
    have notDestination : connection ≠ destination := by
      rintro rfl
      cases Option.some.inj (isThere.symm.trans targetFound)
      simp [isFresh] at facts
    exact ⟨zobj, by simp [zobjs, notDestination, isThere], facts⟩

/-- Creating a connection: the new object, and the states in between. -/
structure Creates (registry : Registry) (thread address newAddress newTs : Nat)
    (allocated constructed connected after : Registry) (shared : Nat) : Prop where
  alloc : globalsObjectAlloc registry newAddress = some allocated
  construct : baseCtor allocated thread newAddress newTs = some constructed
  connect : connectNolock constructed address newAddress = some connected
  found : constructed.zobjs newAddress = some ⟨some newTs, some thread, none, true⟩
  points : ∃ original, connected.zobjs newAddress =
    some ⟨some shared, some thread, some original, false⟩
  result : after = { connected with
    resolve := Function.update connected.resolve thread
      (Function.update (connected.resolve thread) shared (some newAddress)) }

theorem baseCtor_zobjs {registry after : Registry} {thread address tsObj : Nat}
    (built : baseCtor registry thread address tsObj = some after) :
    registry.zobjs address = some ⟨none, none, none, true⟩ ∧ registry.tsObjs tsObj = none ∧
      after = { registry with
        zobjs := Function.update registry.zobjs address
          (some ⟨some tsObj, some thread, none, true⟩)
        tsObjs := Function.update registry.tsObjs tsObj (some ⟨1, thread, registry.created⟩)
        created := registry.created + 1 } := by
  simp only [baseCtor] at built
  split at built
  · next zobjFound tsFree =>
    exact ⟨zobjFound, tsFree, (Option.some.inj built).symm⟩
  · simp at built

theorem createConnection_creates {registry after : Registry}
    {thread address newAddress newTs : Nat}
    (created : createConnection registry thread address newAddress newTs = some after) :
    ∃ allocated constructed connected shared,
      Creates registry thread address newAddress newTs allocated constructed connected after
        shared := by
  simp only [createConnection, Option.bind_eq_bind, Option.bind_eq_some_iff] at created
  obtain ⟨allocated, alloc, constructed, construct, connected, connect, connection, isThere,
    shared, points, ⟨⟩⟩ := created
  have found : constructed.zobjs newAddress = some ⟨some newTs, some thread, none, true⟩ := by
    obtain ⟨-, -, rfl⟩ := baseCtor_zobjs construct
    simp
  obtain ⟨target, origin, same, targetFound, -, -, zobjs, -⟩ := connectNolock_zobjs connect
  cases Option.some.inj (targetFound.symm.trans found)
  rw [zobjs, Function.update_self] at isThere
  cases isThere
  cases points
  exact ⟨allocated, constructed, connected, shared, alloc, construct, connect, found,
    ⟨_, by rw [zobjs, Function.update_self]⟩, rfl⟩

theorem Creates.different {registry allocated constructed connected after : Registry}
    {thread address newAddress newTs shared : Nat}
    (creates : Creates registry thread address newAddress newTs allocated constructed connected
      after shared) (existed : (registry.zobjs address).isSome) : address ≠ newAddress := by
  rintro rfl
  obtain ⟨⟨unused, -⟩, -⟩ := Option.ite_none_right_eq_some.mp creates.alloc
  simp [unused] at existed

theorem Creates.sound {registry allocated constructed connected after : Registry}
    {thread address newAddress newTs shared : Nat}
    (creates : Creates registry thread address newAddress newTs allocated constructed connected
      after shared) (sound : Sound registry) (existed : (registry.zobjs address).isSome) :
    Sound after := by
  have built := baseCtor_sound (globalsObjectAlloc_sound sound creates.alloc) creates.construct
  have joined := connectNolock_sound built (creates.different existed) creates.found rfl rfl
    creates.connect
  obtain ⟨original, points⟩ := creates.points
  rw [creates.result]
  refine ⟨joined.null, joined.table, joined.counted, joined.live, ?_⟩
  intro other tsObj connection present
  by_cases sameThread : other = thread
  · subst sameThread
    by_cases sameTs : tsObj = shared
    · subst sameTs
      simp only [Function.update_self, Option.some.injEq] at present
      subst present
      exact ⟨_, points, rfl, rfl, rfl⟩
    · simp only [Function.update_self, Function.update_of_ne sameTs] at present
      exact joined.resolved other tsObj connection present
  · simp only [Function.update_of_ne sameThread] at present
    exact joined.resolved other tsObj connection present

/-- The outcomes of `pthreads_globals_object_connect`. -/
theorem globalsObjectConnect_cases {registry after : Registry} {result : Option Nat}
    {thread address newAddress newTs : Nat}
    (connected : globalsObjectConnect registry thread address newAddress newTs =
      some (after, result)) :
    (¬ globalsObjectValid registry address ∧ after = registry ∧ result = none) ∨
    ∃ zobj, globalsObjectValid registry address ∧ registry.zobjs address = some zobj ∧
      ((zobj.owner = some thread ∧ after = registry ∧ result = some address) ∨
        ∃ shared, zobj.tsObj = some shared ∧
          ((∃ connection, registry.resolve thread shared = some connection ∧
              after = registry ∧ result = some connection) ∨
            (createConnection registry thread address newAddress newTs = some after ∧
              result = some newAddress))) := by
  simp only [globalsObjectConnect] at connected
  split at connected
  · next valid =>
    simp only [Option.bind_eq_bind, Option.bind_eq_some_iff] at connected
    obtain ⟨zobj, found, connected⟩ := connected
    refine Or.inr ⟨zobj, valid, found, ?_⟩
    split at connected
    · next owned =>
      cases connected
      exact Or.inl ⟨owned, rfl, rfl⟩
    · simp only [Option.bind_eq_some_iff] at connected
      obtain ⟨shared, points, connected⟩ := connected
      refine Or.inr ⟨shared, points, ?_⟩
      split at connected
      · next connection present =>
        cases connected
        exact Or.inl ⟨connection, present, rfl, rfl⟩
      · simp only [Option.bind_eq_some_iff] at connected
        obtain ⟨created, isCreated, ⟨⟩⟩ := connected
        exact Or.inr ⟨isCreated, rfl⟩
  · next invalid =>
    cases connected
    exact Or.inl ⟨invalid, rfl, rfl⟩

theorem globalsObjectConnect_sound {registry after : Registry} {result : Option Nat}
    (sound : Sound registry) {thread address newAddress newTs : Nat}
    (connected : globalsObjectConnect registry thread address newAddress newTs =
      some (after, result)) : Sound after := by
  rcases globalsObjectConnect_cases connected with ⟨-, rfl, -⟩ | ⟨zobj, -, found, rest⟩
  · exact sound
  · rcases rest with ⟨-, rfl, -⟩ | ⟨shared, -, ⟨connection, -, rfl, -⟩ | ⟨created, -⟩⟩
    · exact sound
    · exact sound
    · obtain ⟨allocated, constructed, joined, target, creates⟩ := createConnection_creates created
      exact creates.sound sound (by simp [found])

/-- What freeing does: the object is gone from memory and from the table, its
shared object loses a reference, and its resolve entry goes with it. -/
theorem baseFree_eq {registry after : Registry} {thread address : Nat}
    (freed : baseFree registry thread address = some after) :
    ∃ zobj tsObj shared, registry.zobjs address = some zobj ∧ zobj.tsObj = some tsObj ∧
      zobj.owner = some thread ∧ registry.tsObjs tsObj = some shared ∧
      after = { registry with
        zobjs := Function.update registry.zobjs address none
        objects := registry.objects.erase address
        tsObjs := Function.update registry.tsObjs tsObj
          (if shared.refcount = 1 then none
           else some { shared with refcount := shared.refcount - 1 })
        resolve := if registry.resolve thread tsObj = some address then
          Function.update registry.resolve thread
            (Function.update (registry.resolve thread) tsObj none)
          else registry.resolve } := by
  simp only [baseFree, Option.bind_eq_bind, Option.bind_eq_some_iff] at freed
  obtain ⟨zobj, found, tsObj, points, freed⟩ := freed
  split at freed
  · next owned =>
    simp only [Option.bind_eq_some_iff] at freed
    obtain ⟨released, release, ⟨⟩⟩ := freed
    obtain ⟨shared, sharedFound, rfl⟩ := tsObjectRelease_eq release
    exact ⟨zobj, tsObj, shared, found, points, owned, sharedFound, rfl⟩
  · simp at freed

theorem attached_erase (registry : Registry) (address : Nat) (tsObjs : Nat → Option TsObject)
    (resolve : Nat → Nat → Option Nat) (tsObj : Nat) :
    attached { registry with
        zobjs := Function.update registry.zobjs address none
        objects := registry.objects.erase address
        tsObjs := tsObjs
        resolve := resolve } tsObj = (attached registry tsObj).erase address := by
  ext other
  by_cases same : other = address
  · subst same; simp [mem_attached]
  · simp [mem_attached, same]

theorem baseFree_sound {registry after : Registry} (sound : Sound registry)
    {thread address : Nat} (freed : baseFree registry thread address = some after) :
    Sound after := by
  obtain ⟨zobj, tsObj, shared, found, points, owned, sharedFound, rfl⟩ := baseFree_eq freed
  have isIn := sound.mem_attached_of found points
  have count := sound.counted tsObj shared sharedFound
  have card := Finset.card_erase_of_mem isIn
  have notIn : ∀ other, other ≠ tsObj → address ∉ attached registry other := by
    intro other different
    simp only [mem_attached, found, Option.bind_some, points, Option.some.injEq,
      Ne.symm different, and_false, not_false_eq_true]
  refine ⟨?_, ?_, ?_, ?_, ?_⟩
  · simp [sound.ne_null found, sound.null]
  · intro other
    by_cases equal : other = address
    · subst equal; simp
    · simp [equal, sound.table]
  · intro other counted present
    rw [attached_erase]
    by_cases equal : other = tsObj
    · subst equal
      simp only [Function.update_self] at present
      split at present
      · simp at present
      · cases present
        simp only
        omega
    · simp only [Function.update_of_ne equal] at present
      rw [Finset.erase_eq_of_notMem (notIn other equal)]
      exact sound.counted other counted present
  · intro other
    rw [attached_erase]
    by_cases equal : other = tsObj
    · subst equal
      simp only [Function.update_self]
      split
      · next last =>
        have empty : (attached registry other).erase address = ∅ :=
          Finset.card_eq_zero.mp (by omega)
        simp [empty]
      · next more =>
        have positive := Finset.card_pos.mpr ⟨address, isIn⟩
        simp only [Option.isSome_some, true_iff]
        exact Finset.card_pos.mp (by omega)
    · simp only [Function.update_of_ne equal]
      rw [Finset.erase_eq_of_notMem (notIn other equal)]
      exact sound.live other
  · -- a resolve entry for the freed object can only be the one that was removed
    intro other target connection present
    have wasPresent : registry.resolve other target = some connection ∧
        ¬ (other = thread ∧ target = tsObj ∧ connection = address) := by
      simp only at present
      split at present
      · next primary =>
        by_cases sameThread : other = thread
        · subst sameThread
          by_cases sameTs : target = tsObj
          · subst sameTs; simp at present
          · simp only [Function.update_self, Function.update_of_ne sameTs] at present
            exact ⟨present, fun both => sameTs both.2.1⟩
        · simp only [Function.update_of_ne sameThread] at present
          exact ⟨present, fun both => sameThread both.1⟩
      · next secondary =>
        refine ⟨present, ?_⟩
        rintro ⟨rfl, rfl, rfl⟩
        exact secondary present
    obtain ⟨resolved, isThere, target', owner, isOld⟩ :=
      sound.resolved other target connection wasPresent.1
    have different : connection ≠ address := by
      rintro rfl
      cases Option.some.inj (isThere.symm.trans found)
      exact wasPresent.2 ⟨Option.some.inj (owner.symm.trans owned),
        Option.some.inj (target'.symm.trans points), rfl⟩
    exact ⟨resolved, by simp [different, isThere], target', owner, isOld⟩

end Pthreads.ObjectRegistry
