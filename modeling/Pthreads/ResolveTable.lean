import Pthreads.ObjectHandles

/-!
# Two kinds of entries in one resolve table

`PTHREADS_ZG(resolve)` of a thread finds its connection to a shared object by
the address of the shared object, and its copy of a function of another thread
by the address of that function.  Connections leave the table when they are
freed, copies of functions only when their thread ends.  The memory of a freed
function or shared object may hold anything afterwards, also an object of the
other kind.
-/

namespace Pthreads.ResolveTable

open GuardedRuns ObjectRegistry

/-- What `pthreads_copy_function` reads of a `zend_function`, and where the
function comes from. -/
structure ZendFunction where
  /-- The thread whose memory it is in. -/
  owner : Nat
  /-- `ZEND_ACC_CLOSURE`. -/
  closure : Bool
  /-- `ZEND_ACC_IMMUTABLE`: it is in memory that all threads share. -/
  immutable : Bool
  /-- How many functions were made before this one: it tells apart two that
  stood at one address. -/
  serial : Nat
  /-- The function that this one was copied from. -/
  origin : Option Nat
deriving DecidableEq, Repr

/-- The functions that are looked up and entered in the table. -/
def ZendFunction.Cached (function : ZendFunction) : Prop :=
  function.immutable = false ∧ function.closure = false

instance (function : ZendFunction) : Decidable function.Cached :=
  inferInstanceAs (Decidable (_ ∧ _))

structure State where
  /-- The Threaded objects, with the one resolve table of each thread. -/
  registry : Registry
  /-- The functions in memory, by address. -/
  functions : Nat → Option ZendFunction
  /-- The number of functions made so far. -/
  made : Nat

def initial : State := ⟨ObjectRegistry.initial, fun _ => none, 0⟩

/-- The allocator may return this address for a function. -/
def Vacant (state : State) (address : Nat) : Prop :=
  state.registry.zobjs address = none ∧ state.registry.tsObjs address = none ∧
    state.functions address = none ∧ 0 < address ∧ address < addressLimit

instance (state : State) (address : Nat) : Decidable (Vacant state address) :=
  inferInstanceAs (Decidable (_ ∧ _))

/-- A new function at an address the allocator returns. -/
def placeFunction (state : State) (thread address : Nat) (closure immutable : Bool)
    (origin : Option Nat) : Option State :=
  if Vacant state address then
    some { state with
      functions := Function.update state.functions address
        (some ⟨thread, closure, immutable, state.made, origin⟩)
      made := state.made + 1 }
  else none

/-- `zend_hash_index_update_ptr` on the resolve table of a thread. -/
def enterCopy (state : State) (thread address copy : Nat) : State :=
  { state with registry := { state.registry with
      resolve := Function.update state.registry.resolve thread
        (Function.update (state.registry.resolve thread) address (some copy)) } }

/-- `pthreads_copy_function`: the function it returns.  A copy it has to make,
by `pthreads_copy_user_function` or `pthreads_copy_internal_function`, is placed
at `copyAddress` in the arena of the thread. -/
def copyFunction (state : State) (thread address copyAddress : Nat) : Option (State × Nat) := do
  let function ← state.functions address
  if function.immutable then
    some (state, address)
  else if function.closure then
    let copied ← placeFunction state thread copyAddress true false (some function.serial)
    some (copied, copyAddress)
  else
    match state.registry.resolve thread address with
    | some copy => some (state, copy)
    | none =>
        let copied ← placeFunction state thread copyAddress false false (some function.serial)
        some (enterCopy copied thread address copyAddress, copyAddress)

/-- `ZEND_MODULE_POST_ZEND_DEACTIVATE`, and the arena of the thread, which goes
with it. -/
def endThread (state : State) (thread : Nat) : State :=
  { state with
    registry := { state.registry with
      resolve := Function.update state.registry.resolve thread fun _ => none }
    functions := fun address => (state.functions address).filter fun function =>
      function.immutable ∨ function.owner ≠ thread }

/-- The addresses at which the allocator places something for an operation on
objects. -/
def places : ObjectRegistry.Action → List Nat
  | .alloc address => [address]
  | .construct _ _ tsObj => [tsObj]
  | .restore _ _ newAddress newTs => [newAddress, newTs]
  | _ => []

inductive Action where
  /-- An operation of `ObjectRegistry`. -/
  | object (action : ObjectRegistry.Action)
  /-- The thread compiles a function, or binds one into a closure. -/
  | declareFunction (thread address : Nat) (closure immutable : Bool)
  /-- A function that is no copy is freed before its thread ends. -/
  | freeFunction (address : Nat)
  /-- `pthreads_copy_function`. -/
  | copyFunction (thread address copyAddress : Nat)
  /-- The thread ends; its objects have been freed. -/
  | endThread (thread : Nat)
deriving DecidableEq

def step (state : State) : Action → Option State
  | .object action =>
      if ∀ address ∈ places action, state.functions address = none then
        (ObjectRegistry.step state.registry action).map fun registry =>
          { state with registry := registry }
      else none
  | .declareFunction thread address closure immutable =>
      placeFunction state thread address closure immutable none
  | .freeFunction address => do
      let function ← state.functions address
      if function.origin = none then
        some { state with functions := Function.update state.functions address none }
      else none
  | .copyFunction thread address copyAddress =>
      (copyFunction state thread address copyAddress).map Prod.fst
  | .endThread thread =>
      if ∀ address ∈ state.registry.objects,
          (state.registry.zobjs address).bind ZendObject.owner ≠ some thread then
        some (endThread state thread)
      else none

/-- The functions and shared objects in memory are found in the tables as what
they are: under the address of a shared object a thread has nothing or its own
connection to that object, and under the address of a function that is looked
up nothing or its own copy of that function. -/
structure ResolveSound (state : State) : Prop where
  connections : ∀ thread tsObj pointer, (state.registry.tsObjs tsObj).isSome →
    state.registry.resolve thread tsObj = some pointer →
      ∃ zobj, state.registry.zobjs pointer = some zobj ∧ zobj.tsObj = some tsObj ∧
        zobj.owner = some thread
  copies : ∀ thread address function pointer, state.functions address = some function →
    function.Cached → state.registry.resolve thread address = some pointer →
      ∃ copy, state.functions pointer = some copy ∧ copy.origin = some function.serial ∧
        copy.owner = thread

/-- No thread has an entry under this address. -/
def Unkeyed (state : State) (address : Nat) : Prop :=
  ∀ thread, state.registry.resolve thread address = none

/-- A shared object, or a function that can be looked up, is placed only where
no thread still has an entry. -/
def KeysNotReused (state : State) : Action → Prop
  | .object (.construct _ _ tsObj) => Unkeyed state tsObj
  | .declareFunction _ address closure immutable =>
      immutable = false → closure = false → Unkeyed state address
  | .copyFunction thread address copyAddress =>
      ∀ function, state.functions address = some function → function.Cached →
        state.registry.resolve thread address = none → Unkeyed state copyAddress
  | _ => True

/-- The registry as it would be with other resolve tables. -/
def withResolve (registry : Registry) (resolve : Nat → Nat → Option Nat) : Registry :=
  { registry with resolve := resolve }

theorem connectNolock_withResolve {registry after : Registry} {source destination : Nat}
    (resolve : Nat → Nat → Option Nat)
    (connected : connectNolock registry source destination = some after) :
    connectNolock (withResolve registry resolve) source destination =
      some (withResolve after resolve) := by
  simp only [connectNolock, Option.bind_eq_bind, Option.bind_eq_some_iff] at connected
  obtain ⟨target, targetFound, origin, originFound, released, release, shared, points, counted,
    addref, ⟨⟩⟩ := connected
  have released : releaseOwn (withResolve registry resolve) target.tsObj =
      some (withResolve released resolve) := by
    cases own : target.tsObj with
    | none =>
        rw [own] at release
        cases release
        rfl
    | some tsObj =>
        rw [own] at release
        obtain ⟨shared, found, rfl⟩ := tsObjectRelease_eq release
        simp [releaseOwn, tsObjectRelease, withResolve, found]
  obtain ⟨before, found, rfl⟩ := tsObjectAddref_eq addref
  have targetFound' : (withResolve registry resolve).zobjs destination = some target := targetFound
  have originFound' : (withResolve registry resolve).zobjs source = some origin := originFound
  simp only [connectNolock, targetFound', originFound', released, points, Option.bind_eq_bind,
    Option.bind_some]
  simp [tsObjectAddref, withResolve, found]

theorem baseCtor_withResolve {registry after : Registry} {thread address tsObj : Nat}
    (resolve : Nat → Nat → Option Nat)
    (built : baseCtor registry thread address tsObj = some after) :
    baseCtor (withResolve registry resolve) thread address tsObj =
      some (withResolve after resolve) := by
  obtain ⟨blank, unused, rfl⟩ := baseCtor_zobjs built
  simp [baseCtor, withResolve, blank, unused]

theorem globalsObjectAlloc_withResolve {registry after : Registry} {address : Nat}
    (resolve : Nat → Nat → Option Nat)
    (allocated : globalsObjectAlloc registry address = some after) :
    globalsObjectAlloc (withResolve registry resolve) address =
      some (withResolve after resolve) := by
  obtain ⟨available, ⟨⟩⟩ := Option.ite_none_right_eq_some.mp allocated
  exact if_pos available

/-- The resolve tables with one entry changed. -/
def setEntry (resolve : Nat → Nat → Option Nat) (thread address : Nat) (entry : Option Nat) :
    Nat → Nat → Option Nat :=
  Function.update resolve thread (Function.update (resolve thread) address entry)

theorem setEntry_self (resolve : Nat → Nat → Option Nat) (thread address : Nat)
    (entry : Option Nat) : setEntry resolve thread address entry thread address = entry := by
  simp [setEntry]

theorem setEntry_other {resolve : Nat → Nat → Option Nat} {thread address : Nat}
    {entry : Option Nat} {otherThread otherAddress : Nat}
    (different : ¬ (otherThread = thread ∧ otherAddress = address)) :
    setEntry resolve thread address entry otherThread otherAddress =
      resolve otherThread otherAddress := by
  by_cases sameThread : otherThread = thread
  · subst sameThread
    have otherKey : otherAddress ≠ address := fun same => different ⟨rfl, same⟩
    simp [setEntry, otherKey]
  · simp [setEntry, sameThread]

theorem createConnection_withResolve {registry after : Registry} {zobj : ZendObject}
    {thread address newAddress newTs : Nat} (resolve : Nat → Nat → Option Nat)
    (found : registry.zobjs address = some zobj)
    (created : createConnection registry thread address newAddress newTs = some after) :
    ∃ shared, zobj.tsObj = some shared ∧
      after.resolve = setEntry registry.resolve thread shared (some newAddress) ∧
      createConnection (withResolve registry resolve) thread address newAddress newTs =
        some (withResolve after (setEntry resolve thread shared (some newAddress))) := by
  obtain ⟨allocated, constructed, connected, shared, creates⟩ := createConnection_creates created
  obtain ⟨original, points⟩ := creates.points
  have isThere : (withResolve connected resolve).zobjs newAddress =
    some ⟨some shared, some thread, some original, false⟩ := points
  have kept : connected.resolve = registry.resolve := by
    obtain ⟨-, -, -, -, -, -, -, -, tables, -⟩ := connectNolock_zobjs creates.connect
    obtain ⟨-, ⟨⟩⟩ := Option.ite_none_right_eq_some.mp creates.alloc
    obtain ⟨-, -, rfl⟩ := baseCtor_zobjs creates.construct
    exact tables
  refine ⟨shared, (creates.placed found).2, ?_, ?_⟩
  · rw [creates.result, kept]
    rfl
  · simp only [createConnection, globalsObjectAlloc_withResolve resolve creates.alloc,
      baseCtor_withResolve resolve creates.construct,
      connectNolock_withResolve resolve creates.connect, isThere, creates.result,
      Option.bind_eq_bind, Option.bind_some]
    rfl

/-- The entries of `resolve` are the connections together with the copies, and
no shared object stands under the key of a copy. -/
structure Splits (registry : Registry) (connections copies : Nat → Nat → Option Nat) : Prop where
  entries : ∀ thread address, registry.resolve thread address =
    (connections thread address).or (copies thread address)
  vacated : ∀ thread address copy, copies thread address = some copy →
    registry.tsObjs address = none

theorem Splits.no_copy {registry : Registry} {connections copies : Nat → Nat → Option Nat}
    (splits : Splits registry connections copies) {tsObj : Nat} {shared : TsObject}
    (isLive : registry.tsObjs tsObj = some shared) (thread : Nat) : copies thread tsObj = none := by
  cases copied : copies thread tsObj with
  | none => rfl
  | some copy => simp [splits.vacated thread tsObj copy copied] at isLive

/-- Changing the entry of a live shared object changes the connections alone. -/
theorem Splits.setEntry {registry : Registry} {connections copies : Nat → Nat → Option Nat}
    (splits : Splits registry connections copies) {tsObj : Nat} {shared : TsObject}
    (isLive : registry.tsObjs tsObj = some shared) (thread : Nat) (entry : Option Nat)
    (otherThread address : Nat) :
    ResolveTable.setEntry registry.resolve thread tsObj entry otherThread address =
      (ResolveTable.setEntry connections thread tsObj entry otherThread address).or
        (copies otherThread address) := by
  by_cases same : otherThread = thread ∧ address = tsObj
  · obtain ⟨rfl, rfl⟩ := same
    rw [setEntry_self, setEntry_self, splits.no_copy isLive]
    simp
  · rw [setEntry_other same, setEntry_other same]
    exact splits.entries otherThread address

theorem baseFree_withResolve {registry after : Registry}
    {connections copies : Nat → Nat → Option Nat} (splits : Splits registry connections copies)
    {thread address : Nat} (freed : baseFree registry thread address = some after) :
    ∃ later, baseFree (withResolve registry connections) thread address =
        some (withResolve after later) ∧
      ∀ thread address, after.resolve thread address =
        (later thread address).or (copies thread address) := by
  obtain ⟨zobj, tsObj, shared, found, points, owned, isLive, rfl⟩ := baseFree_eq freed
  have same : registry.resolve thread tsObj = connections thread tsObj := by
    rw [splits.entries, splits.no_copy isLive]
    simp
  refine ⟨if connections thread tsObj = some address then
    setEntry connections thread tsObj none else connections, ?_, ?_⟩
  · simp only [baseFree, withResolve, found, points, owned, tsObjectRelease, isLive,
      globalsObjectDelete, Option.bind_eq_bind, Option.bind_some, if_true, Option.map_some]
    rfl
  · intro otherThread other
    simp only [same]
    split
    · exact splits.setEntry isLive thread none otherThread other
    · exact splits.entries otherThread other

/-- Operations on objects act on the connections alone. -/
theorem step_withResolve {registry after : Registry} {action : ObjectRegistry.Action}
    {connections copies : Nat → Nat → Option Nat}
    (sound : Sound (withResolve registry connections))
    (splits : Splits registry connections copies)
    (stepped : ObjectRegistry.step registry action = some after) :
    ∃ later, Sound (withResolve after later) ∧ ∀ thread address,
      after.resolve thread address = (later thread address).or (copies thread address) := by
  cases action with
  | alloc address =>
      have same := globalsObjectAlloc_withResolve connections stepped
      obtain ⟨-, ⟨⟩⟩ := Option.ite_none_right_eq_some.mp stepped
      exact ⟨connections, globalsObjectAlloc_sound sound same, splits.entries⟩
  | construct thread address tsObj =>
      have same := baseCtor_withResolve connections stepped
      obtain ⟨-, -, rfl⟩ := baseCtor_zobjs stepped
      exact ⟨connections, baseCtor_sound sound same, splits.entries⟩
  | publish address =>
      obtain ⟨zobj, found, rfl⟩ := publish_eq stepped
      exact ⟨connections, publish_sound sound found, splits.entries⟩
  | connect source destination =>
      obtain ⟨different, origin, target, own, -, targetFound, isFresh, owns, -, connected⟩ :=
        connect_eq stepped
      obtain ⟨-, -, -, -, -, -, -, -, tables, -⟩ := connectNolock_zobjs connected
      refine ⟨connections, connectNolock_sound sound different targetFound owns isFresh
        (connectNolock_withResolve connections connected), ?_⟩
      rw [tables]
      exact splits.entries
  | restore thread address newAddress newTs =>
      obtain ⟨⟨result, outcome⟩, connected, rfl⟩ := Option.map_eq_some_iff.mp stepped
      rcases globalsObjectConnect_cases connected with ⟨-, rfl, -⟩ | ⟨zobj, -, found, rest⟩
      · exact ⟨connections, sound, splits.entries⟩
      · rcases rest with ⟨-, rfl, -⟩ | ⟨shared, points, ⟨connection, -, rfl, -⟩ | ⟨created, -⟩⟩
        · exact ⟨connections, sound, splits.entries⟩
        · exact ⟨connections, sound, splits.entries⟩
        · obtain ⟨same, pointsSame, tables, creates⟩ :=
            createConnection_withResolve connections found created
          obtain ⟨isLive, live⟩ := sound.tsObj_live found pointsSame
          obtain ⟨_, _, _, _, simulated⟩ := createConnection_creates creates
          refine ⟨_, simulated.sound sound (Option.isSome_iff_exists.mpr ⟨zobj, found⟩), ?_⟩
          rw [tables]
          exact splits.setEntry live thread (some newAddress)
  | free thread address =>
      obtain ⟨later, freed, entries⟩ := baseFree_withResolve splits stepped
      exact ⟨later, baseFree_sound sound freed, entries⟩
  | save address =>
      obtain ⟨zobj, tsObj, shared, -, -, -, -, rfl⟩ := save_eq stepped
      exact ⟨connections, ⟨sound.null, sound.table, sound.counted, sound.live, sound.resolved⟩,
        splits.entries⟩

end Pthreads.ResolveTable
