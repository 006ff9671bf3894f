import Pthreads.ObjectGraph
import Pthreads.StoreEffects

/-!
# What one step of the walk leaves as it was

The walk and the reads of a thread are made of three steps: a local table is
brought in sync, a connection is created, and a restored value is put into a local
table.  Each leads the thread from every place to where it was led before, except
that a place which the thread did not hold may be held now.
-/

namespace Pthreads.ObjectGraph

open ObjectRegistry (Registry ZendObject Sound globalsObjectConnect globalsObjectValid
  globalsObjectConnect_cases createConnection createConnection_creates)
open Store

/-- A constructed zend object of the thread. -/
def Mine (thread : Nat) (registry : Registry) (address : Nat) : Prop :=
  ∃ zobj, registry.zobjs address = some zobj ∧ zobj.owner = some thread ∧ zobj.tsObj.isSome

theorem Mine.ne_none {thread address : Nat} {registry : Registry}
    (mine : Mine thread registry address) : registry.zobjs address ≠ none := by
  obtain ⟨zobj, found, -⟩ := mine
  simp [found]

theorem Mine.tsObjAt {thread address : Nat} {registry : Registry}
    (mine : Mine thread registry address) : ∃ tsObj, tsObjAt registry address = some tsObj := by
  obtain ⟨zobj, found, -, constructed⟩ := mine
  obtain ⟨tsObj, points⟩ := Option.isSome_iff_exists.mp constructed
  exact ⟨tsObj, by simp [Store.tsObjAt, found, points]⟩

/-- The registry is sound, and the local tables of the thread keep its objects
alive, as a zval in a table counts as a reference. -/
structure Sane (thread : Nat) (world : World) : Prop where
  sound : Sound world.registry
  holds : ∀ address table key object, Mine thread world.registry address →
    (world.locals address).properties = some table → table.find key = some (.threaded object) →
      Mine thread world.registry object

/-- A place the thread can be at. -/
def Present (thread : Nat) (registry : Registry) : Place → Prop
  | .held address => Mine thread registry address
  | .unheld tsObj => registry.resolve thread tsObj = none

theorem Sound.mine_of_resolve {registry : Registry} (sound : Sound registry)
    {thread tsObj connection : Nat} (present : registry.resolve thread tsObj = some connection) :
    Mine thread registry connection ∧ tsObjAt registry connection = some tsObj := by
  obtain ⟨zobj, found, points, owned, -⟩ := sound.resolved thread tsObj connection present
  exact ⟨⟨zobj, found, owned, by simp [points]⟩, by simp [tsObjAt, found, points]⟩

/-- The cases of `placeOf`. -/
theorem placeOf_cases {registry : Registry} {thread handle : Nat} {place : Place}
    (leads : placeOf registry thread handle = some place) :
    ∃ zobj tsObj, registry.zobjs handle = some zobj ∧ zobj.tsObj = some tsObj ∧
      ((zobj.owner = some thread ∧ place = .held handle) ∨
        (zobj.owner ≠ some thread ∧
          ((∃ connection, registry.resolve thread tsObj = some connection ∧
              place = .held connection) ∨
            (registry.resolve thread tsObj = none ∧ place = .unheld tsObj)))) := by
  simp only [placeOf, Option.bind_eq_bind, Option.bind_eq_some_iff] at leads
  obtain ⟨zobj, found, tsObj, points, leads⟩ := leads
  refine ⟨zobj, tsObj, found, points, ?_⟩
  split at leads
  · next owned => exact Or.inl ⟨owned, (Option.some.inj leads).symm⟩
  · next foreign =>
    refine Or.inr ⟨foreign, ?_⟩
    split at leads
    · next connection present =>
      exact Or.inl ⟨connection, present, (Option.some.inj leads).symm⟩
    · next absent => exact Or.inr ⟨absent, (Option.some.inj leads).symm⟩

theorem placeOf_present {registry : Registry} (sound : Sound registry) {thread handle : Nat}
    {place : Place} (leads : placeOf registry thread handle = some place) :
    Present thread registry place ∧ place.tsObj registry = tsObjAt registry handle := by
  obtain ⟨zobj, tsObj, found, points, ⟨owned, rfl⟩ | ⟨-, ⟨connection, present, rfl⟩ |
    ⟨absent, rfl⟩⟩⟩ := placeOf_cases leads
  · exact ⟨⟨zobj, found, owned, by simp [points]⟩, rfl⟩
  · obtain ⟨mine, sameTs⟩ := Sound.mine_of_resolve sound present
    exact ⟨mine, sameTs.trans (by simp [tsObjAt, found, points])⟩
  · exact ⟨absent, by simp [Place.tsObj, tsObjAt, found, points]⟩

/-- A place after objects were connected. -/
def relocate (registry : Registry) (thread : Nat) : Place → Place
  | .held address => .held address
  | .unheld tsObj =>
      match registry.resolve thread tsObj with
      | some connection => .held connection
      | none => .unheld tsObj

theorem relocate_of_present {thread : Nat} {registry : Registry} {place : Place}
    (present : Present thread registry place) : relocate registry thread place = place := by
  cases place with
  | held address => rfl
  | unheld tsObj =>
      simp only [Present] at present
      simp [relocate, present]

def InSync (world : World) (address : Nat) : Prop :=
  ∀ tsObj, tsObjAt world.registry address = some tsObj →
    (world.locals address).localPropsModcount = (world.props tsObj).modcount

/-- The local table is in sync and has this value. -/
structure Firm (thread : Nat) (world : World) (address : Nat) (key : Key) (value : Zval) :
    Prop where
  inSync : InSync world address
  cached : (world.connection thread address).cached key = some value

theorem syncLocalProperties_of_inSync {registry : Registry} {props : Props}
    {connection : Connection} (inSync : connection.localPropsModcount = props.modcount) :
    syncLocalProperties registry props connection = connection := if_pos inSync

theorem cachedAt_held {world : World} {thread address tsObj : Nat}
    (points : tsObjAt world.registry address = some tsObj) (key : Key) :
    world.cachedAt thread (.held address) key =
      (syncLocalProperties world.registry (world.props tsObj)
        (world.connection thread address)).cached key := by
  simp [World.cachedAt, points]

theorem Firm.cachedAt {thread address : Nat} {world : World} {key : Key} {value : Zval}
    (firm : Firm thread world address key value) (mine : Mine thread world.registry address) :
    world.cachedAt thread (.held address) key = some value := by
  obtain ⟨tsObj, points⟩ := mine.tsObjAt
  rw [cachedAt_held points, syncLocalProperties_of_inSync (firm.inSync tsObj points)]
  exact firm.cached

/-- What is cached is in the table. -/
theorem cached_mem {connection : Connection} {key : Key} {value : Zval}
    (cached : connection.cached key = some value) :
    ∃ table, connection.properties = some table ∧ table.find key = some value := by
  obtain ⟨found, -⟩ := Option.filter_eq_some_iff.mp cached
  exact Option.bind_eq_some_iff.mp found

theorem Sane.mine_of_cachedAt {thread address object : Nat} {world : World} {key : Key}
    (sane : Sane thread world) (mine : Mine thread world.registry address)
    (cached : world.cachedAt thread (.held address) key = some (.threaded object)) :
    Mine thread world.registry object := by
  obtain ⟨tsObj, points⟩ := mine.tsObjAt
  rw [cachedAt_held points] at cached
  have before := ((syncLocalProperties_synced _ _ _).cached key _ cached).1
  obtain ⟨table, isTable, isThere⟩ := cached_mem before
  exact sane.holds address table key object mine isTable isThere

/-- The cases of `World.answer`. -/
theorem answer_cases {world : World} {thread : Nat} {place next : Place} {key : Key}
    (answers : world.answer thread place key = some next) :
    (∃ object, world.cachedAt thread place key = some (.threaded object) ∧
        next = .held object) ∨
      (world.cachedAt thread place key = none ∧ ∃ handle,
        world.storageAt place key = some (.pthreads handle) ∧
        placeOf world.registry thread handle = some next) := by
  simp only [World.answer] at answers
  split at answers
  · next object cached => exact Or.inl ⟨object, cached, (Option.some.inj answers).symm⟩
  · simp at answers
  · next uncached =>
    split at answers
    · next handle stored => exact Or.inr ⟨uncached, handle, stored, answers⟩
    · simp at answers

theorem answer_of_cached {world : World} {thread object : Nat} {place : Place} {key : Key}
    (cached : world.cachedAt thread place key = some (.threaded object)) :
    world.answer thread place key = some (.held object) := by
  simp [World.answer, cached]

theorem answer_of_uncached {world : World} {thread handle : Nat} {place : Place} {key : Key}
    (uncached : world.cachedAt thread place key = none)
    (stored : world.storageAt place key = some (.pthreads handle)) :
    world.answer thread place key = placeOf world.registry thread handle := by
  simp [World.answer, uncached, stored]

theorem Sane.present_of_answer {thread : Nat} {world : World} {place next : Place} {key : Key}
    (sane : Sane thread world) (present : Present thread world.registry place)
    (answers : world.answer thread place key = some next) :
    Present thread world.registry next := by
  rcases answer_cases answers with ⟨object, cached, rfl⟩ | ⟨-, handle, -, leads⟩
  · cases place with
    | held address => exact sane.mine_of_cachedAt present cached
    | unheld tsObj => simp [World.cachedAt] at cached
  · exact (placeOf_present sane.sound leads).1

/-- A handle keeps leading to its object when objects are connected. -/
theorem placeOf_relocate {registry after : Registry} {thread handle : Nat} {place : Place}
    (kept : ∀ address zobj, registry.zobjs address = some zobj →
      after.zobjs address = some zobj)
    (resolved : ∀ tsObj connection, registry.resolve thread tsObj = some connection →
      after.resolve thread tsObj = some connection)
    (leads : placeOf registry thread handle = some place) :
    placeOf after thread handle = some (relocate after thread place) := by
  obtain ⟨zobj, tsObj, found, points, rest⟩ := placeOf_cases leads
  have isThere := kept handle zobj found
  simp only [placeOf, isThere, Option.bind_eq_bind, Option.bind_some, points]
  rcases rest with ⟨owned, rfl⟩ | ⟨foreign, ⟨connection, present, rfl⟩ | ⟨-, rfl⟩⟩
  · simp [owned, relocate]
  · simp [foreign, resolved tsObj connection present, relocate]
  · rw [if_neg foreign]
    cases present : after.resolve thread tsObj <;> simp [relocate, present]

/-- The objects that were there are as they were, and the thread is led where it
was led before. -/
structure Follows (thread : Nat) (world after : World) : Prop where
  sane : Sane thread after
  props : after.props = world.props
  kept : ∀ address zobj, world.registry.zobjs address = some zobj →
    after.registry.zobjs address = some zobj
  resolved : ∀ tsObj connection, world.registry.resolve thread tsObj = some connection →
    after.registry.resolve thread tsObj = some connection
  arrived : ∀ tsObj connection, after.registry.resolve thread tsObj = some connection →
    world.registry.resolve thread tsObj = some connection ∨
      world.registry.zobjs connection = none
  inSync : ∀ address, Mine thread world.registry address → InSync world address →
    InSync after address
  firm : ∀ address key value, Mine thread world.registry address →
    Firm thread world address key value → Firm thread after address key value
  answers : ∀ place key next, Present thread world.registry place →
    world.answer thread place key = some next →
      after.answer thread (relocate after.registry thread place) key =
        some (relocate after.registry thread next)

theorem Follows.refl {thread : Nat} {world : World} (sane : Sane thread world) :
    Follows thread world world := by
  refine ⟨sane, rfl, fun _ _ found => found, fun _ _ present => present,
    fun _ _ present => Or.inl present, fun _ _ inSync => inSync, fun _ _ _ _ firm => firm, ?_⟩
  intro place key next present answers
  rw [relocate_of_present present, relocate_of_present (sane.present_of_answer present answers)]
  exact answers

/-- An object that was there is the same one later. -/
theorem Follows.zobjs_eq {thread address : Nat} {world after : World}
    (follows : Follows thread world after) (existed : world.registry.zobjs address ≠ none) :
    after.registry.zobjs address = world.registry.zobjs address := by
  obtain ⟨zobj, found⟩ := Option.ne_none_iff_exists'.mp existed
  rw [found, follows.kept address zobj found]

theorem Follows.ne_none {thread address : Nat} {world after : World}
    (follows : Follows thread world after) (existed : world.registry.zobjs address ≠ none) :
    after.registry.zobjs address ≠ none := by
  rw [follows.zobjs_eq existed]
  exact existed

theorem Follows.mine_iff {thread address : Nat} {world after : World}
    (follows : Follows thread world after) (existed : world.registry.zobjs address ≠ none) :
    Mine thread after.registry address ↔ Mine thread world.registry address := by
  rw [Mine, Mine, follows.zobjs_eq existed]

theorem Follows.tsObjAt_eq {thread address : Nat} {world after : World}
    (follows : Follows thread world after) (existed : world.registry.zobjs address ≠ none) :
    tsObjAt after.registry address = tsObjAt world.registry address := by
  rw [Store.tsObjAt, Store.tsObjAt, follows.zobjs_eq existed]

theorem Follows.mine {thread address : Nat} {world after : World}
    (follows : Follows thread world after) (mine : Mine thread world.registry address) :
    Mine thread after.registry address := by
  obtain ⟨zobj, found, facts⟩ := mine
  exact ⟨zobj, follows.kept address zobj found, facts⟩

theorem Follows.tsObjAt {thread address tsObj : Nat} {world after : World}
    (follows : Follows thread world after)
    (points : tsObjAt world.registry address = some tsObj) :
    tsObjAt after.registry address = some tsObj := by
  obtain ⟨zobj, found, isTs⟩ := Option.bind_eq_some_iff.mp points
  simp [Store.tsObjAt, follows.kept address zobj found, isTs]

theorem Follows.present {thread : Nat} {world after : World} {place : Place}
    (follows : Follows thread world after) (present : Present thread world.registry place) :
    Present thread after.registry (relocate after.registry thread place) := by
  cases place with
  | held address => exact follows.mine present
  | unheld tsObj =>
      simp only [relocate]
      split
      · next connection isThere => exact (Sound.mine_of_resolve follows.sane.sound isThere).1
      · next absent => exact absent

/-- Relocating once more makes no difference. -/
theorem Follows.relocate_relocate {thread : Nat} {world after : World}
    (follows : Follows thread world after) (place : Place) :
    relocate after.registry thread (relocate world.registry thread place) =
      relocate after.registry thread place := by
  cases place with
  | held address => rfl
  | unheld tsObj =>
      cases isThere : world.registry.resolve thread tsObj with
      | none => simp [relocate, isThere]
      | some connection => simp [relocate, isThere, follows.resolved tsObj connection isThere]

theorem Follows.trans {thread : Nat} {world middle after : World}
    (first : Follows thread world middle) (second : Follows thread middle after) :
    Follows thread world after := by
  refine ⟨second.sane, second.props.trans first.props, ?_, ?_, ?_, ?_, ?_, ?_⟩
  · intro address zobj found
    exact second.kept address zobj (first.kept address zobj found)
  · intro tsObj connection present
    exact second.resolved tsObj connection (first.resolved tsObj connection present)
  · intro tsObj connection present
    rcases second.arrived tsObj connection present with earlier | unused
    · exact first.arrived tsObj connection earlier
    · right
      by_contra existed
      exact first.ne_none existed unused
  · intro address mine inSync
    exact second.inSync address (first.mine mine) (first.inSync address mine inSync)
  · intro address key value mine firm
    exact second.firm address key value (first.mine mine) (first.firm address key value mine firm)
  · intro place key next present answers
    have led := second.answers _ key _ (first.present present)
      (first.answers place key next present answers)
    rwa [second.relocate_relocate, second.relocate_relocate] at led

/-- A place keeps its shared object. -/
theorem Follows.place_tsObj {thread tsObj : Nat} {world after : World} {place : Place}
    (follows : Follows thread world after)
    (points : place.tsObj world.registry = some tsObj) :
    (relocate after.registry thread place).tsObj after.registry = some tsObj := by
  cases place with
  | held address => exact follows.tsObjAt points
  | unheld other =>
      cases points
      simp only [relocate]
      split
      · next connection isThere => exact (Sound.mine_of_resolve follows.sane.sound isThere).2
      · rfl

section Tables

variable {thread address : Nat} {world : World} {connection : Connection}

theorem setLocal_connection (world : World) (address : Nat) (connection : Connection)
    (owned : connection.owner = thread) (idle : connection.pending = none) :
    (world.setLocal address connection).connection thread address = connection := by
  cases connection
  cases owned
  cases idle
  simp [World.connection, World.setLocal]

theorem setLocal_connection_other (world : World) (connection : Connection) {other : Nat}
    (different : other ≠ address) :
    (world.setLocal address connection).connection thread other =
      world.connection thread other := by
  simp [World.connection, World.setLocal, different]

/-- The local table of an object concerns no other place. -/
theorem answer_setLocal_other {place : Place} (different : place ≠ .held address) (key : Key) :
    (world.setLocal address connection).answer thread place key =
      world.answer thread place key := by
  have cached : (world.setLocal address connection).cachedAt thread place key =
      world.cachedAt thread place key := by
    cases place with
    | unheld tsObj => rfl
    | held other =>
        have apart : other ≠ address := fun same => different (congrArg Place.held same)
        simp only [World.cachedAt, setLocal_connection_other world connection apart]
        rfl
  simp only [World.answer, cached]
  rfl

/-- A change to one local table. -/
theorem follows_setLocal (sane : Sane thread world)
    (holds : ∀ table key object, connection.properties = some table →
      table.find key = some (.threaded object) → Mine thread world.registry object)
    (inSync : InSync world address → InSync (world.setLocal address connection) address)
    (firm : ∀ key value, Firm thread world address key value →
      ((world.setLocal address connection).connection thread address).cached key = some value)
    (answers : ∀ key next, world.answer thread (.held address) key = some next →
      (world.setLocal address connection).answer thread (.held address) key = some next) :
    Follows thread world (world.setLocal address connection) := by
  have keepsSync : ∀ other, InSync world other →
      InSync (world.setLocal address connection) other := by
    intro other wasInSync
    by_cases same : other = address
    · subst same
      exact inSync wasInSync
    · intro tsObj points
      simpa [World.setLocal, same] using wasInSync tsObj points
  refine ⟨⟨sane.sound, ?_⟩, rfl, fun _ _ found => found, fun _ _ present => present,
    fun _ _ present => Or.inl present, fun other _ => keepsSync other, ?_, ?_⟩
  · intro other table key object mine isTable isThere
    by_cases same : other = address
    · subst same
      simp only [World.setLocal, Function.update_self] at isTable
      exact holds table key object isTable isThere
    · simp only [World.setLocal, Function.update_of_ne same] at isTable
      exact sane.holds other table key object mine isTable isThere
  · intro other key value mine isFirm
    refine ⟨keepsSync other isFirm.inSync, ?_⟩
    by_cases same : other = address
    · subst same
      exact firm key value isFirm
    · rw [setLocal_connection_other world connection same]
      exact isFirm.cached
  · intro place key next present led
    have presentNext := sane.present_of_answer present led
    have here : relocate (world.setLocal address connection).registry thread place = place :=
      relocate_of_present present
    have there : relocate (world.setLocal address connection).registry thread next = next :=
      relocate_of_present presentNext
    rw [here, there]
    by_cases same : place = .held address
    · subst same
      exact answers key next led
    · rw [answer_setLocal_other same]
      exact led

/-- The own table after a change, as a later read sees it. -/
theorem cachedAt_setLocal {tsObj : Nat} (points : tsObjAt world.registry address = some tsObj)
    (owned : connection.owner = thread) (idle : connection.pending = none) (key : Key) :
    (world.setLocal address connection).cachedAt thread (.held address) key =
      (syncLocalProperties world.registry (world.props tsObj) connection).cached key := by
  have same : tsObjAt (world.setLocal address connection).registry address = some tsObj := points
  rw [cachedAt_held same, setLocal_connection world address connection owned idle]
  rfl

/-- Only the table decides where a read leads. -/
theorem answer_congr {before after : World} {place : Place} {key : Key}
    (cached : after.cachedAt thread place key = before.cachedAt thread place key)
    (registry : after.registry = before.registry) (props : after.props = before.props) :
    after.answer thread place key = before.answer thread place key := by
  simp only [World.answer, World.storageAt, cached, registry, props]

/-- A table is brought in sync. -/
theorem follows_sync {tsObj : Nat} (sane : Sane thread world)
    (mine : Mine thread world.registry address)
    (points : tsObjAt world.registry address = some tsObj)
    (owned : connection.owner = thread) (idle : connection.pending = none)
    (inSync : connection.localPropsModcount = (world.props tsObj).modcount)
    (cached : ∀ key, connection.cached key = (syncLocalProperties world.registry
      (world.props tsObj) (world.connection thread address)).cached key)
    (keeps : ∀ object, connection.Keeps (.threaded object) →
      (world.connection thread address).Keeps (.threaded object)) :
    Follows thread world (world.setLocal address connection) := by
  apply follows_setLocal sane
  · intro table key object isTable isThere
    rcases keeps object (Or.inl ⟨table, key, isTable, isThere⟩) with
      ⟨original, otherKey, isOriginal, wasThere⟩ | ⟨otherKey, waiting⟩
    · exact sane.holds address original otherKey object mine isOriginal wasThere
    · cases waiting
  · intro _ other same
    cases Option.some.inj (points.symm.trans same)
    simpa [World.setLocal] using inSync
  · intro key value firm
    rw [setLocal_connection world address connection owned idle, cached,
      syncLocalProperties_of_inSync (firm.inSync tsObj points)]
    exact firm.cached
  · intro key next led
    have same : (world.setLocal address connection).cachedAt thread (.held address) key =
        world.cachedAt thread (.held address) key := by
      rw [cachedAt_setLocal points owned idle, syncLocalProperties_of_inSync inSync, cached,
        cachedAt_held points]
    exact (answer_congr same rfl rfl).trans led

/-- The table of the node that the walk comes to. -/
theorem follows_open {tsObj : Nat} (sane : Sane thread world)
    (mine : Mine thread world.registry address)
    (points : tsObjAt world.registry address = some tsObj) (declared : List Key) :
    Follows thread world (world.setLocal address (prepared declared
      (syncLocalProperties world.registry (world.props tsObj)
        (world.connection thread address)))) := by
  have synced := syncLocalProperties_synced world.registry (world.props tsObj)
    (world.connection thread address)
  refine follows_sync sane mine points synced.owner synced.pending synced.modcount
    (fun key => prepared_cached _ _ key) ?_
  rintro object (⟨table, key, isTable, isThere⟩ | ⟨key, waiting⟩)
  · cases isTable
    rcases initLocalProperties_find isThere with impossible | ⟨table, isTable, isThere⟩
    · cases impossible
    · exact synced.keeps _ (Or.inl ⟨table, key, isTable, isThere⟩)
  · exact synced.keeps _ (Or.inr ⟨key, waiting⟩)

/-- A table gets a value for a key that it did not have, and a sync would leave it
there. -/
theorem follows_put {tsObj : Nat} {key : Key} {value : Zval} (sane : Sane thread world)
    (mine : Mine thread world.registry address)
    (points : tsObjAt world.registry address = some tsObj)
    (owned : connection.owner = thread) (idle : connection.pending = none)
    (modcount : connection.localPropsModcount = (world.locals address).localPropsModcount)
    (cached : ∀ other, connection.cached other =
      if other = key then some value else (world.connection thread address).cached other)
    (keeps : ∀ object, connection.Keeps (.threaded object) →
      (world.connection thread address).Keeps (.threaded object) ∨
        Mine thread world.registry object)
    (uncached : (world.connection thread address).cached key = none)
    (stays : connection.localPropsModcount = (world.props tsObj).modcount ∨
      staysCached world.registry thread ((world.props tsObj).hash.find key) value = true)
    (leads : ∀ next, world.answer thread (.held address) key = some next →
      ∃ object, value = .threaded object ∧ next = .held object) :
    Follows thread world (world.setLocal address connection) := by
  apply follows_setLocal sane
  · intro table other object isTable isThere
    rcases keeps object (Or.inl ⟨table, other, isTable, isThere⟩) with
      (⟨original, otherKey, isOriginal, wasThere⟩ | ⟨otherKey, waiting⟩) | isMine
    · exact sane.holds address original otherKey object mine isOriginal wasThere
    · cases waiting
    · exact isMine
  · intro inSync sameTs same
    simpa [World.setLocal, modcount] using inSync sameTs same
  · intro other held firm
    have different : other ≠ key := by
      rintro rfl
      exact absurd (uncached.symm.trans firm.cached) (by simp)
    rw [setLocal_connection world address connection owned idle, cached, if_neg different]
    exact firm.cached
  · intro other next led
    have isCached := cachedAt_setLocal points owned idle other
    rw [syncLocalProperties_cached, cached] at isCached
    by_cases same : other = key
    · subst same
      obtain ⟨object, rfl, rfl⟩ := leads next led
      refine answer_of_cached (isCached.trans ?_)
      split
      · simp
      · next outOfSync =>
        simp [owned, stays.resolve_left outOfSync]
    · have before : world.cachedAt thread (.held address) other = _ := cachedAt_held points other
      rw [syncLocalProperties_cached] at before
      have unchanged : (world.setLocal address connection).cachedAt thread (.held address) other =
          world.cachedAt thread (.held address) other := by
        rw [isCached, before, if_neg same, modcount, owned]
        rfl
      exact (answer_congr unchanged rfl rfl).trans led

end Tables

theorem staysCached_threaded {registry : Registry} {thread object : Nat} {storage : Option Storage}
    (stays : staysCached registry thread storage (.threaded object) = true) :
    ∃ handle, storage = some (.pthreads handle) ∧
      (handle = object ∨ globalsObjectValid registry handle = true) := by
  simp only [staysCached, deindirect] at stays
  split at stays
  · next handle own same =>
    cases same
    simp only [decide_eq_true_eq] at stays
    exact ⟨handle, rfl, stays.imp id And.left⟩
  · next own other => cases other
  · next own other => cases other
  · next own other => cases other
  · simp at stays

/-- What a table has for a key depends on two objects, or on none if it is in
sync. -/
theorem cachedAt_congr {before after : World} {thread address tsObj : Nat} {key : Key}
    (sound : Sound before.registry) (soundAfter : Sound after.registry)
    (points : tsObjAt before.registry address = some tsObj)
    (pointsAfter : tsObjAt after.registry address = some tsObj)
    (sameTable : after.locals address = before.locals address)
    (sameCount : (after.props tsObj).modcount = (before.props tsObj).modcount)
    (alike : (before.locals address).localPropsModcount = (before.props tsObj).modcount ∨
      (after.props tsObj).hash.find key = (before.props tsObj).hash.find key ∧
        ∀ handle, (before.props tsObj).hash.find key = some (.pthreads handle) →
          after.registry.zobjs handle = before.registry.zobjs handle)
    (own : ∀ object, (before.connection thread address).cached key = some (.threaded object) →
      after.registry.zobjs object = before.registry.zobjs object) :
    after.cachedAt thread (.held address) key = before.cachedAt thread (.held address) key := by
  have sameConnection : after.connection thread address = before.connection thread address := by
    simp only [World.connection, sameTable]
  rw [cachedAt_held pointsAfter, cachedAt_held points, syncLocalProperties_cached,
    syncLocalProperties_cached, sameConnection, sameCount]
  split
  · rfl
  · next outOfSync =>
    obtain ⟨stored, original⟩ := alike.resolve_left outOfSync
    rw [stored]
    cases isCached : (before.connection thread address).cached key with
    | none => rfl
    | some value =>
        have valid := (Option.filter_eq_some_iff.mp isCached).2
        have ownObject : ∀ object, value = .threaded object →
            after.registry.zobjs object = before.registry.zobjs object := by
          rintro object rfl
          exact own object isCached
        have same : staysCached after.registry thread ((before.props tsObj).hash.find key) value =
            staysCached before.registry thread ((before.props tsObj).hash.find key) value :=
          staysCached_congr sound soundAfter original ownObject valid
        have owned : (before.connection thread address).owner = thread := rfl
        rw [Option.filter_some, Option.filter_some, owned, same]

/-- The same for a key under which both have a handle to one object. -/
theorem cachedAt_congr_handle {before after : World} {thread address tsObj : Nat} {key : Key}
    (sound : Sound before.registry) (soundAfter : Sound after.registry)
    (points : tsObjAt before.registry address = some tsObj)
    (pointsAfter : tsObjAt after.registry address = some tsObj)
    (sameTable : after.locals address = before.locals address)
    (sameCount : (after.props tsObj).modcount = (before.props tsObj).modcount)
    (alike : (before.locals address).localPropsModcount = (before.props tsObj).modcount ∨
      ∃ handle, (before.props tsObj).hash.find key = some (.pthreads handle) ∧
        (after.props tsObj).hash.find key = some (.pthreads handle) ∧
        after.registry.zobjs handle = before.registry.zobjs handle)
    (own : ∀ object, (before.connection thread address).cached key = some (.threaded object) →
      after.registry.zobjs object = before.registry.zobjs object) :
    after.cachedAt thread (.held address) key = before.cachedAt thread (.held address) key := by
  apply cachedAt_congr sound soundAfter points pointsAfter sameTable sameCount ?_ own
  apply alike.imp_right
  rintro ⟨handle, stored, storedAfter, original⟩
  refine ⟨storedAfter.trans stored.symm, ?_⟩
  intro other isOther
  cases stored.symm.trans isOther
  exact original

/-- Where a read leads depends on an object in memory, unless the table is in
sync. -/
theorem Sane.alike_of_answer {thread address tsObj : Nat} {world : World} {key : Key}
    {next : Place} (sane : Sane thread world) (mine : Mine thread world.registry address)
    (points : tsObjAt world.registry address = some tsObj)
    (answers : world.answer thread (.held address) key = some next) :
    (world.locals address).localPropsModcount = (world.props tsObj).modcount ∨
      ∃ handle, (world.props tsObj).hash.find key = some (.pthreads handle) ∧
        world.registry.zobjs handle ≠ none := by
  rcases answer_cases answers with ⟨object, cached, rfl⟩ | ⟨-, handle, stored, leads⟩
  · by_cases inSync : (world.locals address).localPropsModcount = (world.props tsObj).modcount
    · exact Or.inl inSync
    · right
      obtain ⟨zobj, found, -⟩ := sane.mine_of_cachedAt mine cached
      have outOfSync : (world.connection thread address).localPropsModcount ≠
          (world.props tsObj).modcount := inSync
      rw [cachedAt_held points, syncLocalProperties_cached, if_neg outOfSync] at cached
      obtain ⟨handle, stored, rfl | valid⟩ :=
        staysCached_threaded (Option.filter_eq_some_iff.mp cached).2
      · exact ⟨handle, stored, by simp [found]⟩
      · exact ⟨handle, stored, (globalsObjectValid_iff sane.sound).mp valid⟩
  · obtain ⟨zobj, -, found, -⟩ := placeOf_cases leads
    simp only [World.storageAt, Place.tsObj, points, Option.bind_some] at stored
    exact Or.inr ⟨handle, stored, by simp [found]⟩

/-- What connecting to a handle does to the objects in memory. -/
structure Connects (thread : Nat) (registry after : Registry) (newAddress : Nat) : Prop where
  sound : Sound after
  kept : ∀ address zobj, registry.zobjs address = some zobj → after.zobjs address = some zobj
  absent : ∀ address, registry.zobjs address = none → address ≠ newAddress →
    after.zobjs address = none
  resolved : ∀ tsObj, after.resolve thread tsObj = registry.resolve thread tsObj ∨
    (registry.resolve thread tsObj = none ∧ after.resolve thread tsObj = some newAddress ∧
      registry.zobjs newAddress = none)

theorem Connects.refl {registry : Registry} (sound : Sound registry) (thread newAddress : Nat) :
    Connects thread registry registry newAddress :=
  ⟨sound, fun _ _ found => found, fun _ absent _ => absent, fun _ => Or.inl rfl⟩

theorem Connects.zobjs_eq {thread newAddress address : Nat} {registry after : Registry}
    (connects : Connects thread registry after newAddress)
    (existed : registry.zobjs address ≠ none) :
    after.zobjs address = registry.zobjs address := by
  obtain ⟨zobj, found⟩ := Option.ne_none_iff_exists'.mp existed
  rw [found, connects.kept address zobj found]

theorem Connects.mine_iff {thread newAddress address : Nat} {registry after : Registry}
    (connects : Connects thread registry after newAddress)
    (existed : registry.zobjs address ≠ none) :
    Mine thread after address ↔ Mine thread registry address := by
  rw [Mine, Mine, connects.zobjs_eq existed]

theorem Connects.resolve {thread newAddress : Nat} {registry after : Registry}
    (connects : Connects thread registry after newAddress) (tsObj connection : Nat)
    (present : registry.resolve thread tsObj = some connection) :
    after.resolve thread tsObj = some connection := by
  rcases connects.resolved tsObj with same | ⟨absent, -⟩
  · rw [same, present]
  · rw [absent] at present
    cases present

section Connecting

variable {setting : Setting} {world : World} {after : Registry} {newAddress : Nat}

@[simp] theorem withRegistry_registry :
    (world.withRegistry setting after newAddress).registry = after := by
  unfold World.withRegistry
  split <;> rfl

@[simp] theorem withRegistry_props :
    (world.withRegistry setting after newAddress).props = world.props := by
  unfold World.withRegistry
  split <;> rfl

/-- The local tables of the objects that were there stay. -/
theorem withRegistry_locals {address : Nat} (existed : world.registry.zobjs address ≠ none) :
    (world.withRegistry setting after newAddress).locals address = world.locals address := by
  unfold World.withRegistry
  split
  · next unused =>
    have different : address ≠ newAddress := by
      rintro rfl
      exact existed unused
    simp [World.setLocal, different]
  · rfl

/-- A new object has nothing in its local table. -/
theorem withRegistry_locals_new {table : OrderedTable Key Zval}
    (unused : world.registry.zobjs newAddress = none)
    (isTable : ((world.withRegistry setting after newAddress).locals newAddress).properties =
      some table) (key : Key) : table.find key = none := by
  simp only [World.withRegistry, if_pos unused, World.setLocal, Function.update_self,
    freshConnection] at isTable
  split at isTable
  · cases isTable
    exact OrderedTable.find_empty key
  · cases isTable

theorem cachedAt_new (unused : world.registry.zobjs newAddress = none) (key : Key) :
    (world.withRegistry setting after newAddress).cachedAt setting.thread (.held newAddress) key =
      none := by
  cases isCached : (world.withRegistry setting after newAddress).cachedAt setting.thread
      (.held newAddress) key with
  | none => rfl
  | some value =>
      simp only [World.cachedAt, Option.bind_eq_bind, Option.bind_eq_some_iff] at isCached
      obtain ⟨tsObj, -, isCached⟩ := isCached
      obtain ⟨table, isTable, isThere⟩ :=
        cached_mem ((syncLocalProperties_synced _ _ _).cached key _ isCached).1
      rw [withRegistry_locals_new unused isTable] at isThere
      cases isThere

theorem sane_withRegistry (sane : Sane setting.thread world)
    (connects : Connects setting.thread world.registry after newAddress) :
    Sane setting.thread (world.withRegistry setting after newAddress) := by
  refine ⟨?_, ?_⟩
  · rw [withRegistry_registry]
    exact connects.sound
  · rw [withRegistry_registry]
    intro address table key object mine isTable isThere
    by_cases existed : world.registry.zobjs address = none
    · have isNew : address = newAddress := by
        by_contra different
        exact mine.ne_none (connects.absent address existed different)
      subst isNew
      rw [withRegistry_locals_new existed isTable] at isThere
      cases isThere
    · rw [withRegistry_locals existed] at isTable
      have holds := sane.holds address table key object ((connects.mine_iff existed).mp mine)
        isTable isThere
      exact (connects.mine_iff holds.ne_none).mpr holds

theorem inSync_withRegistry (connects : Connects setting.thread world.registry after newAddress)
    {address : Nat} (existed : world.registry.zobjs address ≠ none)
    (inSync : InSync world address) :
    InSync (world.withRegistry setting after newAddress) address := by
  intro tsObj points
  rw [withRegistry_registry, tsObjAt, connects.zobjs_eq existed] at points
  rw [withRegistry_locals existed, withRegistry_props]
  exact inSync tsObj points

/-- The thread is led on from an object it has as it was before. -/
theorem answer_withRegistry_held (sane : Sane setting.thread world)
    (connects : Connects setting.thread world.registry after newAddress) {address : Nat} {key : Key}
    {next : Place} (mine : Mine setting.thread world.registry address)
    (led : world.answer setting.thread (.held address) key = some next) :
    (world.withRegistry setting after newAddress).answer setting.thread (.held address) key =
      some (relocate after setting.thread next) := by
  obtain ⟨tsObj, points⟩ := mine.tsObjAt
  have pointsAfter :
      tsObjAt (world.withRegistry setting after newAddress).registry address = some tsObj := by
    rw [withRegistry_registry, tsObjAt, connects.zobjs_eq mine.ne_none]
    exact points
  have same : (world.withRegistry setting after newAddress).cachedAt setting.thread
      (.held address) key = world.cachedAt setting.thread (.held address) key := by
    refine cachedAt_congr_handle sane.sound ?_ points pointsAfter (withRegistry_locals mine.ne_none)
      (by rw [withRegistry_props]) ?_ ?_
    · rw [withRegistry_registry]
      exact connects.sound
    · apply (sane.alike_of_answer mine points led).imp id
      rintro ⟨handle, stored, existed⟩
      rw [withRegistry_props, withRegistry_registry]
      exact ⟨handle, stored, stored, connects.zobjs_eq existed⟩
    · intro object cached
      obtain ⟨table, isTable, isThere⟩ := cached_mem cached
      rw [withRegistry_registry]
      exact connects.zobjs_eq (sane.holds address table key object mine isTable isThere).ne_none
  rcases answer_cases led with ⟨object, cached, rfl⟩ | ⟨uncached, handle, stored, leads⟩
  · exact answer_of_cached (same.trans cached)
  · have storedAfter : (world.withRegistry setting after newAddress).storageAt
        (.held address) key = some (.pthreads handle) := by
      simp only [World.storageAt, Place.tsObj, points, pointsAfter, withRegistry_props] at stored ⊢
      exact stored
    have answered := answer_of_uncached (same.trans uncached) storedAfter
    rw [withRegistry_registry, placeOf_relocate connects.kept connects.resolve leads] at answered
    exact answered

/-- A shared object that the thread had no connection to leads on to the same places, also
when the thread has connected to it. -/
theorem answer_withRegistry_unheld
    (connects : Connects setting.thread world.registry after newAddress) {tsObj : Nat} {key : Key}
    {next : Place} (absent : world.registry.resolve setting.thread tsObj = none)
    (led : world.answer setting.thread (.unheld tsObj) key = some next) :
    (world.withRegistry setting after newAddress).answer setting.thread
        (relocate after setting.thread (.unheld tsObj)) key =
      some (relocate after setting.thread next) := by
  rcases answer_cases led with ⟨object, cached, -⟩ | ⟨-, handle, stored, leads⟩
  · cases cached
  · have leadsAfter := placeOf_relocate connects.kept connects.resolve leads
    rw [← leadsAfter]
    simp only [relocate]
    rcases connects.resolved tsObj with same | ⟨-, isNew, unused⟩
    · have absentAfter : after.resolve setting.thread tsObj = none := same.trans absent
      have answered : (world.withRegistry setting after newAddress).answer setting.thread
          (.unheld tsObj) key = _ := answer_of_uncached rfl
        (by simpa [World.storageAt, Place.tsObj] using stored)
      simpa [absentAfter] using answered
    · -- the new connection has an empty table, and the same storages behind it
      have points := (Sound.mine_of_resolve connects.sound isNew).2
      have uncached : (world.withRegistry setting after newAddress).cachedAt setting.thread
          (.held newAddress) key = none := cachedAt_new unused key
      have answered := answer_of_uncached uncached
        (by simpa [World.storageAt, Place.tsObj, points] using stored)
      simpa [isNew] using answered

/-- Connecting to an object leads the thread nowhere else. -/
theorem follows_withRegistry (sane : Sane setting.thread world)
    (connects : Connects setting.thread world.registry after newAddress) :
    Follows setting.thread world (world.withRegistry setting after newAddress) := by
  refine ⟨sane_withRegistry sane connects, withRegistry_props, ?_, ?_, ?_, ?_, ?_, ?_⟩
  · rw [withRegistry_registry]
    exact connects.kept
  · rw [withRegistry_registry]
    exact connects.resolve
  · intro tsObj connection present
    rw [withRegistry_registry] at present
    rcases connects.resolved tsObj with same | ⟨-, isNew, unused⟩
    · exact Or.inl (same.symm.trans present)
    · cases Option.some.inj (isNew.symm.trans present)
      exact Or.inr unused
  · intro address mine inSync
    exact inSync_withRegistry connects mine.ne_none inSync
  · intro address key value mine firm
    refine ⟨inSync_withRegistry connects mine.ne_none firm.inSync, ?_⟩
    simp only [World.connection, withRegistry_locals mine.ne_none]
    exact firm.cached
  · intro place key next present led
    rw [withRegistry_registry]
    cases place with
    | held address => exact answer_withRegistry_held sane connects present led
    | unheld tsObj => exact answer_withRegistry_unheld connects present led

end Connecting

/-- Connecting to a handle leads to where the thread has its object, or puts it
there. -/
theorem globalsObjectConnect_leads {registry after : Registry} (sound : Sound registry)
    {thread handle newAddress newTs : Nat} {result : Option Nat}
    (connected : globalsObjectConnect registry thread handle newAddress newTs =
      some (after, result)) :
    (after = registry ∧ ((result = none ∧ registry.zobjs handle = none) ∨
        (∃ object, result = some object ∧
          placeOf registry thread handle = some (.held object)) ∨
        (result = some handle ∧ tsObjAt registry handle = none))) ∨
      (∃ tsObj, placeOf registry thread handle = some (.unheld tsObj) ∧
        createConnection registry thread handle newAddress newTs = some after ∧
        result = some newAddress) := by
  simp only [globalsObjectConnect] at connected
  split at connected
  · next valid =>
    simp only [Option.bind_eq_bind, Option.bind_eq_some_iff] at connected
    obtain ⟨zobj, found, connected⟩ := connected
    split at connected
    · next owned =>
      cases connected
      cases points : zobj.tsObj with
      | none => exact Or.inl ⟨rfl, Or.inr (Or.inr ⟨rfl, by simp [tsObjAt, found, points]⟩)⟩
      | some tsObj =>
          exact Or.inl ⟨rfl, Or.inr (Or.inl ⟨handle, rfl, by simp [placeOf, found, points, owned]⟩)⟩
    · next foreign =>
      simp only [Option.bind_eq_some_iff] at connected
      obtain ⟨tsObj, points, connected⟩ := connected
      split at connected
      · next connection present =>
        cases connected
        exact Or.inl ⟨rfl, Or.inr (Or.inl ⟨connection, rfl,
          by simp [placeOf, found, points, foreign, present]⟩)⟩
      · next absent =>
        simp only [Option.bind_eq_some_iff] at connected
        obtain ⟨created, isCreated, ⟨⟩⟩ := connected
        exact Or.inr ⟨tsObj, by simp [placeOf, found, points, foreign, absent], isCreated, rfl⟩
  · next invalid =>
    cases connected
    refine Or.inl ⟨rfl, Or.inl ⟨rfl, ?_⟩⟩
    by_contra existed
    exact invalid ((globalsObjectValid_iff sound).mpr existed)

/-- What creating a connection does to the objects in memory. -/
theorem createConnection_connects {registry after : Registry} (sound : Sound registry)
    {thread handle newAddress newTs tsObj : Nat}
    (leads : placeOf registry thread handle = some (.unheld tsObj))
    (created : createConnection registry thread handle newAddress newTs = some after) :
    Connects thread registry after newAddress ∧
      after.resolve thread tsObj = some newAddress := by
  obtain ⟨zobj, sameTs, found, points, ⟨-, ⟨⟩⟩ | ⟨-, ⟨_, -, ⟨⟩⟩ | ⟨absent, ⟨⟩⟩⟩⟩ :=
    placeOf_cases leads
  obtain ⟨allocated, constructed, connected, shared, creates⟩ := createConnection_creates created
  obtain ⟨-, isShared⟩ := creates.placed found
  cases Option.some.inj (points.symm.trans isShared)
  have resolve : after.resolve = Function.update registry.resolve thread
      (Function.update (registry.resolve thread) tsObj (some newAddress)) := by
    obtain ⟨-, ⟨⟩⟩ := Option.ite_none_right_eq_some.mp creates.alloc
    obtain ⟨-, -, rfl⟩ := ObjectRegistry.baseCtor_zobjs creates.construct
    obtain ⟨_, _, _, -, -, -, -, -, kept, -⟩ := ObjectRegistry.connectNolock_zobjs creates.connect
    rw [creates.result, kept]
  refine ⟨⟨creates.sound sound (by simp [found]), ?_, ?_, ?_⟩, by simp [resolve]⟩
  · intro address other isThere
    have different : address ≠ newAddress := by
      rintro rfl
      rw [creates.unused] at isThere
      cases isThere
    rw [creates.keeps different, isThere]
  · intro address missing different
    rw [creates.keeps different, missing]
  · intro other
    by_cases same : other = tsObj
    · subst same
      exact Or.inr ⟨absent, by simp [resolve], creates.unused⟩
    · exact Or.inl (by simp [resolve, same])

/-- What restoring a value does to the objects in memory, and where the value
leads. -/
structure Regains (thread : Nat) (registry after : Registry) (newAddress : Nat)
    (storage : Storage) (value : Zval) : Prop where
  connects : Connects thread registry after newAddress
  created : ∀ address, registry.zobjs address = none → after.zobjs address ≠ none →
    value = .threaded address
  valid : validLocalCacheItem value = true
  other : (∀ object, value ≠ .threaded object) → after = registry ∧
    ∀ handle, storage = .pthreads handle → placeOf registry thread handle = none
  threaded : ∀ object, value = .threaded object → ∃ handle, storage = .pthreads handle ∧
    (tsObjAt after object = none ∨ ∃ place, placeOf registry thread handle = some place ∧
      relocate after thread place = .held object)

/-- A restore that finds no object. -/
theorem regains_unchanged {registry : Registry} (sound : Sound registry)
    (thread newAddress : Nat) {storage : Storage} {value : Zval}
    (noObject : ∀ object, value ≠ .threaded object) (valid : validLocalCacheItem value = true)
    (dead : ∀ handle, storage = .pthreads handle → placeOf registry thread handle = none) :
    Regains thread registry registry newAddress storage value :=
  ⟨Connects.refl sound thread newAddress, fun _ absent isThere => absurd absent isThere, valid,
    fun _ => ⟨rfl, dead⟩, fun object isObject => absurd isObject (noObject object)⟩

theorem restoreZval_regains {enumCases : EnumCases} {registry after : Registry}
    (sound : Sound registry) {thread : Nat} {fresh : Fresh} {storage : Storage} {value : Zval}
    (restored : restoreZval enumCases registry thread fresh storage = some (after, value)) :
    Regains thread registry after fresh.newAddress storage value := by
  cases storage with
  | pthreads handle =>
      obtain ⟨⟨result, found⟩, connected, outcome⟩ := Option.map_eq_some_iff.mp restored
      rcases globalsObjectConnect_leads sound connected with
          ⟨rfl, ⟨rfl, dead⟩ | ⟨object, rfl, leads⟩ | ⟨rfl, missing⟩⟩ | ⟨tsObj, leads, created, rfl⟩
      · cases outcome
        apply regains_unchanged sound thread _ (by simp) rfl
        rintro _ ⟨⟩
        simp [placeOf, dead]
      · cases outcome
        refine ⟨Connects.refl sound thread _, fun _ absent isThere => absurd absent isThere, rfl,
          fun noObject => absurd rfl (noObject object), ?_⟩
        rintro _ ⟨⟩
        exact ⟨handle, rfl, Or.inr ⟨_, leads, rfl⟩⟩
      · cases outcome
        refine ⟨Connects.refl sound thread _, fun _ absent isThere => absurd absent isThere, rfl,
          fun noObject => absurd rfl (noObject handle), ?_⟩
        rintro _ ⟨⟩
        exact ⟨handle, rfl, Or.inl missing⟩
      · cases outcome
        obtain ⟨connects, arrived⟩ := createConnection_connects sound leads created
        refine ⟨connects, ?_, rfl, fun noObject => absurd rfl (noObject _), ?_⟩
        · intro address missing isThere
          by_contra different
          exact isThere (connects.absent address missing fun same => different (by rw [same]))
        · rintro _ ⟨⟩
          exact ⟨handle, rfl, Or.inr ⟨_, leads, by simp [relocate, arrived]⟩⟩
  | stringPtr string owner =>
      simp only [restoreZval] at restored
      split at restored <;> cases restored <;>
        exact regains_unchanged sound thread _ (by simp) rfl (by simp)
  | enumCase className memberName =>
      obtain ⟨-, ⟨⟩⟩ := Option.ite_none_right_eq_some.mp restored
      exact regains_unchanged sound thread _ (by simp) rfl (by simp)
  | _ =>
      cases restored
      exact regains_unchanged sound thread _ (by simp) rfl (by simp)

end Pthreads.ObjectGraph
