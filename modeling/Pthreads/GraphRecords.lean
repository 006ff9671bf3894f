import Pthreads.GraphWalks
import Pthreads.PartialFolds
import Pthreads.RecordedEffects
import Pthreads.RecursiveCalls

/-!
# What the walk over a graph of Threaded objects records

A connection is created for a shared object that has none on the thread, and then it has
one.  What decreases from call to call is therefore the number of the thread's objects
that are not protected together with the number of shared objects without a connection.
So the walk always ends as long as it only records the closures it comes to.  Which
closures these are can be read off the graph before it starts: those in members that are
not in the local tables, of the objects that it comes to through such members and through
the queues of workers.
-/

namespace Pthreads.ObjectGraph

open PartialFolds RecursiveCalls
open RecordedEffects (record)
open ObjectRegistry (Registry ZendObject Sound addressLimit)
open Store

section Members

variable {Tables : Type} (setting : Setting) (start : Walking Tables) (root : Nat)

def Place.isProtected (isRecursive : Nat → Bool) : Place → Bool
  | .held address => isRecursive address
  | .unheld _ => false

/-- The places that the walk comes to: from one to the next it follows the members
that are not in the local table, and the tasks of a worker, past nothing that is
protected. -/
inductive Comes : Place → Prop
  | root (unprotected : start.isRecursive root = false) : Comes (.held root)
  | member {place next : Place} {key : Key} {handle : Nat} (before : Comes place)
      (stored : start.world.storageAt place key = some (.pthreads handle))
      (uncached : start.world.cachedAt setting.thread place key = none)
      (leads : placeOf start.world.registry setting.thread handle = some next)
      (unprotected : next.isProtected start.isRecursive = false) : Comes next
  | task {address task : Nat} (before : Comes (.held address))
      (queued : task ∈ setting.tasks address) (unprotected : start.isRecursive task = false) :
      Comes (.held task)

/-- The closure is in a member that the walk has to restore. -/
def Restores (closure : Closure) : Prop :=
  ∃ place key owner, Comes setting start root place ∧
    start.world.storageAt place key = some (.closure closure owner) ∧
    start.world.cachedAt setting.thread place key = none

end Members

section Relocation

variable {First Second Third : Type} {thread : Nat} {start : Walking First}
  {now : Walking Second} {after : Walking Third} {place : Place} {address : Nat}

theorem relocate_unheld_iff {registry : Registry} {tsObj : Nat} :
    relocate registry thread (.unheld tsObj) = .held address ↔
      registry.resolve thread tsObj = some address := by
  simp only [relocate]
  cases registry.resolve thread tsObj with
  | none => exact ⟨fun located => Place.noConfusion located, fun present => by cases present⟩
  | some connection =>
    constructor
    · rintro ⟨⟩
      rfl
    · rintro ⟨⟩
      rfl

/-- A place that the thread holds stays where it is. -/
theorem Grows.located (grows : Grows thread now after)
    (located : relocate now.world.registry thread place = .held address) :
    relocate after.world.registry thread place = .held address := by
  cases place with
  | held other => exact located
  | unheld tsObj =>
    rw [relocate_unheld_iff] at located ⊢
    exact grows.resolved tsObj address located

/-- What is held at an object that was there was held before. -/
theorem Grows.located_before (grows : Grows thread now after)
    (existed : now.world.registry.zobjs address ≠ none)
    (located : relocate after.world.registry thread place = .held address) :
    relocate now.world.registry thread place = .held address := by
  cases place with
  | held other => exact located
  | unheld tsObj =>
    rw [relocate_unheld_iff] at located ⊢
    exact (grows.arrived tsObj address located).resolve_right existed

/-- What holds a place is an object of the thread. -/
theorem Grows.mine_of_located (grows : Grows thread start now) (sound : Sound now.world.registry)
    (present : Present thread start.world.registry place)
    (located : relocate now.world.registry thread place = .held address) :
    Mine thread now.world.registry address := by
  cases place with
  | held other =>
    cases located
    exact grows.mine present
  | unheld tsObj =>
    rw [relocate_unheld_iff] at located
    exact (Sound.mine_of_resolve sound located).1

/-- The object at which a place is held has the shared object of the place. -/
theorem Grows.located_tsObj (grows : Grows thread start now)
    (sound : Sound now.world.registry) (present : Present thread start.world.registry place)
    {tsObj : Nat} (located : relocate now.world.registry thread place = .held address)
    (points : Store.tsObjAt now.world.registry address = some tsObj) :
    place.tsObj start.world.registry = some tsObj := by
  cases place with
  | held other =>
    cases located
    obtain ⟨shared, pointed⟩ := Mine.tsObjAt present
    cases Option.some.inj (points.symm.trans (grows.tsObjAt pointed))
    exact pointed
  | unheld shared =>
    rw [relocate_unheld_iff] at located
    exact (Sound.mine_of_resolve sound located).2.symm.trans points

/-- An object holds one place only. -/
theorem Grows.place_unique (grows : Grows thread start now) (sound : Sound now.world.registry)
    {other : Place} (present : Present thread start.world.registry place)
    (presentOther : Present thread start.world.registry other)
    (located : relocate now.world.registry thread place = .held address)
    (locatedOther : relocate now.world.registry thread other = .held address) :
    place = other := by
  obtain ⟨tsObj, points⟩ := (grows.mine_of_located sound present located).tsObjAt
  have sameTs := grows.located_tsObj sound present located points
  have otherTs := grows.located_tsObj sound presentOther locatedOther points
  -- a new connection is no object that was there
  have apart : ∀ {held unheld : Nat}, Mine thread start.world.registry held →
      start.world.registry.resolve thread unheld = none →
      relocate now.world.registry thread (.unheld unheld) ≠ .held held := by
    intro held unheld mine absent arrives
    rw [relocate_unheld_iff] at arrives
    rcases grows.arrived unheld held arrives with earlier | missing
    · rw [absent] at earlier
      cases earlier
    · exact mine.ne_none missing
  cases place with
  | held one =>
    cases located
    cases other with
    | held two =>
      cases locatedOther
      rfl
    | unheld two => exact absurd locatedOther (apart present presentOther)
  | unheld one =>
    cases other with
    | held two =>
      cases locatedOther
      exact absurd located (apart presentOther present)
    | unheld two =>
      cases sameTs
      cases otherTs
      rfl

/-- A handle of a storage leads later to where it led at first. -/
theorem Grows.placeOf_eq {setting : Setting} (ready : WalkReady setting start)
    (grows : Grows thread start now) {tsObj handle : Nat} {key : Key}
    (stored : (start.world.props tsObj).hash.find key = some (.pthreads handle)) :
    placeOf now.world.registry thread handle =
      (placeOf start.world.registry thread handle).map (relocate now.world.registry thread) := by
  cases leads : placeOf start.world.registry thread handle with
  | some next => exact placeOf_relocate grows.kept grows.resolved leads
  | none =>
    have same : now.world.registry.zobjs handle = start.world.registry.zobjs handle := by
      cases found : start.world.registry.zobjs handle with
      | none => exact grows.absent handle (ready.handles tsObj key handle stored) found
      | some zobj => exact grows.kept handle zobj found
    cases found : start.world.registry.zobjs handle with
    | none =>
      unfold placeOf
      rw [same, found]
      rfl
    | some zobj =>
      obtain ⟨shared, points⟩ :=
        Option.isSome_iff_exists.mp (ready.settled tsObj key handle stored zobj found)
      unfold placeOf at leads
      rw [found] at leads
      simp only [Option.bind_eq_bind, Option.bind_some, points] at leads
      split at leads
      · cases leads
      · split at leads <;> cases leads

end Relocation

section Stages

variable {setting : Setting} {start now after : Walking (List Closure)} {root address : Nat}
  {done : Set Nat}

/-- A member that was in no local table is in the one at the address now. -/
structure Added (setting : Setting) (start : Walking (List Closure)) (root : Nat)
    (now : Walking (List Closure)) (place : Place) (address : Nat) (key : Key) : Prop where
  comes : Comes setting start root place
  located : relocate now.world.registry setting.thread place = .held address
  uncached : start.world.cachedAt setting.thread place key = none
  cached : now.world.cachedAt setting.thread (.held address) key ≠ none

/-- The walk has left the object, or works on it. -/
def Handled (done : Set Nat) (now : Walking (List Closure)) (address : Nat) : Prop :=
  address ∈ done ∨ now.isRecursive address = true

/-- A point of the walk, with the objects that it has left. -/
structure Stage (setting : Setting) (start : Walking (List Closure)) (root : Nat)
    (done : Set Nat) (now : Walking (List Closure)) : Prop where
  ready : WalkReady setting now
  grows : Grows setting.thread start now
  present : ∀ place, Comes setting start root place →
    Present setting.thread start.world.registry place
  flags : ∀ address, start.isRecursive address = true → now.isRecursive address = true
  copied : ∀ closure ∈ now.tables, Restores setting start root closure
  recorded : ∀ place address key closure owner, Added setting start root now place address key →
    start.world.storageAt place key = some (.closure closure owner) → closure ∈ now.tables
  led : ∀ place address key handle next, Added setting start root now place address key →
    start.world.storageAt place key = some (.pthreads handle) →
    placeOf start.world.registry setting.thread handle = some next →
      ∃ object, relocate now.world.registry setting.thread next = .held object ∧
        Handled done now object
  mine : ∀ address ∈ done, Mine setting.thread now.world.registry address
  filled : ∀ address ∈ done, ∀ tsObj key storage,
    tsObjAt now.world.registry address = some tsObj →
    (start.world.props tsObj).hash.find key = some storage → storageIsCacheable storage = true →
      now.world.cachedAt setting.thread (.held address) key ≠ none
  queued : ∀ address ∈ done, ∀ task ∈ setting.tasks address, Handled done now task

theorem Comes.present (ready : WalkReady setting start)
    (mine : Mine setting.thread start.world.registry root) {place : Place}
    (comes : Comes setting start root place) :
    Present setting.thread start.world.registry place := by
  induction comes with
  | root => exact mine
  | member _ _ _ leads => exact (placeOf_present ready.sound leads).1
  | task _ queued => exact (ready.queues _ _ queued).2

theorem stage_start (ready : WalkReady setting start) (empty : start.tables = [])
    (mine : Mine setting.thread start.world.registry root) :
    Stage setting start root ∅ start := by
  have notAdded : ∀ place address key, ¬ Added setting start root start place address key := by
    intro place address key added
    have here := relocate_of_present (added.comes.present ready mine)
    rw [added.located] at here
    exact added.cached (here ▸ added.uncached)
  refine ⟨ready, ready.refl.grows, fun _ comes => comes.present ready mine,
    fun _ isProtected => isProtected, ?_, ?_, ?_, ?_, ?_, ?_⟩
  · rw [empty]
    exact fun closure isIn => absurd isIn List.not_mem_nil
  · exact fun place address key closure owner added => absurd added (notAdded place address key)
  · exact fun place address key handle next added => absurd added (notAdded place address key)
  · exact fun address isIn => absurd isIn (Set.notMem_empty address)
  · exact fun address isIn => absurd isIn (Set.notMem_empty address)
  · exact fun address isIn => absurd isIn (Set.notMem_empty address)

/-- A step that puts nothing into the local tables of the objects that there are. -/
structure Unchanged (setting : Setting) (now after : Walking (List Closure)) : Prop where
  ready : WalkReady setting after
  grows : Grows setting.thread now after
  flags : ∀ address, now.isRecursive address = true → after.isRecursive address = true
  tables : after.tables = now.tables
  cached : ∀ address key, Mine setting.thread after.world.registry address →
    after.world.cachedAt setting.thread (.held address) key ≠ none →
      now.world.registry.zobjs address ≠ none ∧
        now.world.cachedAt setting.thread (.held address) key ≠ none

theorem Unchanged.added (stage : Stage setting start root done now)
    (unchanged : Unchanged setting now after) {place : Place} {key : Key}
    (added : Added setting start root after place address key) :
    Added setting start root now place address key := by
  have mine := (stage.grows.trans unchanged.grows).mine_of_located unchanged.ready.sound
    (stage.present place added.comes) added.located
  obtain ⟨existed, cached⟩ := unchanged.cached address key mine added.cached
  exact ⟨added.comes, unchanged.grows.located_before existed added.located, added.uncached, cached⟩

theorem Handled.later (handled : Handled done now address)
    (flags : ∀ other, now.isRecursive other = true → after.isRecursive other = true) :
    Handled done after address :=
  handled.imp_right (flags address)

theorem Stage.unchanged (stage : Stage setting start root done now)
    (unchanged : Unchanged setting now after) : Stage setting start root done after := by
  have grows := unchanged.grows
  refine ⟨unchanged.ready, stage.grows.trans grows, stage.present,
    fun other isProtected => unchanged.flags other (stage.flags other isProtected), ?_, ?_, ?_,
    fun other isIn => grows.mine (stage.mine other isIn), ?_, ?_⟩
  · rw [unchanged.tables]
    exact stage.copied
  · intro place other key closure owner added stored
    rw [unchanged.tables]
    exact stage.recorded place other key closure owner (unchanged.added stage added) stored
  · intro place other key handle next added stored leads
    obtain ⟨object, located, handled⟩ :=
      stage.led place other key handle next (unchanged.added stage added) stored leads
    exact ⟨object, grows.located located, handled.later unchanged.flags⟩
  · intro other isIn tsObj key storage points stored cacheable
    have mine := stage.mine other isIn
    obtain ⟨shared, pointed⟩ := mine.tsObjAt
    cases Option.some.inj (points.symm.trans (grows.tsObjAt pointed))
    exact grows.cached other key mine
      (stage.filled other isIn tsObj key storage pointed stored cacheable)
  · intro other isIn task isQueued
    exact (stage.queued other isIn task isQueued).later unchanged.flags

theorem WalkReady.protect (ready : WalkReady setting now)
    (mine : Mine setting.thread now.world.registry address) :
    WalkReady setting (now.protect address) := by
  obtain ⟨zobj, found, -⟩ := mine
  have below := ready.lt_next found
  refine { ready with flags := ?_ }
  intro other above
  have different : other ≠ address := by
    rintro rfl
    exact Nat.not_lt.mpr above below
  unfold Walking.protect
  dsimp only
  rw [Function.update_of_ne different]
  exact ready.flags other above

theorem enter_walked {tsObj : Nat} (ready : WalkReady setting now)
    (mine : Mine setting.thread now.world.registry address)
    (points : tsObjAt now.world.registry address = some tsObj) :
    Walked setting (now.protect address) (now.enter setting address tsObj) :=
  (retables_open ready.sane mine points (setting.declared tsObj)).walked (ready.protect mine)
    now.tables

theorem protect_flags (other : Nat) (isProtected : now.isRecursive other = true) :
    (now.protect address).isRecursive other = true := by
  unfold Walking.protect
  dsimp only
  by_cases same : other = address
  · rw [same, Function.update_self]
  · rw [Function.update_of_ne same]
    exact isProtected

theorem Stage.enter {tsObj : Nat} (stage : Stage setting start root done now)
    (mine : Mine setting.thread now.world.registry address)
    (points : tsObjAt now.world.registry address = some tsObj) :
    Stage setting start root done (now.enter setting address tsObj) := by
  have walked := enter_walked stage.ready mine points
  refine stage.unchanged ⟨walked.ready, ?_, protect_flags, rfl, ?_⟩
  · exact ⟨walked.grows.props, walked.grows.kept, walked.grows.absent, walked.grows.next,
      walked.grows.resolved, walked.grows.arrived, walked.grows.inSync, walked.grows.cached⟩
  · intro other key _ isCached
    have before : now.world.cachedAt setting.thread (.held other) key ≠ none := by
      rwa [← cachedAt_open points (setting.declared tsObj) other]
    exact ⟨fun missing => before (cachedAt_missing missing), before⟩

/-- A connection is created. -/
theorem Stage.connect {registry : Registry} {tsObj : Nat}
    (stage : Stage setting start root done now)
    (connected : NewConnection setting now registry tsObj) :
    Stage setting start root done (now.connect setting registry now.tables) := by
  have walked := connected.walked stage.ready now.tables
  refine stage.unchanged ⟨walked.ready, walked.grows, ?_, rfl, ?_⟩
  · intro other isProtected
    rw [walked.flags]
    exact isProtected
  · intro other key mine isCached
    have existed : now.world.registry.zobjs other ≠ none := by
      intro missing
      by_cases isNew : other = now.next
      · subst isNew
        exact isCached (cachedAt_new missing key)
      · rw [connect_registry] at mine
        exact mine.ne_none (connected.connects.absent other missing isNew)
    rw [connect_registry, connected.connects.mine_iff existed] at mine
    obtain ⟨shared, points⟩ := mine.tsObjAt
    have same : (now.connect setting registry now.tables).world.cachedAt setting.thread
        (.held other) key = now.world.cachedAt setting.thread (.held other) key :=
      cachedAt_connected stage.ready.sane connected.connects mine points
        fun handle stored => Nat.ne_of_lt (stage.ready.handles shared key handle stored)
    exact ⟨existed, same ▸ isCached⟩

/-- No connection is created. -/
theorem Stage.unconnected (stage : Stage setting start root done now) :
    Walked setting now
        { now with world := now.world.withRegistry setting now.world.registry now.next } ∧
      Stage setting start root done
        { now with world := now.world.withRegistry setting now.world.registry now.next } := by
  have apart : ∀ tsObj key handle, (now.world.props tsObj).hash.find key = some (.pthreads handle) →
      handle ≠ now.next := fun tsObj key handle stored =>
    Nat.ne_of_lt (stage.ready.handles tsObj key handle stored)
  have walked : Walked setting now
      { now with world := now.world.withRegistry setting now.world.registry now.next } :=
    (retables_unconnected stage.ready.sane apart).walked stage.ready now.tables
  refine ⟨walked, stage.unchanged ⟨walked.ready, walked.grows, fun _ same => same, rfl, ?_⟩⟩
  intro other key mine isCached
  rw [withRegistry_registry] at mine
  obtain ⟨tsObj, points⟩ := mine.tsObjAt
  refine ⟨mine.ne_none, ?_⟩
  rwa [← cachedAt_connected stage.ready.sane
    (Connects.refl stage.ready.sound setting.thread now.next) mine points (apart tsObj key)]

/-- A closure of a member that is not in the local table is copied. -/
theorem Stage.record {closure : Closure} (stage : Stage setting start root done now)
    (restores : Restores setting start root closure) :
    Stage setting start root done { now with tables := now.tables ++ [closure] } where
  ready := { stage.ready with }
  grows := { stage.grows with }
  present := stage.present
  flags := stage.flags
  copied := by
    intro other isIn
    rcases List.mem_append.mp isIn with earlier | isNew
    · exact stage.copied other earlier
    · cases List.mem_singleton.mp isNew
      exact restores
  recorded place other key found owner added stored :=
    List.mem_append_left _ (stage.recorded place other key found owner
      ⟨added.comes, added.located, added.uncached, added.cached⟩ stored)
  led place other key handle next added :=
    stage.led place other key handle next
      ⟨added.comes, added.located, added.uncached, added.cached⟩
  mine := stage.mine
  filled := stage.filled
  queued := stage.queued

/-- The member that the walk works on is put into the local table of its object. -/
theorem Stage.cache {place : Place} {key : Key} {value : Zval}
    (stage : Stage setting start root done now) (inSync : InSync now.world address)
    (comes : Comes setting start root place)
    (located : relocate now.world.registry setting.thread place = .held address)
    (valid : validLocalCacheItem value = true)
    (known : ∀ object, value = .threaded object → Mine setting.thread now.world.registry object)
    (recorded : ∀ closure owner, start.world.storageAt place key = some (.closure closure owner) →
      closure ∈ now.tables)
    (led : ∀ handle next, start.world.storageAt place key = some (.pthreads handle) →
      placeOf start.world.registry setting.thread handle = some next →
        ∃ object, relocate now.world.registry setting.thread next = .held object ∧
          Handled done now object) :
    Stage setting start root done { now with world := now.world.cache address key value } := by
  have mine := stage.grows.mine_of_located stage.ready.sound (stage.present place comes) located
  have walked : Walked setting now { now with world := now.world.cache address key value } :=
    (retables_cache stage.ready.sane mine inSync valid known).walked stage.ready now.tables
  -- what is new in a table is the value, and no other place is held at the object
  have cases : ∀ other otherAddress otherKey, Added setting start root
      { now with world := now.world.cache address key value } other otherAddress otherKey →
        Added setting start root now other otherAddress otherKey ∨
          (other = place ∧ otherKey = key) := by
    intro other otherAddress otherKey added
    have isCached := added.cached
    rw [cachedAt_cache mine inSync valid] at isCached
    split at isCached
    · next here =>
      right
      refine ⟨?_, here.2⟩
      exact stage.grows.place_unique stage.ready.sound (stage.present other added.comes)
        (stage.present place comes) added.located (here.1 ▸ located)
    · exact Or.inl ⟨added.comes, added.located, added.uncached, isCached⟩
  refine ⟨walked.ready, stage.grows.trans walked.grows, stage.present, stage.flags, stage.copied,
    ?_, ?_, stage.mine, ?_, stage.queued⟩
  · intro other otherAddress otherKey closure owner added stored
    rcases cases other otherAddress otherKey added with before | ⟨rfl, rfl⟩
    · exact stage.recorded other otherAddress otherKey closure owner before stored
    · exact recorded closure owner stored
  · intro other otherAddress otherKey handle next added stored leads
    rcases cases other otherAddress otherKey added with before | ⟨rfl, rfl⟩
    · exact stage.led other otherAddress otherKey handle next before stored leads
    · exact led handle next stored leads
  · intro other isIn tsObj otherKey storage points stored cacheable
    exact walked.grows.cached other otherKey (stage.mine other isIn)
      (stage.filled other isIn tsObj otherKey storage points stored cacheable)

end Stages

section Recursion

variable {setting : Setting} {start now : Walking (List Closure)} {root address : Nat}
  {done : Set Nat} {place : Place} {key : Key} {storage : Storage}
  {recurse : Nat → Walking (List Closure) → Option (Walking (List Closure))}

/-- The value that the walk has restored from a storage leads where the storage leads. -/
inductive Leads (setting : Setting) (start : Walking (List Closure)) (registry : Registry)
    (storage : Storage) (value : Zval) : Prop
  | nowhere (noObject : ∀ object, value ≠ .threaded object)
      (dead : ∀ handle, storage = .pthreads handle →
        placeOf start.world.registry setting.thread handle = none)
  | object {handle object : Nat} {next : Place} (isValue : value = .threaded object)
      (isStorage : storage = .pthreads handle)
      (leads : placeOf start.world.registry setting.thread handle = some next)
      (located : relocate registry setting.thread next = .held object)
      (mine : Mine setting.thread registry object)

theorem leads_of_regains {registry : Registry} {value : Zval} {tsObj newAddress : Nat}
    (begun : WalkReady setting start) (stage : Stage setting start root done now)
    (stored : (start.world.props tsObj).hash.find key = some storage)
    (regains : Regains setting.thread now.world.registry registry newAddress storage value)
    (mine : ∀ object, value = .threaded object → Mine setting.thread registry object) :
    Leads setting start registry storage value := by
  by_cases threaded : ∃ object, value = .threaded object
  · obtain ⟨object, isObject⟩ := threaded
    obtain ⟨handle, isStorage, missing | ⟨between, leads, located⟩⟩ :=
      regains.threaded object isObject
    · obtain ⟨shared, points⟩ := (mine object isObject).tsObjAt
      rw [points] at missing
      cases missing
    · rw [stage.grows.placeOf_eq begun (isStorage ▸ stored)] at leads
      obtain ⟨next, first, rfl⟩ := Option.map_eq_some_iff.mp leads
      have follows := follows_withRegistry stage.ready.sane regains.connects
      have relocated := follows.relocate_relocate next
      rw [withRegistry_registry] at relocated
      exact .object isObject isStorage first (relocated.symm.trans located) (mine object isObject)
  · have noObject : ∀ object, value ≠ .threaded object := fun object same => threaded ⟨object, same⟩
    refine .nowhere noObject ?_
    intro handle isStorage
    have dead := (regains.other noObject).2 handle isStorage
    rw [stage.grows.placeOf_eq begun (isStorage ▸ stored)] at dead
    exact Option.map_eq_none_iff.mp dead

/-- The thread is at a place that the walk comes to, and holds it at this address. -/
structure At (setting : Setting) (start : Walking (List Closure)) (root : Nat)
    (now : Walking (List Closure)) (place : Place) (address : Nat) : Prop where
  comes : Comes setting start root place
  located : relocate now.world.registry setting.thread place = .held address

theorem Stage.storageAt (stage : Stage setting start root done now)
    (atPlace : At setting start root now place address) {tsObj : Nat}
    (points : tsObjAt now.world.registry address = some tsObj) (key : Key) :
    start.world.storageAt place key = (start.world.props tsObj).hash.find key := by
  have sameTs := stage.grows.located_tsObj stage.ready.sound
    (stage.present place atPlace.comes) atPlace.located points
  unfold World.storageAt
  rw [sameTs]
  rfl

/-- What is in no local table now was in none at first. -/
theorem Stage.uncached (stage : Stage setting start root done now)
    (atPlace : At setting start root now place address)
    (uncached : now.world.cachedAt setting.thread (.held address) key = none) :
    start.world.cachedAt setting.thread place key = none := by
  have present := stage.present place atPlace.comes
  have located := atPlace.located
  cases place with
  | unheld tsObj => rfl
  | held other =>
    cases located
    by_contra isCached
    exact stage.grows.cached address key present isCached uncached

/-- A member that is in no local table is restored. -/
theorem restoreMember_stage (begun : WalkReady setting start)
    (stage : Stage setting start root done now)
    (atPlace : At setting start root now place address) {tsObj : Nat}
    (points : tsObjAt now.world.registry address = some tsObj)
    (stored : (start.world.props tsObj).hash.find key = some storage)
    (uncached : now.world.cachedAt setting.thread (.held address) key = none)
    (cacheable : storageIsCacheable storage = true) :
    ∃ restored value, restoreMember setting record now storage = some (restored, value) ∧
      Walked setting now restored ∧ Stage setting start root done restored ∧
      validLocalCacheItem value = true ∧
      (∀ closure owner, storage = .closure closure owner → closure ∈ restored.tables) ∧
      Leads setting start restored.world.registry storage value := by
  have storedNow : (now.world.props tsObj).hash.find key = some storage := by
    rw [stage.grows.props]
    exact stored
  obtain ⟨registry, value, restored, mine, isNew⟩ := restoreZval_ends stage.ready cacheable
    fun handle isHandle => stage.ready.settled tsObj key handle (isHandle ▸ storedNow)
  have regains := restoreZval_regains stage.ready.sound restored
  have leads := leads_of_regains begun stage stored regains mine
  by_cases isClosure : ∃ closure owner, storage = .closure closure owner
  · obtain ⟨closure, owner, rfl⟩ := isClosure
    have restores : Restores setting start root closure := by
      refine ⟨place, key, owner, atPlace.comes, ?_, stage.uncached atPlace uncached⟩
      rw [stage.storageAt atPlace points]
      exact stored
    obtain ⟨walked, stays⟩ := stage.unconnected
    cases restored
    refine ⟨_, _, congrArg some (if_pos (stage.ready.zobjs now.next (Nat.le_refl _))), ?_,
      stays.record restores, regains.valid, ?_, ?_⟩
    · exact ⟨{ walked.ready with }, { walked.grows with }, walked.flags, walked.measure⟩
    · rintro _ _ ⟨⟩
      exact List.mem_append_right _ (List.mem_singleton_self _)
    · dsimp only
      rw [withRegistry_registry]
      exact leads
  · have noClosure : copyStored record now.tables storage = some now.tables := by
      cases storage with
      | closure closure owner => exact absurd ⟨closure, owner, rfl⟩ isClosure
      | _ => rfl
    unfold restoreMember placeMember
    rw [noClosure, Option.bind_some, restored]
    rcases registry_eq_of_mine_next stage.ready isNew with
      ⟨rfl, absent⟩ | ⟨present, shared, connected⟩
    · obtain ⟨walked, stays⟩ := stage.unconnected
      refine ⟨_, value, congrArg some (if_pos absent), walked, stays, regains.valid,
        fun closure owner isStorage => absurd ⟨closure, owner, isStorage⟩ isClosure, ?_⟩
      rw [withRegistry_registry]
      exact leads
    · refine ⟨_, value, congrArg some (if_neg present), connected.walked stage.ready now.tables,
        stage.connect connected, regains.valid,
        fun closure owner isStorage => absurd ⟨closure, owner, isStorage⟩ isClosure, ?_⟩
      rw [connect_registry]
      exact leads

/-- The thread is at a place that the walk comes to, or the object is protected. -/
def Reached (setting : Setting) (start : Walking (List Closure)) (root : Nat)
    (now : Walking (List Closure)) (address : Nat) : Prop :=
  (∃ place, At setting start root now place address) ∨ now.isRecursive address = true

/-- What the walk does from an object, whatever it has left before. -/
def Leaves (setting : Setting) (start : Walking (List Closure)) (root address : Nat)
    (now after : Walking (List Closure)) : Prop :=
  Walked setting now after ∧ ∀ done, Stage setting start root done now →
    Reached setting start root now address →
      ∃ later, done ⊆ later ∧ Stage setting start root later after ∧ Handled later now address

/-- What is assumed of the calls that the walk makes while it works on an object. -/
def CallsLeave (setting : Setting) (start : Walking (List Closure)) (root : Nat)
    (recurse : Nat → Walking (List Closure) → Option (Walking (List Closure))) (bound : Nat) :
    Prop :=
  ∀ done inner now, Stage setting start root done now → Reached setting start root now inner →
    Mine setting.thread now.world.registry inner → now.measure setting.thread < bound →
      ∃ after, recurse inner now = some after ∧ Leaves setting start root inner now after

theorem Handled.mono {later : Set Nat} (handled : Handled done now address)
    (more : done ⊆ later) : Handled later now address :=
  handled.imp_left fun isIn => more isIn

/-- A walk that has ended has left the flags as they were. -/
theorem Handled.walked {after : Walking (List Closure)} (handled : Handled done now address)
    (walked : Walked setting now after) : Handled done after address :=
  handled.imp_right fun isProtected => walked.flags ▸ isProtected

/-- In the next step the thread is where it was. -/
theorem At.later {after : Walking (List Closure)}
    (atPlace : At setting start root now place address)
    (grows : Grows setting.thread now after) : At setting start root after place address :=
  ⟨atPlace.comes, grows.located atPlace.located⟩

theorem Stage.mine_of_at (stage : Stage setting start root done now)
    (atPlace : At setting start root now place address) :
    Mine setting.thread now.world.registry address :=
  stage.grows.mine_of_located stage.ready.sound (stage.present place atPlace.comes)
    atPlace.located

/-- The walk comes to the object that it has restored. -/
theorem reached_member {after : Walking (List Closure)} {tsObj handle object : Nat} {next : Place}
    (stage : Stage setting start root done now)
    (atPlace : At setting start root now place address)
    (points : tsObjAt now.world.registry address = some tsObj)
    (stored : (start.world.props tsObj).hash.find key = some (.pthreads handle))
    (uncached : now.world.cachedAt setting.thread (.held address) key = none)
    (walked : Walked setting now after)
    (leads : placeOf start.world.registry setting.thread handle = some next)
    (located : relocate after.world.registry setting.thread next = .held object) :
    Reached setting start root after object := by
  by_cases isProtected : next.isProtected start.isRecursive = true
  · right
    cases next with
    | unheld shared => cases isProtected
    | held other =>
      cases located
      rw [walked.flags]
      exact stage.flags object isProtected
  · left
    refine ⟨next, ?_, located⟩
    refine .member atPlace.comes ?_ (stage.uncached atPlace uncached) leads
      (Bool.not_eq_true _ ▸ isProtected)
    rw [stage.storageAt atPlace points]
    exact stored

/-- One member. -/
theorem syncMember_leaves {bound tsObj : Nat} (begun : WalkReady setting start)
    (calls : CallsLeave setting start root recurse bound)
    (stage : Stage setting start root done now)
    (atPlace : At setting start root now place address) (inSync : InSync now.world address)
    (below : now.measure setting.thread < bound)
    (points : tsObjAt now.world.registry address = some tsObj) {entry : Key × Storage}
    (stored : (start.world.props tsObj).hash.find entry.1 = some entry.2) :
    ∃ after later, syncMember setting record recurse address now entry = some after ∧
      Walked setting now after ∧ done ⊆ later ∧ Stage setting start root later after ∧
      (storageIsCacheable entry.2 = true →
        after.world.cachedAt setting.thread (.held address) entry.1 ≠ none) := by
  have inTable : now.world.cachedAt setting.thread (.held address) entry.1 =
      (now.world.connection setting.thread address).cached entry.1 := by
    rw [cachedAt_held points, syncLocalProperties_of_inSync (inSync tsObj points)]
  unfold syncMember
  split
  · next skipped =>
    refine ⟨now, done, rfl, stage.ready.refl, Set.Subset.refl _, stage, ?_⟩
    intro cacheable
    rw [inTable]
    exact Option.isSome_iff_ne_none.mp (skipped.resolve_right fun other => other cacheable)
  · next missing =>
    obtain ⟨uncached, cacheable⟩ := not_or.mp missing
    have uncached : now.world.cachedAt setting.thread (.held address) entry.1 = none := by
      rw [inTable]
      exact Option.not_isSome_iff_eq_none.mp uncached
    have cacheable : storageIsCacheable entry.2 = true := not_not.mp cacheable
    obtain ⟨restored, value, restores, walked, stageRestored, valid, recorded, leads⟩ :=
      restoreMember_stage begun stage atPlace points stored uncached cacheable
    -- the recursion, if the value is an object
    have deeper : ∃ after later, descendInto recurse restored value = some after ∧
        Walked setting restored after ∧ done ⊆ later ∧ Stage setting start root later after ∧
        (∀ object, value = .threaded object →
          Mine setting.thread after.world.registry object) ∧
        (∀ closure owner, entry.2 = .closure closure owner → closure ∈ after.tables) ∧
        ∀ handle next, entry.2 = .pthreads handle →
          placeOf start.world.registry setting.thread handle = some next →
            ∃ object, relocate after.world.registry setting.thread next = .held object ∧
              Handled later after object := by
      cases leads with
      | nowhere noObject dead =>
        have stops : descendInto recurse restored value = some restored := by
          cases value with
          | threaded object => exact absurd rfl (noObject object)
          | _ => rfl
        refine ⟨restored, done, stops, stageRestored.ready.refl, Set.Subset.refl _, stageRestored,
          fun object isObject => absurd isObject (noObject object), recorded, ?_⟩
        intro handle next isHandle isNext
        rw [dead handle isHandle] at isNext
        cases isNext
      | @object handle object next isValue isStorage isNext located mine =>
        subst isValue
        have reached := reached_member stage atPlace points (isStorage ▸ stored) uncached walked
          isNext located
        obtain ⟨after, recursed, walkedDeeper, leaves⟩ := calls done object restored stageRestored
          reached mine (Nat.lt_of_le_of_lt walked.measure below)
        obtain ⟨later, more, stageAfter, handled⟩ := leaves done stageRestored reached
        refine ⟨after, later, recursed, walkedDeeper, more, stageAfter, ?_, ?_, ?_⟩
        · rintro _ ⟨⟩
          exact walkedDeeper.grows.mine mine
        · intro closure owner isClosure
          cases isStorage.symm.trans isClosure
        · intro other otherNext isOther isOtherNext
          cases isStorage.symm.trans isOther
          cases Option.some.inj (isNext.symm.trans isOtherNext)
          exact ⟨object, walkedDeeper.grows.located located, handled.walked walkedDeeper⟩
    obtain ⟨after, later, recursed, walkedDeeper, more, stageAfter, known, copied, led⟩ := deeper
    have whole := walked.trans walkedDeeper
    have atAfter := atPlace.later whole.grows
    have pointsAfter := whole.grows.tsObjAt points
    have mineAfter := stageAfter.mine_of_at atAfter
    have inSyncAfter := whole.grows.inSync address (stage.mine_of_at atPlace) inSync
    have isStorage := stageAfter.storageAt atAfter pointsAfter entry.1
    refine ⟨{ after with world := after.world.cache address entry.1 value }, later, ?_, ?_, more,
      ?_, ?_⟩
    · rw [restores]
      show (descendInto recurse restored value).map _ = _
      rw [recursed]
      rfl
    · exact whole.trans ((retables_cache stageAfter.ready.sane mineAfter inSyncAfter valid
        known).walked stageAfter.ready after.tables)
    · apply stageAfter.cache inSyncAfter atAfter.comes atAfter.located valid known
      · intro closure owner isClosure
        rw [isStorage, stored] at isClosure
        exact copied closure owner (Option.some.inj isClosure)
      · intro handle next isHandle isNext
        rw [isStorage, stored] at isHandle
        exact led handle next (Option.some.inj isHandle) isNext
    · intro _
      rw [cachedAt_cache mineAfter inSyncAfter valid, if_pos ⟨rfl, rfl⟩]
      exact Option.some_ne_none value

/-- The object at work comes to the protected ones. -/
theorem protect_measure (ready : WalkReady setting now)
    (mine : Mine setting.thread now.world.registry address)
    (unprotected : now.isRecursive address = false) :
    (now.protect address).measure setting.thread < now.measure setting.thread := by
  obtain ⟨zobj, found, -⟩ := id mine
  have below := ready.lt_next found
  have isIn : address ∈ now.unprotected setting.thread :=
    Finset.mem_filter.mpr ⟨Finset.mem_range.mpr below, isMine_iff.mpr mine, unprotected⟩
  have subset : (now.protect address).unprotected setting.thread ⊆
      (now.unprotected setting.thread).erase address := by
    intro other isOther
    obtain ⟨inRange, isMine, flag⟩ := Finset.mem_filter.mp isOther
    unfold Walking.protect at flag
    have different : other ≠ address := by
      rintro rfl
      dsimp only at flag
      rw [Function.update_self] at flag
      cases flag
    dsimp only at flag
    rw [Function.update_of_ne different] at flag
    exact Finset.mem_erase.mpr ⟨different, Finset.mem_filter.mpr ⟨inRange, isMine, flag⟩⟩
  have less := Finset.card_le_card subset
  have erased := Finset.card_erase_add_one isIn
  have same : (now.protect address).unresolved setting.thread =
    now.unresolved setting.thread := rfl
  unfold Walking.measure
  rw [same]
  omega

/-- The object at work is no longer protected, as it was found. -/
theorem unprotect_walked {after : Walking (List Closure)}
    (unprotected : now.isRecursive address = false)
    (less : (now.protect address).measure setting.thread < now.measure setting.thread)
    (walked : Walked setting (now.protect address) after) :
    Walked setting now (after.unprotect address) := by
  have flags : (after.unprotect address).isRecursive = now.isRecursive := by
    unfold Walking.unprotect
    dsimp only
    rw [walked.flags, Walking.protect, Function.update_idem, ← unprotected]
    exact Function.update_eq_self _ _
  refine ⟨{ walked.ready with flags := ?_ }, { walked.grows with }, flags, ?_⟩
  · intro other above
    show Function.update after.isRecursive address false other = false
    by_cases same : other = address
    · rw [same, Function.update_self]
    · rw [Function.update_of_ne same]
      exact walked.ready.flags other above
  · have subset : (after.unprotect address).unprotected setting.thread ⊆
        insert address (after.unprotected setting.thread) := by
      intro other isOther
      obtain ⟨inRange, isMine, flag⟩ := Finset.mem_filter.mp isOther
      rw [Finset.mem_insert]
      by_cases same : other = address
      · exact Or.inl same
      · unfold Walking.unprotect at flag
        dsimp only at flag
        rw [Function.update_of_ne same] at flag
        exact Or.inr (Finset.mem_filter.mpr ⟨inRange, isMine, flag⟩)
    have more := (Finset.card_le_card subset).trans (Finset.card_insert_le _ _)
    have bound := walked.measure
    have same : (after.unprotect address).unresolved setting.thread =
      after.unresolved setting.thread := rfl
    unfold Walking.measure at *
    rw [same]
    omega


/-- The object at work is left. -/
theorem Stage.leave {after : Walking (List Closure)} (stage : Stage setting start root done after)
    (mine : Mine setting.thread after.world.registry address)
    (unprotected : start.isRecursive address = false)
    (filled : ∀ tsObj key storage, tsObjAt after.world.registry address = some tsObj →
      (start.world.props tsObj).hash.find key = some storage → storageIsCacheable storage = true →
        after.world.cachedAt setting.thread (.held address) key ≠ none)
    (queued : ∀ task ∈ setting.tasks address, Handled done after task) :
    Stage setting start root (insert address done) (after.unprotect address) := by
  have handled : ∀ other, Handled done after other →
      Handled (insert address done) (after.unprotect address) other := by
    rintro other (isIn | isProtected)
    · exact Or.inl (Set.mem_insert_of_mem _ isIn)
    · by_cases same : other = address
      · exact Or.inl (same ▸ Set.mem_insert _ _)
      · right
        unfold Walking.unprotect
        dsimp only
        rw [Function.update_of_ne same]
        exact isProtected
  have flags : ∀ other, start.isRecursive other = true →
      (after.unprotect address).isRecursive other = true := by
    intro other isProtected
    have different : other ≠ address := by
      rintro rfl
      rw [unprotected] at isProtected
      cases isProtected
    unfold Walking.unprotect
    dsimp only
    rw [Function.update_of_ne different]
    exact stage.flags other isProtected
  have same : ∀ place other key,
      Added setting start root (after.unprotect address) place other key →
      Added setting start root after place other key :=
    fun place other key added => ⟨added.comes, added.located, added.uncached, added.cached⟩
  refine ⟨{ stage.ready with flags := ?_ }, { stage.grows with }, stage.present, flags,
    stage.copied,
    ?_, ?_, ?_, ?_, ?_⟩
  · intro other above
    show Function.update after.isRecursive address false other = false
    by_cases same : other = address
    · rw [same, Function.update_self]
    · rw [Function.update_of_ne same]
      exact stage.ready.flags other above
  · exact fun place other key closure owner added =>
      stage.recorded place other key closure owner (same place other key added)
  · intro place other key handle next added stored leads
    obtain ⟨object, located, isHandled⟩ :=
      stage.led place other key handle next (same place other key added) stored leads
    exact ⟨object, located, handled object isHandled⟩
  · rintro other (rfl | isIn)
    · exact mine
    · exact stage.mine other isIn
  · rintro other (rfl | isIn)
    · exact filled
    · exact stage.filled other isIn
  · rintro other (rfl | isIn) task isQueued
    · exact handled task (queued task isQueued)
    · exact handled task (stage.queued other isIn task isQueued)

/-- The loop over the members has come to this point and has synced these. -/
def Synced (setting : Setting) (start : Walking (List Closure)) (root : Nat) (done : Set Nat)
    (now : Walking (List Closure)) (address : Nat) (entries : List (Key × Storage))
    (current : Walking (List Closure)) : Prop :=
  Walked setting now current ∧
    (∃ later, done ⊆ later ∧ Stage setting start root later current) ∧
      ∀ entry ∈ entries, storageIsCacheable entry.2 = true →
        current.world.cachedAt setting.thread (.held address) entry.1 ≠ none

/-- The members of the object at work. -/
theorem syncMembers_leaves {bound tsObj : Nat} (begun : WalkReady setting start)
    (calls : CallsLeave setting start root recurse bound)
    (stage : Stage setting start root done now)
    (atPlace : At setting start root now place address) (inSync : InSync now.world address)
    (below : now.measure setting.thread < bound)
    (points : tsObjAt now.world.registry address = some tsObj)
    {entries : List (Key × Storage)}
    (stored : ∀ entry ∈ entries, (start.world.props tsObj).hash.find entry.1 = some entry.2) :
    ∃ after, entries.foldlM (syncMember setting record recurse address) now = some after ∧
      Synced setting start root done now address entries after := by
  have mine := stage.mine_of_at atPlace
  have step : ∀ visited, ∀ entry ∈ entries, ∀ current,
      Synced setting start root done now address visited current →
        ∃ after, syncMember setting record recurse address current entry = some after ∧
          Synced setting start root done now address (visited ++ [entry]) after := by
    rintro visited entry isIn current ⟨walked, ⟨later, more, stageNow⟩, filled⟩
    obtain ⟨after, further, synced, walkedNext, evenMore, stageAfter, isFilled⟩ :=
      syncMember_leaves begun calls stageNow (atPlace.later walked.grows)
        (walked.grows.inSync address mine inSync) (Nat.lt_of_le_of_lt walked.measure below)
        (walked.grows.tsObjAt points) (stored entry isIn)
    refine ⟨after, synced, walked.trans walkedNext, ⟨further, more.trans evenMore, stageAfter⟩, ?_⟩
    intro other isVisited cacheable
    rcases List.mem_append.mp isVisited with earlier | isNow
    · exact walkedNext.grows.cached address other.1 (walked.grows.mine mine)
        (filled other earlier cacheable)
    · cases List.mem_singleton.mp isNow
      exact isFilled cacheable
  exact foldlM_total_prefix step ⟨stage.ready.refl, ⟨done, Set.Subset.refl _, stage⟩,
    fun entry isIn => absurd isIn List.not_mem_nil⟩

/-- The loop over the tasks has come to this point and has visited these. -/
def Visits (setting : Setting) (start : Walking (List Closure)) (root : Nat) (done : Set Nat)
    (now : Walking (List Closure)) (tasks : List Nat) (current : Walking (List Closure)) : Prop :=
  Walked setting now current ∧
    ∃ later, done ⊆ later ∧ Stage setting start root later current ∧
      ∀ task ∈ tasks, Handled later current task

/-- The tasks of the object at work. -/
theorem syncTasks_leaves {bound : Nat} (calls : CallsLeave setting start root recurse bound)
    (stage : Stage setting start root done now) (below : now.measure setting.thread < bound)
    {tasks : List Nat} (reached : ∀ after, Walked setting now after → ∀ task ∈ tasks,
      Reached setting start root after task)
    (mine : ∀ task ∈ tasks, Mine setting.thread now.world.registry task) :
    ∃ after, tasks.foldlM (fun state task => recurse task state) now = some after ∧
      Visits setting start root done now tasks after := by
  have step : ∀ visited, ∀ task ∈ tasks, ∀ current,
      Visits setting start root done now visited current →
        ∃ after, recurse task current = some after ∧
          Visits setting start root done now (visited ++ [task]) after := by
    rintro visited task isIn current ⟨walked, later, more, stageNow, handled⟩
    have comesTo := reached current walked task isIn
    obtain ⟨after, visits, walkedNext, leaves⟩ := calls later task current stageNow comesTo
      (walked.grows.mine (mine task isIn)) (Nat.lt_of_le_of_lt walked.measure below)
    obtain ⟨further, evenMore, stageAfter, isHandled⟩ := leaves later stageNow comesTo
    refine ⟨after, visits, walked.trans walkedNext, further, more.trans evenMore, stageAfter, ?_⟩
    intro other isVisited
    rcases List.mem_append.mp isVisited with earlier | isNow
    · exact ((handled other earlier).mono evenMore).walked walkedNext
    · cases List.mem_singleton.mp isNow
      exact isHandled.walked walkedNext
  exact foldlM_total_prefix step ⟨stage.ready.refl, done, Set.Subset.refl _, stage,
    fun task isIn => absurd isIn List.not_mem_nil⟩

/-- The body, for an object that is not protected. -/
theorem fullSyncBody_leaves (begun : WalkReady setting start)
    (calls : CallsLeave setting start root recurse (now.measure setting.thread))
    (stage : Stage setting start root done now)
    (atPlace : At setting start root now place address)
    (unprotected : now.isRecursive address = false) :
    ∃ after later, fullSyncBody setting record recurse address now = some after ∧
      Walked setting now after ∧ done ⊆ later ∧ Stage setting start root later after ∧
      address ∈ later := by
  have mine := stage.mine_of_at atPlace
  obtain ⟨tsObj, points⟩ := mine.tsObjAt
  have less := protect_measure stage.ready mine unprotected
  have entered := enter_walked stage.ready mine points
  have stageEntered := stage.enter mine points
  have atEntered : At setting start root (now.enter setting address tsObj) place address :=
    ⟨atPlace.comes, atPlace.located⟩
  have inSync : InSync (now.enter setting address tsObj).world address :=
    (progress_open stage.ready.sane mine points (Set.notMem_empty address)
      (setting.declared tsObj)).inSync address rfl
  have pointsEntered : tsObjAt (now.enter setting address tsObj).world.registry address =
      some tsObj := points
  have stored : ∀ entry ∈ (now.world.props tsObj).hash.table.entries,
      (start.world.props tsObj).hash.find entry.1 = some entry.2 := by
    intro entry isIn
    rw [← stage.grows.props]
    exact OrderedTable.find_eq_some_iff.mpr isIn
  obtain ⟨filled, members, walkedFilled, ⟨first, moreFirst, stageFilled⟩, cached⟩ :=
    syncMembers_leaves begun calls stageEntered atEntered inSync
      (Nat.lt_of_le_of_lt entered.measure less) pointsEntered stored
  have whole := entered.trans walkedFilled
  -- a worker that has tasks was there when the walk began
  have reached : ∀ after, Walked setting filled after → ∀ task ∈ setting.tasks address,
      Reached setting start root after task := by
    intro after walked task queued
    by_cases isProtected : start.isRecursive task = true
    · right
      rw [walked.flags]
      exact stageFilled.flags task isProtected
    · left
      obtain ⟨wasMine, -⟩ := begun.queues address task queued
      have isPlace : place = .held address := stage.grows.place_unique stage.ready.sound
        (stage.present place atPlace.comes) wasMine atPlace.located rfl
      refine ⟨.held task, .task (isPlace ▸ atPlace.comes) queued ?_, rfl⟩
      exact Bool.not_eq_true _ ▸ isProtected
  obtain ⟨visited, tasks, walkedVisited, later, moreLater, stageVisited, handled⟩ :=
    syncTasks_leaves calls stageFilled (Nat.lt_of_le_of_lt whole.measure less) reached
      fun task queued => (stageFilled.ready.queues address task queued).2
  have all := whole.trans walkedVisited
  have mineVisited : Mine setting.thread _ address := all.grows.mine mine
  refine ⟨visited.unprotect address, insert address later, ?_,
    unprotect_walked unprotected less all,
    ?_, stageVisited.leave mineVisited ?_ ?_ handled, Set.mem_insert _ _⟩
  · unfold fullSyncBody
    rw [unprotected, points]
    show (List.foldlM (syncMember setting record recurse address) _ _).bind _ = _
    rw [members]
    show (List.foldlM (fun state task => recurse task state) _ _).bind _ = _
    rw [tasks]
    rfl
  · exact (moreFirst.trans moreLater).trans (Set.subset_insert _ _)
  · by_contra isProtected
    rw [stage.flags address (by simpa using isProtected)] at unprotected
    cases unprotected
  · intro sameTs key storage pointed isStored cacheable
    cases Option.some.inj (pointed.symm.trans (all.grows.tsObjAt points))
    have isIn : (key, storage) ∈ (now.world.props tsObj).hash.table.entries := by
      rw [← stage.grows.props] at isStored
      exact OrderedTable.find_eq_some_iff.mp isStored
    exact walkedVisited.grows.cached address key (whole.grows.mine mine)
      (cached (key, storage) isIn cacheable)

/-- From a point of the walk it ends with enough fuel. -/
theorem fullSyncLocalProperties_leaves {fuel : Nat} (begun : WalkReady setting start)
    (stage : Stage setting start root done now) (reached : Reached setting start root now address)
    (mine : Mine setting.thread now.world.registry address)
    (enough : now.measure setting.thread < fuel) :
    ∃ after, fullSyncLocalProperties setting record fuel address now = some after ∧
      Leaves setting start root address now after := by
  have unfolds : ∀ fuel, fullSyncLocalProperties setting record (fuel + 1) =
      fullSyncBody setting record (fullSyncLocalProperties setting record fuel) := fun _ => rfl
  refine run_ends unfolds (fun _ now => now.measure setting.thread)
    (fun address now => (∃ done, Stage setting start root done now) ∧
      Reached setting start root now address ∧ Mine setting.thread now.world.registry address)
    (Leaves setting start root) ?_ ⟨⟨done, stage⟩, reached, mine⟩ enough
  rintro recurse address now ⟨⟨done, stage⟩, reached, mine⟩ ends
  have calls : CallsLeave setting start root recurse (now.measure setting.thread) :=
    fun done inner later stage reached mine less =>
      ends inner later ⟨⟨done, stage⟩, reached, mine⟩ less
  by_cases isProtected : now.isRecursive address = true
  · refine ⟨now, if_pos isProtected, stage.ready.refl, ?_⟩
    intro other stageOther _
    exact ⟨other, Set.Subset.refl _, stageOther, Or.inr isProtected⟩
  · have unprotected : now.isRecursive address = false := by simpa using isProtected
    have leaves : ∀ done, Stage setting start root done now →
        ∃ after later, fullSyncBody setting record recurse address now = some after ∧
          Walked setting now after ∧ done ⊆ later ∧ Stage setting start root later after ∧
          address ∈ later := by
      intro done stage
      obtain ⟨place, atPlace⟩ := reached.resolve_right isProtected
      exact fullSyncBody_leaves begun calls stage atPlace unprotected
    obtain ⟨after, -, ended, walked, -⟩ := leaves done stage
    refine ⟨after, ended, walked, ?_⟩
    intro other stageOther _
    obtain ⟨same, later, endedSame, -, more, stageAfter, isIn⟩ := leaves other stageOther
    cases Option.some.inj (ended.symm.trans endedSame)
    exact ⟨later, more, stageAfter, Or.inl isIn⟩

end Recursion

section Recording

variable {setting : Setting} {start after : Walking (List Closure)} {root : Nat} {done : Set Nat}

/-- When the walk has ended it has left whatever it comes to. -/
theorem Stage.covers (begun : WalkReady setting start) (stage : Stage setting start root done after)
    (flags : after.isRecursive = start.isRecursive)
    (isRoot : start.isRecursive root = false → root ∈ done) {place : Place}
    (comes : Comes setting start root place) :
    ∃ address ∈ done, At setting start root after place address := by
  -- what is not protected and has been handled has been left
  have settled : ∀ {next : Place} {object : Nat}, Comes setting start root next →
      next.isProtected start.isRecursive = false →
      relocate after.world.registry setting.thread next = .held object →
      Handled done after object → object ∈ done := by
    intro next object comesNext unprotected located handled
    apply handled.resolve_right
    rw [flags]
    intro isProtected
    cases next with
    | held other =>
      cases located
      rw [show start.isRecursive object = false from unprotected] at isProtected
      cases isProtected
    | unheld tsObj =>
      have mine := stage.mine_of_at ⟨comesNext, located⟩
      have absent := stage.present _ comesNext
      rw [relocate_unheld_iff] at located
      rcases stage.grows.arrived tsObj object located with earlier | missing
      · rw [show start.world.registry.resolve setting.thread tsObj = none from absent] at earlier
        cases earlier
      · have new : start.next ≤ object := by
          by_contra below
          exact mine.ne_none (stage.grows.absent object (Nat.not_le.mp below) missing)
        rw [begun.flags object new] at isProtected
        cases isProtected
  induction comes with
  | root unprotected => exact ⟨root, isRoot unprotected, .root unprotected, rfl⟩
  | @member place next key handle before stored uncached leads unprotected ih =>
    obtain ⟨address, isIn, atPlace⟩ := ih
    obtain ⟨tsObj, points⟩ := (stage.mine address isIn).tsObjAt
    have isStored := stored
    rw [stage.storageAt atPlace points] at isStored
    have cached := stage.filled address isIn tsObj key (.pthreads handle) points isStored rfl
    have added : Added setting start root after place address key :=
      ⟨atPlace.comes, atPlace.located, uncached, cached⟩
    obtain ⟨object, located, handled⟩ := stage.led place address key handle next added stored leads
    have comesNext : Comes setting start root next :=
      .member before stored uncached leads unprotected
    exact ⟨object, settled comesNext unprotected located handled, comesNext, located⟩
  | @task address task before queued unprotected ih =>
    obtain ⟨other, isIn, atPlace⟩ := ih
    cases atPlace.located
    have comesTask : Comes setting start root (.held task) := .task before queued unprotected
    have handled := stage.queued address isIn task queued
    exact ⟨task, settled comesTask unprotected rfl handled, comesTask, rfl⟩

/-- The walk would end if every copying did, and it copies the closures of the members
that it has to restore. -/
theorem record_ends (begun : WalkReady setting start) (empty : start.tables = [])
    (mine : Mine setting.thread start.world.registry root) {fuel : Nat}
    (enough : start.measure setting.thread < fuel) :
    ∃ after, fullSyncLocalProperties setting record fuel root start = some after ∧
      after.isRecursive = start.isRecursive ∧
      ∀ closure, closure ∈ after.tables ↔ Restores setting start root closure := by
  have stage := stage_start begun empty mine
  have reached : Reached setting start root start root := by
    by_cases isProtected : start.isRecursive root = true
    · exact Or.inr isProtected
    · exact Or.inl ⟨.held root, .root (Bool.not_eq_true _ ▸ isProtected), rfl⟩
  obtain ⟨after, ended, walked, leaves⟩ :=
    fullSyncLocalProperties_leaves begun stage reached mine enough
  obtain ⟨done, -, stageAfter, handled⟩ := leaves ∅ stage reached
  refine ⟨after, ended, walked.flags, fun closure => ⟨stageAfter.copied closure, ?_⟩⟩
  rintro ⟨place, key, owner, comes, stored, uncached⟩
  have isRoot : start.isRecursive root = false → root ∈ done := by
    intro unprotected
    apply handled.resolve_right
    rw [unprotected]
    exact Bool.false_ne_true
  obtain ⟨address, isIn, atPlace⟩ := stageAfter.covers begun walked.flags isRoot comes
  obtain ⟨tsObj, points⟩ := (stageAfter.mine address isIn).tsObjAt
  have isStored := stored
  rw [stageAfter.storageAt atPlace points] at isStored
  have cached := stageAfter.filled address isIn tsObj key _ points isStored rfl
  exact stageAfter.recorded place address key closure owner
    ⟨comes, atPlace.located, uncached, cached⟩ stored

end Recording

end Pthreads.ObjectGraph
