import Pthreads.GraphTraversal

/-!
# What outlives the child

After the creator has walked the graph, the child destroys its objects.  A read
of the creator then still finds a member in a table that is in sync, and it finds
every member whose original was not the child's.
-/

namespace Pthreads.ObjectGraph

open GuardedRuns
open ObjectRegistry (Registry ZendObject Sound baseFree_eq baseFree_sound Available)
open Store

/-- A path of keys along which the thread is led to these shared objects. -/
def Chain (thread : Nat) (world : World) : Place → List (KeyZval × Nat) → Prop
  | _, [] => True
  | place, (key, tsObj) :: rest =>
      ∃ next, world.answer thread place (coerce key) = some next ∧
        next.tsObj world.registry = some tsObj ∧ Chain thread world next rest

theorem Follows.chain {thread : Nat} {world after : World} (sane : Sane thread world)
    (follows : Follows thread world after) {place : Place} {trail : List (KeyZval × Nat)}
    (present : Present thread world.registry place) (chain : Chain thread world place trail) :
    Chain thread after (relocate after.registry thread place) trail := by
  induction trail generalizing place with
  | nil => trivial
  | cons step rest ih =>
      obtain ⟨next, answers, points, chain⟩ := chain
      exact ⟨_, follows.answers place _ next present answers, follows.place_tsObj points,
        ih (sane.present_of_answer present answers) chain⟩

/-- What the destruction of a thread's objects leaves alone. -/
structure Outlives (child : Nat) (world after : World) : Prop where
  sound : Sound after.registry
  kept : ∀ address zobj, world.registry.zobjs address = some zobj → zobj.owner ≠ some child →
    after.registry.zobjs address = some zobj
  remaining : ∀ address zobj, after.registry.zobjs address = some zobj →
    world.registry.zobjs address = some zobj
  resolve : ∀ thread tsObj, thread ≠ child →
    after.registry.resolve thread tsObj = world.registry.resolve thread tsObj
  locals : after.locals = world.locals
  props : ∀ tsObj address, tsObjAt after.registry address = some tsObj →
    (after.props tsObj).modcount = (world.props tsObj).modcount ∧
      ∀ key handle, (world.props tsObj).hash.find key = some (.pthreads handle) →
        (after.props tsObj).hash.find key = some (.pthreads handle)

theorem Outlives.refl {child : Nat} {world : World} (sound : Sound world.registry) :
    Outlives child world world :=
  ⟨sound, fun _ _ found _ => found, fun _ _ found => found, fun _ _ _ => rfl, rfl,
    fun _ _ _ => ⟨rfl, fun _ _ stored => stored⟩⟩

theorem Outlives.tsObjAt {child address tsObj : Nat} {world after : World}
    (outlives : Outlives child world after)
    (points : tsObjAt after.registry address = some tsObj) :
    tsObjAt world.registry address = some tsObj := by
  obtain ⟨zobj, found, isTs⟩ := Option.bind_eq_some_iff.mp points
  simp [Store.tsObjAt, outlives.remaining address zobj found, isTs]

theorem Outlives.trans {child : Nat} {world middle after : World}
    (first : Outlives child world middle) (second : Outlives child middle after) :
    Outlives child world after := by
  refine ⟨second.sound, ?_, ?_, ?_, second.locals.trans first.locals, ?_⟩
  · intro address zobj found foreign
    exact second.kept address zobj (first.kept address zobj found foreign) foreign
  · intro address zobj found
    exact first.remaining address zobj (second.remaining address zobj found)
  · intro thread tsObj different
    rw [second.resolve thread tsObj different, first.resolve thread tsObj different]
  · intro tsObj address points
    obtain ⟨laterCount, laterStored⟩ := second.props tsObj address points
    obtain ⟨count, stored⟩ := first.props tsObj address (second.tsObjAt points)
    exact ⟨laterCount.trans count, fun key handle isStored =>
      laterStored key handle (stored key handle isStored)⟩

/-- The child frees one object. -/
theorem free_outlives {child address : Nat} {pointers : Key → Nat} {world after : World}
    (sound : Sound world.registry) (freed : world.free child address pointers = some after) :
    Outlives child world after := by
  simp only [World.free, Option.bind_eq_bind, Option.bind_eq_some_iff] at freed
  obtain ⟨own, ownTs, registry, isFreed, ⟨⟩⟩ := freed
  have soundAfter := baseFree_sound sound isFreed
  obtain ⟨zobj, tsObj, shared, found, points, owned, isShared, isAfter⟩ := baseFree_eq isFreed
  have zobjs : registry.zobjs = Function.update world.registry.zobjs address none := by
    rw [isAfter]
  refine ⟨soundAfter, ?_, ?_, ?_, rfl, ?_⟩
  · intro other otherZobj isThere foreign
    have different : other ≠ address := by
      rintro rfl
      cases Option.some.inj (found.symm.trans isThere)
      exact foreign owned
    simp [zobjs, different, isThere]
  · intro other otherZobj isThere
    have different : other ≠ address := by
      rintro rfl
      simp [zobjs] at isThere
    simpa [zobjs, different] using isThere
  · intro thread other different
    simp only [isAfter]
    split
    · simp [different]
    · rfl
  · intro other survivor pointed
    by_cases same : other = own
    · subst same
      obtain ⟨survivorZobj, isThere, isTs⟩ := Option.bind_eq_some_iff.mp pointed
      obtain ⟨live, isLive⟩ := soundAfter.tsObj_live isThere isTs
      have notLast : (registry.tsObjs other).isSome := by simp [isLive]
      simp only [Function.update_self, if_pos notLast]
      refine ⟨rfl, ?_⟩
      intro key handle stored
      rw [persistLocalProperties_find, stored]
      rfl
    · simp [same]

theorem outlives_of_destroys {child : Nat} {world after : World}
    (sound : Sound world.registry)
    (destroyed : Reaches (destroyStep child) anyAction world after) :
    Outlives child world after := by
  induction destroyed with
  | refl => exact Outlives.refl sound
  | tail _ moved ih =>
      obtain ⟨object, -, freed⟩ := moved
      exact ih.trans (free_outlives ih.sound freed)

section Destruction

variable {thread child : Nat} {world after : World}

theorem Outlives.mine (outlives : Outlives child world after) (different : thread ≠ child)
    {address : Nat} (mine : Mine thread world.registry address) :
    after.registry.zobjs address = world.registry.zobjs address ∧
      Mine thread after.registry address := by
  obtain ⟨zobj, found, owned, constructed⟩ := mine
  have isThere := outlives.kept address zobj found (by simpa [owned] using different)
  exact ⟨isThere.trans found.symm, zobj, isThere, owned, constructed⟩

theorem Outlives.sane (outlives : Outlives child world after) (different : thread ≠ child)
    (sane : Sane thread world) : Sane thread after := by
  refine ⟨outlives.sound, ?_⟩
  rintro address table key object ⟨zobj, found, facts⟩ isTable isThere
  rw [outlives.locals] at isTable
  exact (outlives.mine different (sane.holds address table key object
    ⟨zobj, outlives.remaining address zobj found, facts⟩ isTable isThere)).2

/-- The creator's own table has the member and is in sync, or the original of the
member is not the child's. -/
def Endures (thread child : Nat) (world : World) (place : Place) (key : Key) : Prop :=
  (∃ address value, place = .held address ∧ Firm thread world address key value) ∨
    ∃ handle zobj, world.storageAt place key = some (.pthreads handle) ∧
      world.registry.zobjs handle = some zobj ∧ zobj.owner ≠ some child

/-- There is an object attached to the shared object of the place. -/
def Living (registry : Registry) (place : Place) : Prop :=
  ∃ address, tsObjAt registry address = place.tsObj registry ∧
    (tsObjAt registry address).isSome

theorem Living.of_mine {registry : Registry} {address : Nat} (mine : Mine thread registry address) :
    Living registry (.held address) := by
  obtain ⟨tsObj, points⟩ := mine.tsObjAt
  exact ⟨address, rfl, by simp [points]⟩

/-- A handle whose object stays leads where it led. -/
theorem Outlives.placeOf (outlives : Outlives child world after) (different : thread ≠ child)
    {handle : Nat} {zobj : ZendObject} {place : Place}
    (found : world.registry.zobjs handle = some zobj) (foreign : zobj.owner ≠ some child)
    (leads : placeOf world.registry thread handle = some place) :
    placeOf after.registry thread handle = some place := by
  rw [← leads]
  simp only [ObjectGraph.placeOf, outlives.kept handle zobj found foreign, found,
    outlives.resolve thread _ different]

/-- A member that endures is found after the destruction. -/
theorem Outlives.answer (outlives : Outlives child world after) (different : thread ≠ child)
    (sane : Sane thread world) {place next : Place} {key : Key}
    (present : Present thread world.registry place) (living : Living after.registry place)
    (endures : Endures thread child world place key)
    (answers : world.answer thread place key = some next) :
    after.answer thread place key = some next ∧ Living after.registry next := by
  obtain ⟨survivor, sameTs, constructed⟩ := living
  obtain ⟨tsObj, pointed⟩ := Option.isSome_iff_exists.mp constructed
  have pointsAfter : place.tsObj after.registry = some tsObj := sameTs.symm.trans pointed
  have points : place.tsObj world.registry = some tsObj := by
    cases place with
    | held address => exact outlives.tsObjAt pointsAfter
    | unheld other => exact pointsAfter
  obtain ⟨sameCount, storedAfter⟩ := outlives.props tsObj survivor pointed
  have sameCached : after.cachedAt thread place key = world.cachedAt thread place key := by
    cases place with
    | unheld other => rfl
    | held address =>
        apply cachedAt_congr_handle sane.sound outlives.sound points pointsAfter
          (by rw [outlives.locals]) sameCount
        · rcases endures with ⟨_, value, ⟨⟩, firm⟩ | ⟨handle, zobj, stored, found, foreign⟩
          · exact Or.inl (firm.inSync tsObj points)
          · simp only [World.storageAt, points, Option.bind_some] at stored
            exact Or.inr ⟨handle, stored, storedAfter key handle stored,
              (outlives.kept handle zobj found foreign).trans found.symm⟩
        · intro object cached
          obtain ⟨table, isTable, isThere⟩ := cached_mem cached
          exact (outlives.mine different
            (sane.holds address table key object present isTable isThere)).1
  rcases answer_cases answers with ⟨object, cached, rfl⟩ | ⟨uncached, handle, stored, leads⟩
  · cases place with
    | unheld other => cases cached
    | held address =>
        have mine := (outlives.mine different (sane.mine_of_cachedAt present cached)).2
        exact ⟨answer_of_cached (sameCached.trans cached), Living.of_mine mine⟩
  · rcases endures with ⟨address, value, rfl, firm⟩ | ⟨_, zobj, sameStored, found, foreign⟩
    · rw [firm.cachedAt present] at uncached
      cases uncached
    · cases Option.some.inj (stored.symm.trans sameStored)
      have leadsAfter := outlives.placeOf different found foreign leads
      have isStored : after.storageAt place key = some (.pthreads handle) := by
        simp only [World.storageAt, points, pointsAfter, Option.bind_some] at stored ⊢
        exact storedAfter key handle stored
      refine ⟨(answer_of_uncached (sameCached.trans uncached) isStored).trans leadsAfter, handle,
        (placeOf_present outlives.sound leadsAfter).2.symm, ?_⟩
      obtain ⟨same, ts, isThere, isTs, -⟩ := placeOf_cases leadsAfter
      simp [Store.tsObjAt, isThere, isTs]

/-- A path all of whose members endure. -/
def EnduringChain (thread child : Nat) (world : World) : Place → List (KeyZval × Nat) → Prop
  | _, [] => True
  | place, (key, tsObj) :: rest =>
      ∃ next, world.answer thread place (coerce key) = some next ∧
        next.tsObj world.registry = some tsObj ∧
        Endures thread child world place (coerce key) ∧
        EnduringChain thread child world next rest

theorem Outlives.chain (outlives : Outlives child world after) (different : thread ≠ child)
    (sane : Sane thread world) {place : Place} {trail : List (KeyZval × Nat)}
    (present : Present thread world.registry place) (living : Living after.registry place)
    (chain : EnduringChain thread child world place trail) :
    Chain thread after place trail := by
  induction trail generalizing place with
  | nil => trivial
  | cons step rest ih =>
      obtain ⟨next, answers, points, endures, chain⟩ := chain
      obtain ⟨answersAfter, livingNext⟩ :=
        outlives.answer different sane present living endures answers
      have presentNext := sane.present_of_answer present answers
      refine ⟨next, answersAfter, ?_, ih presentNext livingNext chain⟩
      cases next with
      | held address =>
          obtain ⟨sameZobj, -⟩ := outlives.mine different presentNext
          rw [Place.tsObj, Store.tsObjAt, sameZobj]
          exact points
      | unheld other => exact points

end Destruction

section Reads

variable {setting : Setting} {world : World} {address : Nat}

/-- The connection once the read has brought its table in sync. -/
def readConnection (setting : Setting) (world : World) (address tsObj : Nat) : Connection :=
  if (world.locals address).properties.isSome then
    syncLocalProperties world.registry (world.props tsObj)
      (world.connection setting.thread address)
  else world.connection setting.thread address

theorem readConnection_owner (tsObj : Nat) :
    (readConnection setting world address tsObj).owner = setting.thread ∧
      (readConnection setting world address tsObj).pending = none := by
  unfold readConnection
  split
  · have synced := syncLocalProperties_synced world.registry (world.props tsObj)
      (world.connection setting.thread address)
    exact ⟨synced.owner, synced.pending⟩
  · exact ⟨rfl, rfl⟩

theorem readConnection_cached {tsObj : Nat} (points : tsObjAt world.registry address = some tsObj)
    (key : Key) : (readConnection setting world address tsObj).cached key =
      world.cachedAt setting.thread (.held address) key := by
  rw [cachedAt_held points]
  unfold readConnection
  split
  · rfl
  · next noTable =>
    have none : (world.connection setting.thread address).cached key = none := by
      simp only [Option.not_isSome_iff_eq_none] at noTable
      simp [Connection.cached, World.connection, noTable]
    rw [syncLocalProperties_cached, none]
    split <;> rfl

theorem setLocal_self (world : World) (thread address : Nat) :
    world.setLocal address (world.connection thread address) = world := by
  simp [World.setLocal, World.connection]

theorem follows_readConnection {tsObj : Nat} (sane : Sane setting.thread world)
    (mine : Mine setting.thread world.registry address)
    (points : tsObjAt world.registry address = some tsObj) :
    Follows setting.thread world
      (world.setLocal address (readConnection setting world address tsObj)) := by
  unfold readConnection
  split
  · have synced := syncLocalProperties_synced world.registry (world.props tsObj)
      (world.connection setting.thread address)
    exact follows_sync sane mine points synced.owner synced.pending synced.modcount
      (fun _ => rfl) (fun object keeps => synced.keeps _ keeps)
  · rw [setLocal_self]
    exact Follows.refl sane

theorem setLocal_congr {first second : World} (connection : Connection)
    (registry : first.registry = second.registry) (props : first.props = second.props)
    (agree : ∀ other, other ≠ address → first.locals other = second.locals other) :
    first.setLocal address connection = second.setLocal address connection := by
  simp only [World.setLocal, registry, props, World.mk.injEq, true_and]
  funext other
  by_cases same : other = address
  · subst same
    simp
  · simp [same, agree other same]

/-- What the new connection overwrites was not needed. -/
theorem setLocal_withRegistry (registry : Registry) (newAddress : Nat)
    (before after : Connection) :
    ((world.setLocal address before).withRegistry setting registry newAddress).setLocal address
        after =
      (world.withRegistry setting registry newAddress).setLocal address after := by
  apply setLocal_congr after (by simp) (by simp [World.setLocal])
  intro other different
  unfold World.withRegistry
  by_cases unused : world.registry.zobjs newAddress = none
  · have unusedToo : (world.setLocal address before).registry.zobjs newAddress = none := unused
    rw [if_pos unused, if_pos unusedToo]
    by_cases isNew : other = newAddress
    · subst isNew
      simp [World.setLocal]
    · simp [World.setLocal, isNew, different]
  · have usedToo : ¬ (world.setLocal address before).registry.zobjs newAddress = none := unused
    rw [if_neg unused, if_neg usedToo]
    simp [World.setLocal, different]

/-- The world after the sync and the restore of a read, before the value goes into
the table. -/
theorem follows_readRestore {tsObj newAddress : Nat} {registry : Registry}
    (sane : Sane setting.thread world) (mine : Mine setting.thread world.registry address)
    (points : tsObjAt world.registry address = some tsObj)
    (connects : Connects setting.thread world.registry registry newAddress) :
    Follows setting.thread world ((world.setLocal address
        (readConnection setting world address tsObj)).withRegistry setting registry newAddress) ∧
      ((world.setLocal address (readConnection setting world address tsObj)).withRegistry setting
        registry newAddress).connection setting.thread address =
          readConnection setting world address tsObj := by
  obtain ⟨owned, idle⟩ : (readConnection setting world address tsObj).owner = setting.thread ∧
    (readConnection setting world address tsObj).pending = none := readConnection_owner tsObj
  have synced : Follows setting.thread world (world.setLocal address
    (readConnection setting world address tsObj)) := follows_readConnection sane mine points
  refine ⟨synced.trans (follows_withRegistry synced.sane connects), ?_⟩
  have existed : (world.setLocal address (readConnection setting world address
      tsObj)).registry.zobjs address ≠ none := by
    obtain ⟨zobj, found, -⟩ := mine
    simp [World.setLocal, found]
  refine Eq.trans ?_ (setLocal_connection world address _ owned idle)
  simp only [World.connection, withRegistry_locals existed]

theorem storeRead_cached {tsObj : Nat} {key : KeyZval} {value : Zval} (fresh : Fresh)
    (cached : (readConnection setting world address tsObj).cached (coerce key) = some value) :
    storeRead setting.enumCases world.registry (world.props tsObj)
        (world.connection setting.thread address) key .read fresh =
      some (world.registry, readConnection setting world address tsObj, .value value) := by
  simp only [storeRead]
  rw [show (if (world.connection setting.thread address).properties.isSome then _ else _) =
    readConnection setting world address tsObj from rfl, cached]

theorem storeRead_restored {tsObj handle : Nat} {key : KeyZval} {value : Zval} {fresh : Fresh}
    {registry : Registry}
    (uncached : (readConnection setting world address tsObj).cached (coerce key) = none)
    (stored : (world.props tsObj).hash.find (coerce key) = some (.pthreads handle))
    (restored : restoreZval setting.enumCases world.registry setting.thread fresh
      (.pthreads handle) = some (registry, value)) :
    storeRead setting.enumCases world.registry (world.props tsObj)
        (world.connection setting.thread address) key .read fresh =
      some (registry, { readConnection setting world address tsObj with
        pending := some (.update (coerce key) value) }, .value value) := by
  have owned : (world.connection setting.thread address).owner = setting.thread := rfl
  simp only [storeRead]
  rw [show (if (world.connection setting.thread address).properties.isSome then _ else _) =
    readConnection setting world address tsObj from rfl, uncached, stored]
  simp [isThreaded, owned, restored]

/-- A sync leaves a restored object alone. -/
theorem staysCached_of_placeOf {registry : Registry} (sound : Sound registry)
    {thread handle object : Nat} (leads : placeOf registry thread handle = some (.held object)) :
    staysCached registry thread (some (.pthreads handle)) (.threaded object) = true := by
  obtain ⟨zobj, tsObj, found, -⟩ := placeOf_cases leads
  have existed : registry.zobjs handle ≠ none := by simp [found]
  have valid := (globalsObjectValid_iff sound).mpr existed
  have sameTs := (placeOf_present sound leads).2
  simp only [Place.tsObj] at sameTs
  simp [staysCached, deindirect, valid, sameTs]

/-- The value that a read has restored goes into the table. -/
theorem follows_finishRead {current : World} (declared : List Key) {tsObj handle object : Nat}
    {key : Key} {connection : Connection} (sane : Sane setting.thread current)
    (mine : Mine setting.thread current.registry address)
    (points : tsObjAt current.registry address = some tsObj)
    (isConnection : current.connection setting.thread address = connection)
    (uncached : connection.cached key = none)
    (stored : (current.props tsObj).hash.find key = some (.pthreads handle))
    (leads : placeOf current.registry setting.thread handle = some (.held object)) :
    Follows setting.thread current (current.setLocal address (finishPending declared
      { connection with pending := some (.update key (.threaded object)) })) := by
  subst isConnection
  have isCached : ∀ other, (finishPending declared
      { current.connection setting.thread address with
        pending := some (.update key (.threaded object)) }).cached other =
      if other = key then some (.threaded object)
      else (current.connection setting.thread address).cached other := by
    intro other
    rw [finishPending_update_cached]
    simp [retainInLocalCache]
  refine follows_put sane mine points (finishPending_owner _ _) (finishPending_pending _ _)
    (finishPending_modcount _ _) isCached ?_ uncached (Or.inr ?_) ?_
  · intro found keeps
    rcases finishPending_keeps keeps with
        isSlot | ⟨table, other, isTable, isThere⟩ | ⟨other, waiting⟩
    · cases isSlot
    · exact Or.inl (Or.inl ⟨table, other, isTable, isThere⟩)
    · cases waiting
      exact Or.inr (placeOf_present sane.sound leads).1
  · rw [stored]
    exact staysCached_of_placeOf sane.sound leads
  · intro next answers
    have notCached : current.cachedAt setting.thread (.held address) key = none := by
      rw [cachedAt_held points, syncLocalProperties_cached, uncached]
      split <;> rfl
    have isStored : current.storageAt (.held address) key = some (.pthreads handle) := by
      simp only [World.storageAt, Place.tsObj, points, Option.bind_some]
      exact stored
    rw [answer_of_uncached notCached isStored, leads] at answers
    exact ⟨object, rfl, (Option.some.inj answers).symm⟩

/-- A read goes where the thread is led. -/
theorem readMember_answer {key : KeyZval} {next : Place} {fresh : Fresh}
    (sane : Sane setting.thread world) (mine : Mine setting.thread world.registry address)
    (answers : world.answer setting.thread (.held address) (coerce key) = some next)
    (available : Available world.registry fresh.newAddress fresh.newTs) :
    ∃ after object, world.readMember setting address key fresh =
        some (after, .value (.threaded object)) ∧
      Follows setting.thread world after ∧
      relocate after.registry setting.thread next = .held object := by
  obtain ⟨tsObj, points⟩ := mine.tsObjAt
  have isSynced : (readConnection setting world address tsObj).cached (coerce key) = _ :=
    readConnection_cached points (coerce key)
  obtain ⟨owned, idle⟩ : (readConnection setting world address tsObj).owner = setting.thread ∧
    (readConnection setting world address tsObj).pending = none := readConnection_owner tsObj
  rcases answer_cases answers with ⟨object, cached, rfl⟩ | ⟨uncached, handle, stored, leads⟩
  · have read := storeRead_cached fresh (isSynced.trans cached)
    obtain ⟨follows, sameTable⟩ := follows_readRestore sane mine points
      (Connects.refl sane.sound setting.thread fresh.newAddress)
    refine ⟨_, object, ?_, follows, rfl⟩
    have finished : finishPending (setting.declared tsObj)
        (readConnection setting world address tsObj) =
          readConnection setting world address tsObj := by
      simp [finishPending, idle]
    simp only [World.readMember, points, read, Option.bind_eq_bind, Option.bind_some, finished]
    rw [← setLocal_withRegistry, ← sameTable, setLocal_self, sameTable]
  · simp only [World.storageAt, Place.tsObj, points, Option.bind_some] at stored
    obtain ⟨zobj, sharedTs, found, pointsHandle, -⟩ := placeOf_cases leads
    obtain ⟨registry, object, connected⟩ := ObjectRegistry.globalsObjectConnect_succeeds sane.sound
      setting.thread available found pointsHandle
    have restored : restoreZval setting.enumCases world.registry setting.thread fresh
        (.pthreads handle) = some (registry, .threaded object) := by
      simp [restoreZval, connected]
    have regains := restoreZval_regains sane.sound restored
    have read := storeRead_restored (isSynced.trans uncached) stored restored
    obtain ⟨follows, sameTable⟩ := follows_readRestore sane mine points regains.connects
    have relocated : relocate registry setting.thread next = .held object := by
      obtain ⟨target, isThere, sameTs⟩ :=
        ObjectRegistry.globalsObjectConnect_attached sane.sound found pointsHandle connected
      obtain ⟨_, ⟨⟩, missing | ⟨place, leadsTo, relocated⟩⟩ := regains.threaded object rfl
      · simp [tsObjAt, isThere, sameTs] at missing
      · cases Option.some.inj (leads.symm.trans leadsTo)
        exact relocated
    have leadsAfter : placeOf registry setting.thread handle = some (.held object) := by
      rw [placeOf_relocate regains.connects.kept regains.connects.resolve leads, relocated]
    have finished := follows_finishRead (setting.declared tsObj) follows.sane
      (follows.mine mine) (follows.tsObjAt points) sameTable (isSynced.trans uncached)
      (by rw [follows.props]; exact stored) (by rw [withRegistry_registry]; exact leadsAfter)
    refine ⟨_, object, ?_, follows.trans finished, ?_⟩
    · simp only [World.readMember, points, read, Option.bind_eq_bind, Option.bind_some]
      rw [← setLocal_withRegistry]
    · simpa [World.setLocal] using relocated

/-- Where the thread is led step by step, its reads lead. -/
theorem canRestore_of_chain {trail : List (KeyZval × Nat)} (sane : Sane setting.thread world)
    (mine : Mine setting.thread world.registry address)
    (chain : Chain setting.thread world (.held address) trail) :
    CanRestore setting world address trail := by
  induction trail generalizing world address with
  | nil => trivial
  | cons step rest ih =>
      intro fresh available
      obtain ⟨next, answers, points, chain⟩ := chain
      obtain ⟨after, object, read, follows, relocated⟩ :=
        readMember_answer sane mine answers available
      have here : Present setting.thread world.registry (.held address) := mine
      have present := sane.present_of_answer here answers
      have mineObject := follows.present present
      have pointsAfter := follows.place_tsObj points
      have chainAfter := follows.chain sane present chain
      rw [relocated] at mineObject pointsAfter chainAfter
      exact ⟨after, object, read, pointsAfter, ih follows.sane mineObject chainAfter⟩

end Reads

end Pthreads.ObjectGraph
