import Pthreads.GraphSteps
import Mathlib.Data.Set.Insert

/-!
# The walk over a graph of Threaded objects

`pthreads_store_full_sync_local_properties` is a depth-first walk.  It protects
the objects on its way against recursion, and an object that it has left is in
sync and has everything in its local table that can be cached.  What it found
missing there leads to objects that it has left as well or that are protected.
-/

namespace Pthreads.ObjectGraph

open ObjectRegistry (Registry ZendObject Sound)
open Store

/-- The table is in sync and has everything that can be cached. -/
structure Complete (thread : Nat) (world : World) (address : Nat) : Prop where
  inSync : InSync world address
  filled : ∀ tsObj key storage, tsObjAt world.registry address = some tsObj →
    (world.props tsObj).hash.find key = some storage → storageIsCacheable storage = true →
      ∃ value, (world.connection thread address).cached key = some value

theorem Follows.complete {thread address : Nat} {world after : World}
    (follows : Follows thread world after) (mine : Mine thread world.registry address)
    (complete : Complete thread world address) : Complete thread after address := by
  refine ⟨follows.inSync address mine complete.inSync, ?_⟩
  intro tsObj key storage points stored cacheable
  obtain ⟨same, pointed⟩ := mine.tsObjAt
  cases Option.some.inj (points.symm.trans (follows.tsObjAt pointed))
  rw [follows.props] at stored
  obtain ⟨value, cached⟩ := complete.filled tsObj key storage pointed stored cacheable
  exact ⟨value, (follows.firm address key value mine ⟨complete.inSync, cached⟩).cached⟩

/-- The key was not in the local table when the walk came to the object. -/
def Missing (thread : Nat) (world : World) (address : Nat) (key : Key) : Prop :=
  world.registry.zobjs address = none ∨ world.cachedAt thread (.held address) key = none

/-- What a part of the walk has done: the objects that it has left or, if they are
open, still works on. -/
structure Progress (setting : Setting) (guarded opened : Set Nat) (world after : World)
    (visited : Set Nat) : Prop where
  follows : Follows setting.thread world after
  mine : ∀ address ∈ visited, Mine setting.thread after.registry address
  apart : ∀ address ∈ visited, address ∉ guarded
  frame : ∀ address ∉ visited, world.registry.zobjs address ≠ none →
    after.locals address = world.locals address
  created : ∀ address, world.registry.zobjs address = none →
    after.registry.zobjs address ≠ none → address ∈ visited
  inSync : ∀ address ∈ visited, InSync after address
  complete : ∀ address ∈ visited, address ∉ opened → Complete setting.thread after address
  closed : ∀ address ∈ visited, ∀ tsObj key handle object,
    tsObjAt after.registry address = some tsObj →
    (world.props tsObj).hash.find key = some (.pthreads handle) →
    world.registry.zobjs handle ≠ none → Missing setting.thread world address key →
    (after.connection setting.thread address).cached key = some (.threaded object) →
      object ∈ visited ∨ object ∈ guarded
  tasks : ∀ address ∈ visited, address ∉ opened → ∀ task ∈ setting.tasks address,
    task ∈ visited ∨ task ∈ guarded

section Progress

variable {setting : Setting} {guarded opened : Set Nat} {world middle after : World}

theorem Progress.refl (sane : Sane setting.thread world) :
    Progress setting guarded opened world world ∅ where
  follows := Follows.refl sane
  mine _ none := none.elim
  apart _ none := none.elim
  frame _ _ _ := rfl
  created _ absent isThere := absurd absent isThere
  inSync _ none := none.elim
  complete _ none := none.elim
  closed _ none := none.elim
  tasks _ none := none.elim

/-- What was missing at first is missing later, while the walk does not visit the
object. -/
theorem Missing.later {thread address tsObj handle : Nat} {key : Key}
    (missing : Missing thread world address key) (sane : Sane thread world)
    (follows : Follows thread world middle)
    (created : world.registry.zobjs address = none → middle.registry.zobjs address = none)
    (sameTable : world.registry.zobjs address ≠ none →
      middle.locals address = world.locals address)
    (mine : Mine thread middle.registry address)
    (points : tsObjAt middle.registry address = some tsObj)
    (stored : (world.props tsObj).hash.find key = some (.pthreads handle))
    (existed : world.registry.zobjs handle ≠ none) : Missing thread middle address key := by
  by_cases absent : world.registry.zobjs address = none
  · exact Or.inl (created absent)
  · right
    have mineAtFirst := (follows.mine_iff absent).mp mine
    have pointed : tsObjAt world.registry address = some tsObj :=
      (follows.tsObjAt_eq absent).symm.trans points
    have own : ∀ object, (world.connection thread address).cached key =
        some (.threaded object) → middle.registry.zobjs object = world.registry.zobjs object := by
      intro object cached
      obtain ⟨table, isTable, isThere⟩ := cached_mem cached
      exact
        follows.zobjs_eq (sane.holds address table key object mineAtFirst isTable isThere).ne_none
    have same : middle.cachedAt thread (.held address) key =
        world.cachedAt thread (.held address) key :=
      cachedAt_congr_handle sane.sound follows.sane.sound pointed points (sameTable absent)
        (by rw [follows.props])
        (Or.inr ⟨handle, stored, by rw [follows.props]; exact stored, follows.zobjs_eq existed⟩) own
    exact same.trans (missing.resolve_left absent)

/-- An object of the first part that gets a member only in the second belongs to the
second, where it is missing. -/
theorem Progress.missing_of_added {inner openedLater visited later : Set Nat}
    (first : Progress setting guarded opened world middle visited)
    (second : Progress setting inner openedLater middle after later) {address tsObj object : Nat}
    {key : Key} (isFirst : address ∈ visited)
    (pointed : tsObjAt middle.registry address = some tsObj)
    (earlier : (middle.connection setting.thread address).cached key = none)
    (cached : (after.connection setting.thread address).cached key = some (.threaded object)) :
    address ∈ later ∧ Missing setting.thread middle address key := by
  constructor
  · by_contra notLater
    have same := second.frame address notLater (first.mine address isFirst).ne_none
    simp only [World.connection, same] at cached earlier
    rw [earlier] at cached
    cases cached
  · right
    rw [cachedAt_held pointed, syncLocalProperties_of_inSync
      (first.inSync address isFirst tsObj pointed)]
    exact earlier

/-- What is missing at first from an object of the second part only is missing when the
second part begins. -/
theorem Progress.missing_of_later {inner openedLater visited later : Set Nat}
    (sane : Sane setting.thread world)
    (first : Progress setting guarded opened world middle visited)
    (second : Progress setting inner openedLater middle after later)
    {address tsObj handle : Nat} {key : Key} (notFirst : address ∉ visited)
    (isLater : address ∈ later) (points : tsObjAt after.registry address = some tsObj)
    (stored : (world.props tsObj).hash.find key = some (.pthreads handle))
    (existed : world.registry.zobjs handle ≠ none)
    (missing : Missing setting.thread world address key) :
    Missing setting.thread middle address key := by
  by_cases isThere : middle.registry.zobjs address = none
  · exact Or.inl isThere
  · have mine := (second.follows.mine_iff isThere).mp (second.mine address isLater)
    have pointed := (second.follows.tsObjAt_eq isThere).symm.trans points
    refine missing.later sane first.follows ?_ (first.frame address notFirst) mine pointed stored
      existed
    intro absent
    by_contra earlier
    exact notFirst (first.created address absent earlier)

/-- Two parts of the walk, of which the second may protect what the first works
on. -/
theorem Progress.trans {inner openedLater visited later : Set Nat}
    (sane : Sane setting.thread world)
    (first : Progress setting guarded opened world middle visited)
    (second : Progress setting inner openedLater middle after later)
    (wider : ∀ address ∈ guarded, address ∈ inner)
    (known : ∀ address ∈ inner, address ∈ guarded ∨ address ∈ visited) :
    Progress setting guarded (opened ∪ openedLater) world after (visited ∪ later) := by
  -- what the second part visits or protects is visited or protected by the whole
  have covered : ∀ {address}, address ∈ later ∨ address ∈ inner →
      address ∈ visited ∪ later ∨ address ∈ guarded := by
    rintro address (isLater | isInner)
    · exact Or.inl (Or.inr isLater)
    · rcases known address isInner with isGuarded | isFirst
      · exact Or.inr isGuarded
      · exact Or.inl (Or.inl isFirst)
  refine ⟨first.follows.trans second.follows, ?_, ?_, ?_, ?_, ?_, ?_, ?_, ?_⟩
  · rintro address (isFirst | isLater)
    · exact second.follows.mine (first.mine address isFirst)
    · exact second.mine address isLater
  · rintro address (isFirst | isLater) isGuarded
    · exact first.apart address isFirst isGuarded
    · exact second.apart address isLater (wider address isGuarded)
  · intro address outside existed
    have notFirst : address ∉ visited := fun isFirst => outside (Or.inl isFirst)
    have notLater : address ∉ later := fun isLater => outside (Or.inr isLater)
    rw [second.frame address notLater (first.follows.ne_none existed),
      first.frame address notFirst existed]
  · intro address absent isThere
    by_cases earlier : middle.registry.zobjs address = none
    · exact Or.inr (second.created address earlier isThere)
    · exact Or.inl (first.created address absent earlier)
  · rintro address (isFirst | isLater)
    · exact second.follows.inSync address (first.mine address isFirst)
        (first.inSync address isFirst)
    · exact second.inSync address isLater
  · rintro address (isFirst | isLater) notOpen
    · exact second.follows.complete (first.mine address isFirst)
        (first.complete address isFirst fun isOpen => notOpen (Or.inl isOpen))
    · exact second.complete address isLater fun isOpen => notOpen (Or.inr isOpen)
  · intro address isVisited tsObj key handle object points stored existed missing cached
    have fromLater (isLater : address ∈ later)
        (missingLater : Missing setting.thread middle address key) :
        object ∈ visited ∪ later ∨ object ∈ guarded := by
      refine covered (second.closed address isLater tsObj key handle object points ?_
        (first.follows.ne_none existed) missingLater cached)
      rw [first.follows.props]
      exact stored
    by_cases isFirst : address ∈ visited
    · have mine := first.mine address isFirst
      obtain ⟨same, pointed⟩ := mine.tsObjAt
      cases Option.some.inj (points.symm.trans (second.follows.tsObjAt pointed))
      cases earlier : (middle.connection setting.thread address).cached key with
      | some value =>
          have firm := second.follows.firm address key value mine
            ⟨first.inSync address isFirst, earlier⟩
          cases Option.some.inj (firm.cached.symm.trans cached)
          exact (first.closed address isFirst tsObj key handle object pointed stored existed
            missing earlier).imp_left Or.inl
      | none =>
          obtain ⟨isLater, missingLater⟩ :=
            first.missing_of_added second isFirst pointed earlier cached
          exact fromLater isLater missingLater
    · have isLater : address ∈ later := isVisited.resolve_left isFirst
      exact fromLater isLater
        (first.missing_of_later sane second isFirst isLater points stored existed missing)
  · rintro address (isFirst | isLater) notOpen task queued
    · exact (first.tasks address isFirst (fun isOpen => notOpen (Or.inl isOpen)) task
        queued).imp_left Or.inl
    · exact covered
        (second.tasks address isLater (fun isOpen => notOpen (Or.inr isOpen)) task queued)

/-- The walk comes to an object. -/
theorem progress_open {address tsObj : Nat} (sane : Sane setting.thread world)
    (mine : Mine setting.thread world.registry address)
    (points : tsObjAt world.registry address = some tsObj) (unguarded : address ∉ guarded)
    (declared : List Key) :
    Progress setting guarded {address} world (world.setLocal address (prepared declared
      (syncLocalProperties world.registry (world.props tsObj)
        (world.connection setting.thread address)))) {address} := by
  have synced := syncLocalProperties_synced world.registry (world.props tsObj)
    (world.connection setting.thread address)
  refine ⟨follows_open sane mine points declared, ?_, ?_, ?_, ?_, ?_, ?_, ?_, ?_⟩
  · rintro _ rfl
    exact mine
  · rintro _ rfl
    exact unguarded
  · intro other different _
    have apart : other ≠ address := different
    simp [World.setLocal, apart]
  · intro other absent isThere
    exact absurd absent isThere
  · rintro _ rfl other same
    cases Option.some.inj (points.symm.trans same)
    simpa [World.setLocal, prepared] using synced.modcount
  · intro other isOpen notOpen
    exact absurd isOpen notOpen
  · intro other isOpen sameTs key handle object pointed stored existed missing cached
    cases isOpen
    obtain ⟨zobj, found, -⟩ := mine
    have uncached := missing.resolve_left (by simp [found])
    have owned : (prepared declared (syncLocalProperties world.registry (world.props tsObj)
        (world.connection setting.thread address))).owner = setting.thread := synced.owner
    rw [setLocal_connection world address _ owned synced.pending, prepared_cached,
      ← cachedAt_held points, uncached] at cached
    cases cached
  · intro other isOpen notOpen
    exact absurd isOpen notOpen

/-- A part of the walk that starts with the restore of a value. -/
theorem Progress.connecting {registry : Registry} {newAddress : Nat} {storage : Storage}
    {value : Zval} {visited : Set Nat} (sane : Sane setting.thread world)
    (regains : Regains setting.thread world.registry registry newAddress storage value)
    (guards : ∀ address ∈ guarded, world.registry.zobjs address ≠ none)
    (reached : ∀ object, value = .threaded object → object ∈ visited ∨ object ∈ guarded)
    (progress : Progress setting guarded opened
      (world.withRegistry setting registry newAddress) after visited) :
    Progress setting guarded opened world after visited := by
  have follows := follows_withRegistry sane regains.connects
  refine ⟨follows.trans progress.follows, progress.mine, progress.apart, ?_, ?_, progress.inSync,
    progress.complete, ?_, progress.tasks⟩
  · intro address outside existed
    rw [progress.frame address outside (follows.ne_none existed), withRegistry_locals existed]
  · intro address absent isThere
    by_cases earlier :
        (world.withRegistry setting registry newAddress).registry.zobjs address = none
    · exact progress.created address earlier isThere
    · rw [withRegistry_registry] at earlier
      rcases reached address (regains.created address absent earlier) with isVisited | isGuarded
      · exact isVisited
      · exact absurd absent (guards address isGuarded)
  · intro address isVisited tsObj key handle object points stored existed missing cached
    refine progress.closed address isVisited tsObj key handle object points
      (by rw [withRegistry_props]; exact stored) (follows.ne_none existed) ?_ cached
    by_cases absent : world.registry.zobjs address = none
    · by_cases earlier :
          (world.withRegistry setting registry newAddress).registry.zobjs address = none
      · exact Or.inl earlier
      · right
        rw [withRegistry_registry] at earlier
        have isNew : address = newAddress := by
          by_contra different
          exact earlier (regains.connects.absent address absent different)
        subst isNew
        exact cachedAt_new absent key
    · have between := follows.ne_none absent
      have mine := (progress.follows.mine_iff between).mp (progress.mine address isVisited)
      have pointed := (progress.follows.tsObjAt_eq between).symm.trans points
      exact missing.later sane follows (fun none => absurd none absent)
        (fun isThere => withRegistry_locals isThere) mine pointed stored existed

variable (guarded) in
/-- A restored value is put into the table that the walk works on. -/
theorem progress_cache {address : Nat} {key : Key} {value : Zval}
    (sane : Sane setting.thread world) (mine : Mine setting.thread world.registry address)
    (unguarded : address ∉ guarded) (inSync : InSync world address)
    (uncached : (world.connection setting.thread address).cached key = none)
    (valid : validLocalCacheItem value = true)
    (known : ∀ object, value = .threaded object →
      Mine setting.thread world.registry object ∧ (object = address ∨ object ∈ guarded))
    (leads : ∀ next, world.answer setting.thread (.held address) key = some next →
      ∃ object, value = .threaded object ∧ next = .held object) :
    Progress setting guarded {address} world (world.cache address key value) {address} ∧
      ((world.cache address key value).connection setting.thread address).cached key =
        some value := by
  obtain ⟨tsObj, points⟩ := mine.tsObjAt
  have cachedAfter : ∀ other,
      ((world.cache address key value).connection setting.thread address).cached other =
        if other = key then some value
        else (world.connection setting.thread address).cached other := by
    intro other
    simp only [World.connection, World.cache, Function.update_self, Connection.cached,
      Option.bind_some]
    by_cases same : other = key
    · subst same
      simp [valid]
    · rw [if_neg same, OrderedTable.find_update_other _ _ same]
      cases (world.locals address).properties <;> rfl
  have follows : Follows setting.thread world (world.cache address key value) := by
    show Follows setting.thread world (world.setLocal address ⟨setting.thread,
      some (((world.locals address).properties.getD OrderedTable.empty).update key value),
      (world.locals address).localPropsModcount, none⟩)
    refine follows_put sane mine points rfl rfl rfl ?_ ?_ uncached (Or.inl (inSync tsObj points))
      leads
    · simpa [World.cache, World.connection] using cachedAfter
    · rintro object (⟨table, other, isTable, isThere⟩ | ⟨other, ⟨⟩⟩)
      cases isTable
      rcases OrderedTable.find_update_cases isThere with ⟨-, isValue⟩ | ⟨-, wasThere⟩
      · exact Or.inr (known object isValue.symm).1
      · refine Or.inl (Or.inl ?_)
        cases properties : (world.locals address).properties with
        | none => simp [properties] at wasThere
        | some table => exact ⟨table, other, properties, by simpa [properties] using wasThere⟩
  refine ⟨⟨follows, ?_, ?_, ?_, ?_, ?_, ?_, ?_, ?_⟩, by rw [cachedAfter, if_pos rfl]⟩
  · rintro _ rfl
    exact mine
  · rintro _ rfl
    exact unguarded
  · intro other different _
    have apart : other ≠ address := different
    simp [World.cache, apart]
  · intro other absent isThere
    exact absurd absent isThere
  · rintro _ rfl
    exact follows.inSync _ mine inSync
  · intro other isOpen notOpen
    exact absurd isOpen notOpen
  · intro other isOpen sameTs otherKey handle object pointed stored existed missing cached
    cases isOpen
    obtain ⟨zobj, found, -⟩ := mine
    have before := missing.resolve_left (by simp [found])
    rw [cachedAt_held points, syncLocalProperties_of_inSync (inSync tsObj points)] at before
    rw [cachedAfter, before] at cached
    split at cached
    · exact (known object (Option.some.inj cached)).2
    · cases cached
  · intro other isOpen notOpen
    exact absurd isOpen notOpen

end Progress

/-- The queues of the workers hold objects of the thread. -/
def Queues (setting : Setting) (world : World) : Prop :=
  ∀ address task, task ∈ setting.tasks address →
    Mine setting.thread world.registry address ∧ Mine setting.thread world.registry task

theorem Follows.queues {setting : Setting} {world after : World}
    (follows : Follows setting.thread world after) (queues : Queues setting world) :
    Queues setting after := by
  intro address task queued
  obtain ⟨mine, mineTask⟩ := queues address task queued
  exact ⟨follows.mine mine, follows.mine mineTask⟩

/-- What the walk promises about one object, if it returns. -/
def Walks (setting : Setting) (guarded : Set Nat) (recurse : World → Nat → Option World) : Prop :=
  ∀ world after address, Sane setting.thread world →
    (∀ other ∈ guarded, Mine setting.thread world.registry other) → Queues setting world →
    (tsObjAt world.registry address ≠ none → Mine setting.thread world.registry address) →
    recurse world address = some after → tsObjAt world.registry address ≠ none ∧
      ∃ visited, Progress setting guarded ∅ world after visited ∧
        (address ∈ visited ∨ address ∈ guarded)

section Loops

variable {setting : Setting} {fresh : Nat → Key → Fresh} {guarded : Set Nat}
  {recurse : World → Nat → Option World} {world : World} {address : Nat}

/-- The loop of the walk is at this point: it works on the object, and it follows
the start. -/
structure AtWork (setting : Setting) (guarded : Set Nat) (world : World) (address : Nat)
    (current : World) (visited : Set Nat) : Prop where
  progress : Progress setting guarded {address} world current visited
  entered : address ∈ visited

/-- A further part of the walk that protects the object at work. -/
theorem AtWork.extend {current after : World} {visited later : Set Nat}
    (sane : Sane setting.thread world)
    (atWork : AtWork setting guarded world address current visited)
    (part : Progress setting (insert address guarded) ∅ current after later) :
    AtWork setting guarded world address after (visited ∪ later) := by
  refine ⟨?_, Or.inl atWork.entered⟩
  have joined := atWork.progress.trans sane part (fun other isGuarded => Or.inr isGuarded) (by
    rintro other (rfl | isGuarded)
    · exact Or.inr atWork.entered
    · exact Or.inl isGuarded)
  rwa [Set.union_empty] at joined

/-- A value goes into the table of the object at work. -/
theorem AtWork.put {current : World} {visited : Set Nat} {key : Key} {value : Zval}
    (sane : Sane setting.thread world)
    (atWork : AtWork setting guarded world address current visited)
    (uncached : (current.connection setting.thread address).cached key = none)
    (valid : validLocalCacheItem value = true)
    (known : ∀ object, value = .threaded object →
      Mine setting.thread current.registry object ∧ (object ∈ visited ∨ object ∈ guarded))
    (leads : ∀ next, current.answer setting.thread (.held address) key = some next →
      ∃ object, value = .threaded object ∧ next = .held object) :
    AtWork setting guarded world address (current.cache address key value)
        (visited ∪ {address}) ∧
      Follows setting.thread current (current.cache address key value) ∧
      ((current.cache address key value).connection setting.thread address).cached key =
        some value := by
  -- all that is known, but the object itself, counts as protected here
  obtain ⟨part, isCached⟩ := progress_cache {other | (other ∈ guarded ∨ other ∈ visited) ∧
      other ≠ address} atWork.progress.follows.sane
    (atWork.progress.mine address atWork.entered) (fun inside => inside.2 rfl)
    (atWork.progress.inSync address atWork.entered) uncached valid (by
      intro object isObject
      obtain ⟨mine, isKnown⟩ := known object isObject
      refine ⟨mine, ?_⟩
      by_cases same : object = address
      · exact Or.inl same
      · exact Or.inr ⟨isKnown.symm, same⟩) leads
  refine ⟨⟨?_, Or.inl atWork.entered⟩, part.follows, isCached⟩
  have joined := atWork.progress.trans sane part ?_ (fun other inside => inside.1)
  · rwa [Set.union_self] at joined
  · intro other isGuarded
    refine ⟨Or.inl isGuarded, ?_⟩
    rintro rfl
    exact atWork.progress.apart other atWork.entered isGuarded

/-- The restore of a member that the table does not have, and the walk from
there. -/
theorem AtWork.restore {current deeper : World} {visited : Set Nat} {storage : Storage}
    {registry : Registry} {newAddress : Nat} {value : Zval}
    (guards : ∀ other ∈ guarded, Mine setting.thread world.registry other)
    (queues : Queues setting world) (walks : Walks setting (insert address guarded) recurse)
    (atWork : AtWork setting guarded world address current visited)
    (regains : Regains setting.thread current.registry registry newAddress storage value)
    (went : descend recurse (current.withRegistry setting registry newAddress) value =
      some deeper) :
    ∃ later, Progress setting (insert address guarded) ∅ current deeper later ∧
      ((∃ object handle, value = .threaded object ∧ storage = .pthreads handle ∧
          placeOf deeper.registry setting.thread handle = some (.held object) ∧
          (object ∈ later ∨ object ∈ insert address guarded)) ∨
        ((∀ object, value ≠ .threaded object) ∧ ∀ handle, storage = .pthreads handle →
          placeOf deeper.registry setting.thread handle = none)) := by
  have saneNow := atWork.progress.follows.sane
  have followsRestore := follows_withRegistry saneNow regains.connects
  have guardsNow : ∀ other ∈ insert address guarded,
      Mine setting.thread current.registry other := by
    rintro other (rfl | isGuarded)
    · exact atWork.progress.mine other atWork.entered
    · exact atWork.progress.follows.mine (guards other isGuarded)
  have guardsAlive : ∀ other ∈ insert address guarded, current.registry.zobjs other ≠ none := by
    intro other isGuarded
    obtain ⟨zobj, found, -⟩ := guardsNow other isGuarded
    simp [found]
  by_cases threaded : ∃ object, value = .threaded object
  · obtain ⟨object, rfl⟩ := threaded
    obtain ⟨handle, rfl, place⟩ := regains.threaded object rfl
    have leads : tsObjAt registry object ≠ none →
        placeOf registry setting.thread handle = some (.held object) := by
      intro constructed
      obtain ⟨place, leads, relocated⟩ := place.resolve_left constructed
      rw [placeOf_relocate regains.connects.kept regains.connects.resolve leads, relocated]
    obtain ⟨constructed, later, part, reached⟩ := walks _ deeper object followsRestore.sane
      (fun other isGuarded => followsRestore.mine (guardsNow other isGuarded))
      (followsRestore.queues (atWork.progress.follows.queues queues)) (by
        rw [withRegistry_registry]
        intro constructed
        exact (placeOf_present regains.connects.sound (leads constructed)).1) went
    rw [withRegistry_registry] at constructed
    refine ⟨later, part.connecting saneNow regains guardsAlive ?_, Or.inl ?_⟩
    · rintro _ ⟨⟩
      exact reached
    · have between : placeOf (current.withRegistry setting registry newAddress).registry
          setting.thread handle = some (.held object) := by
        rw [withRegistry_registry]
        exact leads constructed
      exact ⟨object, handle, rfl, rfl,
        placeOf_relocate part.follows.kept part.follows.resolved between, reached⟩
  · have noObject : ∀ object, value ≠ .threaded object := fun object same => threaded ⟨object, same⟩
    obtain ⟨unchanged, dead⟩ := regains.other noObject
    have stopped : deeper = current.withRegistry setting registry newAddress := by
      cases value <;> first | exact absurd rfl (noObject _) | exact (Option.some.inj went).symm
    subst stopped
    refine ⟨∅, (Progress.refl followsRestore.sane).connecting saneNow regains guardsAlive
      (fun object same => absurd same (noObject object)), Or.inr ⟨noObject, ?_⟩⟩
    intro handle isHandle
    rw [withRegistry_registry, unchanged]
    exact dead handle isHandle

/-- One member. -/
theorem fullSyncMember_atWork {current after : World} {visited : Set Nat} {tsObj : Nat}
    {entry : Key × Storage} (sane : Sane setting.thread world)
    (guards : ∀ other ∈ guarded, Mine setting.thread world.registry other)
    (queues : Queues setting world) (walks : Walks setting (insert address guarded) recurse)
    (atWork : AtWork setting guarded world address current visited)
    (points : tsObjAt current.registry address = some tsObj)
    (stored : (current.props tsObj).hash.find entry.1 = some entry.2)
    (went : fullSyncMember setting fresh recurse address current entry = some after) :
    (∃ further, AtWork setting guarded world address after further) ∧
      Follows setting.thread current after ∧
      (storageIsCacheable entry.2 = true →
        ∃ value, (after.connection setting.thread address).cached entry.1 = some value) := by
  have saneNow := atWork.progress.follows.sane
  simp only [fullSyncMember] at went
  split at went
  · next skipped =>
    cases went
    refine ⟨⟨visited, atWork⟩, Follows.refl saneNow, ?_⟩
    intro cacheable
    exact Option.isSome_iff_exists.mp (skipped.resolve_right fun notCacheable =>
      notCacheable cacheable)
  · next missing =>
    simp only [not_or, Option.not_isSome_iff_eq_none] at missing
    simp only [Option.bind_eq_bind, Option.bind_eq_some_iff] at went
    obtain ⟨⟨registry, value⟩, restored, deeper, descended, ⟨⟩⟩ := went
    have regains := restoreZval_regains saneNow.sound restored
    obtain ⟨later, part, outcome⟩ := atWork.restore guards queues walks regains descended
    have atWorkNow := atWork.extend sane part
    have sameTable : deeper.locals address = current.locals address := by
      obtain ⟨zobj, found, -⟩ := atWork.progress.mine address atWork.entered
      exact part.frame address (fun isLater => part.apart address isLater (Or.inl rfl))
        (by simp [found])
    have uncached : (deeper.connection setting.thread address).cached entry.1 = none := by
      simp only [World.connection, sameTable]
      exact missing.1
    obtain ⟨atWorkLast, followsPut, isCached⟩ := atWorkNow.put sane uncached regains.valid (by
      rintro object rfl
      rcases outcome with ⟨_, handle, ⟨⟩, -, leads, reached⟩ | ⟨noObject, -⟩
      · refine ⟨(placeOf_present part.follows.sane.sound leads).1, ?_⟩
        rcases reached with isLater | rfl | isGuarded
        · exact Or.inl (Or.inr isLater)
        · exact Or.inl (Or.inl atWork.entered)
        · exact Or.inr isGuarded
      · exact absurd rfl (noObject object)) (by
      intro next led
      have pointsNow := part.follows.tsObjAt points
      rcases answer_cases led with ⟨object, cached, -⟩ | ⟨-, handle, storedAt, leads⟩
      · rw [cachedAt_held pointsNow, syncLocalProperties_cached, uncached] at cached
        split at cached <;> cases cached
      · simp only [World.storageAt, Place.tsObj, pointsNow, Option.bind_some, part.follows.props,
          stored, Option.some.injEq] at storedAt
        rcases outcome with ⟨object, same, rfl, isHandle, leadsThere, -⟩ | ⟨-, dead⟩
        · cases isHandle.symm.trans storedAt
          exact ⟨object, rfl, Option.some.inj (leads.symm.trans leadsThere)⟩
        · rw [dead handle storedAt] at leads
          cases leads)
    exact ⟨⟨_, atWorkLast⟩, part.follows.trans followsPut, fun _ => ⟨value, isCached⟩⟩

/-- The loop over the members. -/
theorem fullSyncMembers_atWork {tsObj : Nat} {entries : List (Key × Storage)}
    (sane : Sane setting.thread world)
    (guards : ∀ other ∈ guarded, Mine setting.thread world.registry other)
    (queues : Queues setting world) (walks : Walks setting (insert address guarded) recurse)
    {current after : World} {visited : Set Nat}
    (atWork : AtWork setting guarded world address current visited)
    (points : tsObjAt current.registry address = some tsObj)
    (stored : ∀ entry ∈ entries, (current.props tsObj).hash.find entry.1 = some entry.2)
    (went : entries.foldlM (fullSyncMember setting fresh recurse address) current = some after) :
    (∃ further, AtWork setting guarded world address after further) ∧
      Follows setting.thread current after ∧
      ∀ entry ∈ entries, storageIsCacheable entry.2 = true →
        ∃ value, (after.connection setting.thread address).cached entry.1 = some value := by
  induction entries generalizing current visited with
  | nil =>
      cases went
      exact ⟨⟨visited, atWork⟩, Follows.refl atWork.progress.follows.sane, by simp⟩
  | cons entry entries ih =>
      simp only [List.foldlM_cons, Option.bind_eq_bind, Option.bind_eq_some_iff] at went
      obtain ⟨next, member, went⟩ := went
      obtain ⟨⟨further, atWorkNext⟩, follows, isCached⟩ := fullSyncMember_atWork sane guards queues
        walks atWork points (stored entry List.mem_cons_self) member
      have storedNext : ∀ other ∈ entries,
          (next.props tsObj).hash.find other.1 = some other.2 := by
        intro other isIn
        rw [follows.props]
        exact stored other (List.mem_cons_of_mem _ isIn)
      obtain ⟨atWorkLast, followsLast, allCached⟩ :=
        ih atWorkNext (follows.tsObjAt points) storedNext went
      refine ⟨atWorkLast, follows.trans followsLast, ?_⟩
      intro other isIn cacheable
      rcases List.mem_cons.mp isIn with rfl | isRest
      · obtain ⟨value, cached⟩ := isCached cacheable
        exact ⟨value, (followsLast.firm address other.1 value
          (atWorkNext.progress.mine address atWorkNext.entered)
          ⟨atWorkNext.progress.inSync address atWorkNext.entered, cached⟩).cached⟩
      · exact allCached other isRest cacheable

/-- The loop over the tasks of a worker. -/
theorem syncTasks_atWork {tasks : List Nat} (sane : Sane setting.thread world)
    (guards : ∀ other ∈ guarded, Mine setting.thread world.registry other)
    (queues : Queues setting world) (walks : Walks setting (insert address guarded) recurse)
    {current after : World} {visited : Set Nat}
    (atWork : AtWork setting guarded world address current visited)
    (mineTasks : ∀ task ∈ tasks, Mine setting.thread world.registry task)
    (went : tasks.foldlM recurse current = some after) :
    ∃ further, AtWork setting guarded world address after further ∧
      Follows setting.thread current after ∧
      visited ⊆ further ∧ ∀ task ∈ tasks, task ∈ further ∨ task ∈ guarded := by
  induction tasks generalizing current visited with
  | nil =>
      cases went
      exact ⟨visited, atWork, Follows.refl atWork.progress.follows.sane, fun _ inside => inside,
        by simp⟩
  | cons task tasks ih =>
      simp only [List.foldlM_cons, Option.bind_eq_bind, Option.bind_eq_some_iff] at went
      obtain ⟨next, visit, went⟩ := went
      have follows := atWork.progress.follows
      obtain ⟨-, later, part, reached⟩ := walks current next task follows.sane (by
        rintro other (rfl | isGuarded)
        · exact atWork.progress.mine other atWork.entered
        · exact follows.mine (guards other isGuarded)) (follows.queues queues)
        (fun _ => follows.mine (mineTasks task List.mem_cons_self)) visit
      obtain ⟨further, atWorkLast, followsLast, grows, rest⟩ := ih (atWork.extend sane part)
        (fun other isIn => mineTasks other (List.mem_cons_of_mem _ isIn)) went
      refine ⟨further, atWorkLast, part.follows.trans followsLast,
        fun other isIn => grows (Or.inl isIn), ?_⟩
      intro other isIn
      rcases List.mem_cons.mp isIn with rfl | isRest
      · rcases reached with isLater | rfl | isGuarded
        · exact Or.inl (grows (Or.inr isLater))
        · exact Or.inl (grows (Or.inl atWork.entered))
        · exact Or.inr isGuarded
      · exact rest other isRest

/-- The object at work is left. -/
theorem AtWork.leave {after : World} {visited : Set Nat}
    (atWork : AtWork setting guarded world address after visited)
    (complete : Complete setting.thread after address)
    (tasks : ∀ task ∈ setting.tasks address, task ∈ visited ∨ task ∈ guarded) :
    Progress setting guarded ∅ world after visited := by
  have progress := atWork.progress
  refine ⟨progress.follows, progress.mine, progress.apart, progress.frame, progress.created,
    progress.inSync, ?_, progress.closed, ?_⟩
  · intro other isVisited _
    by_cases same : other = address
    · subst same
      exact complete
    · exact progress.complete other isVisited same
  · intro other isVisited _
    by_cases same : other = address
    · subst same
      exact tasks
    · exact progress.tasks other isVisited same

end Loops

/-- The walk keeps its promise at every depth. -/
theorem fullSync_walks (setting : Setting) (fresh : Nat → Key → Fresh) (fuel : Nat)
    (guarded : List Nat) :
    Walks setting {other | other ∈ guarded} (fullSync setting fresh fuel guarded) := by
  induction fuel generalizing guarded with
  | zero =>
      intro world after address _ _ _ _ went
      cases went
  | succ fuel ih =>
      intro world after address sane guards queues owned went
      have walks : Walks setting (insert address {other | other ∈ guarded})
          (fullSync setting fresh fuel (address :: guarded)) := by
        have protect : insert address {other | other ∈ guarded} =
            {other | other ∈ address :: guarded} := by
          ext other
          simp
        rw [protect]
        exact ih (address :: guarded)
      simp only [fullSync] at went
      split at went
      · next isGuarded =>
        cases went
        obtain ⟨tsObj, points⟩ := (guards address isGuarded).tsObjAt
        exact ⟨by simp [points], ∅, Progress.refl sane, Or.inr isGuarded⟩
      · next unguarded =>
        simp only [Option.bind_eq_bind, Option.bind_eq_some_iff] at went
        obtain ⟨tsObj, points, filled, members, tasks⟩ := went
        have constructed : tsObjAt world.registry address ≠ none := by simp [points]
        have mine := owned constructed
        have opened : AtWork setting {other | other ∈ guarded} world address _ {address} :=
          ⟨progress_open sane mine points unguarded (setting.declared tsObj), rfl⟩
        obtain ⟨⟨visited, atWork⟩, follows, allCached⟩ := fullSyncMembers_atWork sane guards queues
          walks opened points (fun entry isIn => OrderedTable.find_eq_some_iff.mpr isIn) members
        obtain ⟨further, atWorkLast, followsTasks, -, allTasks⟩ := syncTasks_atWork sane guards
          queues walks atWork (fun task queued => (queues address task queued).2) tasks
        have filledComplete : Complete setting.thread filled address := by
          refine ⟨atWork.progress.inSync address atWork.entered, ?_⟩
          intro sameTs key storage pointed stored cacheable
          cases Option.some.inj (pointed.symm.trans (atWork.progress.follows.tsObjAt points))
          rw [atWork.progress.follows.props] at stored
          exact allCached (key, storage) (OrderedTable.find_eq_some_iff.mp stored) cacheable
        refine ⟨constructed, further, atWorkLast.leave ?_ allTasks, Or.inl atWorkLast.entered⟩
        exact followsTasks.complete (atWork.progress.mine address atWork.entered) filledComplete

end Pthreads.ObjectGraph
