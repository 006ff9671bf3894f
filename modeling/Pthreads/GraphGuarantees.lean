import Pthreads.GraphSurvival

/-!
# Results survive the thread

The walk of `pthreads_join` and of the collection of a task visits exactly what
can be reached from the thread or task through members that are not in the
creator's local tables.  A member whose container it does not visit outlives the
child only if the creator had it already, or if it was not the child's.
-/

namespace Pthreads.ObjectGraph

open GuardedRuns
open ObjectRegistry (Registry ZendObject Sound Available sound_of_reaches)
open Store

section Visits

variable {setting : Setting} {fresh : Nat → Key → Fresh} {fuel : Nat} {world synced : World}
  {address : Nat}

/-- Visits of the creator lead it nowhere else. -/
theorem visits_follow {tasks : List Nat} (sane : Sane setting.thread world)
    (queues : Queues setting world)
    (mineTasks : ∀ task ∈ tasks, Mine setting.thread world.registry task)
    (went : tasks.foldlM (fullSync setting fresh fuel []) world = some synced) :
    Follows setting.thread world synced := by
  induction tasks generalizing world with
  | nil =>
      cases went
      exact Follows.refl sane
  | cons task tasks ih =>
      simp only [List.foldlM_cons, Option.bind_eq_bind, Option.bind_eq_some_iff] at went
      obtain ⟨next, visit, went⟩ := went
      obtain ⟨-, visited, progress, -⟩ := fullSync_walks setting fresh fuel [] world next task sane
        (by simp) queues (fun _ => mineTasks task List.mem_cons_self) visit
      have follows := progress.follows
      exact follows.trans (ih follows.sane (follows.queues queues)
        (fun other isIn => follows.mine (mineTasks other (List.mem_cons_of_mem _ isIn))) went)

theorem collectTasks_follow {worker : Nat} {collect : Nat → Bool} {tasks : List Nat}
    (sane : Sane setting.thread world) (queues : Queues setting world)
    (mineWorker : Mine setting.thread world.registry worker)
    (mineTasks : ∀ task ∈ tasks, Mine setting.thread world.registry task)
    (went : collectTasks setting fresh fuel worker collect tasks world = some synced) :
    Follows setting.thread world synced := by
  induction tasks generalizing world with
  | nil =>
      cases went
      exact Follows.refl sane
  | cons task tasks ih =>
      simp only [collectTasks, Option.bind_eq_bind, Option.bind_eq_some_iff] at went
      obtain ⟨next, visit, went⟩ := went
      have queuesNow : Queues { setting with
          tasks := Function.update setting.tasks worker (task :: tasks) } world := by
        intro other queued isQueued
        by_cases same : other = worker
        · subst same
          simp only [Function.update_self] at isQueued
          exact ⟨mineWorker, mineTasks queued isQueued⟩
        · simp only [Function.update_of_ne same] at isQueued
          exact queues other queued isQueued
      obtain ⟨-, visited, progress, -⟩ := fullSync_walks { setting with
          tasks := Function.update setting.tasks worker (task :: tasks) } fresh fuel [] world next
        task sane (by simp) queuesNow (fun _ => mineTasks task List.mem_cons_self) visit
      have follows : Follows setting.thread world next := progress.follows
      split at went
      · exact follows.trans (ih follows.sane (follows.queues queues) (follows.mine mineWorker)
          (fun other isIn => follows.mine (mineTasks other (List.mem_cons_of_mem _ isIn))) went)
      · cases went
        exact follows

/-- The thread or task is visited first, and what is visited after it changes
nothing for the creator. -/
theorem HandsOver.visit (sane : Sane setting.thread world) (queues : Queues setting world)
    (mine : Mine setting.thread world.registry address)
    (handsOver : HandsOver setting fresh fuel world address synced) :
    ∃ first, fullSync setting fresh fuel [] world address = some first ∧
      Follows setting.thread first synced := by
  have walks := fullSync_walks setting fresh fuel []
  rcases handsOver with joined | ⟨worker, collect, tasks, queue, collected⟩
  · simp only [joinSync, Option.bind_eq_bind, Option.bind_eq_some_iff] at joined
    obtain ⟨first, visit, went⟩ := joined
    obtain ⟨-, visited, progress, -⟩ :=
      walks world first address sane (by simp) queues (fun _ => mine) visit
    have follows := progress.follows
    exact ⟨first, visit, visits_follow follows.sane (follows.queues queues)
      (fun task queued => follows.mine (queues address task queued).2) went⟩
  · have same : { setting with
        tasks := Function.update setting.tasks worker (address :: tasks) } = setting := by
      rw [← queue, Function.update_eq_self]
    rw [queue] at collected
    simp only [collectTasks, Option.bind_eq_bind, Option.bind_eq_some_iff, same] at collected
    obtain ⟨first, visit, went⟩ := collected
    obtain ⟨-, visited, progress, -⟩ :=
      walks world first address sane (by simp) queues (fun _ => mine) visit
    have follows := progress.follows
    refine ⟨first, visit, ?_⟩
    split at went
    · have isQueued : ∀ task ∈ tasks, task ∈ setting.tasks worker := by
        intro task isIn
        rw [queue]
        exact List.mem_cons_of_mem _ isIn
      have mineWorker := (queues worker address (by rw [queue]; exact List.mem_cons_self)).1
      exact collectTasks_follow follows.sane (follows.queues queues) (follows.mine mineWorker)
        (fun task isIn => follows.mine (queues worker task (isQueued task isIn)).2) went
    · cases went
      exact Follows.refl follows.sane

/-- The walk leaves behind it every place that it can come to. -/
theorem Progress.visits {guarded visited : Set Nat} {root : Nat}
    (progress : Progress setting guarded ∅ world synced visited) (sane : Sane setting.thread world)
    (unguarded : ∀ other, other ∉ guarded) (mine : Mine setting.thread world.registry root)
    (queues : Queues setting world) (entered : root ∈ visited) {place : Place}
    (isVisited : Visited setting world root place) :
    Present setting.thread world.registry place ∧
      ∃ other ∈ visited, relocate synced.registry setting.thread place = .held other := by
  induction isVisited with
  | root => exact ⟨mine, root, entered, rfl⟩
  | @member place next key handle _ stored uncached leads ih =>
      obtain ⟨present, other, isIn, relocated⟩ := ih
      refine ⟨(placeOf_present sane.sound leads).1, ?_⟩
      obtain ⟨zobj, -, found, -⟩ := placeOf_cases leads
      have isMine := progress.mine other isIn
      obtain ⟨tsObj, points⟩ := Option.bind_eq_some_iff.mp stored
      have pointsAfter : tsObjAt synced.registry other = some tsObj := by
        have same := progress.follows.place_tsObj points.1
        rwa [relocated] at same
      have complete := progress.complete other isIn (by simp)
      obtain ⟨value, cached⟩ := complete.filled tsObj key (.pthreads handle) pointsAfter
        (by rw [progress.follows.props]; exact points.2) rfl
      -- the table of the visited object leads where the place led before the walk
      have answered := progress.follows.answers place key next present
        ((answer_of_uncached uncached stored).trans leads)
      have firm : Firm setting.thread synced other key value := ⟨complete.inSync, cached⟩
      rw [relocated] at answered
      rcases answer_cases answered with ⟨object, isCached, leadsTo⟩ | ⟨notCached, -⟩
      · have isValue := Option.some.inj ((firm.cachedAt isMine).symm.trans isCached)
        subst isValue
        have missing : Missing setting.thread world other key := by
          cases place with
          | held address =>
              cases relocated
              exact Or.inr uncached
          | unheld shared =>
              left
              simp only [relocate] at relocated
              split at relocated
              · next connection isThere =>
                cases relocated
                rcases progress.follows.arrived shared other isThere with earlier | unused
                · simp only [Present] at present
                  rw [present] at earlier
                  cases earlier
                · exact unused
              · cases relocated
        obtain (isObject | isGuarded) := progress.closed other isIn tsObj key handle object
          pointsAfter points.2 (by simp [found]) missing cached
        · exact ⟨object, isObject, leadsTo⟩
        · exact absurd isGuarded (unguarded object)
      · rw [firm.cachedAt isMine] at notCached
        cases notCached
  | @task address task _ queued ih =>
      obtain ⟨-, other, isIn, relocated⟩ := ih
      cases relocated
      refine ⟨(queues address task queued).2, task, ?_, rfl⟩
      rcases progress.tasks address isIn (by simp) task queued with isTask | isGuarded
      · exact isTask
      · exact absurd isGuarded (unguarded task)

end Visits

section Survival

variable {setting : Setting} {world synced : World} {child root : Nat}

/-- A member that is secured before the walk endures after it. -/
theorem endures_of_secured {place : Place} {tsObj next handle : Nat} {key : Key}
    (follows : Follows setting.thread world synced)
    (reached : Visited setting world root place → ∃ other,
      Complete setting.thread synced other ∧
      relocate synced.registry setting.thread place = .held other)
    (present : Present setting.thread world.registry place)
    (points : place.tsObj world.registry = some tsObj)
    (stored : (world.props tsObj).hash.find key = some (.pthreads handle))
    (pointsNext : tsObjAt world.registry handle = some next)
    (secured : Visited setting world root place ∨
      world.firm setting.thread place key = true ∨
        ∀ handle, world.storageAt place key = some (.pthreads handle) →
          ¬ ownedBy world.registry child handle) :
    Endures setting.thread child synced (relocate synced.registry setting.thread place) key := by
  have pointsAfter := follows.place_tsObj points
  rcases secured with isVisited | isFirm | foreign
  · obtain ⟨other, complete, relocated⟩ := reached isVisited
    rw [relocated] at pointsAfter ⊢
    obtain ⟨value, cached⟩ := complete.filled tsObj key (.pthreads handle) pointsAfter
      (by rw [follows.props]; exact stored) rfl
    exact Or.inl ⟨other, value, rfl, complete.inSync, cached⟩
  · cases place with
    | unheld shared => cases isFirm
    | held address =>
        simp only [World.firm, Option.any_eq_true_iff_get, decide_eq_true_eq] at isFirm
        obtain ⟨isSome, inSync, isCached⟩ := isFirm
        obtain ⟨value, cached⟩ := Option.isSome_iff_exists.mp isCached
        refine Or.inl ⟨address, value, rfl, follows.firm address key value present ⟨?_, cached⟩⟩
        intro other pointed
        have same : (tsObjAt world.registry address).get isSome = other := by simp [pointed]
        rw [← same]
        exact inSync
  · obtain ⟨zobj, found, isTs⟩ := Option.bind_eq_some_iff.mp pointsNext
    refine Or.inr ⟨handle, zobj, ?_, follows.kept handle zobj found, ?_⟩
    · simp only [World.storageAt, pointsAfter, Option.bind_some, follows.props]
      exact stored
    · intro owned
      apply foreign handle
      · simp only [World.storageAt, points, Option.bind_some]
        exact stored
      · simp [ownedBy, found, owned]

/-- A trail that is secured before the walk endures after it. -/
theorem enduringChain_of_secured (sane : Sane setting.thread world)
    (follows : Follows setting.thread world synced)
    (reached : ∀ place, Visited setting world root place → ∃ other,
      Complete setting.thread synced other ∧
      relocate synced.registry setting.thread place = .held other)
    {place : Place} {tsObj : Nat} {trail : List (KeyZval × Nat)}
    (present : Present setting.thread world.registry place)
    (points : place.tsObj world.registry = some tsObj) (isTrail : Trail world tsObj trail)
    (secured : Secured setting world child root place trail) :
    EnduringChain setting.thread child synced (relocate synced.registry setting.thread place)
      trail := by
  induction trail generalizing place tsObj with
  | nil => trivial
  | cons step rest ih =>
      obtain ⟨⟨handle, stored, -, pointsNext⟩, isRest⟩ := isTrail
      obtain ⟨next, answers, sameTs, isSecured, securedRest⟩ := secured
      exact ⟨_, follows.answers place _ next present answers, follows.place_tsObj sameTs,
        endures_of_secured follows (reached place) present points stored pointsNext isSecured,
        ih (sane.present_of_answer present answers) sameTs isRest securedRest⟩

end Survival

/-- The bytes of "a" and "x". -/
def arrayName : KeyZval := .string [97]
def subName : KeyZval := .string [120]

/-- Thread 1 creates a thread object at 8, to which the child 2 connects at 16.  The
child creates an array at 24 and another at 32. -/
def childBuilds : List ObjectRegistry.Action :=
  [.alloc 8, .construct 1 8 100, .publish 8, .alloc 16, .construct 2 16 101, .connect 8 16,
    .alloc 24, .construct 2 24 200, .publish 24, .alloc 32, .construct 2 32 300, .publish 32]

/-- Thread 1 creates the array at 24 as well, and the child connects to it at 40. -/
def creatorBuilds : List ObjectRegistry.Action :=
  [.alloc 8, .construct 1 8 100, .publish 8, .alloc 24, .construct 1 24 200, .publish 24,
    .alloc 16, .construct 2 16 101, .connect 8 16, .restore 2 24 40 201, .alloc 32,
    .construct 2 32 300, .publish 32]

def built (actions : List ObjectRegistry.Action) : Registry :=
  (execute ObjectRegistry.step ObjectRegistry.initial actions).getD ObjectRegistry.initial

/-- The thread object has the first array as a member, and that has the second. -/
def nestedProps : Nat → Props :=
  Function.update (Function.update (fun _ => storeInit) 100
    ⟨HashTable.empty.update (coerce arrayName) (.pthreads 24), 0⟩) 200
    ⟨HashTable.empty.update (coerce subName) (.pthreads 32), 0⟩

def creatorSetting : Setting := ⟨1, fun _ _ _ => false, fun _ => [], fun _ => false, fun _ => []⟩

def nestedTrail : List (KeyZval × Nat) := [(arrayName, 200), (subName, 300)]

/-- The creator has nothing in its tables. -/
def childBuilt : World := ⟨built childBuilds, nestedProps, fun _ => ⟨none, -1⟩⟩

/-- The creator has the first array in the table of the thread object, as it
assigned it. -/
def creatorBuilt : World := ⟨built creatorBuilds, nestedProps,
  Function.update (fun _ => ⟨none, -1⟩) 8
    ⟨some (OrderedTable.empty.update (coerce arrayName) (.threaded 24)), 0⟩⟩

/-- New connections of the creator. -/
def nextAddress (address : Nat) (_ : Key) : Fresh := ⟨0, address + 1000, address + 2000⟩

/-- The child frees its objects. -/
def childFrees : List (Nat × (Key → Nat)) :=
  [(16, fun _ => 0), (24, fun _ => 0), (32, fun _ => 0)]

end Pthreads.ObjectGraph
