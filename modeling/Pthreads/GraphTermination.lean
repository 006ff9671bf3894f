import Pthreads.CopyTermination
import Pthreads.GraphRecords

/-!
# The walk over a graph of Threaded objects ends

The walk that copies closures does what the walk does that records them, as long as the
copying of each ends.  A closure that is bound to itself keeps it from ending.
-/

namespace Pthreads.ObjectGraph

open PartialFolds RecordedEffects RecursiveCalls
open ObjectRegistry (Registry ZendObject Sound addressLimit)
open Relation (ReflTransGen TransGen)
open Store

section Mirrors

variable {Tables : Type} {setting : Setting} {copyClosure : Tables → Closure → Option Tables}
  {initially : Tables}

instance : Holding Walking where
  held state := state.tables
  replace state tables := ⟨state.world, state.isRecursive, state.next, tables⟩
  held_replace _ _ := rfl
  replace_replace _ _ _ := rfl

theorem copyStored_mirrors (copied : List Closure) (storage : Storage) :
    Mirrors Alone copyClosure initially copied (copyStored record copied storage)
      fun tables => copyStored copyClosure tables storage := by
  cases storage with
  | closure closure owner => exact mirrors_alone copied closure
  | _ => exact mirrors_some rfl fun _ => rfl

/-- Restoring a member. -/
theorem restoreMember_mirrors (state : Walking (List Closure)) (storage : Storage) :
    Mirrors (Beside Walking Zval) copyClosure initially (held state)
      (restoreMember setting record state storage)
      fun tables => restoreMember setting copyClosure (replace state tables) storage := by
  have placed : ∀ closures : List Closure, Mirrors (Beside Walking Zval) copyClosure initially
      closures (placeMember setting state storage closures)
      fun tables => placeMember setting (replace state initially) storage tables := by
    intro closures
    unfold placeMember
    cases restoreZval setting.enumCases state.world.registry setting.thread
        ⟨state.next, state.next, state.next⟩ storage with
    | none => exact mirrors_none
    | some found =>
      have sameNext : (replace state initially).next = state.next := rfl
      simp only [Option.map_some, sameNext]
      split
      · exact mirrors_some rfl fun _ => rfl
      · exact mirrors_some rfl fun _ => rfl
  -- what is placed does not depend on the tables of the state
  have bound : Mirrors (Beside Walking Zval) copyClosure initially (held state)
      ((copyStored record state.tables storage).bind (placeMember setting state storage))
      fun tables => (copyStored copyClosure tables storage).bind
        (placeMember setting (replace state initially) storage) := by
    apply Mirrors.bind (copyStored_mirrors state.tables storage)
    exact placed
  exact bound.congr rfl fun _ => rfl

variable {recorded : Nat → Walking (List Closure) → Option (Walking (List Closure))}
  {recurse : Nat → Walking Tables → Option (Walking Tables)}
variable (calls : ∀ address state, Mirrors Walking copyClosure initially (held state)
  (recorded address state) fun tables => recurse address (replace state tables))
include calls

theorem syncMember_mirrors (address : Nat) (state : Walking (List Closure))
    (entry : Key × Storage) :
    Mirrors Walking copyClosure initially (held state)
      (syncMember setting record recorded address state entry)
      fun tables => syncMember setting copyClosure recurse address (replace state tables)
        entry := by
  apply Mirrors.ite
  · intro _
    exact mirrors_some rfl fun _ => rfl
  · intro _
    apply (restoreMember_mirrors state entry.2).bind
    rintro ⟨restored, value⟩
    have descends : Mirrors Walking copyClosure initially (held restored)
        (descendInto recorded restored value)
        fun tables => descendInto recurse (replace restored tables) value := by
      cases value with
      | threaded object => exact calls object restored
      | _ => exact mirrors_some rfl fun _ => rfl
    exact descends.map (fun _ => rfl) fun _ _ => rfl

theorem fullSyncBody_mirrors (address : Nat) (state : Walking (List Closure)) :
    Mirrors Walking copyClosure initially (held state)
      (fullSyncBody setting record recorded address state)
      fun tables => fullSyncBody setting copyClosure recurse address (replace state tables) := by
  apply Mirrors.ite
  · intro _
    exact mirrors_some rfl fun _ => rfl
  · intro _
    have sameWorld : ∀ tables : Tables, (replace state tables).world = state.world :=
      fun _ => rfl
    simp only [sameWorld]
    cases tsObjAt state.world.registry address with
    | none => exact mirrors_none
    | some tsObj =>
      have member : ∀ state entry, Mirrors Walking copyClosure initially (held state)
          (syncMember setting record recorded address state entry)
          fun tables => syncMember setting copyClosure recurse address (replace state tables)
            entry := syncMember_mirrors calls address
      have tasks : ∀ state task, Mirrors Walking copyClosure initially (held state)
          (recorded task state) fun tables => recurse task (replace state tables) :=
        fun state task => calls task state
      apply (Mirrors.foldlM member (state.world.props tsObj).hash.table.entries
        (state.enter setting address tsObj)).bind
      intro filled
      apply (Mirrors.foldlM tasks (setting.tasks address) filled).bind
      intro visited
      exact mirrors_some rfl fun _ => rfl

end Mirrors

section Copying

variable {Address : Type} [DecidableEq Address] {functions : Functions Address}
  {memo : ValueCopies.Memo Address}

/-- The copying of a stored closure ends: nothing that it comes to leads back to itself. -/
def Functions.CopyingEnds (functions : Functions Address) (memo : ValueCopies.Memo Address)
    (closure : Closure) : Prop :=
  ∀ other, ReflTransGen (functions.heap.Calls memo) (functions.task closure) other →
    ¬ TransGen (functions.heap.Calls memo) other other

theorem copyClosures_ensure {depth : Nat} {closures : List Closure}
    {state after : ValueCopies.Memo Address} (since : memo.Since functions.heap state)
    (copied : closures.foldlM (functions.copyClosure depth) state = some after) :
    ∀ closure ∈ closures, Ends (functions.heap.Calls memo) (functions.task closure) := by
  induction closures generalizing state with
  | nil => exact fun closure isIn => absurd isIn List.not_mem_nil
  | cons closure closures ih =>
    obtain ⟨middle, first, others⟩ := Option.bind_eq_some_iff.mp copied
    obtain ⟨⟨memoAfter, result⟩, done, rfl⟩ := Option.map_eq_some_iff.mp first
    obtain ⟨sinceMiddle, ends⟩ := ValueCopies.ensures_ends depth _ state memoAfter result since done
    exact List.forall_mem_cons.mpr ⟨ends, ih sinceMiddle others⟩

/-- With some depth all of a list of closures are copied, one after the other, exactly
when the copying of each ends. -/
theorem copyClosures_end_iff [Finite Address] {closures : List Closure} :
    (∃ depth after, closures.foldlM (functions.copyClosure depth) memo = some after) ↔
      ∀ closure ∈ closures, functions.CopyingEnds memo closure := by
  constructor
  · rintro ⟨depth, after, copied⟩ closure isIn
    exact (ends_iff _).mp (copyClosures_ensure (.refl memo) copied closure isIn)
  · intro ends
    have each : ∀ task ∈ closures.map functions.task,
        ∃ depth, functions.heap.Copies functions.receiver memo depth task := by
      intro task isIn
      obtain ⟨closure, isClosure, rfl⟩ := List.mem_map.mp isIn
      exact ValueCopies.copies_of_ends _ ((ends_iff _).mpr (ends closure isClosure))
    obtain ⟨depth, copies⟩ := ValueCopies.exists_common_fuel each
    have all : ∀ state, memo.Within state → ∀ closure ∈ closures,
        ∃ after, functions.copyClosure depth state closure = some after ∧ memo.Within after := by
      intro state within closure isIn
      obtain ⟨after, result, done, kept⟩ := copies _ (List.mem_map_of_mem isIn) state within
      exact ⟨after, Option.map_eq_some_iff.mpr ⟨(after, result), done, rfl⟩, kept⟩
    obtain ⟨after, copied, -⟩ := foldlM_total all (ValueCopies.Memo.Within.refl memo)
    exact ⟨depth, after, copied⟩

end Copying

section Main

variable {Tables : Type} {setting : Setting} {copyClosure : Tables → Closure → Option Tables}
  {initially : Tables}

theorem fullSyncLocalProperties_mirrors (fuel address : Nat) (state : Walking (List Closure)) :
    Mirrors Walking copyClosure initially (held state)
      (fullSyncLocalProperties setting record fuel address state)
      fun tables => fullSyncLocalProperties setting copyClosure fuel address
        (replace state tables) := by
  induction fuel generalizing address state with
  | zero => exact mirrors_none
  | succ fuel ih => exact fullSyncBody_mirrors ih address state

section Fuel

variable {recurse more : Nat → Walking Tables → Option (Walking Tables)}
variable (calls : ∀ address state, Below (recurse address state) (more address state))
include calls

theorem syncMember_below (address : Nat) (state : Walking Tables) (entry : Key × Storage) :
    Below (syncMember setting copyClosure recurse address state entry)
      (syncMember setting copyClosure more address state entry) := by
  apply Below.ite
  · exact Below.refl _
  · apply (Below.refl _).bind
    rintro ⟨restored, value⟩
    cases value with
    | threaded object =>
      rintro after done
      obtain ⟨deeper, descended, isAfter⟩ := Option.map_eq_some_iff.mp done
      exact Option.map_eq_some_iff.mpr ⟨deeper, calls object restored deeper descended, isAfter⟩
    | _ => exact Below.refl _

theorem fullSyncBody_below (address : Nat) (state : Walking Tables) :
    Below (fullSyncBody setting copyClosure recurse address state)
      (fullSyncBody setting copyClosure more address state) := by
  apply Below.ite
  · exact Below.refl _
  · apply (Below.refl _).bind
    intro tsObj
    apply (below_foldlM (syncMember_below calls address) _ _).bind
    intro filled
    apply (below_foldlM (fun state task => calls task state) _ filled).bind
    exact fun tasks => Below.refl _

end Fuel

/-- More fuel does not change what the walk does. -/
theorem fullSyncLocalProperties_le {fuel larger : Nat} (enough : fuel ≤ larger) (address : Nat)
    (state : Walking Tables) :
    Below (fullSyncLocalProperties setting copyClosure fuel address state)
      (fullSyncLocalProperties setting copyClosure larger address state) := by
  have once : ∀ fuel address (state : Walking Tables),
      Below (fullSyncLocalProperties setting copyClosure fuel address state)
        (fullSyncLocalProperties setting copyClosure (fuel + 1) address state) := by
    intro fuel
    induction fuel with
    | zero => exact fun _ _ after done => absurd done (Option.some_ne_none after).symm
    | succ fuel ih => exact fullSyncBody_below ih
  induction enough with
  | refl => exact Below.refl _
  | step _ ih => exact ih.trans (once _ address state)

theorem comes_replace {Other : Type} {start : Walking Other} {tables : Tables} {root : Nat}
    {place : Place} (comes : Comes setting (replace start tables) root place) :
    Comes setting start root place := by
  induction comes with
  | root unprotected => exact .root unprotected
  | member _ stored uncached leads unprotected ih =>
    exact .member ih stored uncached leads unprotected
  | task _ queued unprotected ih => exact .task ih queued unprotected

/-- What the walk copies does not depend on the tables. -/
theorem restores_replace {Other : Type} {start : Walking Other} {tables : Tables} {root : Nat}
    {closure : Closure} :
    Restores setting (replace start tables) root closure ↔
      Restores setting start root closure := by
  constructor
  · rintro ⟨place, key, owner, comes, stored, uncached⟩
    exact ⟨place, key, owner, comes_replace comes, stored, uncached⟩
  · rintro ⟨place, key, owner, comes, stored, uncached⟩
    have same : start = replace (replace start tables) start.tables := rfl
    rw [same] at comes
    exact ⟨place, key, owner, comes_replace comes, stored, uncached⟩

theorem WalkReady.replace {Other : Type} {state : Walking Other}
    (ready : WalkReady setting state) (tables : Tables) :
    WalkReady setting (replace state tables) :=
  ⟨ready.sane, ready.zobjs, ready.tsObjs, ready.flags, ready.positive, ready.room,
    ready.handles, ready.settled, ready.queues⟩

section Copies

variable {Address : Type} [DecidableEq Address] (functions : Functions Address)
  {state : Walking (ValueCopies.Memo Address)} {address : Nat}

/-- With enough fuel what is left of the walk is the copying of the closures, in the
order in which it restores them. -/
theorem fullSyncLocalProperties_copies (ready : WalkReady setting state)
    (mine : Mine setting.thread state.world.registry address) {fuel : Nat}
    (enough : state.measure setting.thread < fuel) :
    ∃ recorded : Walking (List Closure), recorded.isRecursive = state.isRecursive ∧
      (∀ closure, closure ∈ recorded.tables ↔ Restores setting state address closure) ∧
      ∀ depth, fullSyncLocalProperties setting (functions.copyClosure depth) fuel address state =
        (recorded.tables.foldlM (functions.copyClosure depth) state.tables).map
          (replace recorded) := by
  obtain ⟨recorded, done, flags, isRecorded⟩ :=
    record_ends (ready.replace ([] : List Closure)) rfl mine enough
  refine ⟨recorded, flags, fun closure => (isRecorded closure).trans restores_replace, ?_⟩
  intro depth
  have mirrors : Mirrors Walking (functions.copyClosure depth) state.tables []
      (fullSyncLocalProperties setting record fuel address (replace state []))
      fun tables => fullSyncLocalProperties setting (functions.copyClosure depth) fuel address
        (replace state tables) := fullSyncLocalProperties_mirrors fuel address (replace state [])
  exact mirrors.performs done

theorem copyingEnds_of_synced [Finite Address] (ready : WalkReady setting state)
    (mine : Mine setting.thread state.world.registry address) {depth fuel : Nat}
    {after : Walking (ValueCopies.Memo Address)}
    (done : fullSyncLocalProperties setting (functions.copyClosure depth) fuel address state =
      some after) {closure : Closure} (restores : Restores setting state address closure) :
    functions.CopyingEnds state.tables closure := by
  have larger := fullSyncLocalProperties_le
    (Nat.le_max_left fuel (state.measure setting.thread + 1)) _ _ _ done
  obtain ⟨recorded, -, isRecorded, copies⟩ := fullSyncLocalProperties_copies functions ready mine
    (Nat.le_max_right fuel (state.measure setting.thread + 1))
  rw [copies depth] at larger
  obtain ⟨tables, copied, -⟩ := Option.map_eq_some_iff.mp larger
  exact copyClosures_end_iff.mp ⟨depth, tables, copied⟩ closure ((isRecorded closure).mpr restores)

end Copies

end Main

section Example

open GuardedRuns

/-- A worker at 8 with a task at 16, which belong to thread 1, and an array at 24, which
belongs to thread 2. -/
def workerBuilds : List ObjectRegistry.Action :=
  [.alloc 8, .construct 1 8 100, .publish 8, .alloc 16, .construct 1 16 101, .publish 16,
    .alloc 24, .construct 2 24 102, .publish 24]

def workerBuilt : Registry :=
  (execute ObjectRegistry.step ObjectRegistry.initial workerBuilds).getD ObjectRegistry.initial

/-- The task refers to its worker and to the array, and the array to the task.  A closure
is in the array. -/
def cyclicProps : Nat → Props :=
  Function.update (Function.update (fun _ => storeInit) 101
    ⟨(HashTable.empty.update (coerce (.string [119])) (.pthreads 8)).update
      (coerce (.string [97])) (.pthreads 24), 0⟩) 102
    ⟨(HashTable.empty.update (coerce (.string [116])) (.pthreads 16)).update
      (coerce (.string [102])) (.closure ⟨0, 2⟩ 2), 0⟩

def workerSetting : Setting :=
  ⟨1, fun _ _ _ => false, fun _ => [], fun _ => false, Function.update (fun _ => []) 8 [16]⟩

def workerWalk : Walking (ValueCopies.Memo (Fin 2)) :=
  ⟨⟨workerBuilt, cyclicProps, fun _ => ⟨none, -1⟩⟩, fun _ => false, 200, ValueCopies.freshMemo⟩

theorem workerBuilt_zobjs (address : Nat) (zobj : ZendObject)
    (found : workerBuilt.zobjs address = some zobj) :
    address ≤ 24 ∧ zobj.tsObj.isSome := by
  have zobjs : workerBuilt.zobjs = Function.update (Function.update
      (Function.update (fun _ => none) 8 (some ⟨some 100, some 1, none, false⟩)) 16
      (some ⟨some 101, some 1, none, false⟩)) 24 (some ⟨some 102, some 2, none, false⟩) := by
    simp [workerBuilt, workerBuilds, execute, ObjectRegistry.step,
      ObjectRegistry.globalsObjectAlloc, ObjectRegistry.initial, ObjectRegistry.baseCtor,
      addressLimit]
  rw [zobjs] at found
  simp only [Function.update_apply] at found
  split at found
  · next isArray => exact ⟨by omega, by cases found; rfl⟩
  · split at found
    · next isTask => exact ⟨by omega, by cases found; rfl⟩
    · split at found
      · next isWorker => exact ⟨by omega, by cases found; rfl⟩
      · cases found

theorem workerBuilt_sound : Sound workerBuilt :=
  ObjectRegistry.sound_of_reaches
    (reaches_of_execute (admits_anyAction _ _ workerBuilds) rfl)

/-- A shared object is referred to by an object. -/
theorem workerBuilt_tsObjs (tsObj : Nat) (above : 200 ≤ tsObj) :
    workerBuilt.tsObjs tsObj = none := by
  have tsObjs : workerBuilt.tsObjs = Function.update (Function.update
      (Function.update (fun _ => none) 100 (some ⟨1, 1, 0⟩)) 101
      (some ⟨1, 1, 1⟩)) 102 (some ⟨1, 2, 2⟩) := by
    simp [workerBuilt, workerBuilds, execute, ObjectRegistry.step,
      ObjectRegistry.globalsObjectAlloc, ObjectRegistry.initial, ObjectRegistry.baseCtor,
      addressLimit]
  rw [tsObjs, Function.update_of_ne (by omega), Function.update_of_ne (by omega),
    Function.update_of_ne (by omega)]

theorem cyclicProps_handles {tsObj handle : Nat} {key : Key}
    (stored : (cyclicProps tsObj).hash.find key = some (.pthreads handle)) : handle ≤ 24 := by
  have two : ∀ {first second : Key} {one other : Storage},
      ((HashTable.empty.update first one).update second other).find key =
        some (.pthreads handle) → other = .pthreads handle ∨ one = .pthreads handle := by
    intro first second one other found
    rcases OrderedTable.find_update_cases found with ⟨-, isOther⟩ | earlier
    · exact Or.inl isOther.symm
    · rcases OrderedTable.find_update_cases earlier.2 with ⟨-, isOne⟩ | absent
      · exact Or.inr isOne.symm
      · cases absent.2
  simp only [cyclicProps, Function.update_apply] at stored
  split at stored
  · rcases two stored with isClosure | isTask
    · cases isClosure
    · cases isTask
      decide
  · split at stored
    · rcases two stored with isArray | isWorker
      · cases isArray
        decide
      · cases isWorker
        decide
    · cases stored

theorem workerWalk_ready : WalkReady workerSetting workerWalk where
  sane := ⟨workerBuilt_sound, fun _ _ _ _ _ isTable => by cases isTable⟩
  zobjs address above := by
    by_contra existed
    obtain ⟨zobj, found⟩ := Option.ne_none_iff_exists'.mp existed
    have below := (workerBuilt_zobjs address zobj found).1
    have above : 200 ≤ address := above
    omega
  tsObjs := workerBuilt_tsObjs
  flags _ _ := rfl
  positive := by decide
  room := by
    have few : (workerWalk.unresolved workerSetting.thread).card ≤ 200 :=
      (Finset.card_filter_le _ _).trans (Nat.le_of_eq (Finset.card_range 200))
    show 200 + _ < addressLimit
    unfold addressLimit
    omega
  handles _ _ handle stored := by
    have below := cyclicProps_handles stored
    show handle < 200
    omega
  settled _ _ handle _ zobj found := (workerBuilt_zobjs handle zobj found).2
  queues address task queued := by
    unfold workerSetting at queued
    dsimp only at queued
    rw [Function.update_apply] at queued
    split at queued
    · next isWorker =>
      cases List.mem_singleton.mp queued
      subst isWorker
      exact ⟨⟨_, rfl, rfl, rfl⟩, ⟨_, rfl, rfl, rfl⟩⟩
    · cases queued

/-- The worker's task leads to the array, and the array has the closure. -/
theorem workerWalk_restores : Restores workerSetting workerWalk 8 ⟨0, 2⟩ := by
  have worker : Comes workerSetting workerWalk 8 (.held 8) := .root rfl
  have task : Comes workerSetting workerWalk 8 (.held 16) :=
    .task worker (List.mem_singleton_self _) rfl
  have stored : workerWalk.world.storageAt (.held 16) (coerce (.string [97])) =
      some (.pthreads 24) := rfl
  have array : Comes workerSetting workerWalk 8 (.unheld 102) := .member task stored rfl rfl rfl
  exact ⟨_, coerce (.string [102]), 2, array, rfl, rfl⟩

end Example

end Pthreads.ObjectGraph
