import Pthreads.ObjectRegistry

/-!
# Lifetimes of shared objects over whole runs

Every critical section keeps the registry sound, and apart from freeing and
connecting none of them detaches a zend object.  So over any run the reference
counts follow the attached objects, and a shared object goes exactly when its
last object is freed or attached elsewhere.
-/

namespace Pthreads.ObjectRegistry

open GuardedRuns

theorem attached_congr {registry after : Registry} (objects : after.objects = registry.objects)
    (points : ∀ address, (after.zobjs address).bind ZendObject.tsObj =
      (registry.zobjs address).bind ZendObject.tsObj) (tsObj : Nat) :
    attached after tsObj = attached registry tsObj := by
  simp only [attached, objects, points]

theorem publish_sound {registry : Registry} (sound : Sound registry) {address : Nat}
    {zobj : ZendObject} (found : registry.zobjs address = some zobj) :
    Sound { registry with
      zobjs := Function.update registry.zobjs address (some { zobj with fresh := false }) } := by
  have same : ∀ tsObj, attached { registry with
      zobjs := Function.update registry.zobjs address (some { zobj with fresh := false }) } tsObj =
        attached registry tsObj := by
    refine attached_congr rfl ?_
    intro other
    by_cases equal : other = address
    · subst equal; simp [found]
    · simp [equal]
  refine ⟨?_, ?_, ?_, ?_, ?_⟩
  · simp [sound.ne_null found, sound.null]
  · intro other
    by_cases equal : other = address
    · subst equal; simp [sound.table, found]
    · simp [equal, sound.table]
  · intro tsObj shared present
    rw [same]
    exact sound.counted tsObj shared present
  · intro tsObj
    rw [same]
    exact sound.live tsObj
  · intro thread tsObj connection present
    obtain ⟨resolved, isThere, facts⟩ := sound.resolved thread tsObj connection present
    by_cases equal : connection = address
    · subst equal
      cases Option.some.inj (isThere.symm.trans found)
      exact ⟨{ zobj with fresh := false }, by simp, facts.1, facts.2.1, rfl⟩
    · exact ⟨resolved, by simp [equal, isThere], facts⟩

/-- Every critical section keeps the registry sound. -/
theorem step_sound {registry after : Registry} {action : Action} (sound : Sound registry)
    (stepped : step registry action = some after) : Sound after := by
  cases action with
  | alloc address => exact globalsObjectAlloc_sound sound stepped
  | construct thread address tsObj => exact baseCtor_sound sound stepped
  | publish address =>
      obtain ⟨zobj, found, rfl⟩ := publish_eq stepped
      exact publish_sound sound found
  | connect source destination =>
      obtain ⟨different, origin, target, own, -, targetFound, isFresh, owns, -, connected⟩ :=
        connect_eq stepped
      exact connectNolock_sound sound different targetFound owns isFresh connected
  | restore thread address newAddress newTs =>
      obtain ⟨⟨result, outcome⟩, connected, rfl⟩ := Option.map_eq_some_iff.mp stepped
      exact globalsObjectConnect_sound sound connected
  | free thread address => exact baseFree_sound sound stepped
  | save address =>
      obtain ⟨zobj, tsObj, shared, -, -, -, -, rfl⟩ := save_eq stepped
      exact ⟨sound.null, sound.table, sound.counted, sound.live, sound.resolved⟩

theorem sound_of_reaches {allowed : Registry → Action → Prop} {registry : Registry}
    (reached : Reaches step allowed initial registry) : Sound registry :=
  reached.preserves (fun _ _ _ sound _ stepped => step_sound sound stepped) sound_initial

/-- A new connection leaves the objects that were there as they were. -/
theorem Creates.keeps {registry allocated constructed connected after : Registry}
    {thread address newAddress newTs shared : Nat}
    (creates : Creates registry thread address newAddress newTs allocated constructed connected
      after shared) {other : Nat} (different : other ≠ newAddress) :
    after.zobjs other = registry.zobjs other := by
  obtain ⟨-, ⟨⟩⟩ := Option.ite_none_right_eq_some.mp creates.alloc
  obtain ⟨-, -, rfl⟩ := baseCtor_zobjs creates.construct
  obtain ⟨target, origin, same, -, -, -, zobjs, -⟩ := connectNolock_zobjs creates.connect
  rw [creates.result]
  simp [zobjs, different]

/-- Where a new connection stands, nothing stood before. -/
theorem Creates.unused {registry allocated constructed connected after : Registry}
    {thread address newAddress newTs shared : Nat}
    (creates : Creates registry thread address newAddress newTs allocated constructed connected
      after shared) : registry.zobjs newAddress = none :=
  (Option.ite_none_right_eq_some.mp creates.alloc).1.1

/-- Restoring changes no object that was there. -/
theorem globalsObjectConnect_keeps {registry after : Registry} {result : Option Nat}
    {thread address newAddress newTs other : Nat} {zobj : ZendObject}
    (connected : globalsObjectConnect registry thread address newAddress newTs =
      some (after, result)) (found : registry.zobjs other = some zobj) :
    after.zobjs other = some zobj := by
  rcases globalsObjectConnect_cases connected with ⟨-, rfl, -⟩ | ⟨source, -, -, rest⟩
  · exact found
  · rcases rest with ⟨-, rfl, -⟩ | ⟨shared, -, ⟨connection, -, rfl, -⟩ | ⟨created, -⟩⟩
    · exact found
    · exact found
    · obtain ⟨allocated, constructed, joined, target, creates⟩ := createConnection_creates created
      have different : other ≠ newAddress := by
        rintro rfl
        simp [creates.unused] at found
      rw [creates.keeps different, found]

/-- A constructed object stays as it is until it is freed or connected, but for
becoming visible. -/
theorem step_keeps {registry after : Registry} {action : Action} {address tsObj : Nat}
    {zobj : ZendObject} (stepped : step registry action = some after)
    (found : registry.zobjs address = some zobj) (points : zobj.tsObj = some tsObj)
    (notFreed : ∀ thread, action ≠ .free thread address)
    (notConnected : ∀ source, action ≠ .connect source address) :
    after.zobjs address = some zobj ∨
      after.zobjs address = some { zobj with fresh := false } := by
  cases action with
  | alloc other =>
      obtain ⟨⟨unused, -⟩, ⟨⟩⟩ := Option.ite_none_right_eq_some.mp stepped
      have different : address ≠ other := by
        rintro rfl
        simp [unused] at found
      exact Or.inl (by simp [different, found])
  | construct thread other newTs =>
      obtain ⟨blank, -, rfl⟩ := baseCtor_zobjs stepped
      have different : address ≠ other := by
        rintro rfl
        cases Option.some.inj (found.symm.trans blank)
        simp at points
      exact Or.inl (by simp [different, found])
  | publish other =>
      obtain ⟨published, isThere, rfl⟩ := publish_eq stepped
      by_cases equal : address = other
      · subst equal
        cases Option.some.inj (found.symm.trans isThere)
        exact Or.inr (by simp)
      · exact Or.inl (by simp [equal, found])
  | connect source destination =>
      obtain ⟨-, origin, target, own, -, -, -, -, -, connected⟩ := connect_eq stepped
      obtain ⟨_, _, _, -, -, -, zobjs, -⟩ := connectNolock_zobjs connected
      have different : address ≠ destination := by
        rintro rfl
        exact notConnected source rfl
      exact Or.inl (by simp [zobjs, different, found])
  | restore thread other newAddress newTs =>
      obtain ⟨⟨result, outcome⟩, connected, rfl⟩ := Option.map_eq_some_iff.mp stepped
      exact Or.inl (globalsObjectConnect_keeps connected found)
  | free thread other =>
      obtain ⟨-, -, -, -, -, -, -, rfl⟩ := baseFree_eq stepped
      have different : address ≠ other := by
        rintro rfl
        exact notFreed thread rfl
      exact Or.inl (by simp [different, found])
  | save other =>
      obtain ⟨saved, tsObj, shared, -, -, -, -, rfl⟩ := save_eq stepped
      exact Or.inl found

/-- Only freeing and connecting detach an object. -/
theorem attached_grows {registry after : Registry} {action : Action} (tsObj : Nat)
    (sound : Sound registry) (stepped : step registry action = some after)
    (notFree : ∀ thread address, action ≠ .free thread address)
    (notConnect : ∀ source destination, action ≠ .connect source destination) :
    attached registry tsObj ⊆ attached after tsObj := by
  intro address isIn
  obtain ⟨-, isPoint⟩ := mem_attached.mp isIn
  obtain ⟨zobj, found, points⟩ := Option.bind_eq_some_iff.mp isPoint
  have kept := step_keeps stepped found points (fun thread => notFree thread address)
    (fun source => notConnect source address)
  rcases kept with same | shown
  · exact (step_sound sound stepped).mem_attached_of same points
  · exact (step_sound sound stepped).mem_attached_of shown points

/-- The destination of a connection leaves its shared object for the one of the
source. -/
theorem attached_connect {registry after : Registry} {source destination : Nat}
    (sound : Sound registry) (stepped : step registry (.connect source destination) = some after) :
    source ≠ destination ∧ ∃ shared, source ∈ attached registry shared ∧
      ∀ tsObj, attached after tsObj = if some shared = some tsObj then
        insert destination (attached registry tsObj)
        else (attached registry tsObj).erase destination := by
  obtain ⟨different, origin, target, own, originFound, -, -, -, -, connected⟩ := connect_eq stepped
  obtain ⟨_, _, shared, _, sameOrigin, points, -⟩ := connectNolock_zobjs connected
  cases Option.some.inj (sameOrigin.symm.trans originFound)
  exact ⟨different, shared, sound.mem_attached_of originFound points,
    connectNolock_attached sound originFound points connected⟩

/-- When a step frees a shared object: its only object is freed or attached to
another one. -/
theorem freed_iff_last {registry after : Registry} {action : Action} {tsObj : Nat}
    (sound : Sound registry) (stepped : step registry action = some after)
    (isLive : (registry.tsObjs tsObj).isSome) :
    after.tsObjs tsObj = none ↔ ∃ last, attached registry tsObj = {last} ∧
      ((∃ thread, action = .free thread last) ∨ ∃ source, action = .connect source last) := by
  have wasAttached := (sound.live tsObj).mp isLive
  have isGone : after.tsObjs tsObj = none ↔ attached after tsObj = ∅ := by
    rw [← Finset.not_nonempty_iff_eq_empty, ← (step_sound sound stepped).live]
    simp
  have emptied : ∀ address, (attached registry tsObj).erase address = ∅ ↔
      attached registry tsObj = {address} := by
    intro address
    rw [Finset.erase_eq_empty_iff]
    exact or_iff_right wasAttached.ne_empty
  rw [isGone]
  by_cases isFree : ∃ thread address, action = .free thread address
  · obtain ⟨thread, address, rfl⟩ := isFree
    obtain ⟨-, -, -, -, -, -, -, rfl⟩ := baseFree_eq stepped
    rw [attached_erase, emptied]
    simp
  · by_cases isConnect : ∃ source destination, action = .connect source destination
    · obtain ⟨source, destination, rfl⟩ := isConnect
      obtain ⟨different, shared, originIn, moved⟩ := attached_connect sound stepped
      rw [moved]
      by_cases sameTs : shared = tsObj
      · -- the source is attached too, so the destination is not the last object
        subst sameTs
        simp only [if_true, Finset.insert_ne_empty, false_iff, not_exists, not_and]
        rintro last only (⟨thread, ⟨⟩⟩ | ⟨origin, ⟨⟩⟩)
        rw [only, Finset.mem_singleton] at originIn
        exact different originIn
      · rw [if_neg (by simpa using sameTs), emptied]
        simp
    · have grows := attached_grows tsObj sound stepped
        (fun thread address equal => isFree ⟨thread, address, equal⟩)
        (fun source destination equal => isConnect ⟨source, destination, equal⟩)
      have stays : attached after tsObj ≠ ∅ := (wasAttached.mono grows).ne_empty
      simp only [stays, false_iff, not_exists, not_and]
      rintro last - (⟨thread, rfl⟩ | ⟨source, rfl⟩)
      · exact isFree ⟨thread, last, rfl⟩
      · exact isConnect ⟨source, last, rfl⟩

/-- The reference count of each shared object is the number of live zend objects
attached to it, the global table holds the live zend objects, none of them
points to a freed shared object, and a shared object is freed exactly when its
last attached object is freed or attached elsewhere. -/
theorem refcount_eq_attached {registry : Registry}
    (reached : Reaches step anyAction initial registry) :
    (∀ tsObj shared, registry.tsObjs tsObj = some shared →
      shared.refcount = (attached registry tsObj).card) ∧
    (∀ address, address ∈ registry.objects ↔ (registry.zobjs address).isSome) ∧
    (∀ address zobj tsObj, registry.zobjs address = some zobj → zobj.tsObj = some tsObj →
      (registry.tsObjs tsObj).isSome) ∧
    ∀ action after tsObj, step registry action = some after →
      (registry.tsObjs tsObj).isSome →
        (after.tsObjs tsObj = none ↔ ∃ last, attached registry tsObj = {last} ∧
          ((∃ thread, action = .free thread last) ∨ ∃ source, action = .connect source last)) := by
  have sound := sound_of_reaches reached
  refine ⟨sound.counted, sound.table, ?_, ?_⟩
  · intro address zobj tsObj found points
    exact Option.isSome_iff_exists.mpr (sound.tsObj_live found points)
  · intro action after tsObj stepped isLive
    exact freed_iff_last sound stepped isLive

/-- Thread 1 creates an object, thread 2 connects to it, and the original goes
first. -/
def originalFreedFirst : List Action :=
  [.alloc 8, .construct 1 8 100, .publish 8, .restore 2 8 16 101, .free 1 8]

theorem refcount_eq_attached_originalFreedFirst :
    ∃ registry, execute step initial originalFreedFirst = some registry ∧
      registry.tsObjs 100 = some ⟨1, 1, 0⟩ ∧ (attached registry 100).card = 1 ∧
      ∃ after, step registry (.free 2 16) = some after ∧ after.tsObjs 100 = none := by
  refine ⟨_, rfl, rfl, ?_, _, rfl, ?_⟩
  · exact ((refcount_eq_attached (reaches_of_execute
      (admits_anyAction step initial originalFreedFirst) rfl)).1 100 ⟨1, 1, 0⟩ rfl).symm
  · exact ((refcount_eq_attached (reaches_of_execute
      (admits_anyAction step initial originalFreedFirst) rfl)).2.2.2 (.free 2 16) _ 100 rfl
        rfl).mpr ⟨16, by decide, Or.inl ⟨2, rfl⟩⟩

end Pthreads.ObjectRegistry
