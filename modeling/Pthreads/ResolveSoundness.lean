import Pthreads.ResolveTable

/-!
# What a lookup in the resolve table finds

The entries of each table are its connections, which are sound by themselves,
and copies of functions, which stay when the function they were made from is
gone.  As long as nothing that is looked up is placed under a key that is still
in use, every lookup finds what was made for the object at that address; the
first placement that breaks this rule makes a lookup go wrong.
-/

namespace Pthreads.ResolveTable

open GuardedRuns ObjectRegistry

/-- A zend object after a step was there before it or was placed by it. -/
theorem step_zobj_placed {registry after : Registry} {action : ObjectRegistry.Action}
    (stepped : ObjectRegistry.step registry action = some after) {address : Nat}
    (unused : registry.zobjs address = none) (notPlaced : address ∉ places action) :
    after.zobjs address = none := by
  by_contra present
  obtain ⟨zobj, found⟩ := Option.ne_none_iff_exists'.mp present
  cases step_origin stepped found with
  | kept earlier isThere _ _ => simp [unused] at isThere
  | connected source origin isConnect existed _ _ _ _ _ => simp [unused] at existed
  | restored thread source newTs origin isRestore _ _ _ _ _ =>
      subst isRestore
      simp [places] at notPlaced
  | building _ placed =>
      rcases placed with ⟨earlier, isThere, -⟩ | ⟨isAlloc, -⟩
      · simp [unused] at isThere
      · subst isAlloc
        simp [places] at notPlaced

/-- A shared object after a step was there before it or was constructed by it. -/
theorem step_tsObj_live {registry after : Registry} {action : ObjectRegistry.Action}
    {connections later : Nat → Nat → Option Nat}
    (sound : Sound (withResolve registry connections))
    (soundAfter : Sound (withResolve after later))
    (stepped : ObjectRegistry.step registry action = some after) {tsObj : Nat}
    (unused : registry.tsObjs tsObj = none)
    (notBuilt : ∀ thread address, action ≠ .construct thread address tsObj) :
    after.tsObjs tsObj = none := by
  by_contra present
  obtain ⟨address, isAttached⟩ :=
    (soundAfter.live tsObj).mp (Option.isSome_iff_ne_none.mpr present)
  obtain ⟨zobj, found, points⟩ := Option.bind_eq_some_iff.mp (mem_attached.mp isAttached).2
  rcases step_tsObj stepped found points with
      ⟨other, earlier, isThere, pointed, _⟩ | ⟨thread, isBuilt, _⟩
  · obtain ⟨shared, isLive⟩ := sound.tsObj_live isThere pointed
    exact absurd (unused.symm.trans isLive) (by simp)
  · exact notBuilt thread address isBuilt

/-- The resolve tables hold sound connections, and copies that were made from
the function that is looked up under their key, if there is one. -/
structure Invariant (state : State) (connections copies : Nat → Nat → Option Nat) : Prop where
  sound : Sound (withResolve state.registry connections)
  splits : Splits state.registry connections copies
  copied : ∀ thread address pointer, copies thread address = some pointer →
    ∃ copy serial, state.functions pointer = some copy ∧ copy.owner = thread ∧
      copy.origin = some serial ∧ ∀ source, state.functions address = some source →
        source.Cached → source.serial = serial
  apart : ∀ address function, state.functions address = some function →
    state.registry.zobjs address = none ∧ state.registry.tsObjs address = none
  earlier : ∀ address function, state.functions address = some function →
    function.serial < state.made ∧ ∀ serial, function.origin = some serial → serial < state.made

variable {state after : State} {connections copies : Nat → Nat → Option Nat}

theorem invariant_initial : Invariant initial (fun _ _ => none) fun _ _ => none := by
  refine ⟨sound_initial, ⟨?_, ?_⟩, ?_, ?_, ?_⟩ <;> simp [initial, ObjectRegistry.initial]

theorem Invariant.no_connection (holds : Invariant state connections copies) {address : Nat}
    (unused : state.registry.tsObjs address = none) (thread : Nat) :
    connections thread address = none := by
  cases isConnection : connections thread address with
  | none => rfl
  | some pointer =>
      obtain ⟨zobj, found, points, -⟩ := holds.sound.resolved thread address pointer isConnection
      obtain ⟨shared, isLive⟩ := holds.sound.tsObj_live found points
      exact absurd (unused.symm.trans isLive) (by simp)

/-- Under the address of anything but a live shared object there are copies
only. -/
theorem Invariant.entry_copy (holds : Invariant state connections copies) {address : Nat}
    (unused : state.registry.tsObjs address = none) (thread : Nat) :
    state.registry.resolve thread address = copies thread address := by
  rw [holds.splits.entries, holds.no_connection unused, Option.none_or]

theorem Invariant.resolveSound (holds : Invariant state connections copies) :
    ResolveSound state := by
  constructor
  · intro thread tsObj pointer isLive found
    obtain ⟨shared, isThere⟩ := Option.isSome_iff_exists.mp isLive
    rw [holds.splits.entries, holds.splits.no_copy isThere, Option.or_none] at found
    obtain ⟨zobj, placed, points, owned, -⟩ := holds.sound.resolved thread tsObj pointer found
    exact ⟨zobj, placed, points, owned⟩
  · intro thread address function pointer isThere isCached found
    rw [holds.entry_copy (holds.apart address function isThere).2] at found
    obtain ⟨copy, serial, placed, owned, origin, same⟩ :=
      holds.copied thread address pointer found
    exact ⟨copy, placed, by rw [origin, same function isThere isCached], owned⟩

theorem Invariant.object (holds : Invariant state connections copies)
    {action : ObjectRegistry.Action} {registry : Registry}
    (available : ∀ address ∈ places action, state.functions address = none)
    (permitted : KeysNotReused state (.object action))
    (stepped : ObjectRegistry.step state.registry action = some registry) :
    ∃ later, Invariant { state with registry := registry } later copies := by
  obtain ⟨later, sound, entries⟩ := step_withResolve holds.sound holds.splits stepped
  refine ⟨later, sound, ⟨entries, ?_⟩, holds.copied, ?_, holds.earlier⟩
  · intro thread address pointer isCopy
    have unused := holds.splits.vacated thread address pointer isCopy
    apply step_tsObj_live holds.sound sound stepped unused
    rintro builder other rfl
    have unkeyed : state.registry.resolve thread address = none := permitted thread
    rw [holds.entry_copy unused, isCopy] at unkeyed
    cases unkeyed
  · intro address function isThere
    have notPlaced : address ∉ places action := by
      intro isPlaced
      simp [available address isPlaced] at isThere
    obtain ⟨noZobj, noTsObj⟩ := holds.apart address function isThere
    refine ⟨step_zobj_placed stepped noZobj notPlaced,
      step_tsObj_live holds.sound sound stepped noTsObj ?_⟩
    rintro builder other rfl
    simp [places] at notPlaced

theorem placeFunction_eq {thread address : Nat} {closure immutable : Bool} {origin : Option Nat}
    (placed : placeFunction state thread address closure immutable origin = some after) :
    Vacant state address ∧ after = { state with
      functions := Function.update state.functions address
        (some ⟨thread, closure, immutable, state.made, origin⟩)
      made := state.made + 1 } := by
  obtain ⟨vacant, ⟨⟩⟩ := Option.ite_none_right_eq_some.mp placed
  exact ⟨vacant, rfl⟩

theorem Invariant.placeFunction (holds : Invariant state connections copies)
    {thread address : Nat} {closure immutable : Bool} {origin : Option Nat}
    (known : ∀ serial, origin = some serial → serial < state.made)
    (unkeyed : immutable = false → closure = false → Unkeyed state address)
    (placed : placeFunction state thread address closure immutable origin = some after) :
    Invariant after connections copies := by
  obtain ⟨⟨noZobj, noTsObj, noFunction, -⟩, rfl⟩ := placeFunction_eq placed
  refine ⟨holds.sound, holds.splits, ?_, ?_, ?_⟩
  · intro holder key pointer isCopy
    obtain ⟨copy, serial, isThere, owned, made, same⟩ := holds.copied holder key pointer isCopy
    have different : pointer ≠ address := by
      rintro rfl
      simp [noFunction] at isThere
    refine ⟨copy, serial, by simp [different, isThere], owned, made, ?_⟩
    intro source isSource isCached
    by_cases atKey : key = address
    · subst atKey
      simp only [Function.update_self, Option.some.injEq] at isSource
      subst isSource
      have empty := unkeyed isCached.1 isCached.2 holder
      rw [holds.entry_copy noTsObj, isCopy] at empty
      cases empty
    · simp only [Function.update_of_ne atKey] at isSource
      exact same source isSource isCached
  · intro other function isThere
    by_cases same : other = address
    · subst same
      exact ⟨noZobj, noTsObj⟩
    · simp only [Function.update_of_ne same] at isThere
      exact holds.apart other function isThere
  · intro other function isThere
    by_cases same : other = address
    · subst same
      simp only [Function.update_self, Option.some.injEq] at isThere
      subst isThere
      exact ⟨Nat.lt_succ_self _, fun serial made => Nat.lt_succ_of_lt (known serial made)⟩
    · simp only [Function.update_of_ne same] at isThere
      obtain ⟨serial, origin⟩ := holds.earlier other function isThere
      exact ⟨Nat.lt_succ_of_lt serial, fun older made => Nat.lt_succ_of_lt (origin older made)⟩

theorem Invariant.enterCopy (holds : Invariant state connections copies)
    {thread address pointer : Nat} {function copy : ZendFunction}
    (isThere : state.functions address = some function)
    (isCopy : state.functions pointer = some copy) (owned : copy.owner = thread)
    (made : copy.origin = some function.serial) :
    Invariant (enterCopy state thread address pointer) connections
      (setEntry copies thread address (some pointer)) := by
  have noTsObj := (holds.apart address function isThere).2
  have noConnection := holds.no_connection noTsObj thread
  refine ⟨holds.sound, ⟨?_, ?_⟩, ?_, holds.apart, holds.earlier⟩
  · intro holder key
    by_cases same : holder = thread ∧ key = address
    · obtain ⟨rfl, rfl⟩ := same
      simp [ResolveTable.enterCopy, setEntry, noConnection]
    · have entries := holds.splits.entries holder key
      rw [setEntry_other same, ← entries]
      exact setEntry_other same
  · intro holder key entry isEntry
    by_cases same : holder = thread ∧ key = address
    · obtain ⟨rfl, rfl⟩ := same
      exact noTsObj
    · rw [setEntry_other same] at isEntry
      exact holds.splits.vacated holder key entry isEntry
  · intro holder key entry isEntry
    by_cases same : holder = thread ∧ key = address
    · obtain ⟨rfl, rfl⟩ := same
      rw [setEntry_self, Option.some.injEq] at isEntry
      subst isEntry
      refine ⟨copy, function.serial, isCopy, owned, made, ?_⟩
      intro source isSource _
      cases Option.some.inj (isSource.symm.trans isThere)
      rfl
    · rw [setEntry_other same] at isEntry
      exact holds.copied holder key entry isEntry

theorem Invariant.freeFunction (holds : Invariant state connections copies) {address : Nat}
    {function : ZendFunction} (isThere : state.functions address = some function)
    (noCopy : function.origin = none) :
    Invariant { state with functions := Function.update state.functions address none }
      connections copies := by
  have kept : ∀ {other : Nat} {found : ZendFunction},
      Function.update state.functions address none other = some found →
        state.functions other = some found := by
    intro other found isFound
    by_cases same : other = address
    · simp [same] at isFound
    · rwa [Function.update_of_ne same] at isFound
  refine ⟨holds.sound, holds.splits, ?_, ?_, ?_⟩
  · intro thread key pointer isCopy
    obtain ⟨copy, serial, placed, owned, made, same⟩ := holds.copied thread key pointer isCopy
    have different : pointer ≠ address := by
      rintro rfl
      cases Option.some.inj (placed.symm.trans isThere)
      simp [noCopy] at made
    exact ⟨copy, serial, by simp [different, placed], owned, made,
      fun source isSource => same source (kept isSource)⟩
  · exact fun other found isFound => holds.apart other found (kept isFound)
  · exact fun other found isFound => holds.earlier other found (kept isFound)

theorem Invariant.endThread (holds : Invariant state connections copies) (thread : Nat) :
    Invariant (endThread state thread) (Function.update connections thread fun _ => none)
      (Function.update copies thread fun _ => none) := by
  have kept : ∀ {address : Nat} {function : ZendFunction},
      (ResolveTable.endThread state thread).functions address = some function →
        state.functions address = some function := by
    intro address function found
    exact (Option.filter_eq_some_iff.mp found).1
  have others : ∀ {entries : Nat → Nat → Option Nat} {holder key pointer : Nat},
      Function.update entries thread (fun _ => none) holder key = some pointer →
        holder ≠ thread ∧ entries holder key = some pointer := by
    intro entries holder key pointer found
    by_cases same : holder = thread
    · simp [same] at found
    · rw [Function.update_of_ne same] at found
      exact ⟨same, found⟩
  have sound := holds.sound
  refine ⟨⟨sound.null, sound.table, sound.counted, sound.live, ?_⟩, ⟨?_, ?_⟩, ?_, ?_, ?_⟩
  · intro holder tsObj connection found
    exact sound.resolved holder tsObj connection (others found).2
  · intro holder key
    by_cases same : holder = thread
    · simp [ResolveTable.endThread, same]
    · simp [ResolveTable.endThread, same, holds.splits.entries]
  · intro holder key pointer found
    exact holds.splits.vacated holder key pointer (others found).2
  · intro holder key pointer found
    obtain ⟨different, isCopy⟩ := others found
    obtain ⟨copy, serial, placed, owned, made, same⟩ := holds.copied holder key pointer isCopy
    refine ⟨copy, serial, Option.filter_eq_some_iff.mpr ⟨placed, ?_⟩, owned, made,
      fun source isSource => same source (kept isSource)⟩
    simp [owned, different]
  · exact fun address function found => holds.apart address function (kept found)
  · exact fun address function found => holds.earlier address function (kept found)

/-- The outcomes of `pthreads_copy_function`. -/
theorem copyFunction_cases {thread address copyAddress result : Nat}
    (copied : copyFunction state thread address copyAddress = some (after, result)) :
    ∃ function, state.functions address = some function ∧
      ((after = state ∧ (function.Cached → state.registry.resolve thread address ≠ none)) ∨
        (¬ function.Cached ∧ placeFunction state thread copyAddress true false
          (some function.serial) = some after) ∨
        (function.Cached ∧ state.registry.resolve thread address = none ∧
          ∃ placed, placeFunction state thread copyAddress false false
              (some function.serial) = some placed ∧
            after = enterCopy placed thread address copyAddress)) := by
  simp only [copyFunction, Option.bind_eq_bind, Option.bind_eq_some_iff] at copied
  obtain ⟨function, isThere, copied⟩ := copied
  refine ⟨function, isThere, ?_⟩
  split at copied
  · next isImmutable =>
    cases copied
    exact Or.inl ⟨rfl, fun isCached => by simp [isCached.1] at isImmutable⟩
  · next isMutable =>
    split at copied
    · next isClosure =>
      simp only [Option.bind_eq_some_iff] at copied
      obtain ⟨placed, isPlaced, ⟨⟩⟩ := copied
      exact Or.inr (Or.inl ⟨by simp [ZendFunction.Cached, isClosure], isPlaced⟩)
    · next isFunction =>
      split at copied
      · next found =>
        cases copied
        exact Or.inl ⟨rfl, fun _ isNew => by simp [found] at isNew⟩
      · next isNew =>
        simp only [Option.bind_eq_some_iff] at copied
        obtain ⟨placed, isPlaced, ⟨⟩⟩ := copied
        have isCached : function.Cached := by
          simpa [ZendFunction.Cached] using And.intro isMutable isFunction
        exact Or.inr (Or.inr ⟨isCached, isNew, placed, isPlaced, rfl⟩)

theorem Invariant.copyFunction (holds : Invariant state connections copies)
    {thread address copyAddress result : Nat}
    (permitted : KeysNotReused state (.copyFunction thread address copyAddress))
    (copied : copyFunction state thread address copyAddress = some (after, result)) :
    ∃ later, Invariant after connections later := by
  obtain ⟨function, isThere, outcome⟩ := copyFunction_cases copied
  have known : ∀ serial, some function.serial = some serial → serial < state.made := by
    rintro serial ⟨⟩
    exact (holds.earlier address function isThere).1
  rcases outcome with ⟨rfl, -⟩ | ⟨-, placed⟩ | ⟨isCached, isNew, placed, isPlaced, rfl⟩
  · exact ⟨copies, holds⟩
  · exact ⟨copies, holds.placeFunction known (by simp) placed⟩
  · have unkeyed := permitted function isThere isCached isNew
    have holdsPlaced := holds.placeFunction known (fun _ _ => unkeyed) isPlaced
    obtain ⟨⟨-, -, noFunction, -⟩, rfl⟩ := placeFunction_eq isPlaced
    have different : address ≠ copyAddress := by
      rintro rfl
      simp [noFunction] at isThere
    refine ⟨_, holdsPlaced.enterCopy ?_ (Function.update_self ..) rfl rfl⟩
    simp [different, isThere]

theorem step_invariant {action : Action} (holds : Invariant state connections copies)
    (permitted : KeysNotReused state action) (stepped : step state action = some after) :
    ∃ connections copies, Invariant after connections copies := by
  cases action with
  | object action =>
      obtain ⟨available, stepped⟩ := Option.ite_none_right_eq_some.mp stepped
      obtain ⟨registry, moved, rfl⟩ := Option.map_eq_some_iff.mp stepped
      obtain ⟨later, holdsAfter⟩ := holds.object available permitted moved
      exact ⟨later, copies, holdsAfter⟩
  | declareFunction thread address closure immutable =>
      exact ⟨connections, copies, holds.placeFunction (by simp) permitted stepped⟩
  | freeFunction address =>
      simp only [step, Option.bind_eq_bind, Option.bind_eq_some_iff] at stepped
      obtain ⟨function, isThere, stepped⟩ := stepped
      obtain ⟨noCopy, ⟨⟩⟩ := Option.ite_none_right_eq_some.mp stepped
      exact ⟨connections, copies, holds.freeFunction isThere noCopy⟩
  | copyFunction thread address copyAddress =>
      obtain ⟨⟨_, result⟩, copied, rfl⟩ := Option.map_eq_some_iff.mp stepped
      obtain ⟨later, holdsAfter⟩ := holds.copyFunction permitted copied
      exact ⟨connections, later, holdsAfter⟩
  | endThread thread =>
      obtain ⟨-, ⟨⟩⟩ := Option.ite_none_right_eq_some.mp stepped
      exact ⟨_, _, holds.endThread thread⟩

/-- A function that is looked up and placed under a key in use is taken for an
earlier one. -/
theorem Invariant.mistaken (holds : Invariant state connections copies)
    {owner thread address pointer : Nat} {origin : Option Nat} {placed : State}
    (isPlaced : ResolveTable.placeFunction state owner address false false origin = some placed)
    (entry : state.registry.resolve thread address = some pointer)
    (functions : after.functions = placed.functions)
    (kept : after.registry.resolve thread address = some pointer) : ¬ ResolveSound after := by
  intro sound
  obtain ⟨⟨-, noTsObj, noFunction, -⟩, rfl⟩ := placeFunction_eq isPlaced
  rw [holds.entry_copy noTsObj] at entry
  obtain ⟨copy, serial, isThere, -, made, -⟩ := holds.copied thread address pointer entry
  have different : pointer ≠ address := by
    rintro rfl
    simp [noFunction] at isThere
  obtain ⟨found, isFound, foundOrigin, -⟩ := sound.copies thread address
    ⟨owner, false, false, state.made, origin⟩ pointer (by simp [functions]) ⟨rfl, rfl⟩ kept
  simp only [functions, Function.update_of_ne different, isThere, Option.some.injEq] at isFound
  subst isFound
  have older := (holds.earlier pointer copy isThere).2 serial made
  rw [made, Option.some.injEq] at foundOrigin
  exact older.ne foundOrigin

/-- The first placement under a key in use makes a lookup go wrong. -/
theorem not_resolveSound_of_reused {action : Action} (holds : Invariant state connections copies)
    (reused : ¬ KeysNotReused state action) (stepped : step state action = some after) :
    ¬ ResolveSound after := by
  cases action with
  | object action =>
      cases action with
      | construct builder address tsObj =>
          obtain ⟨thread, entry⟩ := not_forall.mp reused
          obtain ⟨pointer, entry⟩ := Option.ne_none_iff_exists'.mp entry
          obtain ⟨-, stepped⟩ := Option.ite_none_right_eq_some.mp stepped
          obtain ⟨registry, built, rfl⟩ := Option.map_eq_some_iff.mp stepped
          obtain ⟨blank, unused, rfl⟩ := baseCtor_zobjs built
          intro sound
          obtain ⟨zobj, found, -⟩ := sound.connections thread tsObj pointer (by simp) entry
          rw [holds.entry_copy unused] at entry
          obtain ⟨copy, -, isThere, -⟩ := holds.copied thread tsObj pointer entry
          have noZobj := (holds.apart pointer copy isThere).1
          have different : pointer ≠ address := by
            rintro rfl
            simp [noZobj] at blank
          simp [different, noZobj] at found
      | _ => exact absurd trivial reused
  | declareFunction owner address closure immutable =>
      simp only [KeysNotReused, Unkeyed, Classical.not_imp, not_forall] at reused
      obtain ⟨rfl, rfl, thread, entry⟩ := reused
      obtain ⟨pointer, entry⟩ := Option.ne_none_iff_exists'.mp entry
      obtain ⟨-, rfl⟩ := placeFunction_eq stepped
      exact holds.mistaken stepped entry rfl entry
  | copyFunction owner address copyAddress =>
      simp only [KeysNotReused, Unkeyed, Classical.not_imp, not_forall] at reused
      obtain ⟨function, isThere, isCached, isNew, thread, entry⟩ := reused
      obtain ⟨pointer, entry⟩ := Option.ne_none_iff_exists'.mp entry
      obtain ⟨⟨_, result⟩, copied, rfl⟩ := Option.map_eq_some_iff.mp stepped
      obtain ⟨same, isSame, outcome⟩ := copyFunction_cases copied
      cases Option.some.inj (isSame.symm.trans isThere)
      rcases outcome with ⟨-, found⟩ | ⟨isClosure, -⟩ | ⟨-, -, placed, isPlaced, rfl⟩
      · exact absurd isNew (found isCached)
      · exact absurd isCached isClosure
      · refine holds.mistaken isPlaced entry rfl ?_
        obtain ⟨⟨-, -, noFunction, -⟩, rfl⟩ := placeFunction_eq isPlaced
        have different : ¬ (thread = owner ∧ copyAddress = address) := by
          rintro ⟨-, rfl⟩
          simp [noFunction] at isThere
        exact (setEntry_other different).trans entry
  | freeFunction address => exact absurd trivial reused
  | endThread thread => exact absurd trivial reused

theorem invariant_of_reaches (reached : Reaches step KeysNotReused initial state) :
    ∃ connections copies, Invariant state connections copies := by
  have keeps : ∀ before action after, (∃ connections copies, Invariant before connections copies) →
      KeysNotReused before action → step before action = some after →
        ∃ connections copies, Invariant after connections copies := by
    rintro before action after ⟨connections, copies, holds⟩ permitted stepped
    exact step_invariant holds permitted stepped
  exact reached.preserves keeps ⟨_, _, invariant_initial⟩

/-- In a run that never places a shared object or a function that can be looked
up under a key still in use, every lookup finds nothing or what was made for
the object at that address.  The next step keeps it so exactly when it obeys the
same rule. -/
theorem resolve_sound_iff (reached : Reaches step KeysNotReused initial state) :
    ResolveSound state ∧ ∀ action after, step state action = some after →
      (ResolveSound after ↔ KeysNotReused state action) := by
  obtain ⟨connections, copies, holds⟩ := invariant_of_reaches reached
  refine ⟨holds.resolveSound, ?_⟩
  intro action after stepped
  constructor
  · intro sound
    by_contra reused
    exact not_resolveSound_of_reused holds reused stepped sound
  · intro permitted
    obtain ⟨later, made, holdsAfter⟩ := step_invariant holds permitted stepped
    exact holdsAfter.resolveSound

/-- Thread 1 copies a function of thread 2, and thread 2 ends. -/
def sourceGone : List Action :=
  [.declareFunction 2 100 false false, .copyFunction 1 100 200, .endThread 2]

/-- Thread 3 may place a function elsewhere, but not where the copied one was. -/
theorem resolve_sound_iff_sourceGone :
    ∃ state, execute step initial sourceGone = some state ∧
      state.registry.resolve 1 100 = some 200 ∧ ResolveSound state ∧
      (∃ after, step state (.declareFunction 3 300 false false) = some after ∧
        ResolveSound after) ∧
      ∃ after, step state (.declareFunction 3 100 false false) = some after ∧
        ¬ ResolveSound after := by
  have admitted : Admits step KeysNotReused initial sourceGone := by
    refine ⟨fun _ _ _ => rfl, ?_, trivial, trivial⟩
    intro function isThere isCached isNew thread
    rfl
  have reached := reaches_of_execute admitted rfl
  refine ⟨_, rfl, rfl, (resolve_sound_iff reached).1, ⟨_, rfl, ?_⟩, _, rfl, ?_⟩
  · apply ((resolve_sound_iff reached).2 (.declareFunction 3 300 false false) _ rfl).mpr
    intro _ _ thread
    change Function.update (Function.update (fun _ _ => none) 1
      (Function.update (fun _ => none) 100 (some 200))) 2 (fun _ => none) thread 300 = none
    simp only [Function.update_apply]
    split <;> [rfl; split <;> simp]
  · intro sound
    have unkeyed := ((resolve_sound_iff reached).2 (.declareFunction 3 100 false false) _ rfl).mp
      sound rfl rfl 1
    cases unkeyed

/-- Once thread 3 has placed a function where the copied one was, thread 1 takes
its copy of the earlier function for a copy of the new one. -/
theorem resolve_stale_sourceGone :
    ∃ state, Reaches step anyAction initial state ∧
      (∃ function copy, state.functions 100 = some function ∧ function.Cached ∧
        state.registry.resolve 1 100 = some 200 ∧ state.functions 200 = some copy ∧
        copy.origin ≠ some function.serial) ∧ ¬ ResolveSound state := by
  refine ⟨_, reaches_of_execute (admits_anyAction step initial
    (sourceGone ++ [.declareFunction 3 100 false false])) rfl,
    ⟨_, _, rfl, ⟨rfl, rfl⟩, rfl, rfl, by decide⟩, ?_⟩
  intro sound
  obtain ⟨copy, found, origin, -⟩ := sound.copies 1 100 _ 200 rfl ⟨rfl, rfl⟩ rfl
  cases found
  cases origin

end Pthreads.ResolveTable
