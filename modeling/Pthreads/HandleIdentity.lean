import Pthreads.ObjectHandles

/-!
# When a handle keeps its identity

A handle is only an address, and an address is valid again as soon as the
allocator returns it for another object.  In runs where no new object is placed
at an address that is still recorded, in a handle or as the original of a live
connection, what stands at a recorded address is what stood there when it was
recorded, so a restored object is attached to the shared object that was saved.
-/

namespace Pthreads.ObjectRegistry

open GuardedRuns

/-- The address is kept in a handle or as the original of a live object. -/
def Recorded (registry : Registry) (address : Nat) : Prop :=
  (∃ handle ∈ registry.saved, handle.address = address) ∨
    ∃ connection ∈ registry.objects,
      (registry.zobjs connection).bind ZendObject.originalZobj = some address

instance (registry : Registry) (address : Nat) : Decidable (Recorded registry address) :=
  inferInstanceAs (Decidable (_ ∨ _))

/-- No new object is placed at a recorded address, and what is restored was saved
before. -/
def NoReuse (registry : Registry) : Action → Prop
  | .alloc address => ¬ Recorded registry address
  | .restore _ address newAddress _ =>
      (∃ handle ∈ registry.saved, handle.address = address) ∧ ¬ Recorded registry newAddress
  | _ => True

instance (registry : Registry) : ∀ action, Decidable (NoReuse registry action)
  | .alloc _ => inferInstanceAs (Decidable (¬ _))
  | .restore _ _ _ _ => inferInstanceAs (Decidable (_ ∧ _))
  | .construct _ _ _ => isTrue trivial
  | .publish _ => isTrue trivial
  | .connect _ _ => isTrue trivial
  | .free _ _ => isTrue trivial
  | .save _ => isTrue trivial

/-- What stands at a recorded address is visible and attached to the shared
object that was recorded with it. -/
structure Faithful (registry : Registry) : Prop where
  handles : ∀ handle ∈ registry.saved, ∀ zobj, registry.zobjs handle.address = some zobj →
    zobj.fresh = false ∧ zobj.tsObj = some handle.tsObj ∧
      ∃ shared, registry.tsObjs handle.tsObj = some shared ∧ shared.serial = handle.serial
  originals : ∀ address zobj original origin, registry.zobjs address = some zobj →
    zobj.originalZobj = some original → registry.zobjs original = some origin →
      origin.fresh = false ∧ origin.tsObj = zobj.tsObj ∧ origin.tsObj.isSome
  ranges : ∀ handle ∈ registry.saved, 0 < handle.address ∧ handle.address < addressLimit

theorem faithful_initial : Faithful initial := by
  constructor <;> simp [initial]

theorem Faithful.recorded {registry : Registry} (faithful : Faithful registry) {address : Nat}
    (isRecorded : Recorded registry address) {zobj : ZendObject}
    (found : registry.zobjs address = some zobj) :
    zobj.fresh = false ∧ zobj.tsObj.isSome := by
  rcases isRecorded with ⟨handle, isSaved, rfl⟩ | ⟨connection, -, isOriginal⟩
  · obtain ⟨visible, points, -⟩ := faithful.handles handle isSaved zobj found
    exact ⟨visible, by simp [points]⟩
  · obtain ⟨source, isThere, original⟩ := Option.bind_eq_some_iff.mp isOriginal
    obtain ⟨visible, -, constructed⟩ :=
      faithful.originals connection source address zobj isThere original found
    exact ⟨visible, constructed⟩

theorem recorded_original {registry : Registry} (sound : Sound registry) {address original : Nat}
    {zobj : ZendObject} (found : registry.zobjs address = some zobj)
    (isOriginal : zobj.originalZobj = some original) : Recorded registry original := by
  refine Or.inr ⟨address, ?_, ?_⟩
  · rw [sound.table, found]
    rfl
  · rw [found]
    exact isOriginal

/-- A visible object that is still in memory after a step is unchanged. -/
theorem visible_kept {registry after : Registry} {action : Action} {address : Nat}
    {earlier zobj : ZendObject} (stepped : step registry action = some after)
    (isThere : registry.zobjs address = some earlier) (visible : earlier.fresh = false)
    (constructed : earlier.tsObj.isSome) (found : after.zobjs address = some zobj) :
    zobj = earlier := by
  obtain ⟨tsObj, points⟩ := Option.isSome_iff_exists.mp constructed
  have notFreed : ∀ thread, action ≠ .free thread address := by
    rintro thread rfl
    obtain ⟨_, _, _, -, -, -, -, rfl⟩ := baseFree_eq stepped
    simp at found
  have notConnected : ∀ source, action ≠ .connect source address :=
    step_not_connect stepped isThere visible
  rcases step_keeps stepped isThere points notFreed notConnected with same | shown
  · exact Option.some.inj (found.symm.trans same)
  · rw [Option.some.inj (found.symm.trans shown), ← visible]

/-- What stands at a recorded address stood there before the step. -/
theorem recorded_kept {registry after : Registry} {action : Action} {address : Nat}
    {zobj : ZendObject} (faithful : Faithful registry)
    (isRecorded : Recorded registry address) (permitted : NoReuse registry action)
    (stepped : step registry action = some after) (found : after.zobjs address = some zobj) :
    registry.zobjs address = some zobj := by
  have existed : (registry.zobjs address).isSome := by
    cases step_origin stepped found with
    | kept earlier isThere original tsObj => simp [isThere]
    | connected source origin isConnect existed isThere visible constructed original tsObj =>
        exact existed
    | restored thread source newTs origin isRestore inRange isThere constructed original tsObj =>
        subst isRestore
        exact absurd isRecorded permitted.2
    | building original placed =>
        rcases placed with ⟨earlier, isThere, -⟩ | ⟨isAlloc, -⟩
        · simp [isThere]
        · subst isAlloc
          exact absurd isRecorded permitted
  obtain ⟨earlier, isThere⟩ := Option.isSome_iff_exists.mp existed
  obtain ⟨visible, constructed⟩ := faithful.recorded isRecorded isThere
  rw [isThere, visible_kept stepped isThere visible constructed found]

/-- While a shared object is in memory it is the same one. -/
def SameSerials (registry after : Registry) : Prop :=
  ∀ tsObj shared later, registry.tsObjs tsObj = some shared → after.tsObjs tsObj = some later →
    later.serial = shared.serial

theorem sameSerials_of_tsObjs_eq {registry after : Registry}
    (same : after.tsObjs = registry.tsObjs) : SameSerials registry after := by
  intro tsObj shared later found isLater
  rw [same, found] at isLater
  cases isLater
  rfl

theorem tsObjectRelease_sameSerials {registry after : Registry} {tsObj : Nat}
    (released : tsObjectRelease registry tsObj = some after) : SameSerials registry after := by
  obtain ⟨shared, found, rfl⟩ := tsObjectRelease_eq released
  intro other before later isBefore isLater
  by_cases same : other = tsObj
  · subst same
    cases Option.some.inj (isBefore.symm.trans found)
    simp only [Function.update_self] at isLater
    split at isLater
    · simp at isLater
    · cases isLater
      rfl
  · simp only [Function.update_of_ne same] at isLater
    cases Option.some.inj (isBefore.symm.trans isLater)
    rfl

theorem connectNolock_sameSerials {registry after : Registry} {source destination : Nat}
    (connected : connectNolock registry source destination = some after) :
    SameSerials registry after := by
  simp only [connectNolock, Option.bind_eq_bind, Option.bind_eq_some_iff] at connected
  obtain ⟨target, -, origin, -, released, release, shared, -, counted, addref, ⟨⟩⟩ := connected
  have lost : SameSerials registry released := by
    cases own : target.tsObj with
    | none =>
        rw [own] at release
        cases release
        exact sameSerials_of_tsObjs_eq rfl
    | some tsObj =>
        rw [own] at release
        exact tsObjectRelease_sameSerials release
  obtain ⟨before, found, rfl⟩ := tsObjectAddref_eq addref
  intro other earlier later isEarlier isLater
  by_cases same : other = shared
  · subst same
    simp only [Function.update_self, Option.some.injEq] at isLater
    subst isLater
    exact lost other earlier before isEarlier found
  · simp only [Function.update_of_ne same] at isLater
    exact lost other earlier later isEarlier isLater

theorem baseCtor_sameSerials {registry after : Registry} {thread address tsObj : Nat}
    (built : baseCtor registry thread address tsObj = some after) : SameSerials registry after := by
  obtain ⟨-, unused, rfl⟩ := baseCtor_zobjs built
  intro other before later isBefore isLater
  have different : other ≠ tsObj := by
    rintro rfl
    simp [unused] at isBefore
  simp only [Function.update_of_ne different] at isLater
  cases Option.some.inj (isBefore.symm.trans isLater)
  rfl

/-- The temporary shared object of a new connection is the only one that comes
and goes. -/
theorem Creates.sameSerials {registry allocated constructed connected after : Registry}
    {thread address newAddress newTs shared : Nat}
    (creates : Creates registry thread address newAddress newTs allocated constructed connected
      after shared) : SameSerials registry after := by
  have joined := connectNolock_sameSerials creates.connect
  obtain ⟨-, ⟨⟩⟩ := Option.ite_none_right_eq_some.mp creates.alloc
  have kept : ∀ tsObj before, registry.tsObjs tsObj = some before →
      constructed.tsObjs tsObj = some before := by
    obtain ⟨-, unused, rfl⟩ := baseCtor_zobjs creates.construct
    intro tsObj before isBefore
    have different : tsObj ≠ newTs := by
      rintro rfl
      simp only at unused
      simp [unused] at isBefore
    simp [different, isBefore]
  rw [creates.result]
  intro tsObj before later isBefore isLater
  exact joined tsObj before later (kept tsObj before isBefore) isLater

theorem step_sameSerials {registry after : Registry} {action : Action}
    (stepped : step registry action = some after) : SameSerials registry after := by
  cases action with
  | alloc address =>
      obtain ⟨-, ⟨⟩⟩ := Option.ite_none_right_eq_some.mp stepped
      exact sameSerials_of_tsObjs_eq rfl
  | construct thread address tsObj => exact baseCtor_sameSerials stepped
  | publish address =>
      obtain ⟨zobj, -, rfl⟩ := publish_eq stepped
      exact sameSerials_of_tsObjs_eq rfl
  | connect source destination =>
      obtain ⟨-, origin, target, own, -, -, -, -, -, connected⟩ := connect_eq stepped
      exact connectNolock_sameSerials connected
  | restore thread address newAddress newTs =>
      rcases restore_cases stepped with rfl | ⟨_, _, _, shared, origin, -, creates⟩
      · exact sameSerials_of_tsObjs_eq rfl
      · exact creates.sameSerials
  | free thread address =>
      simp only [step, baseFree, Option.bind_eq_bind, Option.bind_eq_some_iff] at stepped
      obtain ⟨zobj, -, tsObj, -, stepped⟩ := stepped
      split at stepped
      · simp only [Option.bind_eq_some_iff] at stepped
        obtain ⟨released, release, ⟨⟩⟩ := stepped
        have kept := tsObjectRelease_sameSerials release
        exact fun tsObj shared later found isLater => kept tsObj shared later found isLater
      · simp at stepped
  | save address =>
      obtain ⟨zobj, tsObj, shared, -, -, -, -, rfl⟩ := save_eq stepped
      exact sameSerials_of_tsObjs_eq rfl

/-- The handles after a step: those before it, and the one it takes. -/
theorem step_saved {registry after : Registry} {action : Action} {handle : Handle}
    (stepped : step registry action = some after) (isSaved : handle ∈ after.saved) :
    handle ∈ registry.saved ∨
      ∃ address zobj tsObj shared, registry.zobjs address = some zobj ∧ zobj.fresh = false ∧
        zobj.tsObj = some tsObj ∧ registry.tsObjs tsObj = some shared ∧
        handle = ⟨savedAddress zobj address, tsObj, shared.serial⟩ ∧
        after = { registry with saved := handle :: registry.saved } := by
  cases action with
  | alloc address =>
      obtain ⟨-, ⟨⟩⟩ := Option.ite_none_right_eq_some.mp stepped
      exact Or.inl isSaved
  | construct thread address tsObj =>
      obtain ⟨-, -, rfl⟩ := baseCtor_zobjs stepped
      exact Or.inl isSaved
  | publish address =>
      obtain ⟨zobj, -, rfl⟩ := publish_eq stepped
      exact Or.inl isSaved
  | connect source destination =>
      obtain ⟨-, origin, target, own, -, -, -, -, -, connected⟩ := connect_eq stepped
      obtain ⟨_, _, _, -, -, -, -, -, -, saved⟩ := connectNolock_zobjs connected
      exact Or.inl (saved ▸ isSaved)
  | restore thread address newAddress newTs =>
      rcases restore_cases stepped with rfl | ⟨_, _, _, shared, origin, -, creates⟩
      · exact Or.inl isSaved
      · obtain ⟨-, ⟨⟩⟩ := Option.ite_none_right_eq_some.mp creates.alloc
        obtain ⟨-, -, rfl⟩ := baseCtor_zobjs creates.construct
        obtain ⟨_, _, _, -, -, -, -, -, -, saved⟩ := connectNolock_zobjs creates.connect
        rw [creates.result] at isSaved
        exact Or.inl (saved ▸ isSaved)
  | free thread address =>
      obtain ⟨_, _, _, -, -, -, -, rfl⟩ := baseFree_eq stepped
      exact Or.inl isSaved
  | save address =>
      obtain ⟨zobj, tsObj, shared, found, points, isLive, visible, rfl⟩ := save_eq stepped
      rcases List.mem_cons.mp isSaved with rfl | earlier
      · exact Or.inr ⟨address, zobj, tsObj, shared, found, visible, points, isLive, rfl, rfl⟩
      · exact Or.inl earlier

/-- The object behind a visible object, if it is still there, is visible and
attached to the same shared object. -/
theorem Faithful.savedAddress {registry : Registry} (faithful : Faithful registry)
    {address : Nat} {zobj origin : ZendObject} (found : registry.zobjs address = some zobj)
    (visible : zobj.fresh = false) (constructed : zobj.tsObj.isSome)
    (isThere : registry.zobjs (savedAddress zobj address) = some origin) :
    origin.fresh = false ∧ origin.tsObj = zobj.tsObj ∧ origin.tsObj.isSome := by
  cases original : zobj.originalZobj with
  | none =>
      simp only [ObjectRegistry.savedAddress, original, Option.getD_none] at isThere
      cases Option.some.inj (isThere.symm.trans found)
      exact ⟨visible, rfl, constructed⟩
  | some other =>
      simp only [ObjectRegistry.savedAddress, original, Option.getD_some] at isThere
      exact faithful.originals address zobj other origin found original isThere

/-- What a step leaves at the saved address of a visible object was there before,
if nothing was placed at a recorded address. -/
theorem savedAddress_kept {registry after : Registry} {action : Action} {address : Nat}
    {zobj origin : ZendObject} (sound : Sound registry) (faithful : Faithful registry)
    (permitted : NoReuse registry action) (stepped : step registry action = some after)
    (found : registry.zobjs address = some zobj) (visible : zobj.fresh = false)
    (constructed : zobj.tsObj.isSome)
    (isThere : after.zobjs (savedAddress zobj address) = some origin) :
    registry.zobjs (savedAddress zobj address) = some origin := by
  cases original : zobj.originalZobj with
  | none =>
      simp only [savedAddress, original, Option.getD_none] at isThere ⊢
      rw [found, visible_kept stepped found visible constructed isThere]
  | some other =>
      simp only [savedAddress, original, Option.getD_some] at isThere ⊢
      exact recorded_kept faithful (recorded_original sound found original) permitted stepped
        isThere

theorem step_originals {registry after : Registry} {action : Action} (sound : Sound registry)
    (faithful : Faithful registry) (permitted : NoReuse registry action)
    (stepped : step registry action = some after) {address original : Nat}
    {zobj origin : ZendObject} (found : after.zobjs address = some zobj)
    (isOriginal : zobj.originalZobj = some original)
    (isThere : after.zobjs original = some origin) :
    origin.fresh = false ∧ origin.tsObj = zobj.tsObj ∧ origin.tsObj.isSome := by
  cases step_origin stepped found with
  | kept earlier wasThere sameOriginal sameTs =>
      rw [sameOriginal] at isOriginal
      have before := recorded_kept faithful (recorded_original sound wasThere isOriginal) permitted
        stepped isThere
      rw [sameTs]
      exact faithful.originals address earlier original origin wasThere isOriginal before
  | connected source target isConnect existed wasThere visible constructed newOriginal sameTs =>
      cases Option.some.inj (newOriginal.symm.trans isOriginal)
      have before := savedAddress_kept sound faithful permitted stepped wasThere visible constructed
        isThere
      rw [sameTs]
      exact faithful.savedAddress wasThere visible constructed before
  | restored thread source newTs target isRestore inRange wasThere constructed newOriginal sameTs =>
      cases Option.some.inj (newOriginal.symm.trans isOriginal)
      subst isRestore
      have visible := (faithful.recorded (Or.inl permitted.1) wasThere).1
      have before := savedAddress_kept sound faithful permitted stepped wasThere visible constructed
        isThere
      rw [sameTs]
      exact faithful.savedAddress wasThere visible constructed before
  | building noOriginal placed =>
      rw [noOriginal] at isOriginal
      cases isOriginal

theorem step_faithful {registry after : Registry} {action : Action} (sound : Sound registry)
    (ranges : AddressesInRange registry) (faithful : Faithful registry)
    (permitted : NoReuse registry action) (stepped : step registry action = some after) :
    Faithful after := by
  refine ⟨?_, ?_, ?_⟩
  · intro handle isSaved zobj found
    rcases step_saved stepped isSaved with earlier |
      ⟨address, source, tsObj, shared, wasThere, visible, points, isLive, rfl, rfl⟩
    · have before := recorded_kept faithful (Or.inl ⟨handle, earlier, rfl⟩) permitted stepped found
      obtain ⟨visible, points, shared, isLive, sameSerial⟩ :=
        faithful.handles handle earlier zobj before
      obtain ⟨later, isLater⟩ := (step_sound sound stepped).tsObj_live found points
      exact ⟨visible, points, later, isLater,
        (step_sameSerials stepped _ _ _ isLive isLater).trans sameSerial⟩
    · obtain ⟨isVisible, sameTs, -⟩ :=
        faithful.savedAddress wasThere visible (by simp [points]) found
      exact ⟨isVisible, sameTs.trans points, shared, isLive, rfl⟩
  · intro address zobj original origin found isOriginal isThere
    exact step_originals sound faithful permitted stepped found isOriginal isThere
  · intro handle isSaved
    rcases step_saved stepped isSaved with earlier |
      ⟨address, source, tsObj, shared, wasThere, -, -, -, rfl, -⟩
    · exact faithful.ranges handle earlier
    · exact ranges.savedAddress wasThere

theorem faithful_of_reaches {registry : Registry}
    (reached : Reaches step NoReuse initial registry) :
    Faithful registry := by
  induction reached with
  | refl => exact faithful_initial
  | tail earlier moved ih =>
      obtain ⟨action, permitted, stepped⟩ := moved
      exact step_faithful (sound_of_reaches earlier) (addressesInRange_of_reaches earlier) ih
        permitted stepped

/-- The outcome is a `ThreadedConnectionException` or an object attached to the
shared object that the handle was taken from. -/
def LeadsBack (outcome : Option (Registry × Except ConnectionException Nat)) (handle : Handle) :
    Prop :=
  (∃ after exception, outcome = some (after, .error exception)) ∨
    ∃ after object zobj shared, outcome = some (after, .ok object) ∧
      after.zobjs object = some zobj ∧ zobj.tsObj = some handle.tsObj ∧
      after.tsObjs handle.tsObj = some shared ∧ shared.serial = handle.serial

theorem not_leadsBack {outcome : Option (Registry × Except ConnectionException Nat)}
    {after : Registry} {object tsObj : Nat} {zobj : ZendObject} {handle : Handle}
    (restored : outcome = some (after, .ok object)) (found : after.zobjs object = some zobj)
    (points : zobj.tsObj = some tsObj) (different : tsObj ≠ handle.tsObj) :
    ¬ LeadsBack outcome handle := by
  subst restored
  rintro (⟨_, _, ⟨⟩⟩ | ⟨_, _, same, _, ⟨⟩, isThere, sameTs, -⟩)
  cases Option.some.inj (isThere.symm.trans found)
  exact different (Option.some.inj (points.symm.trans sameTs))

theorem storeConvert_leadsBack {registry : Registry} (sound : Sound registry)
    (faithful : Faithful registry) {handle : Handle} (isSaved : handle ∈ registry.saved)
    {thread newAddress newTs : Nat} (available : Available registry newAddress newTs) :
    LeadsBack (storeConvert registry thread handle.address newAddress newTs) handle := by
  cases found : registry.zobjs handle.address with
  | none =>
      have invalid : globalsObjectValid registry handle.address = false := by
        simp [globalsObjectValid, sound.table, found]
      exact Or.inl ⟨registry, .destroyed, by simp [storeConvert, globalsObjectConnect, invalid]⟩
  | some zobj =>
      obtain ⟨-, points, shared, isLive, sameSerial⟩ := faithful.handles handle isSaved zobj found
      have yields := (storeConvert_yields sound thread available handle.tsObj).mpr
        ⟨zobj, found, points⟩
      obtain ⟨after, object, restored, converted, isThere, sameTs⟩ := yields
      have stepped := storeConvert_step converted
      obtain ⟨later, isLater⟩ := (step_sound sound stepped).tsObj_live isThere sameTs
      exact Or.inr ⟨after, object, restored, later, converted, isThere, sameTs, isLater,
        (step_sameSerials stepped _ _ _ isLive isLater).trans sameSerial⟩

/-- In a run that places no new object at a recorded address, every handle that
was taken fails to be restored or leads back to its shared object, as a storage
and in its serialized form. -/
theorem handle_leads_back {registry : Registry} (reached : Reaches step NoReuse initial registry)
    (handle : Handle) (isSaved : handle ∈ registry.saved) (thread newAddress newTs : Nat)
    (available : Available registry newAddress newTs) :
    LeadsBack (storeConvert registry thread handle.address newAddress newTs) handle ∧
      LeadsBack (threadedUnserialize registry thread (printAddress handle.address) newAddress newTs)
        handle := by
  have faithful := faithful_of_reaches reached
  rw [threadedUnserialize_printAddress registry thread newAddress newTs
    (faithful.ranges handle isSaved), and_self]
  exact storeConvert_leadsBack (sound_of_reaches reached) faithful isSaved available

/-- Thread 1 creates and saves an object, and thread 2 restores it. -/
def saveAndRestore : List Action :=
  [.alloc 8, .construct 1 8 100, .publish 8, .save 8, .restore 2 8 16 101]

theorem handle_leads_back_saveAndRestore :
    ∃ registry, execute step initial saveAndRestore = some registry ∧
      Admits step NoReuse initial saveAndRestore ∧
      LeadsBack (storeConvert registry 3 8 24 102) ⟨8, 100, 0⟩ ∧
      LeadsBack (threadedUnserialize registry 3 (printAddress 8) 24 102) ⟨8, 100, 0⟩ := by
  have admitted : Admits step NoReuse initial saveAndRestore := by decide
  refine ⟨_, rfl, admitted, ?_⟩
  exact handle_leads_back (reaches_of_execute admitted rfl) ⟨8, 100, 0⟩ List.mem_cons_self
    3 24 102 ⟨rfl, by decide, rfl⟩

/-- Thread 1 saves an object and frees it, and its next object is placed at the
same address. -/
def addressReused : List Action :=
  [.alloc 8, .construct 1 8 100, .publish 8, .save 8, .free 1 8, .alloc 8, .construct 1 8 101,
    .publish 8]

/-- The handle then leads to the new object, which belongs to another shared
object. -/
theorem handle_misleads_addressReused :
    ∃ registry after zobj, execute step initial addressReused = some registry ∧
      (⟨8, 100, 0⟩ : Handle) ∈ registry.saved ∧ Available registry 24 102 ∧
      storeConvert registry 2 8 24 102 = some (after, .ok 24) ∧ after.zobjs 24 = some zobj ∧
      zobj.tsObj = some 101 ∧ ¬ LeadsBack (storeConvert registry 2 8 24 102) ⟨8, 100, 0⟩ := by
  refine ⟨_, _, ⟨some 101, some 2, some 8, false⟩, rfl, List.mem_cons_self,
    ⟨rfl, by decide, rfl⟩, rfl, rfl, rfl, ?_⟩
  exact not_leadsBack rfl rfl rfl (by decide)

end Pthreads.ObjectRegistry
