import Pthreads.StoreEffects

/-!
# The effect of each operation

One theorem for each lock-protected section of `src/store.c`, in the terms of
`Effect`.  The operations that go through the table element by element are
described by an induction over the elements.
-/

namespace Pthreads.Store

open ObjectRegistry

variable {declared : List Key} {placed : Nat → Prop} {careless : Key → Prop}
  {enumCases : EnumCases} {registry : Registry} {props : Props} {connection : Connection}

/-- What a written value can rely on. -/
structure Writable (placed : Nat → Prop) (registry : Registry) (value : Zval) : Prop where
  settled : SettledValue registry value
  wellSaved : WellSaved placed registry value

theorem Extends.writable {after : Registry} (extended : Extends placed registry after)
    {value : Zval} (writable : Writable placed registry value) : Writable placed after value :=
  ⟨extended.settledValue writable.settled, extended.wellSaved writable.settled writable.wellSaved⟩

/-- The new ThreadedArray is one more object. -/
theorem coerceArray_eq {after : Registry} {thread : Nat} {fresh : Fresh} {value : Zval}
    (coerced : coerceArray registry thread fresh = some (after, value)) :
    registry.zobjs fresh.newAddress = none ∧ value = .threaded fresh.newAddress ∧
      after.zobjs = Function.update registry.zobjs fresh.newAddress
        (some ⟨some fresh.newTs, some thread, none, false⟩) := by
  simp only [coerceArray, Option.bind_eq_bind, Option.bind_eq_some_iff] at coerced
  obtain ⟨allocated, alloc, constructed, construct, published, publish, ⟨⟩⟩ := coerced
  obtain ⟨⟨unused, -⟩, ⟨⟩⟩ := Option.ite_none_right_eq_some.mp alloc
  obtain ⟨-, -, rfl⟩ := baseCtor_zobjs construct
  obtain ⟨zobj, found, rfl⟩ := publish_eq publish
  simp only [Function.update_self, Option.some.injEq] at found
  subst found
  exact ⟨unused, rfl, by simp only [Function.update_idem]⟩

theorem coerceArray_sound {after : Registry} {thread : Nat} {fresh : Fresh} {value : Zval}
    (sound : Sound registry)
    (coerced : coerceArray registry thread fresh = some (after, value)) : Sound after := by
  simp only [coerceArray, Option.bind_eq_bind, Option.bind_eq_some_iff] at coerced
  obtain ⟨allocated, alloc, constructed, construct, published, publish, ⟨⟩⟩ := coerced
  exact step_sound (baseCtor_sound (globalsObjectAlloc_sound sound alloc) construct) publish

theorem coerceArray_writable {after : Registry} {thread : Nat} {fresh : Fresh} {value : Zval}
    (sound : Sound registry) (isPlaced : placed fresh.newAddress)
    (coerced : coerceArray registry thread fresh = some (after, value)) :
    Extends placed registry after ∧ Writable placed after value := by
  have isSound := coerceArray_sound sound coerced
  obtain ⟨unused, rfl, zobjs⟩ := coerceArray_eq coerced
  have isNew : ∀ {zobj}, after.zobjs fresh.newAddress = some zobj →
      zobj = ⟨some fresh.newTs, some thread, none, false⟩ := by
    intro zobj found
    rw [zobjs, Function.update_self] at found
    exact (Option.some.inj found).symm
  refine ⟨⟨fun _ => isSound, ?_, ?_⟩, ?_, ?_⟩
  · intro other zobj found _ _
    have different : other ≠ fresh.newAddress := by
      rintro rfl
      cases unused.symm.trans found
    simp [zobjs, different, found]
  · intro other absent notPlaced
    have different : other ≠ fresh.newAddress := by
      rintro rfl
      exact notPlaced isPlaced
    simp [zobjs, different, absent]
  · intro other refers
    simp only [refersTo, decide_eq_true_eq] at refers
    subst refers
    exact ⟨⟨some fresh.newTs, some thread, none, false⟩, by simp [zobjs], rfl, rfl⟩
  · intro other zobj refers found
    simp only [refersTo, decide_eq_true_eq] at refers
    subst refers
    cases isNew found
    refine ⟨⟨?_, ?_⟩, ?_⟩
    · intro origin isThere
      cases isNew isThere
      exact ⟨rfl, rfl⟩
    · intro absent
      cases found.symm.trans absent
    · intro origin isThere
      cases isNew isThere
      rfl

theorem writtenValue_writable {after : Registry} {thread : Nat} {fresh : Fresh}
    {value write : Zval} {coerceArrays : Bool} (sound : Sound registry)
    (writable : Writable placed registry value) (isPlaced : placed fresh.newAddress)
    (written : writtenValue registry thread value coerceArrays fresh = some (after, write)) :
    Extends placed registry after ∧ Writable placed after write := by
  unfold writtenValue at written
  split at written
  · exact coerceArray_writable sound isPlaced written
  · cases written
    exact ⟨Extends.refl _ _, writable⟩

/-- Whether the local table takes the value that a write stores. -/
def retainedWrite (coerceArrays : Bool) : Zval → Bool
  | .array _ => coerceArrays
  | value => retainInLocalCache value

theorem writtenValue_retained {after : Registry} {thread : Nat} {fresh : Fresh}
    {value write : Zval} {coerceArrays : Bool}
    (written : writtenValue registry thread value coerceArrays fresh = some (after, write)) :
    retainInLocalCache write = retainedWrite coerceArrays value := by
  unfold writtenValue at written
  split at written
  · obtain ⟨-, rfl, -⟩ := coerceArray_eq written
    rfl
  · next notCoerced =>
    cases written
    cases value with
    | array entries =>
        cases coerceArrays with
        | true => exact absurd rfl (notCoerced entries rfl)
        | false => rfl
    | _ => rfl

/-- The pieces of a write. -/
theorem storeWrite_eq {key : Option KeyZval} {value : Zval} {coerceArrays : Bool} {fresh : Fresh}
    {result : Written}
    (wrote : storeWrite registry props connection key value coerceArrays fresh =
      some (some result)) :
    ∃ storage, writtenValue registry connection.owner value coerceArrays fresh =
        some (result.registry, result.value) ∧
      saveZval result.registry connection.owner result.value = some storage ∧
      result.member = (key.map coerce).getD (appendKey props) ∧
      result.props = (bumpModcount (memberIsCacheable props result.member)
        { props with hash := props.hash.update result.member storage } connection).1 ∧
      result.connection = { syncLocalProperties result.registry result.props
        (bumpModcount (memberIsCacheable props result.member)
          { props with hash := props.hash.update result.member storage } connection).2 with
        pending := some (.update result.member result.value) } := by
  simp only [storeWrite, Option.bind_eq_bind, Option.bind_eq_some_iff] at wrote
  obtain ⟨⟨stored, write⟩, written, wrote⟩ := wrote
  split at wrote
  · simp at wrote
  · next storage saved =>
    cases wrote
    exact ⟨storage, written, saved, rfl, rfl, rfl⟩

theorem lastChange_singleton (key other : Key) (meaning : Option Meaning) :
    lastChange [(key, meaning)] other = if key = other then some meaning else none := by
  simp [lastChange]

theorem find_hash_update (hash : HashTable) (key other : Key) (storage : Storage) :
    (hash.update key storage).find other =
      if other = key then some storage else hash.find other := by
  by_cases same : other = key
  · subst same
    simp [HashTable.find, HashTable.update]
  · simp [HashTable.find, HashTable.update, same, OrderedTable.find_update_other _ _ same]

theorem find_hash_delete (hash : HashTable) (key other : Key) :
    (hash.delete key).find other = if other = key then none else hash.find other := by
  by_cases same : other = key
  · subst same
    simp [HashTable.find, HashTable.delete]
  · simp [HashTable.find, HashTable.delete, same, OrderedTable.find_delete_other _ same]

theorem storeWrite_effect {key : Option KeyZval} {value : Zval} {coerceArrays : Bool}
    {fresh : Fresh} {result : Written} (ready : Ready placed registry props connection)
    (writable : Writable placed registry value) (isPlaced : placed fresh.newAddress)
    (wrote : storeWrite registry props connection key value coerceArrays fresh =
      some (some result))
    (isCareless : retainInLocalCache result.value = false →
      connection.localPropsModcount = props.modcount →
        (connection.cached result.member).isSome → careless result.member) :
    Effect declared placed careless registry props connection result.registry result.props
      result.connection [(result.member, result.value.meaning result.registry)] := by
  obtain ⟨storage, written, saved, -, propsEq, connectionEq⟩ := storeWrite_eq wrote
  obtain ⟨extended, writable⟩ := writtenValue_writable ready.sound writable isPlaced written
  have saves := saveZval_saves writable.settled writable.wellSaved saved
  have bumped := bumpModcount_bumped (memberIsCacheable props result.member)
    { props with hash := props.hash.update result.member storage } connection ready.counts
  rw [← propsEq] at bumped
  have synced := syncLocalProperties_synced result.registry result.props
    (bumpModcount (memberIsCacheable props result.member)
      { props with hash := props.hash.update result.member storage } connection).2
  have found : ∀ other, result.props.hash.find other =
      if other = result.member then some storage else props.hash.find other := by
    intro other
    rw [bumped.hash, find_hash_update]
  have touched : ∀ other, lastChange [(result.member,
      result.value.meaning result.registry)] other = none ↔ other ≠ result.member := by
    intro other
    rw [lastChange_singleton]
    split
    · next same => simp [same]
    · next different => simp [Ne.symm different]
  refine ⟨extended, ?_, ?_, bumped.grows, ?_, ?_, ?_, ?_, ?_, ?_⟩
  · rw [connectionEq]
    exact synced.owner.trans bumped.owner
  · intro other untouched
    rw [found, if_neg ((touched other).mp untouched)]
  · intro same other isTouched
    have isMember : other = result.member := by
      by_contra different
      exact isTouched ((touched other).mpr different)
    rw [isMember]
    exact bumped.moved same
  · rw [connectionEq]
    exact le_of_eq synced.modcount
  · intro _ other offered isOffered
    rw [connectionEq, offers_update] at isOffered
    split at isOffered
    · next retained =>
      -- the written value itself
      cases isOffered
      rw [found, if_pos retained.2]
      exact Or.inl ⟨storage, rfl, saves.meaning.imp id Eq.symm⟩
    · next notRetained =>
      obtain ⟨wasCached, reason⟩ := synced.cached other offered isOffered
      rw [bumped.cached] at wasCached
      rcases reason with inSync | agrees
      · have wasInSync := bumped.inSync.mp inSync
        by_cases isMember : other = result.member
        · subst isMember
          refine Or.inr (Or.inr ⟨isCareless ?_ wasInSync (by simp [wasCached]), ?_⟩)
          · simpa using notRetained
          · simp [lastChange_singleton]
        · exact Or.inr (Or.inl ⟨wasInSync, wasCached, (touched other).mpr isMember⟩)
      · exact Or.inl agrees
  · intro kept keeps
    rw [connectionEq] at keeps
    rcases keeps with inTable | ⟨other, waiting⟩
    · have before := (bumped.keeps kept).mp (synced.keeps kept (Or.inl inTable))
      exact extended.settledValue (ready.settled kept before)
    · cases waiting
      exact writable.settled
  · intro other stored isStored
    rw [found] at isStored
    split at isStored
    · cases isStored
      exact saves.sturdy
    · exact extended.sturdyStorage (ready.sturdy other stored isStored)
  · intro other meaning isTouched
    rw [lastChange_singleton] at isTouched
    split at isTouched
    · next same =>
      cases isTouched
      rw [found, if_pos same.symm]
      exact saves.meaning
    · cases isTouched

/-- The elements written, as changes. -/
def writtenChanges (registry : Registry) (written : List (Key × Zval)) :
    List (Key × Option Meaning) :=
  written.map fun element => (element.1, element.2.meaning registry)

/-- What a sequence of writes has done since it began. -/
structure WritesEffect (declared : List Key) (placed : Nat → Prop) (careless : Key → Prop)
    (first last : WrittenAll) : Prop where
  effect : ∃ added, last.written = first.written ++ added ∧
    (∀ element ∈ added, SettledValue last.registry element.2) ∧
    Effect declared placed careless first.registry first.props first.connection last.registry
      last.props last.connection (writtenChanges last.registry added)
  idle : last.connection.pending = none

theorem WritesEffect.refl {state : WrittenAll}
    (ready : Ready placed state.registry state.props state.connection) :
    WritesEffect declared placed careless state state :=
  ⟨⟨[], by simp, by simp, Effect.refl ready⟩, ready.idle⟩

theorem WritesEffect.ready {first last : WrittenAll}
    (writes : WritesEffect declared placed careless first last)
    (ready : Ready placed first.registry first.props first.connection) :
    Ready placed last.registry last.props last.connection := by
  obtain ⟨added, -, -, effect⟩ := writes.effect
  exact effect.ready ready writes.idle

theorem WritesEffect.trans {first middle last : WrittenAll}
    (earlier : WritesEffect declared placed careless first middle)
    (later : WritesEffect declared placed careless middle last) :
    WritesEffect declared placed careless first last := by
  obtain ⟨added₁, isAdded₁, settled₁, effect₁⟩ := earlier.effect
  obtain ⟨added₂, isAdded₂, settled₂, effect₂⟩ := later.effect
  refine ⟨⟨added₁ ++ added₂, by rw [isAdded₂, isAdded₁, List.append_assoc], ?_, ?_⟩, later.idle⟩
  · intro element isIn
    rcases List.mem_append.mp isIn with isFirst | isSecond
    · exact effect₂.extended.settledValue (settled₁ element isFirst)
    · exact settled₂ element isSecond
  · -- the objects that were written before have not changed since
    have sameChanges : writtenChanges last.registry added₁ =
        writtenChanges middle.registry added₁ := by
      apply List.map_congr_left
      intro element isIn
      rw [effect₂.extended.value_meaning (settled₁ element isIn)]
    have split : writtenChanges last.registry (added₁ ++ added₂) =
        writtenChanges last.registry added₁ ++ writtenChanges last.registry added₂ :=
      List.map_append
    rw [split, sameChanges]
    exact effect₁.trans earlier.idle effect₂

theorem writeAndFinish_writes {state result : WrittenAll} {key : KeyZval} {value : Zval}
    {coerceArrays : Bool} {fresh : Fresh}
    (ready : Ready placed state.registry state.props state.connection)
    (writable : Writable placed state.registry value) (isPlaced : placed fresh.newAddress)
    (wrote : writeAndFinish declared state key value coerceArrays fresh = some (some result))
    (isCareless : retainedWrite coerceArrays value = false →
      state.connection.localPropsModcount = state.props.modcount →
        (state.connection.cached (coerce key)).isSome → careless (coerce key)) :
    WritesEffect declared placed careless state result := by
  obtain ⟨outcome, written, isResult⟩ := Option.map_eq_some_iff.mp wrote
  obtain ⟨one, rfl, rfl⟩ := Option.map_eq_some_iff.mp isResult
  obtain ⟨storage, isWritten, -, isMember, -⟩ := storeWrite_eq written
  have sameRetention := writtenValue_retained isWritten
  have effect : Effect declared placed careless state.registry state.props state.connection
      one.registry one.props one.connection
      [(one.member, one.value.meaning one.registry)] := by
    apply storeWrite_effect ready writable isPlaced written
    rw [sameRetention, isMember]
    exact isCareless
  have settled := (writtenValue_writable ready.sound writable isPlaced isWritten).2.settled
  exact ⟨⟨[(one.member, one.value)], rfl, by simpa using settled, effect.finish⟩,
    finishPending_pending _ _⟩

/-- An unwritten element of the source stays writable. -/
def WritableSource (placed : Nat → Prop) (registry : Registry) (fresh : Key → Fresh)
    (source : List (Key × Zval)) : Prop :=
  ∀ element ∈ source, Writable placed registry element.2 ∧ placed (fresh element.1).newAddress

/-- A write only adds its own value to the local table. -/
theorem writeAndFinish_cached {state result : WrittenAll} {key : KeyZval} {value found : Zval}
    {coerceArrays : Bool} {fresh : Fresh} {other : Key}
    (ready : Ready placed state.registry state.props state.connection)
    (wrote : writeAndFinish declared state key value coerceArrays fresh = some (some result))
    (cached : result.connection.cached other = some found) :
    state.connection.cached other = some found ∨
      (retainedWrite coerceArrays value = true ∧ other = coerce key) := by
  obtain ⟨outcome, written, isResult⟩ := Option.map_eq_some_iff.mp wrote
  obtain ⟨one, rfl, rfl⟩ := Option.map_eq_some_iff.mp isResult
  obtain ⟨storage, isWritten, -, isMember, propsEq, connectionEq⟩ := storeWrite_eq written
  have offered : Offers declared one.connection other found := cached
  rw [connectionEq, offers_update] at offered
  split at offered
  · next retained =>
    rw [writtenValue_retained isWritten, isMember] at retained
    exact Or.inr retained
  · have bumped := bumpModcount_bumped (memberIsCacheable state.props one.member)
      { state.props with hash := state.props.hash.update one.member storage } state.connection
      ready.counts
    have wasCached := ((syncLocalProperties_synced _ _ _).cached other found offered).1
    rw [bumped.cached] at wasCached
    exact Or.inl wasCached

/-- The local table has nothing under the keys whose new values it does not take,
except where the write may be careless. -/
def Tidy (careless : Key → Prop) (coerceArrays : Bool) (connection : Connection)
    (source : List (Key × Zval)) : Prop :=
  ∀ element ∈ source, retainedWrite coerceArrays element.2 = false →
    careless (coerce element.1.toZval) ∨
      (connection.cached (coerce element.1.toZval) = none ∧
        ∀ other ∈ source, retainedWrite coerceArrays other.2 = true →
          coerce other.1.toZval ≠ coerce element.1.toZval)

/-- What the write of each element keeps, the merge of an array keeps. -/
theorem storeMergeArray_keeps {Invariant : WrittenAll → Prop} {overwrite coerceArrays : Bool}
    {fresh : Key → Fresh} {source : List (Key × Zval)} {state result : WrittenAll}
    (keeps : ∀ state next, Invariant state → ∀ element ∈ source,
      (overwrite = true ∨ state.props.hash.find element.1 = none) →
      writeAndFinish declared state element.1.toZval element.2 coerceArrays (fresh element.1) =
        some (some next) → Invariant next)
    (initially : Invariant state)
    (merged : storeMergeArray declared overwrite coerceArrays fresh source state = some result) :
    Invariant result := by
  induction source generalizing state with
  | nil =>
      cases merged
      exact initially
  | cons element source ih =>
      obtain ⟨one, others⟩ := List.forall_mem_cons.mp fun element isIn state next holds =>
        keeps state next holds element isIn
      have later := fun state (holds : Invariant state) => @ih state
        (fun state next holds element isIn => others element isIn state next holds) holds
      simp only [storeMergeArray] at merged
      split at merged
      · exact later state initially merged
      · next written =>
        simp only [Option.bind_eq_bind, Option.bind_eq_some_iff] at merged
        obtain ⟨outcome, wrote, merged⟩ := merged
        cases outcome with
        | none => exact later state initially merged
        | some next =>
            apply later next _ merged
            apply one state next initially _ wrote
            by_cases overwrites : overwrite = true
            · exact Or.inl overwrites
            · right
              simpa [overwrites] using written

/-- What the write of each default keeps, the initialisation of an object keeps. -/
theorem baseInit_keeps {Invariant : WrittenAll → Prop} {fresh : Key → Fresh}
    {defaults : List (Key × Zval)} {state result : WrittenAll}
    (keeps : ∀ state next, Invariant state → ∀ element ∈ defaults,
      writeAndFinish declared state element.1.toZval element.2 false (fresh element.1) =
        some (some next) → Invariant next)
    (initially : Invariant state)
    (built : baseInit declared fresh defaults state = some result) : Invariant result := by
  induction defaults generalizing state with
  | nil =>
      cases built
      exact initially
  | cons element defaults ih =>
      simp only [baseInit, Option.bind_eq_bind, Option.bind_eq_some_iff] at built
      obtain ⟨outcome, wrote, built⟩ := built
      have later : ∀ state next, Invariant state → ∀ other ∈ defaults,
          writeAndFinish declared state other.1.toZval other.2 false (fresh other.1) =
            some (some next) → Invariant next :=
        fun state next holds other isIn =>
          keeps state next holds other (List.mem_cons_of_mem _ isIn)
      cases outcome with
      | none => exact ih later initially built
      | some next =>
          exact ih later (keeps state next initially element List.mem_cons_self wrote) built

/-- What remains to be written stays writable. -/
theorem WritesEffect.writableSource {state next : WrittenAll} {fresh : Key → Fresh}
    {source : List (Key × Zval)} (writes : WritesEffect declared placed careless state next)
    (writable : WritableSource placed state.registry fresh source) :
    WritableSource placed next.registry fresh source := by
  intro element isIn
  obtain ⟨isWritable, isPlaced⟩ := writable element isIn
  obtain ⟨added, -, -, effect⟩ := writes.effect
  exact ⟨effect.extended.writable isWritable, isPlaced⟩

theorem writeAndFinish_tidy {coerceArrays : Bool} {fresh : Fresh} {source : List (Key × Zval)}
    {state next : WrittenAll} {element : Key × Zval} (isIn : element ∈ source)
    (ready : Ready placed state.registry state.props state.connection)
    (tidy : Tidy careless coerceArrays state.connection source)
    (wrote : writeAndFinish declared state element.1.toZval element.2 coerceArrays fresh =
      some (some next)) : Tidy careless coerceArrays next.connection source := by
  intro other isOther notRetained
  rcases tidy other isOther notRetained with isCareless | ⟨empty, alone⟩
  · exact Or.inl isCareless
  · refine Or.inr ⟨?_, alone⟩
    rw [Option.eq_none_iff_forall_ne_some]
    intro found cached
    rcases writeAndFinish_cached ready wrote cached with wasCached | ⟨retained, same⟩
    · rw [empty] at wasCached
      cases wasCached
    · exact alone element isIn retained same.symm

theorem storeMergeArray_writes {overwrite coerceArrays : Bool} {fresh : Key → Fresh}
    {source : List (Key × Zval)} {state result : WrittenAll}
    (ready : Ready placed state.registry state.props state.connection)
    (writable : WritableSource placed state.registry fresh source)
    (tidy : Tidy careless coerceArrays state.connection source)
    (merged : storeMergeArray declared overwrite coerceArrays fresh source state = some result) :
    WritesEffect declared placed careless state result := by
  have kept : WritesEffect declared placed careless state result ∧
      Tidy careless coerceArrays result.connection source := by
    apply @storeMergeArray_keeps declared
      (fun next => WritesEffect declared placed careless state next ∧
        Tidy careless coerceArrays next.connection source) _ _ _ _ _ _ _ ?_ merged
    · rintro middle next ⟨writes, stillTidy⟩ element isIn - wrote
      have middleReady := writes.ready ready
      obtain ⟨isWritable, isPlaced⟩ := writes.writableSource writable element isIn
      refine ⟨writes.trans ?_, writeAndFinish_tidy isIn middleReady stillTidy wrote⟩
      apply writeAndFinish_writes middleReady isWritable isPlaced wrote
      intro notRetained _ isCached
      rcases stillTidy element isIn notRetained with isCareless | ⟨empty, -⟩
      · exact isCareless
      · rw [empty] at isCached
        cases isCached
    · exact ⟨WritesEffect.refl ready, tidy⟩
  exact kept.1

theorem baseInit_writes {fresh : Key → Fresh} {defaults : List (Key × Zval)}
    {state result : WrittenAll}
    (ready : Ready placed state.registry state.props state.connection)
    (writable : WritableSource placed state.registry fresh defaults)
    (built : baseInit declared fresh defaults state = some result) :
    WritesEffect declared placed (fun _ => True) state result := by
  apply @baseInit_keeps declared (WritesEffect declared placed (fun _ => True) state) _ _ _ _ _
    (WritesEffect.refl ready) built
  intro middle next writes element isIn wrote
  obtain ⟨isWritable, isPlaced⟩ := writes.writableSource writable element isIn
  exact writes.trans (writeAndFinish_writes (writes.ready ready) isWritable isPlaced wrote
    fun _ _ _ => trivial)

/-- The value that a read returns agrees with the storage or comes from a table
that was in sync, and there is none if there is neither. -/
def ReadSound (registry : Registry) (props : Props) (connection : Connection) (member : Key) :
    ReadOutcome → Prop
  | .value value => Agrees registry value (props.hash.find member) ∨
      (connection.localPropsModcount = props.modcount ∧ connection.cached member = some value)
  | .undefined => props.hash.find member = none
  | .indirectModification => (props.hash.find member).isSome

/-- The sync that a read makes if there is a table. -/
structure ReadSynced (registry : Registry) (props : Props) (connection after : Connection) :
    Prop where
  owner : after.owner = connection.owner
  pending : after.pending = connection.pending
  counts : after.localPropsModcount ≤ props.modcount
  cached : ∀ key value, after.cached key = some value → connection.cached key = some value ∧
    (connection.localPropsModcount = props.modcount ∨
      Agrees registry value (props.hash.find key))
  keeps : ∀ value, after.Keeps value → connection.Keeps value

theorem readSynced (registry : Registry) (ready : Ready placed registry props connection) :
    ReadSynced registry props connection
      (if connection.properties.isSome then syncLocalProperties registry props connection
        else connection) := by
  split
  · have synced := syncLocalProperties_synced registry props connection
    exact ⟨synced.owner, synced.pending, le_of_eq synced.modcount, synced.cached, synced.keeps⟩
  · next noTable =>
    refine ⟨rfl, rfl, ready.counts, ?_, fun _ keeps => keeps⟩
    intro key value cached
    simp only [Option.not_isSome_iff_eq_none] at noTable
    simp [Connection.cached, noTable] at cached

/-- Syncing alone. -/
theorem ReadSynced.effect {after : Connection} (ready : Ready placed registry props connection)
    (synced : ReadSynced registry props connection after) :
    Effect declared placed careless registry props connection registry props after [] := by
  refine ⟨Extends.refl _ _, synced.owner, fun _ _ => rfl, le_rfl, ?_, synced.counts, ?_, ?_,
    ready.sturdy, ?_⟩
  · intro _ key touched
    simp [lastChange] at touched
  · intro _ key value offered
    rw [offers_of_idle (synced.pending.trans ready.idle)] at offered
    obtain ⟨wasCached, reason⟩ := synced.cached key value offered
    rcases reason with inSync | agrees
    · exact Or.inr (Or.inl ⟨inSync, wasCached, rfl⟩)
    · exact Or.inl agrees
  · intro value keeps
    exact ready.settled value (synced.keeps value keeps)
  · intro key meaning touched
    simp [lastChange] at touched

/-- A value restored for a key that the table does not have will be cached. -/
theorem Restores.effect {registry' : Registry} {after : Connection} {newAddress : Nat}
    {member : Key} {storage : Storage} {value : Zval}
    (ready : Ready placed registry props connection)
    (synced : ReadSynced registry props connection after) (isPlaced : placed newAddress)
    (isStored : props.hash.find member = some storage)
    (restores : Restores registry registry' newAddress storage value) :
    Effect declared placed careless registry props connection registry' props
      { after with pending := some (.update member value) } [] := by
  have extended : Extends placed registry registry' := by
    apply restores.extended.mono
    rintro address rfl
    exact isPlaced
  refine ⟨extended, synced.owner, fun _ _ => rfl, le_rfl, ?_, synced.counts, ?_, ?_, ?_, ?_⟩
  · intro _ key touched
    simp [lastChange] at touched
  · intro _ key offered isOffered
    rw [offers_update] at isOffered
    split at isOffered
    · next retained =>
      cases isOffered
      rw [retained.2, isStored]
      exact Or.inl restores.agrees
    · obtain ⟨wasCached, reason⟩ := synced.cached key offered isOffered
      rcases reason with inSync | agrees
      · exact Or.inr (Or.inl ⟨inSync, wasCached, rfl⟩)
      · refine Or.inl (extended.agrees agrees ?_ (ready.sturdy key))
        exact ready.settled offered (Connection.keeps_of_cached wasCached)
  · rintro kept (inTable | ⟨key, waiting⟩)
    · exact extended.settledValue (ready.settled kept (synced.keeps kept (Or.inl inTable)))
    · cases waiting
      exact restores.settled
  · intro key stored isThere
    exact extended.sturdyStorage (ready.sturdy key stored isThere)
  · intro key meaning touched
    simp [lastChange] at touched

theorem storeRead_effect {registry' : Registry} {connection' : Connection} {key : KeyZval}
    {type : AccessType} {fresh : Fresh} {outcome : ReadOutcome}
    (ready : Ready placed registry props connection) (isPlaced : placed fresh.newAddress)
    (read : storeRead enumCases registry props connection key type fresh =
      some (registry', connection', outcome)) :
    Effect declared placed careless registry props connection registry' props connection' [] ∧
      ReadSound registry' props connection (coerce key) outcome := by
  have synced := readSynced registry ready
  simp only [storeRead] at read
  split at read
  · next value cached =>
    cases read
    refine ⟨synced.effect ready, ?_⟩
    obtain ⟨wasCached, reason⟩ := synced.cached _ _ cached
    exact reason.elim (fun inSync => Or.inr ⟨inSync, wasCached⟩) Or.inl
  · split at read
    · next absent =>
      cases read
      exact ⟨synced.effect ready, absent⟩
    · next storage isStored =>
      split at read
      · cases read
        exact ⟨synced.effect ready, by simp [ReadSound, isStored]⟩
      · obtain ⟨⟨restored, value⟩, isRestored, outcomeEq⟩ := Option.map_eq_some_iff.mp read
        cases outcomeEq
        have restores := restoreZval_restores ready.sound
          (fun address isHandle => (ready.sturdy _ _ isStored address isHandle).1) isRestored
        exact ⟨restores.effect ready synced isPlaced isStored,
          Or.inl (isStored ▸ restores.agrees)⟩

end Pthreads.Store
