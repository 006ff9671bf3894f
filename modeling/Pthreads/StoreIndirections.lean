import Pthreads.StoreOperationEffects

/-!
# Writing through references and indirect slots

A value may reach `pthreads_store_write` behind a PHP reference or an
`IS_INDIRECT` slot.  Only `pthreads_store_create` looks through them, after the
test for arrays and the switch over the inline types, and the cache does not look
through them at all.
-/

namespace Pthreads.Store

open ObjectRegistry

/-- The end of a chain of references and indirect slots. -/
def Zval.dereferenced : Zval → Zval
  | .reference target => target.dereferenced
  | .indirect slot => slot.dereferenced
  | value => value

/-- A reference or an indirect slot. -/
def Zval.isWrapper : Zval → Bool
  | .reference _ | .indirect _ => true
  | _ => false

/-- The writes both fail, or they leave the same storage and the same cache entry
under the same key. -/
def WritesAlike (declared : List Key) : Option (Option Written) → Option (Option Written) → Prop
  | none, none => True
  | some none, some none => True
  | some (some first), some (some second) =>
      first.member = second.member ∧
      first.props.hash.find first.member = second.props.hash.find second.member ∧
      (finishPending declared first.connection).cached first.member =
        (finishPending declared second.connection).cached second.member
  | _, _ => False

/-- Whatever the state of the store, writing the head of the chain is like writing
its end. -/
def Transparent (head : Zval) (coerceArrays : Bool) : Prop :=
  ∀ declared registry props connection key fresh,
    WritesAlike declared (storeWrite registry props connection key head coerceArrays fresh)
      (storeWrite registry props connection key head.dereferenced coerceArrays fresh)

/-- The values that are neither stored inline nor turned into a ThreadedArray nor
cached. -/
def passesThrough (coerceArrays : Bool) : Zval → Bool
  | .undef | .object _ | .resource _ | .enumCase _ _ => true
  | .array _ => !coerceArrays
  | .socket _ hasStream => hasStream
  | _ => false

theorem WritesAlike.refl (declared : List Key) (outcome : Option (Option Written)) :
    WritesAlike declared outcome outcome := by
  match outcome with
  | none | some none => trivial
  | some (some written) => exact ⟨rfl, rfl, rfl⟩

section Chains

theorem dereferenced_not_wrapper : ∀ head : Zval, head.dereferenced.isWrapper = false
  | .reference target => dereferenced_not_wrapper target
  | .indirect slot => dereferenced_not_wrapper slot
  | .undef | .null | .bool _ | .long _ | .double _ | .string _ | .array _ | .threaded _
  | .closure _ | .socket _ _ | .enumCase _ _ | .object _ | .resource _ => rfl

theorem dereferenced_of_not_wrapper {head : Zval} (direct : head.isWrapper = false) :
    head.dereferenced = head := by
  cases head <;> first | rfl | cases direct

theorem storeCreate_dereferenced (registry : Registry) (source : Nat) :
    ∀ head : Zval, storeCreate registry source head = storeCreate registry source head.dereferenced
  | .reference target => storeCreate_dereferenced registry source target
  | .indirect slot => storeCreate_dereferenced registry source slot
  | .undef | .null | .bool _ | .long _ | .double _ | .string _ | .array _ | .threaded _
  | .closure _ | .socket _ _ | .enumCase _ _ | .object _ | .resource _ => rfl

/-- What a wrapper is stored as. -/
theorem saveZval_wrapper (registry : Registry) (source : Nat) {head : Zval}
    (wrapped : head.isWrapper = true) :
    saveZval registry source head = storeCreate registry source head.dereferenced := by
  rw [← storeCreate_dereferenced]
  cases head <;> first | rfl | cases wrapped

variable {registry : Registry} {props : Props} {connection : Connection}
  {key : Option KeyZval} {value : Zval} {coerceArrays : Bool} {fresh : Fresh}

/-- A write of a value that is not turned into a ThreadedArray. -/
theorem storeWrite_direct
    (kept : writtenValue registry connection.owner value coerceArrays fresh =
      some (registry, value)) :
    storeWrite registry props connection key value coerceArrays fresh =
      some ((saveZval registry connection.owner value).map fun storage =>
        let member := (key.map coerce).getD (appendKey props)
        let (bumped, counted) := bumpModcount (memberIsCacheable props member)
          { props with hash := props.hash.update member storage } connection
        ⟨registry, bumped, { syncLocalProperties registry bumped counted with
          pending := some (.update member value) }, member, value⟩) := by
  simp only [storeWrite, kept, Option.bind_eq_bind, Option.bind_some]
  cases saveZval registry connection.owner value <;> rfl

theorem passesThrough_saveZval (passes : passesThrough coerceArrays value = true) (source : Nat) :
    saveZval registry source value = storeCreate registry source value := by
  cases value <;> first | rfl | cases passes

theorem passesThrough_written (passes : passesThrough coerceArrays value = true) (thread : Nat) :
    writtenValue registry thread value coerceArrays fresh = some (registry, value) := by
  cases value with
  | array entries =>
      cases coerceArrays with
      | false => rfl
      | true => cases passes
  | _ => rfl

theorem wrapper_written (wrapped : value.isWrapper = true) (thread : Nat) :
    writtenValue registry thread value coerceArrays fresh = some (registry, value) := by
  cases value <;> first | rfl | cases wrapped

/-- The cache after an update with a value that it does not take. -/
theorem finishPending_not_retained (declared : List Key) (connection : Connection) (member : Key)
    (notRetained : retainInLocalCache value = false) :
    finishPending declared { connection with pending := some (.update member value) } =
      { connection with pending := none } := by
  simp [finishPending, updateLocalProperty, notRetained]

theorem wrapper_not_retained (wrapped : value.isWrapper = true) :
    retainInLocalCache value = false := by
  cases value <;> first | rfl | cases wrapped

/-- A value that passes through is accepted only if it is not cached. -/
theorem passesThrough_not_retained (passes : passesThrough coerceArrays value = true)
    {storage : Storage} {source : Nat}
    (created : storeCreate registry source value = some storage) :
    retainInLocalCache value = false := by
  cases value with
  | socket socket hasStream =>
      have isStream : hasStream = true := passes
      simp [storeCreate, isStream] at created
  | _ => first | rfl | cases passes

theorem transparent_of_direct {head : Zval} (direct : head.isWrapper = false) :
    Transparent head coerceArrays := by
  intro declared registry props connection key fresh
  rw [dereferenced_of_not_wrapper direct]
  exact WritesAlike.refl declared _

theorem transparent_of_passesThrough {head : Zval} (wrapped : head.isWrapper = true)
    (passes : passesThrough coerceArrays head.dereferenced = true) :
    Transparent head coerceArrays := by
  intro declared registry props connection key fresh
  rw [storeWrite_direct (wrapper_written wrapped _),
    storeWrite_direct (passesThrough_written passes _), saveZval_wrapper _ _ wrapped,
    passesThrough_saveZval passes]
  cases created : storeCreate registry connection.owner head.dereferenced with
  | none => trivial
  | some storage =>
      refine ⟨rfl, rfl, ?_⟩
      simp only
      rw [finishPending_not_retained _ _ _ (wrapper_not_retained wrapped),
        finishPending_not_retained _ _ _ (passesThrough_not_retained passes created)]

end Chains

/-- A connection without a local table, to an empty store. -/
def newConnection : Connection := ⟨0, none, 0, none⟩

/-- The first write to an empty store. -/
def firstWrite (registry : Registry) (value : Zval) (coerceArrays : Bool) :
    Option (Option Written) :=
  storeWrite registry storeInit newConnection (some (.long 0)) value coerceArrays ⟨0, 1, 1⟩

/-- The first write fails for a wrapper that leads to an inline value or an array. -/
theorem firstWrite_refused (registry : Registry) {head : Zval} (coerceArrays : Bool)
    (wrapped : head.isWrapper = true) (refused : storeCreate registry 0 head.dereferenced = none) :
    firstWrite registry head coerceArrays = some none := by
  rw [firstWrite, storeWrite_direct (wrapper_written wrapped _), saveZval_wrapper _ _ wrapped]
  show some (Option.map _ (storeCreate registry 0 head.dereferenced)) = some none
  rw [refused]
  rfl

/-- The first write leaves no cache entry for a wrapper. -/
theorem firstWrite_wrapper (registry : Registry) {head : Zval} (coerceArrays : Bool)
    (wrapped : head.isWrapper = true) {written : Written}
    (wrote : firstWrite registry head coerceArrays = some (some written)) (declared : List Key) :
    (finishPending declared written.connection).cached written.member = none := by
  rw [firstWrite, storeWrite_direct (wrapper_written wrapped _), Option.some.injEq,
    Option.map_eq_some_iff] at wrote
  obtain ⟨storage, -, rfl⟩ := wrote
  simp only
  rw [finishPending_not_retained _ _ _ (wrapper_not_retained wrapped)]
  rfl

/-- It leaves one for a value that the cache takes. -/
theorem firstWrite_retained (registry : Registry) {value : Zval} (coerceArrays : Bool)
    (retained : retainInLocalCache value = true) {storage : Storage}
    (saved : saveZval registry 0 value = some storage) (declared : List Key) :
    ∃ written, firstWrite registry value coerceArrays = some (some written) ∧
      (finishPending declared written.connection).cached written.member = some value := by
  have kept : writtenValue registry newConnection.owner value coerceArrays ⟨0, 1, 1⟩ =
      some (registry, value) := by
    cases value <;> first | rfl | cases retained
  rw [firstWrite, storeWrite_direct kept]
  refine ⟨_, congrArg (some ∘ Option.map _) saved, ?_⟩
  simp only [finishPending, updateLocalProperty, retained, if_true, Connection.cached,
    Option.bind_some, OrderedTable.find_update_same, Option.filter_some, retained_valid retained]

section Differences

variable {head : Zval} {coerceArrays : Bool}

theorem not_transparent_of_refused (registry : Registry) (wrapped : head.isWrapper = true)
    (refused : storeCreate registry 0 head.dereferenced = none)
    (accepted : ∃ written,
      firstWrite registry head.dereferenced coerceArrays = some (some written)) :
    ¬ Transparent head coerceArrays := by
  obtain ⟨written, wrote⟩ := accepted
  intro transparent
  have alike := transparent [] registry storeInit newConnection (some (.long 0)) ⟨0, 1, 1⟩
  rw [← firstWrite, ← firstWrite, firstWrite_refused registry coerceArrays wrapped refused,
    wrote] at alike
  exact alike

theorem not_transparent_of_retained (registry : Registry) (wrapped : head.isWrapper = true)
    (retained : retainInLocalCache head.dereferenced = true)
    (accepted : ∃ storage, saveZval registry 0 head.dereferenced = some storage) :
    ¬ Transparent head coerceArrays := by
  obtain ⟨storage, saved⟩ := accepted
  intro transparent
  have alike := transparent [] registry storeInit newConnection (some (.long 0)) ⟨0, 1, 1⟩
  obtain ⟨written, wrote, cached⟩ :=
    firstWrite_retained registry coerceArrays retained saved []
  rw [← firstWrite, ← firstWrite, wrote] at alike
  match other : firstWrite registry head coerceArrays with
  | none | some none => simp [other, WritesAlike] at alike
  | some (some first) =>
      rw [other] at alike
      have absent := firstWrite_wrapper registry coerceArrays wrapped other []
      rw [alike.2.2, cached] at absent
      cases absent

/-- A registry with an object at the address. -/
def registryWith (address : Nat) : Registry :=
  { ObjectRegistry.initial with
    zobjs := Function.update ObjectRegistry.initial.zobjs address (some ⟨none, none, none, false⟩) }

theorem not_transparent (wrapped : head.isWrapper = true)
    (holds : passesThrough coerceArrays head.dereferenced = false) :
    ¬ Transparent head coerceArrays := by
  have direct := dereferenced_not_wrapper head
  cases value : head.dereferenced with
  | null | bool _ | long _ | double _ =>
      apply not_transparent_of_refused ObjectRegistry.initial wrapped
      · rw [value]
        rfl
      · rw [value]
        exact ⟨_, rfl⟩
  | array entries =>
      rw [value] at holds
      have coerces : coerceArrays = true := by simpa [passesThrough] using holds
      subst coerces
      apply not_transparent_of_refused ObjectRegistry.initial wrapped
      · rw [value]
        rfl
      · rw [value]
        exact ⟨_, rfl⟩
  | string string =>
      apply not_transparent_of_retained ObjectRegistry.initial wrapped
      · rw [value]
        rfl
      · rw [value, saveZval]
        split <;> exact ⟨_, rfl⟩
  | closure closure =>
      apply not_transparent_of_retained ObjectRegistry.initial wrapped
      · rw [value]
        rfl
      · rw [value]
        exact ⟨_, rfl⟩
  | threaded address =>
      apply not_transparent_of_retained (registryWith address) wrapped
      · rw [value]
        rfl
      · rw [value]
        exact ⟨.pthreads address, by simp [saveZval, storeCreate, registryWith, savedAddress]⟩
  | socket socket hasStream =>
      rw [value] at holds
      have noStream : hasStream = false := holds
      apply not_transparent_of_retained ObjectRegistry.initial wrapped
      · rw [value]
        rfl
      · rw [value, noStream]
        exact ⟨_, rfl⟩
  | undef | object _ | resource _ | enumCase _ _ =>
      rw [value] at holds
      cases holds
  | reference _ | indirect _ =>
      rw [value] at direct
      cases direct

end Differences

/-- Writing the head of a chain is like writing its end exactly when there is no
chain, or the value at its end is one that is neither stored inline nor turned
into a ThreadedArray nor cached. -/
theorem indirection_transparent_iff (head : Zval) (coerceArrays : Bool) :
    Transparent head coerceArrays ↔
      head.isWrapper = false ∨ passesThrough coerceArrays head.dereferenced = true := by
  constructor
  · intro transparent
    by_contra neither
    simp only [not_or, Bool.not_eq_false, Bool.not_eq_true] at neither
    exact not_transparent neither.1 neither.2 transparent
  · rintro (direct | passes)
    · exact transparent_of_direct direct
    · cases wrapped : head.isWrapper with
      | true => exact transparent_of_passesThrough wrapped passes
      | false => exact transparent_of_direct wrapped

/-- An integer can be stored, but not through a reference to it. -/
theorem reference_to_long_not_transparent :
    firstWrite ObjectRegistry.initial (.reference (.long 5)) false = some none ∧
      (∃ written, firstWrite ObjectRegistry.initial (.long 5) false = some (some written)) ∧
      ¬ Transparent (.reference (.long 5)) false := by
  refine ⟨rfl, ⟨_, rfl⟩, ?_⟩
  intro transparent
  exact transparent [] ObjectRegistry.initial storeInit newConnection (some (.long 0)) ⟨0, 1, 1⟩

end Pthreads.Store
