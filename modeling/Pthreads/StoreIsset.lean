import Pthreads.StoreReads
import Mathlib.Data.UInt

/-!
# Testing a member without restoring it

`pthreads_store_isset` answers `isset` and `empty` from the storage alone.  This
file models it, the truth value that the engine gives to the restored value, and
when the two agree.
-/

namespace Pthreads.Store

open ObjectRegistry GuardedRuns

/-- `ZEND_PROPERTY_ISSET`, `ZEND_PROPERTY_NOT_EMPTY` and `ZEND_PROPERTY_EXISTS`. -/
inductive HasSetExists where
  | isset
  | notEmpty
  | exists
deriving DecidableEq, Repr

/-- `== 0.0`, for either sign. -/
def isZeroDouble (bits : UInt64) : Bool := bits = 0 ∨ bits = 2 ^ 63

/-- The test for a string in `pthreads_store_isset`: `'0'` is 48. -/
def stringTestsEmpty (bytes : Bytes) : Bool := bytes.length = 0 ∨ bytes.head? = some 48

/-- The switch of `pthreads_store_isset` for `ZEND_PROPERTY_NOT_EMPTY`. -/
def storageNotEmpty : Storage → Bool
  | .null => false
  | .bool value => value
  | .long value => value ≠ 0
  | .double bits => ¬ isZeroDouble bits
  | .string string => ¬ stringTestsEmpty string.bytes
  | .stringPtr string _ => ¬ stringTestsEmpty string.bytes
  | _ => true

/-- `pthreads_store_isset`. -/
def storeIsset (props : Props) (key : KeyZval) (hasSetExists : HasSetExists) : Bool :=
  match props.hash.find (coerce key) with
  | none => false
  | some storage =>
      match hasSetExists with
      | .notEmpty => storageNotEmpty storage
      | .isset => storage ≠ .null
      | .exists => true

/-- `zend_is_true`. -/
def zendIsTrue : Zval → Bool
  | .undef | .null => false
  | .bool value => value
  | .long value => value ≠ 0
  | .double bits => ¬ isZeroDouble bits
  | .string string =>
      1 < string.bytes.length ∨ (string.bytes.length ≠ 0 ∧ string.bytes.head? ≠ some 48)
  | .array entries => ¬ entries.isEmpty
  | .threaded _ | .closure _ | .socket _ _ | .enumCase _ _ | .object _ | .resource _ => true
  | .reference target => zendIsTrue target
  | .indirect slot => zendIsTrue slot

/-- `Z_TYPE_P(value) == IS_NULL`. -/
def isNull : Zval → Bool
  | .null => true
  | _ => false

/-- The value that a thread obtains by restoring a storage. -/
def State.valueOf (state : State) (thread : Nat) (fresh : Fresh) (storage : Storage) :
    Option Zval :=
  (restoreZval state.enumCases state.registry thread fresh storage).map Prod.snd

/-- The value that it obtains for the element under a key. -/
def State.restored (state : State) (thread : Nat) (fresh : Fresh) (key : KeyZval) : Option Zval :=
  (state.props.hash.find (coerce key)).bind (state.valueOf thread fresh)

/-- Both tests of a key answer as the restored value does. -/
structure IssetAgrees (state : State) (thread : Nat) (fresh : Fresh) (key : KeyZval) : Prop where
  notEmpty : storeIsset state.props key .notEmpty = true ↔
    ∃ value, state.restored thread fresh key = some value ∧ zendIsTrue value = true
  isset : storeIsset state.props key .isset = true ↔
    ∃ value, state.restored thread fresh key = some value ∧ isNull value = false

/-- A string of more than one byte that begins with `'0'`. -/
def zeroLed (bytes : Bytes) : Prop := 1 < bytes.length ∧ bytes.head? = some 48

/-- The thread can connect to the object at the address. -/
def Reachable (registry : Registry) (thread : Nat) (fresh : Fresh) (address : Nat) : Prop :=
  ∃ after object, globalsObjectConnect registry thread address fresh.newAddress fresh.newTs =
    some (after, some object)

/-- The storage can be tested in place of its value: it is no string that only
begins like `"0"`, and the value can be restored. -/
def Testable (state : State) (thread : Nat) (fresh : Fresh) : Storage → Prop
  | .string string => ¬ zeroLed string.bytes
  | .stringPtr string _ => ¬ zeroLed string.bytes
  | .pthreads address => Reachable state.registry thread fresh address
  | .enumCase className memberName => state.enumCases thread className memberName = true
  | _ => True

/-- The tests answer for the storage as they do for its value. -/
structure TestAgrees (state : State) (thread : Nat) (fresh : Fresh) (storage : Storage) : Prop where
  notEmpty : storageNotEmpty storage = true ↔
    ∃ value, state.valueOf thread fresh storage = some value ∧ zendIsTrue value = true
  isset : storage ≠ .null ↔
    ∃ value, state.valueOf thread fresh storage = some value ∧ isNull value = false

theorem issetAgrees_iff {state : State} {thread : Nat} {fresh : Fresh} {key : KeyZval} :
    IssetAgrees state thread fresh key ↔
      ∀ storage, state.props.hash.find (coerce key) = some storage →
        TestAgrees state thread fresh storage := by
  cases found : state.props.hash.find (coerce key) with
  | none =>
      refine ⟨fun _ => nofun, fun _ => ?_⟩
      constructor <;> simp [storeIsset, State.restored, found]
  | some storage =>
      have restored : state.restored thread fresh key = state.valueOf thread fresh storage := by
        rw [State.restored, found]
        rfl
      constructor
      · rintro agrees _ ⟨⟩
        have notEmpty := agrees.notEmpty
        have isset := agrees.isset
        simp only [storeIsset, found, restored, decide_eq_true_eq] at notEmpty isset
        exact ⟨notEmpty, isset⟩
      · intro agrees
        obtain ⟨notEmpty, isset⟩ := agrees storage rfl
        constructor
        · simpa only [storeIsset, found, restored] using notEmpty
        · simpa only [storeIsset, found, restored, decide_eq_true_eq] using isset

section Storages

variable {state : State} {thread : Nat} {fresh : Fresh} {storage : Storage} {value : Zval}

/-- A storage whose restored value passes the same tests. -/
theorem testAgrees_of_valueOf (obtained : state.valueOf thread fresh storage = some value)
    (notNull : storage ≠ .null ↔ isNull value = false) :
    TestAgrees state thread fresh storage ↔ storageNotEmpty storage = zendIsTrue value := by
  constructor
  · intro agrees
    have notEmpty := agrees.notEmpty
    simp only [obtained, Option.some.injEq, exists_eq_left'] at notEmpty
    exact Bool.eq_iff_iff.mpr notEmpty
  · intro same
    constructor
    · simp [obtained, same]
    · simpa [obtained] using notNull

theorem string_test (bytes : Bytes) :
    (¬ stringTestsEmpty bytes = true ↔
        1 < bytes.length ∨ (bytes.length ≠ 0 ∧ bytes.head? ≠ some 48)) ↔ ¬ zeroLed bytes := by
  cases bytes with
  | nil => simp [stringTestsEmpty, zeroLed]
  | cons byte bytes =>
      by_cases leads : byte = 48
      · cases bytes <;> simp [stringTestsEmpty, zeroLed, leads]
      · simp [stringTestsEmpty, zeroLed, leads]

/-- Both tests of an object or an enum case succeed, so it has to be restored. -/
theorem testAgrees_of_object (tested : storageNotEmpty storage = true) (notNull : storage ≠ .null)
    (objects : ∀ value, state.valueOf thread fresh storage = some value → isNull value = false →
      zendIsTrue value = true) :
    TestAgrees state thread fresh storage ↔
      ∃ value, state.valueOf thread fresh storage = some value ∧ isNull value = false := by
  constructor
  · intro agrees
    exact agrees.isset.mp notNull
  · rintro ⟨value, obtained, isObject⟩
    refine ⟨?_, ?_⟩
    · exact iff_of_true tested ⟨value, obtained, objects value obtained isObject⟩
    · exact iff_of_true notNull ⟨value, obtained, isObject⟩

theorem valueOf_pthreads {address : Nat} :
    (∃ value, state.valueOf thread fresh (.pthreads address) = some value ∧
        isNull value = false) ↔
      Reachable state.registry thread fresh address := by
  simp only [State.valueOf, restoreZval, Reachable]
  cases globalsObjectConnect state.registry thread address fresh.newAddress fresh.newTs with
  | none => simp
  | some connected =>
      obtain ⟨after, result⟩ := connected
      cases result <;> simp [isNull]

theorem testAgrees_iff_testable :
    TestAgrees state thread fresh storage ↔ Testable state thread fresh storage := by
  cases storage with
  | string string =>
      have obtained : state.valueOf thread fresh (.string string) =
          some (.string (restoreString string fresh.pointer)) := rfl
      rw [testAgrees_of_valueOf obtained (by simp [isNull])]
      simp only [Testable, ← string_test, storageNotEmpty, zendIsTrue, restoreString_bytes]
      exact decide_eq_decide
  | stringPtr string owner =>
      obtain ⟨same, obtained, sameBytes⟩ : ∃ same : ZString,
          state.valueOf thread fresh (.stringPtr string owner) = some (.string same) ∧
            same.bytes = string.bytes := by
        simp only [State.valueOf, restoreZval]
        split
        · exact ⟨string, rfl, rfl⟩
        · exact ⟨_, rfl, restoreString_bytes _ _⟩
      rw [testAgrees_of_valueOf obtained (by simp [isNull])]
      simp only [Testable, ← string_test, storageNotEmpty, zendIsTrue, sameBytes]
      exact decide_eq_decide
  | pthreads address =>
      rw [testAgrees_of_object rfl (by simp), valueOf_pthreads, Testable]
      intro value obtained notNull
      simp only [State.valueOf, restoreZval, Option.map_map, Option.map_eq_some_iff] at obtained
      obtain ⟨⟨after, result⟩, -, rfl⟩ := obtained
      cases result with
      | none => simp [isNull] at notNull
      | some object => rfl
  | enumCase className memberName =>
      rw [testAgrees_of_object rfl (by simp), Testable, State.valueOf, restoreZval]
      · cases state.enumCases thread className memberName <;> simp [isNull]
      · intro value obtained _
        simp only [State.valueOf, restoreZval] at obtained
        split at obtained
        · cases obtained
          rfl
        · cases obtained
  | _ =>
      rw [testAgrees_of_valueOf rfl (by simp [isNull])]
      simp [Testable, storageNotEmpty, zendIsTrue]

end Storages

/-- In a sound registry the objects that a thread can connect to are those that
have been constructed and not destroyed. -/
theorem reachable_iff {registry : Registry} (sound : Sound registry) {thread address : Nat}
    {fresh : Fresh} (available : Available registry fresh.newAddress fresh.newTs)
    (constructed : ∀ zobj, registry.zobjs address = some zobj → zobj.tsObj.isSome) :
    Reachable registry thread fresh address ↔ globalsObjectValid registry address = true := by
  constructor
  · rintro ⟨after, object, connected⟩
    rcases globalsObjectConnect_cases connected with ⟨-, -, isNone⟩ | ⟨zobj, valid, -⟩
    · cases isNone
    · exact valid
  · intro valid
    have isMember : address ∈ registry.objects := by
      simp only [globalsObjectValid, decide_eq_true_eq] at valid
      exact valid.2
    obtain ⟨zobj, found⟩ := Option.isSome_iff_exists.mp ((sound.table address).mp isMember)
    obtain ⟨tsObj, points⟩ := Option.isSome_iff_exists.mp (constructed zobj found)
    exact globalsObjectConnect_succeeds sound thread available found points

/-- The tests of a key agree with reading it exactly when what is stored under it
can be tested in place of its value. -/
theorem isset_agrees_with_reading_iff (state : State) (thread : Nat) (fresh : Fresh)
    (key : KeyZval) :
    IssetAgrees state thread fresh key ↔
      ∀ storage, state.props.hash.find (coerce key) = some storage →
        Testable state thread fresh storage := by
  simp only [issetAgrees_iff, testAgrees_iff_testable]

/-- The string `"00"` is stored: a permanent one inline, another by pointer. -/
def storesZeroes (permanent : Bool) : List Action :=
  [.construct 1 1 [] (fun _ => ⟨0, 0, 0⟩),
    .write 1 (some (.long 0)) (.string ⟨1, [48, 48], permanent⟩) false ⟨0, 0, 0⟩, .finish 1]

/-- The string is true, but both ways of storing it test as empty. -/
theorem isset_disagrees_storesZeroes :
    ∃ inline byPointer, execute step (initial []) (storesZeroes true) = some inline ∧
      execute step (initial []) (storesZeroes false) = some byPointer ∧
      inline.restored 1 ⟨0, 0, 0⟩ (.long 0) = some (.string ⟨1, [48, 48], true⟩) ∧
      byPointer.restored 1 ⟨0, 0, 0⟩ (.long 0) = some (.string ⟨1, [48, 48], false⟩) ∧
      storeIsset inline.props (.long 0) .notEmpty = false ∧
      storeIsset byPointer.props (.long 0) .notEmpty = false ∧
      ¬ IssetAgrees inline 1 ⟨0, 0, 0⟩ (.long 0) ∧
      ¬ IssetAgrees byPointer 1 ⟨0, 0, 0⟩ (.long 0) := by
  refine ⟨_, _, rfl, rfl, rfl, rfl, rfl, rfl, ?_, ?_⟩
  · intro agrees
    exact absurd (agrees.notEmpty.mpr ⟨_, rfl, rfl⟩) (by decide)
  · intro agrees
    exact absurd (agrees.notEmpty.mpr ⟨_, rfl, rfl⟩) (by decide)

end Pthreads.Store
