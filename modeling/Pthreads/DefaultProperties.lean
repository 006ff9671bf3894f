import Mathlib.Data.Set.Function
import Pthreads.MergeLaw
import Pthreads.PropertyLayout
import Pthreads.StringRetention

/-!
# Default properties of a shared object

The defaults of a class are in the slots of a new object.  `pthreads_base_init` walks over the
properties of the class and of its ancestors, writes what is in their slots to the store, and
empties the slots.  A slot that several of them share is empty after the first, so that each
default is stored once, under the name by which its property is found.
-/

namespace Pthreads.PropertyTables

open ObjectRegistry (Registry)
open Store (Bytes Zval Key Storage Props Connection Fresh storeWrite saveZval coerce)

/-- "Cannot use non-thread-safe default of type %s for Threaded class property %s::$%s" -/
structure DefaultError where
  type : String
  className : Bytes
  property : Bytes
deriving DecidableEq, Repr

/-- `zend_get_type_by_const` -/
def zendGetTypeByConst : Zval → String
  | .null => "null"
  | .bool _ => "bool"
  | .long _ => "int"
  | .double _ => "float"
  | .string _ => "string"
  | .array _ => "array"
  | .resource _ => "resource"
  | .threaded _ | .closure _ | .socket _ _ | .enumCase _ _ | .object _ => "object"
  | .undef | .reference _ | .indirect _ => "unknown"

/-- `Z_ISUNDEF_P` -/
def isUndef : Zval → Bool
  | .undef => true
  | _ => false

theorem isUndef_iff {value : Zval} : isUndef value = true ↔ value = .undef := by
  cases value <;> simp [isUndef]

/-- An object that is being made. -/
structure BaseState where
  /-- `OBJ_PROP`, by its offset -/
  slots : Nat → Zval
  registry : Registry
  props : Props
  connection : Connection
  /-- The errors that have been thrown, the first one first. -/
  errors : List DefaultError

/-- `object_properties_init`, for an object with an empty store. -/
def objectPropertiesInit (registry : Registry) (thread : Nat) (ce : ClassEntry) : BaseState where
  slots := ce.defaultPropertiesTable
  registry := registry
  props := Store.storeInit
  connection := ⟨thread, none, 0, none⟩
  errors := []

section Walking

variable (declared : List Key) (fresh : Fresh)

/-- The loop of `pthreads_base_init` over the properties of a class.  A write that does not
coerce arrays always has a result. -/
def initProperties (className : Bytes) : List PropertyInfo → BaseState → BaseState
  | [], base => base
  | info :: infos, base =>
    if info.isStatic then initProperties className infos base
    else if isUndef (base.slots info.offset) then initProperties className infos base
    else
      match (storeWrite base.registry base.props base.connection (some (.string info.name))
          (base.slots info.offset) false fresh).join with
      | none =>
        -- the string is printed up to its first null byte
        { base with
          errors := base.errors ++ [⟨zendGetTypeByConst (base.slots info.offset), className,
            info.name.takeWhile (· ≠ 0)⟩] }
      | some written =>
        initProperties className infos { base with
          slots := Function.update base.slots info.offset .undef
          registry := written.registry
          props := written.props
          connection := Store.finishPending declared written.connection }

/-- `pthreads_base_init`, for a class with its ancestors. -/
def baseInit : List ClassEntry → BaseState → BaseState
  | [], base => base
  | ce :: parents, base => baseInit parents
      (initProperties declared fresh ce.name (ce.propertiesInfo.entries.map Prod.snd) base)

end Walking

section Errors

variable {declared : List Key} {fresh : Fresh} {error : DefaultError}

theorem initProperties_errors {className : Bytes} {infos : List PropertyInfo} {base : BaseState}
    (thrown : error ∈ (initProperties declared fresh className infos base).errors) :
    error ∈ base.errors ∨ error.className = className ∧ ∃ info ∈ infos,
      info.isStatic = false ∧ error.property = info.name.takeWhile (· ≠ 0) := by
  induction infos generalizing base with
  | nil => exact Or.inl thrown
  | cons info infos ih =>
    have later : ∀ {next : BaseState},
        error ∈ (initProperties declared fresh className infos next).errors →
        next.errors = base.errors → error ∈ base.errors ∨ error.className = className ∧
          ∃ other ∈ info :: infos, other.isStatic = false ∧
            error.property = other.name.takeWhile (· ≠ 0) := by
      intro next after same
      rcases ih after with before | ⟨name, other, isIn, names⟩
      · exact Or.inl (same ▸ before)
      · exact Or.inr ⟨name, other, List.mem_cons_of_mem _ isIn, names⟩
    rw [initProperties] at thrown
    split at thrown
    · exact later thrown rfl
    split at thrown
    · exact later thrown rfl
    next isInstance _ =>
    split at thrown
    · rcases List.mem_append.mp thrown with before | isLast
      · exact Or.inl before
      · cases List.mem_singleton.mp isLast
        exact Or.inr ⟨rfl, info, List.mem_cons_self, Bool.not_eq_true _ ▸ isInstance, rfl⟩
    · exact later thrown rfl

/-- An error names a class of the line and an instance property that it has. -/
theorem baseInit_errors {ces : List ClassEntry} {base : BaseState}
    (thrown : error ∈ (baseInit declared fresh ces base).errors) :
    error ∈ base.errors ∨ ∃ ce ∈ ces, error.className = ce.name ∧
      ∃ info ∈ visitedInfos [ce], info.isStatic = false ∧
        error.property = info.name.takeWhile (· ≠ 0) := by
  induction ces generalizing base with
  | nil => exact Or.inl thrown
  | cons ce parents ih =>
    rcases ih thrown with inClass | ⟨parent, isIn, names⟩
    · rcases initProperties_errors inClass with before | ⟨name, names⟩
      · exact Or.inl before
      · refine Or.inr ⟨ce, List.mem_cons_self, name, ?_⟩
        rwa [visitedInfos, List.flatMap_cons, List.flatMap_nil, List.append_nil]
    · exact Or.inr ⟨parent, List.mem_cons_of_mem _ isIn, names⟩

end Errors

/-- A write that does not coerce arrays takes every value as it is. -/
theorem writtenValue_uncoerced (registry : Registry) (thread : Nat) (value : Zval)
    (fresh : Fresh) :
    Store.writtenValue registry thread value false fresh = some (registry, value) := by
  cases value <;> rfl

/-- A value that can be stored is written under its key. -/
theorem storeWrite_saved {registry : Registry} {connection : Connection} {value : Zval}
    {storage : Storage} (saved : saveZval registry connection.owner value = some storage)
    (props : Props) (key : Store.KeyZval) (fresh : Fresh) :
    ∃ written, storeWrite registry props connection (some key) value false fresh =
        some (some written) ∧
      written.registry = registry ∧ written.connection.owner = connection.owner ∧
        written.props.hash = props.hash.update (coerce key) storage := by
  have uncoerced := writtenValue_uncoerced registry connection.owner value fresh
  obtain ⟨written, wrote⟩ : ∃ written, storeWrite registry props connection (some key) value false
      fresh = some (some written) := by
    rw [storeWrite, uncoerced]
    dsimp only [Option.bind_eq_bind, Option.bind_some]
    rw [saved]
    exact ⟨_, rfl⟩
  obtain ⟨_, isWritten, isSaved, member, after, touched⟩ := Store.storeWrite_eq wrote
  obtain ⟨sameRegistry, sameValue⟩ := Prod.mk.inj (Option.some.inj (uncoerced.symm.trans isWritten))
  rw [← sameRegistry, ← sameValue, saved] at isSaved
  cases isSaved
  refine ⟨written, wrote, sameRegistry.symm, ?_, ?_⟩
  · rw [touched]
    exact (Store.syncLocalProperties_owner ..).trans (Store.bumpModcount_owner ..)
  · rw [after, Store.bumpModcount_hash, member]
    rfl

/-- The object when some infos have been visited and nothing has been refused. -/
structure Walked (start : BaseState) (done : List PropertyInfo) (base : BaseState) : Prop where
  errors : base.errors = start.errors
  registry : base.registry = start.registry
  owner : base.connection.owner = start.connection.owner
  emptied : ∀ slot, firstAt done slot ≠ none → base.slots slot = .undef
  untouched : ∀ slot, firstAt done slot = none → base.slots slot = start.slots slot
  /-- What was in a slot has been stored under the name of the first info for it. -/
  stored : ∀ info, firstAt done info.offset = some info → start.slots info.offset ≠ .undef →
    base.props.hash.find (coerce (.string info.name)) =
      saveZval start.registry start.connection.owner (start.slots info.offset)
  only : ∀ key storage, base.props.hash.find key = some storage → ∃ info,
    firstAt done info.offset = some info ∧ start.slots info.offset ≠ .undef ∧
      coerce (.string info.name) = key

section Walks

variable {start base : BaseState} {done infos : List PropertyInfo} {info : PropertyInfo}

theorem firstAt_append_of_some {slot : Nat} (isFirst : firstAt infos slot = some info)
    (others : List PropertyInfo) : firstAt (infos ++ others) slot = some info := by
  rw [firstAt_append, isFirst, Option.some_or]

theorem firstAt_concat_eq_none {slot : Nat} : firstAt (done ++ [info]) slot = none ↔
    firstAt done slot = none ∧ ¬ (info.isStatic = false ∧ info.offset = slot) := by
  rw [firstAt_append, firstAt_singleton, Option.or_eq_none_iff]
  simp

/-- The first info for a slot is new or one of those before. -/
theorem Walked.firstAt_cases (walked : Walked start done base) {other : PropertyInfo}
    (isFirst : firstAt (done ++ [info]) other.offset = some other) :
    firstAt done other.offset = some other ∨
      other = info ∧ info.isStatic = false ∧
        base.slots info.offset = start.slots info.offset := by
  rw [firstAt_append, Option.or_eq_some_iff] at isFirst
  rcases isFirst with before | ⟨missing, isLast⟩
  · exact Or.inl before
  · rw [firstAt_singleton] at isLast
    obtain ⟨⟨isInstance, -⟩, ⟨⟩⟩ := Option.ite_none_right_eq_some.mp isLast
    exact Or.inr ⟨rfl, isInstance, walked.untouched _ missing⟩

/-- A slot that is not empty has not been visited. -/
theorem Walked.firstAt_of_filled (walked : Walked start done base) {slot : Nat}
    (filled : base.slots slot ≠ .undef) : firstAt done slot = none := by
  by_contra visited
  exact filled (walked.emptied slot visited)

/-- Nothing happens for a static property, or when the slot is empty. -/
theorem Walked.skip (walked : Walked start done base)
    (skips : info.isStatic = false → base.slots info.offset = .undef) :
    Walked start (done ++ [info]) base where
  errors := walked.errors
  registry := walked.registry
  owner := walked.owner
  emptied slot visited := by
    rw [Ne, firstAt_concat_eq_none, not_and_not_right] at visited
    by_cases missing : firstAt done slot = none
    · obtain ⟨isInstance, rfl⟩ := visited missing
      exact skips isInstance
    · exact walked.emptied slot missing
  untouched slot missing := walked.untouched slot (firstAt_concat_eq_none.mp missing).1
  stored other isFirst initialised := by
    rcases walked.firstAt_cases isFirst with before | ⟨rfl, isInstance, same⟩
    · exact walked.stored other before initialised
    · exact absurd (same.symm.trans (skips isInstance)) initialised
  only key storage found := by
    obtain ⟨other, isFirst, initialised⟩ := walked.only key storage found
    exact ⟨other, firstAt_append_of_some isFirst _, initialised⟩

/-- The value in a slot goes to the store, under a name that no other one has. -/
theorem Walked.write (walked : Walked start done base) {storage : Storage}
    (isInstance : info.isStatic = false) (filled : base.slots info.offset ≠ .undef)
    (saved : saveZval base.registry base.connection.owner (base.slots info.offset) = some storage)
    (distinct : ∀ other, firstAt (done ++ [info]) info.offset = some info →
      firstAt done other.offset = some other → start.slots other.offset ≠ .undef →
        start.slots info.offset ≠ .undef →
        coerce (.string other.name) ≠ coerce (.string info.name))
    {registry : Registry} {props : Props} {connection : Connection}
    (sameRegistry : registry = base.registry)
    (sameOwner : connection.owner = base.connection.owner)
    (hash : props.hash = base.props.hash.update (coerce (.string info.name)) storage) :
    Walked start (done ++ [info])
      ⟨Function.update base.slots info.offset .undef, registry, props, connection,
        base.errors⟩ := by
  have missing := walked.firstAt_of_filled filled
  have same := walked.untouched info.offset missing
  have isFirst : firstAt (done ++ [info]) info.offset = some info := by
    rw [firstAt_append, missing, Option.none_or, firstAt_singleton, if_pos ⟨isInstance, rfl⟩]
  rw [walked.registry, walked.owner, same] at saved
  refine ⟨walked.errors, sameRegistry.trans walked.registry, sameOwner.trans walked.owner,
    ?_, ?_, ?_, ?_⟩
  · intro slot visited
    rw [Ne, firstAt_concat_eq_none, not_and_not_right] at visited
    dsimp only
    rw [Function.update_apply]
    split
    · rfl
    · next elsewhere =>
      exact walked.emptied slot fun missing => elsewhere (visited missing).2.symm
  · intro slot isMissing
    obtain ⟨isBefore, elsewhere⟩ := firstAt_concat_eq_none.mp isMissing
    dsimp only
    rw [Function.update_of_ne fun isSlot => elsewhere ⟨isInstance, isSlot.symm⟩]
    exact walked.untouched slot isBefore
  · intro other otherFirst initialised
    dsimp only
    rw [hash, Store.find_hash_update]
    rcases walked.firstAt_cases otherFirst with before | ⟨rfl, -, -⟩
    · rw [if_neg (distinct other isFirst before initialised (same ▸ filled))]
      exact walked.stored other before initialised
    · rw [if_pos rfl, saved]
  · intro key found isFound
    dsimp only at isFound
    rw [hash, Store.find_hash_update] at isFound
    split at isFound
    · next isKey => exact ⟨info, isFirst, same ▸ filled, isKey.symm⟩
    · obtain ⟨other, before, initialised⟩ := walked.only key found isFound
      exact ⟨other, firstAt_append_of_some before _, initialised⟩

/-- No two infos that are the first for a slot with a value have the same key. -/
def Distinct (start : BaseState) (infos : List PropertyInfo) : Prop :=
  ∀ info other, firstAt infos info.offset = some info →
    firstAt infos other.offset = some other → start.slots info.offset ≠ .undef →
    start.slots other.offset ≠ .undef →
      coerce (.string info.name) = coerce (.string other.name) → info = other

variable {declared : List Key} {fresh : Fresh} {className : Bytes}

theorem Walked.initProperties
    (storable : ∀ slot, start.slots slot ≠ .undef →
      (saveZval start.registry start.connection.owner (start.slots slot)).isSome = true)
    {others : List PropertyInfo} (walked : Walked start done base)
    (distinct : Distinct start (done ++ (infos ++ others))) :
    Walked start (done ++ infos) (initProperties declared fresh className infos base) := by
  induction infos generalizing done base with
  | nil => rwa [List.append_nil]
  | cons info infos ih =>
    rw [List.cons_append, List.append_cons] at distinct
    rw [List.append_cons, PropertyTables.initProperties]
    split
    · next isStatic =>
      exact ih (walked.skip fun isInstance => absurd isStatic (by simp [isInstance])) distinct
    split
    · next isEmpty => exact ih (walked.skip fun _ => isUndef_iff.mp isEmpty) distinct
    next isInstance filled =>
    rw [isUndef_iff] at filled
    have missing := walked.firstAt_of_filled filled
    have same := walked.untouched info.offset missing
    obtain ⟨storage, saved⟩ := Option.isSome_iff_exists.mp (storable info.offset (same ▸ filled))
    rw [← same, ← walked.registry, ← walked.owner] at saved
    obtain ⟨written, wrote, sameRegistry, sameOwner, hash⟩ :=
      storeWrite_saved saved base.props (.string info.name) fresh
    rw [wrote]
    refine ih (walked.write (Bool.not_eq_true _ ▸ isInstance) filled saved ?_ sameRegistry
      ((Store.finishPending_owner declared _).trans sameOwner) hash) distinct
    intro other isFirst before otherFilled infoFilled sameKey
    have equal := distinct other info (firstAt_append_of_some (firstAt_append_of_some before _) _)
      (firstAt_append_of_some isFirst _) otherFilled infoFilled sameKey
    cases equal
    cases missing.symm.trans before

theorem Walked.baseInit
    (storable : ∀ slot, start.slots slot ≠ .undef →
      (saveZval start.registry start.connection.owner (start.slots slot)).isSome = true)
    {ces : List ClassEntry} (walked : Walked start done base)
    (distinct : Distinct start (done ++ visitedInfos ces)) :
    Walked start (done ++ visitedInfos ces) (baseInit declared fresh ces base) := by
  induction ces generalizing done base with
  | nil => rwa [visitedInfos, List.flatMap_nil, List.append_nil]
  | cons ce parents ih =>
    rw [visitedInfos, List.flatMap_cons] at distinct ⊢
    rw [PropertyTables.baseInit, ← List.append_assoc]
    exact ih (walked.initProperties storable distinct) (List.append_assoc .. ▸ distinct)

theorem walked_start (registry : Registry) (thread : Nat) (ce : ClassEntry) :
    Walked (objectPropertiesInit registry thread ce) [] (objectPropertiesInit registry thread ce) :=
  ⟨rfl, rfl, rfl, fun _ visited => absurd rfl visited, fun _ _ => rfl, nofun, nofun⟩

end Walks

section Counting

variable {declared : List Key} {fresh : Fresh} {className : Bytes} {ces : List ClassEntry}

/-- Different slots are visited under different keys. -/
def KeysApart (infos : List PropertyInfo) : Prop :=
  ∀ info ∈ infos, ∀ other ∈ infos, info.isStatic = false → other.isStatic = false →
    coerce (.string info.name) = coerce (.string other.name) → info.offset = other.offset

/-- Nothing has been replaced: what is in the store has left its slot. -/
structure Unreplaced (visited : List PropertyInfo) (base : BaseState) : Prop where
  modcount : base.props.modcount = 0
  emptied : ∀ key storage, base.props.hash.find key = some storage → ∃ info ∈ visited,
    info.isStatic = false ∧ base.slots info.offset = .undef ∧ coerce (.string info.name) = key

theorem storeWrite_unreplaced {registry : Registry} {props : Props} {connection : Connection}
    {key : Store.KeyZval} {value : Zval} {written : Store.Written}
    (wrote : storeWrite registry props connection (some key) value false fresh =
      some (some written)) (absent : props.hash.find (coerce key) = none) :
    written.props.modcount = props.modcount ∧
      ∃ storage, written.props.hash = props.hash.update (coerce key) storage := by
  obtain ⟨storage, -, -, member, after, -⟩ := Store.storeWrite_eq wrote
  have isMember : written.member = coerce key := member
  have notCacheable : Store.memberIsCacheable props written.member = false := by
    simp [Store.memberIsCacheable, isMember, absent]
  rw [notCacheable, isMember] at after
  refine ⟨?_, storage, ?_⟩
  · rw [after]
    rfl
  · rw [after, Store.bumpModcount_hash]

theorem Unreplaced.initProperties {visited infos : List PropertyInfo} {base : BaseState}
    (apart : KeysApart visited) (subset : infos ⊆ visited) (unreplaced : Unreplaced visited base) :
    Unreplaced visited (initProperties declared fresh className infos base) := by
  induction infos generalizing base with
  | nil => exact unreplaced
  | cons info infos ih =>
    obtain ⟨isIn, subset⟩ := List.cons_subset.mp subset
    rw [PropertyTables.initProperties]
    split
    · exact ih subset unreplaced
    split
    · exact ih subset unreplaced
    next isInstance filled =>
    rw [isUndef_iff] at filled
    rw [Bool.not_eq_true] at isInstance
    split
    · exact ⟨unreplaced.modcount, unreplaced.emptied⟩
    · next written joined =>
      have wrote := Option.join_eq_some_iff.mp joined
      have absent : base.props.hash.find (coerce (.string info.name)) = none := by
        rw [Option.eq_none_iff_forall_ne_some]
        intro storage found
        obtain ⟨other, isOther, otherInstance, isEmpty, sameKey⟩ := unreplaced.emptied _ _ found
        rw [apart info isIn other isOther isInstance otherInstance sameKey.symm] at filled
        exact filled isEmpty
      obtain ⟨sameCount, storage, hash⟩ := storeWrite_unreplaced wrote absent
      refine ih subset ⟨sameCount.trans unreplaced.modcount, ?_⟩
      intro key stored found
      dsimp only at found ⊢
      rw [hash, Store.find_hash_update] at found
      split at found
      · next isKey =>
        exact ⟨info, isIn, isInstance, Function.update_self .., isKey.symm⟩
      · obtain ⟨other, isOther, otherInstance, isEmpty, isKey⟩ := unreplaced.emptied _ _ found
        refine ⟨other, isOther, otherInstance, ?_, isKey⟩
        rw [Function.update_apply]
        split
        · rfl
        · exact isEmpty

theorem Unreplaced.baseInit {visited : List PropertyInfo} {base : BaseState}
    (apart : KeysApart visited) (subset : visitedInfos ces ⊆ visited)
    (unreplaced : Unreplaced visited base) :
    Unreplaced visited (baseInit declared fresh ces base) := by
  induction ces generalizing base with
  | nil => exact unreplaced
  | cons ce parents ih =>
    rw [visitedInfos, List.flatMap_cons, List.append_subset] at subset
    exact ih subset.2 (unreplaced.initProperties apart subset.1)

theorem handleNumeric_null (name : Bytes) : Store.handleNumeric (0 :: name) = none := by
  simp [Store.handleNumeric, Store.isDigit]

/-- The name in an info is a key of its own. -/
theorem PropertyInfo.Describes.coerce_name {info : PropertyInfo} {scope : Bytes}
    {property : PropertyDeclaration} (describes : info.Describes scope property) :
    coerce (.string info.name) = .string info.name := by
  have notNumeric : Store.handleNumeric info.name = none := by
    rw [describes.name]
    cases property.visibility with
    | accPublic => exact property.notNumeric
    | accProtected => exact handleNumeric_null _
    | accPrivate => exact handleNumeric_null _
  rw [coerce, notNumeric]

theorem Named.keysApart {names : List Bytes} {ce : ClassEntry} {parents : List ClassEntry}
    (named : Named names ce parents) : KeysApart (visitedInfos (ce :: parents)) := by
  intro info isIn other isOther isInstance otherInstance same
  obtain ⟨scope, property, -, -, describes, -⟩ := named.described info isIn
  obtain ⟨otherScope, otherProperty, -, -, otherDescribes, -⟩ := named.described other isOther
  rw [describes.coerce_name, otherDescribes.coerce_name] at same
  exact named.offset_eq isIn isOther isInstance otherInstance (Key.string.inj same)

/-- The defaults of a class that has been linked replace nothing, whether all of them can be
stored or not. -/
theorem baseInit_modcount {declarations : List ClassDeclaration} {ce : ClassEntry}
    {parents : List ClassEntry} (linked : linkClasses declarations = some (ce :: parents))
    (registry : Registry) (thread : Nat) :
    (baseInit declared fresh (ce :: parents)
      (objectPropertiesInit registry thread ce)).props.modcount = 0 := by
  have named := linkClasses_named linked parents rfl
  have start : Unreplaced (visitedInfos (ce :: parents))
      (objectPropertiesInit registry thread ce) := by
    refine ⟨rfl, ?_⟩
    intro key storage found
    cases found
  exact (start.baseInit named.keysApart (List.Subset.refl _)).modcount

end Counting

section Constructing

variable {declared : List Key} {fresh : Fresh} {className : Bytes}

/-- What the store has taken, with the connection through which it was written. -/
def BaseState.written (base : BaseState) (elements : List (Key × Zval)) : Store.WrittenAll :=
  ⟨base.registry, base.props, base.connection, elements⟩

theorem storeWrite_total (base : BaseState) (name : Bytes) (value : Zval) :
    ∃ result, storeWrite base.registry base.props base.connection (some (.string name)) value
      false fresh = some result := by
  rw [storeWrite, writtenValue_uncoerced]
  dsimp only [Option.bind_eq_bind, Option.bind_some]
  split <;> exact ⟨_, rfl⟩

/-- The loop over a class is a sequence of writes to the store. -/
theorem initProperties_writes (infos : List PropertyInfo) (base : BaseState)
    (elements : List (Key × Zval)) :
    ∃ defaults written, Store.baseInit declared (fun _ => fresh) defaults
        (base.written elements) =
      some ((initProperties declared fresh className infos base).written written) := by
  induction infos generalizing base elements with
  | nil => exact ⟨[], elements, rfl⟩
  | cons info infos ih =>
    rw [PropertyTables.initProperties]
    split
    · exact ih base elements
    split
    · exact ih base elements
    have total : ∃ result, Store.storeWrite base.registry base.props base.connection
        (some (.string info.name)) (base.slots info.offset) false fresh = some result :=
      storeWrite_total base info.name (base.slots info.offset)
    obtain ⟨result, wrote⟩ := total
    have finished : Store.writeAndFinish declared (base.written elements)
        (Key.string info.name).toZval (base.slots info.offset) false fresh =
          some (result.map fun one => ⟨one.registry, one.props,
            Store.finishPending declared one.connection,
            elements ++ [(one.member, one.value)]⟩) := by
      rw [Store.writeAndFinish, BaseState.written, Key.toZval, wrote]
      rfl
    rw [wrote]
    cases result with
    | none =>
      refine ⟨[(.string info.name, base.slots info.offset)], elements, ?_⟩
      simp only [Store.baseInit, finished]
      rfl
    | some one =>
      obtain ⟨defaults, written, rest⟩ := ih ⟨Function.update base.slots info.offset .undef,
        one.registry, one.props, Store.finishPending declared one.connection, base.errors⟩
        (elements ++ [(one.member, one.value)])
      refine ⟨(.string info.name, base.slots info.offset) :: defaults, written, ?_⟩
      simp only [Store.baseInit, finished]
      exact rest

theorem baseInit_append (first second : List (Key × Zval)) (freshes : Key → Fresh)
    (state : Store.WrittenAll) :
    Store.baseInit declared freshes (first ++ second) state =
      (Store.baseInit declared freshes first state).bind
        (Store.baseInit declared freshes second) := by
  induction first generalizing state with
  | nil => rfl
  | cons element first ih =>
    simp only [List.cons_append, Store.baseInit, Option.bind_eq_bind, Option.bind_assoc, ih]

/-- The construction of an object writes its defaults to the store one after the other. -/
theorem baseInit_writes (ces : List ClassEntry) (base : BaseState)
    (elements : List (Key × Zval)) :
    ∃ defaults written, Store.baseInit declared (fun _ => fresh) defaults
        (base.written elements) =
      some ((baseInit declared fresh ces base).written written) := by
  induction ces generalizing base elements with
  | nil => exact ⟨[], elements, rfl⟩
  | cons ce parents ih =>
    have head : ∃ defaults written, Store.baseInit declared (fun _ => fresh) defaults
        (base.written elements) = some ((initProperties declared fresh ce.name
          (ce.propertiesInfo.entries.map Prod.snd) base).written written) :=
      initProperties_writes (ce.propertiesInfo.entries.map Prod.snd) base elements
    obtain ⟨defaults, written, first⟩ := head
    obtain ⟨others, all, rest⟩ := ih _ written
    refine ⟨defaults ++ others, all, ?_⟩
    rw [baseInit_append, first]
    exact rest

end Constructing

/-- The slot that a property is found in from the class that declares it. -/
def Property.slot (ces : List ClassEntry) (property : Property) : Nat :=
  match getPropertyInfo ces (ancestry ces property.scope) property.declaration.name with
  | .found info => info.offset
  | _ => 0

/-- The instance properties that have a default. -/
def initialisedProperties (declarations : List ClassDeclaration) : Set Property :=
  {property | property ∈ instanceProperties declarations ∧ property.declaration.value ≠ .undef}

/-- The declaration of a property with an integer as its default. -/
def declareLong (name : UInt8) (visibility : Visibility) (isStatic : Bool) (value : Int)
    (plain : 0 ∉ [name]) (notNumeric : Store.handleNumeric [name] = none) : PropertyDeclaration :=
  ⟨[name], visibility, isStatic, .long value, plain, notNumeric⟩

/-- A class with a private and a protected property. -/
def shadowedClass : ClassDeclaration where
  name := [65]
  properties := [declareLong 120 .accPrivate false 1 (by decide) (by decide),
    declareLong 121 .accProtected false 5 (by decide) (by decide)]
  distinct := by decide
  notStar := by decide

/-- A child that shadows the private property and makes the other one public. -/
def shadowingClass : ClassDeclaration where
  name := [66]
  properties := [declareLong 122 .accPublic true 0 (by decide) (by decide),
    declareLong 120 .accPublic false 3 (by decide) (by decide),
    declareLong 121 .accPublic false 7 (by decide) (by decide)]
  distinct := by decide
  notStar := by decide

section Defaults

variable {declarations : List ClassDeclaration} {ce : ClassEntry} {parents : List ClassEntry}
  {property : Property} {info : PropertyInfo}

theorem Placed.slot_eq (placed : Placed ce parents property info) :
    property.slot (ce :: parents) = info.offset := by
  rw [Property.slot, placed.getPropertyInfo_eq]

/-- The name of a property is a key of its own. -/
theorem Property.coerce_name (property : Property) :
    coerce (.string property.name) = .string property.name := by
  have notNumeric : Store.handleNumeric property.name = none := by
    unfold Property.name infoName
    split
    · exact property.declaration.notNumeric
    · exact handleNumeric_null _
    · exact handleNumeric_null _
  rw [coerce, notNumeric]

/-- A slot has one property. -/
theorem Placed.eq_of_slot (placed : Placed ce parents property info) {other : Property}
    {otherInfo : PropertyInfo} (otherPlaced : Placed ce parents other otherInfo)
    (distinct : (declarations.map ClassDeclaration.name).Nodup)
    (isProperty : property ∈ instanceProperties declarations)
    (isOther : other ∈ instanceProperties declarations)
    (same : info.offset = otherInfo.offset) : property = other := by
  have isOwner := placed.isOwner
  rw [same, otherPlaced.isOwner] at isOwner
  cases isOwner
  apply instanceProperties_name_injective distinct isProperty isOther
  exact placed.describes.name.symm.trans otherPlaced.describes.name

theorem Laid.distinct (laid : Laid declarations ce parents)
    (distinct : (declarations.map ClassDeclaration.name).Nodup) (registry : Registry)
    (thread : Nat) : Distinct (objectPropertiesInit registry thread ce)
      (visitedInfos (ce :: parents)) := by
  have owned : ∀ info, firstAt (visitedInfos (ce :: parents)) info.offset = some info →
      ce.defaultPropertiesTable info.offset ≠ .undef →
        ∃ property ∈ instanceProperties declarations, Placed ce parents property info := by
    intro info isFirst initialised
    obtain ⟨property, isProperty, other, placed, offset⟩ := laid.covered info.offset initialised
    have isOwner := placed.isOwner
    rw [offset] at isOwner
    cases isFirst.symm.trans isOwner
    exact ⟨property, isProperty, placed⟩
  intro info other isFirst otherFirst initialised otherInitialised same
  obtain ⟨property, isProperty, placed⟩ := owned info isFirst initialised
  obtain ⟨twin, isTwin, twinPlaced⟩ := owned other otherFirst otherInitialised
  rw [placed.describes.name, twinPlaced.describes.name] at same
  have names : property.name = twin.name :=
    Key.string.inj (property.coerce_name.symm.trans (same.trans twin.coerce_name))
  cases instanceProperties_name_injective distinct isProperty isTwin names
  have offsets := placed.slot_eq.symm.trans twinPlaced.slot_eq
  rw [offsets, otherFirst] at isFirst
  exact (Option.some.inj isFirst).symm

/-- The properties with a default are one for each initialised slot. -/
theorem Laid.slot_bijOn (laid : Laid declarations ce parents)
    (distinct : (declarations.map ClassDeclaration.name).Nodup) :
    Set.BijOn (Property.slot (ce :: parents)) (initialisedProperties declarations)
      {slot | ce.defaultPropertiesTable slot ≠ .undef} := by
  refine ⟨?_, ?_, ?_⟩
  · rintro property ⟨isProperty, initialised⟩
    obtain ⟨info, placed⟩ := laid.placed property isProperty
    change ce.defaultPropertiesTable (property.slot (ce :: parents)) ≠ .undef
    rw [placed.slot_eq, placed.value]
    exact initialised
  · rintro property ⟨isProperty, -⟩ other ⟨isOther, -⟩ same
    obtain ⟨info, placed⟩ := laid.placed property isProperty
    obtain ⟨otherInfo, otherPlaced⟩ := laid.placed other isOther
    rw [placed.slot_eq, otherPlaced.slot_eq] at same
    exact placed.eq_of_slot otherPlaced distinct isProperty isOther same
  · intro slot initialised
    obtain ⟨property, isProperty, info, placed, rfl⟩ := laid.covered slot initialised
    exact ⟨property, ⟨isProperty, placed.value ▸ initialised⟩, placed.slot_eq⟩

theorem declared_of_mem_instanceProperties {declarations : List ClassDeclaration}
    {property : Property} (isProperty : property ∈ instanceProperties declarations) :
    ∃ declaration ∈ declarations, property.declaration ∈ declaration.properties := by
  induction declarations with
  | nil => cases isProperty
  | cons declaration declarations ih =>
    rcases mem_instanceProperties_cons.mp isProperty with ⟨-, isDeclared, -⟩ | ⟨before, -⟩
    · exact ⟨declaration, List.mem_cons_self, isDeclared⟩
    · obtain ⟨above, isAbove, isDeclared⟩ := ih before
      exact ⟨above, List.mem_cons_of_mem _ isAbove, isDeclared⟩

/-- What is in the slots is what the classes declare. -/
theorem storable_of_declarations {registry : Registry} {thread : Nat}
    (linked : linkClasses declarations = some (ce :: parents))
    (storable : ∀ declaration ∈ declarations, ∀ property ∈ declaration.properties,
      property.value ≠ .undef → (saveZval registry thread property.value).isSome = true)
    (slot : Nat) (initialised : ce.defaultPropertiesTable slot ≠ .undef) :
    (saveZval registry thread (ce.defaultPropertiesTable slot)).isSome = true := by
  obtain ⟨-, -, laid⟩ := linkClasses_laid linked
  obtain ⟨property, isProperty, info, placed, rfl⟩ :=
    (laid ce parents rfl).covered slot initialised
  obtain ⟨declaration, isIn, isDeclared⟩ := declared_of_mem_instanceProperties isProperty
  rw [placed.value] at initialised ⊢
  exact storable declaration isIn property.declaration isDeclared initialised

/-- Every default of a class that has been linked is stored once, under the name by which the
property is found, and the slots are empty afterwards. -/
theorem baseInit_stores (registry : Registry) (thread : Nat) (declared : List Key) (fresh : Fresh)
    (linked : linkClasses declarations = some (ce :: parents))
    (storable : ∀ slot, ce.defaultPropertiesTable slot ≠ .undef →
      (saveZval registry thread (ce.defaultPropertiesTable slot)).isSome = true) :
    let base := baseInit declared fresh (ce :: parents) (objectPropertiesInit registry thread ce)
    base.errors = [] ∧ (∀ slot, base.slots slot = .undef) ∧
      Set.BijOn (Property.slot (ce :: parents)) (initialisedProperties declarations)
        {slot | ce.defaultPropertiesTable slot ≠ .undef} ∧
      Set.BijOn (fun property => Key.string property.name) (initialisedProperties declarations)
        {key | base.props.hash.find key ≠ none} ∧
      ∀ property ∈ initialisedProperties declarations,
        ce.defaultPropertiesTable (property.slot (ce :: parents)) = property.declaration.value ∧
        base.props.hash.find (.string property.name) =
          saveZval registry thread property.declaration.value ∧
        (propertyKey (ce :: parents) (ancestry (ce :: parents) property.scope)
          property.declaration.name).map (fun name => coerce (.string name)) =
            some (.string property.name) := by
  obtain ⟨distinct, -, laid⟩ := linkClasses_laid linked
  replace laid := laid ce parents rfl
  intro base
  have walked : Walked (objectPropertiesInit registry thread ce)
      ([] ++ visitedInfos (ce :: parents)) base :=
    (walked_start registry thread ce).baseInit storable (laid.distinct distinct registry thread)
  rw [List.nil_append] at walked
  have stored : ∀ property ∈ initialisedProperties declarations,
      base.props.hash.find (.string property.name) =
        saveZval registry thread property.declaration.value := by
    rintro property ⟨isProperty, initialised⟩
    obtain ⟨info, placed⟩ := laid.placed property isProperty
    have filled : ce.defaultPropertiesTable info.offset ≠ .undef := placed.value ▸ initialised
    have isStored := walked.stored info placed.isOwner filled
    rw [placed.describes.name] at isStored
    exact property.coerce_name ▸ isStored.trans (congrArg (saveZval registry thread) placed.value)
  refine ⟨walked.errors, ?_, laid.slot_bijOn distinct, ⟨?_, ?_, ?_⟩, ?_⟩
  · intro slot
    by_cases missing : firstAt (visitedInfos (ce :: parents)) slot = none
    · rw [walked.untouched slot missing]
      by_contra initialised
      obtain ⟨property, -, info, placed, rfl⟩ := laid.covered slot initialised
      cases missing.symm.trans placed.isOwner
    · exact walked.emptied slot missing
  · intro property isInitialised
    have isStorable : (saveZval registry thread property.declaration.value).isSome = true := by
      obtain ⟨info, placed⟩ := laid.placed property isInitialised.1
      rw [← placed.value]
      exact storable info.offset (placed.value ▸ isInitialised.2)
    change base.props.hash.find (.string property.name) ≠ none
    rw [stored property isInitialised]
    exact Option.isSome_iff_ne_none.mp isStorable
  · rintro property ⟨isProperty, -⟩ other ⟨isOther, -⟩ same
    exact instanceProperties_name_injective distinct isProperty isOther (Key.string.inj same)
  · intro key isKey
    obtain ⟨storage, found⟩ := Option.ne_none_iff_exists'.mp isKey
    obtain ⟨info, isFirst, initialised, rfl⟩ := walked.only key storage found
    obtain ⟨property, isProperty, other, placed, offset⟩ := laid.covered info.offset initialised
    have isOwner := placed.isOwner
    rw [offset] at isOwner
    cases isFirst.symm.trans isOwner
    refine ⟨property, ⟨isProperty, placed.value ▸ initialised⟩, ?_⟩
    exact property.coerce_name.symm.trans (placed.describes.name ▸ rfl)
  · intro property isInitialised
    obtain ⟨info, placed⟩ := laid.placed property isInitialised.1
    refine ⟨placed.slot_eq ▸ placed.value, stored property isInitialised, ?_⟩
    rw [placed.propertyKey_eq, Option.map_some, property.coerce_name]

theorem baseInit_stores_shadowing : ∃ ce parents,
    linkClasses [shadowingClass, shadowedClass] = some (ce :: parents) ∧
      let base := baseInit [] ⟨0, 0, 0⟩ (ce :: parents)
        (objectPropertiesInit ObjectRegistry.initial 0 ce)
      base.errors = [] ∧ (∀ slot, base.slots slot = .undef) ∧
        ∀ property ∈ initialisedProperties [shadowingClass, shadowedClass],
          base.props.hash.find (.string property.name) =
            saveZval ObjectRegistry.initial 0 property.declaration.value := by
  obtain ⟨ce, parents, linked⟩ : ∃ ce parents,
      linkClasses [shadowingClass, shadowedClass] = some (ce :: parents) := ⟨_, _, rfl⟩
  have storable : ∀ declaration ∈ [shadowingClass, shadowedClass],
      ∀ property ∈ declaration.properties, property.value ≠ .undef →
        (saveZval ObjectRegistry.initial 0 property.value).isSome = true := by
    simp [shadowingClass, shadowedClass, declareLong, saveZval]
  obtain ⟨errors, slots, -, -, stored⟩ := baseInit_stores ObjectRegistry.initial 0 [] ⟨0, 0, 0⟩
    linked (storable_of_declarations linked storable)
  exact ⟨ce, parents, linked, errors, slots, fun property isIn => (stored property isIn).2.1⟩

/-- The child's own value, the one that is now public, and the private one of the parent. -/
example : ((linkClasses [shadowingClass, shadowedClass]).bind fun ces => ces.head?.map fun ce =>
    let base := baseInit [] ⟨0, 0, 0⟩ ces (objectPropertiesInit ObjectRegistry.initial 0 ce)
    base.props.hash.table.keys) =
      some [.string [120], .string [121], .string [0, 65, 0, 120]] := by decide

end Defaults

end Pthreads.PropertyTables
