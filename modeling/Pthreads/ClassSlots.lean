import Pthreads.OrderedTable

/-!
# The method slots of prepared classes

A `zend_class_entry` has slots for the methods that the engine calls by itself.
`pthreads_complete_entry` copies the function table of a class and then fills the
slots by looking up names in the copied table.  An anonymous class that was not
linked when it was first copied is completed a second time.
-/

namespace Pthreads.ClassSlots

/-- The function pointers of `zend_class_entry`, `zend_class_iterator_funcs` and
`zend_class_arrayaccess_funcs`. -/
inductive Slot
  | constructor | destructor | clone | get | set | unset | isset | call | callstatic
  | tostring | debugInfo | serialize | unserialize
  | newIterator | valid | current | key | next | rewind
  | offsetget | offsetexists | offsetset | offsetunset
deriving DecidableEq, Repr

/-- Where a slot is. -/
inductive Group
  | classEntry
  | iteratorFuncs
  | arrayaccessFuncs
deriving DecidableEq, Repr

def Slot.group : Slot → Group
  | .newIterator | .valid | .current | .key | .next | .rewind => .iteratorFuncs
  | .offsetget | .offsetexists | .offsetset | .offsetunset => .arrayaccessFuncs
  | _ => .classEntry

/-- The key of the method that the engine puts into a slot. -/
def Slot.method : Slot → String
  | .constructor => "__construct"
  | .destructor => "__destruct"
  | .clone => "__clone"
  | .get => "__get"
  | .set => "__set"
  | .unset => "__unset"
  | .isset => "__isset"
  | .call => "__call"
  | .callstatic => "__callstatic"
  | .tostring => "__tostring"
  | .debugInfo => "__debuginfo"
  | .serialize => "__serialize"
  | .unserialize => "__unserialize"
  | .newIterator => "getiterator"
  | .valid => "valid"
  | .current => "current"
  | .key => "key"
  | .next => "next"
  | .rewind => "rewind"
  | .offsetget => "offsetget"
  | .offsetexists => "offsetexists"
  | .offsetset => "offsetset"
  | .offsetunset => "offsetunset"

/-- The key that `prepare_class_interceptors` looks up for a slot, if it fills the
slot at all. -/
def Slot.lookup : Slot → Option String
  | .constructor => some "__construct"
  | .clone => some "__clone"
  | .get => some "__get"
  | .set => some "__set"
  | .unset => some "__unset"
  | .isset => some "__isset"
  | .call => some "__call"
  | .callstatic => some "__callstatic"
  | .serialize => some "__serialize"
  | .unserialize => some "__unserialize"
  | .tostring => some "__tostring"
  | .destructor => some "__destruct"
  | .debugInfo => none
  | .newIterator => some "new_iterator"
  | .valid => some "valid"
  | .current => some "current"
  | .key => some "key"
  | .next => some "next"
  | .rewind => some "rewind"
  | .offsetget => some "offsetget"
  | .offsetexists => some "offsetexists"
  | .offsetset => some "offsetset"
  | .offsetunset => some "offsetunset"

/-- The part of a `zend_class_entry` that concerns its methods. -/
structure ClassEntry (Function : Type*) where
  name : String
  functionTable : OrderedTable String Function
  /-- `iterator_funcs_ptr` and `arrayaccess_funcs_ptr` are set. -/
  hasGroup : Group → Bool
  slots : Slot → Option Function

variable {Function : Type*}

/-- A slot of a group that the class has. -/
def ClassEntry.slot (entry : ClassEntry Function) (slot : Slot) : Option Function :=
  if entry.hasGroup slot.group then entry.slots slot else none

/-- `zend_initialize_class_data`. -/
def initializeClassData (name : String) : ClassEntry Function where
  name := name
  functionTable := OrderedTable.empty
  hasGroup := fun group => group = .classEntry
  slots := fun _ => none

/-- One method of `prepare_class_function_table`. -/
def prepareFunction (copy : Function → Function) (table : OrderedTable String Function)
    (method : String × Function) : OrderedTable String Function :=
  if (table.find method.1).isSome then table else table.update method.1 (copy method.2)

/-- `prepare_class_function_table`. -/
def prepareClassFunctionTable (copy : Function → Function)
    (candidate prepared : ClassEntry Function) : OrderedTable String Function :=
  candidate.functionTable.entries.foldl (prepareFunction copy) prepared.functionTable

/-- The constructor, with the search for a method that has the name of the class. -/
def findConstructor (prepared : ClassEntry Function) : Option Function :=
  match prepared.functionTable.find "__construct" with
  | some function => some function
  | none => prepared.functionTable.find prepared.name

/-- `FIND_AND_SET` -/
def findAndSet (prepared : ClassEntry Function) (slot : Slot) : Option Function :=
  match prepared.slots slot with
  | some function => some function
  | none =>
      if slot = .constructor then findConstructor prepared
      else slot.lookup.bind prepared.functionTable.find

/-- `SET_FUNC_REF` -/
def setFuncRef (prepared : ClassEntry Function) (slot : Slot) : Option Function :=
  slot.lookup.bind prepared.functionTable.find

/-- `prepare_class_interceptors`. -/
def prepareClassInterceptors (candidate prepared : ClassEntry Function) : ClassEntry Function :=
  { prepared with
    hasGroup := candidate.hasGroup
    slots := fun slot =>
      if slot.group = .classEntry then findAndSet prepared slot else setFuncRef prepared slot }

/-- The part of `pthreads_complete_entry` that prepares the methods. -/
def completeEntry (copy : Function → Function) (candidate prepared : ClassEntry Function) :
    ClassEntry Function :=
  prepareClassInterceptors candidate
    { prepared with functionTable := prepareClassFunctionTable copy candidate prepared }

/-- The engine has put the method of its name into each slot that is set.  A `Function` is
a method whatever duplicates the engine has made of it: it duplicates internal methods
that are inherited. -/
def EngineSlots (candidate : ClassEntry Function) : Prop :=
  ∀ slot function, candidate.slot slot = some function →
    candidate.functionTable.find slot.method = some function

/-- The class entry that preparation arrives at: a copy that has been completed
once, and again when the class, which is anonymous, has been linked and has got
the methods of its parents.  No method has the name of an anonymous class. -/
inductive Prepared (copy : Function → Function) :
    ClassEntry Function → ClassEntry Function → Prop
  | first (candidate : ClassEntry Function) :
      Prepared copy candidate
        (completeEntry copy candidate (initializeClassData candidate.name))
  | again {earlier candidate prepared : ClassEntry Function}
      (before : Prepared copy earlier prepared) (sameName : candidate.name = earlier.name)
      (kept : ∀ key function, earlier.functionTable.find key = some function →
        candidate.functionTable.find key = some function)
      (anonymous : earlier.functionTable.find earlier.name = none) :
      Prepared copy candidate (completeEntry copy candidate prepared)

/-- Each slot that is set holds the copy of the same method. -/
def SlotsPreserved (copy : Function → Function) (candidate prepared : ClassEntry Function) : Prop :=
  ∀ slot function, candidate.slot slot = some function →
    prepared.slot slot = some (copy function)

section Tables

variable {copy : Function → Function} {candidate prepared : ClassEntry Function}

theorem find_prepareFunction (table : OrderedTable String Function) (method : String × Function)
    (key : String) :
    (prepareFunction copy table method).find key =
      (table.find key).or (if method.1 = key then some (copy method.2) else none) := by
  unfold prepareFunction
  by_cases same : method.1 = key
  · subst same
    cases found : table.find method.1 <;> simp [found]
  · rw [if_neg same, Option.or_none]
    split
    · rfl
    · exact OrderedTable.find_update_other _ _ (Ne.symm same)

/-- The methods that were copied before stay, and the others are copied. -/
theorem find_foldl_prepareFunction (table : OrderedTable String Function)
    (methods : List (String × Function)) (key : String) :
    (methods.foldl (prepareFunction copy) table).find key =
      (table.find key).or ((OrderedTable.lookup key methods).map copy) := by
  induction methods generalizing table with
  | nil => simp [OrderedTable.lookup]
  | cons method methods ih =>
      rw [List.foldl_cons, ih, find_prepareFunction, Option.or_assoc]
      congr 1
      by_cases same : method.1 = key
      · simp [OrderedTable.lookup, same]
      · simp [OrderedTable.lookup, same]

/-- What holds of a prepared class: the table has the copies of all methods, and
the slots of the class entry are what the lookups give. -/
structure WellPrepared (copy : Function → Function) (candidate prepared : ClassEntry Function) :
    Prop where
  name : prepared.name = candidate.name
  table : ∀ key, prepared.functionTable.find key = (candidate.functionTable.find key).map copy
  hasGroup : prepared.hasGroup = candidate.hasGroup
  slots : ∀ slot, prepared.slots slot =
    if slot = .constructor then findConstructor prepared
    else slot.lookup.bind prepared.functionTable.find

/-- A pass over an entry whose methods are copies of some of the candidate's, and
whose slots are set only as the lookups would set them now. -/
theorem completeEntry_wellPrepared (sameName : prepared.name = candidate.name)
    (copied : ∀ key function, prepared.functionTable.find key = some function →
      ∃ original, candidate.functionTable.find key = some original ∧ function = copy original)
    (agree : ∀ slot function, slot.group = .classEntry → prepared.slots slot = some function →
      slot.lookup.bind prepared.functionTable.find = some function) :
    WellPrepared copy candidate (completeEntry copy candidate prepared) := by
  have table : ∀ key, (completeEntry copy candidate prepared).functionTable.find key =
      (candidate.functionTable.find key).map copy := by
    intro key
    apply (find_foldl_prepareFunction prepared.functionTable _ key).trans
    show (prepared.functionTable.find key).or ((candidate.functionTable.find key).map copy) = _
    cases found : prepared.functionTable.find key with
    | none => rfl
    | some function =>
        obtain ⟨original, isThere, rfl⟩ := copied key function found
        simp [isThere]
  refine ⟨sameName, table, rfl, ?_⟩
  intro slot
  by_cases isClassEntry : slot.group = .classEntry
  · have isSet : (completeEntry copy candidate prepared).slots slot = findAndSet { prepared with
        functionTable := prepareClassFunctionTable copy candidate prepared } slot :=
      if_pos isClassEntry
    rw [isSet]
    cases old : prepared.slots slot with
    | none => simp only [findAndSet, old, completeEntry, prepareClassInterceptors, findConstructor]
    | some function =>
        -- a slot that was set before is set as it would be set now
        obtain ⟨key, isKey, found⟩ :=
          Option.bind_eq_some_iff.mp (agree slot function isClassEntry old)
        obtain ⟨original, isThere, rfl⟩ := copied key function found
        have now : (completeEntry copy candidate prepared).functionTable.find key =
            some (copy original) := by rw [table, isThere]; rfl
        have stays : findAndSet { prepared with
            functionTable := prepareClassFunctionTable copy candidate prepared } slot =
              some (copy original) := by simp only [findAndSet, old]
        rw [stays]
        by_cases isConstructor : slot = .constructor
        · subst isConstructor
          cases isKey
          simp only [if_true, findConstructor, now]
        · rw [if_neg isConstructor, isKey]
          exact now.symm
  · have notConstructor : slot ≠ .constructor := by
      rintro rfl
      exact isClassEntry rfl
    rw [if_neg notConstructor]
    exact if_neg isClassEntry

theorem Prepared.wellPrepared (prepares : Prepared copy candidate prepared) :
    WellPrepared copy candidate prepared := by
  induction prepares with
  | first candidate =>
      refine completeEntry_wellPrepared rfl ?_ ?_
      · intro key function found
        cases found
      · intro slot function _ isSet
        cases isSet
  | @again earlier candidate prepared _ sameName kept anonymous well =>
      apply completeEntry_wellPrepared (well.name.trans sameName.symm)
      · intro key function found
        rw [well.table] at found
        obtain ⟨original, isThere, rfl⟩ := Option.map_eq_some_iff.mp found
        exact ⟨original, kept key original isThere, rfl⟩
      · intro slot function _ isSet
        rw [well.slots] at isSet
        split at isSet
        · next isConstructor =>
          subst isConstructor
          unfold findConstructor at isSet
          split at isSet
          · next found =>
            rw [← isSet]
            exact found
          · rw [well.table, well.name, anonymous] at isSet
            cases isSet
        · exact isSet

end Tables

/-- In every preparation of a class the slots are preserved exactly when it has no
`__debugInfo`, and no `getIterator` in the slot of an aggregate, unless the method
`new_iterator` is copied to the same. -/
theorem slots_preserved_iff {copy : Function → Function} {candidate prepared : ClassEntry Function}
    (engine : EngineSlots candidate) (prepares : Prepared copy candidate prepared) :
    SlotsPreserved copy candidate prepared ↔
      candidate.slot .debugInfo = none ∧
        ∀ function, candidate.slot .newIterator = some function →
          (candidate.functionTable.find "new_iterator").map copy = some (copy function) := by
  have well := prepares.wellPrepared
  have prepares : ∀ slot function, candidate.slot slot = some function →
      prepared.slot slot = prepared.slots slot := by
    intro slot function isSet
    unfold ClassEntry.slot at isSet ⊢
    obtain ⟨hasGroup, -⟩ := Option.ite_none_right_eq_some.mp isSet
    rw [well.hasGroup, if_pos hasGroup]
  constructor
  · intro preserved
    constructor
    · by_contra isSet
      obtain ⟨function, isFunction⟩ := Option.ne_none_iff_exists'.mp isSet
      have isThere := preserved _ _ isFunction
      rw [prepares _ _ isFunction, well.slots] at isThere
      cases isThere
    · intro function isFunction
      have isThere := preserved _ _ isFunction
      rw [prepares _ _ isFunction, well.slots] at isThere
      rw [← well.table]
      exact isThere
  · rintro ⟨noDebugInfo, aggregate⟩ slot function isFunction
    have found := engine slot function isFunction
    have copied : prepared.functionTable.find slot.method = some (copy function) := by
      rw [well.table, found]
      rfl
    rw [prepares slot function isFunction, well.slots]
    cases slot with
    | debugInfo =>
        rw [noDebugInfo] at isFunction
        cases isFunction
    | newIterator =>
        have isThere := aggregate function isFunction
        rw [← well.table] at isThere
        exact isThere
    | constructor =>
        rw [Slot.method] at copied
        simp only [if_true, findConstructor, copied]
    | _ => exact copied

/-- A class with one method, which is in its slot. -/
def classWith (slot : Slot) : ClassEntry Nat where
  name := "Example"
  functionTable := ⟨[(slot.method, 1)], List.nodup_singleton _⟩
  hasGroup := fun group => group = .classEntry ∨ group = slot.group
  slots := fun other => if other = slot then some 1 else none

theorem engineSlots_classWith (slot : Slot) : EngineSlots (classWith slot) := by
  intro other function isSet
  unfold ClassEntry.slot at isSet
  obtain ⟨-, isSet⟩ := Option.ite_none_right_eq_some.mp isSet
  obtain ⟨rfl, isFunction⟩ := Option.ite_none_right_eq_some.mp isSet
  rw [← isFunction]
  exact if_pos rfl

/-- An iterator keeps its `valid`. -/
theorem slots_preserved_valid :
    ∃ prepared, Prepared (· + 100) (classWith .valid) prepared ∧
      (classWith .valid).slot .valid = some 1 ∧ prepared.slot .valid = some 101 ∧
      SlotsPreserved (· + 100) (classWith .valid) prepared := by
  refine ⟨_, .first (classWith .valid), by decide, by decide, ?_⟩
  apply (slots_preserved_iff (engineSlots_classWith .valid) (.first (classWith .valid))).mpr
  refine ⟨by decide, ?_⟩
  intro function isSet
  cases isSet

/-- An aggregate loses its `getIterator`, and a class its `__debugInfo`. -/
theorem slots_lost_newIterator :
    ∃ aggregate dumped, Prepared (· + 100) (classWith .newIterator) aggregate ∧
      Prepared (· + 100) (classWith .debugInfo) dumped ∧
      EngineSlots (classWith .newIterator) ∧ EngineSlots (classWith .debugInfo) ∧
      (classWith .newIterator).slot .newIterator = some 1 ∧
      aggregate.slot .newIterator = none ∧
      (classWith .debugInfo).slot .debugInfo = some 1 ∧ dumped.slot .debugInfo = none ∧
      ¬ SlotsPreserved (· + 100) (classWith .newIterator) aggregate ∧
      ¬ SlotsPreserved (· + 100) (classWith .debugInfo) dumped := by
  refine ⟨_, _, .first (classWith .newIterator), .first (classWith .debugInfo),
    engineSlots_classWith _, engineSlots_classWith _, by decide, by decide, by decide, by decide,
    ?_, ?_⟩
  · intro preserved
    exact absurd (preserved .newIterator 1 (by decide)) (by decide)
  · intro preserved
    exact absurd (preserved .debugInfo 1 (by decide)) (by decide)

end Pthreads.ClassSlots
