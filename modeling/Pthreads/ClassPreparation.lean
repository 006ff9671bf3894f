import Mathlib.Logic.Function.Basic
import Mathlib.Data.List.Basic
import Pthreads.PartialFolds

/-!
# The classes of a new thread

When a thread starts, `pthreads_prepared_startup` fills its class table from that
of its creator.  A class of the creator is copied, unless it is immutable: such a
class lives in the shared memory of opcache and is used in place.  In both cases
the static members are the thread's own, and they start with the values that the
creator has at that moment.  This is the code path for PHP 8.1 and later.

Copying a value connects the `Threaded` objects in it, and for the first connection
to an object the thread prepares the class of the object at once, with its static
members.  So copying the constants, functions and static members of the creator may
prepare classes long before their turn, even while a class or a table of static
members is only half copied.  Where that makes the thread read memory that has not
been written or is not there any more, the model has no result.  The copying itself
is a function of the value.

The calls of `pthreads_prepared_entry` for the classes of inherited properties,
constants and methods are not modelled: these are ancestors and interfaces that have
been prepared before, so that the calls only look them up.
-/

namespace Pthreads.ClassPreparation

/-- Where a class entry comes from: the engine or an extension, the preloading of
opcache, a script cached by opcache, or a script compiled by the creator. -/
inductive Origin
  | internal
  | preloaded
  | immutable
  | user
deriving DecidableEq, Repr

/-- What preparation reads of a `zend_class_entry` of the creator. -/
structure ClassEntry (ClassId Value : Type*) where
  origin : Origin
  /-- `ZEND_ACC_LINKED` -/
  linked : Bool
  /-- The key in the class table starts with a NUL byte. -/
  unnamed : Bool
  /-- The parent, its parent, and so on. -/
  ancestors : List ClassId
  interfaces : List ClassId
  /-- The classes that the types of the properties name. -/
  propertyTypes : List ClassId
  /-- `default_static_members_table`, indirections followed. -/
  defaultStatics : List Value
  /-- `static_members_table` in the creator, indirections followed. -/
  staticMembers : Option (List Value)

namespace ClassEntry

variable {ClassId Value : Type*} (entry : ClassEntry ClassId Value)

/-- The ancestors that the engine has resolved. -/
def lineage : List ClassId :=
  if entry.linked then entry.ancestors else []

/-- `default_static_members_count` -/
def count : Nat :=
  entry.defaultStatics.length

/-- What `pthreads_complete_entry` prepares before the class. -/
def required : List ClassId :=
  if entry.linked then entry.ancestors.head?.toList ++ entry.interfaces else []

/-- What `pthreads_prepare_immutable_class_dependencies` prepares. -/
def dependencies : List ClassId :=
  entry.required ++ entry.propertyTypes

/-- The `candidate_static_members_table` of `init_class_statics`. -/
def currentStatics : Option (List Value) :=
  if entry.count ≠ 0 ∧ entry.linked = true then entry.staticMembers else none

end ClassEntry

/-- The class table of the creator, as the engine keeps it. -/
structure Creator (ClassId Value : Type*) where
  /-- The keys of the class table in their order. -/
  classTable : List ClassId
  entry : ClassId → ClassEntry ClassId Value
  /-- A class is linked after its parent and its interfaces. -/
  rank : ClassId → Nat
  rank_le : ∀ candidate, rank candidate ≤ classTable.length
  rank_lt : ∀ candidate, (entry candidate).origin = .user →
    ∀ other ∈ (entry candidate).required, rank other < rank candidate
  listed : ∀ candidate, ∀ other ∈ (entry candidate).dependencies, other ∈ classTable
  /-- All dependencies of immutable classes are themselves immutable. -/
  shared : ∀ candidate, (entry candidate).origin ≠ .user →
    ∀ other ∈ (entry candidate).dependencies, (entry other).origin ≠ .user
  lineage_parent : ∀ candidate parent rest, (entry candidate).lineage = parent :: rest →
    (entry parent).linked = true ∧ (entry parent).lineage = rest
  /-- The slots of the parent come first, those that the class declares follow. -/
  count_parent : ∀ candidate parent rest, (entry candidate).lineage = parent :: rest →
    (entry parent).count ≤ (entry candidate).count
  members_length : ∀ candidate values, (entry candidate).staticMembers = some values →
    values.length = (entry candidate).count
  /-- The creator shares the inherited slots with the parent. -/
  members_parent : ∀ candidate parent rest values, (entry candidate).lineage = parent :: rest →
    (entry parent).count ≠ 0 → (entry candidate).staticMembers = some values →
      ∃ inherited, (entry parent).staticMembers = some inherited ∧ inherited <+: values

/-- A user function in the function table of the creator. -/
structure UserFunction (ClassId : Type*) where
  key : String
  /-- `ZEND_ACC_CLOSURE` -/
  closure : Bool
  /-- The classes of the `Threaded` objects in its static variables. -/
  objects : List ClassId

/-- The creator with the `Threaded` objects that are copied.  Objects are known by their
classes, in the order in which copying comes to them. -/
structure ObjectCreator (ClassId Value : Type*) extends Creator ClassId Value where
  /-- The objects in a value. -/
  objects : Value → List ClassId
  /-- The objects in the static variables of the methods of a class. -/
  methodObjects : ClassId → List ClassId
  functionTable : List (UserFunction ClassId)
  /-- The objects in the constants. -/
  constantObjects : List ClassId
  /-- What opcache preloads is in every class table. -/
  preloaded_listed : ∀ candidate, (entry candidate).origin = .preloaded → candidate ∈ classTable
  /-- `ZEND_ACC_CONSTANTS_UPDATED` is not among the flags in shared memory, so that each
  thread evaluates the constant expressions of the class. -/
  constantExpressions : ClassId → Bool
  /-- `ZEND_ACC_HAS_AST_PROPERTIES | ZEND_ACC_HAS_AST_STATICS` -/
  memberExpressions : ClassId → Bool
  /-- `nTableSize` of a class table with that many classes -/
  tableSize : Nat → Nat
  /-- `pthreads_copy_zval`, as far as the value is concerned. -/
  copyZval : Value → Option Value
  null : Value
  /-- The copy of a value has connections to the same objects. -/
  objects_copied : ∀ value copied, copyZval value = some copied → objects copied = objects value
  objects_uncopied : ∀ value, copyZval value = none → objects value = []
  objects_null : objects null = []
  /-- A constant expression has no object. -/
  objects_default : ∀ candidate, ∀ content ∈ (entry candidate).defaultStatics,
    objects content = []

/-- A slot of a table of static members, by the class of the table. -/
abbrev Address (ClassId : Type*) := ClassId × Nat

/-- A `zval` in a table of static members.  A table is allocated before it is filled.  A
constant expression stands for its value, which the engine computes before the member is
used. -/
inductive Slot (ClassId Value : Type*)
  | unwritten
  | value (content : Value)
  | indirect (target : Address ClassId)
deriving DecidableEq, Repr

def Slot.isUnwritten {ClassId Value : Type*} : Slot ClassId Value → Bool
  | .unwritten => true
  | _ => false

/-- `Z_TYPE_P(p) == IS_INDIRECT` -/
def Slot.isIndirect {ClassId Value : Type*} : Slot ClassId Value → Bool
  | .indirect _ => true
  | _ => false

/-- The tables of static members in the new thread. -/
structure Statics (ClassId Value : Type*) where
  /-- `default_static_members_table` of the classes that are copied. -/
  defaults : ClassId → List (Slot ClassId Value)
  /-- `static_members_table`, none as long as the map pointer is null. -/
  members : ClassId → Option (List (Slot ClassId Value))

/-- What is prepared of a thread: its class table, the functions that it has from its
creator, and the static members. -/
structure Prepared (ClassId Members : Type*) where
  table : List ClassId
  functions : List String
  statics : Members

/-- The classes of the new thread. -/
abbrev State (ClassId Value : Type*) := Prepared ClassId (Statics ClassId Value)

/-- The class that declares a slot: the last one up the chain that still has it. -/
def introducer {ClassId : Type*} (count : ClassId → Nat) (candidate : ClassId) :
    List ClassId → Nat → ClassId
  | [], _ => candidate
  | parent :: rest, slot =>
      if count parent ≤ slot then candidate else introducer count parent rest slot

variable {ClassId Value : Type*}

namespace Creator

variable (creator : Creator ClassId Value)

/-- `default_static_members_count` of the parent, without a parent zero. -/
def inherited (candidate : ClassId) : Nat :=
  ((creator.entry candidate).lineage.head?.map fun parent => (creator.entry parent).count).getD 0

/-- The ancestor of a class, or the class itself, that introduces a slot of it. -/
def introduces (candidate : ClassId) (slot : Nat) : ClassId :=
  introducer (fun other => (creator.entry other).count) candidate
    (creator.entry candidate).lineage slot

/-- The default table of a class that is used in place. -/
def sharedDefaults (candidate : ClassId) : List (Slot ClassId Value) :=
  (creator.entry candidate).defaultStatics.mapIdx fun slot content =>
    if slot < creator.inherited candidate then
      .indirect (creator.introduces candidate slot, slot)
    else .value content

/-- The default table of a class in the new thread. -/
def defaultTable (statics : Statics ClassId Value) (candidate : ClassId) :
    List (Slot ClassId Value) :=
  if (creator.entry candidate).origin = .user then statics.defaults candidate
  else creator.sharedDefaults candidate

end Creator

namespace Statics

variable (statics : Statics ClassId Value)

/-- The slot at an address. -/
def slotAt (address : Address ClassId) : Option (Slot ClassId Value) :=
  (statics.members address.1).bind fun table => table[address.2]?

/-- `ZVAL_DEINDIRECT` on a static member. -/
def deindirect (address : Address ClassId) : Address ClassId :=
  match statics.slotAt address with
  | some (.indirect target) => target
  | _ => address

/-- The table of the class is there, but the slot has not been written. -/
def unwritten (address : Address ClassId) : Bool :=
  match statics.slotAt address with
  | some .unwritten => true
  | _ => false

/-- The slots of the parent that a class with these defaults refers to have been
written. -/
def Readable (defaults : List (Slot ClassId Value)) (lineage : List ClassId) : Prop :=
  ∀ parent ∈ lineage.head?, ∀ slot ∈ List.range defaults.length,
    defaults[slot]?.any Slot.isIndirect = true → statics.unwritten (parent, slot) = false

instance (defaults : List (Slot ClassId Value)) (lineage : List ClassId) :
    Decidable (statics.Readable defaults lineage) := by
  unfold Readable
  infer_instance

variable [DecidableEq ClassId]

/-- `emalloc` for the members of a class. -/
def allocate (candidate : ClassId) (count : Nat) : Statics ClassId Value :=
  { statics with
    members := Function.update statics.members candidate
      (some (List.replicate count .unwritten)) }

/-- A slot is written. -/
def write (address : Address ClassId) (content : Slot ClassId Value) : Statics ClassId Value :=
  { statics with
    members := Function.update statics.members address.1
      ((statics.members address.1).map fun table => table.set address.2 content) }

end Statics

section Operations

variable (creator : Creator ClassId Value)

/-- The loop over the ancestors in `prepare_class_statics`: the ancestor whose default
table a slot below the end of the parent's refers to. -/
def indirection (statics : Statics ClassId Value) (parent : ClassId) :
    List ClassId → Nat → Option ClassId
  | [], _ => if (creator.defaultTable statics parent).isEmpty then none else some parent
  | grandparent :: rest, slot =>
      if (creator.defaultTable statics parent).isEmpty then none
      else if (creator.defaultTable statics grandparent).length ≤ slot then some parent
      else indirection statics grandparent rest slot

/-- A slot of the default table, for a class whose parents are `lineage`. -/
def preparedSlot (creator : ObjectCreator ClassId Value) (statics : Statics ClassId Value)
    (lineage : List ClassId) (slot : Nat) (content : Value) : Slot ClassId Value :=
  match lineage with
  | [] => .value ((creator.copyZval content).getD content)
  | parent :: rest =>
      if (creator.defaultTable statics parent).length ≤ slot then
        .value ((creator.copyZval content).getD content)
      else
        match indirection creator.toCreator statics parent rest slot with
        | some ancestor => .indirect (ancestor, slot)
        | none => .value content

/-- A table of static members made from a default table: an inherited slot refers to
where the parent has it. -/
def memberTable (statics : Statics ClassId Value) (defaults : List (Slot ClassId Value))
    (lineage : List ClassId) : List (Slot ClassId Value) :=
  defaults.mapIdx fun slot content =>
    match content, lineage with
    | .indirect _, parent :: _ => .indirect (statics.deindirect (parent, slot))
    | _, _ => content

/-- What the new thread gets for the value that the creator has in a slot. -/
def ObjectCreator.copiedStatic (creator : ObjectCreator ClassId Value) (current : List Value)
    (slot : Nat) : Value :=
  (current[slot]?.bind creator.copyZval).getD creator.null

variable [DecidableEq ClassId]

/-- `prepare_class_statics`: the default table is built anew in every pass. -/
def prepareClassStatics (creator : ObjectCreator ClassId Value) (candidate : ClassId)
    (statics : Statics ClassId Value) : Statics ClassId Value :=
  let entry := creator.entry candidate
  { statics with
    defaults := Function.update statics.defaults candidate
      (if entry.count ≠ 0 then
        entry.defaultStatics.mapIdx (preparedSlot creator statics entry.lineage)
      else []) }

/-- `zend_class_init_statics` of the engine for a class that is the first of the list
and has the others as its ancestors: the members start with the defaults. -/
def zendClassInitStatics :
    List ClassId → Statics ClassId Value → Option (Statics ClassId Value)
  | [], statics => some statics
  | candidate :: lineage, statics =>
      let defaults := creator.defaultTable statics candidate
      if defaults.isEmpty ∨ (statics.members candidate).isSome then some statics
      else do
        let statics ← zendClassInitStatics lineage statics
        if statics.Readable defaults lineage then
          some { statics with
            members := Function.update statics.members candidate
              (some (memberTable statics defaults lineage)) }
        else none

/-- `zend_update_class_constants` of the engine, before the first object of a class is
created: the static members are set up and their constant expressions evaluated.  The
ancestors come first, but their members are set up with those of the class, and their
constant expressions stand for their values. -/
def updateClassConstants (creator : ObjectCreator ClassId Value) (candidate : ClassId)
    (statics : Statics ClassId Value) : Option (Statics ClassId Value) :=
  -- For an object of the creator's the flags of a copied class are up to date, and the
  -- static members of another one have been set up in the creator.
  let entry := creator.entry candidate
  if entry.origin = .user ∨ entry.origin = .internal ∨ entry.currentStatics.isNone = true ∨
      creator.constantExpressions candidate = false then some statics
  else do
    let statics ← zendClassInitStatics creator.toCreator (candidate :: entry.lineage) statics
    let table := (statics.members candidate).getD []
    if creator.memberExpressions candidate = true ∧ table.any Slot.isUnwritten = true then none
    else some statics

/-- `zend_hash_update_ptr` on the class table. -/
def insertKey (table : List ClassId) (candidate : ClassId) : List ClassId :=
  if candidate ∈ table then table else table ++ [candidate]

end Operations

section Recursion

variable {Members : Type*}

/-- What the recursion through the classes does to the static members. -/
structure Binding (ClassId Members : Type*) where
  /-- `pthreads_prepared_entry_late_bindings`, given how an object is connected. -/
  lateBindings :
    (ClassId → Prepared ClassId Members → Option (Prepared ClassId Members)) →
      ClassId → Prepared ClassId Members → Option (Prepared ClassId Members)
  /-- `object_init_ex` of the engine -/
  objectInit : ClassId → Members → Option Members

variable [DecidableEq ClassId] (creator : ObjectCreator ClassId Value)
variable (binding : Binding ClassId Members)
variable (create :
  ClassId → Bool → Prepared ClassId Members → Option (Prepared ClassId Members))

/-- The objects that copying comes to are connected. -/
def connectEach {ClassId State : Type*} (connect : ClassId → State → Option State)
    (candidates : List ClassId) (state : State) : Option State :=
  candidates.foldlM (fun state candidate => connect candidate state) state

def createEach (doLateBindings : Bool) (candidates : List ClassId)
    (state : Prepared ClassId Members) : Option (Prepared ClassId Members) :=
  candidates.foldlM (fun state candidate => create candidate doLateBindings state) state

/-- `pthreads_globals_object_connect` for an object of a class.  Where the thread has a
connection to the object already, it has prepared the class. -/
def connectObject (candidate : ClassId) (state : Prepared ClassId Members) :
    Option (Prepared ClassId Members) := do
  let state ← create candidate true state
  (binding.objectInit candidate state.statics).map fun statics => { state with statics }

/-- A function is copied, unless the thread has it. -/
def prepareFunction (state : Prepared ClassId Members) (function : UserFunction ClassId) :
    Option (Prepared ClassId Members) :=
  if function.key ∈ state.functions then some state
  else (connectEach (connectObject binding create) function.objects state).map fun state =>
    if function.key ∈ state.functions then state
    else { state with functions := state.functions ++ [function.key] }

/-- `pthreads_prepare_functions` -/
def prepareFunctions (state : Prepared ClassId Members) : Option (Prepared ClassId Members) :=
  creator.functionTable.foldlM (prepareFunction binding create) state

/-- `pthreads_prepare_closures` -/
def prepareClosures (state : Prepared ClassId Members) : Option (Prepared ClassId Members) :=
  (creator.functionTable.filter UserFunction.closure).foldlM (prepareFunction binding create)
    state

def lateBindingsIf (doLateBindings : Bool) (candidate : ClassId)
    (state : Prepared ClassId Members) : Option (Prepared ClassId Members) :=
  if doLateBindings then binding.lateBindings (connectObject binding create) candidate state
  else some state

/-- An immutable class is inserted before its dependencies. -/
def insertImmutable (candidate : ClassId) (doLateBindings : Bool)
    (state : Prepared ClassId Members) : Option (Prepared ClassId Members) := do
  let inserted := { state with table := insertKey state.table candidate }
  let state ← createEach create doLateBindings (creator.entry candidate).dependencies inserted
  lateBindingsIf binding create doLateBindings candidate state

/-- A copy is inserted.  If the class has been copied for an object on the way, that copy
is destroyed, although the object is of this class. -/
def enterCopy (candidate : ClassId) (doLateBindings : Bool) (state : Prepared ClassId Members) :
    Option (Prepared ClassId Members) :=
  if candidate ∈ state.table then none
  else do
    let state ← lateBindingsIf binding create doLateBindings candidate
      { state with table := insertKey state.table candidate }
    prepareClosures creator binding create state

/-- `pthreads_copy_entry` and what follows it.  The parent and the interfaces, which are
always bound at once, come first, then the methods. -/
def insertCopy (candidate : ClassId) (doLateBindings : Bool) (state : Prepared ClassId Members) :
    Option (Prepared ClassId Members) := do
  let state ← createEach create true (creator.entry candidate).required state
  let state ← connectEach (connectObject binding create) (creator.methodObjects candidate) state
  enterCopy creator binding create candidate doLateBindings state

/-- The body of `pthreads_create_entry`. -/
def createEntryBody (candidate : ClassId) (doLateBindings : Bool)
    (state : Prepared ClassId Members) : Option (Prepared ClassId Members) :=
  match (creator.entry candidate).origin with
  | .internal => some state
  | .preloaded => some state
  | .immutable =>
      if candidate ∈ state.table then some state
      else insertImmutable creator binding create candidate doLateBindings state
  | .user =>
      if candidate ∈ state.table then some state
      else insertCopy creator binding create candidate doLateBindings state

/-- `pthreads_create_entry` with a bound for the depth of the recursion. -/
def createEntry :
    Nat → ClassId → Bool → Prepared ClassId Members → Option (Prepared ClassId Members)
  | 0 => fun _ _ _ => none
  | fuel + 1 => createEntryBody creator binding (createEntry fuel)

/-- `pthreads_context_late_bindings`.  The loop stays with the memory that the class table
has at the start, also when the table has been moved to a larger one. -/
def contextLateBindings (state : Prepared ClassId Members) : Option (Prepared ClassId Members) :=
  state.table.foldlM (fun later candidate =>
    if creator.tableSize later.table.length ≠ creator.tableSize state.table.length then none
    else if (creator.entry candidate).origin = .internal then some later
    else binding.lateBindings (connectObject binding create) candidate later) state

/-- The loop of `pthreads_prepare_classes`. -/
def createEntries (state : Prepared ClassId Members) : Option (Prepared ClassId Members) :=
  creator.classTable.foldlM (fun state candidate =>
    if candidate ∉ state.table ∧ (creator.entry candidate).unnamed = false then
      create candidate false state
    else some state) state

/-- `PTHREADS_INHERIT_CONSTANTS` -/
def inheritConstants : Nat := 0x00000010

/-- `PTHREADS_INHERIT_FUNCTIONS` -/
def inheritFunctions : Nat := 0x00000100

/-- `PTHREADS_INHERIT_CLASSES` -/
def inheritClasses : Nat := 0x00001000

/-- `pthreads_prepare_constants`, as far as it connects objects. -/
def startupConstants (threadOptions : Nat) (state : Prepared ClassId Members) :
    Option (Prepared ClassId Members) :=
  if threadOptions &&& inheritConstants ≠ 0 then
    connectEach (connectObject binding create) creator.constantObjects state
  else some state

/-- Closures are inherited in any case. -/
def startupFunctions (threadOptions : Nat) (state : Prepared ClassId Members) :
    Option (Prepared ClassId Members) :=
  if threadOptions &&& inheritFunctions ≠ 0 then prepareFunctions creator binding create state
  else prepareClosures creator binding create state

/-- Without `PTHREADS_INHERIT_CLASSES` only the class of the thread is prepared. -/
def startupClasses (threadOptions : Nat) (threadClass : ClassId)
    (state : Prepared ClassId Members) : Option (Prepared ClassId Members) :=
  if threadOptions &&& inheritClasses ≠ 0 then createEntries creator create state
  else create threadClass false state

/-- `pthreads_prepared_startup`, as far as classes are prepared. -/
def startup (threadOptions : Nat) (threadClass : ClassId) (state : Prepared ClassId Members) :
    Option (Prepared ClassId Members) := do
  let state ← startupConstants creator binding create threadOptions state
  let state ← startupFunctions creator binding create threadOptions state
  let state ← startupClasses creator create threadOptions threadClass state
  contextLateBindings creator binding create state

end Recursion

section Startup

variable [DecidableEq ClassId] (creator : ObjectCreator ClassId Value)

/-- The objects that the value of a slot has in the creator. -/
def ObjectCreator.objectsAt (current : List Value) (slot : Nat) : List ClassId :=
  (current[slot]?.map creator.objects).getD []

/-- A slot in `init_class_statics`. -/
def initSlot (connect : ClassId → State ClassId Value → Option (State ClassId Value))
    (candidate : ClassId) (defaults : List (Slot ClassId Value)) (current : List Value)
    (slot : Nat) (state : State ClassId Value) : Option (State ClassId Value) :=
  match defaults[slot]?, (creator.entry candidate).lineage with
  | some (.indirect _), parent :: _ =>
      if state.statics.unwritten (parent, slot) then none
      else some { state with
        statics := state.statics.write (candidate, slot)
          (.indirect (state.statics.deindirect (parent, slot))) }
  | _, _ => (connectEach connect (creator.objectsAt current slot) state).map fun state =>
      { state with
        statics := state.statics.write (candidate, slot)
          (.value (creator.copiedStatic current slot)) }

/-- The loop in `init_class_statics`, with the last slot first. -/
def initSlots (connect : ClassId → State ClassId Value → Option (State ClassId Value))
    (candidate : ClassId) (current : List Value) (state : State ClassId Value) :
    Option (State ClassId Value) :=
  let defaults := creator.defaultTable state.statics candidate
  PartialFolds.countDown (initSlot creator connect candidate defaults current)
    defaults.length { state with statics := state.statics.allocate candidate defaults.length }

/-- `init_class_statics`: the members are set up once, from those of the creator. -/
def initClassStatics
    (connect : ClassId → State ClassId Value → Option (State ClassId Value))
    (candidate : ClassId) (state : State ClassId Value) : Option (State ClassId Value) :=
  match (creator.entry candidate).currentStatics, state.statics.members candidate with
  | some current, none => do
      let statics ← zendClassInitStatics creator.toCreator (creator.entry candidate).lineage
        state.statics
      initSlots creator connect candidate current { state with statics }
  | _, _ => some state

/-- The default table is built anew, unless the class is immutable. -/
def bindDefaults (candidate : ClassId) (statics : Statics ClassId Value) :
    Statics ClassId Value :=
  if (creator.entry candidate).origin = .user then
    prepareClassStatics creator candidate statics
  else statics

/-- `pthreads_prepared_entry_late_bindings` -/
def lateBindings (connect : ClassId → State ClassId Value → Option (State ClassId Value))
    (candidate : ClassId) (state : State ClassId Value) : Option (State ClassId Value) :=
  initClassStatics creator connect candidate
    { state with statics := bindDefaults creator candidate state.statics }

/-- The static members of the new thread. -/
def threadBinding : Binding ClassId (Statics ClassId Value) where
  lateBindings := lateBindings creator
  objectInit := updateClassConstants creator

/-- The class table when the request has started: the classes of the engine and those
that opcache has preloaded. -/
def resident (creator : Creator ClassId Value) : List ClassId :=
  creator.classTable.filter fun candidate =>
    (creator.entry candidate).origin = .internal ∨ (creator.entry candidate).origin = .preloaded

def requestStartup : State ClassId Value where
  table := resident creator.toCreator
  functions := []
  statics := { defaults := fun _ => [], members := fun _ => none }

/-- `pthreads_prepared_startup` with a bound for the depth of the recursion. -/
def preparedStartup (fuel threadOptions : Nat) (threadClass : ClassId) :
    Option (State ClassId Value) :=
  startup creator (threadBinding creator)
    (createEntry creator (threadBinding creator) fuel) threadOptions threadClass
    (requestStartup creator)

end Startup

/-- The storage that an address leads to along the indirections. -/
inductive Resolves (statics : Statics ClassId Value) :
    Address ClassId → Address ClassId → Prop
  | storage {address : Address ClassId} {content : Value}
      (stored : statics.slotAt address = some (.value content)) :
      Resolves statics address address
  | indirection {address target storage : Address ClassId}
      (refers : statics.slotAt address = some (.indirect target))
      (resolved : Resolves statics target storage) :
      Resolves statics address storage

/-- Every slot of a prepared class that is initialised in the creator shares its storage
with the ancestor that introduces it, and holds a copy of what the creator has there. -/
def InheritedStatics (creator : ObjectCreator ClassId Value) (state : State ClassId Value) :
    Prop :=
  ∀ candidate ∈ state.table, (creator.entry candidate).origin ≠ .internal →
    ∀ current, (creator.entry candidate).currentStatics = some current →
      ∀ slot < (creator.entry candidate).count,
        ∃ storage, Resolves state.statics (candidate, slot) storage ∧
          Resolves state.statics (creator.introduces candidate slot, slot) storage ∧
          state.statics.slotAt storage =
            some (.value (creator.copiedStatic current slot))

end Pthreads.ClassPreparation
