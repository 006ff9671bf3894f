import Pthreads.CopyFaithfulness
import Pthreads.EntryCreation
import Pthreads.RecordedEffects

/-!
# What is copied when a class entry is created

`pthreads_create_entry` copies the attributes, the methods, the default values, the
constants and the static members of the classes that it brings into the thread.  Here
the recursion of the last file is run together with that copying, which is left open.
Apart from the copying it does what it did there, and what it copies can be recorded
first.  Connecting a Threaded object among the values, which may need classes itself, is
not part of the copying.
-/

namespace Pthreads.EntryCopying

open ClassPreparation (Origin)
open EntryCreation (ClassEntry Creator Prepared Table)
open RecordedEffects
open ValueCopies (Slot Constant Attribute Memo Heap Receiver)

/-- A constant of a class, or a case of an enum with the value that backs it. -/
structure ClassConstant (ClassId Address : Type) where
  value : Option (Slot Address)
  attributes : List (Attribute (Constant Address))
  /-- The class that declares the constant. -/
  ce : ClassId

/-- What of a class of the creator is copied. -/
structure Contents (ClassId Name Address : Type) where
  attributes : List (Attribute (Constant Address))
  backedEnumTable : List (Slot Address)
  functionTable : List (Name × Address)
  /-- The class that declares each property, and the attributes of the property. -/
  propertiesInfo : List (ClassId × List (Attribute (Constant Address)))
  /-- Those that are counted. -/
  defaultProperties : List (Slot Address)
  /-- The class's own ones, not those that it inherits. -/
  defaultStaticMembers : List (Slot Address)
  constantsTable : List (Name × ClassConstant ClassId Address)
  /-- `default_static_members_count` is not zero. -/
  hasStatics : Bool
  /-- The class's own values in `static_members_table`, if it has been initialised. -/
  staticMembers : Option (List (Slot Address))

/-- The classes of the creator with what is in them, and the closures in its function
table. -/
structure Source (ClassId Key Name Address : Type) extends Creator ClassId Key Name where
  contents : ClassId → Contents ClassId Name Address
  closures : List (Name × Address)
  properties_eq : ∀ candidate, (entry candidate).propertiesInfo =
    (contents candidate).propertiesInfo.map Prod.fst
  constants_eq : ∀ candidate, (entry candidate).constantsTable =
    (contents candidate).constantsTable.map fun constant => (constant.1, constant.2.ce)

/-- Something to copy.  A constant that cannot be copied is a fatal error. -/
inductive Effect (Address : Type)
  | value (slot : Slot Address)
  | constant (slot : Slot Address)
  | function (address : Address)
  | attr (content : Attribute (Constant Address))

/-- The classes of the thread while one is created, and what copying keeps tables of. -/
structure Creating (Key Name Tables : Type) where
  table : Table Key Name
  /-- The names in the function table of each class. -/
  methods : Key → List Name
  /-- `CE_STATIC_MEMBERS` is not null. -/
  started : Key → Bool
  /-- The names of closures in the function table of the thread. -/
  closures : List Name
  tables : Tables

instance {Key Name : Type} : Holding (Creating Key Name) where
  held state := state.tables
  replace state tables := ⟨state.table, state.methods, state.started, state.closures, tables⟩
  held_replace _ _ := rfl
  replace_replace _ _ _ := rfl

section Operations

variable {ClassId Key Name Address Tables : Type} [DecidableEq ClassId] [DecidableEq Key]
  [DecidableEq Name]
variable (source : Source ClassId Key Name Address)
variable (copy : Tables → Effect Address → Option Tables)

/-- One thing is copied. -/
def perform (state : Creating Key Name Tables) (effect : Effect Address) :
    Option (Creating Key Name Tables) :=
  (copy (held state) effect).map (replace state)

def performEach (effects : List (Effect Address)) (state : Creating Key Name Tables) :
    Option (Creating Key Name Tables) :=
  effects.foldlM (perform copy) state

variable (call : ClassId × Bool → Creating Key Name Tables → Option (Creating Key Name Tables))

/-- A loop of calls. -/
def callEach (late : Bool) (candidates : List ClassId) (state : Creating Key Name Tables) :
    Option (Creating Key Name Tables) :=
  candidates.foldlM (fun state candidate => call (candidate, late) state) state

/-- One method, unless the class has one of this name. -/
def prepareMethod (current : Creating Key Name Tables × List Name) (method : Name × Address) :
    Option (Creating Key Name Tables × List Name) :=
  if method.1 ∈ current.2 then some current
  else (perform copy current.1 (.function method.2)).map fun state =>
    (state, current.2 ++ [method.1])

/-- `prepare_class_function_table` -/
def prepareClassFunctionTable (candidate : ClassId) (known : List Name)
    (state : Creating Key Name Tables) : Option (Creating Key Name Tables) :=
  ((source.contents candidate).functionTable.foldlM (prepareMethod copy) (state, known)).map
    fun done => { done.1 with
      methods := Function.update done.1.methods (source.name candidate) done.2 }

/-- `pthreads_complete_entry` -/
def completeEntry (candidate : ClassId)
    (store : Prepared Key Name → Creating Key Name Tables → Creating Key Name Tables)
    (prepared : Prepared Key Name) (known : List Name) (state : Creating Key Name Tables) :
    Option (Creating Key Name Tables × Prepared Key Name) :=
  let entry := source.entry candidate
  let flagged := source.flag candidate prepared
  if entry.linked then do
    let state ← callEach call true entry.parent.toList (store flagged state)
    let withParent := source.enterParent candidate flagged
    let state ← callEach call true entry.interfaces (store withParent state)
    let linked := source.enterInterfaces candidate withParent
    let state ← prepareClassFunctionTable source copy candidate known (store linked state)
    some (state, linked)
  else
    (prepareClassFunctionTable source copy candidate known (store flagged state)).map
      fun state => (state, flagged)

/-- `prepare_class_constants`.  A case of an enum is declared by the enum itself, which
the thread has by then. -/
def prepareClassConstants (key : Key) :
    List (Name × ClassConstant ClassId Address) → Prepared Key Name →
      Creating Key Name Tables → Option (Creating Key Name Tables)
  | [], _, state => some state
  | (name, constant) :: others, prepared, state =>
    if name ∈ prepared.constantsTable then prepareClassConstants key others prepared state
    else do
      let state ← performEach copy (constant.value.toList.map .constant) state
      let state ← call (constant.ce, true) state
      let added := { prepared with constantsTable := prepared.constantsTable ++ [name] }
      let state ← performEach copy (constant.attributes.map .attr)
        { state with table := state.table.update key added }
      prepareClassConstants key others added state

/-- One property in `prepare_class_property_table`. -/
def prepareProperty (candidate : ClassId) (state : Creating Key Name Tables)
    (info : ClassId × List (Attribute (Constant Address))) :
    Option (Creating Key Name Tables) := do
  let state ← if info.1 ≠ candidate then call (info.1, true) state else some state
  performEach copy (info.2.map .attr) state

/-- `prepare_class_property_table` -/
def prepareClassPropertyTable (candidate : ClassId) (state : Creating Key Name Tables) :
    Option (Creating Key Name Tables) := do
  let state ← (source.contents candidate).propertiesInfo.foldlM
    (prepareProperty copy call candidate) state
  performEach copy ((source.contents candidate).defaultProperties.map .value) state

/-- `prepare_class_statics`, which goes through the table backwards. -/
def prepareClassStatics (candidate : ClassId) (state : Creating Key Name Tables) :
    Option (Creating Key Name Tables) :=
  performEach copy ((source.contents candidate).defaultStaticMembers.reverse.map .value) state

/-- `zend_class_init_statics`, which starts with the parent.  The classes above have lower
rank. -/
def zendClassInitStatics : Nat → Option ClassId → (Key → Bool) → Key → Bool
  | rank + 1, some candidate, started =>
    if (source.contents candidate).hasStatics && !started (source.name candidate) then
      Function.update (zendClassInitStatics rank (source.entry candidate).parent started)
        (source.name candidate) true
    else started
  | _, _, started => started

/-- `init_class_statics`, which goes through the table backwards. -/
def initClassStatics (candidate : ClassId) (state : Creating Key Name Tables) :
    Option (Creating Key Name Tables) :=
  let entry := source.entry candidate
  let contents := source.contents candidate
  match contents.staticMembers with
  | none => some state
  | some members =>
    if contents.hasStatics && entry.linked && !state.started (source.name candidate) then
      let above := zendClassInitStatics source (source.rank candidate) entry.parent state.started
      performEach copy (members.reverse.map .value)
        { state with started := Function.update above (source.name candidate) true }
    else some state

/-- `pthreads_prepared_entry_late_bindings` -/
def lateBindings (candidate : ClassId) (prepared : Prepared Key Name)
    (state : Creating Key Name Tables) : Option (Creating Key Name Tables) := do
  let entry := source.entry candidate
  if entry.origin = .immutable then initClassStatics source copy candidate state
  else
    let state ← prepareClassPropertyTable source copy call candidate state
    let state ← prepareClassStatics source copy candidate state
    let state ← prepareClassConstants copy call entry.name
      (source.contents candidate).constantsTable prepared state
    initClassStatics source copy candidate state

/-- `pthreads_prepare_immutable_class_dependencies` -/
def prepareImmutableClassDependencies (candidate : ClassId) (late : Bool)
    (state : Creating Key Name Tables) : Option (Creating Key Name Tables) := do
  let entry := source.entry candidate
  let state ← callEach call late entry.required state
  callEach call late (entry.propertyTypes.filterMap source.classTable) state

/-- An immutable class is used in place. -/
def insertImmutable (candidate : ClassId) (late : Bool) (state : Creating Key Name Tables) :
    Option (Creating Key Name Tables) := do
  let inserted := { state with
    table := state.table.update (source.name candidate) (source.inPlace candidate) }
  let state ← prepareImmutableClassDependencies source call candidate late inserted
  if late then lateBindings source copy call candidate (source.inPlace candidate) state
  else some state

/-- One closure of the creator, unless the thread has one of this name. -/
def prepareClosure (state : Creating Key Name Tables) (closure : Name × Address) :
    Option (Creating Key Name Tables) :=
  if closure.1 ∈ state.closures then some state
  else (perform copy state (.function closure.2)).map fun state =>
    { state with closures := state.closures ++ [closure.1] }

/-- `pthreads_prepare_closures` -/
def prepareClosures (state : Creating Key Name Tables) : Option (Creating Key Name Tables) :=
  source.closures.foldlM (prepareClosure copy) state

/-- `pthreads_copy_entry` and what follows it.  At last come the closures of the creator
and the scopes of the methods. -/
def insertCopy (candidate : ClassId) (late : Bool) (state : Creating Key Name Tables) :
    Option (Creating Key Name Tables) := do
  let entry := source.entry candidate
  let contents := source.contents candidate
  let state ← performEach copy (contents.attributes.map .attr) state
  let state ← performEach copy (contents.backedEnumTable.map .value) state
  let (state, prepared) ← completeEntry source copy call candidate (fun _ state => state)
    ⟨entry.anonymous, entry.linked, false, none, [], []⟩ [] state
  let inserted := { state with
    table := state.table.update entry.name prepared
    started := Function.update state.started entry.name false }
  let state ← if late then lateBindings source copy call candidate prepared inserted
    else some inserted
  let state ← prepareClosures source copy state
  callEach call true (entry.functionTable.filter (· ≠ candidate)) state

/-- What `pthreads_create_entry` does for a class that the thread does not have. -/
def insertEntry (candidate : ClassId) (late : Bool) (state : Creating Key Name Tables) :
    Option (Creating Key Name Tables) :=
  if (source.entry candidate).origin = .immutable then
    insertImmutable source copy call candidate late state
  else insertCopy source copy call candidate late state

/-- The body of `pthreads_create_entry`. -/
def createEntryBody (task : ClassId × Bool) (state : Creating Key Name Tables) :
    Option (Creating Key Name Tables) :=
  let candidate := task.1
  let entry := source.entry candidate
  if entry.origin = .internal ∨ entry.origin = .preloaded then some state
  else
    match state.table.find entry.name with
    | none => insertEntry source copy call candidate task.2 state
    | some prepared =>
      if prepared.unbound && entry.bound then
        if prepared.immutable then insertEntry source copy call candidate task.2 state
        else do
          let (state, completed) ← completeEntry source copy call candidate
            (fun prepared state => { state with table := state.table.update entry.name prepared })
            prepared (state.methods entry.name) state
          if task.2 then lateBindings source copy call candidate completed state else some state
      else some state

/-- `pthreads_create_entry` with a bound for the depth of the recursion. -/
def createEntry : Nat → ClassId × Bool → Creating Key Name Tables →
    Option (Creating Key Name Tables)
  | 0 => fun _ _ => none
  | fuel + 1 => createEntryBody source copy (createEntry fuel)

end Operations

section Copying

variable {Address : Type} [DecidableEq Address] (heap : Heap Address) (receiver : Receiver)

/-- The copying of `src/copy.c`, with a bound for the depth of its recursion. -/
def copyEffect (depth : Nat) (memo : Memo Address) : Effect Address → Option (Memo Address)
  | .value slot =>
    (ValueCopies.copyZval receiver (ValueCopies.copy heap receiver depth) memo slot).map
      fun done => done.1
  | .constant slot =>
    (ValueCopies.copyZval receiver (ValueCopies.copy heap receiver depth) memo slot).bind
      fun done => done.2.map fun _ => done.1
  | .function address =>
    (ValueCopies.copy heap receiver depth memo (.function address)).map fun done => done.1
  | .attr content =>
    (ValueCopies.copyAttribute receiver (ValueCopies.copy heap receiver depth) memo content).map
      fun done => done.1

end Copying

end Pthreads.EntryCopying
