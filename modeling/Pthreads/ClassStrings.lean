import Pthreads.CopyIsolation
import Pthreads.GuardedRuns
import Pthreads.PartialFolds

/-!
# The strings of prepared classes

A class that is not immutable is copied with all its names, keys, comments and values,
as in `src/prepare.c` for PHP 8.1 and later.  This file models what
`pthreads_copy_entry`, `pthreads_complete_entry` and the late bindings put where, for
the strings that can be reached from a class entry.  The classes that it refers to are
prepared by the same steps, in between.  Types have no nested lists.
-/

namespace Pthreads.ClassStrings

open ValueCopies

/-- A `zend_class_name`. -/
structure ClassName where
  name : ZString
  lcName : ZString

/-- A `zend_trait_method_reference`. -/
structure MethodReference where
  methodName : Option ZString
  className : Option ZString

structure TraitAlias where
  traitMethod : MethodReference
  aliasName : Option ZString
  modifiers : Nat

structure TraitPrecedence where
  traitMethod : MethodReference
  excludeClassNames : List ZString

structure PropertyInfo (Content : Type) where
  name : ZString
  docComment : Option ZString
  type : ZendType
  attributes : List (Attribute Content)

/-- The backing value of an enum case. -/
inductive Backing
  | long (value : Int)
  | string (text : ZString)
deriving DecidableEq, Repr

/-- The value of a class constant of the source.  An enum case that has been resolved is
an object. -/
inductive ConstantValue (Address : Type)
  | plain (value : Slot Address)
  | resolvedCase (backing : Option Backing)

structure ClassConstant (Value Content : Type) where
  value : Value
  docComment : Option ZString
  attributes : List (Attribute Content)

/-- What two keys have in common that a hash table takes as the same. -/
def keyContent : Key → Int ⊕ Bytes
  | .index value => .inl value
  | .name text => .inr text.bytes

def Backing.content : Backing → Int ⊕ Bytes
  | .long value => .inl value
  | .string text => .inr text.bytes

/-- A `zend_class_entry` of the source thread. -/
structure ClassSource (Address : Type) where
  name : ZString
  /-- `ZEND_ACC_LINKED` -/
  linked : Bool
  filename : Option ZString
  docComment : Option ZString
  attributes : List (Attribute (Constant Address))
  /-- The names of the cases by their backing values. -/
  backedEnumTable : Option (List (Key × ZString))
  /-- `parent_name` and `interface_names` when the class is not linked. -/
  parentName : Option ZString
  interfaceNames : List ClassName
  traitNames : List ClassName
  traitAliases : List TraitAlias
  traitPrecedences : List TraitPrecedence
  functionTable : List (ZString × Address)
  propertiesInfo : List (ZString × PropertyInfo (Constant Address))
  defaultProperties : List (Slot Address)
  /-- The part of `default_static_members_table` that the parent does not have. -/
  defaultStatics : List (Constant Address)
  /-- The same part of `static_members_table`. -/
  staticMembers : Option (List (Slot Address))
  constants : List (ZString × ClassConstant (ConstantValue Address) (Constant Address))
  distinct : (constants.map fun bucket => bucket.1.bytes).Nodup

/-- A `zend_class_entry` of the receiving thread. -/
structure PreparedClass (Address : Type) where
  name : ZString
  filename : Option ZString
  docComment : Option ZString
  attributes : List (Attribute (Copied Address))
  backedEnumTable : Option (List (Key × ZString))
  parentName : Option ZString
  interfaceNames : List ClassName
  traitNames : List ClassName
  traitAliases : List TraitAlias
  traitPrecedences : List TraitPrecedence
  functionTable : List (ZString × Copied Address)
  propertiesInfo : List (ZString × PropertyInfo (Copied Address))
  defaultProperties : List (Copied Address)
  defaultStatics : List (Copied Address)
  staticMembers : Option (List (Copied Address))
  constants : List (ZString × ClassConstant (Copied Address) (Copied Address))

section Preparation

variable {Address : Type} (receiver : Receiver)

def copyClassName (name : ClassName) : ClassName :=
  ⟨copyString receiver name.name, copyString receiver name.lcName⟩

/-- `pthreads_preparation_copy_trait_method_reference` -/
def copyMethodReference (reference : MethodReference) : MethodReference :=
  ⟨reference.methodName.map (copyString receiver), reference.className.map (copyString receiver)⟩

/-- `pthreads_preparation_copy_trait_alias` -/
def copyTraitAlias (original : TraitAlias) : TraitAlias where
  traitMethod := copyMethodReference receiver original.traitMethod
  aliasName := original.aliasName.map (copyString receiver)
  modifiers := original.modifiers

/-- `pthreads_preparation_copy_trait_precedence` -/
def copyTraitPrecedence (original : TraitPrecedence) : TraitPrecedence where
  traitMethod := copyMethodReference receiver original.traitMethod
  excludeClassNames := original.excludeClassNames.map (copyString receiver)

/-- `prepare_backed_enum_table` inserts under `key`, not under `new_key`. -/
def prepareBackedEnumTable (table : List (Key × ZString)) : List (Key × ZString) :=
  table.map fun bucket => (bucket.1, copyString receiver bucket.2)

/-- `Z_REFCOUNTED` -/
def refcounted : Slot Address → Bool
  | .constant (.string text) =>
      match text.residence with
      | .counted _ => true
      | _ => false
  | .constant (.array _ counted) => counted
  | .constant (.ast _ counted) => counted
  | .constant (.scalar _) => false
  | .undef => false
  | .indirect _ => false
  | _ => true

/-- `zval_make_interned_string`, for a string that is not interned. -/
def internString (text : ZString) : ZString :=
  match text.residence with
  | .counted _ => receiver.intern text.bytes
  | _ => text

/-- The copied backing value as `zend_enum_add_case` takes it. -/
def copyBacking : Backing → Backing
  | .long value => .long value
  | .string text => .string (internString receiver (copyString receiver text))

def Backing.key : Backing → Key
  | .long value => .index value
  | .string text => .name text

def Backing.copied : Backing → Copied Address
  | .long value => .scalar (.long value)
  | .string text => .string text

/-- `ZEND_AST_CONST_ENUM_INIT` -/
def constEnumInit : Nat := 778

/-- `create_enum_case_ast` of the engine. -/
def createEnumCaseAst (className caseName : ZString) (backing : Option Backing) : Copied Address :=
  .ast (.astTree constEnumInit 0
    [some (.astZval 0 (some (.string className))), some (.astZval 0 (some (.string caseName))),
      backing.map fun backing => .astZval 0 (some backing.copied)])

/-- The table of the cases when `zend_enum_add_case` has replaced one of them. -/
def replaceCase (caseName : ZString) (backing : Backing) (table : List (Key × ZString)) :
    List (Key × ZString) :=
  (table.filter fun bucket => keyContent bucket.1 ≠ backing.content) ++ [(backing.key, caseName)]

/-- The table of the cases when a constant has been prepared. -/
def caseTable (name : ZString) (value : ConstantValue Address)
    (table : Option (List (Key × ZString))) : Option (List (Key × ZString)) :=
  match value with
  | .resolvedCase (some backing) => table.map (replaceCase name (copyBacking receiver backing))
  | _ => table

variable (comments : Bool)
variable (call : Memo Address → (task : ValueCopies.Task Address) →
  Option (Memo Address × task.Result))

/-- `pthreads_copy_entry` up to its call of `pthreads_complete_entry`.  The comment is
copied with `PTHREADS_INHERIT_COMMENTS`. -/
def copyEntry (memo : Memo Address) (candidate : ClassSource Address) :
    Option (Memo Address × PreparedClass Address) :=
  (copyAttributes receiver call memo candidate.attributes).map fun done =>
    let named := candidate.filename.map (copyFilename receiver done.1)
    ((named.map Prod.fst).getD done.1,
      { name := copyString receiver candidate.name
        filename := named.map Prod.snd
        docComment := if comments then candidate.docComment.map (copyString receiver) else none
        attributes := done.2
        backedEnumTable := candidate.backedEnumTable.map (prepareBackedEnumTable receiver)
        parentName := none
        interfaceNames := []
        traitNames := []
        traitAliases := []
        traitPrecedences := []
        functionTable := []
        propertiesInfo := []
        defaultProperties := []
        defaultStatics := []
        staticMembers := none
        constants := [] })

/-- One method in `prepare_class_function_table`. -/
def prepareFunction (state : Memo Address × List (ZString × Copied Address))
    (method : ZString × Address) : Option (Memo Address × List (ZString × Copied Address)) :=
  if state.2.any fun bucket => bucket.1.bytes = method.1.bytes then some state
  else
    (call state.1 (.function method.2)).map fun (done : Memo Address × Copied Address) =>
      (done.1, state.2 ++ [(copyString receiver method.1, done.2)])

/-- `pthreads_complete_entry`.  A linked class has pointers to its parent and its
interfaces in the place of their names. -/
def completeEntry (memo : Memo Address) (candidate : ClassSource Address)
    (prepared : PreparedClass Address) : Option (Memo Address × PreparedClass Address) :=
  (candidate.functionTable.foldlM (prepareFunction receiver call)
    (memo, prepared.functionTable)).map fun done =>
      (done.1,
        { prepared with
          parentName :=
            if candidate.linked then none else candidate.parentName.map (copyString receiver)
          interfaceNames :=
            if candidate.linked then [] else candidate.interfaceNames.map (copyClassName receiver)
          traitNames := candidate.traitNames.map (copyClassName receiver)
          traitAliases := candidate.traitAliases.map (copyTraitAlias receiver)
          traitPrecedences := candidate.traitPrecedences.map (copyTraitPrecedence receiver)
          functionTable := done.2 })

/-- One property in `prepare_class_property_table`; `zend_hash_str_add_ptr` makes a new
key. -/
def prepareProperty (state : Memo Address × List (ZString × PropertyInfo (Copied Address)))
    (property : ZString × PropertyInfo (Constant Address)) :
    Option (Memo Address × List (ZString × PropertyInfo (Copied Address))) :=
  (copyAttributes receiver call state.1 property.2.attributes).map fun done =>
    (done.1,
      if state.2.any fun bucket => bucket.1.bytes = property.1.bytes then state.2
      else state.2 ++
        [(⟨property.1.bytes, .counted receiver.thread⟩,
          { name := copyString receiver property.2.name
            docComment :=
              if comments then property.2.docComment.map (copyString receiver) else none
            type := copyZendType receiver property.2.type
            attributes := done.2 })])

/-- One value in `default_properties_table`, which was filled by `memcpy`. -/
def prepareDefault (memo : Memo Address) (slot : Slot Address) :
    Option (Memo Address × Copied Address) :=
  if refcounted slot then copyLiteral receiver call memo slot
  else some (memo, .slotInPlace slot)

/-- The value of a constant of the receiving thread.  A value that cannot be copied is an
error from which there is no return. -/
def copyConstantValue (memo : Memo Address) (className name : ZString) :
    ConstantValue Address → Option (Memo Address × Copied Address)
  | .plain slot =>
      (copyZval receiver call memo slot).bind fun done =>
        done.2.map fun copied => (done.1, copied)
  | .resolvedCase backing =>
      some (memo, createEnumCaseAst className name (backing.map (copyBacking receiver)))

/-- One constant in `prepare_class_constants`. -/
def prepareConstant (state : Memo Address × PreparedClass Address)
    (constant : ZString × ClassConstant (ConstantValue Address) (Constant Address)) :
    Option (Memo Address × PreparedClass Address) :=
  let name := copyString receiver constant.1
  if state.2.constants.any fun bucket => bucket.1.bytes = constant.1.bytes then some state
  else
    (copyConstantValue receiver call state.1 state.2.name name constant.2.value).bind fun done =>
      (copyAttributes receiver call done.1 constant.2.attributes).map fun attributes =>
        (attributes.1,
          { state.2 with
            backedEnumTable := caseTable receiver name constant.2.value state.2.backedEnumTable
            constants := state.2.constants ++
              [(name,
                { value := done.2
                  docComment := constant.2.docComment.map (copyString receiver)
                  attributes := attributes.2 })] })

/-- `init_class_statics`, in the order of the source. -/
def initClassStatics (memo : Memo Address) (candidate : ClassSource Address)
    (prepared : PreparedClass Address) : Option (Memo Address × PreparedClass Address) :=
  match candidate.staticMembers, prepared.staticMembers with
  | some members, none =>
      (RecursiveCalls.traverse (copyLiteral receiver call) memo members.reverse).map fun done =>
        (done.1, { prepared with staticMembers := some done.2.reverse })
  | _, _ => some (memo, prepared)

/-- `pthreads_prepared_entry_late_bindings`: the properties, the static members, the
constants. -/
def lateBindings (memo : Memo Address) (candidate : ClassSource Address)
    (prepared : PreparedClass Address) : Option (Memo Address × PreparedClass Address) :=
  (candidate.propertiesInfo.foldlM (prepareProperty receiver comments call)
    (memo, prepared.propertiesInfo)).bind fun properties =>
  (RecursiveCalls.traverse (prepareDefault receiver call) properties.1
    candidate.defaultProperties).bind fun defaults =>
  (RecursiveCalls.traverse (copyConstant receiver call) defaults.1
    candidate.defaultStatics.reverse).bind fun statics =>
  (candidate.constants.foldlM (prepareConstant receiver call)
    (statics.1,
      { prepared with
        propertiesInfo := properties.2
        defaultProperties := defaults.2
        defaultStatics := statics.2.reverse })).bind fun constants =>
  initClassStatics receiver call constants.1 candidate constants.2

end Preparation

section Strings

variable {Address : Type}

def ClassName.strings (name : ClassName) : List ZString :=
  [name.name, name.lcName]

def MethodReference.strings (reference : MethodReference) : List ZString :=
  reference.methodName.toList ++ reference.className.toList

def TraitAlias.strings (original : TraitAlias) : List ZString :=
  original.traitMethod.strings ++ original.aliasName.toList

def TraitPrecedence.strings (original : TraitPrecedence) : List ZString :=
  original.traitMethod.strings ++ original.excludeClassNames

/-- The strings of a property besides those of its attributes. -/
def PropertyInfo.strings {Content : Type} (info : PropertyInfo Content) : List ZString :=
  info.name :: (info.docComment.toList ++ info.type.names)

namespace PreparedClass

variable (prepared : PreparedClass Address)

/-- The attributes of the class, of its properties and of its constants. -/
def allAttributes : List (Attribute (Copied Address)) :=
  prepared.attributes ++ (prepared.propertiesInfo.flatMap fun bucket => bucket.2.attributes) ++
    prepared.constants.flatMap fun bucket => bucket.2.attributes

/-- The cases of an enum by their backing values. -/
def backedCases : List (Key × ZString) :=
  prepared.backedEnumTable.getD []

/-- The strings of a class entry and the keys of its tables. -/
def strings : List ZString :=
  prepared.name :: (prepared.filename.toList ++ prepared.docComment.toList ++
    prepared.parentName.toList ++ prepared.interfaceNames.flatMap ClassName.strings ++
    prepared.traitNames.flatMap ClassName.strings ++
    prepared.traitAliases.flatMap TraitAlias.strings ++
    prepared.traitPrecedences.flatMap TraitPrecedence.strings ++
    prepared.functionTable.map Prod.fst ++
    (prepared.propertiesInfo.flatMap fun bucket => bucket.1 :: bucket.2.strings) ++
    (prepared.constants.flatMap fun bucket => bucket.1 :: bucket.2.docComment.toList) ++
    prepared.allAttributes.flatMap Attribute.strings ++
    prepared.backedCases.map Prod.snd ++
    prepared.backedCases.flatMap fun bucket => bucket.1.strings)

/-- The values and functions of a class entry. -/
def values : List (Copied Address) :=
  prepared.functionTable.map Prod.snd ++ prepared.defaultProperties ++ prepared.defaultStatics ++
    prepared.staticMembers.getD [] ++ (prepared.constants.map fun bucket => bucket.2.value) ++
    prepared.allAttributes.flatMap fun attr => attr.arguments.map Prod.snd

/-- A string that can be reached from a class entry. -/
def Has (heap : Heap Address) (text : ZString) : Prop :=
  text ∈ prepared.strings ∨ ∃ value ∈ prepared.values, value.Has heap text

/-- Every string that can be reached is permanent or belongs to the receiving thread. -/
def Isolated (heap : Heap Address) (receiver : Receiver) : Prop :=
  ∀ text, prepared.Has heap text → text.Local receiver

end PreparedClass

/-- An enum case with this backing value has been resolved. -/
def ClassSource.Resolved (candidate : ClassSource Address) (content : Int ⊕ Bytes) : Prop :=
  ∃ bucket ∈ candidate.constants, ∃ backing,
    bucket.2.value = .resolvedCase (some backing) ∧ backing.content = content

/-- The strings that are used in place may be: those that can be reached from default
values that are not counted, and the backing values of cases that are not resolved. -/
def ClassSource.Shareable (heap : Heap Address) (receiver : Receiver)
    (candidate : ClassSource Address) : Prop :=
  (∀ slot ∈ candidate.defaultProperties, refcounted slot = false →
    ∀ text, heap.SlotHas slot text → text.Local receiver) ∧
  ∀ bucket ∈ candidate.backedEnumTable.getD [], ¬ candidate.Resolved (keyContent bucket.1) →
    ∀ text ∈ bucket.1.strings, text.Local receiver

end Strings

section Runs

variable {ClassId Address : Type}

/-- A class entry in the receiving thread; the late bindings may not have been done. -/
structure Entry (Address : Type) where
  prepared : PreparedClass Address
  bound : Bool

/-- What the receiving thread has. -/
structure Thread (ClassId Address : Type) where
  memo : Memo Address
  classes : ClassId → Option (Entry Address)

/-- The steps of preparing classes, each with the fuel that it takes, and the copying of
something else. -/
inductive Action (ClassId Address : Type)
  | copyEntry (fuel : Nat) (candidate : ClassId)
  | completeEntry (fuel : Nat) (candidate : ClassId)
  | lateBindings (fuel : Nat) (candidate : ClassId)
  | copy (fuel : Nat) (task : ValueCopies.Task Address)

variable [DecidableEq ClassId] [DecidableEq Address]
variable (heap : Heap Address) (receiver : Receiver) (comments : Bool)
variable (source : ClassId → ClassSource Address)

/-- A class entry with what has become of it. -/
def Thread.settle (thread : Thread ClassId Address) (candidate : ClassId) (bound : Bool)
    (done : Memo Address × PreparedClass Address) : Thread ClassId Address where
  memo := done.1
  classes := Function.update thread.classes candidate (some ⟨done.2, bound⟩)

/-- One step; without a result where the code does not return. -/
def step (thread : Thread ClassId Address) :
    Action ClassId Address → Option (Thread ClassId Address)
  | .copyEntry fuel candidate =>
      match thread.classes candidate with
      | some _ => none
      | none =>
          (copyEntry receiver comments (copy heap receiver fuel) thread.memo
            (source candidate)).map (thread.settle candidate false)
  | .completeEntry fuel candidate =>
      (thread.classes candidate).bind fun entry =>
        (completeEntry receiver (copy heap receiver fuel) thread.memo (source candidate)
          entry.prepared).map (thread.settle candidate entry.bound)
  | .lateBindings fuel candidate =>
      (thread.classes candidate).bind fun entry =>
        (lateBindings receiver comments (copy heap receiver fuel) thread.memo (source candidate)
          entry.prepared).map (thread.settle candidate true)
  | .copy fuel task =>
      (copy heap receiver fuel thread.memo task).map fun done => { thread with memo := done.1 }

end Runs

end Pthreads.ClassStrings
