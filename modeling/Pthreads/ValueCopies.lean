import Pthreads.OrderedTable
import Pthreads.RecursiveCalls

/-!
# Copying values and functions between threads

`pthreads_copy_zval` and `pthreads_copy_function` make the copies that a thread has of
the values and functions of another one, as in `src/copy.c` for PHP 8.1 and later.  The
source is a heap: arrays, references, functions and constant expressions refer to each
other by address, so that they may form cycles.  Connecting a `Threaded` object, the
entries `Closure@…` in the function table of the receiving thread and what a function
has besides strings, values and other functions are not part of this model.
-/

namespace Pthreads.ValueCopies

open RecursiveCalls

abbrev Bytes := List UInt8

/-- Where a `zend_string` lives: interned for good, interned by a request, or counted. -/
inductive Residence
  | permanent
  | interned (thread : Nat)
  | counted (thread : Nat)
deriving DecidableEq, Repr

structure ZString where
  bytes : Bytes
  residence : Residence
deriving DecidableEq, Repr

/-- The thread that copies, with the strings that are interned for good. -/
structure Receiver where
  thread : Nat
  permanent : Bytes → Bool

/-- `zend_new_interned_string` in the receiving thread. -/
def Receiver.intern (receiver : Receiver) (bytes : Bytes) : ZString :=
  ⟨bytes, if receiver.permanent bytes then .permanent else .interned receiver.thread⟩

/-- `pthreads_copy_string` -/
def copyString (receiver : Receiver) (text : ZString) : ZString :=
  match text.residence with
  | .permanent => text
  | .interned _ => receiver.intern text.bytes
  | .counted _ => ⟨text.bytes, .counted receiver.thread⟩

/-- `IS_NULL`, `IS_TRUE`, `IS_FALSE`, `IS_LONG` and `IS_DOUBLE`. -/
inductive Scalar
  | null
  | true
  | false
  | long (value : Int)
  | double (bits : Nat)
deriving DecidableEq, Repr

/-- A key of a hash table. -/
inductive Key
  | index (value : Int)
  | name (text : ZString)
deriving DecidableEq, Repr

/-- The `zval`s that are values of constant expressions or such expressions.  An array
or an expression in shared memory is not counted. -/
inductive Constant (Address : Type)
  | scalar (content : Scalar)
  | string (text : ZString)
  | array (address : Address) (refcounted : Bool)
  | ast (address : Address) (refcounted : Bool)
deriving DecidableEq, Repr

/-- A `zval` of the source.  The last kind are resources and objects that are neither
`Threaded` nor closures. -/
inductive Slot (Address : Type)
  | undef
  | constant (content : Constant Address)
  | reference (target : Address)
  | indirect (target : Address)
  | threaded (object : Nat)
  | closure (function : Address)
  | other
deriving DecidableEq, Repr

/-- A node of a constant expression. -/
inductive AstNode (Address : Type)
  | zval (attr : Nat) (content : Slot Address)
  | constant (attr : Nat) (name : ZString)
  | tree (kind attr : Nat) (children : List (Option Address))
deriving DecidableEq, Repr

/-- A type as a list of class names beside a mask. -/
structure ZendType where
  mask : Nat
  names : List ZString
deriving DecidableEq, Repr

/-- A `zend_arg_info`; those of the return type and of variadic arguments are in the
same table. -/
structure ArgInfo where
  name : Option ZString
  type : ZendType
deriving DecidableEq, Repr

structure Attribute (Content : Type) where
  name : ZString
  lcname : ZString
  arguments : List (Option ZString × Content)
deriving DecidableEq, Repr

/-- The parts of a `zend_op_array` that opcache may have put into shared memory, for the
values, the constants and the functions of the source or of the copy. -/
structure Code (Value Content Function : Type) where
  literals : List Value
  argInfo : List ArgInfo
  vars : List ZString
  attributes : List (Attribute Content)
  dynamicFuncDefs : List Function

/-- The parts of a `zend_op_array`. -/
structure FunctionParts (Value Content Function : Type) where
  functionName : ZString
  docComment : Option ZString
  filename : ZString
  code : Code Value Content Function
  staticVariables : List (ZString × Value)

/-- A `zend_function` of the source. -/
structure SourceFunction (Address : Type) where
  /-- `ZEND_INTERNAL_FUNCTION` -/
  internal : Bool
  /-- `ZEND_ACC_IMMUTABLE` -/
  immutable : Bool
  /-- `ZEND_ACC_CLOSURE` -/
  closure : Bool
  /-- The `refcount` is not null: the parts are not in shared memory. -/
  refcounted : Bool
  parts : FunctionParts (Slot Address) (Constant Address) Address

/-- The memory of the source thread. -/
structure Heap (Address : Type) where
  /-- What a reference or an indirection refers to. -/
  referent : Address → Slot Address
  array : Address → List (Key × Slot Address)
  ast : Address → AstNode Address
  function : Address → SourceFunction Address

/-- What the receiving thread has: copies, and what it uses of the source in place. -/
inductive Copied (Address : Type)
  | scalar (content : Scalar)
  | string (text : ZString)
  | array (elements : List (Key × Copied Address))
  | threaded (object : Nat)
  | closure (function : Copied Address)
  | ast (tree : Copied Address)
  | astZval (attr : Nat) (content : Option (Copied Address))
  | astConstant (attr : Nat) (name : ZString)
  | astTree (kind attr : Nat) (children : List (Option (Copied Address)))
  | function (parts : FunctionParts (Copied Address) (Copied Address) (Copied Address))
  | slotInPlace (slot : Slot Address)
  | functionInPlace (address : Address)

/-- A call of the recursion. -/
inductive Task (Address : Type)
  | referent (address : Address)
  | array (address : Address)
  | ast (address : Address)
  | function (address : Address)
deriving DecidableEq, Repr

/-- Copying a `zval` may fail, copying anything else does not. -/
def Task.Result {Address : Type} : Task Address → Type
  | .referent _ => Option (Copied Address)
  | _ => Copied Address

/-- The tables `resolve` and `filenames` of the receiving thread. -/
structure Memo (Address : Type) where
  resolve : OrderedTable Address (Copied Address)
  filenames : OrderedTable Bytes ZString

section Copying

variable {Address : Type}

/-- `zend_string_tolower` on the bytes, which changes ASCII letters only. -/
def toLower (bytes : Bytes) : Bytes :=
  bytes.map fun byte => if 65 ≤ byte ∧ byte ≤ 90 then byte + 32 else byte

/-- `zend_string_tolower_ex`, which gives the string itself when it is in lower case. -/
def lowerString (receiver : Receiver) (text : ZString) : ZString :=
  if toLower text.bytes = text.bytes then text
  else ⟨toLower text.bytes, .counted receiver.thread⟩

def copyKey (receiver : Receiver) : Key → Key
  | .index value => .index value
  | .name text => .name (copyString receiver text)

/-- `pthreads_copy_zend_type` -/
def copyZendType (receiver : Receiver) (type : ZendType) : ZendType :=
  { type with names := type.names.map (copyString receiver) }

/-- `pthreads_copy_arginfo` -/
def copyArgInfo (receiver : Receiver) (info : ArgInfo) : ArgInfo where
  name := info.name.map (copyString receiver)
  type := copyZendType receiver info.type

/-- The filename is copied once for all functions and classes of a file. -/
def copyFilename (receiver : Receiver) (memo : Memo Address) (filename : ZString) :
    Memo Address × ZString :=
  match memo.filenames.find filename.bytes with
  | some copy => (memo, copy)
  | none =>
      let copy := copyString receiver filename
      ({ memo with filenames := memo.filenames.update copy.bytes copy }, copy)

/-- The code of an `op_array` whose `refcount` is null. -/
def Code.inPlace (code : Code (Slot Address) (Constant Address) Address) :
    Code (Copied Address) (Copied Address) (Copied Address) where
  literals := code.literals.map .slotInPlace
  argInfo := code.argInfo
  vars := code.vars
  attributes := code.attributes.map fun attr =>
    { attr with
      arguments := attr.arguments.map fun argument =>
        (argument.1, .slotInPlace (.constant argument.2)) }
  dynamicFuncDefs := code.dynamicFuncDefs.map .functionInPlace

variable (heap : Heap Address) (receiver : Receiver)
variable (call : Memo Address → (task : Task Address) → Option (Memo Address × task.Result))

def copyConstant (memo : Memo Address) :
    Constant Address → Option (Memo Address × Copied Address)
  | .scalar content => some (memo, .scalar content)
  | .string text => some (memo, .string (copyString receiver text))
  | .array address _ => call memo (.array address)
  | .ast address _ => (call memo (.ast address)).map fun done => (done.1, .ast done.2)

/-- `pthreads_copy_zval`, without a result where it returns `FAILURE`. -/
def copyZval (memo : Memo Address) :
    Slot Address → Option (Memo Address × Option (Copied Address))
  | .undef => some (memo, none)
  | .constant content =>
      (copyConstant receiver call memo content).map fun done => (done.1, some done.2)
  | .reference target => call memo (.referent target)
  | .indirect target => call memo (.referent target)
  | .threaded object => some (memo, some (.threaded object))
  | .closure function =>
      (call memo (.function function)).map fun done => (done.1, some (.closure done.2))
  | .other => some (memo, none)

/-- One element in `pthreads_copy_hash`, which skips what it cannot copy. -/
def copyElement (memo : Memo Address) (element : Key × Slot Address) :
    Option (Memo Address × Option (Key × Copied Address)) :=
  (copyZval receiver call memo element.2).map fun done =>
    (done.1, done.2.map fun value => (copyKey receiver element.1, value))

/-- `pthreads_copy_hash` -/
def copyHash (memo : Memo Address) (elements : List (Key × Slot Address)) :
    Option (Memo Address × Copied Address) :=
  (traverse (copyElement receiver call) memo elements).map fun done =>
    (done.1, .array done.2.reduceOption)

/-- One literal in `pthreads_copy_literals`. -/
def copyLiteral (memo : Memo Address) (literal : Slot Address) :
    Option (Memo Address × Copied Address) :=
  (copyZval receiver call memo literal).map fun done =>
    (done.1, done.2.getD (.scalar .null))

/-- One variable in `pthreads_copy_statics`.  References are followed in a loop there;
`pthreads_copy_zval` would follow them too. -/
def copyStatic (memo : Memo Address) (static : ZString × Slot Address) :
    Option (Memo Address × (ZString × Copied Address)) :=
  (copyZval receiver call memo static.2).map fun done =>
    (done.1, copyString receiver static.1, done.2.getD (.scalar .null))

/-- One argument in `pthreads_copy_attribute`.  The arguments of attributes are constant
expressions, which can be copied. -/
def copyArgument (memo : Memo Address) (argument : Option ZString × Constant Address) :
    Option (Memo Address × (Option ZString × Copied Address)) :=
  (copyConstant receiver call memo argument.2).map fun done =>
    (done.1, argument.1.map (copyString receiver), done.2)

/-- `pthreads_copy_attribute` -/
def copyAttribute (memo : Memo Address) (attr : Attribute (Constant Address)) :
    Option (Memo Address × Attribute (Copied Address)) :=
  (traverse (copyArgument receiver call) memo attr.arguments).map fun done =>
    (done.1,
      { name := copyString receiver attr.name
        lcname := lowerString receiver (copyString receiver attr.name)
        arguments := done.2 })

/-- `pthreads_copy_attributes` -/
def copyAttributes : Memo Address → List (Attribute (Constant Address)) →
    Option (Memo Address × List (Attribute (Copied Address))) :=
  traverse (copyAttribute receiver call)

/-- The code of an `op_array` that is not in shared memory. -/
def copyCode (memo : Memo Address) (code : Code (Slot Address) (Constant Address) Address) :
    Option (Memo Address × Code (Copied Address) (Copied Address) (Copied Address)) :=
  (traverse (copyLiteral receiver call) memo code.literals).bind fun literals =>
    (copyAttributes receiver call literals.1 code.attributes).bind fun attributes =>
      (traverse (fun memo function => call memo (.function function)) attributes.1
        code.dynamicFuncDefs).map fun functions =>
          (functions.1,
            { literals := literals.2
              argInfo := code.argInfo.map (copyArgInfo receiver)
              vars := code.vars.map (copyString receiver)
              attributes := attributes.2
              dynamicFuncDefs := functions.2 })

/-- `pthreads_copy_user_function` -/
def copyUserFunction (memo : Memo Address) (source : SourceFunction Address) :
    Option (Memo Address × Copied Address) :=
  let named := copyFilename receiver memo source.parts.filename
  (if source.refcounted then copyCode receiver call named.1 source.parts.code
    else some (named.1, source.parts.code.inPlace)).bind fun code =>
      (traverse (copyStatic receiver call) code.1 source.parts.staticVariables).map fun statics =>
        (statics.1, .function
          { functionName := copyString receiver source.parts.functionName
            docComment := source.parts.docComment.map (copyString receiver)
            filename := named.2
            code := code.2
            staticVariables := statics.2 })

/-- A function that has not been resolved; `pthreads_copy_internal_function` copies no
part of it. -/
def copyUnresolved (memo : Memo Address) (address : Address) :
    Option (Memo Address × Copied Address) :=
  if (heap.function address).internal then some (memo, .functionInPlace address)
  else copyUserFunction receiver call memo (heap.function address)

/-- A child of a syntax tree, which may be missing. -/
def copyChild (memo : Memo Address) :
    Option Address → Option (Memo Address × Option (Copied Address))
  | none => some (memo, none)
  | some address => (call memo (.ast address)).map fun done => (done.1, some done.2)

/-- `pthreads_copy_ast_tree` -/
def copyAstTree (memo : Memo Address) : AstNode Address → Option (Memo Address × Copied Address)
  | .zval attr content =>
      (copyZval receiver call memo content).map fun done => (done.1, .astZval attr done.2)
  | .constant attr name => some (memo, .astConstant attr (copyString receiver name))
  | .tree kind attr children =>
      (traverse (copyChild call) memo children).map fun done =>
        (done.1, .astTree kind attr done.2)

variable [DecidableEq Address]

/-- `pthreads_copy_function`.  A function is resolved when it has been copied, a closure
never. -/
def copyFunction (memo : Memo Address) (address : Address) :
    Option (Memo Address × Copied Address) :=
  if (heap.function address).immutable then some (memo, .functionInPlace address)
  else if (heap.function address).closure then copyUnresolved heap receiver call memo address
  else
    match memo.resolve.find address with
    | some copy => some (memo, copy)
    | none =>
        (copyUnresolved heap receiver call memo address).map fun done =>
          ({ done.1 with resolve := done.1.resolve.update address done.2 }, done.2)

def copyTask (memo : Memo Address) :
    (task : Task Address) → Option (Memo Address × task.Result)
  | .referent address => copyZval receiver call memo (heap.referent address)
  | .array address => copyHash receiver call memo (heap.array address)
  | .ast address => copyAstTree receiver call memo (heap.ast address)
  | .function address => copyFunction heap receiver call memo address

/-- The recursion of copying. -/
def copy : Nat → Memo Address → (task : Task Address) → Option (Memo Address × task.Result)
  | 0, _, _ => none
  | fuel + 1, memo, task => copyTask heap receiver (copy fuel) memo task

end Copying

section Calls

variable {Address : Type}

def Constant.tasks : Constant Address → List (Task Address)
  | .array address _ => [.array address]
  | .ast address _ => [.ast address]
  | _ => []

def Slot.tasks : Slot Address → List (Task Address)
  | .constant content => content.tasks
  | .reference target => [.referent target]
  | .indirect target => [.referent target]
  | .closure function => [.function function]
  | _ => []

def AstNode.tasks : AstNode Address → List (Task Address)
  | .zval _ content => content.tasks
  | .constant _ _ => []
  | .tree _ _ children => children.flatMap fun child => child.toList.map .ast

def Code.tasks (code : Code (Slot Address) (Constant Address) Address) : List (Task Address) :=
  code.literals.flatMap Slot.tasks ++
    code.attributes.flatMap
      (fun attr => attr.arguments.flatMap fun argument => argument.2.tasks) ++
    code.dynamicFuncDefs.map .function

/-- What the body of a function refers to. -/
def SourceFunction.tasks (source : SourceFunction Address) : List (Task Address) :=
  (if source.refcounted then source.parts.code.tasks else []) ++
    source.parts.staticVariables.flatMap fun static => static.2.tasks

variable [DecidableEq Address]

/-- The function is not copied: it is immutable, internal or resolved. -/
def Heap.Settled (heap : Heap Address) (memo : Memo Address) (address : Address) : Prop :=
  (heap.function address).immutable ∨ (heap.function address).internal ∨
    ¬ (heap.function address).closure ∧ (memo.resolve.find address).isSome

instance (heap : Heap Address) (memo : Memo Address) (address : Address) :
    Decidable (heap.Settled memo address) :=
  inferInstanceAs (Decidable (_ ∨ _ ∨ _ ∧ _))

/-- The calls that copying makes for a task, as the memory of the source has them. -/
def Heap.tasks (heap : Heap Address) (memo : Memo Address) : Task Address → List (Task Address)
  | .referent address => (heap.referent address).tasks
  | .array address => (heap.array address).flatMap fun element => element.2.tasks
  | .ast address => (heap.ast address).tasks
  | .function address =>
      if heap.Settled memo address then [] else (heap.function address).tasks

/-- Copying the one calls for copying the other. -/
def Heap.Calls (heap : Heap Address) (memo : Memo Address) (task other : Task Address) : Prop :=
  other ∈ heap.tasks memo task

end Calls

end Pthreads.ValueCopies
