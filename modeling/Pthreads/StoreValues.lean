import Pthreads.ObjectRegistry
import Pthreads.OrderedTable
import Mathlib.Algebra.Ring.Int.Defs

/-!
# Values and storages of the property store

The store of a shared object holds storages, and user code holds zvals.  This
file models the two kinds of value, `pthreads_store_save_zval` and
`pthreads_store_restore_zval` between them, and the keys of the tables, as in
`src/store.c` and `src/store_types.h`.  What a zval or a storage stands for is its
meaning: the scalar, the bytes of the string, the shared object, the function
behind the closure, the descriptor of the socket.
-/

namespace Pthreads.Store

open ObjectRegistry

abbrev Bytes := List UInt8

/-- A `zend_string`.  The pointer names it for as long as it exists, so that a
string placed later at the same address has another name here. -/
structure ZString where
  pointer : Nat
  bytes : Bytes
  permanent : Bool
deriving DecidableEq, Repr

/-- A `zend_closure`, with a name of its own like a string, and the function that it was
made from. -/
structure Closure where
  pointer : Nat
  source : Nat
deriving DecidableEq, Repr

/-- The fields that `php_socket` and `pthreads_socket_storage_t` share. -/
structure Socket where
  bsdSocket : Int
  type : Int
  error : Int
  blocking : Int
deriving DecidableEq, Repr

/-- A key of a property table. -/
inductive Key where
  | long (value : Int)
  | string (bytes : Bytes)
deriving DecidableEq, Repr

/-- A zval of user code.  A double is given by its bits. -/
inductive Zval where
  | undef
  | null
  | bool (value : Bool)
  | long (value : Int)
  | double (bits : UInt64)
  | string (string : ZString)
  | array (entries : List (Key × Zval))
  | threaded (address : Nat)
  | closure (closure : Closure)
  | socket (socket : Socket) (hasStream : Bool)
  | enumCase (className memberName : Bytes)
  | object (pointer : Nat)
  | resource (pointer : Nat)
  | reference (target : Zval)
  | indirect (slot : Zval)

/-- The zvals of `ts_obj->props.hash`: inline values, and those that point to a
`pthreads_storage`. -/
inductive Storage where
  | null
  | bool (value : Bool)
  | long (value : Int)
  | double (bits : UInt64)
  /-- A permanent string, or the persistent copy of one. -/
  | string (string : ZString)
  /-- `STORE_TYPE_STRING_PTR`. -/
  | stringPtr (string : ZString) (owner : Nat)
  | closure (closure : Closure) (owner : Nat)
  | pthreads (address : Nat)
  | resource (pointer : Nat) (owner : Nat)
  | socket (socket : Socket)
  | enumCase (className memberName : Bytes)
deriving DecidableEq, Repr

/-- What a value stands for, whichever thread holds it. -/
inductive Meaning where
  | null
  | bool (value : Bool)
  | long (value : Int)
  | double (bits : UInt64)
  | string (bytes : Bytes)
  | threaded (tsObj : Nat)
  | closure (source : Nat)
  | socket (bsdSocket : Int)
  | enumCase (className memberName : Bytes)
  | resource (pointer : Nat)
deriving DecidableEq, Repr

/-- The shared object behind the zend object at an address. -/
def tsObjAt (registry : Registry) (address : Nat) : Option Nat :=
  (registry.zobjs address).bind ZendObject.tsObj

def Zval.meaning (registry : Registry) : Zval → Option Meaning
  | .null => some .null
  | .bool value => some (.bool value)
  | .long value => some (.long value)
  | .double bits => some (.double bits)
  | .string text => some (.string text.bytes)
  | .threaded address => (tsObjAt registry address).map .threaded
  | .closure made => some (.closure made.source)
  | .socket opened _ => some (.socket opened.bsdSocket)
  | .enumCase className memberName => some (.enumCase className memberName)
  | .resource pointer => some (.resource pointer)
  | .reference target => target.meaning registry
  | .indirect slot => slot.meaning registry
  | .undef | .array _ | .object _ => none

def Storage.meaning (registry : Registry) : Storage → Option Meaning
  | .null => some .null
  | .bool value => some (.bool value)
  | .long value => some (.long value)
  | .double bits => some (.double bits)
  | .string text => some (.string text.bytes)
  | .stringPtr text _ => some (.string text.bytes)
  | .closure made _ => some (.closure made.source)
  | .pthreads address => (tsObjAt registry address).map .threaded
  | .resource pointer _ => some (.resource pointer)
  | .socket opened => some (.socket opened.bsdSocket)
  | .enumCase className memberName => some (.enumCase className memberName)

/-- `pthreads_store_retain_in_local_cache`. -/
def retainInLocalCache : Zval → Bool
  | .threaded _ | .closure _ | .socket _ _ | .string _ => true
  | _ => false

/-- `pthreads_store_valid_local_cache_item`. -/
def validLocalCacheItem : Zval → Bool
  | .indirect _ => false
  | _ => true

/-- `pthreads_store_storage_is_cacheable`. -/
def storageIsCacheable : Storage → Bool
  | .pthreads _ | .closure _ _ | .socket _ | .stringPtr _ _ => true
  | _ => false

/-- `pthreads_store_create`. -/
def storeCreate (registry : Registry) (source : Nat) : Zval → Option Storage
  | .indirect slot => storeCreate registry source slot
  | .reference target => storeCreate registry source target
  | .string string => some (.stringPtr string source)
  | .resource pointer => some (.resource pointer source)
  | .enumCase className memberName => some (.enumCase className memberName)
  | .closure closure => some (.closure closure source)
  | .threaded address =>
      (registry.zobjs address).map fun zobj => .pthreads (savedAddress zobj address)
  | .socket socket hasStream => if hasStream then none else some (.socket socket)
  | _ => none

/-- `pthreads_store_save_zval`. -/
def saveZval (registry : Registry) (source : Nat) : Zval → Option Storage
  | .null => some .null
  | .bool value => some (.bool value)
  | .long value => some (.long value)
  | .double bits => some (.double bits)
  | .string string =>
      if string.permanent then some (.string string)
      else storeCreate registry source (.string string)
  | write => storeCreate registry source write

/-- What the allocators of a thread return while it restores one value. -/
structure Fresh where
  pointer : Nat
  newAddress : Nat
  newTs : Nat
deriving DecidableEq, Repr

/-- No allocation. -/
def noFresh : Fresh := ⟨0, 0, 0⟩

/-- `pthreads_store_save_string`, into persistent memory. -/
def saveString (string : ZString) (pointer : Nat) : ZString :=
  if string.permanent then string else { string with pointer := pointer }

/-- `pthreads_store_restore_string`. -/
def restoreString (string : ZString) (pointer : Nat) : ZString :=
  if string.permanent then string else { string with pointer := pointer }

/-- The enum cases that each thread can load. -/
abbrev EnumCases := Nat → Bytes → Bytes → Bool

/-- `pthreads_store_restore_zval` and `pthreads_store_convert`.  An enum case that
the thread cannot load leaves the zval uninitialised, and then there is no
result for a caller that reads it. -/
def restoreZval (enumCases : EnumCases) (registry : Registry) (thread : Nat) (fresh : Fresh) :
    Storage → Option (Registry × Zval)
  | .null => some (registry, .null)
  | .bool value => some (registry, .bool value)
  | .long value => some (registry, .long value)
  | .double bits => some (registry, .double bits)
  | .string string => some (registry, .string (restoreString string fresh.pointer))
  | .stringPtr string owner =>
      if owner = thread then some (registry, .string string)
      else some (registry, .string (restoreString string fresh.pointer))
  | .closure closure _ => some (registry, .closure { closure with pointer := fresh.pointer })
  | .pthreads address =>
      (globalsObjectConnect registry thread address fresh.newAddress fresh.newTs).map fun
        | (after, some object) => (after, .threaded object)
        | (after, none) => (after, .null)
  | .resource pointer _ => some (registry, .resource pointer)
  | .socket socket => some (registry, .socket socket false)
  | .enumCase className memberName =>
      if enumCases thread className memberName then
        some (registry, .enumCase className memberName)
      else none

/-- The thread has not loaded the enum case of the storage. -/
def unloadable (enumCases : EnumCases) (thread : Nat) : Storage → Bool
  | .enumCase className memberName => !enumCases thread className memberName
  | _ => false

/-- `pthreads_store_restore_zval_ex`, for a caller that goes on with a zval that was not
written. -/
def restoreElement (enumCases : EnumCases) (registry : Registry) (thread : Nat) (fresh : Fresh)
    (storage : Storage) : Option (Registry × Option Zval) :=
  if unloadable enumCases thread storage then some (registry, none)
  else (restoreZval enumCases registry thread fresh storage).map fun (restored, value) =>
    (restored, some value)

theorem restoreElement_cases {enumCases : EnumCases} {registry registry' : Registry} {thread : Nat}
    {fresh : Fresh} {storage : Storage} {value : Option Zval}
    (restored : restoreElement enumCases registry thread fresh storage = some (registry', value)) :
    (∃ written, value = some written ∧ unloadable enumCases thread storage = false ∧
        restoreZval enumCases registry thread fresh storage = some (registry', written)) ∨
      value = none ∧ registry' = registry ∧ unloadable enumCases thread storage = true := by
  unfold restoreElement at restored
  split at restored
  · next isUnloadable =>
    cases restored
    exact Or.inr ⟨rfl, rfl, isUnloadable⟩
  · next isLoadable =>
    obtain ⟨⟨_, written⟩, isRestored, ⟨⟩⟩ := Option.map_eq_some_iff.mp restored
    exact Or.inl ⟨written, rfl, Bool.eq_false_iff.mpr isLoadable, isRestored⟩

/-- `ZEND_LONG_MIN` and `ZEND_LONG_MAX`. -/
def zendLongMin : Int := -2 ^ 63
def zendLongMax : Int := 2 ^ 63 - 1

def isDigit (byte : UInt8) : Bool := 48 ≤ byte ∧ byte ≤ 57

/-- The value of a string of decimal digits. -/
def decimalValue (digits : Bytes) : Nat :=
  digits.foldl (fun value digit => value * 10 + (digit.toNat - 48)) 0

/-- `ZEND_HANDLE_NUMERIC`: the integer that a string key stands for, if it is the
canonical form of one. -/
def handleNumeric (key : Bytes) : Option Int :=
  let negative := key.head? = some 45
  let digits := if negative then key.tail else key
  if digits = [] ∨ (digits.head? = some 48 ∧ 1 < key.length) ∨ 19 < digits.length ∨
      ¬ digits.all isDigit then none
  else if negative then
    if (decimalValue digits : Int) ≤ 2 ^ 63 then some (-(decimalValue digits)) else none
  else
    if (decimalValue digits : Int) ≤ zendLongMax then some (decimalValue digits) else none

/-- The key that an operation is given: a long, a string, or a value of another
type with its string form. -/
inductive KeyZval where
  | long (value : Int)
  | string (bytes : Bytes)
  | other (stringForm : Bytes)
deriving DecidableEq, Repr

/-- `pthreads_store_coerce`. -/
def coerce : KeyZval → Key
  | .long value => .long value
  | .string bytes =>
      match handleNumeric bytes with
      | some value => .long value
      | none => .string bytes
  | .other stringForm => .string stringForm

/-- A `HashTable` with its next free element. -/
structure HashTable where
  table : OrderedTable Key Storage
  nextFreeElement : Int

def HashTable.empty : HashTable := ⟨OrderedTable.empty, zendLongMin⟩

def HashTable.find (hash : HashTable) (key : Key) : Option Storage := hash.table.find key

/-- `zend_hash_index_update` and `zend_hash_update`. -/
def HashTable.update (hash : HashTable) (key : Key) (storage : Storage) : HashTable where
  table := hash.table.update key storage
  nextFreeElement :=
    match key with
    | .long value =>
        if hash.nextFreeElement ≤ value then
          if value < zendLongMax then value + 1 else zendLongMax
        else hash.nextFreeElement
    | .string _ => hash.nextFreeElement

/-- `zend_hash_index_del` and `zend_hash_del`. -/
def HashTable.delete (hash : HashTable) (key : Key) : HashTable :=
  { hash with table := hash.table.delete key }

end Pthreads.Store
