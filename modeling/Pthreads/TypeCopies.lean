import Pthreads.CopyIsolation

/-!
# Copying types

The types of parameters and of return values are copied by `pthreads_copy_zend_type`,
those of properties by code of its own in `prepare_class_property_table`.  A type may be
a list of types, whose members may be lists themselves.  This file models types as PHP 8.1
and later have them, without class entries in types.
-/

namespace Pthreads.TypeCopies

open ValueCopies (Bytes ZString Receiver copyString bytes_copyString local_copyString)

/-- A `zend_type`: a mask alone, with the name of a class, or with a list in memory. -/
inductive ZendType
  | pure (typeMask : Nat)
  | name (typeMask : Nat) (text : ZString)
  | list (typeMask : Nat) (usesArena : Bool) (address : Nat) (types : List ZendType)

/-- What a type means, apart from where its parts are. -/
inductive TypeTree
  | pure (typeMask : Nat)
  | name (typeMask : Nat) (text : Bytes)
  | list (typeMask : Nat) (usesArena : Bool) (types : List TypeTree)

namespace ZendType

/-- `ZEND_TYPE_HAS_LIST` -/
def hasList : ZendType → Bool
  | .list .. => true
  | _ => false

/-- What `ZEND_TYPE_LIST` has. -/
def members : ZendType → List ZendType
  | .list _ _ _ types => types
  | _ => []

mutual

def tree : ZendType → TypeTree
  | .pure typeMask => .pure typeMask
  | .name typeMask text => .name typeMask text.bytes
  | .list typeMask usesArena _ types => .list typeMask usesArena (trees types)

def trees : List ZendType → List TypeTree
  | [] => []
  | type :: types => tree type :: trees types

end

mutual

/-- The addresses of all lists in a type. -/
def lists : ZendType → List Nat
  | .pure _ => []
  | .name _ _ => []
  | .list _ _ address types => address :: listsOfEach types

def listsOfEach : List ZendType → List Nat
  | [] => []
  | type :: types => lists type ++ listsOfEach types

end

mutual

def names : ZendType → List ZString
  | .pure _ => []
  | .name _ text => [text]
  | .list _ _ _ types => namesOfEach types

def namesOfEach : List ZendType → List ZString
  | [] => []
  | type :: types => names type ++ namesOfEach types

end

end ZendType

section Copying

variable (receiver : Receiver)

mutual

/-- `pthreads_copy_zend_type`.  The first result is the next address that `emalloc` or
`zend_arena_alloc` returns.  A type without a list is its own single type. -/
def copyZendType (fresh : Nat) : ZendType → Nat × ZendType
  | .pure typeMask => (fresh, .pure typeMask)
  | .name typeMask text => (fresh, .name typeMask (copyString receiver text))
  | .list typeMask usesArena _ types =>
    let copied := copySingleTypes (fresh + 1) types
    (copied.1, .list typeMask usesArena fresh copied.2)

/-- The loop over the single types of the new list. -/
def copySingleTypes (fresh : Nat) : List ZendType → Nat × List ZendType
  | [] => (fresh, [])
  | type :: types =>
    let first := copyZendType fresh type
    let others := copySingleTypes first.1 types
    (others.1, first.2 :: others.2)

end

/-- What `prepare_class_property_table` does to a single type. -/
def copyName : ZendType → ZendType
  | .name typeMask text => .name typeMask (copyString receiver text)
  | type => type

/-- The type of a property in `prepare_class_property_table`. -/
def copyPropertyType (fresh : Nat) : ZendType → Nat × ZendType
  | .list typeMask usesArena _ types =>
    (fresh + 1, .list typeMask usesArena fresh (types.map (copyName receiver)))
  | type => (fresh, copyName receiver type)

end Copying

section Sharing

/-- A string of the source, which is not the receiving thread's unless it is permanent. -/
def Foreign (receiver : Receiver) (text : ZString) : Prop :=
  text.Local receiver → text.residence = .permanent

/-- No list of the copy is one of the type, and no string of both is one that a thread
takes with it. -/
structure Unshared (type copy : ZendType) : Prop where
  list : ∀ address ∈ copy.lists, address ∉ type.lists
  name : ∀ text ∈ copy.names, text ∈ type.names → text.residence = .permanent

/-- What copying a type is meant to do. -/
structure CopyOf (type copy : ZendType) : Prop where
  tree : copy.tree = type.tree
  unshared : Unshared type copy

variable (receiver : Receiver)

mutual

theorem tree_copyZendType (fresh : Nat) : (type : ZendType) →
    (copyZendType receiver fresh type).2.tree = type.tree
  | .pure _ => rfl
  | .name typeMask text => congrArg (TypeTree.name typeMask) (bytes_copyString text)
  | .list typeMask usesArena _ types =>
    congrArg (TypeTree.list typeMask usesArena) (trees_copySingleTypes (fresh + 1) types)

theorem trees_copySingleTypes (fresh : Nat) : (types : List ZendType) →
    ZendType.trees (copySingleTypes receiver fresh types).2 = ZendType.trees types
  | [] => rfl
  | type :: types =>
    congrArg₂ List.cons (tree_copyZendType fresh type) (trees_copySingleTypes _ types)

end

mutual

/-- The lists of a copy are the ones that were allocated meanwhile. -/
theorem lists_copyZendType (fresh : Nat) : (type : ZendType) →
    fresh ≤ (copyZendType receiver fresh type).1 ∧
      ∀ address ∈ (copyZendType receiver fresh type).2.lists, fresh ≤ address
  | .pure _ => ⟨Nat.le_refl _, nofun⟩
  | .name _ _ => ⟨Nat.le_refl _, nofun⟩
  | .list _ _ _ types => by
    have others := lists_copySingleTypes (fresh + 1) types
    refine ⟨Nat.le_of_succ_le others.1, List.forall_mem_cons.mpr ⟨Nat.le_refl _, ?_⟩⟩
    exact fun address isList => Nat.le_of_succ_le (others.2 address isList)

theorem lists_copySingleTypes (fresh : Nat) : (types : List ZendType) →
    fresh ≤ (copySingleTypes receiver fresh types).1 ∧
      ∀ address ∈ ZendType.listsOfEach (copySingleTypes receiver fresh types).2, fresh ≤ address
  | [] => ⟨Nat.le_refl _, nofun⟩
  | type :: types => by
    have first := lists_copyZendType fresh type
    have others := lists_copySingleTypes (copyZendType receiver fresh type).1 types
    refine ⟨Nat.le_trans first.1 others.1, List.forall_mem_append.mpr ⟨first.2, ?_⟩⟩
    exact fun address isList => Nat.le_trans first.1 (others.2 address isList)

end

mutual

theorem names_copyZendType (fresh : Nat) : (type : ZendType) →
    (copyZendType receiver fresh type).2.names = type.names.map (copyString receiver)
  | .pure _ => rfl
  | .name _ _ => rfl
  | .list _ _ _ types => names_copySingleTypes (fresh + 1) types

theorem names_copySingleTypes (fresh : Nat) : (types : List ZendType) →
    ZendType.namesOfEach (copySingleTypes receiver fresh types).2 =
      (ZendType.namesOfEach types).map (copyString receiver)
  | [] => rfl
  | type :: types =>
    (congrArg₂ (· ++ ·) (names_copyZendType fresh type) (names_copySingleTypes _ types)).trans
      List.map_append.symm

end

theorem copyOf_copyZendType {fresh : Nat} {type : ZendType}
    (allocated : ∀ address ∈ type.lists, address < fresh)
    (foreign : ∀ text ∈ type.names, Foreign receiver text) :
    CopyOf type (copyZendType receiver fresh type).2 := by
  refine ⟨tree_copyZendType receiver fresh type, ?_, ?_⟩
  · intro address isCopy isSource
    have isFresh := (lists_copyZendType receiver fresh type).2 address isCopy
    exact Nat.not_lt.mpr isFresh (allocated address isSource)
  · intro text isCopy isSource
    rw [names_copyZendType] at isCopy
    obtain ⟨original, -, rfl⟩ := List.mem_map.mp isCopy
    exact foreign _ isSource (local_copyString original)

/-- Without lists in the list the type of a property is copied like any other. -/
theorem copySingleTypes_of_flat (fresh : Nat) {types : List ZendType}
    (flat : ∀ type ∈ types, type.hasList = false) :
    copySingleTypes receiver fresh types = (fresh, types.map (copyName receiver)) := by
  induction types with
  | nil => rfl
  | cons type types ih =>
    have single : copyZendType receiver fresh type = (fresh, copyName receiver type) := by
      cases type with
      | pure typeMask => rfl
      | name typeMask text => rfl
      | list typeMask usesArena address nested =>
        cases flat _ List.mem_cons_self
    unfold copySingleTypes
    rw [single]
    dsimp only
    rw [ih fun other isIn => flat other (List.mem_cons_of_mem _ isIn)]
    rfl

theorem copyPropertyType_of_flat (fresh : Nat) {type : ZendType}
    (flat : ∀ member ∈ type.members, member.hasList = false) :
    copyPropertyType receiver fresh type = copyZendType receiver fresh type := by
  cases type with
  | pure typeMask => rfl
  | name typeMask text => rfl
  | list typeMask usesArena address types =>
    have others : copySingleTypes receiver (fresh + 1) types = _ :=
      copySingleTypes_of_flat receiver (fresh + 1) flat
    unfold copyZendType
    rw [others]
    rfl

theorem lists_of_member {types : List ZendType} {typeMask address : Nat} {usesArena : Bool}
    {nested : List ZendType} (isIn : .list typeMask usesArena address nested ∈ types) :
    address ∈ ZendType.listsOfEach types := by
  induction types with
  | nil => cases isIn
  | cons type types ih =>
    rcases List.mem_cons.mp isIn with rfl | later
    · exact List.mem_append_left _ List.mem_cons_self
    · exact List.mem_append_right _ (ih later)

/-- A type as a mask and the names in it. -/
def ZendType.flatten : ZendType → ValueCopies.ZendType
  | .pure typeMask => ⟨typeMask, []⟩
  | .name typeMask text => ⟨typeMask, [text]⟩
  | .list typeMask _ _ types => ⟨typeMask, namesOfEach types⟩

/-- As far as names are concerned, all types may be copied as if they were flat. -/
theorem flatten_copyZendType (fresh : Nat) (type : ZendType) :
    (copyZendType receiver fresh type).2.flatten =
      ValueCopies.copyZendType receiver type.flatten := by
  cases type with
  | pure typeMask => rfl
  | name typeMask text => rfl
  | list typeMask usesArena address types =>
    exact congrArg (ValueCopies.ZendType.mk typeMask) (names_copySingleTypes receiver _ types)

/-- A list in the list of a property's type is not copied. -/
theorem shared_of_nested (fresh : Nat) {type member : ZendType} (isMember : member ∈ type.members)
    (nested : member.hasList = true) :
    ∃ address ∈ (copyPropertyType receiver fresh type).2.lists, address ∈ type.lists := by
  cases type with
  | pure typeMask => cases isMember
  | name typeMask text => cases isMember
  | list typeMask usesArena address types =>
    cases member with
    | pure memberMask => cases nested
    | name memberMask text => cases nested
    | list memberMask memberArena inner memberTypes =>
      refine ⟨inner, ?_, List.mem_cons_of_mem _ (lists_of_member isMember)⟩
      exact List.mem_cons_of_mem _ (lists_of_member (List.mem_map.mpr ⟨_, isMember, rfl⟩))

/-- The types of properties and of parameters are copied alike exactly if no member of
a list is a list. -/
theorem copies_alike_iff {fresh : Nat} {type : ZendType}
    (allocated : ∀ address ∈ type.lists, address < fresh)
    (foreign : ∀ text ∈ type.names, Foreign receiver text) :
    (CopyOf type (copyPropertyType receiver fresh type).2 ∧
        CopyOf type (copyZendType receiver fresh type).2) ↔
      ∀ member ∈ type.members, member.hasList = false := by
  constructor
  · rintro ⟨property, -⟩ member isMember
    by_contra nested
    obtain ⟨address, isCopy, isSource⟩ :=
      shared_of_nested receiver fresh isMember (by simpa using nested)
    exact property.unshared.list address isCopy isSource
  · intro flat
    have parameter := copyOf_copyZendType receiver allocated foreign
    rw [copyPropertyType_of_flat receiver fresh flat]
    exact ⟨parameter, parameter⟩

/-- `A|B`, with names that belong to the first thread. -/
def unionType : ZendType :=
  .list 0 false 1 [.name 0 ⟨[65], .counted 0⟩, .name 0 ⟨[66], .counted 0⟩]

/-- `(A&B)|C` -/
def unionOfIntersection : ZendType :=
  .list 0 false 1
    [.list 0 false 2 [.name 0 ⟨[65], .counted 0⟩, .name 0 ⟨[66], .counted 0⟩],
      .name 0 ⟨[67], .counted 0⟩]

/-- The second thread, which has no permanent strings. -/
def otherThread : Receiver := ⟨1, fun _ => false⟩

theorem copies_alike_iff_union :
    CopyOf unionType (copyPropertyType otherThread 5 unionType).2 ∧
      CopyOf unionType (copyZendType otherThread 5 unionType).2 := by
  refine (copies_alike_iff otherThread ?_ ?_).mpr (by decide)
  · decide
  · unfold Foreign
    decide

/-- The intersection in the type of a property is shared between the threads. -/
theorem copyPropertyType_shares_intersection :
    (∀ address ∈ unionOfIntersection.lists, address < 5) ∧
      (∀ text ∈ unionOfIntersection.names, Foreign otherThread text) ∧
      ¬ (CopyOf unionOfIntersection (copyPropertyType otherThread 5 unionOfIntersection).2 ∧
        CopyOf unionOfIntersection (copyZendType otherThread 5 unionOfIntersection).2) := by
  refine ⟨by decide, ?_, ?_⟩
  · unfold Foreign
    decide
  · rintro ⟨property, -⟩
    exact property.unshared.list 2 (by decide) (by decide)

end Sharing

end Pthreads.TypeCopies
