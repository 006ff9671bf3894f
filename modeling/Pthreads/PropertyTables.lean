import Mathlib.Logic.Function.Basic
import Pthreads.StoreValues

/-!
# Declared properties and inheritance

A class has a table of property infos, each with a mangled name and the place of the
property among the slots of an object, and the default values of the slots.  A class takes
over the tables of its parent: a property that is declared again keeps its slot, unless the
one of the parent is private.  This file models how the engine builds the tables and how it
finds a property from a scope.  Types, modifiers that only reject programs, and traits are
left out.
-/

namespace Pthreads.PropertyTables

open Store (Bytes Zval handleNumeric)

/-- `ZEND_ACC_PUBLIC`, `ZEND_ACC_PROTECTED` and `ZEND_ACC_PRIVATE`, in this order. -/
inductive Visibility
  | accPublic
  | accProtected
  | accPrivate
deriving DecidableEq, Repr

/-- `flags & ZEND_ACC_PPP_MASK` -/
def Visibility.mask : Visibility → Nat
  | .accPublic => 1
  | .accProtected => 2
  | .accPrivate => 4

/-- `zend_mangle_property_name` -/
def manglePropertyName (scope property : Bytes) : Bytes := 0 :: (scope ++ 0 :: property)

/-- The name that the info of a property has. -/
def infoName (visibility : Visibility) (scope property : Bytes) : Bytes :=
  match visibility with
  | .accPublic => property
  | .accProtected => manglePropertyName [42] property
  | .accPrivate => manglePropertyName scope property

/-- A property as a class declares it.  Its name is an identifier. -/
structure PropertyDeclaration where
  name : Bytes
  visibility : Visibility
  isStatic : Bool
  /-- The default value, `.undef` for a typed property that has none. -/
  value : Zval
  plain : 0 ∉ name
  notNumeric : handleNumeric name = none

/-- A class as it is written.  Its name is not a star. -/
structure ClassDeclaration where
  name : Bytes
  properties : List PropertyDeclaration
  distinct : (properties.map PropertyDeclaration.name).Nodup
  notStar : name ≠ [42]

/-- A `zend_property_info`, with the name of the class that declares it. -/
structure PropertyInfo where
  name : Bytes
  ce : Bytes
  visibility : Visibility
  /-- `ZEND_ACC_STATIC` -/
  isStatic : Bool
  /-- `ZEND_ACC_CHANGED` -/
  changed : Bool
  offset : Nat
deriving DecidableEq, Repr

/-- The part of a `zend_class_entry` that concerns its properties. -/
structure ClassEntry where
  name : Bytes
  propertiesInfo : OrderedTable Bytes PropertyInfo
  defaultPropertiesTable : Nat → Zval
  defaultPropertiesCount : Nat
  defaultStaticMembersCount : Nat

section Linking

/-- `zend_declare_typed_property`, for a name that the class has not declared before. -/
def declareTypedProperty (ce : ClassEntry) (property : PropertyDeclaration) : ClassEntry :=
  let info : Nat → PropertyInfo := fun offset =>
    ⟨infoName property.visibility ce.name property.name, ce.name, property.visibility,
      property.isStatic, false, offset⟩
  if property.isStatic then
    { ce with
      propertiesInfo :=
        ce.propertiesInfo.update property.name (info ce.defaultStaticMembersCount)
      defaultStaticMembersCount := ce.defaultStaticMembersCount + 1 }
  else
    { ce with
      propertiesInfo := ce.propertiesInfo.update property.name (info ce.defaultPropertiesCount)
      defaultPropertiesTable := Function.update ce.defaultPropertiesTable
        ce.defaultPropertiesCount property.value
      defaultPropertiesCount := ce.defaultPropertiesCount + 1 }

/-- The class entry before it is linked. -/
def compileClass (declaration : ClassDeclaration) : ClassEntry :=
  declaration.properties.foldl declareTypedProperty
    ⟨declaration.name, OrderedTable.empty, fun _ => .undef, 0, 0⟩

/-- The slots of a child come after those of its parent. -/
def PropertyInfo.shift (parent ce : ClassEntry) (info : PropertyInfo) : PropertyInfo :=
  if info.ce = ce.name then
    { info with
      offset := info.offset +
        if info.isStatic then parent.defaultStaticMembersCount
        else parent.defaultPropertiesCount }
  else info

/-- `zend_do_inheritance_ex`, up to the loop over the properties of the parent. -/
def extendTables (parent ce : ClassEntry) : ClassEntry where
  name := ce.name
  propertiesInfo := ce.propertiesInfo.mapValues fun _ info => info.shift parent ce
  defaultPropertiesTable slot :=
    if slot < parent.defaultPropertiesCount then parent.defaultPropertiesTable slot
    else ce.defaultPropertiesTable (slot - parent.defaultPropertiesCount)
  defaultPropertiesCount := parent.defaultPropertiesCount + ce.defaultPropertiesCount
  defaultStaticMembersCount :=
    parent.defaultStaticMembersCount + ce.defaultStaticMembersCount

/-- The child takes the slot of the property of its parent. -/
def mergesSlots (parentInfo childInfo : PropertyInfo) : Bool :=
  parentInfo.visibility ≠ .accPrivate && !childInfo.isStatic

/-- The info of a property that is declared again. -/
def PropertyInfo.redeclare (parentInfo childInfo : PropertyInfo) : PropertyInfo :=
  { childInfo with
    changed := childInfo.changed || parentInfo.visibility = .accPrivate || parentInfo.changed
    offset := if mergesSlots parentInfo childInfo then parentInfo.offset else childInfo.offset }

/-- The default of the child goes to the slot of the parent, and leaves its own one empty. -/
def mergeSlots (parentInfo childInfo : PropertyInfo) (table : Nat → Zval) : Nat → Zval :=
  if mergesSlots parentInfo childInfo then
    Function.update (Function.update table parentInfo.offset (table childInfo.offset))
      childInfo.offset .undef
  else table

/-- `do_inherit_property`, without a result where it is a compile error. -/
def doInheritProperty (ce : ClassEntry) (entry : Bytes × PropertyInfo) : Option ClassEntry :=
  let (key, parentInfo) := entry
  match ce.propertiesInfo.find key with
  | none => some { ce with propertiesInfo := ce.propertiesInfo.update key parentInfo }
  | some childInfo =>
    if parentInfo.visibility ≠ .accPrivate ∧ (parentInfo.isStatic ≠ childInfo.isStatic ∨
        parentInfo.visibility.mask < childInfo.visibility.mask) then none
    else some { ce with
      propertiesInfo := ce.propertiesInfo.update key (parentInfo.redeclare childInfo)
      defaultPropertiesTable := mergeSlots parentInfo childInfo ce.defaultPropertiesTable }

/-- `zend_do_inheritance_ex` -/
def doInheritance (parent ce : ClassEntry) : Option ClassEntry :=
  parent.propertiesInfo.entries.foldlM doInheritProperty (extendTables parent ce)

/-- The entries of a class and its ancestors, from the declarations in the same order.
There is no class of the same name among them. -/
def linkClasses : List ClassDeclaration → Option (List ClassEntry)
  | [] => some []
  | declaration :: declarations => do
    let parents ← linkClasses declarations
    if declaration.name ∈ parents.map ClassEntry.name then none
    else
      match parents with
      | [] => some [compileClass declaration]
      | parent :: _ =>
        (doInheritance parent (compileClass declaration)).map fun ce => ce :: parents

end Linking

section Lookup

/-- What `zend_get_property_info` gives. -/
inductive PropertyLookup
  /-- `ZEND_WRONG_PROPERTY_INFO` -/
  | wrong
  | dynamic
  | found (info : PropertyInfo)
deriving DecidableEq, Repr

/-- `is_derived_class`, of a class with its ancestors. -/
def isDerivedClass (child : List ClassEntry) (parent : Bytes) : Bool :=
  parent ∈ child.tail.map ClassEntry.name

/-- A class of a line of ancestors, with its own ancestors. -/
def ancestry (ces : List ClassEntry) (name : Bytes) : List ClassEntry :=
  ces.dropWhile fun ce => ce.name ≠ name

/-- `is_protected_compatible_scope`, for a class of the line. -/
def isProtectedCompatibleScope (ces : List ClassEntry) (ce : Bytes) (scope : List ClassEntry) :
    Bool :=
  match scope with
  | [] => false
  | scopeClass :: _ => isDerivedClass (ancestry ces ce) scopeClass.name || isDerivedClass scope ce

/-- `zend_get_parent_private_property` -/
def getParentPrivateProperty (scope ces : List ClassEntry) (member : Bytes) :
    Option PropertyInfo :=
  match scope, ces with
  | scopeClass :: _, ce :: _ =>
    if scopeClass.name ≠ ce.name ∧ isDerivedClass ces scopeClass.name then
      (scopeClass.propertiesInfo.find member).filter fun info =>
        info.visibility = .accPrivate ∧ info.ce = scopeClass.name
    else none
  | _, _ => none

/-- `zend_get_property_info`, for an object of the first class, in the scope of a class that
comes with its ancestors. -/
def getPropertyInfo (ces scope : List ClassEntry) (member : Bytes) : PropertyLookup :=
  match ces.head?.bind fun ce => ce.propertiesInfo.find member with
  | none => if member.head? = some 0 then .wrong else .dynamic
  | some info =>
    if (info.changed ∨ info.visibility ≠ .accPublic) ∧
        some info.ce ≠ scope.head?.map ClassEntry.name then
      match if info.changed then getParentPrivateProperty scope ces member else none with
      | some parentInfo => .found parentInfo
      | none =>
        if info.changed ∧ info.visibility = .accPublic then .found info
        else if info.visibility = .accPrivate then
          if some info.ce ≠ ces.head?.map ClassEntry.name then .dynamic else .wrong
        else if isProtectedCompatibleScope ces info.ce scope then .found info
        else .wrong
    else .found info

/-- The key under which `pthreads_read_property`, `pthreads_write_property`,
`pthreads_has_property` and `pthreads_unset_property` go to the store. -/
def propertyKey (ces scope : List ClassEntry) (member : Bytes) : Option Bytes :=
  match getPropertyInfo ces scope member with
  | .wrong => none
  | .dynamic => some member
  | .found info => if info.isStatic then some member else some info.name

end Lookup

section Properties

/-- A property of an object: a class, with what it declares. -/
structure Property where
  scope : Bytes
  declaration : PropertyDeclaration

/-- The name in the info of a property. -/
def Property.name (property : Property) : Bytes :=
  infoName property.declaration.visibility property.scope property.declaration.name

/-- The instance properties of the objects of a class.  Declaring a name again goes on with
the property of an ancestor, with another default, unless that one is private. -/
def instanceProperties : List ClassDeclaration → List Property
  | [] => []
  | declaration :: declarations =>
    ((declaration.properties.filter fun property => !property.isStatic).map
      fun property => ⟨declaration.name, property⟩) ++
    (instanceProperties declarations).filter fun property =>
      property.declaration.visibility = .accPrivate ||
        property.declaration.name ∉ declaration.properties.map PropertyDeclaration.name

end Properties

end Pthreads.PropertyTables
