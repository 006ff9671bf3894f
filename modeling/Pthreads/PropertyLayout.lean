import Pthreads.PropertyInheritance

/-!
# Where the properties of an object are

Each instance property of a class has a slot of its own with its default value, other slots
are not initialised, and the property is found from the class that declares it.
-/

namespace Pthreads.PropertyTables

open Store (Bytes Zval)

section Names

variable {scope other name member : Bytes} {visibility otherVisibility : Visibility}

/-- A mangled name gives back the scope and the property. -/
theorem manglePropertyName_injective (plain : 0 ∉ name) (otherPlain : 0 ∉ member)
    (same : manglePropertyName scope name = manglePropertyName other member) :
    scope = other ∧ name = member := by
  have tails : scope ++ 0 :: name = other ++ 0 :: member := (List.cons.inj same).2
  rcases List.append_eq_append_iff.mp tails with ⟨between, rfl, rest⟩ | ⟨between, rfl, rest⟩
  · cases between with
    | nil =>
      rw [List.append_nil]
      exact ⟨rfl, (List.cons.inj rest).2⟩
    | cons byte between =>
      have inside : name = between ++ 0 :: member := (List.cons.inj rest).2
      exact absurd (inside ▸ List.mem_append_right between List.mem_cons_self) plain
  · cases between with
    | nil =>
      rw [List.append_nil]
      exact ⟨rfl, (List.cons.inj rest).2.symm⟩
    | cons byte between =>
      have inside : member = between ++ 0 :: name := (List.cons.inj rest).2
      exact absurd (inside ▸ List.mem_append_right between List.mem_cons_self) otherPlain

theorem manglePropertyName_ne (plain : 0 ∉ member) : manglePropertyName scope name ≠ member :=
  fun same => plain (same ▸ List.mem_cons_self)

/-- Infos have the same name only for the same property. -/
theorem infoName_injective (plain : 0 ∉ name) (otherPlain : 0 ∉ member) (notStar : scope ≠ [42])
    (otherNotStar : other ≠ [42])
    (same : infoName visibility scope name = infoName otherVisibility other member) :
    name = member ∧ visibility = otherVisibility ∧ (visibility = .accPrivate → scope = other) := by
  cases visibility <;> cases otherVisibility
  · exact ⟨same, rfl, nofun⟩
  · exact absurd same.symm (manglePropertyName_ne plain)
  · exact absurd same.symm (manglePropertyName_ne plain)
  · exact absurd same (manglePropertyName_ne otherPlain)
  · exact ⟨(manglePropertyName_injective plain otherPlain same).2, rfl, nofun⟩
  · exact absurd (manglePropertyName_injective plain otherPlain same).1.symm otherNotStar
  · exact absurd same (manglePropertyName_ne otherPlain)
  · exact absurd (manglePropertyName_injective plain otherPlain same).1 notStar
  · obtain ⟨scopes, names⟩ := manglePropertyName_injective plain otherPlain same
    exact ⟨names, rfl, fun _ => scopes⟩

end Names

section Properties

variable {declaration : ClassDeclaration} {declarations : List ClassDeclaration}
  {property : Property}

theorem mem_instanceProperties_cons :
    property ∈ instanceProperties (declaration :: declarations) ↔
      property.scope = declaration.name ∧ property.declaration ∈ declaration.properties ∧
        property.declaration.isStatic = false ∨
      property ∈ instanceProperties declarations ∧
        (property.declaration.visibility ≠ .accPrivate → property.declaration.name ∉
          declaration.properties.map PropertyDeclaration.name) := by
  obtain ⟨scope, declared⟩ := property
  rw [instanceProperties, List.mem_append, List.mem_map, List.mem_filter]
  refine or_congr ?_ (and_congr_right fun _ => ?_)
  · constructor
    · rintro ⟨own, isOwn, ⟨⟩⟩
      rw [List.mem_filter, Bool.not_eq_true'] at isOwn
      exact ⟨rfl, isOwn⟩
    · rintro ⟨rfl, isOwn, isInstance⟩
      exact ⟨declared, List.mem_filter.mpr ⟨isOwn, Bool.not_eq_true' _ ▸ isInstance⟩, rfl⟩
  · rw [Bool.or_eq_true, decide_eq_true_iff, decide_eq_true_iff, or_iff_not_imp_left]

theorem instanceProperties_scope (isProperty : property ∈ instanceProperties declarations) :
    property.scope ∈ declarations.map ClassDeclaration.name ∧ property.scope ≠ [42] ∧
      property.declaration.isStatic = false := by
  induction declarations with
  | nil => cases isProperty
  | cons declaration declarations ih =>
    rcases mem_instanceProperties_cons.mp isProperty with ⟨own, -, isInstance⟩ | ⟨before, -⟩
    · exact ⟨own ▸ List.mem_cons_self, own ▸ declaration.notStar, isInstance⟩
    · exact ⟨List.mem_cons_of_mem _ (ih before).1, (ih before).2⟩

/-- A class declares a name once. -/
theorem declaration_eq {first second : PropertyDeclaration}
    (isFirst : first ∈ declaration.properties) (isSecond : second ∈ declaration.properties)
    (same : first.name = second.name) : first = second :=
  List.inj_on_of_nodup_map declaration.distinct isFirst isSecond same

/-- The properties of an object have different names. -/
theorem instanceProperties_name_injective
    (distinct : (declarations.map ClassDeclaration.name).Nodup) {twin : Property}
    (isProperty : property ∈ instanceProperties declarations)
    (isTwin : twin ∈ instanceProperties declarations) (same : property.name = twin.name) :
    property = twin := by
  obtain ⟨-, notStar, -⟩ := instanceProperties_scope isProperty
  obtain ⟨-, twinNotStar, -⟩ := instanceProperties_scope isTwin
  obtain ⟨names, visibilities, scopes⟩ := infoName_injective property.declaration.plain
    twin.declaration.plain notStar twinNotStar same
  induction declarations with
  | nil => cases isProperty
  | cons declaration declarations ih =>
    rw [List.map_cons, List.nodup_cons] at distinct
    -- a property of this class and one of an ancestor
    have apart : ∀ own inherited : Property, own.scope = declaration.name →
        own.declaration ∈ declaration.properties → inherited ∈ instanceProperties declarations →
        (inherited.declaration.visibility ≠ .accPrivate → inherited.declaration.name ∉
          declaration.properties.map PropertyDeclaration.name) →
        own.declaration.name = inherited.declaration.name →
        (inherited.declaration.visibility = .accPrivate → own.scope = inherited.scope) → False := by
      intro own inherited ownScope isOwn isInherited kept ownName privateScope
      by_cases isPrivate : inherited.declaration.visibility = .accPrivate
      · have above := (instanceProperties_scope isInherited).1
        rw [← privateScope isPrivate, ownScope] at above
        exact distinct.1 above
      · exact kept isPrivate (ownName ▸ List.mem_map_of_mem isOwn)
    rcases mem_instanceProperties_cons.mp isProperty with ⟨own, isOwn, -⟩ | ⟨before, kept⟩ <;>
      rcases mem_instanceProperties_cons.mp isTwin with
        ⟨twinOwn, isTwinOwn, -⟩ | ⟨twinBefore, twinKept⟩
    · obtain ⟨scope, declared⟩ := property
      obtain ⟨twinScope, twinDeclared⟩ := twin
      cases own.trans twinOwn.symm
      cases declaration_eq isOwn isTwinOwn names
      rfl
    · exact (apart property twin own isOwn twinBefore twinKept names fun isPrivate =>
        scopes (visibilities.trans isPrivate)).elim
    · exact (apart twin property twinOwn isTwinOwn before kept names.symm fun isPrivate =>
        (scopes isPrivate).symm).elim
    · exact ih distinct.2 before twinBefore

end Properties

section Owners

/-- The infos of a class and its ancestors, in the order of a walk up. -/
def visitedInfos (ces : List ClassEntry) : List PropertyInfo :=
  ces.flatMap fun ce => ce.propertiesInfo.entries.map Prod.snd

/-- The info has an instance property in the slot. -/
def PropertyInfo.occupies (info : PropertyInfo) (slot : Nat) : Bool :=
  !info.isStatic && info.offset = slot

/-- The first info of a walk that has an instance property in the slot. -/
def firstAt (infos : List PropertyInfo) (slot : Nat) : Option PropertyInfo :=
  infos.find? fun info => info.occupies slot

def owner (ces : List ClassEntry) (slot : Nat) : Option PropertyInfo :=
  firstAt (visitedInfos ces) slot

variable {ce : ClassEntry} {parents : List ClassEntry} {slot : Nat} {info : PropertyInfo}
  {infos : List PropertyInfo} {member : Bytes}

theorem PropertyInfo.occupies_iff :
    info.occupies slot = true ↔ info.isStatic = false ∧ info.offset = slot := by
  rw [PropertyInfo.occupies, Bool.and_eq_true_iff, Bool.not_eq_true', decide_eq_true_iff]

theorem firstAt_append (infos others : List PropertyInfo) (slot : Nat) :
    firstAt (infos ++ others) slot = (firstAt infos slot).or (firstAt others slot) :=
  List.find?_append ..

theorem firstAt_singleton (info : PropertyInfo) (slot : Nat) :
    firstAt [info] slot =
      if info.isStatic = false ∧ info.offset = slot then some info else none := by
  rw [firstAt, List.find?_singleton]
  exact if_congr PropertyInfo.occupies_iff rfl rfl

theorem firstAt_eq_some (isFirst : firstAt infos slot = some info) :
    info ∈ infos ∧ info.isStatic = false ∧ info.offset = slot := by
  have occupies := List.find?_some isFirst
  exact ⟨List.mem_of_find?_eq_some isFirst, PropertyInfo.occupies_iff.mp occupies⟩

theorem owner_cons : owner (ce :: parents) slot =
    (firstAt (ce.propertiesInfo.entries.map Prod.snd) slot).or (owner parents slot) :=
  firstAt_append ..

/-- What a class has in a slot comes before what its ancestors have there. -/
theorem owner_cons_cases :
    (∃ member info, ce.propertiesInfo.find member = some info ∧ info.isStatic = false ∧
        info.offset = slot ∧ owner (ce :: parents) slot = some info) ∨
      (∀ member info, ce.propertiesInfo.find member = some info → info.isStatic = false →
        info.offset ≠ slot) ∧ owner (ce :: parents) slot = owner parents slot := by
  rw [owner_cons]
  cases first : firstAt (ce.propertiesInfo.entries.map Prod.snd) slot with
  | some info =>
    obtain ⟨isIn, isInstance, offset⟩ := firstAt_eq_some first
    obtain ⟨⟨member, _⟩, isEntry, rfl⟩ := List.mem_map.mp isIn
    exact Or.inl ⟨member, _, OrderedTable.find_eq_some_iff.mpr isEntry, isInstance, offset, rfl⟩
  | none =>
    refine Or.inr ⟨fun member info found isInstance offset => ?_, rfl⟩
    have isEntry := OrderedTable.find_eq_some_iff.mp found
    exact List.find?_eq_none.mp first info (List.mem_map_of_mem isEntry)
      (PropertyInfo.occupies_iff.mpr ⟨isInstance, offset⟩)

/-- An info of the class is the first that has its slot. -/
theorem ClassEntry.Slotted.owner_eq (slotted : ce.Slotted)
    (found : ce.propertiesInfo.find member = some info) (isInstance : info.isStatic = false)
    (parents : List ClassEntry) : owner (ce :: parents) info.offset = some info := by
  rcases owner_cons_cases with
    ⟨other, otherInfo, otherFound, otherInstance, offset, isOwner⟩ | ⟨missing, -⟩
  · cases slotted.injective other member otherInfo info otherFound found otherInstance isInstance
      offset
    exact isOwner.trans (otherFound.symm.trans found)
  · exact absurd rfl (missing member info found isInstance)

end Owners

/-- A property of the objects of a class, with its info: where it is, and how it is found from
the class that declares it. -/
structure Placed (ce : ClassEntry) (parents : List ClassEntry) (property : Property)
    (info : PropertyInfo) : Prop where
  describes : info.Describes property.scope property.declaration
  isInstance : info.isStatic = false
  isOwner : owner (ce :: parents) info.offset = some info
  bounded : info.offset < ce.defaultPropertiesCount
  value : ce.defaultPropertiesTable info.offset = property.declaration.value
  found : ∃ nearest, ce.propertiesInfo.find property.declaration.name = some nearest ∧
    (nearest = info ∨ property.declaration.visibility = .accPrivate ∧ nearest.changed = true ∧
      nearest.ce ≠ property.scope)
  declared : ∃ declaring above,
    ancestry (ce :: parents) property.scope = declaring :: above ∧
      declaring.name = property.scope ∧
        declaring.propertiesInfo.find property.declaration.name = some info

/-- The properties of the objects of a class are in its slots. -/
structure Laid (declarations : List ClassDeclaration) (ce : ClassEntry)
    (parents : List ClassEntry) : Prop where
  names : (ce :: parents).map ClassEntry.name = declarations.map ClassDeclaration.name
  slotted : ce.Slotted
  described : ∀ member info, ce.propertiesInfo.find member = some info →
    ∃ scope declared, scope ≠ [42] ∧ info.Describes scope declared ∧ declared.name = member
  placed : ∀ property ∈ instanceProperties declarations, ∃ info, Placed ce parents property info
  covered : ∀ slot, ce.defaultPropertiesTable slot ≠ .undef →
    ∃ property ∈ instanceProperties declarations, ∃ info,
      Placed ce parents property info ∧ info.offset = slot

section Layouts

variable {ce parent : ClassEntry} {parents : List ClassEntry} {info : PropertyInfo}
  {declaration : ClassDeclaration} {declarations : List ClassDeclaration} {property : Property}

theorem ancestry_self (parents : List ClassEntry) :
    ancestry (ce :: parents) ce.name = ce :: parents :=
  List.dropWhile_cons_of_neg (by simp)

theorem ancestry_other {name : Bytes} (different : ce.name ≠ name) :
    ancestry (ce :: parents) name = ancestry parents name :=
  List.dropWhile_cons_of_pos (by simpa using different)

/-- What the class declares itself. -/
theorem placed_of_declared {declared : PropertyDeclaration} (slotted : ce.Slotted)
    (name : ce.name = declaration.name)
    (found : ce.propertiesInfo.find declared.name = some info)
    (describes : info.Describes declaration.name declared) (isInstance : info.isStatic = false)
    (value : ce.defaultPropertiesTable info.offset = declared.value) :
    Placed ce parents ⟨declaration.name, declared⟩ info where
  describes := describes
  isInstance := isInstance
  isOwner := slotted.owner_eq found isInstance parents
  bounded := slotted.bounded declared.name info found isInstance
  value := value
  found := ⟨info, found, Or.inl rfl⟩
  declared := ⟨ce, parents, name ▸ ancestry_self parents, name, found⟩

/-- No property that the class declares is in the slot of one that is kept. -/
theorem Child.apart_of_placed (child : Child parent declaration ce)
    (laid : Laid declarations parent parents)
    (isProperty : property ∈ instanceProperties declarations)
    (placed : Placed parent parents property info)
    (kept : property.declaration.visibility ≠ .accPrivate → property.declaration.name ∉
      declaration.properties.map PropertyDeclaration.name)
    {declared : PropertyDeclaration} (isDeclared : declared ∈ declaration.properties)
    {own : PropertyInfo} (found : ce.propertiesInfo.find declared.name = some own)
    (isInstance : own.isStatic = false) : own.offset ≠ info.offset := by
  intro same
  obtain ⟨_, isOwn, -, -, merged, place⟩ := child.own declared isDeclared
  cases Option.some.inj (found.symm.trans isOwn)
  rcases place isInstance with above | ⟨parentInfo, isParent, visible⟩
  · exact absurd (same ▸ placed.bounded) (Nat.not_lt.mpr above)
  · obtain ⟨static, offset⟩ := (merged parentInfo isParent).2 visible
    -- the parent has the property in this slot under the same name
    have isOwner := laid.slotted.owner_eq isParent (static.symm.trans isInstance) parents
    rw [← offset isInstance, same, placed.isOwner] at isOwner
    cases isOwner
    obtain ⟨scope, other, notStar, describes, name⟩ := laid.described _ info isParent
    obtain ⟨-, propertyNotStar, -⟩ := instanceProperties_scope isProperty
    obtain ⟨names, -, -⟩ := infoName_injective other.plain property.declaration.plain notStar
      propertyNotStar (describes.name.symm.trans placed.describes.name)
    apply kept (placed.describes.visibility ▸ visible)
    rw [← names, name]
    exact List.mem_map_of_mem isDeclared

/-- What the class does not declare again stays as it was. -/
theorem Child.placed (child : Child parent declaration ce)
    (laid : Laid declarations parent parents)
    (isNew : declaration.name ∉ declarations.map ClassDeclaration.name)
    (isProperty : property ∈ instanceProperties declarations)
    (placed : Placed parent parents property info)
    (kept : property.declaration.visibility ≠ .accPrivate → property.declaration.name ∉
      declaration.properties.map PropertyDeclaration.name) :
    Placed ce (parent :: parents) property info := by
  have apart : ∀ declared ∈ declaration.properties, ∀ own,
      ce.propertiesInfo.find declared.name = some own → own.isStatic = false →
        own.offset ≠ info.offset :=
    fun _ isDeclared _ found isInstance =>
      child.apart_of_placed laid isProperty placed kept isDeclared found isInstance
  have different : declaration.name ≠ property.scope := by
    intro same
    exact isNew (same ▸ (instanceProperties_scope isProperty).1)
  refine ⟨placed.describes, placed.isInstance, ?_, ?_, ?_, ?_, ?_⟩
  · rcases owner_cons_cases with ⟨member, other, found, isInstance, offset, isOwner⟩ | ⟨-, same⟩
    · rw [isOwner]
      by_cases isIn : member ∈ declaration.properties.map PropertyDeclaration.name
      · obtain ⟨declared, isDeclared, rfl⟩ := List.mem_map.mp isIn
        exact absurd offset (apart declared isDeclared other found isInstance)
      · rw [child.inherited member isIn] at found
        rw [← laid.slotted.owner_eq found isInstance parents, offset]
        exact placed.isOwner
    · exact same.trans placed.isOwner
  · exact Nat.lt_of_lt_of_le placed.bounded child.count
  · rcases child.below info.offset placed.bounded with
      same | ⟨declared, isDeclared, own, found, isInstance, offset⟩
    · exact same.trans placed.value
    · exact absurd offset (apart declared isDeclared own found isInstance)
  · obtain ⟨nearest, found, isNearest⟩ := placed.found
    by_cases isIn : property.declaration.name ∈
        declaration.properties.map PropertyDeclaration.name
    · have isPrivate : property.declaration.visibility = .accPrivate := by
        by_contra visible
        exact kept visible isIn
      obtain ⟨declared, isDeclared, name⟩ := List.mem_map.mp isIn
      obtain ⟨own, isOwn, describes, -, merged, -⟩ := child.own declared isDeclared
      rw [name] at isOwn merged
      refine ⟨own, isOwn, Or.inr ⟨isPrivate, (merged nearest found).1 ?_, ?_⟩⟩
      · rcases isNearest with rfl | ⟨-, isChanged, -⟩
        · exact Or.inl (placed.describes.visibility.trans isPrivate)
        · exact Or.inr isChanged
      · exact describes.ce ▸ different
    · exact ⟨nearest, (child.inherited _ isIn).trans found, isNearest⟩
  · obtain ⟨declaring, above, line, name, found⟩ := placed.declared
    refine ⟨declaring, above, ?_, name, found⟩
    rw [ancestry_other (child.name ▸ different), line]

theorem laid_compileClass (declaration : ClassDeclaration) :
    Laid [declaration] (compileClass declaration) [] := by
  have compiled := compileClass_compiled declaration
  refine ⟨congrArg (· :: []) compiled.name, compiled.toSlotted, ?_, ?_, ?_⟩
  · intro member info found
    obtain ⟨declared, -, name, describes⟩ := compiled.mem_of_find found
    exact ⟨declaration.name, declared, declaration.notStar, describes, name⟩
  · intro property isProperty
    obtain ⟨scope, declared⟩ := property
    rcases mem_instanceProperties_cons.mp isProperty with ⟨rfl, isDeclared, isStatic⟩ | ⟨⟨⟩, -⟩
    obtain ⟨info, found, describes, -, value⟩ := compiled.declared declared isDeclared
    have isInstance := describes.isStatic.trans isStatic
    exact ⟨info, placed_of_declared compiled.toSlotted compiled.name found describes isInstance
      (value isInstance)⟩
  · intro slot initialised
    obtain ⟨member, info, found, isInstance, offset⟩ := compiled.covered slot initialised
    obtain ⟨declared, isDeclared, rfl, -⟩ := compiled.mem_of_find found
    obtain ⟨own, isOwn, describes, -, value⟩ := compiled.declared declared isDeclared
    cases Option.some.inj (found.symm.trans isOwn)
    refine ⟨⟨declaration.name, declared⟩, ?_, info, ?_, offset⟩
    · exact mem_instanceProperties_cons.mpr
        (Or.inl ⟨rfl, isDeclared, describes.isStatic.symm.trans isInstance⟩)
    · exact placed_of_declared compiled.toSlotted compiled.name found describes isInstance
        (value isInstance)

/-- What the child declares is placed where its info says. -/
theorem Child.placed_own (child : Child parent declaration ce)
    (declarations : List ClassDeclaration) {declared : PropertyDeclaration}
    (isDeclared : declared ∈ declaration.properties)
    (found : ce.propertiesInfo.find declared.name = some info)
    (isInstance : info.isStatic = false) :
    ⟨declaration.name, declared⟩ ∈ instanceProperties (declaration :: declarations) ∧
      Placed ce parents ⟨declaration.name, declared⟩ info := by
  obtain ⟨_, isOwn, describes, value, -⟩ := child.own declared isDeclared
  cases Option.some.inj (found.symm.trans isOwn)
  have isStatic := describes.isStatic.symm.trans isInstance
  exact ⟨mem_instanceProperties_cons.mpr (Or.inl ⟨rfl, isDeclared, isStatic⟩),
    placed_of_declared child.toSlotted child.name found describes isInstance
      (value isInstance)⟩

/-- A slot of the parent that has a default goes on with its property or has that of the child. -/
theorem Child.covered_below (child : Child parent declaration ce)
    (laid : Laid declarations parent parents)
    (isNew : declaration.name ∉ declarations.map ClassDeclaration.name) {slot : Nat}
    (initialised : parent.defaultPropertiesTable slot ≠ .undef) :
    ∃ property ∈ instanceProperties (declaration :: declarations), ∃ info,
      Placed ce (parent :: parents) property info ∧ info.offset = slot := by
  obtain ⟨property, before, info, placed, rfl⟩ := laid.covered slot initialised
  by_cases kept : property.declaration.visibility ≠ .accPrivate →
      property.declaration.name ∉ declaration.properties.map PropertyDeclaration.name
  · exact ⟨property, mem_instanceProperties_cons.mpr (Or.inr ⟨before, kept⟩), info,
      child.placed laid isNew before placed kept, rfl⟩
  · -- the class declares the property again and takes over its slot
    rw [Classical.not_imp, not_not] at kept
    obtain ⟨visible, isIn⟩ := kept
    obtain ⟨declared, isDeclared, name⟩ := List.mem_map.mp isIn
    obtain ⟨own, isOwn, -, -, merged, -⟩ := child.own declared isDeclared
    obtain ⟨nearest, isNearest, rfl | ⟨isPrivate, -⟩⟩ := placed.found
    · obtain ⟨static, offset⟩ := (merged nearest (name ▸ isNearest)).2
        (placed.describes.visibility ▸ visible)
      have isInstance := static.trans placed.isInstance
      obtain ⟨isProperty, ownPlaced⟩ := child.placed_own declarations isDeclared isOwn isInstance
      exact ⟨_, isProperty, own, ownPlaced, offset isInstance⟩
    · exact absurd isPrivate visible

theorem Child.laid (child : Child parent declaration ce) (laid : Laid declarations parent parents)
    (isNew : declaration.name ∉ declarations.map ClassDeclaration.name) :
    Laid (declaration :: declarations) ce (parent :: parents) := by
  refine ⟨congrArg₂ List.cons child.name laid.names, child.toSlotted, ?_, ?_, ?_⟩
  · intro member info found
    by_cases isIn : member ∈ declaration.properties.map PropertyDeclaration.name
    · obtain ⟨declared, isDeclared, rfl⟩ := List.mem_map.mp isIn
      obtain ⟨_, isOwn, describes, -⟩ := child.own declared isDeclared
      cases Option.some.inj (found.symm.trans isOwn)
      exact ⟨declaration.name, declared, declaration.notStar, describes, rfl⟩
    · exact laid.described member info ((child.inherited member isIn).symm.trans found)
  · intro property isProperty
    rcases mem_instanceProperties_cons.mp isProperty with
      ⟨scope, isDeclared, isStatic⟩ | ⟨before, kept⟩
    · obtain ⟨_, declared⟩ := property
      cases scope
      obtain ⟨info, found, describes, -⟩ := child.own declared isDeclared
      exact ⟨info,
        (child.placed_own declarations isDeclared found (describes.isStatic.trans isStatic)).2⟩
    · obtain ⟨info, placed⟩ := laid.placed property before
      exact ⟨info, child.placed laid isNew before placed kept⟩
  · intro slot initialised
    have ofOwn : (∃ declared ∈ declaration.properties, ∃ info,
        ce.propertiesInfo.find declared.name = some info ∧ info.isStatic = false ∧
          info.offset = slot) →
        ∃ property ∈ instanceProperties (declaration :: declarations), ∃ info,
          Placed ce (parent :: parents) property info ∧ info.offset = slot := by
      rintro ⟨declared, isDeclared, info, found, isInstance, offset⟩
      obtain ⟨isProperty, placed⟩ := child.placed_own declarations isDeclared found isInstance
      exact ⟨_, isProperty, info, placed, offset⟩
    rcases Nat.lt_or_ge slot parent.defaultPropertiesCount with less | above
    · rcases child.below slot less with same | own
      · exact child.covered_below laid isNew (same ▸ initialised)
      · exact ofOwn own
    · exact ofOwn (child.above slot above initialised)

/-- Linking lays out the properties of every class. -/
theorem linkClasses_laid {ces : List ClassEntry} (linked : linkClasses declarations = some ces) :
    (declarations.map ClassDeclaration.name).Nodup ∧ (ces = [] → declarations = []) ∧
      ∀ ce parents, ces = ce :: parents → Laid declarations ce parents := by
  induction declarations generalizing ces with
  | nil =>
    cases linked
    exact ⟨List.nodup_nil, fun _ => rfl, nofun⟩
  | cons declaration declarations ih =>
    obtain ⟨parents, isParents, linked⟩ := Option.bind_eq_some_iff.mp linked
    obtain ⟨distinct, empty, laid⟩ := ih isParents
    obtain ⟨isNew, linked⟩ := Option.ite_none_left_eq_some.mp linked
    cases parents with
    | nil =>
      cases linked
      cases empty rfl
      refine ⟨List.nodup_singleton _, nofun, ?_⟩
      rintro ce parents ⟨⟩
      exact laid_compileClass declaration
    | cons parent parents =>
      have laidParent := laid parent parents rfl
      rw [laidParent.names] at isNew
      obtain ⟨child, inherits, ⟨⟩⟩ := Option.map_eq_some_iff.mp linked
      refine ⟨List.nodup_cons.mpr ⟨isNew, distinct⟩, nofun, ?_⟩
      rintro ce line ⟨⟩
      exact (doInheritance_child laidParent.slotted inherits).laid laidParent isNew

/-- Infos that are visited under one name are in one slot: each describes a property, what is
not private goes on in the class of the object, and what is private is in one class only. -/
structure Named (names : List Bytes) (ce : ClassEntry) (parents : List ClassEntry) : Prop where
  described : ∀ info ∈ visitedInfos (ce :: parents), ∃ scope declared, scope ∈ names ∧
    scope ≠ [42] ∧ info.Describes scope declared ∧
      (info.isStatic = false → info.visibility ≠ .accPrivate → ∃ nearest,
        ce.propertiesInfo.find declared.name = some nearest ∧ nearest.isStatic = false ∧
          nearest.visibility ≠ .accPrivate ∧ nearest.offset = info.offset)
  alone : ∀ info ∈ visitedInfos (ce :: parents), ∀ other ∈ visitedInfos (ce :: parents),
    info.visibility = .accPrivate → info.name = other.name → info = other

theorem mem_visitedInfos_cons : info ∈ visitedInfos (ce :: parents) ↔
    (∃ member, ce.propertiesInfo.find member = some info) ∨ info ∈ visitedInfos parents := by
  rw [visitedInfos, List.flatMap_cons, List.mem_append]
  apply or_congr_left
  constructor
  · intro isIn
    obtain ⟨⟨member, _⟩, isEntry, rfl⟩ := List.mem_map.mp isIn
    exact ⟨member, OrderedTable.find_eq_some_iff.mpr isEntry⟩
  · rintro ⟨member, found⟩
    exact List.mem_map.mpr ⟨(member, info), OrderedTable.find_eq_some_iff.mp found, rfl⟩

theorem Named.offset_eq {names : List Bytes} (named : Named names ce parents)
    {other : PropertyInfo} (isIn : info ∈ visitedInfos (ce :: parents))
    (isOther : other ∈ visitedInfos (ce :: parents)) (isInstance : info.isStatic = false)
    (otherInstance : other.isStatic = false) (same : info.name = other.name) :
    info.offset = other.offset := by
  by_cases isPrivate : info.visibility = .accPrivate
  · rw [named.alone info isIn other isOther isPrivate same]
  · obtain ⟨scope, declared, -, notStar, describes, continued⟩ := named.described info isIn
    obtain ⟨otherScope, otherDeclared, -, otherNotStar, otherDescribes, otherContinued⟩ :=
      named.described other isOther
    rw [describes.name, otherDescribes.name] at same
    obtain ⟨names, visibilities, -⟩ :=
      infoName_injective declared.plain otherDeclared.plain notStar otherNotStar same
    rw [← describes.visibility, ← otherDescribes.visibility] at visibilities
    obtain ⟨nearest, found, -, -, offset⟩ := continued isInstance isPrivate
    obtain ⟨otherNearest, otherFound, -, -, otherOffset⟩ :=
      otherContinued otherInstance (visibilities ▸ isPrivate)
    rw [← names, found] at otherFound
    cases otherFound
    exact offset.symm.trans otherOffset

theorem named_compileClass (declaration : ClassDeclaration) :
    Named [declaration.name] (compileClass declaration) [] := by
  have compiled := compileClass_compiled declaration
  refine ⟨?_, ?_⟩
  · intro info isIn
    obtain ⟨member, found⟩ := (mem_visitedInfos_cons.mp isIn).resolve_right List.not_mem_nil
    obtain ⟨declared, -, name, describes⟩ := compiled.mem_of_find found
    exact ⟨declaration.name, declared, List.mem_cons_self, declaration.notStar, describes,
      fun isInstance visible => ⟨info, name ▸ found, isInstance, visible, rfl⟩⟩
  · intro info isIn other isOther isPrivate same
    obtain ⟨member, found⟩ := (mem_visitedInfos_cons.mp isIn).resolve_right List.not_mem_nil
    obtain ⟨otherMember, otherFound⟩ :=
      (mem_visitedInfos_cons.mp isOther).resolve_right List.not_mem_nil
    obtain ⟨declared, -, rfl, describes⟩ := compiled.mem_of_find found
    obtain ⟨otherDeclared, -, rfl, otherDescribes⟩ := compiled.mem_of_find otherFound
    rw [describes.name, otherDescribes.name] at same
    obtain ⟨names, -, -⟩ := infoName_injective declared.plain otherDeclared.plain
      declaration.notStar declaration.notStar same
    rw [names, otherFound] at found
    exact (Option.some.inj found).symm

/-- What a child finds is its own or that of its parent. -/
theorem Child.find_cases (child : Child parent declaration ce) {member : Bytes}
    (found : ce.propertiesInfo.find member = some info) :
    (∃ property ∈ declaration.properties, property.name = member ∧
      info.Describes declaration.name property) ∨ parent.propertiesInfo.find member = some info := by
  by_cases isIn : member ∈ declaration.properties.map PropertyDeclaration.name
  · obtain ⟨property, isProperty, rfl⟩ := List.mem_map.mp isIn
    obtain ⟨own, isOwn, describes, -⟩ := child.own property isProperty
    cases Option.some.inj (found.symm.trans isOwn)
    exact Or.inl ⟨property, isProperty, rfl, describes⟩
  · exact Or.inr ((child.inherited member isIn).symm.trans found)

/-- What is not private in the parent goes on in the child. -/
theorem Child.continues (child : Child parent declaration ce) {member : Bytes}
    (found : parent.propertiesInfo.find member = some info) (isInstance : info.isStatic = false)
    (visible : info.visibility ≠ .accPrivate) :
    ∃ nearest, ce.propertiesInfo.find member = some nearest ∧ nearest.isStatic = false ∧
      nearest.visibility ≠ .accPrivate ∧ nearest.offset = info.offset := by
  by_cases isIn : member ∈ declaration.properties.map PropertyDeclaration.name
  · obtain ⟨property, isProperty, rfl⟩ := List.mem_map.mp isIn
    obtain ⟨own, isOwn, describes, -, merged, -⟩ := child.own property isProperty
    obtain ⟨static, offset⟩ := (merged info found).2 visible
    have ownInstance := static.trans isInstance
    refine ⟨own, isOwn, ownInstance, ?_, offset ownInstance⟩
    rw [describes.visibility]
    exact child.visible property isProperty info found visible
  · exact ⟨info, (child.inherited member isIn).trans found, isInstance, visible, rfl⟩

theorem Child.named (child : Child parent declaration ce) {names : List Bytes}
    (named : Named names parent parents) (isNew : declaration.name ∉ names) :
    Named (declaration.name :: names) ce (parent :: parents) := by
  -- an info of the child is its own or one that has been visited
  have split : ∀ info ∈ visitedInfos (ce :: parent :: parents),
      (∃ property ∈ declaration.properties, ce.propertiesInfo.find property.name = some info ∧
        info.Describes declaration.name property) ∨ info ∈ visitedInfos (parent :: parents) := by
    intro info isIn
    rcases mem_visitedInfos_cons.mp isIn with ⟨member, found⟩ | above
    · rcases child.find_cases found with ⟨property, isProperty, rfl, describes⟩ | atParent
      · exact Or.inl ⟨property, isProperty, found, describes⟩
      · exact Or.inr (mem_visitedInfos_cons.mpr (Or.inl ⟨member, atParent⟩))
    · exact Or.inr above
  -- no private property of the child has the name of an info above
  have apart : ∀ property ∈ declaration.properties, ∀ info other : PropertyInfo,
      info.Describes declaration.name property → other ∈ visitedInfos (parent :: parents) →
        (info.visibility = .accPrivate ∨ other.visibility = .accPrivate) →
          info.name ≠ other.name := by
    intro property isProperty info other describes isOther isPrivate same
    obtain ⟨scope, declared, isScope, notStar, otherDescribes, -⟩ := named.described other isOther
    rw [describes.name, otherDescribes.name] at same
    obtain ⟨-, visibilities, scopes⟩ := infoName_injective property.plain declared.plain
      declaration.notStar notStar same
    apply isNew
    rw [describes.visibility, otherDescribes.visibility, ← visibilities, or_self] at isPrivate
    rw [scopes isPrivate]
    exact isScope
  refine ⟨?_, ?_⟩
  · intro info isIn
    rcases split info isIn with ⟨property, isProperty, found, describes⟩ | above
    · exact ⟨declaration.name, property, List.mem_cons_self, declaration.notStar, describes,
        fun isInstance visible => ⟨info, found, isInstance, visible, rfl⟩⟩
    · obtain ⟨scope, declared, isScope, notStar, describes, continued⟩ :=
        named.described info above
      refine ⟨scope, declared, List.mem_cons_of_mem _ isScope, notStar, describes, ?_⟩
      intro isInstance visible
      obtain ⟨nearest, found, nearestInstance, nearestVisible, offset⟩ :=
        continued isInstance visible
      obtain ⟨own, isOwn, ownInstance, ownVisible, ownOffset⟩ :=
        child.continues found nearestInstance nearestVisible
      exact ⟨own, isOwn, ownInstance, ownVisible, ownOffset.trans offset⟩
  · intro info isIn other isOther isPrivate same
    rcases split info isIn with ⟨property, isProperty, found, describes⟩ | above <;>
      rcases split other isOther with
        ⟨otherProperty, isOtherProperty, otherFound, otherDescribes⟩ | otherAbove
    · rw [describes.name, otherDescribes.name] at same
      obtain ⟨names, -, -⟩ := infoName_injective property.plain otherProperty.plain
        declaration.notStar declaration.notStar same
      rw [names, otherFound] at found
      exact (Option.some.inj found).symm
    · exact absurd same
        (apart property isProperty info other describes otherAbove (Or.inl isPrivate))
    · exact absurd same.symm
        (apart otherProperty isOtherProperty other info otherDescribes above (Or.inr isPrivate))
    · exact named.alone info above other otherAbove isPrivate same

/-- The infos that are visited are named as the classes are written. -/
theorem linkClasses_named {ces : List ClassEntry} (linked : linkClasses declarations = some ces)
    (parents : List ClassEntry) (isLine : ces = ce :: parents) :
    Named (declarations.map ClassDeclaration.name) ce parents := by
  induction declarations generalizing ces ce parents with
  | nil =>
    cases linked
    cases isLine
  | cons declaration declarations ih =>
    obtain ⟨above, isAbove, linked⟩ := Option.bind_eq_some_iff.mp linked
    obtain ⟨-, empty, laid⟩ := linkClasses_laid isAbove
    obtain ⟨isNew, linked⟩ := Option.ite_none_left_eq_some.mp linked
    cases above with
    | nil =>
      cases empty rfl
      cases linked
      cases isLine
      exact named_compileClass declaration
    | cons parent above =>
      have laidParent := laid parent above rfl
      rw [laidParent.names] at isNew
      obtain ⟨child, inherits, isChild⟩ := Option.map_eq_some_iff.mp linked
      cases isChild.trans isLine
      exact (doInheritance_child laidParent.slotted inherits).named (ih isAbove above rfl) isNew

end Layouts

section Resolution

variable {ce : ClassEntry} {parents : List ClassEntry} {info : PropertyInfo}
  {property : Property}

/-- A private property is found even where a class below has declared the name again. -/
theorem Placed.getParentPrivateProperty_eq {declaring : ClassEntry} {above : List ClassEntry}
    (placed : Placed ce parents property info)
    (isPrivate : property.declaration.visibility = .accPrivate)
    (line : ancestry (ce :: parents) property.scope = declaring :: above)
    (name : declaring.name = property.scope) (different : declaring.name ≠ ce.name)
    (isDeclared : declaring.propertiesInfo.find property.declaration.name = some info) :
    getParentPrivateProperty (declaring :: above) (ce :: parents) property.declaration.name =
      some info := by
  rw [ancestry_other (name ▸ different.symm)] at line
  have isParent : declaring ∈ parents :=
    (List.dropWhile_suffix _).subset (line ▸ List.mem_cons_self)
  have derived : isDerivedClass (ce :: parents) declaring.name = true :=
    decide_eq_true (List.mem_map_of_mem isParent)
  have own : info.visibility = .accPrivate ∧ info.ce = declaring.name :=
    ⟨placed.describes.visibility.trans isPrivate, placed.describes.ce.trans name.symm⟩
  rw [getParentPrivateProperty, if_pos ⟨different, derived⟩, isDeclared, Option.filter_some,
    if_pos (decide_eq_true own)]

theorem Placed.getPropertyInfo_eq (placed : Placed ce parents property info) :
    getPropertyInfo (ce :: parents) (ancestry (ce :: parents) property.scope)
      property.declaration.name = .found info := by
  obtain ⟨nearest, found, isNearest⟩ := placed.found
  obtain ⟨declaring, above, line, name, isDeclared⟩ := placed.declared
  have inScope : some info.ce = some declaring.name :=
    congrArg some (placed.describes.ce.trans name.symm)
  rw [line, getPropertyInfo, List.head?_cons, Option.bind_some, found]
  dsimp only
  rw [List.head?_cons, Option.map_some]
  by_cases same : nearest = info
  · rw [same, if_neg fun outside => outside.2 inScope]
  · obtain ⟨isPrivate, isChanged, elsewhere⟩ := isNearest.resolve_left same
    have outside : some nearest.ce ≠ some declaring.name :=
      fun inside => elsewhere ((Option.some.inj inside).trans name)
    have different : declaring.name ≠ ce.name := by
      intro isSelf
      -- the class itself would find its own property
      rw [← name, isSelf, ancestry_self] at line
      cases line
      exact same (Option.some.inj (found.symm.trans isDeclared))
    rw [if_pos ⟨Or.inl isChanged, outside⟩, if_pos isChanged,
      placed.getParentPrivateProperty_eq isPrivate line name different isDeclared]

/-- From the class that declares it, a property is found under the name in its info. -/
theorem Placed.propertyKey_eq (placed : Placed ce parents property info) :
    propertyKey (ce :: parents) (ancestry (ce :: parents) property.scope)
      property.declaration.name = some property.name := by
  rw [propertyKey, placed.getPropertyInfo_eq]
  dsimp only
  rw [if_neg (Bool.eq_false_iff.mp placed.isInstance), placed.describes.name, Property.name]

end Resolution

end Pthreads.PropertyTables
