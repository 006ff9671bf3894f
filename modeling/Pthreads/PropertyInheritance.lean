import Pthreads.PartialFolds
import Pthreads.PropertyTables

/-!
# What inheritance does to the tables

A class that is not linked has a slot for each instance property that it declares.  Taking
over the properties of the parent gives a property that is declared again the slot that it
has there, and leaves its own one empty.
-/

namespace Pthreads.PropertyTables

open Store (Bytes Zval)
open PartialFolds

/-- An info is that of a declared property. -/
structure PropertyInfo.Describes (info : PropertyInfo) (scope : Bytes)
    (property : PropertyDeclaration) : Prop where
  name : info.name = infoName property.visibility scope property.name
  ce : info.ce = scope
  visibility : info.visibility = property.visibility
  isStatic : info.isStatic = property.isStatic

/-- Instance properties have slots of their own, and other slots are not initialised. -/
structure ClassEntry.Slotted (ce : ClassEntry) : Prop where
  bounded : ∀ member info, ce.propertiesInfo.find member = some info →
    info.isStatic = false → info.offset < ce.defaultPropertiesCount
  injective : ∀ member other info otherInfo, ce.propertiesInfo.find member = some info →
    ce.propertiesInfo.find other = some otherInfo → info.isStatic = false →
      otherInfo.isStatic = false → info.offset = otherInfo.offset → member = other

/-- A class entry with the properties that have been declared so far. -/
structure Compiled (scope : Bytes) (done : List PropertyDeclaration) (ce : ClassEntry) :
    Prop extends ce.Slotted where
  name : ce.name = scope
  declared : ∀ property ∈ done, ∃ info, ce.propertiesInfo.find property.name = some info ∧
    info.Describes scope property ∧ info.changed = false ∧
      (info.isStatic = false → ce.defaultPropertiesTable info.offset = property.value)
  undeclared : ∀ member, member ∉ done.map PropertyDeclaration.name →
    ce.propertiesInfo.find member = none
  covered : ∀ slot, ce.defaultPropertiesTable slot ≠ .undef → ∃ member info,
    ce.propertiesInfo.find member = some info ∧ info.isStatic = false ∧ info.offset = slot

/-- Items with names of their own have names that those before them do not have. -/
theorem notMem_of_nodup_map {Item : Type} {name : Item → Bytes} {visited others : List Item}
    {item : Item} (distinct : ((visited ++ item :: others).map name).Nodup) :
    name item ∉ visited.map name := by
  rw [List.map_append, List.nodup_append] at distinct
  exact fun isIn => distinct.2.2 _ isIn _ List.mem_cons_self rfl

section Compiling

variable {scope : Bytes} {done : List PropertyDeclaration} {ce : ClassEntry}
  {property : PropertyDeclaration}

/-- An info comes in, with a slot of its own if it is that of an instance property. -/
theorem Compiled.add (compiled : Compiled scope done ce) {after : ClassEntry} {info : PropertyInfo}
    (isNew : property.name ∉ done.map PropertyDeclaration.name)
    (name : after.name = ce.name)
    (infos : after.propertiesInfo = ce.propertiesInfo.update property.name info)
    (describes : info.Describes scope property) (unchanged : info.changed = false)
    (counts : ce.defaultPropertiesCount ≤ after.defaultPropertiesCount)
    (kept : ∀ slot < ce.defaultPropertiesCount,
      after.defaultPropertiesTable slot = ce.defaultPropertiesTable slot)
    (own : info.isStatic = false → ce.defaultPropertiesCount ≤ info.offset ∧
      info.offset < after.defaultPropertiesCount ∧
        after.defaultPropertiesTable info.offset = property.value)
    (covered : ∀ slot, after.defaultPropertiesTable slot ≠ .undef →
      ce.defaultPropertiesTable slot ≠ .undef ∨ info.isStatic = false ∧ info.offset = slot) :
    Compiled scope (done ++ [property]) after := by
  have missing := compiled.undeclared property.name isNew
  have before : ∀ member found, ce.propertiesInfo.find member = some found →
      after.propertiesInfo.find member = some found := by
    intro member found isFound
    rw [infos, OrderedTable.find_update_other]
    · exact isFound
    · rintro rfl
      cases missing.symm.trans isFound
  have added : after.propertiesInfo.find property.name = some info := by
    rw [infos, OrderedTable.find_update_same]
  have cases : ∀ member found, after.propertiesInfo.find member = some found →
      member = property.name ∧ found = info ∨ ce.propertiesInfo.find member = some found := by
    intro member found isFound
    rw [infos] at isFound
    exact (OrderedTable.find_update_cases isFound).imp_right And.right
  refine ⟨⟨?_, ?_⟩, name.trans compiled.name, ?_, ?_, ?_⟩
  · intro member found isFound isInstance
    rcases cases member found isFound with ⟨rfl, rfl⟩ | old
    · exact (own isInstance).2.1
    · exact Nat.lt_of_lt_of_le (compiled.bounded member found old isInstance) counts
  · intro first second found other isFound isOther isInstance otherInstance same
    rcases cases first found isFound with ⟨rfl, rfl⟩ | old <;>
      rcases cases second other isOther with ⟨rfl, rfl⟩ | otherOld
    · rfl
    · have less := compiled.bounded second other otherOld otherInstance
      exact absurd (same ▸ (own isInstance).1) (Nat.not_le.mpr less)
    · have less := compiled.bounded first found old isInstance
      exact absurd (same ▸ (own otherInstance).1) (Nat.not_le.mpr (same ▸ less))
    · exact compiled.injective first second found other old otherOld isInstance otherInstance same
  · intro declared isIn
    rcases List.mem_append.mp isIn with old | isLast
    · obtain ⟨found, isFound, describesOld, unchangedOld, value⟩ := compiled.declared declared old
      refine ⟨found, before _ found isFound, describesOld, unchangedOld, fun isInstance => ?_⟩
      rw [kept _ (compiled.bounded _ found isFound isInstance)]
      exact value isInstance
    · cases List.mem_singleton.mp isLast
      exact ⟨info, added, describes, unchanged, fun isInstance => (own isInstance).2.2⟩
  · intro member outside
    rw [List.map_append, List.mem_append, not_or] at outside
    rw [infos, OrderedTable.find_update_other _ _ fun same =>
      outside.2 (List.mem_singleton.mpr same)]
    exact compiled.undeclared member outside.1
  · intro slot initialised
    rcases covered slot initialised with old | ⟨isInstance, offset⟩
    · obtain ⟨member, found, isFound, place⟩ := compiled.covered slot old
      exact ⟨member, found, before member found isFound, place⟩
    · exact ⟨property.name, info, added, isInstance, offset⟩

theorem Compiled.declare (compiled : Compiled scope done ce)
    (isNew : property.name ∉ done.map PropertyDeclaration.name) :
    Compiled scope (done ++ [property]) (declareTypedProperty ce property) := by
  have describes : ∀ offset, PropertyInfo.Describes
      ⟨infoName property.visibility ce.name property.name, ce.name, property.visibility,
        property.isStatic, false, offset⟩ scope property :=
    fun offset => ⟨by rw [compiled.name], compiled.name, rfl, rfl⟩
  cases isStatic : property.isStatic with
  | true =>
    rw [declareTypedProperty, if_pos isStatic]
    exact compiled.add isNew rfl rfl (describes _) rfl (Nat.le_refl _) (fun _ _ => rfl)
      (fun isInstance => absurd isStatic (Bool.eq_false_iff.mp isInstance))
      fun _ initialised => Or.inl initialised
  | false =>
    rw [declareTypedProperty, if_neg (Bool.eq_false_iff.mp isStatic)]
    refine compiled.add isNew rfl rfl (describes _) rfl (Nat.le_succ _) ?_ ?_ ?_
    · exact fun slot less => Function.update_of_ne (Nat.ne_of_lt less) ..
    · exact fun _ => ⟨Nat.le_refl _, Nat.lt_succ_self _, Function.update_self ..⟩
    · intro slot initialised
      dsimp only at initialised
      rw [Function.update_apply] at initialised
      split at initialised
      · next isLast => exact Or.inr ⟨isStatic, isLast.symm⟩
      · exact Or.inl initialised

theorem compileClass_compiled (declaration : ClassDeclaration) :
    Compiled declaration.name declaration.properties (compileClass declaration) := by
  have start : Compiled declaration.name []
      ⟨declaration.name, OrderedTable.empty, fun _ => .undef, 0, 0⟩ :=
    ⟨⟨nofun, nofun⟩, rfl, nofun, fun _ _ => rfl, fun _ initialised => absurd rfl initialised⟩
  refine foldl_prefix ?_ start
  intro done property others whole ce compiled
  exact compiled.declare (notMem_of_nodup_map (whole ▸ declaration.distinct))

end Compiling

/-- The infos of a child when those of its parent in a list have been taken over. -/
structure InheritedInfos (extended : ClassEntry) (done : List (Bytes × PropertyInfo))
    (ce : ClassEntry) : Prop where
  name : ce.name = extended.name
  count : ce.defaultPropertiesCount = extended.defaultPropertiesCount
  other : ∀ member, member ∉ done.map Prod.fst →
    ce.propertiesInfo.find member = extended.propertiesInfo.find member
  taken : ∀ entry ∈ done, extended.propertiesInfo.find entry.1 = none →
    ce.propertiesInfo.find entry.1 = some entry.2
  redeclared : ∀ entry ∈ done, ∀ child, extended.propertiesInfo.find entry.1 = some child →
    ce.propertiesInfo.find entry.1 = some (entry.2.redeclare child) ∧
      (entry.2.visibility ≠ .accPrivate → entry.2.isStatic = child.isStatic)
  visible : ∀ entry ∈ done, ∀ child, extended.propertiesInfo.find entry.1 = some child →
    entry.2.visibility ≠ .accPrivate → child.visibility ≠ .accPrivate

/-- The entry of a child, with its slots, when the properties of its parent in a list have been
taken over. -/
structure Inherited (extended : ClassEntry) (done : List (Bytes × PropertyInfo))
    (ce : ClassEntry) : Prop extends InheritedInfos extended done ce where
  moved : ∀ entry ∈ done, ∀ child, extended.propertiesInfo.find entry.1 = some child →
    mergesSlots entry.2 child = true →
      ce.defaultPropertiesTable entry.2.offset = extended.defaultPropertiesTable child.offset ∧
        ce.defaultPropertiesTable child.offset = .undef
  kept : ∀ slot, (∀ entry ∈ done, ∀ child,
    extended.propertiesInfo.find entry.1 = some child → mergesSlots entry.2 child = true →
      entry.2.offset ≠ slot ∧ child.offset ≠ slot) →
        ce.defaultPropertiesTable slot = extended.defaultPropertiesTable slot

/-- Slots that are merged have nothing to do with each other. -/
def Apart (extended : ClassEntry) (entries : List (Bytes × PropertyInfo)) : Prop :=
  ∀ entry ∈ entries, ∀ other ∈ entries, ∀ child otherChild,
    extended.propertiesInfo.find entry.1 = some child →
    extended.propertiesInfo.find other.1 = some otherChild →
    mergesSlots entry.2 child = true → mergesSlots other.2 otherChild = true →
    entry.2.isStatic = child.isStatic → other.2.isStatic = otherChild.isStatic →
      entry.2.offset ≠ otherChild.offset ∧ (entry.1 ≠ other.1 →
        entry.2.offset ≠ other.2.offset ∧ child.offset ≠ otherChild.offset)

theorem mergesSlots_iff {parentInfo childInfo : PropertyInfo} :
    mergesSlots parentInfo childInfo = true ↔
      parentInfo.visibility ≠ .accPrivate ∧ childInfo.isStatic = false := by
  rw [mergesSlots, Bool.and_eq_true_iff, decide_eq_true_iff, Bool.not_eq_true']

section Merging

variable {parentInfo childInfo : PropertyInfo} (table : Nat → Zval)

theorem mergeSlots_elsewhere {slot : Nat} (outside : mergesSlots parentInfo childInfo = true →
    parentInfo.offset ≠ slot ∧ childInfo.offset ≠ slot) :
    mergeSlots parentInfo childInfo table slot = table slot := by
  unfold mergeSlots
  split
  · next merges =>
    rw [Function.update_of_ne (outside merges).2.symm,
      Function.update_of_ne (outside merges).1.symm]
  · rfl

theorem mergeSlots_parent (merges : mergesSlots parentInfo childInfo = true)
    (apart : parentInfo.offset ≠ childInfo.offset) :
    mergeSlots parentInfo childInfo table parentInfo.offset = table childInfo.offset := by
  rw [mergeSlots, if_pos merges, Function.update_of_ne apart, Function.update_self]

theorem mergeSlots_child (merges : mergesSlots parentInfo childInfo = true) :
    mergeSlots parentInfo childInfo table childInfo.offset = .undef := by
  rw [mergeSlots, if_pos merges, Function.update_self]

end Merging

section Inheriting

variable {extended ce after : ClassEntry} {done : List (Bytes × PropertyInfo)}
  {entry : Bytes × PropertyInfo}

theorem Inherited.start (extended : ClassEntry) : Inherited extended [] extended :=
  ⟨⟨rfl, rfl, fun _ _ => rfl, nofun, nofun, nofun⟩, nofun, fun _ _ => rfl⟩

/-- One more info is taken over, or that of the child redeclares it. -/
theorem InheritedInfos.add (infos : InheritedInfos extended done ce)
    (isNew : entry.1 ∉ done.map Prod.fst) {info : PropertyInfo}
    (taken : extended.propertiesInfo.find entry.1 = none → info = entry.2)
    (redeclared : ∀ child, extended.propertiesInfo.find entry.1 = some child →
      info = entry.2.redeclare child ∧
        (entry.2.visibility ≠ .accPrivate → entry.2.isStatic = child.isStatic))
    (visible : ∀ child, extended.propertiesInfo.find entry.1 = some child →
      entry.2.visibility ≠ .accPrivate → child.visibility ≠ .accPrivate)
    (table : Nat → Zval) :
    InheritedInfos extended (done ++ [entry]) { ce with
      propertiesInfo := ce.propertiesInfo.update entry.1 info
      defaultPropertiesTable := table } := by
  have finds : ∀ old ∈ done,
      (ce.propertiesInfo.update entry.1 info).find old.1 = ce.propertiesInfo.find old.1 := by
    intro old isIn
    apply OrderedTable.find_update_other
    exact fun same => isNew (same ▸ List.mem_map_of_mem isIn)
  refine ⟨infos.name, infos.count, ?_, ?_, ?_, ?_⟩
  · intro member outside
    rw [List.map_append, List.mem_append, not_or] at outside
    dsimp only
    rw [OrderedTable.find_update_other _ _ fun same => outside.2 (List.mem_singleton.mpr same)]
    exact infos.other member outside.1
  · intro old isIn isMissing
    rcases List.mem_append.mp isIn with before | isLast
    · exact (finds old before).trans (infos.taken old before isMissing)
    · cases List.mem_singleton.mp isLast
      exact taken isMissing ▸ OrderedTable.find_update_same ..
  · intro old isIn child found
    rcases List.mem_append.mp isIn with before | isLast
    · exact ⟨(finds old before).trans (infos.redeclared old before child found).1,
        (infos.redeclared old before child found).2⟩
    · cases List.mem_singleton.mp isLast
      obtain ⟨same, static⟩ := redeclared child found
      exact ⟨same ▸ OrderedTable.find_update_same .., static⟩
  · intro old isIn child found
    rcases List.mem_append.mp isIn with before | isLast
    · exact infos.visible old before child found
    · cases List.mem_singleton.mp isLast
      exact visible child found

/-- A property that the child does not declare is taken over. -/
theorem Inherited.take (inherited : Inherited extended done ce)
    (isNew : entry.1 ∉ done.map Prod.fst)
    (missing : extended.propertiesInfo.find entry.1 = none) :
    Inherited extended (done ++ [entry])
      { ce with propertiesInfo := ce.propertiesInfo.update entry.1 entry.2 } := by
  refine ⟨inherited.add isNew (fun _ => rfl) (fun _ found => nomatch missing.symm.trans found)
    (fun _ found => nomatch missing.symm.trans found) _, ?_, ?_⟩
  · intro old isIn child found
    rcases List.mem_append.mp isIn with before | isLast
    · exact inherited.moved old before child found
    · cases List.mem_singleton.mp isLast
      cases missing.symm.trans found
  · exact fun slot apart => inherited.kept slot fun old isIn =>
      apart old (List.mem_append_left _ isIn)

/-- A property that the child declares again gets the slot of the parent, if that one is not
private. -/
theorem Inherited.redeclare (inherited : Inherited extended done ce)
    (isNew : entry.1 ∉ done.map Prod.fst) {child : PropertyInfo}
    (found : extended.propertiesInfo.find entry.1 = some child)
    (static : entry.2.visibility ≠ .accPrivate → entry.2.isStatic = child.isStatic)
    (visible : entry.2.visibility ≠ .accPrivate → child.visibility ≠ .accPrivate)
    (apart : Apart extended (done ++ [entry])) :
    Inherited extended (done ++ [entry]) { ce with
      propertiesInfo := ce.propertiesInfo.update entry.1 (entry.2.redeclare child)
      defaultPropertiesTable := mergeSlots entry.2 child ce.defaultPropertiesTable } := by
  have different : ∀ old ∈ done, old.1 ≠ entry.1 :=
    fun old isIn same => isNew (same ▸ List.mem_map_of_mem isIn)
  have isLast : entry ∈ done ++ [entry] := List.mem_append_right _ List.mem_cons_self
  have redeclared : ∀ other, extended.propertiesInfo.find entry.1 = some other →
      entry.2.redeclare child = entry.2.redeclare other ∧
        (entry.2.visibility ≠ .accPrivate → entry.2.isStatic = other.isStatic) := by
    intro other otherFound
    cases Option.some.inj (found.symm.trans otherFound)
    exact ⟨rfl, static⟩
  have staysVisible : ∀ other, extended.propertiesInfo.find entry.1 = some other →
      entry.2.visibility ≠ .accPrivate → other.visibility ≠ .accPrivate := by
    intro other otherFound
    cases Option.some.inj (found.symm.trans otherFound)
    exact visible
  refine ⟨inherited.add isNew (fun missing => nomatch missing.symm.trans found) redeclared
    staysVisible _, ?_, ?_⟩
  · intro old isIn oldChild oldFound oldMerges
    rcases List.mem_append.mp isIn with before | isNewest
    · obtain ⟨atParent, atChild⟩ := inherited.moved old before oldChild oldFound oldMerges
      have oldStatic := (inherited.redeclared old before oldChild oldFound).2
        (mergesSlots_iff.mp oldMerges).1
      dsimp only
      rw [mergeSlots_elsewhere, mergeSlots_elsewhere]
      · exact ⟨atParent, atChild⟩
      · intro merges
        have newest := apart entry isLast old isIn child oldChild found oldFound merges
          oldMerges (static (mergesSlots_iff.mp merges).1) oldStatic
        exact ⟨newest.1, (newest.2 (different old before).symm).2⟩
      · intro merges
        have older := apart old isIn entry isLast oldChild child oldFound found oldMerges
          merges oldStatic (static (mergesSlots_iff.mp merges).1)
        exact ⟨(older.2 (different old before)).1.symm, older.1.symm⟩
    · cases List.mem_singleton.mp isNewest
      cases Option.some.inj (found.symm.trans oldFound)
      have isStatic := static (mergesSlots_iff.mp oldMerges).1
      have own := apart entry isLast entry isLast child child found found oldMerges oldMerges
        isStatic isStatic
      refine ⟨(mergeSlots_parent _ oldMerges own.1).trans ?_, mergeSlots_child _ oldMerges⟩
      -- nothing has been put into the slot of the child so far
      apply inherited.kept
      intro earlier isEarlier earlierChild earlierFound earlierMerges
      have apartEarlier := apart earlier (List.mem_append_left _ isEarlier) entry isLast
        earlierChild child earlierFound found earlierMerges oldMerges
        ((inherited.redeclared earlier isEarlier earlierChild earlierFound).2
          (mergesSlots_iff.mp earlierMerges).1) isStatic
      exact ⟨apartEarlier.1, (apartEarlier.2 (different earlier isEarlier)).2⟩
  · intro slot outside
    refine (mergeSlots_elsewhere _ (outside entry isLast child found)).trans ?_
    exact inherited.kept slot fun old isIn => outside old (List.mem_append_left _ isIn)

theorem Inherited.step (inherited : Inherited extended done ce)
    (isNew : entry.1 ∉ done.map Prod.fst) (apart : Apart extended (done ++ [entry]))
    (inherits : doInheritProperty ce entry = some after) :
    Inherited extended (done ++ [entry]) after := by
  have same := inherited.other entry.1 isNew
  unfold doInheritProperty at inherits
  dsimp only at inherits
  split at inherits
  · next missing =>
    cases inherits
    exact inherited.take isNew (same.symm.trans missing)
  · next child found =>
    split at inherits
    · cases inherits
    · next accepted =>
      cases inherits
      refine inherited.redeclare isNew (same.symm.trans found) (fun visible => ?_)
        (fun visible isPrivate => ?_) apart
      · by_contra different
        exact accepted ⟨visible, Or.inl different⟩
      · -- a property that is not private in the parent cannot be so in the child
        apply accepted
        refine ⟨visible, Or.inr ?_⟩
        rw [isPrivate]
        cases isParent : entry.2.visibility with
        | accPublic => decide
        | accProtected => decide
        | accPrivate => exact absurd isParent visible

theorem inherited_foldlM {entries : List (Bytes × PropertyInfo)}
    (distinct : (entries.map Prod.fst).Nodup) (apart : Apart extended entries)
    (inherits : entries.foldlM doInheritProperty extended = some after) :
    Inherited extended entries after := by
  refine foldlM_prefix ?_ inherits (Inherited.start extended)
  rintro done entry others rfl ce after inherited first
  refine inherited.step (notMem_of_nodup_map distinct) ?_ first
  have visited : ∀ one ∈ done ++ [entry], one ∈ done ++ entry :: others := by
    intro one isIn
    rw [List.append_cons]
    exact List.mem_append_left _ isIn
  exact fun one isOne other isOther => apart one (visited one isOne) other (visited other isOther)

end Inheriting

/-- A class entry with room for the slots of its parent. -/
structure Extended (parent : ClassEntry) (declaration : ClassDeclaration) (ce : ClassEntry) :
    Prop where
  name : ce.name = declaration.name
  count : parent.defaultPropertiesCount ≤ ce.defaultPropertiesCount
  declared : ∀ property ∈ declaration.properties, ∃ info,
    ce.propertiesInfo.find property.name = some info ∧
      info.Describes declaration.name property ∧ info.changed = false ∧
      (info.isStatic = false → parent.defaultPropertiesCount ≤ info.offset ∧
        info.offset < ce.defaultPropertiesCount ∧
          ce.defaultPropertiesTable info.offset = property.value)
  undeclared : ∀ member, member ∉ declaration.properties.map PropertyDeclaration.name →
    ce.propertiesInfo.find member = none
  injective : ∀ member other info otherInfo, ce.propertiesInfo.find member = some info →
    ce.propertiesInfo.find other = some otherInfo → info.isStatic = false →
      otherInfo.isStatic = false → info.offset = otherInfo.offset → member = other
  below : ∀ slot < parent.defaultPropertiesCount,
    ce.defaultPropertiesTable slot = parent.defaultPropertiesTable slot
  covered : ∀ slot, parent.defaultPropertiesCount ≤ slot →
    ce.defaultPropertiesTable slot ≠ .undef → ∃ member info,
      ce.propertiesInfo.find member = some info ∧ info.isStatic = false ∧ info.offset = slot

section Extending

variable {ce : ClassEntry} {declaration : ClassDeclaration}

theorem Compiled.mem_of_find (compiled : Compiled declaration.name declaration.properties ce)
    {member : Bytes} {info : PropertyInfo} (found : ce.propertiesInfo.find member = some info) :
    ∃ property ∈ declaration.properties, property.name = member ∧
      info.Describes declaration.name property := by
  have isIn : member ∈ declaration.properties.map PropertyDeclaration.name := by
    by_contra outside
    cases (compiled.undeclared member outside).symm.trans found
  obtain ⟨property, isProperty, rfl⟩ := List.mem_map.mp isIn
  obtain ⟨own, isOwn, describes, -⟩ := compiled.declared property isProperty
  cases Option.some.inj (found.symm.trans isOwn)
  exact ⟨property, isProperty, rfl, describes⟩

/-- The infos of the class with their slots after those of the parent. -/
theorem Compiled.find_extendTables (compiled : Compiled declaration.name declaration.properties ce)
    (parent : ClassEntry) (member : Bytes) :
    (extendTables parent ce).propertiesInfo.find member =
      (ce.propertiesInfo.find member).map fun info => { info with
        offset := info.offset + if info.isStatic then parent.defaultStaticMembersCount
          else parent.defaultPropertiesCount } := by
  unfold extendTables
  dsimp only
  rw [OrderedTable.find_mapValues]
  cases found : ce.propertiesInfo.find member with
  | none => rfl
  | some info =>
    obtain ⟨_, -, -, describes⟩ := compiled.mem_of_find found
    rw [Option.map_some, PropertyInfo.shift, if_pos (describes.ce.trans compiled.name.symm)]
    rfl

theorem Compiled.instance_of_find_extendTables
    (compiled : Compiled declaration.name declaration.properties ce) {parent : ClassEntry}
    {member : Bytes} {info : PropertyInfo}
    (found : (extendTables parent ce).propertiesInfo.find member = some info)
    (isInstance : info.isStatic = false) :
    ∃ before, ce.propertiesInfo.find member = some before ∧ before.isStatic = false ∧
      info.offset = before.offset + parent.defaultPropertiesCount := by
  rw [compiled.find_extendTables] at found
  obtain ⟨before, isBefore, rfl⟩ := Option.map_eq_some_iff.mp found
  have isInstanceBefore : before.isStatic = false := isInstance
  refine ⟨before, isBefore, isInstanceBefore, ?_⟩
  rw [if_neg (Bool.eq_false_iff.mp isInstanceBefore)]

theorem extendTables_table_of_lt {parent : ClassEntry} {slot : Nat}
    (less : slot < parent.defaultPropertiesCount) :
    (extendTables parent ce).defaultPropertiesTable slot = parent.defaultPropertiesTable slot :=
  if_pos less

theorem extendTables_table_add (parent ce : ClassEntry) (slot : Nat) :
    (extendTables parent ce).defaultPropertiesTable (slot + parent.defaultPropertiesCount) =
      ce.defaultPropertiesTable slot := by
  unfold extendTables
  dsimp only
  rw [if_neg (Nat.not_lt.mpr (Nat.le_add_left ..)), Nat.add_sub_cancel]

theorem Compiled.extend (compiled : Compiled declaration.name declaration.properties ce)
    (parent : ClassEntry) : Extended parent declaration (extendTables parent ce) := by
  refine ⟨compiled.name, Nat.le_add_right _ _, ?_, ?_, ?_, fun _ => extendTables_table_of_lt, ?_⟩
  · intro property isIn
    obtain ⟨info, found, describes, unchanged, value⟩ := compiled.declared property isIn
    have shifted := compiled.find_extendTables parent property.name
    rw [found, Option.map_some] at shifted
    refine ⟨_, shifted, ⟨describes.name, describes.ce, describes.visibility,
      describes.isStatic⟩, unchanged, fun isInstance => ?_⟩
    have isInstanceBefore : info.isStatic = false := isInstance
    have bounded := compiled.bounded _ info found isInstanceBefore
    rw [if_neg (Bool.eq_false_iff.mp isInstanceBefore), extendTables_table_add]
    refine ⟨Nat.le_add_left .., ?_, value isInstanceBefore⟩
    unfold extendTables
    dsimp only
    omega
  · intro member outside
    rw [compiled.find_extendTables, compiled.undeclared member outside, Option.map_none]
  · intro member other info otherInfo found otherFound isInstance otherInstance same
    obtain ⟨before, isBefore, beforeInstance, offset⟩ :=
      compiled.instance_of_find_extendTables found isInstance
    obtain ⟨otherBefore, isOtherBefore, otherBeforeInstance, otherOffset⟩ :=
      compiled.instance_of_find_extendTables otherFound otherInstance
    exact compiled.injective member other before otherBefore isBefore isOtherBefore
      beforeInstance otherBeforeInstance (by omega)
  · intro slot above initialised
    obtain ⟨own, rfl⟩ := Nat.exists_eq_add_of_le' above
    rw [extendTables_table_add] at initialised
    obtain ⟨member, info, found, isInstance, offset⟩ := compiled.covered own initialised
    have shifted := compiled.find_extendTables parent member
    rw [found, Option.map_some] at shifted
    refine ⟨member, _, shifted, isInstance, ?_⟩
    rw [if_neg (Bool.eq_false_iff.mp isInstance), offset]

end Extending

/-- A class that has been linked to its parent. -/
structure Child (parent : ClassEntry) (declaration : ClassDeclaration) (ce : ClassEntry) :
    Prop extends ce.Slotted where
  name : ce.name = declaration.name
  count : parent.defaultPropertiesCount ≤ ce.defaultPropertiesCount
  inherited : ∀ member, member ∉ declaration.properties.map PropertyDeclaration.name →
    ce.propertiesInfo.find member = parent.propertiesInfo.find member
  own : ∀ property ∈ declaration.properties, ∃ info,
    ce.propertiesInfo.find property.name = some info ∧
      info.Describes declaration.name property ∧
      (info.isStatic = false → ce.defaultPropertiesTable info.offset = property.value) ∧
      (∀ parentInfo, parent.propertiesInfo.find property.name = some parentInfo →
        (parentInfo.visibility = .accPrivate ∨ parentInfo.changed = true → info.changed = true) ∧
        (parentInfo.visibility ≠ .accPrivate → info.isStatic = parentInfo.isStatic ∧
          (info.isStatic = false → info.offset = parentInfo.offset))) ∧
      (info.isStatic = false → parent.defaultPropertiesCount ≤ info.offset ∨
        ∃ parentInfo, parent.propertiesInfo.find property.name = some parentInfo ∧
          parentInfo.visibility ≠ .accPrivate)
  visible : ∀ property ∈ declaration.properties, ∀ parentInfo,
    parent.propertiesInfo.find property.name = some parentInfo →
      parentInfo.visibility ≠ .accPrivate → property.visibility ≠ .accPrivate
  below : ∀ slot < parent.defaultPropertiesCount,
    ce.defaultPropertiesTable slot = parent.defaultPropertiesTable slot ∨
      ∃ property ∈ declaration.properties, ∃ info,
        ce.propertiesInfo.find property.name = some info ∧ info.isStatic = false ∧
          info.offset = slot
  above : ∀ slot, parent.defaultPropertiesCount ≤ slot →
    ce.defaultPropertiesTable slot ≠ .undef → ∃ property ∈ declaration.properties, ∃ info,
      ce.propertiesInfo.find property.name = some info ∧ info.isStatic = false ∧
        info.offset = slot

section Children

variable {parent extended ce : ClassEntry} {declaration : ClassDeclaration}

theorem Extended.own_of_find (isExtended : Extended parent declaration extended) {member : Bytes}
    {info : PropertyInfo} (found : extended.propertiesInfo.find member = some info) :
    member ∈ declaration.properties.map PropertyDeclaration.name ∧ info.changed = false ∧
      (info.isStatic = false → parent.defaultPropertiesCount ≤ info.offset ∧
        info.offset < extended.defaultPropertiesCount) := by
  have isIn : member ∈ declaration.properties.map PropertyDeclaration.name := by
    by_contra outside
    cases (isExtended.undeclared member outside).symm.trans found
  obtain ⟨property, isProperty, rfl⟩ := List.mem_map.mp isIn
  obtain ⟨own, isOwn, -, unchanged, place⟩ := isExtended.declared property isProperty
  cases Option.some.inj (found.symm.trans isOwn)
  exact ⟨isIn, unchanged, fun isInstance => ⟨(place isInstance).1, (place isInstance).2.1⟩⟩

/-- The slots of the child and those of the parent are apart. -/
theorem Extended.apart (isExtended : Extended parent declaration extended)
    (slotted : parent.Slotted) : Apart extended parent.propertiesInfo.entries := by
  intro entry isEntry other isOther child otherChild found otherFound merges otherMerges static
    otherStatic
  have isInstance : child.isStatic = false :=
    (mergesSlots_iff.mp merges).2
  have otherInstance : otherChild.isStatic = false :=
    (mergesSlots_iff.mp otherMerges).2
  have entryFound := OrderedTable.find_eq_some_iff.mpr isEntry
  have otherEntryFound := OrderedTable.find_eq_some_iff.mpr isOther
  have bounded := slotted.bounded entry.1 entry.2 entryFound (static.trans isInstance)
  have above : parent.defaultPropertiesCount ≤ otherChild.offset :=
    (isExtended.own_of_find otherFound).2.2 otherInstance |>.1
  refine ⟨by omega, fun different => ⟨fun same => different ?_, fun same => different ?_⟩⟩
  · exact slotted.injective entry.1 other.1 entry.2 other.2 entryFound otherEntryFound
      (static.trans isInstance) (otherStatic.trans otherInstance) same
  · exact isExtended.injective entry.1 other.1 child otherChild found otherFound isInstance
      otherInstance same

/-- What the child finds under a name that it declares. -/
theorem Inherited.found_of_child
    (linked : Inherited extended parent.propertiesInfo.entries ce) {member : Bytes}
    {child : PropertyInfo} (found : extended.propertiesInfo.find member = some child) :
    parent.propertiesInfo.find member = none ∧ ce.propertiesInfo.find member = some child ∨
      ∃ parentInfo, parent.propertiesInfo.find member = some parentInfo ∧
        ce.propertiesInfo.find member = some (parentInfo.redeclare child) ∧
          (parentInfo.visibility ≠ .accPrivate → parentInfo.isStatic = child.isStatic) := by
  cases isParent : parent.propertiesInfo.find member with
  | none =>
    refine Or.inl ⟨rfl, ?_⟩
    rw [linked.other member (OrderedTable.find_eq_none_iff.mp isParent), found]
  | some parentInfo =>
    have isEntry := OrderedTable.find_eq_some_iff.mp isParent
    obtain ⟨atChild, static⟩ := linked.redeclared _ isEntry child found
    exact Or.inr ⟨parentInfo, rfl, atChild, static⟩

/-- What the child finds under any other name. -/
theorem Inherited.found_of_parent
    (linked : Inherited extended parent.propertiesInfo.entries ce) {member : Bytes}
    (missing : extended.propertiesInfo.find member = none) :
    ce.propertiesInfo.find member = parent.propertiesInfo.find member := by
  cases isParent : parent.propertiesInfo.find member with
  | none => rw [linked.other member (OrderedTable.find_eq_none_iff.mp isParent), missing]
  | some parentInfo =>
    exact linked.taken _ (OrderedTable.find_eq_some_iff.mp isParent) missing

theorem PropertyInfo.redeclare_offset (parentInfo child : PropertyInfo) :
    (parentInfo.redeclare child).offset = parentInfo.offset ∧
        mergesSlots parentInfo child = true ∨
      (parentInfo.redeclare child).offset = child.offset ∧
        mergesSlots parentInfo child = false := by
  unfold PropertyInfo.redeclare
  dsimp only
  cases mergesSlots parentInfo child with
  | true => exact Or.inl ⟨rfl, rfl⟩
  | false => exact Or.inr ⟨rfl, rfl⟩

/-- The slot of an instance property is one of the parent or a new one. -/
theorem Inherited.slot (linked : Inherited extended parent.propertiesInfo.entries ce)
    {member : Bytes} {info : PropertyInfo} (found : ce.propertiesInfo.find member = some info)
    (isInstance : info.isStatic = false) :
    (∃ parentInfo, parent.propertiesInfo.find member = some parentInfo ∧
      parentInfo.isStatic = false ∧ info.offset = parentInfo.offset) ∨
    ∃ child, extended.propertiesInfo.find member = some child ∧ child.isStatic = false ∧
      info.offset = child.offset := by
  cases isChild : extended.propertiesInfo.find member with
  | none =>
    rw [linked.found_of_parent isChild] at found
    exact Or.inl ⟨info, found, isInstance, rfl⟩
  | some child =>
    rcases linked.found_of_child isChild with ⟨-, same⟩ | ⟨parentInfo, isParent, same, static⟩
    · cases Option.some.inj (found.symm.trans same)
      exact Or.inr ⟨info, rfl, isInstance, rfl⟩
    · cases Option.some.inj (found.symm.trans same)
      rcases parentInfo.redeclare_offset child with ⟨offset, merges⟩ | ⟨offset, -⟩
      · have visible : parentInfo.visibility ≠ .accPrivate :=
          (mergesSlots_iff.mp merges).1
        exact Or.inl ⟨parentInfo, isParent, (static visible).trans isInstance, offset⟩
      · exact Or.inr ⟨child, rfl, isInstance, offset⟩

theorem Inherited.slotted (linked : Inherited extended parent.propertiesInfo.entries ce)
    (isExtended : Extended parent declaration extended) (slotted : parent.Slotted) :
    ce.Slotted := by
  have counts : parent.defaultPropertiesCount ≤ ce.defaultPropertiesCount :=
    linked.count ▸ isExtended.count
  refine ⟨?_, ?_⟩
  · intro member info found isInstance
    rcases linked.slot found isInstance with
      ⟨parentInfo, isParent, parentInstance, offset⟩ | ⟨child, isChild, childInstance, offset⟩
    · exact offset ▸ Nat.lt_of_lt_of_le
        (slotted.bounded member parentInfo isParent parentInstance) counts
    · rw [offset, linked.count]
      exact ((isExtended.own_of_find isChild).2.2 childInstance).2
  · intro member other info otherInfo found otherFound isInstance otherInstance same
    rcases linked.slot found isInstance with
        ⟨parentInfo, isParent, parentInstance, offset⟩ | ⟨child, isChild, childInstance, offset⟩ <;>
      rcases linked.slot otherFound otherInstance with
        ⟨otherParent, isOther, otherParentInstance, otherOffset⟩ |
        ⟨otherChild, isOther, otherChildInstance, otherOffset⟩
    · exact slotted.injective member other parentInfo otherParent isParent isOther parentInstance
        otherParentInstance (by omega)
    · have bounded := slotted.bounded member parentInfo isParent parentInstance
      have above := ((isExtended.own_of_find isOther).2.2 otherChildInstance).1
      omega
    · have bounded := slotted.bounded other otherParent isOther otherParentInstance
      have above := ((isExtended.own_of_find isChild).2.2 childInstance).1
      omega
    · exact isExtended.injective member other child otherChild isChild isOther childInstance
        otherChildInstance (by omega)

/-- A new slot that is not merged keeps what the child has put there. -/
theorem Inherited.kept_child (linked : Inherited extended parent.propertiesInfo.entries ce)
    (isExtended : Extended parent declaration extended) (slotted : parent.Slotted)
    {member : Bytes} {child : PropertyInfo}
    (found : extended.propertiesInfo.find member = some child) (isInstance : child.isStatic = false)
    (notMerged : ∀ parentInfo, parent.propertiesInfo.find member = some parentInfo →
      mergesSlots parentInfo child = false) :
    ce.defaultPropertiesTable child.offset = extended.defaultPropertiesTable child.offset := by
  apply linked.kept
  intro entry isEntry other otherFound merges
  have entryFound := OrderedTable.find_eq_some_iff.mpr isEntry
  have visible : entry.2.visibility ≠ .accPrivate :=
    (mergesSlots_iff.mp merges).1
  have otherInstance : other.isStatic = false :=
    (mergesSlots_iff.mp merges).2
  have static := (linked.redeclared entry isEntry other otherFound).2 visible
  constructor
  · have bounded := slotted.bounded entry.1 entry.2 entryFound (static.trans otherInstance)
    have above := ((isExtended.own_of_find found).2.2 isInstance).1
    omega
  · intro same
    have keys := isExtended.injective entry.1 member other child otherFound found otherInstance
      isInstance same
    subst keys
    cases Option.some.inj (found.symm.trans otherFound)
    exact absurd merges (Bool.eq_false_iff.mp (notMerged entry.2 entryFound))

/-- The property that the child has under a name that it declares. -/
theorem Inherited.own (linked : Inherited extended parent.propertiesInfo.entries ce)
    (isExtended : Extended parent declaration extended) (slotted : parent.Slotted)
    {property : PropertyDeclaration} (isProperty : property ∈ declaration.properties) :
    ∃ info, ce.propertiesInfo.find property.name = some info ∧
      info.Describes declaration.name property ∧
      (info.isStatic = false → ce.defaultPropertiesTable info.offset = property.value) ∧
      (∀ parentInfo, parent.propertiesInfo.find property.name = some parentInfo →
        (parentInfo.visibility = .accPrivate ∨ parentInfo.changed = true → info.changed = true) ∧
        (parentInfo.visibility ≠ .accPrivate → info.isStatic = parentInfo.isStatic ∧
          (info.isStatic = false → info.offset = parentInfo.offset))) ∧
      (info.isStatic = false → parent.defaultPropertiesCount ≤ info.offset ∨
        ∃ parentInfo, parent.propertiesInfo.find property.name = some parentInfo ∧
          parentInfo.visibility ≠ .accPrivate) := by
  obtain ⟨child, found, describes, unchanged, place⟩ := isExtended.declared property isProperty
  rcases linked.found_of_child found with
    ⟨missing, atChild⟩ | ⟨parentInfo, isParent, atChild, static⟩
  · refine ⟨child, atChild, describes, fun isInstance => ?_, ?_, fun isInstance => ?_⟩
    · have notMerged : ∀ parentInfo, parent.propertiesInfo.find property.name = some parentInfo →
          mergesSlots parentInfo child = false :=
        fun parentInfo isParent => nomatch missing.symm.trans isParent
      rw [linked.kept_child isExtended slotted found isInstance notMerged]
      exact (place isInstance).2.2
    · exact fun parentInfo isParent => nomatch missing.symm.trans isParent
    · exact Or.inl (place isInstance).1
  · have isEntry := OrderedTable.find_eq_some_iff.mp isParent
    refine ⟨parentInfo.redeclare child, atChild, ⟨describes.name, describes.ce,
      describes.visibility, describes.isStatic⟩, fun isInstance => ?_, ?_, fun isInstance => ?_⟩
    · have childInstance : child.isStatic = false := isInstance
      rcases parentInfo.redeclare_offset child with ⟨offset, merges⟩ | ⟨offset, notMerged⟩
      · rw [offset, (linked.moved _ isEntry child found merges).1]
        exact (place childInstance).2.2
      · rw [offset, linked.kept_child isExtended slotted found childInstance]
        · exact (place childInstance).2.2
        · intro other isOther
          cases Option.some.inj (isParent.symm.trans isOther)
          exact notMerged
    · intro other isOther
      cases Option.some.inj (isParent.symm.trans isOther)
      refine ⟨?_, fun visible => ⟨(static visible).symm, fun isInstance => ?_⟩⟩
      · rintro (isPrivate | isChanged)
        · simp only [PropertyInfo.redeclare, isPrivate, decide_true, Bool.or_true, Bool.true_or]
        · simp only [PropertyInfo.redeclare, isChanged, Bool.or_true]
      · rcases parentInfo.redeclare_offset child with ⟨offset, -⟩ | ⟨-, notMerged⟩
        · exact offset
        · have childInstance : child.isStatic = false := isInstance
          exact absurd (mergesSlots_iff.mpr ⟨visible, childInstance⟩)
            (Bool.eq_false_iff.mp notMerged)
    · by_cases isPrivate : parentInfo.visibility = .accPrivate
      · have childInstance : child.isStatic = false := isInstance
        rcases parentInfo.redeclare_offset child with ⟨-, merges⟩ | ⟨offset, -⟩
        · exact absurd isPrivate ((mergesSlots_iff.mp merges).1)
        · exact Or.inl (offset ▸ (place childInstance).1)
      · exact Or.inr ⟨parentInfo, isParent, isPrivate⟩

/-- Nothing that the parent shows is hidden by the child. -/
theorem Inherited.ownVisible (linked : Inherited extended parent.propertiesInfo.entries ce)
    (isExtended : Extended parent declaration extended) {property : PropertyDeclaration}
    (isProperty : property ∈ declaration.properties) (parentInfo : PropertyInfo)
    (isParent : parent.propertiesInfo.find property.name = some parentInfo)
    (visible : parentInfo.visibility ≠ .accPrivate) : property.visibility ≠ .accPrivate := by
  obtain ⟨child, found, describes, -⟩ := isExtended.declared property isProperty
  rw [← describes.visibility]
  exact linked.visible _ (OrderedTable.find_eq_some_iff.mp isParent) child found visible

/-- The slots of the parent keep their values where the child does not merge one of its own. -/
theorem Inherited.below (linked : Inherited extended parent.propertiesInfo.entries ce)
    (isExtended : Extended parent declaration extended) {slot : Nat}
    (less : slot < parent.defaultPropertiesCount) :
    ce.defaultPropertiesTable slot = parent.defaultPropertiesTable slot ∨
      ∃ property ∈ declaration.properties, ∃ info,
        ce.propertiesInfo.find property.name = some info ∧ info.isStatic = false ∧
          info.offset = slot := by
  by_cases merged : ∃ entry ∈ parent.propertiesInfo.entries, ∃ child,
      extended.propertiesInfo.find entry.1 = some child ∧
        mergesSlots entry.2 child = true ∧ entry.2.offset = slot
  · obtain ⟨entry, isEntry, child, found, merges, offset⟩ := merged
    obtain ⟨isIn, -, -⟩ := isExtended.own_of_find found
    obtain ⟨property, isProperty, name⟩ := List.mem_map.mp isIn
    have atChild := (linked.redeclared entry isEntry child found).1
    refine Or.inr ⟨property, isProperty, entry.2.redeclare child, name ▸ atChild,
      (mergesSlots_iff.mp merges).2, ?_⟩
    rcases entry.2.redeclare_offset child with ⟨same, -⟩ | ⟨-, notMerged⟩
    · exact same.trans offset
    · exact absurd merges (Bool.eq_false_iff.mp notMerged)
  · refine Or.inl ((linked.kept slot ?_).trans (isExtended.below slot less))
    intro entry isEntry child found merges
    refine ⟨fun offset => merged ⟨entry, isEntry, child, found, merges, offset⟩, ?_⟩
    have above := ((isExtended.own_of_find found).2.2 (mergesSlots_iff.mp merges).2).1
    omega

/-- Of the new slots, those that are not merged are in use. -/
theorem Inherited.above (linked : Inherited extended parent.propertiesInfo.entries ce)
    (isExtended : Extended parent declaration extended) (slotted : parent.Slotted) {slot : Nat}
    (isNew : parent.defaultPropertiesCount ≤ slot)
    (initialised : ce.defaultPropertiesTable slot ≠ .undef) :
    ∃ property ∈ declaration.properties, ∃ info,
      ce.propertiesInfo.find property.name = some info ∧ info.isStatic = false ∧
        info.offset = slot := by
  have notMerged : ∀ entry ∈ parent.propertiesInfo.entries, ∀ child,
      extended.propertiesInfo.find entry.1 = some child →
        mergesSlots entry.2 child = true → child.offset ≠ slot := by
    rintro entry isEntry child found merges rfl
    exact initialised (linked.moved entry isEntry child found merges).2
  have kept : ce.defaultPropertiesTable slot = extended.defaultPropertiesTable slot := by
    apply linked.kept
    intro entry isEntry child found merges
    obtain ⟨visible, isInstance⟩ := mergesSlots_iff.mp merges
    have static := (linked.redeclared entry isEntry child found).2 visible
    have bounded := slotted.bounded entry.1 entry.2 (OrderedTable.find_eq_some_iff.mpr isEntry)
      (static.trans isInstance)
    exact ⟨by omega, notMerged entry isEntry child found merges⟩
  rw [kept] at initialised
  obtain ⟨member, child, found, isInstance, offset⟩ := isExtended.covered slot isNew initialised
  obtain ⟨property, isProperty, rfl⟩ := List.mem_map.mp (isExtended.own_of_find found).1
  refine ⟨property, isProperty, ?_⟩
  rcases linked.found_of_child found with ⟨-, atChild⟩ | ⟨parentInfo, isParent, atChild, -⟩
  · exact ⟨child, atChild, isInstance, offset⟩
  · refine ⟨_, atChild, isInstance, ?_⟩
    rcases parentInfo.redeclare_offset child with ⟨-, merges⟩ | ⟨same, -⟩
    · exact absurd offset
        (notMerged _ (OrderedTable.find_eq_some_iff.mp isParent) child found merges)
    · exact same.trans offset

/-- `zend_do_inheritance_ex`, as a whole. -/
theorem doInheritance_child (slotted : parent.Slotted)
    (inherits : doInheritance parent (compileClass declaration) = some ce) :
    Child parent declaration ce := by
  have isExtended := (compileClass_compiled declaration).extend parent
  have apart := isExtended.apart slotted
  have linked : Inherited (extendTables parent (compileClass declaration))
      parent.propertiesInfo.entries ce :=
    inherited_foldlM parent.propertiesInfo.distinct apart inherits
  exact ⟨linked.slotted isExtended slotted, linked.name.trans isExtended.name,
    linked.count ▸ isExtended.count,
    fun member outside => linked.found_of_parent (isExtended.undeclared member outside),
    fun _ isProperty => linked.own isExtended slotted isProperty,
    fun _ isProperty => linked.ownVisible isExtended isProperty,
    fun _ less => linked.below isExtended less,
    fun _ isNew initialised => linked.above isExtended slotted isNew initialised⟩

end Children

end Pthreads.PropertyTables
