import Pthreads.PreparationSteps

/-!
# Tables of static members

The slots of a class are those of its parent, then those that it declares.  This file
has what the tables of static members look like along a line of ancestors, and what
the functions that build them leave alone.
-/

namespace Pthreads.ClassPreparation

variable {ClassId Value : Type*}

section Lineage

variable {creator : Creator ClassId Value}

variable {candidate parent ancestor : ClassId} {rest : List ClassId}

/-- The parent comes with its own ancestors. -/
theorem lineage_eq (line : (creator.entry candidate).lineage = parent :: rest) :
    (creator.entry candidate).lineage = parent :: (creator.entry parent).lineage := by
  rw [line, (creator.lineage_parent candidate parent rest line).2]

/-- A property that the parent takes over from a class holds of all ancestors. -/
theorem lineage_induction (Property : ClassId → Prop)
    (step : ∀ candidate parent,
      (creator.entry candidate).lineage = parent :: (creator.entry parent).lineage →
        Property candidate → Property parent)
    (own : Property candidate) (above : ancestor ∈ (creator.entry candidate).lineage) :
    Property ancestor := by
  generalize chain : (creator.entry candidate).lineage = line at above
  induction line generalizing candidate with
  | nil => exact absurd above List.not_mem_nil
  | cons parent rest ih =>
      have taken := step candidate parent (lineage_eq chain) own
      rcases List.mem_cons.mp above with rfl | higher
      · exact taken
      · exact ih taken (creator.lineage_parent candidate parent rest chain).2 higher

theorem count_le (above : ancestor ∈ (creator.entry candidate).lineage) :
    (creator.entry ancestor).count ≤ (creator.entry candidate).count := by
  refine lineage_induction (fun other =>
    (creator.entry other).count ≤ (creator.entry candidate).count) ?_ (Nat.le_refl _) above
  intro other parent line below
  exact Nat.le_trans (creator.count_parent other parent _ line) below

theorem length_lineage (above : ancestor ∈ (creator.entry candidate).lineage) :
    (creator.entry ancestor).lineage.length < (creator.entry candidate).lineage.length := by
  generalize chain : (creator.entry candidate).lineage = line at above ⊢
  induction line generalizing candidate with
  | nil => exact absurd above List.not_mem_nil
  | cons parent rest ih =>
      have higher := (creator.lineage_parent candidate parent rest chain).2
      rcases List.mem_cons.mp above with rfl | above
      · simp [higher]
      · exact Nat.lt_succ_of_lt (ih higher above)

/-- No class is its own ancestor. -/
theorem self_notMem_lineage : candidate ∉ (creator.entry candidate).lineage :=
  fun above => Nat.lt_irrefl _ (length_lineage above)

/-- The ancestors of a class that is used in place are used in place. -/
theorem shared_lineage (shared : (creator.entry candidate).origin ≠ .user)
    (above : ancestor ∈ (creator.entry candidate).lineage) :
    (creator.entry ancestor).origin ≠ .user := by
  refine lineage_induction (fun other => (creator.entry other).origin ≠ .user)
    ?_ shared above
  intro other parent line shared
  apply creator.shared other shared parent
  have linked : (creator.entry other).linked = true := by
    by_contra unlinked
    simp [ClassEntry.lineage, unlinked] at line
  simp only [ClassEntry.lineage, linked, if_true] at line
  simp [ClassEntry.dependencies, ClassEntry.required, linked, line]

theorem currentStatics_eq_some {current : List Value} :
    (creator.entry candidate).currentStatics = some current ↔
      (creator.entry candidate).count ≠ 0 ∧ (creator.entry candidate).linked = true ∧
        (creator.entry candidate).staticMembers = some current := by
  rw [ClassEntry.currentStatics, Option.ite_none_right_eq_some, and_assoc]

/-- Where the creator has the static members of a class, it has those of the ancestors. -/
theorem currentStatics_lineage {current : List Value}
    (initialised : (creator.entry candidate).currentStatics = some current)
    (above : ancestor ∈ (creator.entry candidate).lineage)
    (declares : (creator.entry ancestor).count ≠ 0) :
    ∃ inherited, (creator.entry ancestor).currentStatics = some inherited ∧
      inherited <+: current := by
  refine lineage_induction (fun other => (creator.entry other).count ≠ 0 →
    ∃ inherited, (creator.entry other).currentStatics = some inherited ∧
      inherited <+: current) ?_ (fun _ => ⟨current, initialised, List.prefix_refl _⟩) above declares
  intro other parent line taken declares
  have larger := creator.count_parent other parent _ line
  obtain ⟨values, has, within⟩ := taken (by omega)
  obtain ⟨_, _, members⟩ := currentStatics_eq_some.mp has
  obtain ⟨inherited, above, shorter⟩ :=
    creator.members_parent other parent _ values line declares members
  refine ⟨inherited, currentStatics_eq_some.mpr ⟨declares, ?_, above⟩, shorter.trans within⟩
  exact (creator.lineage_parent other parent _ line).1

theorem length_currentStatics {current : List Value}
    (initialised : (creator.entry candidate).currentStatics = some current) :
    current.length = (creator.entry candidate).count :=
  creator.members_length candidate current (currentStatics_eq_some.mp initialised).2.2

theorem copiedStatic_inherited (creator : ObjectCreator ClassId Value)
    {inherited current : List Value} (within : inherited <+: current) {slot : Nat}
    (below : slot < inherited.length) :
    creator.copiedStatic current slot = creator.copiedStatic inherited slot := by
  obtain ⟨further, rfl⟩ := within
  rw [ObjectCreator.copiedStatic, ObjectCreator.copiedStatic, List.getElem?_append_left below]

theorem inherited_eq (line : (creator.entry candidate).lineage = parent :: rest) :
    creator.inherited candidate = (creator.entry parent).count := by
  simp [Creator.inherited, line]

theorem inherited_nil (line : (creator.entry candidate).lineage = []) :
    creator.inherited candidate = 0 := by
  simp [Creator.inherited, line]

/-- A slot that a class declares is introduced by it. -/
theorem introduces_own {slot : Nat} (declared : creator.inherited candidate ≤ slot) :
    creator.introduces candidate slot = candidate := by
  rw [Creator.introduces]
  cases line : (creator.entry candidate).lineage with
  | nil => rfl
  | cons parent rest =>
      rw [inherited_eq line] at declared
      exact if_pos declared

/-- An inherited slot is introduced where that of the parent is. -/
theorem introduces_parent {slot : Nat}
    (line : (creator.entry candidate).lineage = parent :: rest)
    (below : slot < (creator.entry parent).count) :
    creator.introduces candidate slot = creator.introduces parent slot := by
  rw [Creator.introduces, Creator.introduces, lineage_eq line]
  exact if_neg (Nat.not_le.mpr below)

/-- What introduces a slot is the class or an ancestor, and declares the slot. -/
theorem introduces_spec {slot : Nat} (below : slot < (creator.entry candidate).count) :
    creator.introduces candidate slot ∈ candidate :: (creator.entry candidate).lineage ∧
      creator.inherited (creator.introduces candidate slot) ≤ slot ∧
      slot < (creator.entry (creator.introduces candidate slot)).count := by
  generalize chain : (creator.entry candidate).lineage = line
  induction line generalizing candidate with
  | nil =>
      have declared : creator.inherited candidate ≤ slot := by simp [inherited_nil chain]
      rw [introduces_own declared]
      exact ⟨List.mem_cons_self, declared, below⟩
  | cons parent rest ih =>
      by_cases declared : creator.inherited candidate ≤ slot
      · rw [introduces_own declared]
        exact ⟨List.mem_cons_self, declared, below⟩
      · rw [inherited_eq chain] at declared
        rw [introduces_parent chain (by omega)]
        obtain ⟨isIn, first, within⟩ := ih (by omega)
          (creator.lineage_parent candidate parent rest chain).2
        exact ⟨List.mem_cons_of_mem _ isIn, first, within⟩

end Lineage

theorem isIndirect_iff {slot : Option (Slot ClassId Value)} :
    slot.any Slot.isIndirect = true ↔ ∃ target, slot = some (.indirect target) := by
  cases slot with
  | none => simp
  | some content => cases content <;> simp [Slot.isIndirect]

/-- A default table as the engine has it: the inherited slots are indirections. -/
structure Inherits (creator : Creator ClassId Value) (candidate : ClassId)
    (defaults : List (Slot ClassId Value)) : Prop where
  length : defaults.length = (creator.entry candidate).count
  indirect : ∀ slot target, defaults[slot]? = some (.indirect target) →
    slot < creator.inherited candidate
  declared : ∀ slot content, defaults[slot]? = some (.value content) →
    creator.inherited candidate ≤ slot
  written : .unwritten ∉ defaults

section Tables

variable {creator : Creator ClassId Value} {candidate parent : ClassId} {rest : List ClassId}

theorem length_sharedDefaults :
    (creator.sharedDefaults candidate).length = (creator.entry candidate).count := by
  simp [Creator.sharedDefaults, ClassEntry.count]

/-- A slot of a shared default table is an indirection or a default. -/
theorem getElem?_sharedDefaults (slot : Nat) :
    (creator.sharedDefaults candidate)[slot]? =
      (creator.entry candidate).defaultStatics[slot]?.map fun content =>
        if slot < creator.inherited candidate then
          .indirect (creator.introduces candidate slot, slot)
        else .value content :=
  List.getElem?_mapIdx

theorem sharedDefaults_indirect {slot : Nat} (below : slot < (creator.entry candidate).count)
    (inherited : slot < creator.inherited candidate) :
    (creator.sharedDefaults candidate)[slot]? =
      some (.indirect (creator.introduces candidate slot, slot)) := by
  have within : slot < (creator.entry candidate).defaultStatics.length := below
  simp [getElem?_sharedDefaults, inherited, within]

theorem inherits_sharedDefaults (candidate : ClassId) :
    Inherits creator candidate (creator.sharedDefaults candidate) where
  length := length_sharedDefaults
  indirect slot target found := by
    rw [getElem?_sharedDefaults] at found
    obtain ⟨content, _, same⟩ := Option.map_eq_some_iff.mp found
    by_contra declared
    simp [declared] at same
  declared slot content found := by
    rw [getElem?_sharedDefaults] at found
    obtain ⟨content, _, same⟩ := Option.map_eq_some_iff.mp found
    by_contra inherited
    simp [Nat.not_le.mp inherited] at same
  written isIn := by
    obtain ⟨slot, found⟩ := List.mem_iff_getElem?.mp isIn
    rw [getElem?_sharedDefaults] at found
    obtain ⟨content, _, same⟩ := Option.map_eq_some_iff.mp found
    split at same
    · cases same
    · cases same

theorem sharedDefaults_value {slot : Nat} {content : Value}
    (found : (creator.sharedDefaults candidate)[slot]? = some (.value content)) :
    (creator.entry candidate).defaultStatics[slot]? = some content := by
  rw [getElem?_sharedDefaults] at found
  obtain ⟨content, original, same⟩ := Option.map_eq_some_iff.mp found
  split at same
  · cases same
  · cases same
    exact original

theorem sharedDefaults_declared {slot : Nat} {content : Value}
    (original : (creator.entry candidate).defaultStatics[slot]? = some content)
    (declared : creator.inherited candidate ≤ slot) :
    (creator.sharedDefaults candidate)[slot]? = some (.value content) := by
  simp [getElem?_sharedDefaults, original, Nat.not_lt.mpr declared]

theorem defaultTable_shared {statics : Statics ClassId Value}
    (shared : (creator.entry candidate).origin ≠ .user) :
    creator.defaultTable statics candidate = creator.sharedDefaults candidate :=
  if_neg shared

theorem defaultTable_copied {statics : Statics ClassId Value}
    (copied : (creator.entry candidate).origin = .user) :
    creator.defaultTable statics candidate = statics.defaults candidate :=
  if_pos copied

theorem defaultTable_congr {statics after : Statics ClassId Value}
    (same : after.defaults = statics.defaults) (candidate : ClassId) :
    creator.defaultTable after candidate = creator.defaultTable statics candidate := by
  simp [Creator.defaultTable, same]

theorem getElem?_memberTable (statics : Statics ClassId Value)
    (defaults : List (Slot ClassId Value)) (lineage : List ClassId) (slot : Nat) :
    (memberTable statics defaults lineage)[slot]? =
      defaults[slot]?.map fun content =>
        match content, lineage with
        | .indirect _, parent :: _ => .indirect (statics.deindirect (parent, slot))
        | _, _ => content :=
  List.getElem?_mapIdx

/-- A slot of the members is an indirection where that of the defaults is one. -/
theorem memberTable_indirect {statics : Statics ClassId Value}
    {defaults : List (Slot ClassId Value)} {lineage : List ClassId} {slot : Nat}
    {target : Address ClassId}
    (found : (memberTable statics defaults lineage)[slot]? = some (.indirect target)) :
    ∃ origin, defaults[slot]? = some (.indirect origin) := by
  rw [getElem?_memberTable] at found
  obtain ⟨content, original, same⟩ := Option.map_eq_some_iff.mp found
  cases content with
  | unwritten => cases same
  | value content => cases same
  | indirect origin => exact ⟨origin, original⟩

theorem memberTable_value {statics : Statics ClassId Value}
    {defaults : List (Slot ClassId Value)} {lineage : List ClassId} {slot : Nat} {content : Value}
    (original : defaults[slot]? = some (.value content)) :
    (memberTable statics defaults lineage)[slot]? = some (.value content) := by
  rw [getElem?_memberTable, original]
  rfl

end Tables

/-- The members of a class as they should be. -/
def faithfulTable (creator : ObjectCreator ClassId Value) (candidate : ClassId)
    (current : List Value) : List (Slot ClassId Value) :=
  (List.range (creator.entry candidate).count).map fun slot =>
    if slot < creator.inherited candidate then
      .indirect (creator.introduces candidate slot, slot)
    else .value (creator.copiedStatic current slot)

section Faithful

variable {creator : ObjectCreator ClassId Value} {candidate : ClassId} {current : List Value}

theorem getElem?_faithfulTable {slot : Nat} (below : slot < (creator.entry candidate).count) :
    (faithfulTable creator candidate current)[slot]? =
      some (if slot < creator.inherited candidate then
        .indirect (creator.introduces candidate slot, slot)
      else .value (creator.copiedStatic current slot)) := by
  simp [faithfulTable, below]

theorem length_faithfulTable :
    (faithfulTable creator candidate current).length =
      (creator.entry candidate).count := by
  simp [faithfulTable]

/-- Faithful members lead at once to where a slot is introduced. -/
theorem deindirect_faithful {statics : Statics ClassId Value}
    (built : statics.members candidate =
      some (faithfulTable creator candidate current))
    {slot : Nat} (below : slot < (creator.entry candidate).count) :
    statics.deindirect (candidate, slot) = (creator.introduces candidate slot, slot) := by
  simp only [Statics.deindirect, Statics.slotAt, built, Option.bind_some,
    getElem?_faithfulTable below]
  by_cases inherited : slot < creator.inherited candidate
  · simp [inherited]
  · simp [inherited, introduces_own (Nat.not_lt.mp inherited)]

/-- All of them have been written. -/
theorem unwritten_faithful {statics : Statics ClassId Value}
    (built : statics.members candidate =
      some (faithfulTable creator candidate current)) (slot : Nat) :
    statics.unwritten (candidate, slot) = false := by
  simp only [Statics.unwritten, Statics.slotAt, built, Option.bind_some]
  by_cases below : slot < (creator.entry candidate).count
  · rw [getElem?_faithfulTable below]
    split
    · next same => split at same <;> cases same
    · rfl
  · rw [List.getElem?_eq_none (by rw [length_faithfulTable]; omega)]

/-- From a complete default table and faithful members of the parent the members are
faithful, if the declared slots start with what the creator has there. -/
theorem memberTable_faithful {statics : Statics ClassId Value}
    {defaults : List (Slot ClassId Value)}
    (complete : Inherits creator.toCreator candidate defaults)
    (above : ∀ parent rest, (creator.entry candidate).lineage = parent :: rest →
      ∀ slot < (creator.entry parent).count,
        statics.deindirect (parent, slot) = (creator.introduces parent slot, slot))
    (declared : ∀ slot content, defaults[slot]? = some (.value content) →
      content = creator.copiedStatic current slot) :
    memberTable statics defaults (creator.entry candidate).lineage =
      faithfulTable creator candidate current := by
  refine List.ext_getElem? fun slot => ?_
  by_cases below : slot < (creator.entry candidate).count
  · have within : slot < defaults.length := by rwa [complete.length]
    have there := List.getElem?_eq_getElem within
    rw [getElem?_faithfulTable below, getElem?_memberTable]
    cases found : defaults[slot] with
    | unwritten => exact absurd (List.mem_of_getElem found) complete.written
    | value content =>
        rw [found] at there
        have first := Nat.not_lt.mpr (complete.declared slot content there)
        simp [there, first, declared slot content there]
    | indirect target =>
        rw [found] at there
        have inherited := complete.indirect slot target there
        cases line : (creator.entry candidate).lineage with
        | nil => simp [inherited_nil line] at inherited
        | cons parent rest =>
            have shorter : slot < (creator.entry parent).count := by
              rwa [← inherited_eq line]
            simp [there, inherited, above parent rest line slot shorter,
              introduces_parent line shorter]
  · rw [List.getElem?_eq_none_iff.mpr (by simp [memberTable, complete.length]; omega),
      List.getElem?_eq_none_iff.mpr (by simp [faithfulTable]; omega)]

end Faithful

section Frames

variable [DecidableEq ClassId] {creator : Creator ClassId Value}
  {statics after : Statics ClassId Value}

@[simp] theorem Statics.defaults_allocate (statics : Statics ClassId Value) (candidate : ClassId)
    (count : Nat) : (statics.allocate candidate count).defaults = statics.defaults :=
  rfl

@[simp] theorem Statics.defaults_write (statics : Statics ClassId Value)
    (address : Address ClassId) (content : Slot ClassId Value) :
    (statics.write address content).defaults = statics.defaults :=
  rfl

theorem Statics.members_write_other (statics : Statics ClassId Value) (address : Address ClassId)
    (content : Slot ClassId Value) {other : ClassId} (different : other ≠ address.1) :
    (statics.write address content).members other = statics.members other :=
  Function.update_of_ne different _ _

theorem Statics.members_write_self (statics : Statics ClassId Value) (address : Address ClassId)
    (content : Slot ClassId Value) :
    (statics.write address content).members address.1 =
      (statics.members address.1).map fun table => table.set address.2 content :=
  Function.update_self _ _ _

theorem defaults_zendClassInitStatics {line : List ClassId}
    (done : zendClassInitStatics creator line statics = some after) :
    after.defaults = statics.defaults := by
  induction line generalizing after with
  | nil =>
      cases Option.some.inj done
      rfl
  | cons candidate line ih =>
      rw [zendClassInitStatics] at done
      split at done
      · cases Option.some.inj done
        rfl
      · obtain ⟨above, first, last⟩ := Option.bind_eq_some_iff.mp done
        split at last
        · have same : above.defaults = statics.defaults := ih first
          cases Option.some.inj last
          exact same
        · cases last

/-- Members that are set up stay as they are. -/
theorem members_zendClassInitStatics {line : List ClassId} {other : ClassId}
    {table : List (Slot ClassId Value)}
    (done : zendClassInitStatics creator line statics = some after)
    (built : statics.members other = some table) : after.members other = some table := by
  induction line generalizing after with
  | nil =>
      cases Option.some.inj done
      exact built
  | cons candidate line ih =>
      rw [zendClassInitStatics] at done
      split at done
      · cases Option.some.inj done
        exact built
      · next fresh =>
          have different : other ≠ candidate := by
            rintro rfl
            simp [built] at fresh
          obtain ⟨above, first, last⟩ := Option.bind_eq_some_iff.mp done
          split at last
          · cases Option.some.inj last
            simpa [Function.update_of_ne different] using ih first
          · cases last

end Frames

end Pthreads.ClassPreparation
