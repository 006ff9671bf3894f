import Pthreads.StaticTables

/-!
# What preparation leaves alone

Tables of static members are built once: a class that has one keeps it, whatever is
prepared later, and while its slots are written one after the other, nothing else
writes to them.  Indirections are only found below the number of slots of the parent.
-/

namespace Pthreads.ClassPreparation

open PartialFolds

variable {ClassId Value : Type*} (creator : Creator ClassId Value)

/-- Indirections are only found below the number of slots of the parent. -/
structure Shaped (statics : Statics ClassId Value) : Prop where
  short : ∀ candidate, (statics.defaults candidate).length ≤ (creator.entry candidate).count
  defaults : ∀ candidate slot target,
    (statics.defaults candidate)[slot]? = some (.indirect target) →
      slot < creator.inherited candidate
  members : ∀ candidate slot target, statics.slotAt (candidate, slot) = some (.indirect target) →
    slot < creator.inherited candidate

section Shape

variable {creator} {statics after : Statics ClassId Value} {candidate parent : ClassId}

theorem Shaped.length_defaultTable (shaped : Shaped creator statics) (candidate : ClassId) :
    (creator.defaultTable statics candidate).length ≤ (creator.entry candidate).count := by
  by_cases copied : (creator.entry candidate).origin = .user
  · rw [defaultTable_copied copied]
    exact shaped.short candidate
  · rw [defaultTable_shared copied]
    exact Nat.le_of_eq length_sharedDefaults

theorem Shaped.defaultTable_indirect (shaped : Shaped creator statics) {slot : Nat}
    {target : Address ClassId}
    (found : (creator.defaultTable statics candidate)[slot]? = some (.indirect target)) :
    slot < creator.inherited candidate := by
  by_cases copied : (creator.entry candidate).origin = .user
  · rw [defaultTable_copied copied] at found
    exact shaped.defaults candidate slot target found
  · rw [defaultTable_shared copied] at found
    exact (inherits_sharedDefaults candidate).indirect slot target found

/-- Below the end of the parent's default table the loop finds a table to refer to. -/
theorem indirection_isSome {parent : ClassId} (rest : List ClassId) {slot : Nat}
    (below : slot < (creator.defaultTable statics parent).length) :
    (indirection creator statics parent rest slot).isSome := by
  have filled : ∀ other, slot < (creator.defaultTable statics other).length →
      (creator.defaultTable statics other).isEmpty = false := by
    intro other below
    rw [List.isEmpty_eq_false_iff, ← List.length_pos_iff]
    omega
  induction rest generalizing parent with
  | nil => simp [indirection, filled parent below]
  | cons grandparent rest ih =>
      rw [indirection]
      simp only [filled parent below, Bool.false_eq_true, if_false]
      split
      · rfl
      · next inherited => exact ih (Nat.not_le.mp inherited)

variable [DecidableEq ClassId]

/-- New members of a class that keep to its default table. -/
theorem Shaped.build (shaped : Shaped creator statics) {candidate : ClassId}
    {table : List (Slot ClassId Value)}
    (indirect : ∀ slot target, table[slot]? = some (.indirect target) →
      slot < creator.inherited candidate) :
    Shaped creator
      { statics with members := Function.update statics.members candidate (some table) } where
  short := shaped.short
  defaults := shaped.defaults
  members other slot target found := by
    by_cases same : other = candidate
    · rw [same] at found ⊢
      simp only [Statics.slotAt, Function.update_self, Option.bind_some] at found
      exact indirect slot target found
    · apply shaped.members other slot target
      simpa [Statics.slotAt, Function.update_of_ne same] using found

theorem Shaped.zendClassInitStatics (shaped : Shaped creator statics) {line : List ClassId}
    (done : zendClassInitStatics creator line statics = some after) : Shaped creator after := by
  induction line generalizing after with
  | nil =>
      cases Option.some.inj done
      exact shaped
  | cons candidate line ih =>
      rw [ClassPreparation.zendClassInitStatics] at done
      split at done
      · cases Option.some.inj done
        exact shaped
      · obtain ⟨above, first, last⟩ := Option.bind_eq_some_iff.mp done
        split at last
        · have shapedAbove : Shaped creator above := ih first
          have same : creator.defaultTable above candidate =
              creator.defaultTable statics candidate :=
            defaultTable_congr (defaults_zendClassInitStatics first) candidate
          cases Option.some.inj last
          apply shapedAbove.build
          intro slot target found
          obtain ⟨origin, original⟩ := memberTable_indirect found
          rw [← same] at original
          exact shapedAbove.defaultTable_indirect original
        · cases last

theorem Shaped.allocate (shaped : Shaped creator statics) (candidate : ClassId) (count : Nat) :
    Shaped creator (statics.allocate candidate count) := by
  apply shaped.build
  intro slot target found
  simp [List.getElem?_replicate] at found

theorem Statics.slotAt_write (statics : Statics ClassId Value) (address other : Address ClassId)
    (content : Slot ClassId Value) :
    (statics.write address content).slotAt other =
      if other = address then (statics.slotAt address).map fun _ => content
      else statics.slotAt other := by
  by_cases same : other.1 = address.1
  · simp only [Statics.slotAt, same, Statics.members_write_self]
    cases built : statics.members address.1 with
    | none => simp
    | some table =>
        by_cases slot : other.2 = address.2
        · have equal : other = address := Prod.ext same slot
          simp [equal, List.getElem?_set]
          split <;> simp_all
        · have different : other ≠ address := fun equal => slot (congrArg Prod.snd equal)
          simp [different, List.getElem?_set_ne (Ne.symm slot)]
  · have different : other ≠ address := fun equal => same (congrArg Prod.fst equal)
    simp [Statics.slotAt, Statics.members_write_other _ _ _ same, different]

theorem Shaped.write (shaped : Shaped creator statics) {address : Address ClassId}
    {content : Slot ClassId Value}
    (indirect : ∀ target, content = .indirect target → address.2 < creator.inherited address.1) :
    Shaped creator (statics.write address content) where
  short := shaped.short
  defaults := shaped.defaults
  members other slot target found := by
    rw [Statics.slotAt_write] at found
    split at found
    · next same =>
        obtain ⟨_, _, isContent⟩ := Option.map_eq_some_iff.mp found
        have inside := indirect target isContent
        rw [← same] at inside
        exact inside
    · exact shaped.members other slot target found

end Shape

section Preparing

variable {creator : ObjectCreator ClassId Value} {statics : Statics ClassId Value}
  {candidate : ClassId}

/-- A slot is prepared as an indirection exactly below the end of the parent's table. -/
theorem preparedSlot_cons (parent : ClassId) (rest : List ClassId) (slot : Nat)
    (content : Value) :
    (∃ target, preparedSlot creator statics (parent :: rest) slot content =
        .indirect target) ↔ slot < (creator.defaultTable statics parent).length := by
  rw [preparedSlot]
  by_cases declared : (creator.defaultTable statics parent).length ≤ slot
  · simp [declared]
  · obtain ⟨ancestor, found⟩ :=
      Option.isSome_iff_exists.mp (indirection_isSome rest (Nat.not_le.mp declared))
    simp only [declared, if_false, found]
    simp [Nat.not_le.mp declared]

theorem preparedSlot_written (lineage : List ClassId) (slot : Nat) (content : Value) :
    preparedSlot creator statics lineage slot content ≠ .unwritten := by
  unfold preparedSlot
  split
  · exact fun same => by cases same
  · split
    · exact fun same => by cases same
    · split <;> exact fun same => by cases same

variable [DecidableEq ClassId]

theorem defaults_prepareClassStatics_other {other : ClassId} (different : other ≠ candidate) :
    (prepareClassStatics creator candidate statics).defaults other =
      statics.defaults other :=
  Function.update_of_ne different _ _

theorem defaults_prepareClassStatics_self :
    (prepareClassStatics creator candidate statics).defaults candidate =
      (creator.entry candidate).defaultStatics.mapIdx
        (preparedSlot creator statics (creator.entry candidate).lineage) := by
  simp only [prepareClassStatics, Function.update_self]
  split
  · rfl
  · next empty =>
      have none : (creator.entry candidate).defaultStatics = [] :=
        List.length_eq_zero_iff.mp (not_not.mp empty)
      simp [none]

theorem Shaped.prepareClassStatics (shaped : Shaped creator.toCreator statics)
    (candidate : ClassId) :
    Shaped creator.toCreator (prepareClassStatics creator candidate statics) where
  short other := by
    by_cases same : other = candidate
    · rw [same, defaults_prepareClassStatics_self]
      simp [ClassEntry.count]
    · rw [defaults_prepareClassStatics_other same]
      exact shaped.short other
  defaults other slot target found := by
    by_cases same : other = candidate
    · rw [same, defaults_prepareClassStatics_self, List.getElem?_mapIdx,
        Option.map_eq_some_iff] at found
      obtain ⟨content, _, prepared⟩ := found
      rw [same]
      cases line : (creator.entry candidate).lineage with
      | nil =>
          rw [line] at prepared
          cases prepared
      | cons parent rest =>
          rw [line] at prepared
          rw [inherited_eq line]
          exact Nat.lt_of_lt_of_le ((preparedSlot_cons parent rest slot content).mp ⟨_, prepared⟩)
            (shaped.length_defaultTable parent)
    · rw [defaults_prepareClassStatics_other same] at found
      exact shaped.defaults other slot target found
  members := shaped.members

end Preparing

section Growth

/-- What complete calls do: classes stay in the table, and tables of static members stay as
they are. -/
structure Extends (state after : State ClassId Value) : Prop where
  table : state.table ⊆ after.table
  members : ∀ candidate table, state.statics.members candidate = some table →
    after.statics.members candidate = some table
  shaped : Shaped creator state.statics → Shaped creator after.statics

/-- What the loop of `init_class_statics` has done to a state when so many slots are left. -/
structure Filling (candidate : ClassId) (left : Nat) (state after : State ClassId Value) :
    Prop where
  table : state.table ⊆ after.table
  members : ∀ other, other ≠ candidate → ∀ table,
    state.statics.members other = some table → after.statics.members other = some table
  shaped : Shaped creator state.statics → Shaped creator after.statics
  unwritten : ∀ slot < left, after.statics.slotAt (candidate, slot) = some .unwritten

variable {creator} {state middle after : State ClassId Value}

theorem Extends.refl (state : State ClassId Value) : Extends creator state state where
  table := List.Subset.refl _
  members _ _ built := built
  shaped shaped := shaped

theorem Extends.trans (first : Extends creator state middle)
    (second : Extends creator middle after) : Extends creator state after where
  table := List.Subset.trans first.table second.table
  members candidate table built :=
    second.members candidate table (first.members candidate table built)
  shaped shaped := second.shaped (first.shaped shaped)

theorem Extends.slotAt (extended : Extends creator state after) {address : Address ClassId}
    {content : Slot ClassId Value} (found : state.statics.slotAt address = some content) :
    after.statics.slotAt address = some content := by
  obtain ⟨table, built, slot⟩ := Option.bind_eq_some_iff.mp found
  exact Option.bind_eq_some_iff.mpr ⟨table, extended.members address.1 table built, slot⟩

theorem Filling.extend {candidate : ClassId} {left : Nat}
    (filling : Filling creator candidate left state middle)
    (later : Extends creator middle after) : Filling creator candidate left state after where
  table := List.Subset.trans filling.table later.table
  members other different table built :=
    later.members other table (filling.members other different table built)
  shaped shaped := later.shaped (filling.shaped shaped)
  unwritten slot below := later.slotAt (filling.unwritten slot below)

theorem extends_statics {statics : Statics ClassId Value} (state : State ClassId Value)
    (members : ∀ candidate table, state.statics.members candidate = some table →
      statics.members candidate = some table)
    (shaped : Shaped creator state.statics → Shaped creator statics) :
    Extends creator state { state with statics } where
  table := List.Subset.refl _
  members := members
  shaped := shaped

variable [DecidableEq ClassId]

/-- The next slot is written. -/
theorem Filling.write {candidate : ClassId} {slot : Nat}
    (filling : Filling creator candidate (slot + 1) state after) {content : Slot ClassId Value}
    (indirect : Shaped creator state.statics → ∀ target, content = .indirect target →
      slot < creator.inherited candidate) :
    Filling creator candidate slot state
      { after with statics := after.statics.write (candidate, slot) content } where
  table := filling.table
  members other different table built := by
    dsimp only
    rw [Statics.members_write_other after.statics (candidate, slot) content different]
    exact filling.members other different table built
  shaped shaped := (filling.shaped shaped).write (indirect shaped)
  unwritten other below := by
    have different : (candidate, other) ≠ (candidate, slot) := by
      intro same
      cases same
      omega
    dsimp only
    rw [Statics.slotAt_write, if_neg different]
    exact filling.unwritten other (by omega)

end Growth

section Keeping

variable [DecidableEq ClassId] {creator : ObjectCreator ClassId Value}
  {connect : ClassId → State ClassId Value → Option (State ClassId Value)}
  (connects : ∀ candidate, Does (Extends creator.toCreator) (connect candidate))

include connects

omit [DecidableEq ClassId] in
theorem extends_connectEach (candidates : List ClassId) :
    Does (Extends creator.toCreator) (connectEach connect candidates) := by
  intro state after done
  have since : ∀ middle after, Extends creator.toCreator state middle →
      ∀ candidate ∈ candidates, connect candidate middle = some after →
        Extends creator.toCreator state after :=
    fun middle after before candidate _ moved =>
      before.trans (connects candidate middle after moved)
  exact foldlM_keeps since done (.refl state)

theorem filling_initSlot {candidate : ClassId} {defaults : List (Slot ClassId Value)}
    {current : List Value} {slot : Nat} {first state after : State ClassId Value}
    (indirect : Shaped creator.toCreator first.statics → ∀ target,
      defaults[slot]? = some (.indirect target) → slot < creator.inherited candidate)
    (filling : Filling creator.toCreator candidate (slot + 1) first state)
    (done : initSlot creator connect candidate defaults current slot state =
      some after) : Filling creator.toCreator candidate slot first after := by
  unfold initSlot at done
  split at done
  · next target parent rest isIndirect line =>
      split at done
      · cases done
      · cases Option.some.inj done
        exact filling.write fun shaped _ _ => indirect shaped target isIndirect
  · obtain ⟨middle, connected, rfl⟩ := Option.map_eq_some_iff.mp done
    apply (filling.extend (extends_connectEach connects _ state middle connected)).write
    exact fun _ _ same => by cases same

theorem filling_countDown {candidate : ClassId} {defaults : List (Slot ClassId Value)}
    {current : List Value} {left : Nat} {first state after : State ClassId Value}
    (indirect : Shaped creator.toCreator first.statics → ∀ slot target,
      defaults[slot]? = some (.indirect target) → slot < creator.inherited candidate)
    (filling : Filling creator.toCreator candidate left first state)
    (done : countDown (initSlot creator connect candidate defaults current) left
      state = some after) : Filling creator.toCreator candidate 0 first after := by
  induction left generalizing state with
  | zero =>
      cases Option.some.inj done
      exact filling
  | succ left ih =>
      obtain ⟨middle, one, others⟩ := Option.bind_eq_some_iff.mp done
      apply ih _ others
      exact filling_initSlot connects (fun shaped => indirect shaped left) filling one

omit connects in
/-- At the start of the loop no slot has been written. -/
theorem filling_allocate {candidate : ClassId} {state : State ClassId Value} (count : Nat) :
    Filling creator.toCreator candidate count state
      { state with statics := state.statics.allocate candidate count } where
  table := List.Subset.refl _
  members other different table built :=
    (Function.update_of_ne different _ _).trans built
  shaped shaped := shaped.allocate candidate count
  unwritten slot below := by simp [Statics.slotAt, Statics.allocate, below]

theorem filling_initSlots {candidate : ClassId} {current : List Value}
    {state after : State ClassId Value}
    (done : initSlots creator connect candidate current state = some after) :
    Filling creator.toCreator candidate 0 state after := by
  apply filling_countDown connects _ (filling_allocate _) done
  intro shaped slot target found
  exact shaped.defaultTable_indirect found

theorem extends_initClassStatics (candidate : ClassId) :
    Does (Extends creator.toCreator)
      (initClassStatics creator connect candidate) := by
  intro state after done
  unfold initClassStatics at done
  split at done
  · next current _ fresh =>
      obtain ⟨statics, above, filled⟩ := Option.bind_eq_some_iff.mp done
      have engine : Extends creator.toCreator state { state with statics } :=
        extends_statics state (fun _ _ => members_zendClassInitStatics above)
          fun shaped => shaped.zendClassInitStatics above
      have filling := filling_initSlots connects filled
      constructor
      · exact List.Subset.trans engine.table filling.table
      · intro other table built
        have different : other ≠ candidate := by
          rintro rfl
          rw [fresh] at built
          cases built
        exact filling.members other different table (engine.members other table built)
      · exact fun shaped => filling.shaped (engine.shaped shaped)
  · cases Option.some.inj done
    exact .refl state

theorem extends_lateBindings (candidate : ClassId) :
    Does (Extends creator.toCreator)
      (lateBindings creator connect candidate) := by
  intro state after done
  refine Extends.trans ?_ (extends_initClassStatics connects candidate _ after done)
  unfold bindDefaults
  split
  · exact extends_statics state (fun _ _ built => built)
      fun shaped => shaped.prepareClassStatics candidate
  · exact .refl state

omit connects in
theorem extends_updateClassConstants {candidate : ClassId} {state : State ClassId Value}
    {statics : Statics ClassId Value}
    (done : updateClassConstants creator candidate state.statics = some statics) :
    Extends creator.toCreator state { state with statics } := by
  unfold updateClassConstants at done
  dsimp only at done
  split at done
  · cases Option.some.inj done
    exact .refl state
  · obtain ⟨started, engine, last⟩ := Option.bind_eq_some_iff.mp done
    split at last
    · cases last
    · cases Option.some.inj last
      exact extends_statics state (fun _ _ => members_zendClassInitStatics engine)
        fun shaped => shaped.zendClassInitStatics engine

omit connects in
/-- Whatever is prepared, tables of static members stay as they are. -/
theorem keeps_extends (creator : ObjectCreator ClassId Value) :
    Keeps (threadBinding creator) (Extends creator.toCreator) where
  refl := .refl
  trans := .trans
  insert _ _ := ⟨subset_insertKey _ _, fun _ _ built => built, fun shaped => shaped⟩
  function _ _ := ⟨List.Subset.refl _, fun _ _ built => built, fun shaped => shaped⟩
  objectInit _ _ _ := extends_updateClassConstants
  lateBindings _ connects := extends_lateBindings connects

end Keeping

end Pthreads.ClassPreparation
