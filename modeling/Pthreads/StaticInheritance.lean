import Pthreads.BindingOrder
import Pthreads.StaticGrowth
import Mathlib.Tactic.Tauto

/-!
# Late bindings in order

The members of a class are set up by the first of its late bindings.  When its ancestors
have been bound before, or are used in place and still have their defaults, the tables
of static members come out as the engine of the creator has them.  This file keeps that
as an invariant of the late bindings, also while a class is half initialised.
-/

namespace Pthreads.ClassPreparation

variable {ClassId Value : Type*} (creator : ObjectCreator ClassId Value)

/-- The static members after late bindings in order: the `prepared` classes have a default
table, those of the progress have members. -/
structure Sound (prepared : List ClassId) (progress : Progress ClassId)
    (statics : Statics ClassId Value) : Prop where
  shaped : Shaped creator.toCreator statics
  within : ∀ candidate, candidate ∈ progress.opening ∨ candidate ∈ progress.bound →
    candidate ∈ prepared
  apart : ∀ candidate ∈ progress.opening, candidate ∉ progress.bound
  unbound : ∀ candidate, (creator.entry candidate).origin = .user →
    (creator.entry candidate).currentStatics.isSome → candidate ∉ prepared →
      statics.defaults candidate = []
  complete : ∀ candidate, (creator.entry candidate).origin = .user →
    (creator.entry candidate).currentStatics.isSome → candidate ∈ prepared →
      Inherits creator.toCreator candidate (statics.defaults candidate)
  faithful : ∀ candidate, candidate ∉ progress.opening → ∀ current table,
    (creator.entry candidate).currentStatics = some current →
      statics.members candidate = some table →
        table = faithfulTable creator candidate current
  reached : ∀ candidate, candidate ∈ progress.opening ∨ candidate ∈ progress.bound →
    (statics.members candidate).isSome
  above : ∀ candidate, (creator.entry candidate).currentStatics.isSome →
    (statics.members candidate).isSome → ∀ ancestor ∈ (creator.entry candidate).lineage,
      Settled creator progress.bound ancestor ∧
        ((creator.entry ancestor).count ≠ 0 → (statics.members ancestor).isSome)
  settled : ∀ candidate, (creator.entry candidate).currentStatics.isSome →
    (statics.members candidate).isSome →
      candidate ∈ progress.opening ∨ Settled creator progress.bound candidate

/-- A class that is half initialised has an object among its static members, and a slot that
has not been written. -/
structure HalfOpen (statics : Statics ClassId Value) (candidate : ClassId) : Prop where
  initialised : (creator.entry candidate).currentStatics.isSome
  changed : ¬KeepsDefaults creator candidate
  hole : ∃ slot < (creator.entry candidate).count,
    statics.slotAt (candidate, slot) = some .unwritten

/-- The static members while some classes are half initialised. -/
structure InOrder (prepared : List ClassId) (progress : Progress ClassId)
    (statics : Statics ClassId Value) : Prop where
  sound : Sound creator prepared progress statics
  halfOpen : ∀ candidate ∈ progress.opening, HalfOpen creator statics candidate

section Facts

variable {creator}
variable {prepared bound : List ClassId} {progress : Progress ClassId}
variable {statics after : Statics ClassId Value} {candidate ancestor : ClassId}

theorem Settled.mono {larger : List ClassId}
    (settled : Settled creator bound candidate) (within : bound ⊆ larger) :
    Settled creator larger candidate := by
  rcases settled with none | early | kept
  · exact Or.inl none
  · exact Or.inr (Or.inl (within early))
  · exact Or.inr (Or.inr kept)

theorem count_ne_zero (initialised : (creator.entry candidate).currentStatics.isSome) :
    (creator.entry candidate).count ≠ 0 := by
  obtain ⟨current, found⟩ := Option.isSome_iff_exists.mp initialised
  exact (currentStatics_eq_some.mp found).1

theorem isSome_currentStatics_lineage
    (initialised : (creator.entry candidate).currentStatics.isSome)
    (above : ancestor ∈ (creator.entry candidate).lineage)
    (declares : (creator.entry ancestor).count ≠ 0) :
    (creator.entry ancestor).currentStatics.isSome := by
  obtain ⟨current, has⟩ := Option.isSome_iff_exists.mp initialised
  obtain ⟨inherited, found, _⟩ :=
    currentStatics_lineage has above declares
  exact Option.isSome_iff_exists.mpr ⟨inherited, found⟩

/-- A class that is half initialised is no ancestor to be used. -/
theorem HalfOpen.unsettled (half : HalfOpen creator statics candidate)
    (outside : candidate ∉ bound) : ¬Settled creator bound candidate := by
  rintro (none | early | kept)
  · exact count_ne_zero half.initialised none
  · exact outside early
  · exact half.changed kept.2

theorem InOrder.notOpening (inOrder : InOrder creator prepared progress statics)
    (settled : Settled creator progress.bound candidate) :
    candidate ∉ progress.opening :=
  fun isIn => (inOrder.halfOpen candidate isIn).unsettled (inOrder.sound.apart candidate isIn)
    settled

/-- Slots that have not been written stay so in tables that stay as they are. -/
theorem HalfOpen.extend (half : HalfOpen creator statics candidate)
    (stays : ∀ other table, statics.members other = some table →
      after.members other = some table) : HalfOpen creator after candidate where
  initialised := half.initialised
  changed := half.changed
  hole := by
    obtain ⟨slot, below, hole⟩ := half.hole
    obtain ⟨table, built, isHole⟩ := Option.bind_eq_some_iff.mp hole
    exact ⟨slot, below, Option.bind_eq_some_iff.mpr ⟨table, stays candidate table built, isHole⟩⟩

/-- Only for classes that are initialised in the creator it matters whether they have been
prepared. -/
theorem Sound.congr (sound : Sound creator prepared progress statics) {others : List ClassId}
    (within : ∀ candidate, candidate ∈ progress.opening ∨ candidate ∈ progress.bound →
      candidate ∈ others)
    (same : ∀ candidate, (creator.entry candidate).currentStatics.isSome →
      (candidate ∈ prepared ↔ candidate ∈ others)) : Sound creator others progress statics :=
  { sound with
    within := within
    unbound := fun candidate copied initialised outside =>
      sound.unbound candidate copied initialised
        fun isIn => outside ((same candidate initialised).mp isIn)
    complete := fun candidate copied initialised isIn =>
      sound.complete candidate copied initialised ((same candidate initialised).mpr isIn) }

/-- A prepared class that is initialised in the creator has a complete default table. -/
theorem Sound.inherits (sound : Sound creator prepared progress statics)
    (initialised : (creator.entry candidate).currentStatics.isSome)
    (isIn : (creator.entry candidate).origin = .user → candidate ∈ prepared) :
    Inherits creator.toCreator candidate (creator.defaultTable statics candidate) := by
  by_cases copied : (creator.entry candidate).origin = .user
  · rw [defaultTable_copied copied]
    exact sound.complete candidate copied initialised (isIn copied)
  · rw [defaultTable_shared copied]
    exact inherits_sharedDefaults candidate

/-- A settled class has a default table of the length that it has in the creator. -/
theorem Sound.length_defaultTable
    (sound : Sound creator prepared progress statics)
    (initialised : (creator.entry candidate).count ≠ 0 →
      (creator.entry candidate).currentStatics.isSome)
    (settled : Settled creator progress.bound candidate) :
    (creator.defaultTable statics candidate).length = (creator.entry candidate).count := by
  by_cases declares : (creator.entry candidate).count = 0
  · have short := sound.shaped.length_defaultTable candidate
    omega
  · rcases settled with none | early | kept
    · exact absurd none declares
    · have isIn := sound.within candidate (Or.inr early)
      exact (sound.inherits (initialised declares) fun _ => isIn).length
    · rw [defaultTable_shared kept.1]
      exact length_sharedDefaults

theorem Sound.members_eq (sound : Sound creator prepared progress statics)
    (outside : candidate ∉ progress.opening) {current : List Value}
    (found : (creator.entry candidate).currentStatics = some current)
    (built : (statics.members candidate).isSome) :
    statics.members candidate =
      some (faithfulTable creator candidate current) := by
  obtain ⟨table, members⟩ := Option.isSome_iff_exists.mp built
  rw [members, sound.faithful candidate outside current table found members]

/-- Where the ancestors are set up, the slots of the parent lead to where they are
introduced. -/
theorem InOrder.deindirect (inOrder : InOrder creator prepared progress statics)
    (initialised : (creator.entry candidate).currentStatics.isSome)
    (settled : ∀ ancestor ∈ (creator.entry candidate).lineage,
      Settled creator progress.bound ancestor)
    (above : ∀ ancestor ∈ (creator.entry candidate).lineage,
      (creator.entry ancestor).count ≠ 0 → (statics.members ancestor).isSome)
    {parent : ClassId} {rest : List ClassId}
    (line : (creator.entry candidate).lineage = parent :: rest) {slot : Nat}
    (below : slot < (creator.entry parent).count) :
    statics.deindirect (parent, slot) = (creator.introduces parent slot, slot) ∧
      statics.unwritten (parent, slot) = false := by
  have isIn : parent ∈ (creator.entry candidate).lineage := by simp [line]
  have declares : (creator.entry parent).count ≠ 0 := by omega
  obtain ⟨current, has⟩ := Option.isSome_iff_exists.mp
    (isSome_currentStatics_lineage initialised isIn declares)
  have built := inOrder.sound.members_eq (inOrder.notOpening (settled parent isIn)) has
    (above parent isIn declares)
  exact ⟨deindirect_faithful built below, unwritten_faithful built slot⟩

variable [DecidableEq ClassId]

/-- Setting up one more class with faithful members. -/
theorem InOrder.build (inOrder : InOrder creator prepared progress statics)
    {current : List Value} (found : (creator.entry candidate).currentStatics = some current)
    (settled : Settled creator progress.bound candidate)
    (above : ∀ ancestor ∈ (creator.entry candidate).lineage,
      Settled creator progress.bound ancestor ∧
        ((creator.entry ancestor).count ≠ 0 → (statics.members ancestor).isSome)) :
    InOrder creator prepared progress { statics with
      members := Function.update statics.members candidate
        (some (faithfulTable creator candidate current)) } := by
  have outside := inOrder.notOpening settled
  have stays : ∀ other, (statics.members other).isSome →
      (Function.update statics.members candidate
        (some (faithfulTable creator candidate current)) other).isSome := by
    intro other built
    by_cases same : other = candidate
    · simp [same]
    · simpa [Function.update_of_ne same] using built
  refine ⟨?_, ?_⟩
  · exact
      { within := inOrder.sound.within
        apart := inOrder.sound.apart
        unbound := inOrder.sound.unbound
        complete := inOrder.sound.complete
        shaped := by
          apply inOrder.sound.shaped.build
          intro slot target indirect
          have below : slot < (creator.entry candidate).count := by
            have inside := (List.getElem?_eq_some_iff.mp indirect).1
            rwa [length_faithfulTable] at inside
          rw [getElem?_faithfulTable below] at indirect
          by_contra declared
          simp [declared] at indirect
        faithful := by
          intro other notOpening values table has built
          by_cases same : other = candidate
          · subst same
            cases found.symm.trans has
            simpa using built.symm
          · simp only [Function.update_of_ne same] at built
            exact inOrder.sound.faithful other notOpening values table has built
        reached := fun other isIn => stays other (inOrder.sound.reached other isIn)
        above := by
          intro other initialised built ancestor isIn
          by_cases same : other = candidate
          · subst same
            exact (above ancestor isIn).imp_right fun has declares => stays _ (has declares)
          · simp only [Function.update_of_ne same] at built
            exact (inOrder.sound.above other initialised built ancestor isIn).imp_right
              fun has declares => stays _ (has declares)
        settled := by
          intro other initialised built
          by_cases same : other = candidate
          · exact Or.inr (same ▸ settled)
          · simp only [Function.update_of_ne same] at built
            exact inOrder.sound.settled other initialised built }
  · intro other isIn
    have different : other ≠ candidate := by
      rintro rfl
      exact outside isIn
    have half := inOrder.halfOpen other isIn
    refine ⟨half.initialised, half.changed, ?_⟩
    obtain ⟨slot, below, hole⟩ := half.hole
    exact ⟨slot, below, by simpa [Statics.slotAt, Function.update_of_ne different] using hole⟩

/-- The engine sets up settled ancestors as they should be. -/
theorem InOrder.zendClassInitStatics
    (inOrder : InOrder creator prepared progress statics) (line : List ClassId)
    (chain : ∀ candidate rest, line = candidate :: rest →
      rest = (creator.entry candidate).lineage)
    (initialised : ∀ ancestor ∈ line, (creator.entry ancestor).count ≠ 0 →
      (creator.entry ancestor).currentStatics.isSome)
    (settled : ∀ ancestor ∈ line, Settled creator progress.bound ancestor) :
    ∃ after, zendClassInitStatics creator.toCreator line statics = some after ∧
      InOrder creator prepared progress after ∧
        ∀ ancestor ∈ line, (creator.entry ancestor).count ≠ 0 →
          (after.members ancestor).isSome := by
  induction line with
  | nil => exact ⟨statics, rfl, inOrder, fun _ isIn => absurd isIn List.not_mem_nil⟩
  | cons candidate rest ih =>
      cases chain candidate rest rfl
      have here := settled candidate List.mem_cons_self
      have lengths := inOrder.sound.length_defaultTable
        (initialised candidate List.mem_cons_self) here
      rw [ClassPreparation.zendClassInitStatics]
      split
      · next skipped =>
          -- Either the class has no static members, nor have its ancestors, or it is set up.
          refine ⟨statics, rfl, inOrder, fun ancestor isIn declares => ?_⟩
          rcases skipped with empty | built
          · rw [List.isEmpty_iff_length_eq_zero, lengths] at empty
            rcases List.mem_cons.mp isIn with rfl | above
            · exact absurd empty declares
            · have smaller := count_le above
              omega
          · rcases List.mem_cons.mp isIn with rfl | above
            · exact built
            · have larger := count_le above
              exact (inOrder.sound.above candidate
                (initialised candidate List.mem_cons_self (by omega)) built ancestor above).2
                declares
      · next fresh =>
          obtain ⟨filled, unbuilt⟩ := not_or.mp fresh
          have declares : (creator.entry candidate).count ≠ 0 := by
            rwa [List.isEmpty_iff_length_eq_zero, lengths] at filled
          have has := initialised candidate List.mem_cons_self declares
          -- A bound class would have members, so its defaults are as good.
          have kept : (creator.entry candidate).origin ≠ .user ∧
              KeepsDefaults creator candidate := by
            rcases here with none | early | kept
            · exact absurd none declares
            · exact absurd (inOrder.sound.reached candidate (Or.inr early)) unbuilt
            · exact kept
          have next : ∀ other others, (creator.entry candidate).lineage = other :: others →
              others = (creator.entry other).lineage :=
            fun other others line => (creator.lineage_parent candidate other others line).2.symm
          have higher : ∀ ancestor ∈ (creator.entry candidate).lineage,
              Settled creator progress.bound ancestor :=
            fun ancestor isIn => settled ancestor (List.mem_cons_of_mem _ isIn)
          obtain ⟨middle, done, inOrderAbove, builtAbove⟩ := ih next
            (fun ancestor isIn => initialised ancestor (List.mem_cons_of_mem _ isIn)) higher
          obtain ⟨current, found⟩ := Option.isSome_iff_exists.mp has
          have complete : Inherits creator.toCreator candidate
              (creator.defaultTable statics candidate) :=
            inOrder.sound.inherits has fun copied => absurd copied kept.1
          have parents : ∀ parent rest, (creator.entry candidate).lineage = parent :: rest →
              ∀ slot < (creator.entry parent).count,
                middle.deindirect (parent, slot) = (creator.introduces parent slot, slot) ∧
                  middle.unwritten (parent, slot) = false :=
            fun parent rest line slot below =>
              inOrderAbove.deindirect has higher builtAbove line below
          have readable : middle.Readable (creator.defaultTable statics candidate)
              (creator.entry candidate).lineage := by
            intro parent isParent slot _ isIndirect
            obtain ⟨target, indirect⟩ := isIndirect_iff.mp isIndirect
            obtain ⟨rest, line⟩ := List.head?_eq_some_iff.mp isParent
            have inherited := complete.indirect slot target indirect
            rw [inherited_eq line] at inherited
            exact (parents parent rest line slot inherited).2
          have table : memberTable middle (creator.defaultTable statics candidate)
              (creator.entry candidate).lineage =
                faithfulTable creator candidate current := by
            apply memberTable_faithful complete
            · exact fun parent rest line slot below => (parents parent rest line slot below).1
            · intro slot content there
              rw [defaultTable_shared kept.1] at there
              have original := sharedDefaults_value there
              have below : slot < (creator.entry candidate).count :=
                (List.getElem?_eq_some_iff.mp original).1
              have declared := (inherits_sharedDefaults candidate).declared slot content there
              have same := (kept.2 current found slot (List.mem_range.mpr below) declared).1
              exact Option.some.inj (original.symm.trans same)
          refine ⟨_, ?_, inOrderAbove.build found here fun ancestor isIn =>
            ⟨higher ancestor isIn, builtAbove ancestor isIn⟩, ?_⟩
          · rw [done, ← table]
            exact if_pos readable
          · intro ancestor isIn declares
            by_cases first : ancestor = candidate
            · simp [first]
            · simp only [Function.update_of_ne first]
              exact builtAbove ancestor (List.mem_of_ne_of_mem first isIn) declares

/-- The default table of a class whose ancestors are settled comes out complete. -/
theorem Sound.inherits_prepared
    (sound : Sound creator prepared progress statics)
    (initialised : (creator.entry candidate).currentStatics.isSome)
    (settled : ∀ ancestor ∈ (creator.entry candidate).lineage,
      Settled creator progress.bound ancestor) :
    Inherits creator.toCreator candidate
      ((prepareClassStatics creator candidate statics).defaults candidate) := by
  have shaped : Shaped creator.toCreator
      (prepareClassStatics creator candidate statics) :=
    sound.shaped.prepareClassStatics candidate
  refine ⟨?_, shaped.defaults candidate, ?_, ?_⟩
  · rw [defaults_prepareClassStatics_self, List.length_mapIdx, ClassEntry.count]
  · intro slot content found
    rw [defaults_prepareClassStatics_self, List.getElem?_mapIdx, Option.map_eq_some_iff] at found
    obtain ⟨original, _, prepared⟩ := found
    cases line : (creator.entry candidate).lineage with
    | nil => simp [inherited_nil line]
    | cons parent rest =>
        have isIn : parent ∈ (creator.entry candidate).lineage := by simp [line]
        rw [inherited_eq line, ← sound.length_defaultTable
          (isSome_currentStatics_lineage initialised isIn) (settled parent isIn)]
        by_contra inherited
        rw [line] at prepared
        obtain ⟨target, indirect⟩ :=
          (preparedSlot_cons parent rest slot original).mpr (Nat.not_le.mp inherited)
        cases indirect.symm.trans prepared
  · intro isIn
    obtain ⟨slot, found⟩ := List.mem_iff_getElem?.mp isIn
    rw [defaults_prepareClassStatics_self, List.getElem?_mapIdx, Option.map_eq_some_iff] at found
    obtain ⟨original, _, same⟩ := found
    exact preparedSlot_written _ _ _ same

/-- The first half of late bindings. -/
theorem InOrder.prepare (inOrder : InOrder creator prepared progress statics)
    (settled : (creator.entry candidate).currentStatics.isSome →
      ∀ ancestor ∈ (creator.entry candidate).lineage,
        Settled creator progress.bound ancestor) :
    InOrder creator (candidate :: prepared) progress
      (bindDefaults creator candidate statics) := by
  have sound := inOrder.sound
  unfold bindDefaults
  split
  · constructor
    · exact
        { sound with
          shaped := sound.shaped.prepareClassStatics candidate
          within := fun other isIn => List.mem_cons_of_mem _ (sound.within other isIn)
          unbound := by
            intro other copied initialised outside
            rw [List.mem_cons, not_or] at outside
            rw [defaults_prepareClassStatics_other outside.1]
            exact sound.unbound other copied initialised outside.2
          complete := by
            intro other copied initialised isIn
            by_cases same : other = candidate
            · subst same
              exact sound.inherits_prepared initialised (settled initialised)
            · rw [defaults_prepareClassStatics_other same]
              exact sound.complete other copied initialised (List.mem_of_ne_of_mem same isIn) }
    · exact fun other isIn => (inOrder.halfOpen other isIn).extend fun _ _ built => built
  · next shared =>
      constructor
      · exact
          { sound with
            within := fun other isIn => List.mem_cons_of_mem _ (sound.within other isIn)
            unbound := fun other copied initialised outside =>
              sound.unbound other copied initialised fun isIn =>
                outside (List.mem_cons_of_mem _ isIn)
            complete := by
              intro other copied initialised isIn
              apply sound.complete other copied initialised (List.mem_of_ne_of_mem _ isIn)
              rintro rfl
              exact shared copied }
      · exact inOrder.halfOpen

end Facts

/-- The members of a class while the slots below a bound have not been written. -/
def partialTable (candidate : ClassId) (current : List Value) (left : Nat) :
    List (Slot ClassId Value) :=
  (faithfulTable creator candidate current).mapIdx fun slot content =>
    if slot < left then .unwritten else content

/-- The loop of `init_class_statics`, with so many slots left. -/
structure Opening (candidate : ClassId) (current : List Value) (others : List ClassId)
    (left : Nat) (progress : Progress ClassId) (statics : Statics ClassId Value) : Prop where
  opening : progress.opening = candidate :: others
  sound : Sound creator (progress.opening ++ progress.bound) progress statics
  halfOpen : ∀ other ∈ others, HalfOpen creator statics other
  built : statics.members candidate = some (partialTable creator candidate current left)

section Loop

variable {creator}
variable {progress : Progress ClassId} {statics after : Statics ClassId Value}
variable {candidate : ClassId} {current : List Value} {others : List ClassId} {left slot : Nat}

theorem length_partialTable :
    (partialTable creator candidate current left).length =
      (creator.entry candidate).count := by
  rw [partialTable, List.length_mapIdx, length_faithfulTable]

theorem getElem?_partialTable :
    (partialTable creator candidate current left)[slot]? =
      (faithfulTable creator candidate current)[slot]?.map fun content =>
        if slot < left then .unwritten else content :=
  List.getElem?_mapIdx

/-- Writing the last slot that is left. -/
theorem set_partialTable {content : Slot ClassId Value}
    (faithful : (faithfulTable creator candidate current)[slot]? =
      some content) :
    (partialTable creator candidate current (slot + 1)).set slot content =
      partialTable creator candidate current slot := by
  apply List.ext_getElem?
  intro index
  have inside : slot < (creator.entry candidate).count := by
    have within := (List.getElem?_eq_some_iff.mp faithful).1
    rwa [length_faithfulTable] at within
  by_cases same : index = slot
  · subst same
    rw [List.getElem?_set_self (by rwa [length_partialTable]), getElem?_partialTable, faithful]
    simp
  · rw [List.getElem?_set_ne (Ne.symm same), getElem?_partialTable, getElem?_partialTable]
    congr 1
    funext content
    by_cases below : index < slot
    · rw [if_pos below, if_pos (by omega)]
    · rw [if_neg below, if_neg (by omega)]

theorem partialTable_zero :
    partialTable creator candidate current 0 =
      faithfulTable creator candidate current := by
  apply List.ext_getElem?
  intro index
  rw [getElem?_partialTable]
  simp

theorem partialTable_count :
    partialTable creator candidate current (creator.entry candidate).count =
      List.replicate (creator.entry candidate).count .unwritten := by
  apply List.ext_getElem?
  intro index
  rw [getElem?_partialTable, List.getElem?_replicate]
  by_cases below : index < (creator.entry candidate).count
  · rw [getElem?_faithfulTable below]
    simp [below]
  · rw [List.getElem?_eq_none (by rw [length_faithfulTable]; omega), if_neg below]
    rfl

/-- An indirection in the partial table is one of the faithful table. -/
theorem partialTable_indirect {target : Address ClassId}
    (found : (partialTable creator candidate current left)[slot]? =
      some (.indirect target)) : slot < creator.inherited candidate := by
  rw [getElem?_partialTable] at found
  obtain ⟨content, faithful, same⟩ := Option.map_eq_some_iff.mp found
  have below : slot < (creator.entry candidate).count := by
    have within := (List.getElem?_eq_some_iff.mp faithful).1
    rwa [length_faithfulTable] at within
  split at same
  · cases same
  · rw [getElem?_faithfulTable below] at faithful
    by_contra declared
    rw [if_neg declared] at faithful
    cases Option.some.inj faithful
    cases same

/-- While objects are connected for a slot the class is half initialised. -/
theorem Opening.inOrder
    (opening : Opening creator candidate current others (slot + 1) progress statics)
    (initialised : (creator.entry candidate).currentStatics.isSome)
    (below : slot < (creator.entry candidate).count)
    (changed : ¬KeepsDefaults creator candidate) :
    InOrder creator (progress.opening ++ progress.bound) progress statics where
  sound := opening.sound
  halfOpen other isIn := by
    rw [opening.opening] at isIn
    rcases List.mem_cons.mp isIn with rfl | isOther
    · refine ⟨initialised, changed, slot, below, ?_⟩
      rw [Statics.slotAt, opening.built, Option.bind_some, getElem?_partialTable,
        getElem?_faithfulTable below]
      simp
    · exact opening.halfOpen other isOther

/-- What is connected meanwhile leaves the table of the class as it is. -/
theorem Opening.reopen {later : Progress ClassId}
    (opening : Opening creator candidate current others left progress statics)
    (inOrder : InOrder creator (later.opening ++ later.bound) later after)
    (same : later.opening = progress.opening)
    (stays : ∀ other table, statics.members other = some table →
      after.members other = some table) :
    Opening creator candidate current others left later after where
  opening := same.trans opening.opening
  sound := inOrder.sound
  halfOpen other isIn := by
    apply inOrder.halfOpen
    rw [same, opening.opening]
    exact List.mem_cons_of_mem _ isIn
  built := stays candidate _ opening.built

variable [DecidableEq ClassId]

/-- A table of a class that is half initialised may be any that has a proper shape. -/
theorem Sound.rebuild {prepared : List ClassId}
    (sound : Sound creator prepared progress statics)
    (isIn : candidate ∈ progress.opening) {table : List (Slot ClassId Value)}
    (indirect : ∀ slot target, table[slot]? = some (.indirect target) →
      slot < creator.inherited candidate) :
    Sound creator prepared progress
      { statics with members := Function.update statics.members candidate (some table) } := by
  have isSome : ∀ other, (Function.update statics.members candidate (some table) other).isSome ↔
      (statics.members other).isSome := by
    intro other
    by_cases same : other = candidate
    · rw [same, Function.update_self]
      simp [sound.reached candidate (Or.inl isIn)]
    · rw [Function.update_of_ne same]
  exact
    { sound with
      shaped := sound.shaped.build indirect
      faithful := by
        intro other outside values others has built
        have different : other ≠ candidate := fun same => outside (same ▸ isIn)
        simp only [Function.update_of_ne different] at built
        exact sound.faithful other outside values others has built
      reached := fun other isIn => (isSome other).mpr (sound.reached other isIn)
      above := by
        intro other initialised built ancestor isAbove
        have higher := sound.above other initialised ((isSome other).mp built) ancestor isAbove
        exact higher.imp_right fun reached declares => (isSome ancestor).mpr (reached declares)
      settled := fun other initialised built =>
        sound.settled other initialised ((isSome other).mp built) }

theorem HalfOpen.rebuild {other : ClassId} (half : HalfOpen creator statics other)
    (different : other ≠ candidate) (table : List (Slot ClassId Value)) :
    HalfOpen creator
      { statics with members := Function.update statics.members candidate (some table) } other where
  initialised := half.initialised
  changed := half.changed
  hole := by
    obtain ⟨slot, below, hole⟩ := half.hole
    exact ⟨slot, below, by simpa [Statics.slotAt, Function.update_of_ne different] using hole⟩

/-- The next slot is written as it should be. -/
theorem Opening.write {content : Slot ClassId Value}
    (opening : Opening creator candidate current others (slot + 1) progress statics)
    (fresh : candidate ∉ others)
    (faithful : (faithfulTable creator candidate current)[slot]? =
      some content) :
    Opening creator candidate current others slot progress
      (statics.write (candidate, slot) content) := by
  have written : statics.write (candidate, slot) content =
      { statics with
        members := Function.update statics.members candidate
          (some (partialTable creator candidate current slot)) } := by
    unfold Statics.write
    rw [opening.built, Option.map_some, set_partialTable faithful]
  have isIn : candidate ∈ progress.opening := by
    rw [opening.opening]
    exact List.mem_cons_self
  rw [written]
  constructor
  · exact opening.opening
  · exact opening.sound.rebuild isIn fun slot target => partialTable_indirect
  · intro other isOther
    apply (opening.halfOpen other isOther).rebuild
    rintro rfl
    exact fresh isOther
  · exact Function.update_self _ _ _

/-- At the start of the loop no slot has been written. -/
theorem InOrder.allocate
    (inOrder : InOrder creator (candidate :: (progress.opening ++ progress.bound))
      progress statics)
    (found : (creator.entry candidate).currentStatics = some current)
    (notOpening : candidate ∉ progress.opening) (notBound : candidate ∉ progress.bound)
    (above : ∀ ancestor ∈ (creator.entry candidate).lineage,
      Settled creator progress.bound ancestor ∧
        ((creator.entry ancestor).count ≠ 0 → (statics.members ancestor).isSome)) :
    Opening creator candidate current progress.opening
      (creator.entry candidate).count ⟨candidate :: progress.opening, progress.bound⟩
      (statics.allocate candidate (creator.entry candidate).count) := by
  have sound := inOrder.sound
  have stays : ∀ other, (statics.members other).isSome →
      ((statics.allocate candidate (creator.entry candidate).count).members other).isSome := by
    intro other built
    by_cases same : other = candidate
    · simp [Statics.allocate, same]
    · simpa [Statics.allocate, Function.update_of_ne same] using built
  constructor
  · rfl
  · exact
      { unbound := sound.unbound
        complete := sound.complete
        shaped := sound.shaped.allocate candidate _
        within := fun other isIn => List.mem_append.mpr isIn
        apart := by
          intro other isIn
          rcases List.mem_cons.mp isIn with rfl | earlier
          · exact notBound
          · exact sound.apart other earlier
        faithful := by
          intro other outside values table has built
          rw [List.mem_cons, not_or] at outside
          simp only [Statics.allocate, Function.update_of_ne outside.1] at built
          exact sound.faithful other outside.2 values table has built
        reached := by
          intro other isIn
          by_cases same : other = candidate
          · simp [Statics.allocate, same]
          · apply stays
            apply sound.reached
            exact isIn.imp_left (List.mem_of_ne_of_mem same)
        above := by
          intro other initialised built ancestor isAbove
          by_cases same : other = candidate
          · subst same
            exact (above ancestor isAbove).imp_right fun has declares => stays _ (has declares)
          · simp only [Statics.allocate, Function.update_of_ne same] at built
            exact (sound.above other initialised built ancestor isAbove).imp_right
              fun has declares => stays _ (has declares)
        settled := by
          intro other initialised built
          by_cases same : other = candidate
          · exact Or.inl (same ▸ List.mem_cons_self)
          · simp only [Statics.allocate, Function.update_of_ne same] at built
            exact (sound.settled other initialised built).imp_left (List.mem_cons_of_mem _) }
  · intro other isIn
    apply (inOrder.halfOpen other isIn).rebuild
    rintro rfl
    exact notOpening isIn
  · rw [partialTable_count]
    exact Function.update_self _ _ _

/-- At the end of the loop the class is bound. -/
theorem Opening.close
    (opening : Opening creator candidate current others 0 progress statics)
    (found : (creator.entry candidate).currentStatics = some current)
    (fresh : candidate ∉ others) :
    InOrder creator (others ++ (progress.bound ++ [candidate]))
      ⟨others, progress.bound ++ [candidate]⟩ statics := by
  have larger : progress.bound ⊆ progress.bound ++ [candidate] := List.subset_append_left _ _
  have isIn : candidate ∈ progress.bound ++ [candidate] :=
    List.mem_append_right _ (List.mem_singleton_self candidate)
  have same : ∀ other, other ∈ progress.opening ++ progress.bound ↔
      other ∈ others ++ (progress.bound ++ [candidate]) := by
    intro other
    rw [opening.opening]
    simp only [List.cons_append, List.mem_cons, List.mem_append, List.not_mem_nil, or_false]
    tauto
  have sound := opening.sound.congr (fun other isIn => (same other).mp (List.mem_append.mpr isIn))
    fun other _ => same other
  have earlier : ∀ other, other ∈ others → other ∈ progress.opening := by
    intro other isOther
    rw [opening.opening]
    exact List.mem_cons_of_mem _ isOther
  refine ⟨?_, opening.halfOpen⟩
  exact
    { unbound := sound.unbound
      complete := sound.complete
      shaped := sound.shaped
      within := fun other isIn => List.mem_append.mpr isIn
      apart := by
        intro other isOther isBound
        rcases List.mem_append.mp isBound with before | here
        · exact sound.apart other (earlier other isOther) before
        · rw [List.mem_singleton.mp here] at isOther
          exact fresh isOther
      faithful := by
        intro other outside values table has built
        by_cases equal : other = candidate
        · subst equal
          cases found.symm.trans has
          rw [opening.built, partialTable_zero] at built
          exact (Option.some.inj built).symm
        · apply sound.faithful other _ values table has built
          rw [opening.opening, List.mem_cons, not_or]
          exact ⟨equal, outside⟩
      reached := by
        intro other isOther
        apply sound.reached
        rcases isOther with before | bound
        · exact Or.inl (earlier other before)
        · rcases List.mem_append.mp bound with before | here
          · exact Or.inr before
          · left
            rw [List.mem_singleton.mp here, opening.opening]
            exact List.mem_cons_self
      above := by
        intro other initialised built ancestor isAbove
        exact (sound.above other initialised built ancestor isAbove).imp_left
          fun settled => settled.mono larger
      settled := by
        intro other initialised built
        rcases sound.settled other initialised built with before | settled
        · rw [opening.opening] at before
          rcases List.mem_cons.mp before with rfl | isOther
          · exact Or.inr (Or.inr (Or.inl isIn))
          · exact Or.inl isOther
        · exact Or.inr (settled.mono larger) }

end Loop

end Pthreads.ClassPreparation
