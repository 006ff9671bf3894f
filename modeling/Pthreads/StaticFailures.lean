import Pthreads.StaticInheritance

/-!
# What goes wrong out of order

If the parent of a class has no default table when the class is bound, the class gets
slots of its own for what it inherits; if the parent has a default table but no members,
the engine sets these up with the defaults.  A slot that holds a value keeps it, so what
has gone wrong stays wrong.
-/

namespace Pthreads.ClassPreparation

open PartialFolds

variable {ClassId Value : Type*} (creator : ObjectCreator ClassId Value)

/-- Classes stay in the table, and values in their slots. -/
structure KeepsValues (state after : State ClassId Value) : Prop where
  table : state.table ⊆ after.table
  values : ∀ address content, state.statics.slotAt address = some (.value content) →
    after.statics.slotAt address = some (.value content)

/-- A slot of a class has a value of its own although the class inherits it, or the ancestor
that introduces the slot holds something else than a copy of what the creator has. -/
structure BrokenSlot (statics : Statics ClassId Value) (candidate : ClassId)
    (current : List Value) (slot : Nat) (content : Value) : Prop where
  below : slot < (creator.entry candidate).count
  wrong : (slot < creator.inherited candidate ∧
      statics.slotAt (candidate, slot) = some (.value content)) ∨
    (statics.slotAt (creator.introduces candidate slot, slot) = some (.value content) ∧
      content ≠ creator.copiedStatic current slot)

/-- The slot of a class in the table is not what it should be, and will not become so. -/
def Broken (state : State ClassId Value) : Prop :=
  ∃ candidate ∈ state.table, (creator.entry candidate).origin ≠ .internal ∧
    ∃ current, (creator.entry candidate).currentStatics = some current ∧
      ∃ slot content, BrokenSlot creator state.statics candidate current slot content

/-- A state from which a thread does not come to what its creator has. -/
structure Spoilt (state : State ClassId Value) : Prop where
  shaped : Shaped creator.toCreator state.statics
  broken : Broken creator state

section Staying

variable {creator} {first state middle after : State ClassId Value}

theorem KeepsValues.trans (one : KeepsValues state middle) (other : KeepsValues middle after) :
    KeepsValues state after where
  table := List.Subset.trans one.table other.table
  values address content stored :=
    other.values address content (one.values address content stored)

theorem Extends.keepsValues {creator : Creator ClassId Value}
    (extended : Extends creator state after) : KeepsValues state after where
  table := extended.table
  values _ _ stored := extended.slotAt stored

theorem Broken.keep (broken : Broken creator state) (keeps : KeepsValues state after) :
    Broken creator after := by
  obtain ⟨candidate, isIn, notInternal, current, found, slot, content, below, wrong⟩ := broken
  refine ⟨candidate, keeps.table isIn, notInternal, current, found, slot, content, below, ?_⟩
  rcases wrong with ⟨inherited, own⟩ | ⟨introduced, differs⟩
  · exact Or.inl ⟨inherited, keeps.values _ content own⟩
  · exact Or.inr ⟨keeps.values _ content introduced, differs⟩

theorem Spoilt.extend (spoilt : Spoilt creator state)
    (extended : Extends creator.toCreator state after) : Spoilt creator after where
  shaped := extended.shaped spoilt.shaped
  broken := spoilt.broken.keep extended.keepsValues

theorem Resolves.eq_of_value {statics : Statics ClassId Value} {address storage : Address ClassId}
    (resolved : Resolves statics address storage)
    (direct : ∀ target, statics.slotAt address ≠ some (.indirect target)) :
    storage = address := by
  cases resolved with
  | storage => rfl
  | indirection refers _ => exact absurd refers (direct _)

/-- A broken slot does not share its storage, or holds another value. -/
theorem Spoilt.not_inheritedStatics (spoilt : Spoilt creator state) :
    ¬InheritedStatics creator state := by
  intro shared
  obtain ⟨candidate, isIn, notInternal, current, found, slot, content, below, wrong⟩ :=
    spoilt.broken
  obtain ⟨storage, own, introduced, copied⟩ :=
    shared candidate isIn notInternal current found slot below
  have declared := (introduces_spec below).2.1
  have there : storage = (creator.introduces candidate slot, slot) := by
    apply introduced.eq_of_value
    intro target refers
    have inherited := spoilt.shaped.members _ slot target refers
    omega
  rcases wrong with ⟨inherited, split⟩ | ⟨stored, differs⟩
  · have here : storage = (candidate, slot) := own.eq_of_value (by simp [split])
    have same : candidate = creator.introduces candidate slot :=
      congrArg Prod.fst (here.symm.trans there)
    rw [← same] at declared
    omega
  · rw [there, stored] at copied
    cases Option.some.inj copied
    exact differs rfl

variable [DecidableEq ClassId]

/-- Writing a slot that has not been written keeps the values. -/
theorem keepsValues_write {address : Address ClassId} (content : Slot ClassId Value)
    (unwritten : state.statics.slotAt address = some .unwritten) :
    KeepsValues state { state with statics := state.statics.write address content } where
  table := List.Subset.refl _
  values other value stored := by
    have different : other ≠ address := by
      rintro rfl
      cases stored.symm.trans unwritten
    dsimp only
    rw [Statics.slotAt_write, if_neg different]
    exact stored

variable {connect : ClassId → State ClassId Value → Option (State ClassId Value)}
  (connects : ∀ candidate, Does (Extends creator.toCreator) (connect candidate))
  {candidate : ClassId} {defaults : List (Slot ClassId Value)} {current : List Value}
  {slot left : Nat}

include connects

theorem keepsValues_initSlot
    (filling : Filling creator.toCreator candidate (slot + 1) first state)
    (done : initSlot creator connect candidate defaults current slot state = some after) :
    KeepsValues state after := by
  unfold initSlot at done
  split at done
  · split at done
    · cases done
    · cases Option.some.inj done
      exact keepsValues_write _ (filling.unwritten slot (Nat.lt_succ_self slot))
  · obtain ⟨middle, connected, rfl⟩ := Option.map_eq_some_iff.mp done
    have extended := extends_connectEach connects _ state middle connected
    apply extended.keepsValues.trans
    exact keepsValues_write _
      ((filling.extend extended).unwritten slot (Nat.lt_succ_self slot))

theorem Spoilt.initSlot (spoilt : Spoilt creator state)
    (filling : Filling creator.toCreator candidate (slot + 1) first state)
    (indirect : ∀ target, defaults[slot]? = some (.indirect target) →
      slot < creator.inherited candidate)
    (done : initSlot creator connect candidate defaults current slot state = some after) :
    Spoilt creator after where
  shaped := by
    have fresh : Filling creator.toCreator candidate (slot + 1) state state :=
      ⟨List.Subset.refl _, fun _ _ _ built => built, fun shaped => shaped, filling.unwritten⟩
    exact (filling_initSlot connects (fun _ => indirect) fresh done).shaped spoilt.shaped
  broken := spoilt.broken.keep (keepsValues_initSlot connects filling done)

end Staying

section Loops

variable {creator} [DecidableEq ClassId] {first state after : State ClassId Value}
  {connect : ClassId → State ClassId Value → Option (State ClassId Value)}
  (connects : ∀ candidate, Does (Extends creator.toCreator) (connect candidate))
  {candidate : ClassId} {defaults : List (Slot ClassId Value)} {current : List Value}
  {slot left : Nat}
  (indirect : Shaped creator.toCreator first.statics → ∀ slot target,
    defaults[slot]? = some (.indirect target) → slot < creator.inherited candidate)

include connects indirect

/-- Where the default table has no indirection, the slot gets a value of its own. -/
theorem countDown_split (direct : ∀ target, defaults[0]? ≠ some (.indirect target))
    (filling : Filling creator.toCreator candidate (left + 1) first state)
    (done : countDown (initSlot creator connect candidate defaults current) (left + 1) state =
      some after) : ∃ content, after.statics.slotAt (candidate, 0) = some (.value content) := by
  induction left generalizing state with
  | zero =>
    obtain ⟨last, one, others⟩ := Option.bind_eq_some_iff.mp done
    cases Option.some.inj others
    unfold initSlot at one
    split at one
    · next isIndirect _ => exact absurd isIndirect (direct _)
    · obtain ⟨middle, connected, rfl⟩ := Option.map_eq_some_iff.mp one
      have extended := extends_connectEach connects _ state middle connected
      have unwritten := (filling.extend extended).unwritten 0 (Nat.lt_succ_self 0)
      refine ⟨creator.copiedStatic current 0, ?_⟩
      dsimp only
      rw [Statics.slotAt_write, if_pos rfl, unwritten]
      rfl
  | succ left ih =>
    obtain ⟨middle, one, others⟩ := Option.bind_eq_some_iff.mp done
    apply ih _ others
    exact filling_initSlot connects (fun shaped => indirect shaped _) filling one

/-- The loop does not get past a slot that the parent has not written. -/
theorem countDown_hole {parent : ClassId} {rest : List ClassId} {target : Address ClassId}
    (line : (creator.entry candidate).lineage = parent :: rest) (below : slot < left)
    (isIndirect : defaults[slot]? = some (.indirect target))
    (hole : first.statics.slotAt (parent, slot) = some .unwritten)
    (filling : Filling creator.toCreator candidate left first state) :
    countDown (initSlot creator connect candidate defaults current) left state = none := by
  induction left generalizing state with
  | zero => cases below
  | succ left ih =>
    rw [Option.eq_none_iff_forall_ne_some]
    intro after done
    obtain ⟨middle, one, others⟩ := Option.bind_eq_some_iff.mp done
    by_cases here : slot = left
    · have different : parent ≠ candidate := by
        rintro rfl
        have isIn : parent ∈ (creator.entry parent).lineage := by simp [line]
        exact self_notMem_lineage isIn
      obtain ⟨table, built, isHole⟩ := Option.bind_eq_some_iff.mp hole
      have there : state.statics.unwritten (parent, slot) = true := by
        simp only [Statics.unwritten, Statics.slotAt, filling.members parent different table built,
          Option.bind_some, isHole]
      rw [here] at isIndirect there
      unfold initSlot at one
      rw [isIndirect, line] at one
      simp [there] at one
    · have filled := filling_initSlot connects (fun shaped => indirect shaped left) filling one
      rw [ih (by omega) filled] at others
      cases others

end Loops

section Engine

variable {creator} {prepared : List ClassId} {progress : Progress ClassId}
  {base statics after : Statics ClassId Value} {candidate ancestor : ClassId}

/-- The ancestor that declares a slot introduces it. -/
theorem introduces_eq {creator : Creator ClassId Value} {slot : Nat}
    (above : ancestor ∈ (creator.entry candidate).lineage)
    (declared : creator.inherited ancestor ≤ slot)
    (below : slot < (creator.entry ancestor).count) :
    creator.introduces candidate slot = ancestor := by
  generalize chain : (creator.entry candidate).lineage = line at above
  induction line generalizing candidate with
  | nil => exact absurd above List.not_mem_nil
  | cons parent rest ih =>
    have next := (creator.lineage_parent candidate parent rest chain).2
    rcases List.mem_cons.mp above with rfl | higher
    · rw [introduces_parent chain below, introduces_own declared]
    · have larger := count_le (next ▸ higher : ancestor ∈ (creator.entry parent).lineage)
      rw [introduces_parent chain (by omega)]
      exact ih next higher

/-- A slot that the class declares has its default, which is not what the creator has. -/
structure WrongDefault (creator : ObjectCreator ClassId Value) (statics : Statics ClassId Value)
    (candidate : ClassId) (current : List Value) (slot : Nat) (content : Value) : Prop where
  declared : creator.inherited candidate ≤ slot
  below : slot < (creator.entry candidate).count
  stored : statics.slotAt (candidate, slot) = some (.value content)
  differs : content ≠ creator.copiedStatic current slot

/-- A class whose members hold the defaults, although these are not as good. -/
def Defaulted (creator : ObjectCreator ClassId Value) (statics : Statics ClassId Value)
    (candidate : ClassId) : Prop :=
  ∃ current, (creator.entry candidate).currentStatics = some current ∧
    ∃ slot content, WrongDefault creator statics candidate current slot content

/-- A default is no copy of a value that has an object. -/
theorem defaulted_of_changed (changed : ¬KeepsDefaults creator candidate)
    (stored : ∀ (slot : Nat) (content : Value),
      (creator.sharedDefaults candidate)[slot]? = some (.value content) →
        statics.slotAt (candidate, slot) = some (.value content)) :
    Defaulted creator statics candidate := by
  unfold KeepsDefaults at changed
  push Not at changed
  obtain ⟨current, found, slot, inside, declared, different⟩ := changed
  have below : slot < (creator.entry candidate).count := List.mem_range.mp inside
  have within : slot < (creator.entry candidate).defaultStatics.length := below
  have original := List.getElem?_eq_getElem within
  refine ⟨current, found, slot, (creator.entry candidate).defaultStatics[slot], declared, below,
    stored slot _ (sharedDefaults_declared original declared), ?_⟩
  intro same
  apply different (original.trans (congrArg some same))
  have noObject : creator.objects (creator.copiedStatic current slot) = [] := by
    rw [← same]
    exact creator.objects_default candidate _ (List.getElem_mem within)
  have inCurrent : slot < current.length := by rwa [length_currentStatics found]
  have there := List.getElem?_eq_getElem inCurrent
  rw [ObjectCreator.objectsAt, there]
  rw [ObjectCreator.copiedStatic, there] at noObject
  cases copied : creator.copyZval current[slot] with
  | none => exact creator.objects_uncopied _ copied
  | some content =>
    have objects := creator.objects_copied _ _ copied
    simpa [copied, objects] using noObject

/-- A class of the table is broken by an ancestor, or by itself, that has its defaults. -/
theorem broken_of_defaulted {state : State ClassId Value} (isIn : candidate ∈ state.table)
    (notInternal : (creator.entry candidate).origin ≠ .internal)
    (initialised : (creator.entry candidate).currentStatics.isSome)
    (among : ancestor ∈ candidate :: (creator.entry candidate).lineage)
    (defaulted : Defaulted creator state.statics ancestor) : Broken creator state := by
  obtain ⟨inherited, has, slot, content, declared, below, stored, differs⟩ := defaulted
  obtain ⟨current, found⟩ := Option.isSome_iff_exists.mp initialised
  rcases List.mem_cons.mp among with rfl | above
  · cases has.symm.trans found
    refine ⟨ancestor, isIn, notInternal, inherited, has, slot, content, below, Or.inr ⟨?_, differs⟩⟩
    rwa [introduces_own declared]
  · obtain ⟨values, same, shorter⟩ := currentStatics_lineage found above (by omega)
    cases has.symm.trans same
    have copied := copiedStatic_inherited creator shorter
      (by rwa [length_currentStatics has] : slot < inherited.length)
    refine ⟨candidate, isIn, notInternal, current, found, slot, content,
      Nat.lt_of_lt_of_le below (count_le above), Or.inr ⟨?_, ?_⟩⟩
    · rwa [introduces_eq above declared below]
    · rwa [copied]

theorem HalfOpen.isSome (half : HalfOpen creator statics candidate) :
    (statics.members candidate).isSome := by
  obtain ⟨slot, _, hole⟩ := half.hole
  obtain ⟨table, built, _⟩ := Option.bind_eq_some_iff.mp hole
  exact Option.isSome_of_eq_some built

/-- A class below an ancestor that is not settled has no members, unless it is that ancestor
and half initialised. -/
theorem InOrder.unbuilt (inOrder : InOrder creator prepared progress statics)
    (initialised : (creator.entry candidate).currentStatics.isSome)
    (reaches : ancestor ∈ candidate :: (creator.entry candidate).lineage)
    (unsettled : ¬Settled creator progress.bound ancestor) :
    statics.members candidate = none ∨ (candidate = ancestor ∧ ancestor ∈ progress.opening) := by
  by_cases built : (statics.members candidate).isSome
  · rcases List.mem_cons.mp reaches with rfl | above
    · have here := (inOrder.sound.settled ancestor initialised built).resolve_right unsettled
      exact Or.inr ⟨rfl, here⟩
    · exact absurd (inOrder.sound.above candidate initialised built ancestor above).1 unsettled
  · exact Or.inl (Option.not_isSome_iff_eq_none.mp built)

variable [DecidableEq ClassId]

/-- What the engine sets up on its own, for an ancestor that is not settled, starts with the
defaults.  Where the ancestor is the parent and half initialised, the engine reads a
slot that has not been written. -/
theorem InOrder.zendClassInitStatics_default (inOrder : InOrder creator prepared progress base)
    (same : statics.members = base.members) {line : List ClassId}
    (chain : ∀ candidate rest, line = candidate :: rest →
      rest = (creator.entry candidate).lineage)
    (initialised : ∀ other ∈ line, (creator.entry other).count ≠ 0 →
      (creator.entry other).currentStatics.isSome)
    (shared : ∀ other ∈ line, (creator.entry other).origin ≠ .user)
    (above : ancestor ∈ line) (unsettled : ¬Settled creator progress.bound ancestor)
    (done :
      ClassPreparation.zendClassInitStatics creator.toCreator line statics = some after) :
    (line.head? = some ancestor ∧ ancestor ∈ progress.opening) ∨
      ∀ (slot : Nat) (content : Value),
        (creator.sharedDefaults ancestor)[slot]? = some (.value content) →
          after.slotAt (ancestor, slot) = some (.value content) := by
  have declares : (creator.entry ancestor).count ≠ 0 := (not_or.mp unsettled).1
  induction line generalizing after with
  | nil => exact absurd above List.not_mem_nil
  | cons candidate rest ih =>
    cases chain candidate rest rfl
    have larger : (creator.entry ancestor).count ≤ (creator.entry candidate).count := by
      rcases List.mem_cons.mp above with rfl | higher
      · exact Nat.le_refl _
      · exact count_le higher
    have has := initialised candidate List.mem_cons_self (by omega)
    rcases inOrder.unbuilt has above unsettled with unbuilt | ⟨rfl, half⟩
    · right
      have defaults : creator.defaultTable statics candidate = creator.sharedDefaults candidate :=
        defaultTable_shared (shared candidate List.mem_cons_self)
      have fresh : ¬((creator.defaultTable statics candidate).isEmpty = true ∨
          (statics.members candidate).isSome = true) := by
        rw [defaults, List.isEmpty_iff_length_eq_zero, length_sharedDefaults, same, unbuilt]
        simp
        omega
      rw [ClassPreparation.zendClassInitStatics, if_neg fresh] at done
      obtain ⟨higher, first, last⟩ := Option.bind_eq_some_iff.mp done
      split at last
      · next readable =>
        cases Option.some.inj last
        intro slot content original
        rcases List.mem_cons.mp above with rfl | isAbove
        · simp only [Statics.slotAt, Function.update_self, Option.bind_some]
          rw [defaults]
          exact memberTable_value original
        · have different : ancestor ≠ candidate := by
            rintro rfl
            exact self_notMem_lineage isAbove
          have next : ∀ other others, (creator.entry candidate).lineage = other :: others →
              others = (creator.entry other).lineage :=
            fun other others line => (creator.lineage_parent candidate other others line).2.symm
          rcases ih next (fun other isIn => initialised other (List.mem_cons_of_mem _ isIn))
            (fun other isIn => shared other (List.mem_cons_of_mem _ isIn)) isAbove first with
            ⟨isParent, half⟩ | stored
          · -- The class refers to all slots of its parent.
            exfalso
            obtain ⟨rest, line⟩ := List.head?_eq_some_iff.mp isParent
            obtain ⟨hole, inside, unwritten⟩ := (inOrder.halfOpen ancestor half).hole
            obtain ⟨table, built, isHole⟩ := Option.bind_eq_some_iff.mp unwritten
            rw [← same] at built
            have kept := members_zendClassInitStatics first built
            have inherited : hole < creator.inherited candidate := by rwa [inherited_eq line]
            have within : hole < (creator.entry candidate).count := by omega
            have isIndirect := sharedDefaults_indirect within inherited
            have written := readable ancestor isParent hole
              (List.mem_range.mpr (by rwa [defaults, length_sharedDefaults]))
              (by rw [defaults, isIndirect]; rfl)
            simp only [Statics.unwritten, Statics.slotAt, kept, Option.bind_some, isHole] at written
            cases written
          · have there := stored slot content original
            simpa [Statics.slotAt, Function.update_of_ne different] using there
      · cases last
    · exact Or.inl ⟨rfl, half⟩

end Engine

section Late

variable {creator} [DecidableEq ClassId] {prepared : List ClassId} {progress : Progress ClassId}
  {state after : State ClassId Value} {candidate ancestor parent : ClassId}
  {rest : List ClassId} {current : List Value}
  {connect : ClassId → State ClassId Value → Option (State ClassId Value)}
  (connects : ∀ candidate, Does (Extends creator.toCreator) (connect candidate))

theorem members_bindDefaults (statics : Statics ClassId Value) (candidate : ClassId) :
    (bindDefaults creator candidate statics).members = statics.members := by
  unfold bindDefaults
  split
  · rfl
  · rfl

theorem Shaped.bindDefaults {statics : Statics ClassId Value}
    (shaped : Shaped creator.toCreator statics) (candidate : ClassId) :
    Shaped creator.toCreator (bindDefaults creator candidate statics) := by
  unfold ClassPreparation.bindDefaults
  split
  · exact shaped.prepareClassStatics candidate
  · exact shaped

/-- The first late bindings of a class that is initialised in the creator. -/
theorem lateBindings_fresh (found : (creator.entry candidate).currentStatics = some current)
    (fresh : state.statics.members candidate = none) :
    lateBindings creator connect candidate state =
      (zendClassInitStatics creator.toCreator (creator.entry candidate).lineage
        (bindDefaults creator candidate state.statics)).bind fun statics =>
          initSlots creator connect candidate current { state with statics } := by
  unfold lateBindings initClassStatics
  simp only [found, members_bindDefaults, fresh]
  rfl

/-- The default table of a class whose parent has been prepared refers to all its slots. -/
theorem bindDefaults_indirect
    (line : (creator.entry candidate).lineage = parent :: rest)
    (complete : Inherits creator.toCreator parent (creator.defaultTable state.statics parent))
    {slot : Nat} (below : slot < (creator.entry parent).count) :
    ∃ target,
      (creator.defaultTable (bindDefaults creator candidate state.statics) candidate)[slot]? =
        some (.indirect target) := by
  have larger := creator.count_parent candidate parent rest line
  have inside : slot < (creator.entry candidate).defaultStatics.length :=
    Nat.lt_of_lt_of_le below larger
  unfold bindDefaults
  by_cases copied : (creator.entry candidate).origin = .user
  · rw [if_pos copied, defaultTable_copied copied, defaults_prepareClassStatics_self,
      List.getElem?_mapIdx, List.getElem?_eq_getElem inside, line]
    obtain ⟨target, isIndirect⟩ := (preparedSlot_cons parent rest slot
      (creator.entry candidate).defaultStatics[slot]).mpr (by rwa [complete.length])
    exact ⟨target, congrArg some isIndirect⟩
  · rw [if_neg copied, defaultTable_shared copied]
    exact ⟨_, sharedDefaults_indirect inside (by rwa [inherited_eq line])⟩

/-- A class that is bound before its copied parent has no indirection in its default table. -/
theorem bindDefaults_split (copied : (creator.entry candidate).origin = .user)
    (line : (creator.entry candidate).lineage = parent :: rest)
    (empty : creator.defaultTable state.statics parent = []) (target : Address ClassId) :
    (creator.defaultTable (bindDefaults creator candidate state.statics) candidate)[0]? ≠
      some (.indirect target) := by
  unfold bindDefaults
  rw [if_pos copied, defaultTable_copied copied, defaults_prepareClassStatics_self,
    List.getElem?_mapIdx, line]
  intro isIndirect
  obtain ⟨content, _, same⟩ := Option.map_eq_some_iff.mp isIndirect
  have below := (preparedSlot_cons parent rest 0 content).mp ⟨target, same⟩
  rw [empty] at below
  cases below

include connects

/-- While its parent is half initialised a class cannot be bound. -/
theorem InOrder.lateBindings_hole
    (inOrder : InOrder creator (progress.opening ++ progress.bound) progress state.statics)
    (found : (creator.entry candidate).currentStatics = some current)
    (fresh : state.statics.members candidate = none)
    (line : (creator.entry candidate).lineage = parent :: rest)
    (half : parent ∈ progress.opening) :
    lateBindings creator connect candidate state = none := by
  obtain ⟨initialised, _, slot, below, hole⟩ := inOrder.halfOpen parent half
  have complete := inOrder.sound.inherits initialised
    fun _ => List.mem_append_left progress.bound half
  obtain ⟨target, isIndirect⟩ := bindDefaults_indirect line complete below
  rw [lateBindings_fresh found fresh, Option.bind_eq_none_iff]
  intro statics engine
  have isHole : statics.slotAt (parent, slot) = some .unwritten := by
    obtain ⟨table, built, isHole⟩ := Option.bind_eq_some_iff.mp hole
    have kept : statics.members parent = some table := by
      apply members_zendClassInitStatics engine
      rw [members_bindDefaults]
      exact built
    exact Option.bind_eq_some_iff.mpr ⟨table, kept, isHole⟩
  have same : creator.defaultTable statics candidate =
      creator.defaultTable (bindDefaults creator candidate state.statics) candidate :=
    defaultTable_congr (defaults_zendClassInitStatics engine) candidate
  rw [← same] at isIndirect
  have inside := (List.getElem?_eq_some_iff.mp isIndirect).1
  unfold initSlots
  exact countDown_hole connects (fun shaped _ _ => shaped.defaultTable_indirect) line inside
    isIndirect isHole (filling_allocate _)

/-- A class that is bound before its copied parent gets slots of its own. -/
theorem InOrder.lateBindings_split
    (inOrder : InOrder creator (progress.opening ++ progress.bound) progress state.statics)
    (isIn : candidate ∈ state.table) (notInternal : (creator.entry candidate).origin ≠ .internal)
    (found : (creator.entry candidate).currentStatics = some current)
    (fresh : state.statics.members candidate = none)
    (line : (creator.entry candidate).lineage = parent :: rest)
    (copied : (creator.entry parent).origin = .user)
    (declares : (creator.entry parent).count ≠ 0)
    (early : parent ∉ progress.opening ++ progress.bound)
    (done : lateBindings creator connect candidate state = some after) : Broken creator after := by
  have isParent : parent ∈ (creator.entry candidate).lineage := by simp [line]
  have own : (creator.entry candidate).origin = .user := by
    by_contra shared
    exact shared_lineage shared isParent copied
  have empty : creator.defaultTable state.statics parent = [] := by
    rw [defaultTable_copied copied]
    exact inOrder.sound.unbound parent copied
      (isSome_currentStatics_lineage (Option.isSome_of_eq_some found) isParent declares) early
  have larger := creator.count_parent candidate parent rest line
  rw [lateBindings_fresh found fresh] at done
  obtain ⟨statics, engine, filled⟩ := Option.bind_eq_some_iff.mp done
  have same : creator.defaultTable statics candidate =
      creator.defaultTable (bindDefaults creator candidate state.statics) candidate :=
    defaultTable_congr (defaults_zendClassInitStatics engine) candidate
  have length : (creator.defaultTable statics candidate).length =
      (creator.entry candidate).count := by
    rw [same, bindDefaults, if_pos own, defaultTable_copied own, defaults_prepareClassStatics_self,
      List.length_mapIdx, ClassEntry.count]
  have table := (filling_initSlots connects filled).table
  obtain ⟨left, counted⟩ : ∃ left, (creator.entry candidate).count = left + 1 :=
    Nat.exists_eq_add_one_of_ne_zero (by omega)
  unfold initSlots at filled
  dsimp only at filled
  rw [length, counted] at filled
  have direct : ∀ target,
      (creator.defaultTable statics candidate)[0]? ≠ some (.indirect target) := by
    rw [same]
    exact bindDefaults_split own line empty
  have start : Filling creator.toCreator candidate (left + 1) { state with statics }
      { state with statics := statics.allocate candidate (left + 1) } := filling_allocate _
  obtain ⟨content, stored⟩ := countDown_split connects
    (fun shaped _ _ => shaped.defaultTable_indirect) direct start filled
  refine ⟨candidate, table isIn, notInternal, current, found, 0, content, by omega,
    Or.inl ⟨?_, stored⟩⟩
  rw [inherited_eq line]
  omega

/-- Ancestors that are used in place get their defaults, which are not as good. -/
theorem InOrder.lateBindings_default
    (inOrder : InOrder creator prepared progress state.statics)
    (isIn : candidate ∈ state.table) (notInternal : (creator.entry candidate).origin ≠ .internal)
    (found : (creator.entry candidate).currentStatics = some current)
    (fresh : state.statics.members candidate = none)
    (line : (creator.entry candidate).lineage = parent :: rest)
    (shared : (creator.entry parent).origin ≠ .user) (whole : parent ∉ progress.opening)
    (above : ancestor ∈ (creator.entry candidate).lineage)
    (unsettled : ¬Settled creator progress.bound ancestor)
    (done : lateBindings creator connect candidate state = some after) : Broken creator after := by
  have initialised := Option.isSome_of_eq_some found
  have inPlace : ∀ other ∈ (creator.entry candidate).lineage,
      (creator.entry other).origin ≠ .user := by
    intro other isOther
    rw [lineage_eq line] at isOther
    rcases List.mem_cons.mp isOther with rfl | higher
    · exact shared
    · exact shared_lineage shared higher
  rw [lateBindings_fresh found fresh] at done
  obtain ⟨statics, engine, filled⟩ := Option.bind_eq_some_iff.mp done
  rcases inOrder.zendClassInitStatics_default (members_bindDefaults _ _)
      (fun other others line => (creator.lineage_parent candidate other others line).2.symm)
      (fun other isOther => isSome_currentStatics_lineage initialised isOther) inPlace above
      unsettled engine with ⟨isParent, half⟩ | stored
  · rw [line] at isParent
    cases Option.some.inj isParent
    exact absurd half whole
  · obtain ⟨declares, -, changed⟩ := not_or.mp unsettled |>.imp_right not_or.mp
    have filling := filling_initSlots connects filled
    have different : ancestor ≠ candidate := by
      rintro rfl
      exact self_notMem_lineage above
    apply broken_of_defaulted (filling.table isIn) notInternal initialised
      (List.mem_cons_of_mem _ above)
    apply defaulted_of_changed fun kept => changed ⟨inPlace ancestor above, kept⟩
    intro slot content original
    obtain ⟨table, built, here⟩ := Option.bind_eq_some_iff.mp (stored slot content original)
    exact Option.bind_eq_some_iff.mpr ⟨table, filling.members ancestor different table built, here⟩

/-- An ancestor that is not settled spoils what is bound, or makes the thread read slots
that have not been written. -/
theorem InOrder.lateBindings_spoils
    (inOrder : InOrder creator (progress.opening ++ progress.bound) progress state.statics)
    (isIn : candidate ∈ state.table) (notInternal : (creator.entry candidate).origin ≠ .internal)
    (found : (creator.entry candidate).currentStatics = some current)
    (above : ancestor ∈ (creator.entry candidate).lineage)
    (unsettled : ¬Settled creator progress.bound ancestor)
    (done : lateBindings creator connect candidate state = some after) : Spoilt creator after := by
  have declares : (creator.entry ancestor).count ≠ 0 := (not_or.mp unsettled).1
  have initialised := Option.isSome_of_eq_some found
  have shaped := (extends_lateBindings connects candidate state after done).shaped
    inOrder.sound.shaped
  have fresh : state.statics.members candidate = none := by
    apply (inOrder.unbuilt initialised (List.mem_cons_of_mem _ above) unsettled).resolve_right
    rintro ⟨rfl, -⟩
    exact self_notMem_lineage above
  refine ⟨shaped, ?_⟩
  cases line : (creator.entry candidate).lineage with
  | nil => simp [line] at above
  | cons parent rest =>
    have isParent : parent ∈ (creator.entry candidate).lineage := by simp [line]
    have reaches : ancestor ∈ parent :: (creator.entry parent).lineage := by
      rwa [lineage_eq line] at above
    have larger : (creator.entry ancestor).count ≤ (creator.entry parent).count := by
      rcases List.mem_cons.mp reaches with rfl | higher
      · exact Nat.le_refl _
      · exact count_le higher
    by_cases half : parent ∈ progress.opening
    · rw [inOrder.lateBindings_hole connects found fresh line half] at done
      cases done
    · by_cases copied : (creator.entry parent).origin = .user
      · have has := isSome_currentStatics_lineage initialised isParent (by omega)
        have early : parent ∉ progress.bound := by
          intro isBound
          have built := inOrder.sound.reached parent (Or.inr isBound)
          rcases inOrder.unbuilt has reaches unsettled with none | ⟨rfl, _⟩
          · rw [none] at built
            cases built
          · exact unsettled (Or.inr (Or.inl isBound))
        apply inOrder.lateBindings_split connects isIn notInternal found fresh line copied
          (by omega) _ done
        rw [List.mem_append, not_or]
        exact ⟨half, early⟩
      · exact inOrder.lateBindings_default connects isIn notInternal found fresh line copied half
          above unsettled done

end Late

end Pthreads.ClassPreparation
