import Pthreads.StaticFailures

/-!
# Inherited static members in a new thread

Late bindings follow their plan: while the classes are bound in order, also where copying
an object prepares others on the way, the tables of static members come out as the creator
has them; after the first class that is not, something is wrong for good.  So the
static members are inherited and hold what the creator has exactly if the plan is carried
out to its end.
-/

namespace Pthreads.ClassPreparation

open PartialFolds PlannedRuns

variable {ClassId Value : Type*} (creator : ObjectCreator ClassId Value)

/-- The static members are in order: the classes that have been prepared are those that
have been bound, or are being. -/
def Ordered (progress : Progress ClassId) (statics : Statics ClassId Value) : Prop :=
  InOrder creator (progress.opening ++ progress.bound) progress statics

/-- The members of the parent are as they should be. -/
def ParentBuilt (statics : Statics ClassId Value) (candidate : ClassId) : Prop :=
  ∀ parent ∈ (creator.entry candidate).lineage.head?, (creator.entry parent).count ≠ 0 →
    ∃ values, statics.members parent = some (faithfulTable creator parent values)

/-- A plan and a state in the loop of `init_class_statics`, with so many slots left. -/
structure Matching (candidate : ClassId) (current : List Value) (others : List ClassId)
    (first : State ClassId Value) (left : Nat) (plan : Prepared ClassId (Progress ClassId))
    (state : State ClassId Value) : Prop where
  alike : Alike creator (Opening creator candidate current others left) plan state
  filling : Filling creator.toCreator candidate left first state
  left_le : left ≤ (creator.entry candidate).count

/-- The same once something is wrong. -/
structure SpoiltAt (candidate : ClassId) (first : State ClassId Value) (left : Nat)
    (state : State ClassId Value) : Prop where
  spoilt : Spoilt creator state
  filling : Filling creator.toCreator candidate left first state

section Loop

variable {creator} [DecidableEq ClassId] [DecidableEq Value]
  {connectPlan : ClassId → Prepared ClassId (Progress ClassId) →
    Option (Prepared ClassId (Progress ClassId))}
  {connect : ClassId → State ClassId Value → Option (State ClassId Value)}
  (connectsPlan : ∀ candidate, Does Advances (connectPlan candidate))
  (connects : ∀ candidate, Does (Extends creator.toCreator) (connect candidate))
  (each : ∀ candidate plan state, Alike creator (Ordered creator) plan state →
    Follows (Alike creator (Ordered creator)) (Spoilt creator) (connectPlan candidate plan)
      (connect candidate state))
  {candidate : ClassId} {current : List Value} {others : List ClassId} {slot left : Nat}
  {defaults : List (Slot ClassId Value)} {first state after : State ClassId Value}
  {plan : Prepared ClassId (Progress ClassId)}

omit [DecidableEq Value] in
/-- The next slot has been written as it should be. -/
theorem Matching.write
    (matching : Matching creator candidate current others first (slot + 1) plan state)
    (fresh : candidate ∉ others) {content : Slot ClassId Value}
    (faithful : (faithfulTable creator candidate current)[slot]? = some content) :
    Matching creator candidate current others first slot plan
      { state with statics := state.statics.write (candidate, slot) content } where
  alike :=
    { table := matching.alike.table
      functions := matching.alike.functions
      statics := matching.alike.statics.write fresh faithful
      preloaded := matching.alike.preloaded }
  filling := by
    apply matching.filling.write
    rintro - target rfl
    have below := (List.getElem?_eq_some_iff.mp faithful).1
    rw [length_faithfulTable] at below
    rw [getElem?_faithfulTable below] at faithful
    by_contra declared
    simp [declared] at faithful
  left_le := Nat.le_of_succ_le matching.left_le

omit [DecidableEq Value] in
/-- An inherited slot comes to refer to where it is introduced. -/
theorem Matching.inherit
    (matching : Matching creator candidate current others first (slot + 1) plan state)
    (complete : Inherits creator.toCreator candidate defaults) (fresh : candidate ∉ others)
    (built : ParentBuilt creator first.statics candidate)
    (inherited : slot < creator.inherited candidate) :
    ∃ after, initSlot creator connect candidate defaults current slot state = some after ∧
      Matching creator candidate current others first slot plan after := by
  have below : slot < (creator.entry candidate).count := matching.left_le
  have within : slot < defaults.length := by rwa [complete.length]
  have there := List.getElem?_eq_getElem within
  cases line : (creator.entry candidate).lineage with
  | nil => simp [inherited_nil line] at inherited
  | cons parent rest =>
    have shorter : slot < (creator.entry parent).count := by rwa [← inherited_eq line]
    have different : parent ≠ candidate := by
      rintro rfl
      have isIn : parent ∈ (creator.entry parent).lineage := by simp [line]
      exact self_notMem_lineage isIn
    obtain ⟨values, above⟩ := built parent (by simp [line]) (by omega)
    have here := matching.filling.members parent different _ above
    unfold initSlot
    cases found : defaults[slot] with
    | unwritten => exact absurd (List.mem_of_getElem found) complete.written
    | value content =>
      rw [found] at there
      have declared := complete.declared slot content there
      omega
    | indirect target =>
      simp only [there, found, line, unwritten_faithful here, deindirect_faithful here shorter]
      refine ⟨_, rfl, matching.write fresh ?_⟩
      rw [getElem?_faithfulTable below, if_pos inherited, introduces_parent line shorter]

omit [DecidableEq Value] in
theorem SpoiltAt.write (spoilt : SpoiltAt creator candidate first (slot + 1) state)
    (content : Value) :
    SpoiltAt creator candidate first slot
      { state with statics := state.statics.write (candidate, slot) (.value content) } where
  spoilt :=
    { shaped := spoilt.spoilt.shaped.write fun _ same => by cases same
      broken := spoilt.spoilt.broken.keep
        (keepsValues_write _ (spoilt.filling.unwritten slot (Nat.lt_succ_self slot))) }
  filling := spoilt.filling.write fun _ _ same => by cases same

omit [DecidableEq Value] in
include connects in
theorem SpoiltAt.initSlot (spoilt : SpoiltAt creator candidate first (slot + 1) state)
    (indirect : ∀ slot target, defaults[slot]? = some (.indirect target) →
      slot < creator.inherited candidate)
    (done : initSlot creator connect candidate defaults current slot state = some after) :
    SpoiltAt creator candidate first slot after where
  spoilt := spoilt.spoilt.initSlot connects spoilt.filling (indirect slot) done
  filling := filling_initSlot connects (fun _ => indirect slot) spoilt.filling done

include connectsPlan connects each

omit [DecidableEq ClassId] [DecidableEq Value] in
/-- The objects of a slot that the class declares are connected while it is half
initialised. -/
theorem Matching.connectEach
    (matching : Matching creator candidate current others first (slot + 1) plan state)
    (found : (creator.entry candidate).currentStatics = some current)
    (declared : creator.inherited candidate ≤ slot) :
    Follows (Matching creator candidate current others first (slot + 1))
      (SpoiltAt creator candidate first (slot + 1))
      (connectEach connectPlan (creator.objectsAt current slot) plan)
      (connectEach connect (creator.objectsAt current slot) state) := by
  have below : slot < (creator.entry candidate).count := matching.left_le
  by_cases none : creator.objectsAt current slot = []
  · rw [none]
    exact follows_some matching
  · have changed : ¬KeepsDefaults creator candidate := by
      intro kept
      exact none (kept current found slot (List.mem_range.mpr below) declared).2
    have opening := matching.alike.statics
    have inOrder : Ordered creator plan.statics state.statics :=
      opening.inOrder (Option.isSome_of_eq_some found) below changed
    have alike : Alike creator (Ordered creator) plan state :=
      { matching.alike with statics := inOrder }
    have follows : Follows (Alike creator (Ordered creator)) (Spoilt creator)
        (ClassPreparation.connectEach connectPlan (creator.objectsAt current slot) plan)
        (ClassPreparation.connectEach connect (creator.objectsAt current slot) state) := by
      apply follows_foldlM _ _ alike
      · exact fun other _ => each other
      · exact fun other _ middle after spoilt done =>
          spoilt.extend (connects other middle after done)
    have grown := extends_connectEach connects (creator.objectsAt current slot) state
    have advanced : Does Advances
        (ClassPreparation.connectEach connectPlan (creator.objectsAt current slot)) :=
      advances_foldlM connectsPlan
    constructor
    · intro later isLater
      obtain ⟨after, isAfter, now⟩ := follows.success later isLater
      have extended := grown after isAfter
      refine ⟨after, isAfter, ?_, matching.filling.extend extended, matching.left_le⟩
      have same := (advanced plan later isLater).opening
      exact { now with statics := opening.reopen now.statics same extended.members }
    · intro isNone after isAfter
      exact ⟨follows.failure isNone after isAfter, matching.filling.extend (grown after isAfter)⟩

omit [DecidableEq Value] in
/-- A slot is written according to its plan. -/
theorem Matching.initSlot
    (matching : Matching creator candidate current others first (slot + 1) plan state)
    (complete : Inherits creator.toCreator candidate defaults) (fresh : candidate ∉ others)
    (found : (creator.entry candidate).currentStatics = some current)
    (built : ParentBuilt creator first.statics candidate) :
    Follows (Matching creator candidate current others first slot)
      (SpoiltAt creator candidate first slot)
      (planSlot creator connectPlan candidate current slot plan)
      (initSlot creator connect candidate defaults current slot state) := by
  have below : slot < (creator.entry candidate).count := matching.left_le
  unfold planSlot
  by_cases inherited : slot < creator.inherited candidate
  · rw [if_pos inherited]
    obtain ⟨after, done, written⟩ := matching.inherit complete fresh built inherited
    rw [done]
    exact follows_some written
  · have declared : creator.inherited candidate ≤ slot := Nat.not_lt.mp inherited
    have direct : ∀ target, defaults[slot]? ≠ some (.indirect target) :=
      fun target isIndirect => inherited (complete.indirect slot target isIndirect)
    rw [if_neg inherited]
    unfold ClassPreparation.initSlot
    split
    · next isIndirect _ => exact absurd isIndirect (direct _)
    · apply (matching.connectEach connectsPlan connects each found declared).mapRun
      · intro later after matching
        apply matching.write fresh
        rw [getElem?_faithfulTable below, if_neg inherited]
      · exact fun after spoilt => spoilt.write _

omit [DecidableEq Value] in
/-- The loop of `init_class_statics` follows its plan. -/
theorem Matching.countDown
    (matching : Matching creator candidate current others first left plan state)
    (complete : Inherits creator.toCreator candidate defaults) (fresh : candidate ∉ others)
    (found : (creator.entry candidate).currentStatics = some current)
    (built : ParentBuilt creator first.statics candidate) :
    Follows (Matching creator candidate current others first 0)
      (SpoiltAt creator candidate first 0)
      (countDown (planSlot creator connectPlan candidate current) left plan)
      (countDown (ClassPreparation.initSlot creator connect candidate defaults current) left
        state) := by
  apply follows_countDown _ _ matching
  · intro slot plan state matching
    exact matching.initSlot connectsPlan connects each complete fresh found built
  · intro slot state after spoilt done
    exact spoilt.initSlot connects complete.indirect done

end Loop

section Late

variable {creator} [DecidableEq ClassId] {progress : Progress ClassId}
  {statics : Statics ClassId Value} {candidate : ClassId}

/-- A class that is not initialised in the creator has no members to be set up. -/
theorem Ordered.skip (ordered : Ordered creator progress statics)
    (none : (creator.entry candidate).currentStatics = none) :
    Ordered creator progress (bindDefaults creator candidate statics) := by
  have inOrder : InOrder creator (candidate :: (progress.opening ++ progress.bound)) progress
      (bindDefaults creator candidate statics) := by
    apply InOrder.prepare ordered
    rw [none]
    exact fun initialised => by cases initialised
  refine ⟨inOrder.sound.congr ordered.sound.within ?_, inOrder.halfOpen⟩
  intro other initialised
  have different : other ≠ candidate := by
    rintro rfl
    rw [none] at initialised
    cases initialised
  simp [different]

/-- Late bindings of a class that has its members already build its default table anew. -/
theorem Ordered.again (ordered : Ordered creator progress statics)
    (built : (statics.members candidate).isSome) :
    InOrder creator (candidate :: (progress.opening ++ progress.bound)) progress
      (bindDefaults creator candidate statics) := by
  apply InOrder.prepare ordered
  intro initialised ancestor above
  exact (ordered.sound.above candidate initialised built ancestor above).1

theorem Ordered.repeat (ordered : Ordered creator progress statics)
    (known : candidate ∈ progress.opening ∨ candidate ∈ progress.bound) :
    Ordered creator progress (bindDefaults creator candidate statics) := by
  have inOrder := ordered.again (ordered.sound.reached candidate known)
  refine ⟨inOrder.sound.congr ordered.sound.within ?_, inOrder.halfOpen⟩
  intro other _
  have isIn : candidate ∈ progress.opening ++ progress.bound := List.mem_append.mpr known
  rw [List.mem_cons, or_iff_right_of_imp]
  rintro rfl
  exact isIn

omit [DecidableEq ClassId] in
/-- A class whose members are there may count as bound. -/
theorem InOrder.bind
    (inOrder : InOrder creator (candidate :: (progress.opening ++ progress.bound)) progress statics)
    (notOpening : candidate ∉ progress.opening) (built : (statics.members candidate).isSome) :
    Ordered creator ⟨progress.opening, progress.bound ++ [candidate]⟩ statics := by
  have sound := inOrder.sound
  have larger : progress.bound ⊆ progress.bound ++ [candidate] := List.subset_append_left _ _
  have same : ∀ other, other ∈ candidate :: (progress.opening ++ progress.bound) ↔
      other ∈ progress.opening ++ (progress.bound ++ [candidate]) := by
    intro other
    simp only [List.mem_cons, List.mem_append, List.not_mem_nil, or_false]
    tauto
  refine ⟨?_, inOrder.halfOpen⟩
  exact
    { shaped := sound.shaped
      faithful := sound.faithful
      within := fun other isIn => List.mem_append.mpr isIn
      unbound := fun other copied initialised outside =>
        sound.unbound other copied initialised fun isIn => outside ((same other).mp isIn)
      complete := fun other copied initialised isIn =>
        sound.complete other copied initialised ((same other).mpr isIn)
      apart := by
        intro other isOther isBound
        rcases List.mem_append.mp isBound with before | here
        · exact sound.apart other isOther before
        · rw [List.mem_singleton.mp here] at isOther
          exact notOpening isOther
      reached := by
        rintro other (half | bound)
        · exact sound.reached other (Or.inl half)
        · rcases List.mem_append.mp bound with before | here
          · exact sound.reached other (Or.inr before)
          · rwa [List.mem_singleton.mp here]
      above := by
        intro other initialised isSome ancestor isAbove
        exact (sound.above other initialised isSome ancestor isAbove).imp_left
          fun settled => settled.mono larger
      settled := by
        intro other initialised isSome
        exact (sound.settled other initialised isSome).imp_right
          fun settled => settled.mono larger }

variable [DecidableEq Value]
  {connectPlan : ClassId → Prepared ClassId (Progress ClassId) →
    Option (Prepared ClassId (Progress ClassId))}
  {connect : ClassId → State ClassId Value → Option (State ClassId Value)}
  (connectsPlan : ∀ candidate, Does Advances (connectPlan candidate))
  (connects : ∀ candidate, Does (Extends creator.toCreator) (connect candidate))
  (each : ∀ candidate plan state, Alike creator (Ordered creator) plan state →
    Follows (Alike creator (Ordered creator)) (Spoilt creator) (connectPlan candidate plan)
      (connect candidate state))
  {current : List Value} {plan : Prepared ClassId (Progress ClassId)}
  {state : State ClassId Value}

omit [DecidableEq ClassId] [DecidableEq Value] in
/-- A class with members that has not been bound still has its defaults, and no object to be
connected. -/
theorem Ordered.countDown (ordered : Ordered creator progress statics)
    (found : (creator.entry candidate).currentStatics = some current)
    (built : (statics.members candidate).isSome)
    (early : ¬(candidate ∈ progress.opening ∨ candidate ∈ progress.bound)) (left : Nat)
    (below : left ≤ (creator.entry candidate).count) :
    PartialFolds.countDown (planSlot creator connectPlan candidate current) left plan =
      some plan := by
  obtain ⟨notOpening, notBound⟩ := not_or.mp early
  have kept : KeepsDefaults creator candidate := by
    have initialised := Option.isSome_of_eq_some found
    rcases ordered.sound.settled candidate initialised built with half | none | bound | kept
    · exact absurd half notOpening
    · exact absurd none (count_ne_zero initialised)
    · exact absurd bound notBound
    · exact kept.2
  induction left with
  | zero => rfl
  | succ left ih =>
    have here : planSlot creator connectPlan candidate current left plan = some plan := by
      unfold planSlot
      split
      · rfl
      · next declared =>
        have inside := List.mem_range.mpr (below : left < (creator.entry candidate).count)
        rw [(kept current found left inside (Nat.not_lt.mp declared)).2]
        rfl
    unfold PartialFolds.countDown
    rw [here]
    exact ih (Nat.le_of_succ_le below)

include connectsPlan connects each

omit [DecidableEq Value] in
/-- The first late bindings of a class whose ancestors are settled. -/
theorem Ordered.initClassStatics (alike : Alike creator (Ordered creator) plan state)
    (found : (creator.entry candidate).currentStatics = some current)
    (fresh : state.statics.members candidate = none)
    (early : ¬(candidate ∈ plan.statics.opening ∨ candidate ∈ plan.statics.bound))
    (settled : ∀ ancestor ∈ (creator.entry candidate).lineage,
      Settled creator plan.statics.bound ancestor) :
    Follows (Alike creator (Ordered creator)) (Spoilt creator)
      ((PartialFolds.countDown (planSlot creator connectPlan candidate current)
        (creator.entry candidate).count
        { plan with
          statics := ⟨candidate :: plan.statics.opening, plan.statics.bound⟩ }).map fun after =>
            { after with
              statics := ⟨plan.statics.opening, after.statics.bound ++ [candidate]⟩ })
      (lateBindings creator connect candidate state) := by
  obtain ⟨notOpening, notBound⟩ := not_or.mp early
  have initialised := Option.isSome_of_eq_some found
  have prepared : InOrder creator (candidate :: (plan.statics.opening ++ plan.statics.bound))
      plan.statics (bindDefaults creator candidate state.statics) :=
    InOrder.prepare alike.statics fun _ => settled
  obtain ⟨statics, engine, inOrder, above⟩ := prepared.zendClassInitStatics
    (creator.entry candidate).lineage
    (fun other others line => (creator.lineage_parent candidate other others line).2.symm)
    (fun ancestor isIn => isSome_currentStatics_lineage initialised isIn) settled
  have complete : Inherits creator.toCreator candidate (creator.defaultTable statics candidate) :=
    inOrder.sound.inherits initialised fun _ => List.mem_cons_self
  have built : ParentBuilt creator statics candidate := by
    intro parent isParent declares
    obtain ⟨rest, line⟩ := List.head?_eq_some_iff.mp isParent
    have isIn : parent ∈ (creator.entry candidate).lineage := by simp [line]
    obtain ⟨values, has⟩ := Option.isSome_iff_exists.mp
      (isSome_currentStatics_lineage initialised isIn declares)
    exact ⟨values, inOrder.sound.members_eq (inOrder.notOpening (settled parent isIn)) has
      (above parent isIn declares)⟩
  have matching : Matching creator candidate current plan.statics.opening { state with statics }
      (creator.entry candidate).count
      { plan with statics := ⟨candidate :: plan.statics.opening, plan.statics.bound⟩ }
      { state with statics := statics.allocate candidate (creator.entry candidate).count } :=
    { alike :=
        { table := alike.table
          functions := alike.functions
          statics := inOrder.allocate found notOpening notBound fun ancestor isIn =>
            ⟨settled ancestor isIn, above ancestor isIn⟩
          preloaded := alike.preloaded }
      filling := filling_allocate _
      left_le := Nat.le_refl _ }
  have loop := matching.countDown connectsPlan connects each complete notOpening found built
  rw [lateBindings_fresh found fresh, engine, Option.bind_some]
  unfold initSlots
  dsimp only
  rw [complete.length]
  apply loop.mapPlan
  · intro after later matching
    exact
      { table := matching.alike.table
        functions := matching.alike.functions
        statics := matching.alike.statics.close found notOpening
        preloaded := matching.alike.preloaded }
  · exact fun after spoilt => spoilt.spoilt

/-- Late bindings follow their plan. -/
theorem follows_lateBindings (alike : Alike creator (Ordered creator) plan state)
    (isIn : candidate ∈ state.table) (notInternal : (creator.entry candidate).origin ≠ .internal) :
    Follows (Alike creator (Ordered creator)) (Spoilt creator)
      (planBinding creator connectPlan candidate plan)
      (lateBindings creator connect candidate state) := by
  have ordered : Ordered creator plan.statics state.statics := alike.statics
  unfold planBinding
  cases found : (creator.entry candidate).currentStatics with
  | none =>
    have skipped : lateBindings creator connect candidate state =
        some { state with statics := bindDefaults creator candidate state.statics } := by
      unfold lateBindings ClassPreparation.initClassStatics
      simp only [found]
    rw [skipped]
    exact follows_some { alike with statics := ordered.skip found }
  | some current =>
    have skipped (built : (state.statics.members candidate).isSome) :
        lateBindings creator connect candidate state =
          some { state with statics := bindDefaults creator candidate state.statics } := by
      obtain ⟨table, members⟩ := Option.isSome_iff_exists.mp built
      unfold lateBindings ClassPreparation.initClassStatics
      simp only [found, members_bindDefaults, members]
    dsimp only
    split
    · next known =>
      rw [skipped (ordered.sound.reached candidate known)]
      exact follows_some { alike with statics := ordered.repeat known }
    · next early =>
      split
      · next settled =>
        by_cases built : (state.statics.members candidate).isSome
        · rw [ordered.countDown found built early _ (Nat.le_refl _), skipped built]
          have known := (ordered.again built).bind (not_or.mp early).1
            (by rwa [members_bindDefaults])
          exact follows_some { alike with statics := known }
        · exact Ordered.initClassStatics connectsPlan connects each alike found
            (Option.not_isSome_iff_eq_none.mp built) early settled
      · next unsettled =>
        apply follows_none
        intro after done
        push Not at unsettled
        obtain ⟨ancestor, above, unsettled⟩ := unsettled
        exact InOrder.lateBindings_spoils connects ordered isIn notInternal found above unsettled
          done

end Late

section Objects

variable {creator} [DecidableEq ClassId]
  {plan : Prepared ClassId (Progress ClassId)} {state : State ClassId Value}
  {statics after : Statics ClassId Value} {candidate : ClassId} {current : List Value}

omit [DecidableEq ClassId] in
/-- Members as they should be have no slot that has not been written. -/
theorem faithfulTable_written :
    (faithfulTable creator candidate current).any Slot.isUnwritten = false := by
  rw [List.any_eq_false]
  intro content isIn
  obtain ⟨slot, _, rfl⟩ := List.mem_map.mp isIn
  split
  · exact fun same => by cases same
  · exact fun same => by cases same

theorem zendClassInitStatics_built {lineage : List ClassId}
    (built : (statics.members candidate).isSome) :
    zendClassInitStatics creator.toCreator (candidate :: lineage) statics = some statics := by
  rw [zendClassInitStatics, if_pos (Or.inr built)]

omit [DecidableEq ClassId] in
/-- A half initialised class has a slot that has not been written. -/
theorem HalfOpen.any_isUnwritten (half : HalfOpen creator statics candidate) :
    ((statics.members candidate).getD []).any Slot.isUnwritten = true := by
  obtain ⟨slot, _, hole⟩ := half.hole
  obtain ⟨table, built, isHole⟩ := Option.bind_eq_some_iff.mp hole
  rw [built, Option.getD_some, List.any_eq_true]
  exact ⟨_, List.mem_of_getElem? isHole, rfl⟩

/-- The engine evaluates the constant expressions of the class. -/
structure Evaluated (creator : ObjectCreator ClassId Value) (candidate : ClassId) : Prop where
  shared : (creator.entry candidate).origin ≠ .user
  notInternal : (creator.entry candidate).origin ≠ .internal
  initialised : (creator.entry candidate).currentStatics.isSome
  expressions : creator.constantExpressions candidate = true

theorem Evaluated.updateClassConstants_eq (evaluated : Evaluated creator candidate)
    (statics : Statics ClassId Value) :
    updateClassConstants creator candidate statics =
      (zendClassInitStatics creator.toCreator (candidate :: (creator.entry candidate).lineage)
        statics).bind fun statics =>
          if creator.memberExpressions candidate = true ∧
              ((statics.members candidate).getD []).any Slot.isUnwritten = true then none
          else some statics := by
  obtain ⟨shared, notInternal, initialised, expressions⟩ := evaluated
  have isNone : (creator.entry candidate).currentStatics.isNone = false := by
    rw [Option.isNone_eq_false_iff]
    exact initialised
  unfold updateClassConstants
  simp only [shared, notInternal, isNone, expressions, or_self, reduceCtorEq, if_false]
  rfl

/-- Members as they should be stay so. -/
theorem Evaluated.updateClassConstants_built (evaluated : Evaluated creator candidate)
    (built : statics.members candidate = some (faithfulTable creator candidate current)) :
    updateClassConstants creator candidate statics = some statics := by
  rw [evaluated.updateClassConstants_eq,
    zendClassInitStatics_built (Option.isSome_of_eq_some built), Option.bind_some, built,
    Option.getD_some, faithfulTable_written]
  simp

/-- The expressions of members that have not been written are not evaluated. -/
theorem Evaluated.updateClassConstants_half (evaluated : Evaluated creator candidate)
    (half : HalfOpen creator statics candidate) :
    updateClassConstants creator candidate statics =
      if creator.memberExpressions candidate = true then none else some statics := by
  rw [evaluated.updateClassConstants_eq, zendClassInitStatics_built half.isSome, Option.bind_some,
    half.any_isUnwritten]
  simp

/-- What the engine sets up for a class whose line is settled. -/
theorem Ordered.updateClassConstants {progress : Progress ClassId}
    (ordered : Ordered creator progress statics) (evaluated : Evaluated creator candidate)
    (settled : ∀ other ∈ candidate :: (creator.entry candidate).lineage,
      Settled creator progress.bound other) :
    ∃ after, updateClassConstants creator candidate statics = some after ∧
      Ordered creator progress after := by
  have initialised : ∀ other ∈ candidate :: (creator.entry candidate).lineage,
      (creator.entry other).count ≠ 0 → (creator.entry other).currentStatics.isSome := by
    intro other isIn declares
    rcases List.mem_cons.mp isIn with rfl | above
    · exact evaluated.initialised
    · exact isSome_currentStatics_lineage evaluated.initialised above declares
  have chain : ∀ other rest, candidate :: (creator.entry candidate).lineage = other :: rest →
      rest = (creator.entry other).lineage := by
    rintro other rest ⟨⟩
    rfl
  obtain ⟨after, engine, inOrder, built⟩ :=
    InOrder.zendClassInitStatics ordered _ chain initialised settled
  obtain ⟨current, found⟩ := Option.isSome_iff_exists.mp evaluated.initialised
  have members := inOrder.sound.members_eq
    (inOrder.notOpening (settled candidate List.mem_cons_self)) found
    (built candidate List.mem_cons_self (count_ne_zero evaluated.initialised))
  refine ⟨after, ?_, inOrder⟩
  rw [evaluated.updateClassConstants_eq, engine, Option.bind_some, members, Option.getD_some,
    faithfulTable_written]
  simp

/-- What the engine sets up for a class whose line is not settled starts with the defaults,
also where these are not as good. -/
theorem Ordered.updateClassConstants_spoils {progress : Progress ClassId}
    {state : State ClassId Value} (ordered : Ordered creator progress state.statics)
    (evaluated : Evaluated creator candidate) (isIn : candidate ∈ state.table)
    (notOpening : candidate ∉ progress.opening) {ancestor : ClassId}
    (among : ancestor ∈ candidate :: (creator.entry candidate).lineage)
    (unsettled : ¬Settled creator progress.bound ancestor)
    (done : ClassPreparation.updateClassConstants creator candidate state.statics = some after) :
    Spoilt creator { state with statics := after } := by
  have shaped := (extends_updateClassConstants done).shaped ordered.sound.shaped
  have inPlace : ∀ other ∈ candidate :: (creator.entry candidate).lineage,
      (creator.entry other).origin ≠ .user := by
    intro other isOther
    rcases List.mem_cons.mp isOther with rfl | above
    · exact evaluated.shared
    · exact shared_lineage evaluated.shared above
  have initialised : ∀ other ∈ candidate :: (creator.entry candidate).lineage,
      (creator.entry other).count ≠ 0 → (creator.entry other).currentStatics.isSome := by
    intro other isOther declares
    rcases List.mem_cons.mp isOther with rfl | above
    · exact evaluated.initialised
    · exact isSome_currentStatics_lineage evaluated.initialised above declares
  have chain : ∀ other rest, candidate :: (creator.entry candidate).lineage = other :: rest →
      rest = (creator.entry other).lineage := by
    rintro other rest ⟨⟩
    rfl
  rw [evaluated.updateClassConstants_eq] at done
  obtain ⟨statics, engine, last⟩ := Option.bind_eq_some_iff.mp done
  split at last
  · cases last
  · cases Option.some.inj last
    refine ⟨shaped, broken_of_defaulted isIn evaluated.notInternal evaluated.initialised among ?_⟩
    obtain ⟨-, -, changed⟩ := not_or.mp unsettled |>.imp_right not_or.mp
    apply defaulted_of_changed fun kept => changed ⟨inPlace ancestor among, kept⟩
    apply (InOrder.zendClassInitStatics_default ordered rfl chain initialised inPlace among
      unsettled engine).resolve_left
    rintro ⟨isFirst, half⟩
    cases Option.some.inj isFirst
    exact notOpening half

variable [DecidableEq Value]

/-- The engine follows the plan when the first object of a class is created. -/
theorem follows_updateClassConstants (alike : Alike creator (Ordered creator) plan state)
    (isIn : (creator.entry candidate).origin ≠ .internal → candidate ∈ state.table) :
    Follows (Ordered creator) (fun statics => Spoilt creator { state with statics })
      (planObject creator candidate plan.statics)
      (updateClassConstants creator candidate state.statics) := by
  have ordered : Ordered creator plan.statics state.statics := alike.statics
  unfold planObject
  dsimp only
  by_cases skipped : (creator.entry candidate).origin = .user ∨
      (creator.entry candidate).origin = .internal ∨
        (creator.entry candidate).currentStatics.isNone = true ∨
          creator.constantExpressions candidate = false
  · have unchanged : updateClassConstants creator candidate state.statics = some state.statics :=
      if_pos skipped
    rw [unchanged, if_pos (by tauto)]
    exact follows_some ordered
  · have evaluated : Evaluated creator candidate := by
      push Not at skipped
      obtain ⟨shared, notInternal, isNone, expressions⟩ := skipped
      refine ⟨shared, notInternal, ?_, by simpa using expressions⟩
      simpa [Option.isSome_iff_ne_none] using isNone
    obtain ⟨current, found⟩ := Option.isSome_iff_exists.mp evaluated.initialised
    by_cases bound : candidate ∈ plan.statics.bound
    · have notOpening : candidate ∉ plan.statics.opening :=
        fun half => ordered.sound.apart candidate half bound
      have members := ordered.sound.members_eq notOpening found
        (ordered.sound.reached candidate (Or.inr bound))
      rw [evaluated.updateClassConstants_built members, if_pos (by tauto)]
      exact follows_some ordered
    · rw [if_neg (by tauto)]
      split
      · next half =>
        rw [evaluated.updateClassConstants_half (ordered.halfOpen candidate half)]
        apply Follows.ite
        · exact follows_none fun _ done => by cases done
        · exact follows_some ordered
      · next notOpening =>
        split
        · next settled =>
          obtain ⟨after, done, later⟩ := ordered.updateClassConstants evaluated settled
          rw [done]
          exact follows_some later
        · next unsettled =>
          apply follows_none
          intro after done
          push Not at unsettled
          obtain ⟨ancestor, among, unsettled⟩ := unsettled
          exact ordered.updateClassConstants_spoils evaluated (isIn evaluated.notInternal)
            notOpening among unsettled done

end Objects

section Runs

variable {creator} [DecidableEq ClassId]

omit [DecidableEq ClassId] in
/-- At the end every class is bound, and its slots are as they should be. -/
theorem Ordered.inheritedStatics {progress : Progress ClassId} {state : State ClassId Value}
    (ordered : Ordered creator progress state.statics) (closed : progress.opening = [])
    (bound : ∀ candidate ∈ state.table, creator.initialised candidate →
      candidate ∈ progress.bound) : InheritedStatics creator state := by
  intro candidate isIn notInternal current found slot below
  have notOpening : ∀ other, other ∉ progress.opening := by simp [closed]
  have initialised := Option.isSome_of_eq_some found
  have built := ordered.sound.reached candidate
    (Or.inr (bound candidate isIn ⟨notInternal, initialised⟩))
  have slotAt {other : ClassId} {values : List Value}
      (has : (creator.entry other).currentStatics = some values)
      (built : (state.statics.members other).isSome) (below : slot < (creator.entry other).count) :
      state.statics.slotAt (other, slot) =
        some (if slot < creator.inherited other then
          .indirect (creator.introduces other slot, slot)
        else .value (creator.copiedStatic values slot)) := by
    rw [Statics.slotAt, ordered.sound.members_eq (notOpening other) has built, Option.bind_some,
      getElem?_faithfulTable below]
  have here := slotAt found built below
  by_cases inherited : slot < creator.inherited candidate
  · -- The slot leads at once to the ancestor that introduces it, which has a value there.
    rw [if_pos inherited] at here
    obtain ⟨among, declared, within⟩ := introduces_spec below
    have above : creator.introduces candidate slot ∈ (creator.entry candidate).lineage := by
      refine (List.mem_cons.mp among).resolve_left fun same => ?_
      rw [same] at declared
      omega
    have declares : (creator.entry (creator.introduces candidate slot)).count ≠ 0 := by omega
    obtain ⟨values, has, shorter⟩ := currentStatics_lineage found above declares
    have there := slotAt has
      ((ordered.sound.above candidate initialised built _ above).2 declares) within
    rw [if_neg (Nat.not_lt.mpr declared)] at there
    refine ⟨_, .indirection here (.storage there), .storage there, ?_⟩
    rw [there, copiedStatic_inherited creator shorter (by rwa [length_currentStatics has])]
  · rw [if_neg inherited] at here
    rw [introduces_own (Nat.not_lt.mp inherited)]
    exact ⟨_, .storage here, .storage here, here⟩

variable [DecidableEq Value]

/-- What a thread does to its static members follows the order of the late bindings. -/
theorem bindingFollows (creator : ObjectCreator ClassId Value) :
    BindingFollows creator (orderBinding creator) (threadBinding creator) (Ordered creator)
      (Spoilt creator) Advances (Extends creator.toCreator) where
  planKeeps := keeps_advances creator
  keeps := keeps_extends creator
  grows _ _ extended := extended.table
  spoilt _ _ extended spoilt := spoilt.extend extended
  objectInit _ _ _ alike isIn := follows_updateClassConstants alike isIn
  lateBindings _ _ connectsPlan connects each _ _ _ alike isIn notInternal :=
    follows_lateBindings connectsPlan connects each alike isIn notInternal

omit [DecidableEq ClassId] [DecidableEq Value] in
theorem ordered_requestStartup :
    Ordered creator ⟨[], []⟩ (requestStartup creator).statics where
  sound :=
    { shaped := ⟨fun _ => Nat.zero_le _, by simp [requestStartup], by
        simp [requestStartup, Statics.slotAt]⟩
      within := by simp
      apart := by simp
      unbound := fun _ _ _ _ => rfl
      complete := by simp
      faithful := by simp [requestStartup]
      reached := by simp
      above := by simp [requestStartup]
      settled := by simp [requestStartup] }
  halfOpen := by simp

theorem follows_preparedStartup (creator : ObjectCreator ClassId Value) (fuel threadOptions : Nat)
    (threadClass : ClassId) :
    Follows (Alike creator (Ordered creator)) (Spoilt creator)
      (plannedStartup creator fuel threadOptions threadClass)
      (preparedStartup creator fuel threadOptions threadClass) := by
  have follows := bindingFollows creator
  apply follows.startup
  · exact follows.planKeeps.createEntry creator fuel
  · exact follows.keeps.createEntry creator fuel
  · intro candidate late state after notInternal preloaded done
    exact follows.keeps.present follows.grows notInternal preloaded done
  · exact follows.createEntry fuel
  · exact
      { table := rfl
        functions := rfl
        statics := ordered_requestStartup
        preloaded := fun candidate preloaded => List.mem_filter.mpr
          ⟨creator.preloaded_listed candidate preloaded, by simp [preloaded]⟩ }

/-- With so much fuel a thread starts with the static members of its creator exactly if the
plan comes to its end. -/
theorem inheritedStatics_iff_isSome (creator : ObjectCreator ClassId Value)
    (fuel threadOptions : Nat) (threadClass : ClassId) :
    (∃ state, preparedStartup creator fuel threadOptions threadClass = some state ∧
      InheritedStatics creator state) ↔
        (plannedStartup creator fuel threadOptions threadClass).isSome := by
  have follows := follows_preparedStartup creator fuel threadOptions threadClass
  cases planned : plannedStartup creator fuel threadOptions threadClass with
  | none =>
    simp only [Option.isSome_none, Bool.false_eq_true, iff_false]
    rintro ⟨state, done, inherited⟩
    exact (follows.failure planned state done).not_inheritedStatics inherited
  | some plan =>
    simp only [Option.isSome_some, iff_true]
    obtain ⟨state, done, alike⟩ := follows.success plan planned
    obtain ⟨closed, bound⟩ := bound_of_plannedStartup planned
    rw [alike.table] at bound
    exact ⟨state, done, alike.statics.inheritedStatics closed bound⟩

omit [DecidableEq Value] in
/-- With more fuel late bindings do the same. -/
theorem below_lateBindings (creator : ObjectCreator ClassId Value)
    (connect other : ClassId → State ClassId Value → Option (State ClassId Value))
    (succeeds : Succeeds connect other) :
    Succeeds ((threadBinding creator).lateBindings connect)
      ((threadBinding creator).lateBindings other) := by
  intro candidate state
  unfold threadBinding lateBindings initClassStatics
  dsimp only
  split
  · apply Below.bind (Below.refl _)
    intro statics
    apply below_countDown
    intro slot state
    unfold initSlot
    split
    · exact Below.refl _
    · rw [Option.map_eq_bind, Option.map_eq_bind]
      apply Below.bind _ fun _ => Below.refl _
      exact below_foldlM (fun state candidate => succeeds candidate state) _ state
  · exact Below.refl _

omit [DecidableEq Value] in
/-- The state in which a thread starts does not depend on the fuel. -/
theorem preparedStartup_mono {fuel more threadOptions : Nat} {threadClass : ClassId}
    {state : State ClassId Value} (enough : fuel ≤ more)
    (done : preparedStartup creator fuel threadOptions threadClass = some state) :
    preparedStartup creator more threadOptions threadClass = some state := by
  induction enough with
  | refl => exact done
  | step _ ih =>
    have creates := below_createEntry (below_lateBindings creator) creator
    exact below_startup (below_lateBindings creator) (creates _) creator threadOptions threadClass
      _ state ih

/-- A thread starts with these classes, if there is enough fuel for the recursion. -/
def StartsWith (creator : ObjectCreator ClassId Value) (threadOptions : Nat)
    (threadClass : ClassId) (state : State ClassId Value) : Prop :=
  ∃ fuel, ∀ more ≥ fuel, preparedStartup creator more threadOptions threadClass = some state

omit [DecidableEq Value] in
theorem startsWith_of_preparedStartup {fuel threadOptions : Nat} {threadClass : ClassId}
    {state : State ClassId Value}
    (done : preparedStartup creator fuel threadOptions threadClass = some state) :
    StartsWith creator threadOptions threadClass state :=
  ⟨fuel, fun _ enough => preparedStartup_mono enough done⟩

/-- A thread that starts inherits the static members of its creator exactly if it binds
each class that is initialised there after the ancestors, as far as these matter. -/
theorem inheritedStatics_iff_boundInOrder (creator : ObjectCreator ClassId Value)
    (threadOptions : Nat) (threadClass : ClassId) :
    (∃ state, StartsWith creator threadOptions threadClass state ∧
      InheritedStatics creator state) ↔ BoundInOrder creator threadOptions threadClass := by
  constructor
  · rintro ⟨state, ⟨fuel, done⟩, inherited⟩
    have here := done fuel (Nat.le_refl fuel)
    exact ⟨fuel, (inheritedStatics_iff_isSome creator fuel threadOptions threadClass).mp
      ⟨state, here, inherited⟩⟩
  · rintro ⟨fuel, planned⟩
    obtain ⟨state, done, inherited⟩ :=
      (inheritedStatics_iff_isSome creator fuel threadOptions threadClass).mpr planned
    exact ⟨state, startsWith_of_preparedStartup done, inherited⟩

end Runs

/-- `class A { static $x = 1; }`, `class B extends A {}` and `class C extends B {}`, as
numbers in this order, where `A::$x` has become `5`. -/
def lineEntry (origin : Origin) : Fin 3 → ClassEntry (Fin 3) Nat :=
  fun candidate =>
    { origin
      linked := true
      unnamed := false
      ancestors := match candidate with
        | 0 => []
        | 1 => [0]
        | 2 => [1, 0]
      interfaces := []
      propertyTypes := []
      defaultStatics := [1]
      staticMembers := some [5] }

/-- The three classes in an order of the class table. -/
def lineCreator (origin : Origin) (classTable : List (Fin 3))
    (listed : ∀ candidate, candidate ∈ classTable) (long : 2 ≤ classTable.length) :
    Creator (Fin 3) Nat where
  classTable := classTable
  entry := lineEntry origin
  rank candidate := candidate.val
  rank_le candidate := by omega
  rank_lt := by
    intro candidate _ other
    match candidate with
    | 0 => simp [lineEntry, ClassEntry.required]
    | 1 => simp +contextual [lineEntry, ClassEntry.required]
    | 2 => simp +contextual [lineEntry, ClassEntry.required]
  listed _ other _ := listed other
  shared _ copied _ _ := copied
  lineage_parent := by
    intro candidate parent rest line
    match candidate with
    | 0 => simp [lineEntry, ClassEntry.lineage] at line
    | 1 =>
        simp only [lineEntry, ClassEntry.lineage, if_true, List.cons.injEq] at line
        obtain ⟨rfl, rfl⟩ := line
        exact ⟨rfl, rfl⟩
    | 2 =>
        simp only [lineEntry, ClassEntry.lineage, if_true, List.cons.injEq] at line
        obtain ⟨rfl, rfl⟩ := line
        exact ⟨rfl, rfl⟩
  count_parent _ _ _ _ := Nat.le_refl _
  members_length _ values has := by
    cases Option.some.inj has
    rfl
  members_parent _ _ _ values _ _ has := ⟨values, has, List.prefix_refl _⟩

/-- A creator without `Threaded` objects, whose values can all be copied. -/
def withoutObjects {ClassId : Type*} (creator : Creator ClassId Nat)
    (preloaded_listed : ∀ candidate, (creator.entry candidate).origin = .preloaded →
      candidate ∈ creator.classTable) : ObjectCreator ClassId Nat where
  toCreator := creator
  objects _ := []
  methodObjects _ := []
  functionTable := []
  constantObjects := []
  preloaded_listed := preloaded_listed
  constantExpressions _ := false
  memberExpressions _ := false
  tableSize _ := 8
  copyZval := some
  null := 0
  objects_copied _ _ _ := rfl
  objects_uncopied _ _ := rfl
  objects_null := rfl
  objects_default _ _ _ := rfl

/-- The script declares `A`, `C` and `B` in this order. -/
def scriptOrder : ObjectCreator (Fin 3) Nat :=
  withoutObjects (lineCreator .user [0, 2, 1] (by decide) (by decide)) (by decide)

/-- The script declares `A`, `B` and `C` in this order. -/
def parentsFirst : ObjectCreator (Fin 3) Nat :=
  withoutObjects (lineCreator .user [0, 1, 2] (by decide) (by decide)) (by decide)

/-- The classes come from opcache, and `B` and `C` were linked first. -/
def cachedOrder : ObjectCreator (Fin 3) Nat :=
  withoutObjects (lineCreator .immutable [1, 2, 0] (by decide) (by decide)) (by decide)

example : BoundInOrder parentsFirst 0x00111111 0 :=
  ⟨4, rfl⟩

/-- `class S { static $s = 1; }`, `class B extends A {}`, `class A { static $t; }` and
`class T extends S {}`, as numbers in this order, where `S::$s` has become `5` and
`A::$t` an object of the class `T`, which stands for `7` here. -/
def memberEntry (candidate : Fin 4) : ClassEntry (Fin 4) Nat where
  origin := .user
  linked := true
  unnamed := false
  ancestors := match candidate with
    | 0 => []
    | 1 => [2]
    | 2 => []
    | 3 => [0]
  interfaces := []
  propertyTypes := []
  defaultStatics := match candidate with
    | 0 => [1]
    | 1 => [0]
    | 2 => [0]
    | 3 => [1]
  staticMembers := match candidate with
    | 0 => some [5]
    | 1 => some [7]
    | 2 => some [7]
    | 3 => some [5]

/-- The class table has the four classes in this order.  To prepare `B` the thread binds
`A`, and so prepares `T` when only `S` is there. -/
def memberOrder : ObjectCreator (Fin 4) Nat where
  classTable := [0, 1, 2, 3]
  entry := memberEntry
  rank candidate := if candidate = 1 ∨ candidate = 3 then 1 else 0
  rank_le := by decide
  rank_lt := by decide
  listed := by decide
  shared := by decide
  lineage_parent := by
    intro candidate parent rest line
    match candidate with
    | 0 => cases line
    | 1 =>
        cases line
        exact ⟨rfl, rfl⟩
    | 2 => cases line
    | 3 =>
        cases line
        exact ⟨rfl, rfl⟩
  count_parent := by
    intro candidate parent rest line
    match candidate with
    | 0 => cases line
    | 1 =>
        cases line
        exact Nat.le_refl 1
    | 2 => cases line
    | 3 =>
        cases line
        exact Nat.le_refl 1
  members_length := by
    intro candidate values has
    match candidate with
    | 0 | 1 | 2 | 3 =>
        cases has
        rfl
  members_parent := by
    intro candidate parent rest values line _ has
    match candidate with
    | 0 => cases line
    | 1 =>
        cases line
        exact ⟨values, has, List.prefix_refl _⟩
    | 2 => cases line
    | 3 =>
        cases line
        exact ⟨values, has, List.prefix_refl _⟩
  objects value := if value = 7 then [3] else []
  methodObjects _ := []
  functionTable := []
  constantObjects := []
  preloaded_listed := by decide
  constantExpressions _ := false
  memberExpressions _ := false
  tableSize _ := 8
  copyZval := some
  null := 0
  objects_copied := by simp
  objects_uncopied := by simp
  objects_null := rfl
  objects_default := by decide

/-- In the script `B` is prepared for `C`, between the preparation of `A` and the last
pass, and gets a slot of its own.  With opcache the last pass comes to `B` before `A`,
and `A` gets its default.  Where a static member has an object of the class `T`, this
class is bound before its parent. -/
theorem inheritedStatics_fails_out_of_order :
    (∃ state, StartsWith scriptOrder 0x00111111 0 state ∧
      ¬InheritedStatics scriptOrder state) ∧
    (∃ state, StartsWith cachedOrder 0x00111111 0 state ∧
      ¬InheritedStatics cachedOrder state) ∧
    ∃ state, StartsWith memberOrder 0x00111111 0 state ∧
      ¬InheritedStatics memberOrder state := by
  refine ⟨⟨_, startsWith_of_preparedStartup (rfl : preparedStartup scriptOrder 4 _ _ = _), ?_⟩,
    ⟨_, startsWith_of_preparedStartup (rfl : preparedStartup cachedOrder 4 _ _ = _), ?_⟩,
    ⟨_, startsWith_of_preparedStartup (rfl : preparedStartup memberOrder 4 _ _ = _), ?_⟩⟩
  all_goals intro inherited
  · obtain ⟨storage, own, introduced, _⟩ :=
      inherited 1 (by decide) (by decide) [5] rfl 0 (by decide)
    have here := own.eq_of_value nofun
    have there := introduced.eq_of_value nofun
    exact absurd (here.symm.trans there) (by decide)
  · obtain ⟨storage, _, introduced, copied⟩ :=
      inherited 1 (by decide) (by decide) [5] rfl 0 (by decide)
    rw [introduced.eq_of_value nofun] at copied
    exact absurd copied (by decide)
  · obtain ⟨storage, own, introduced, _⟩ :=
      inherited 3 (by decide) (by decide) [5] rfl 0 (by decide)
    have here := own.eq_of_value nofun
    have there := introduced.eq_of_value nofun
    exact absurd (here.symm.trans there) (by decide)

end Pthreads.ClassPreparation
