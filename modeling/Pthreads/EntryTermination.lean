import Pthreads.EntryRecording

/-!
# Creating a class entry ends when its copying does

The recursion of `pthreads_create_entry` through the classes always ends.  So it returns
exactly when everything that it copies on its way can be copied: an array that contains a
reference to itself keeps it from returning.
-/

namespace Pthreads.EntryCopying

open ClassPreparation (Origin)
open EntryCreation (ClassEntry Creator Prepared Table Ready Intact Above Copies)
open PartialFolds RecordedEffects RecursiveCalls
open Relation (ReflTransGen TransGen)
open ValueCopies (Slot Constant Attribute Memo Heap Receiver)

section Effects

variable {Address : Type}

/-- What there is to copy. -/
def Effect.tasks : Effect Address → List (ValueCopies.Task Address)
  | .value slot => slot.tasks
  | .constant slot => slot.tasks
  | .function address => [.function address]
  | .attr content => content.arguments.flatMap fun argument => argument.2.tasks

variable [DecidableEq Address]

/-- Nothing that the copying comes to leads back to itself, and a constant is a value that
can be copied. -/
structure Effect.CopyingEnds (heap : Heap Address) (memo : Memo Address)
    (effect : Effect Address) : Prop where
  acyclic : ∀ task ∈ effect.tasks, ∀ other, ReflTransGen (heap.Calls memo) task other →
    ¬ TransGen (heap.Calls memo) other other
  copyable : ∀ slot, effect = .constant slot → heap.Copyable slot

variable {heap : Heap Address} {receiver : Receiver} {memo state after : Memo Address}

theorem copyable_of_copied {depth : Nat} {slot : Slot Address}
    {result : Option (ValueCopies.Copied Address)}
    (done : ValueCopies.copyZval receiver (ValueCopies.copy heap receiver depth) state slot =
      some (after, result)) : result.isSome = true ↔ heap.Copyable slot :=
  (ValueCopies.copyZval_deep (ValueCopies.copy_deep depth) slot state after result
    (.refl state) done).2.isSome_iff

/-- What has been copied leads to no endless recursion. -/
theorem copyEffect_ensures {depth : Nat} {effect : Effect Address} (since : memo.Since heap state)
    (done : copyEffect heap receiver depth state effect = some after) :
    memo.Since heap after ∧ (∀ task ∈ effect.tasks, Ends (heap.Calls memo) task) ∧
      ∀ slot, effect = .constant slot → heap.Copyable slot := by
  have calls : ∀ task, Ensures (memo.Since heap) (ValueCopies.copy heap receiver depth · task)
      fun _ => Ends (heap.Calls memo) task := ValueCopies.ensures_ends depth
  cases effect with
  | value slot =>
    obtain ⟨⟨now, result⟩, copied, rfl⟩ := Option.map_eq_some_iff.mp done
    obtain ⟨sinceNow, ends⟩ := ValueCopies.copyZval_visits calls slot state now result since copied
    exact ⟨sinceNow, ends, fun _ isConstant => by cases isConstant⟩
  | constant slot =>
    obtain ⟨⟨now, result⟩, copied, isAfter⟩ := Option.bind_eq_some_iff.mp done
    obtain ⟨value, isValue, rfl⟩ := Option.map_eq_some_iff.mp isAfter
    obtain ⟨sinceNow, ends⟩ := ValueCopies.copyZval_visits calls slot state now result since copied
    refine ⟨sinceNow, ends, ?_⟩
    rintro _ ⟨⟩
    apply (copyable_of_copied copied).mp
    exact Option.isSome_iff_exists.mpr ⟨value, isValue⟩
  | function address =>
    obtain ⟨⟨now, result⟩, copied, rfl⟩ := Option.map_eq_some_iff.mp done
    obtain ⟨sinceNow, ends⟩ := calls (.function address) state now result since copied
    exact ⟨sinceNow, List.forall_mem_singleton.mpr ends, fun _ isConstant => by cases isConstant⟩
  | attr content =>
    obtain ⟨⟨now, result⟩, copied, rfl⟩ := Option.map_eq_some_iff.mp done
    obtain ⟨sinceNow, ends⟩ :=
      ValueCopies.copyAttribute_visits calls content state now result since copied
    exact ⟨sinceNow, ends, fun _ isConstant => by cases isConstant⟩

theorem copyEffect_succeeds {depth : Nat} {effect : Effect Address}
    (copies : ∀ task ∈ effect.tasks, heap.Copies receiver memo depth task)
    (copyable : ∀ slot, effect = .constant slot → heap.Copyable slot)
    (within : memo.Within state) :
    ∃ after, copyEffect heap receiver depth state effect = some after ∧ memo.Within after := by
  cases effect with
  | value slot =>
    obtain ⟨after, result, done, kept⟩ := ValueCopies.copyZval_succeeds copies state within
    exact ⟨after, Option.map_eq_some_iff.mpr ⟨(after, result), done, rfl⟩, kept⟩
  | constant slot =>
    obtain ⟨after, result, done, kept⟩ := ValueCopies.copyZval_succeeds copies state within
    obtain ⟨value, isValue⟩ := Option.isSome_iff_exists.mp
      ((copyable_of_copied done).mpr (copyable slot rfl))
    refine ⟨after, Option.bind_eq_some_iff.mpr ⟨(after, result), done, ?_⟩, kept⟩
    exact Option.map_eq_some_iff.mpr ⟨value, isValue, rfl⟩
  | function address =>
    obtain ⟨after, result, done, kept⟩ :=
      copies (.function address) (List.mem_singleton_self _) state within
    exact ⟨after, Option.map_eq_some_iff.mpr ⟨(after, result), done, rfl⟩, kept⟩
  | attr content =>
    obtain ⟨after, result, done, kept⟩ := ValueCopies.copyAttribute_succeeds copies state within
    exact ⟨after, Option.map_eq_some_iff.mpr ⟨(after, result), done, rfl⟩, kept⟩

theorem copyEffects_ensure [Finite Address] {depth : Nat} {effects : List (Effect Address)}
    (since : memo.Since heap state)
    (done : effects.foldlM (copyEffect heap receiver depth) state = some after) :
    ∀ effect ∈ effects, effect.CopyingEnds heap memo := by
  induction effects generalizing state with
  | nil => exact fun effect isIn => absurd isIn List.not_mem_nil
  | cons effect effects ih =>
    obtain ⟨middle, first, others⟩ := Option.bind_eq_some_iff.mp done
    obtain ⟨sinceMiddle, ends, copyable⟩ := copyEffect_ensures since first
    refine List.forall_mem_cons.mpr ⟨⟨?_, copyable⟩, ih sinceMiddle others⟩
    exact fun task isTask => (ends_iff task).mp (ends task isTask)

/-- With some depth everything in a list is copied, exactly when the copying of each
ends. -/
theorem copyEffects_end_iff [Finite Address] {effects : List (Effect Address)} :
    (∃ depth after, effects.foldlM (copyEffect heap receiver depth) memo = some after) ↔
      ∀ effect ∈ effects, effect.CopyingEnds heap memo := by
  constructor
  · rintro ⟨depth, after, done⟩
    exact copyEffects_ensure (.refl memo) done
  · intro ends
    have each : ∀ task ∈ effects.flatMap Effect.tasks,
        ∃ depth, heap.Copies receiver memo depth task := by
      intro task isIn
      obtain ⟨effect, isEffect, isTask⟩ := List.mem_flatMap.mp isIn
      exact ValueCopies.copies_of_ends receiver
        ((ends_iff task).mpr ((ends effect isEffect).acyclic task isTask))
    obtain ⟨depth, copies⟩ := ValueCopies.exists_common_fuel each
    have all : ∀ state, memo.Within state → ∀ effect ∈ effects,
        ∃ after, copyEffect heap receiver depth state effect = some after ∧ memo.Within after := by
      intro state within effect isIn
      apply copyEffect_succeeds _ (ends effect isIn).copyable within
      exact fun task isTask => copies task (List.mem_flatMap.mpr ⟨effect, isIn, isTask⟩)
    obtain ⟨after, done, -⟩ := foldlM_total all (ValueCopies.Memo.Within.refl memo)
    exact ⟨depth, after, done⟩

end Effects

section Main

variable {ClassId Key Name Address Tables : Type} [Fintype ClassId] [DecidableEq ClassId]
  [DecidableEq Key] [DecidableEq Name]

/-- What there is to copy when a class is created, in order. -/
def copiedEffects (source : Source ClassId Key Name Address) (task : ClassId × Bool)
    (state : Creating Key Name Tables) : List (Effect Address) :=
  ((createEntry source record (source.measure task state.table + 1) task
    (replace state [])).map held).getD []

variable {source : Source ClassId Key Name Address} {task : ClassId × Bool}

theorem createEntry_recorded {state : Creating Key Name Tables}
    (ready : Ready source.toCreator state.table) {fuel : Nat}
    (enough : source.measure task state.table < fuel) :
    ∃ recorded, createEntry source record fuel task (replace state []) = some recorded ∧
      held recorded = copiedEffects source task state ∧
      EntryCreation.createEntry source.toCreator fuel task state.table = some recorded.table := by
  have plainly : ∃ after, EntryCreation.createEntry source.toCreator
      (source.measure task state.table + 1) task state.table = some after ∧
        EntryCreation.Created source.toCreator task.1 state.table after :=
    EntryCreation.createEntry_within ready (Nat.lt_succ_self _)
  obtain ⟨after, plainly, -⟩ := plainly
  have projected := createEntry_table source (source.measure task state.table + 1)
    task (replace state ([] : List (Effect Address)))
  obtain ⟨recorded, done, -⟩ := Option.map_eq_some_iff.mp (projected.trans plainly)
  have larger := createEntry_le enough task _ recorded done
  refine ⟨recorded, larger, ?_, ?_⟩
  · unfold copiedEffects
    rw [done]
    rfl
  · have view := createEntry_table source fuel task (replace state ([] : List (Effect Address)))
    rw [larger] at view
    exact view.symm

variable [DecidableEq Address] {heap : Heap Address} {receiver : Receiver}
  {state : Creating Key Name (Memo Address)}

/-- With enough fuel what is left of creating the class is the copying. -/
theorem createEntry_copies (ready : Ready source.toCreator state.table) {fuel : Nat}
    (enough : source.measure task state.table < fuel) (heap : Heap Address)
    (receiver : Receiver) :
    ∃ recorded : Creating Key Name (List (Effect Address)),
      EntryCreation.createEntry source.toCreator fuel task state.table = some recorded.table ∧
      ∀ depth, createEntry source (copyEffect heap receiver depth) fuel task state =
        ((copiedEffects source task state).foldlM (copyEffect heap receiver depth)
          state.tables).map (replace recorded) := by
  obtain ⟨recorded, done, same, plainly⟩ := createEntry_recorded ready enough
  refine ⟨recorded, plainly, ?_⟩
  intro depth
  have mirrors : Mirrors (Creating Key Name) (copyEffect heap receiver depth) state.tables []
      (createEntry source record fuel task (replace state []))
      fun tables => createEntry source (copyEffect heap receiver depth) fuel task
        (replace state tables) := createEntry_mirrors fuel task (replace state [])
  rw [← same]
  exact mirrors.performs done

theorem copyingEnds_of_created [Finite Address] (ready : Ready source.toCreator state.table)
    {depth fuel : Nat} {after : Creating Key Name (Memo Address)}
    (created : createEntry source (copyEffect heap receiver depth) fuel task state =
      some after) :
    ∀ effect ∈ copiedEffects source task state, effect.CopyingEnds heap state.tables := by
  have larger := createEntry_le (Nat.le_max_left fuel (source.measure task state.table + 1))
    task state after created
  obtain ⟨recorded, -, copies⟩ := createEntry_copies ready
    (Nat.le_max_right fuel (source.measure task state.table + 1)) heap receiver
  rw [copies depth] at larger
  obtain ⟨tables, copied, -⟩ := Option.map_eq_some_iff.mp larger
  exact copyEffects_end_iff.mp ⟨depth, tables, copied⟩

end Main


section Example

/-- The outer array of the two memories, and their function. -/
def theArray : Fin 2 := ⟨0, Nat.two_pos⟩

/-- A parent and a child that has a static member and a constant. -/
inductive Relatives
  | parent
  | child
deriving DecidableEq

instance : Fintype Relatives where
  elems := {.parent, .child}
  complete candidate := by cases candidate <;> decide

def relativesEntry : Relatives → ClassEntry Relatives Relatives String
  | .parent => ⟨.parent, .user, false, true, none, [], [], [], [], [.parent]⟩
  | .child => ⟨.child, .user, false, true, some .parent, [], [.parent], [.child],
    [("LIMIT", .child)], [.parent]⟩

def relativesContents : Relatives → Contents Relatives String (Fin 2)
  | .parent => ⟨[], [], [("f", theArray)], [], [], [], [], false, none⟩
  | .child => ⟨[], [], [("f", theArray)], [(.child, [])], [], [.constant (.scalar .null)],
    [("LIMIT", ⟨some (.constant (.scalar (.long 1))), [], .child⟩)], true,
    some [.constant (.array theArray true)]⟩

/-- Neither class is in shared memory. -/
def relatives : Source Relatives Relatives String (Fin 2) where
  entry := relativesEntry
  classTable := some
  rank
    | .parent => 0
    | .child => 1
  rank_above candidate := by cases candidate <;> decide
  linked_above candidate := by cases candidate <;> decide
  same_name candidate other same := by
    unfold ClassEntry.Replaces
    revert same
    cases candidate <;> cases other <;> decide
  contents := relativesContents
  closures := []
  properties_eq candidate := by cases candidate <;> rfl
  constants_eq candidate := by cases candidate <;> rfl

/-- The thread has no class yet. -/
def noClasses : Creating Relatives String (Memo (Fin 2)) :=
  ⟨OrderedTable.empty, fun _ => [], fun _ => false, [], ValueCopies.freshMemo⟩

theorem noClasses_ready : Ready relatives.toCreator noClasses.table where
  engine candidate isEngine := by
    revert isEngine
    cases candidate <;> decide
  anonymous candidate prepared found := by cases found

theorem noClasses_intact : Intact relatives.toCreator noClasses.table where
  closed key prepared found := by cases found
  copies candidate prepared _ found := by cases found

/-- Both classes have the method, of which the child has it from its parent. -/
theorem copiedEffects_relatives : copiedEffects relatives (.child, true) noClasses =
    [.function theArray, .function theArray, .value (.constant (.scalar .null)),
      .constant (.constant (.scalar (.long 1))), .value (.constant (.array theArray true))] := rfl

/-- One class, whose static member is an array that has itself as an element, by
reference. -/
def selfReferring : Source Unit Unit String (Fin 2) where
  entry := fun _ => ⟨(), .user, false, true, none, [], [], [], [], []⟩
  classTable := some
  rank := fun _ => 0
  rank_above := fun _ _ isRequired => by cases isRequired
  linked_above := fun _ _ _ => rfl
  same_name := fun _ _ _ => Or.inl rfl
  contents := fun _ => ⟨[], [], [], [], [], [.constant (.scalar .null)], [], true,
    some [.reference theArray]⟩
  closures := []
  properties_eq := fun _ => rfl
  constants_eq := fun _ => rfl

def noClass : Creating Unit String (Memo (Fin 2)) :=
  ⟨OrderedTable.empty, fun _ => [], fun _ => false, [], ValueCopies.freshMemo⟩

end Example

end Pthreads.EntryCopying
