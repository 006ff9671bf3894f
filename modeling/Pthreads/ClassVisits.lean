import Pthreads.PreparationSteps

/-!
# How deep preparation goes

From a class preparation goes on to the classes that it needs.  Immutable classes fill
the class table on the way, copied ones only need what was linked before them.  So the
recursion ends, as far as it is not led further by objects that are copied.
-/

namespace Pthreads.ClassPreparation

open PartialFolds

variable {ClassId Value : Type*} [DecidableEq ClassId]

section Walks

variable (creator : Creator ClassId Value)

/-- The class table after a class and what it needs: an immutable class comes before its
dependencies, a copied one after its parent and its interfaces. -/
def visit : Nat → ClassId → List ClassId → Option (List ClassId)
  | 0, _, _ => none
  | fuel + 1, candidate, table =>
      let entry := creator.entry candidate
      match entry.origin with
      | .internal => some table
      | .preloaded => some table
      | .immutable =>
          if candidate ∈ table then some table
          else
            entry.dependencies.foldlM (fun table other => visit fuel other table)
              (insertKey table candidate)
      | .user =>
          if candidate ∈ table then some table
          else
            (entry.required.foldlM (fun table other => visit fuel other table) table).map
              fun table => insertKey table candidate

/-- No walk takes more fuel. -/
def Creator.enough : Nat :=
  2 * creator.classTable.length + 2

end Walks

section Termination

variable {creator : Creator ClassId Value}

/-- More fuel does not change a walk. -/
theorem visit_succ {fuel : Nat} {candidate : ClassId} {table after : List ClassId}
    (done : visit creator fuel candidate table = some after) :
    visit creator (fuel + 1) candidate table = some after := by
  induction fuel generalizing candidate table after with
  | zero => exact absurd done nofun
  | succ fuel ih =>
      rw [visit] at done ⊢
      cases origin : (creator.entry candidate).origin with
      | internal => simpa [origin] using done
      | preloaded => simpa [origin] using done
      | immutable =>
          simp only [origin] at done ⊢
          split at done
          · next there => rw [if_pos there, done]
          · next absent => rw [if_neg absent, foldlM_mono (fun _ _ _ => ih) done]
      | user =>
          simp only [origin] at done ⊢
          split at done
          · next there => rw [if_pos there, done]
          · next absent =>
              obtain ⟨middle, loop, last⟩ := Option.map_eq_some_iff.mp done
              rw [if_neg absent, foldlM_mono (fun _ _ _ => ih) loop, ← last]
              rfl

/-- The classes of the creator that are not in the class table yet. -/
def unseen (creator : Creator ClassId Value) (table : List ClassId) : Nat :=
  (creator.classTable.filter (· ∉ table)).length

theorem unseen_le (creator : Creator ClassId Value) (table : List ClassId) :
    unseen creator table ≤ creator.classTable.length :=
  List.length_filter_le _ _

theorem unseen_subset (creator : Creator ClassId Value) {table larger : List ClassId}
    (within : table ⊆ larger) :
    unseen creator larger ≤ unseen creator table := by
  refine (List.monotone_filter_right _ ?_).length_le
  intro candidate
  simp only [decide_eq_true_eq]
  exact fun absent there => absent (within there)

theorem unseen_insertKey {table : List ClassId} {candidate : ClassId}
    (listed : candidate ∈ creator.classTable) (absent : candidate ∉ table) :
    unseen creator (insertKey table candidate) < unseen creator table := by
  have narrowed : creator.classTable.filter (· ∉ insertKey table candidate) =
      (creator.classTable.filter (· ∉ table)).filter (· ≠ candidate) := by
    rw [List.filter_filter]
    refine List.filter_congr fun other _ => ?_
    simp [insertKey, absent, and_comm]
  rw [unseen, narrowed]
  refine List.length_filter_lt_length_iff_exists.mpr ⟨candidate, ?_, by simp⟩
  exact List.mem_filter.mpr ⟨listed, by simpa using absent⟩

/-- With enough fuel the walk comes back from a class.  Immutable classes use it up by
filling the table, copied ones by going up to what was linked before them. -/
theorem visit_total {fuel : Nat} {candidate : ClassId} {table : List ClassId}
    (positive : 0 < fuel)
    (copied : (creator.entry candidate).origin = .user →
      creator.rank candidate + creator.classTable.length + 1 < fuel)
    (used : (creator.entry candidate).origin ≠ .user → candidate ∉ table →
      unseen creator (insertKey table candidate) + 1 < fuel) :
    ∃ after, visit creator fuel candidate table = some after ∧ table ⊆ after := by
  induction fuel generalizing candidate table with
  | zero => omega
  | succ fuel ih =>
      rw [visit]
      cases origin : (creator.entry candidate).origin with
      | internal => exact ⟨table, rfl, List.Subset.refl _⟩
      | preloaded => exact ⟨table, rfl, List.Subset.refl _⟩
      | immutable =>
          by_cases there : candidate ∈ table
          · exact ⟨table, by simp [there], List.Subset.refl _⟩
          · have room := used (by simp [origin]) there
            have loop : ∃ after, (creator.entry candidate).dependencies.foldlM
                (fun table other => visit creator fuel other table)
                (insertKey table candidate) = some after ∧
                  insertKey table candidate ⊆ after := by
              refine foldlM_total ?_ (List.Subset.refl _)
              intro middle within other needed
              have same := creator.shared candidate (by simp [origin]) other needed
              have fewer := unseen_subset creator within
              have reached : ∃ after, visit creator fuel other middle = some after ∧
                  middle ⊆ after := by
                refine ih (by omega) (fun copied => absurd copied same) fun _ absent => ?_
                have := unseen_insertKey (creator.listed candidate other needed) absent
                omega
              obtain ⟨after, done, kept⟩ := reached
              exact ⟨after, done, List.Subset.trans within kept⟩
            obtain ⟨after, done, kept⟩ := loop
            exact ⟨after, by simpa only [there, if_false] using done,
              List.Subset.trans (subset_insertKey table candidate) kept⟩
      | user =>
          by_cases there : candidate ∈ table
          · exact ⟨table, by simp [there], List.Subset.refl _⟩
          · have room := copied origin
            have loop : ∃ after, (creator.entry candidate).required.foldlM
                (fun table other => visit creator fuel other table) table = some after ∧
                  table ⊆ after := by
              refine foldlM_total ?_ (List.Subset.refl _)
              intro middle within other needed
              have earlier := creator.rank_lt candidate origin other needed
              have reached : ∃ after, visit creator fuel other middle = some after ∧
                  middle ⊆ after := by
                refine ih (by omega) (fun _ => by omega) fun _ _ => ?_
                have := unseen_le creator (insertKey middle other)
                omega
              obtain ⟨after, done, kept⟩ := reached
              exact ⟨after, done, List.Subset.trans within kept⟩
            obtain ⟨after, done, kept⟩ := loop
            simp only [there, if_false, done]
            exact ⟨_, rfl, List.Subset.trans kept (subset_insertKey after candidate)⟩

theorem visit_enough (creator : Creator ClassId Value) (candidate : ClassId)
    (table : List ClassId) :
    ∃ after, visit creator creator.enough candidate table = some after := by
  have last := creator.rank_le candidate
  have few := unseen_le creator (insertKey table candidate)
  have reached : ∃ after, visit creator creator.enough candidate table = some after ∧
      table ⊆ after := by
    refine visit_total ?_ (fun _ => ?_) fun _ _ => ?_
    all_goals
      rw [Creator.enough]
      omega
  obtain ⟨after, done, _⟩ := reached
  exact ⟨after, done⟩

end Termination

end Pthreads.ClassPreparation
