import Pthreads.OrderedTable
import Mathlib.Algebra.Group.Basic

/-!
# Sums over a table

Each value of a table weighs something in a commutative monoid.  Updating a key
exchanges the weight of the value that was there for the weight of the new one,
and removing a key takes the weight of its value away.
-/

namespace Pthreads.OrderedTable

variable {K V M : Type*} [AddCommMonoid M]

/-- What the values of a table weigh together. -/
def weight (table : OrderedTable K V) (weigh : V → M) : M :=
  (table.entries.map fun entry => weigh entry.2).sum

@[simp]
theorem weight_empty (weigh : V → M) : (empty : OrderedTable K V).weight weigh = 0 := rfl

/-- A change of the values that keeps what each of them weighs. -/
theorem weight_mapValues {W : Type*} (table : OrderedTable K V) {change : K → V → W}
    {weigh : V → M} {weighAfter : W → M}
    (same : ∀ key value, weighAfter (change key value) = weigh value) :
    (table.mapValues change).weight weighAfter = table.weight weigh := by
  simp only [weight, mapValues, List.map_map]
  congr 1
  exact List.map_congr_left fun entry _ => same entry.1 entry.2

/-- A value that may be missing weighs nothing then. -/
def weighFound (weigh : V → M) (found : Option V) : M := found.elim 0 weigh

@[simp]
theorem weighFound_none (weigh : V → M) : weighFound weigh (none : Option V) = 0 := rfl

@[simp]
theorem weighFound_some (weigh : V → M) (value : V) :
    weighFound weigh (some value) = weigh value := rfl

variable [DecidableEq K]

theorem sum_place (key : K) (value : V) (weigh : V → M) (entries : List (K × V)) :
    ((place key value entries).map fun entry => weigh entry.2).sum +
        weighFound weigh (lookup key entries) =
      (entries.map fun entry => weigh entry.2).sum + weigh value := by
  induction entries with
  | nil => simp [place, lookup]
  | cons entry entries ih =>
      by_cases same : entry.1 = key
      · simp only [place, lookup, same, if_true, List.map_cons, List.sum_cons, weighFound_some]
        rw [add_right_comm, add_comm (weigh value), add_right_comm, add_comm (weigh entry.2)]
      · simp only [place, lookup, same, if_false, List.map_cons, List.sum_cons]
        rw [add_assoc, ih, add_assoc]

theorem weight_update (table : OrderedTable K V) (key : K) (value : V) (weigh : V → M) :
    (table.update key value).weight weigh + weighFound weigh (table.find key) =
      table.weight weigh + weigh value :=
  sum_place key value weigh table.entries

theorem sum_filter_other (key : K) (weigh : V → M) {entries : List (K × V)}
    (distinct : (entries.map Prod.fst).Nodup) :
    ((entries.filter fun entry => entry.1 ≠ key).map fun entry => weigh entry.2).sum +
        weighFound weigh (lookup key entries) =
      (entries.map fun entry => weigh entry.2).sum := by
  induction entries with
  | nil => simp [lookup]
  | cons entry entries ih =>
      obtain ⟨notIn, rest⟩ := List.nodup_cons.mp distinct
      by_cases same : entry.1 = key
      · subst same
        have others : (entries.filter fun other => other.1 ≠ entry.1) = entries := by
          apply List.filter_eq_self.mpr
          intro other isIn
          apply decide_eq_true
          intro equal
          exact notIn (List.mem_map.mpr ⟨other, isIn, equal⟩)
        rw [List.filter_cons_of_neg (by simp), others]
        simp only [lookup, if_true, weighFound_some, List.map_cons, List.sum_cons]
        exact add_comm _ _
      · rw [List.filter_cons_of_pos (by simpa using same)]
        simp only [lookup, same, if_false, List.map_cons, List.sum_cons]
        rw [add_assoc, ih rest]

theorem weight_delete (table : OrderedTable K V) (key : K) (weigh : V → M) :
    (table.delete key).weight weigh + weighFound weigh (table.find key) = table.weight weigh :=
  sum_filter_other key weigh table.distinct

end Pthreads.OrderedTable
