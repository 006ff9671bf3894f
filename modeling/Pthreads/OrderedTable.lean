import Mathlib.Data.List.Nodup
import Mathlib.Data.List.Perm.Basic

/-!
# Tables in insertion order

A hash table that remembers the order of insertion: updating a key that is
present keeps its position, a new key goes to the end, and removal leaves the
order of the rest.  The structure carries the fact that no key occurs twice.
-/

namespace Pthreads

/-- A table from keys to values in insertion order. -/
structure OrderedTable (K V : Type*) where
  entries : List (K × V)
  distinct : (entries.map Prod.fst).Nodup

namespace OrderedTable

variable {K V W : Type*}

def empty : OrderedTable K V := ⟨[], List.nodup_nil⟩

def keys (table : OrderedTable K V) : List K := table.entries.map Prod.fst

section Lookup

variable [DecidableEq K]

/-- The first value listed under a key. -/
def lookup (key : K) : List (K × V) → Option V
  | [] => none
  | entry :: entries => if entry.1 = key then some entry.2 else lookup key entries

def find (table : OrderedTable K V) (key : K) : Option V := lookup key table.entries

/-- Replace the value under a key where it stands, or add it at the end. -/
def place (key : K) (value : V) : List (K × V) → List (K × V)
  | [] => [(key, value)]
  | entry :: entries =>
      if entry.1 = key then (key, value) :: entries else entry :: place key value entries

theorem mem_map_place {key other : K} {value : V} {entries : List (K × V)} :
    other ∈ (place key value entries).map Prod.fst ↔
      other = key ∨ other ∈ entries.map Prod.fst := by
  induction entries with
  | nil => simp [place]
  | cons entry entries ih =>
      by_cases same : entry.1 = key
      · subst same
        simp [place]
      · simp only [place, same, if_false, List.map_cons, List.mem_cons, ih]
        exact or_left_comm

theorem distinct_place (key : K) (value : V) {entries : List (K × V)}
    (distinct : (entries.map Prod.fst).Nodup) :
    ((place key value entries).map Prod.fst).Nodup := by
  induction entries with
  | nil => simp [place]
  | cons entry entries ih =>
      obtain ⟨notIn, rest⟩ := List.nodup_cons.mp distinct
      by_cases same : entry.1 = key
      · subst same
        simpa [place] using distinct
      · simp only [place, same, if_false, List.map_cons, List.nodup_cons]
        refine ⟨?_, ih rest⟩
        rw [mem_map_place]
        rintro (equal | isIn)
        · exact same equal
        · exact notIn isIn

def update (table : OrderedTable K V) (key : K) (value : V) : OrderedTable K V :=
  ⟨place key value table.entries, distinct_place key value table.distinct⟩

/-- Keep the entries that pass a test. -/
def filter (table : OrderedTable K V) (test : K → V → Bool) : OrderedTable K V :=
  ⟨table.entries.filter fun entry => test entry.1 entry.2,
    table.distinct.sublist (List.filter_sublist.map _)⟩

def delete (table : OrderedTable K V) (key : K) : OrderedTable K V :=
  table.filter fun other _ => other ≠ key

/-- Change the values and keep the keys. -/
def mapValues (table : OrderedTable K V) (change : K → V → W) : OrderedTable K W :=
  ⟨table.entries.map fun entry => (entry.1, change entry.1 entry.2), by
    simpa [List.map_map, Function.comp_def] using table.distinct⟩

@[simp] theorem find_empty (key : K) : (empty : OrderedTable K V).find key = none := rfl

@[simp] theorem find_update_same (table : OrderedTable K V) (key : K) (value : V) :
    (table.update key value).find key = some value := by
  simp only [find, update]
  induction table.entries with
  | nil => simp [place, lookup]
  | cons entry entries ih =>
      by_cases same : entry.1 = key
      · simp [place, lookup, same]
      · simp [place, lookup, same, ih]

theorem find_update_other (table : OrderedTable K V) {key other : K} (value : V)
    (different : other ≠ key) : (table.update key value).find other = table.find other := by
  simp only [find, update]
  induction table.entries with
  | nil => simp [place, lookup, Ne.symm different]
  | cons entry entries ih =>
      by_cases same : entry.1 = key
      · simp [place, lookup, same, Ne.symm different]
      · simp [place, lookup, same, ih]

theorem find_update_cases {table : OrderedTable K V} {key other : K} {value found : V}
    (isThere : (table.update key value).find other = some found) :
    (other = key ∧ found = value) ∨ (other ≠ key ∧ table.find other = some found) := by
  by_cases same : other = key
  · subst same
    rw [find_update_same, Option.some.injEq] at isThere
    exact Or.inl ⟨rfl, isThere.symm⟩
  · rw [find_update_other table value same] at isThere
    exact Or.inr ⟨same, isThere⟩

theorem entries_update_ne_nil (table : OrderedTable K V) (key : K) (value : V) :
    (table.update key value).entries ≠ [] := by
  intro isEmpty
  have found := find_update_same table key value
  rw [find, isEmpty] at found
  cases found

theorem map_place (key : K) (value : V) (entries : List (K × V)) :
    (place key value entries).map Prod.fst =
      if key ∈ entries.map Prod.fst then entries.map Prod.fst
      else entries.map Prod.fst ++ [key] := by
  induction entries with
  | nil => simp [place]
  | cons entry entries ih =>
      by_cases same : entry.1 = key
      · simp [place, same]
      · by_cases later : key ∈ entries.map Prod.fst
        · rw [if_pos later] at ih
          simp only [place, same, if_false, List.map_cons, List.mem_cons, later, or_true, if_true,
            ih]
        · rw [if_neg later] at ih
          simp only [place, same, if_false, List.map_cons, List.mem_cons, later, or_false,
            Ne.symm same, ih, List.cons_append]

theorem place_of_notMem {key : K} (value : V) {entries : List (K × V)}
    (absent : key ∉ entries.map Prod.fst) :
    place key value entries = entries ++ [(key, value)] := by
  induction entries with
  | nil => rfl
  | cons entry entries ih =>
      simp only [List.map_cons, List.mem_cons, not_or] at absent
      simp only [place, Ne.symm absent.1, if_false, ih absent.2, List.cons_append]

theorem place_of_mem {key : K} (value : V) {entries : List (K × V)}
    (distinct : (entries.map Prod.fst).Nodup) (present : key ∈ entries.map Prod.fst) :
    place key value entries =
      entries.map fun entry => if entry.1 = key then (key, value) else entry := by
  induction entries with
  | nil => cases present
  | cons entry entries ih =>
      obtain ⟨notIn, rest⟩ := List.nodup_cons.mp distinct
      by_cases same : entry.1 = key
      · subst same
        have others : entries.map (fun other => if other.1 = entry.1 then (entry.1, value)
            else other) = entries.map id := by
          apply List.map_congr_left
          intro other isIn
          apply if_neg
          intro equal
          exact notIn (List.mem_map.mpr ⟨other, isIn, equal⟩)
        rw [List.map_id] at others
        simp only [place, if_true, List.map_cons, others]
      · have later : key ∈ entries.map Prod.fst := by
          rcases List.mem_cons.mp present with isFirst | later
          · exact False.elim (same isFirst.symm)
          · exact later
        simp only [place, same, if_false, List.map_cons, ih rest later]

/-- A key that is present keeps its position, and a new one goes to the end. -/
theorem keys_update (table : OrderedTable K V) (key : K) (value : V) :
    (table.update key value).keys =
      if key ∈ table.keys then table.keys else table.keys ++ [key] :=
  map_place key value table.entries

theorem entries_update_of_notMem {table : OrderedTable K V} {key : K} (value : V)
    (absent : key ∉ table.keys) :
    (table.update key value).entries = table.entries ++ [(key, value)] :=
  place_of_notMem value absent

theorem mem_of_lookup {key : K} {value : V} {entries : List (K × V)}
    (found : lookup key entries = some value) : (key, value) ∈ entries := by
  induction entries with
  | nil => simp [lookup] at found
  | cons entry entries ih =>
      by_cases same : entry.1 = key
      · simp only [lookup, same, if_true, Option.some.injEq] at found
        simp [← same, ← found]
      · simp only [lookup, same, if_false] at found
        exact List.mem_cons_of_mem _ (ih found)

theorem lookup_of_mem {key : K} {value : V} {entries : List (K × V)}
    (distinct : (entries.map Prod.fst).Nodup) (isIn : (key, value) ∈ entries) :
    lookup key entries = some value := by
  induction entries with
  | nil => simp at isIn
  | cons entry entries ih =>
      obtain ⟨notIn, rest⟩ := List.nodup_cons.mp distinct
      rcases List.mem_cons.mp isIn with rfl | later
      · simp [lookup]
      · have different : entry.1 ≠ key := by
          rintro rfl
          exact notIn (List.mem_map.mpr ⟨_, later, rfl⟩)
        simp only [lookup, different, if_false]
        exact ih rest later

theorem find_eq_some_iff {table : OrderedTable K V} {key : K} {value : V} :
    table.find key = some value ↔ (key, value) ∈ table.entries :=
  ⟨mem_of_lookup, lookup_of_mem table.distinct⟩

theorem find_filter (table : OrderedTable K V) (test : K → V → Bool) (key : K) :
    (table.filter test).find key = (table.find key).filter (test key) := by
  ext value
  rw [find_eq_some_iff, Option.filter_eq_some_iff, find_eq_some_iff]
  simp [filter]

@[simp] theorem find_delete_same (table : OrderedTable K V) (key : K) :
    (table.delete key).find key = none := by
  rw [delete, find_filter]
  cases table.find key <;> simp

theorem find_delete_other (table : OrderedTable K V) {key other : K} (different : other ≠ key) :
    (table.delete key).find other = table.find other := by
  rw [delete, find_filter]
  cases table.find other <;> simp [different]

theorem find_of_find_delete {table : OrderedTable K V} {key other : K} {found : V}
    (isThere : (table.delete key).find other = some found) :
    other ≠ key ∧ table.find other = some found := by
  rw [delete, find_filter, Option.filter_eq_some_iff] at isThere
  exact ⟨by simpa using isThere.2, isThere.1⟩

theorem find_mapValues (table : OrderedTable K V) (change : K → V → W) (key : K) :
    (table.mapValues change).find key = (table.find key).map (change key) := by
  simp only [find, mapValues]
  induction table.entries with
  | nil => rfl
  | cons entry entries ih =>
      by_cases same : entry.1 = key
      · simp [lookup, same]
      · simp [lookup, same, ih]

theorem find_eq_none_iff {table : OrderedTable K V} {key : K} :
    table.find key = none ↔ key ∉ table.keys := by
  rw [Option.eq_none_iff_forall_ne_some]
  constructor
  · intro absent isIn
    obtain ⟨⟨other, value⟩, present, rfl⟩ := List.mem_map.mp isIn
    exact absent value (find_eq_some_iff.mpr present)
  · intro absent value found
    exact absent (List.mem_map_of_mem (find_eq_some_iff.mp found))

end Lookup

end OrderedTable

end Pthreads
