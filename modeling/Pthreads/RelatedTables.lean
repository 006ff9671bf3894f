import Pthreads.OrderedTable

/-!
# Related tables

Two tables in insertion order are related when they have the same keys in the same order
and the values under each key are.  Every operation on tables keeps this relation, so that
a table of representations can be used in the place of a table of what they represent.
-/

namespace Pthreads.OrderedTable

variable {K V W : Type*}

/-- Entries with one key and related values. -/
def RelatedEntry (related : V → W → Prop) (entry : K × V) (other : K × W) : Prop :=
  entry.1 = other.1 ∧ related entry.2 other.2

/-- The same keys in the same order, with related values. -/
def Related (related : V → W → Prop) (table : OrderedTable K V) (other : OrderedTable K W) : Prop :=
  List.Forall₂ (RelatedEntry related) table.entries other.entries

variable {related : V → W → Prop} {table : OrderedTable K V} {other : OrderedTable K W}

theorem Related.mono {weaker : V → W → Prop} (areRelated : Related related table other)
    (implied : ∀ entry ∈ table.entries, ∀ value, related entry.2 value → weaker entry.2 value) :
    Related weaker table other := by
  unfold Related at areRelated ⊢
  generalize table.entries = entries at areRelated implied
  generalize other.entries = others at areRelated
  induction areRelated with
  | nil => exact List.Forall₂.nil
  | cons first _ ih =>
      have here := implied _ List.mem_cons_self _ first.2
      apply List.Forall₂.cons ⟨first.1, here⟩
      apply ih
      intro entry isIn
      exact implied entry (List.mem_cons_of_mem _ isIn)

/-- Changing the values of the first table, not their relation to the second. -/
theorem Related.mapValues (areRelated : Related related table other) (change : K → V → V)
    (kept : ∀ key value found, related value found → related (change key value) found) :
    Related related (table.mapValues change) other := by
  unfold Related OrderedTable.mapValues at *
  apply List.forall₂_map_left_iff.mpr
  apply areRelated.imp
  intro entry found isRelated
  exact ⟨isRelated.1, kept _ _ _ isRelated.2⟩

theorem related_filter {entries : List (K × V)} {others : List (K × W)} (test : K → Bool)
    (areRelated : List.Forall₂ (RelatedEntry related) entries others) :
    List.Forall₂ (RelatedEntry related) (entries.filter fun entry => test entry.1)
      (others.filter fun entry => test entry.1) := by
  induction areRelated with
  | nil => exact List.Forall₂.nil
  | @cons entry found _ _ first _ ih =>
      cases passes : test entry.1 with
      | true =>
          have alsoPasses : test found.1 = true := first.1 ▸ passes
          rw [List.filter_cons, List.filter_cons, if_pos passes, if_pos alsoPasses]
          exact List.Forall₂.cons first ih
      | false =>
          have alsoFails : test found.1 = false := first.1 ▸ passes
          rw [List.filter_cons, List.filter_cons, if_neg (by simp [passes]),
            if_neg (by simp [alsoFails])]
          exact ih

theorem related_concat {front : List (K × V)} {entry : K × V} {others : List (K × W)}
    (areRelated : List.Forall₂ (RelatedEntry related) (front ++ [entry]) others) :
    ∃ back found, others = back ++ [found] ∧ RelatedEntry related entry found := by
  have reversed := List.rel_reverse areRelated
  rw [List.reverse_append, List.reverse_singleton, List.singleton_append] at reversed
  obtain ⟨found, back, isRelated, _, isReverse⟩ := List.forall₂_cons_left_iff.mp reversed
  apply Exists.intro back.reverse
  apply Exists.intro found
  constructor
  · rw [← List.reverse_reverse others, isReverse, List.reverse_cons]
  · exact isRelated

/-- All but the first entries. -/
def drop (table : OrderedTable K V) (count : Nat) : OrderedTable K V :=
  ⟨table.entries.drop count, table.distinct.sublist ((List.drop_sublist _ _).map _)⟩

/-- All but the last entry. -/
def dropLast (table : OrderedTable K V) : OrderedTable K V :=
  ⟨table.entries.dropLast, table.distinct.sublist ((List.dropLast_sublist _).map _)⟩

theorem eq_of_entries {first second : OrderedTable K V} (same : first.entries = second.entries) :
    first = second := by
  cases first
  cases second
  cases same
  rfl

section Keys

variable [DecidableEq K]

theorem related_place {entries : List (K × V)} {others : List (K × W)} (key : K) {value : V}
    {found : W} (areRelated : List.Forall₂ (RelatedEntry related) entries others)
    (isRelated : related value found) :
    List.Forall₂ (RelatedEntry related) (place key value entries) (place key found others) := by
  induction areRelated with
  | nil => exact List.Forall₂.cons ⟨rfl, isRelated⟩ List.Forall₂.nil
  | @cons entry listed _ _ first rest ih =>
      by_cases same : entry.1 = key
      · rw [place, if_pos same, place, if_pos (first.1 ▸ same)]
        exact List.Forall₂.cons ⟨rfl, isRelated⟩ rest
      · rw [place, if_neg same, place, if_neg (first.1 ▸ same)]
        exact List.Forall₂.cons first ih

theorem delete_of_absent {key : K} (absent : key ∉ table.keys) : table.delete key = table := by
  apply eq_of_entries
  apply List.filter_eq_self.mpr
  intro entry isIn
  apply decide_eq_true
  rintro rfl
  exact absent (List.mem_map_of_mem isIn)

theorem entries_delete_middle {front back : List (K × V)} {entry : K × V}
    (entries : table.entries = front ++ entry :: back) :
    (table.delete entry.1).entries = front ++ back := by
  have distinct := table.distinct
  rw [entries, List.map_append, List.map_cons] at distinct
  have apart := (List.nodup_cons.mp (List.nodup_middle.mp distinct)).1
  have others : ∀ other ∈ front ++ back, decide (other.1 ≠ entry.1) = true := by
    intro other isIn
    apply decide_eq_true
    intro same
    apply apart
    rw [← List.map_append, ← same]
    exact List.mem_map_of_mem isIn
  simp only [delete, filter, entries, List.filter_append]
  rw [List.filter_cons_of_neg (by simp), ← List.filter_append]
  exact List.filter_eq_self.mpr others

theorem delete_head {rest : List (K × V)} {entry : K × V}
    (entries : table.entries = entry :: rest) :
    table.delete entry.1 = table.drop 1 := by
  apply eq_of_entries
  have left := @entries_delete_middle K V table _ [] rest entry entries
  rw [left]
  simp only [drop, entries, List.nil_append, List.drop_succ_cons, List.drop_zero]

theorem delete_last {front : List (K × V)} {entry : K × V}
    (entries : table.entries = front ++ [entry]) : table.delete entry.1 = table.dropLast := by
  apply eq_of_entries
  rw [entries_delete_middle entries]
  simp only [dropLast, entries, List.append_nil, List.dropLast_concat]

theorem Related.update (areRelated : Related related table other) (key : K) {value : V} {found : W}
    (isRelated : related value found) :
    Related related (table.update key value) (other.update key found) :=
  related_place key areRelated isRelated

theorem Related.delete (areRelated : Related related table other) (key : K) :
    Related related (table.delete key) (other.delete key) :=
  related_filter (fun listed => listed ≠ key) areRelated

theorem related_lookup {entries : List (K × V)} {others : List (K × W)} (key : K)
    (areRelated : List.Forall₂ (RelatedEntry related) entries others) :
    (lookup key entries).isSome = (lookup key others).isSome := by
  induction areRelated with
  | nil => rfl
  | @cons entry listed _ _ first _ ih =>
      by_cases same : entry.1 = key
      · rw [lookup, if_pos same, lookup, if_pos (first.1 ▸ same)]
        rfl
      · rw [lookup, if_neg same, lookup, if_neg (first.1 ▸ same)]
        exact ih

/-- Related tables have elements under the same keys. -/
theorem Related.find (areRelated : Related related table other) (key : K) :
    (table.find key).isSome = (other.find key).isSome :=
  related_lookup key areRelated

end Keys

end Pthreads.OrderedTable
