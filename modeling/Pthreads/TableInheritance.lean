import Mathlib.Data.List.Induction
import Pthreads.OrderedTable

/-!
# Adding what a table does not have

The entries of one table are added to another, one after the other, unless the other has
the key already, or the key under which a second lookup is made.  What has been added
before counts as well, so the order of the entries matters where two keys share their
second lookup.
-/

namespace Pthreads.OrderedTable

variable {K V W : Type*} [DecidableEq K]

section Inheriting

variable (second : K → K) (wanted : K → V → Bool) (copy : K → V → Option W)

/-- The table has the key, or the key of the second lookup. -/
def knows (table : OrderedTable K W) (key : K) : Bool :=
  (table.find key).isSome || (table.find (second key)).isSome

/-- Add a copy of each entry that is wanted and not known; a copy can fail. -/
def inheritEach : List (K × V) → OrderedTable K W → Option (OrderedTable K W)
  | [], table => some table
  | entry :: entries, table =>
      if wanted entry.1 entry.2 = true ∧ knows second table entry.1 = false then
        match copy entry.1 entry.2 with
        | some value => inheritEach entries (table.update entry.1 value)
        | none => none
      else inheritEach entries table

/-- The entry is added: neither the table nor the wanted entries before it have its
key or the key of the second lookup. -/
def Inherits (entries : List (K × V)) (table : OrderedTable K W) (key : K) (value : V) : Prop :=
  ∃ before later, entries = before ++ (key, value) :: later ∧ wanted key value = true ∧
    table.find key = none ∧ table.find (second key) = none ∧
      ∀ other, (second key, other) ∈ before → wanted (second key) other = false

end Inheriting

variable {second : K → K} {wanted : K → V → Bool} {copy : K → V → Option W}

/-- What the table has it keeps. -/
theorem find_inheritEach_of_some {entries : List (K × V)} {table after : OrderedTable K W}
    {key : K} {value : W} (found : table.find key = some value)
    (ended : inheritEach second wanted copy entries table = some after) :
    after.find key = some value := by
  induction entries generalizing table with
  | nil =>
      cases ended
      exact found
  | cons entry entries ih =>
      rw [inheritEach] at ended
      split at ended
      · next inherits =>
        have different : key ≠ entry.1 := by
          rintro rfl
          simp [knows, found] at inherits
        cases copied : copy entry.1 entry.2 with
        | none => simp [copied] at ended
        | some made =>
            simp only [copied] at ended
            apply ih _ ended
            rw [find_update_other _ _ different, found]
      · exact ih found ended

/-- What no wanted entry has is not added. -/
theorem find_inheritEach_of_none {entries : List (K × V)} {table after : OrderedTable K W}
    {key : K} (missing : table.find key = none)
    (unwanted : ∀ value, (key, value) ∈ entries → wanted key value = false)
    (ended : inheritEach second wanted copy entries table = some after) :
    after.find key = none := by
  induction entries generalizing table with
  | nil =>
      cases ended
      exact missing
  | cons entry entries ih =>
      have rest : ∀ value, (key, value) ∈ entries → wanted key value = false :=
        fun value isIn => unwanted value (List.mem_cons_of_mem _ isIn)
      rw [inheritEach] at ended
      split at ended
      · next inherits =>
        have different : key ≠ entry.1 := by
          rintro rfl
          have refused := unwanted entry.2 List.mem_cons_self
          rw [inherits.1] at refused
          cases refused
        cases copied : copy entry.1 entry.2 with
        | none => simp [copied] at ended
        | some made =>
            simp only [copied] at ended
            apply ih _ rest ended
            rw [find_update_other _ _ different, missing]
      · exact ih missing rest ended

/-- A wanted entry whose second lookup is its key is in the table afterwards. -/
theorem find_inheritEach_of_mem {entries : List (K × V)} {table after : OrderedTable K W}
    {key : K} {value : V} (same : second key = key) (isIn : (key, value) ∈ entries)
    (isWanted : wanted key value = true)
    (ended : inheritEach second wanted copy entries table = some after) :
    (after.find key).isSome = true := by
  induction entries generalizing table with
  | nil => cases isIn
  | cons entry entries ih =>
      rw [inheritEach] at ended
      rcases List.mem_cons.mp isIn with rfl | isLater
      · split at ended
        · cases copied : copy key value with
          | none => simp [copied] at ended
          | some made =>
              simp only [copied] at ended
              have added : (table.update key made).find key = some made :=
                find_update_same table key made
              rw [find_inheritEach_of_some added ended]
              rfl
        · next known =>
          have isThere : table.find key ≠ none := by
            simpa [knows, same, isWanted] using known
          obtain ⟨found, isFound⟩ := Option.ne_none_iff_exists'.mp isThere
          rw [find_inheritEach_of_some isFound ended]
          rfl
      · split at ended
        · cases copied : copy entry.1 entry.2 with
          | none => simp [copied] at ended
          | some made =>
              simp only [copied] at ended
              exact ih isLater ended
        · exact ih isLater ended

theorem inheritEach_append {before later : List (K × V)} {table : OrderedTable K W} :
    inheritEach second wanted copy (before ++ later) table =
      (inheritEach second wanted copy before table).bind
        (inheritEach second wanted copy later) := by
  induction before generalizing table with
  | nil => rfl
  | cons entry before ih =>
      rw [List.cons_append, inheritEach, inheritEach]
      split
      · cases copy entry.1 entry.2 with
        | none => rfl
        | some made => exact ih
      · exact ih

/-- What is known after some entries have been added. -/
theorem knows_inheritEach {before : List (K × V)} {table middle : OrderedTable K W} {key : K}
    (idempotent : ∀ key, second (second key) = second key)
    (isNew : ∀ value, (key, value) ∉ before)
    (ended : inheritEach second wanted copy before table = some middle) :
    knows second middle key = false ↔ table.find key = none ∧ table.find (second key) = none ∧
      ∀ other, (second key, other) ∈ before → wanted (second key) other = false := by
  simp only [knows, Bool.or_eq_false_iff, Option.isSome_eq_false_iff, Option.isNone_iff_eq_none]
  constructor
  · rintro ⟨missing, missingSecond⟩
    have back : ∀ other, middle.find other = none → table.find other = none := by
      intro other isNone
      cases found : table.find other with
      | none => rfl
      | some value =>
          rw [find_inheritEach_of_some found ended] at isNone
          cases isNone
    refine ⟨back key missing, back (second key) missingSecond, ?_⟩
    intro other isIn
    by_contra isWanted
    have isThere := find_inheritEach_of_mem (idempotent key) isIn (by simpa using isWanted) ended
    rw [missingSecond] at isThere
    cases isThere
  · rintro ⟨missing, missingSecond, unwanted⟩
    constructor
    · exact find_inheritEach_of_none missing (fun value isIn => absurd isIn (isNew value)) ended
    · exact find_inheritEach_of_none missingSecond unwanted ended

omit [DecidableEq K] in
/-- The keys before an entry are others, and those after it too. -/
theorem notMem_of_distinct {before later : List (K × V)} {key : K} {value : V}
    (distinct : ((before ++ (key, value) :: later).map Prod.fst).Nodup) :
    (∀ other, (key, other) ∉ before) ∧ ∀ other, (key, other) ∉ later := by
  rw [List.map_append, List.map_cons] at distinct
  constructor
  · intro other isIn
    have apart := (List.nodup_append.mp distinct).2.2
    exact apart key (List.mem_map_of_mem isIn) key List.mem_cons_self rfl
  · intro other isIn
    have notIn := (List.nodup_cons.mp (List.nodup_append.mp distinct).2.1).1
    exact notIn (List.mem_map.mpr ⟨(key, other), isIn, rfl⟩)

/-- What the table has after the entries of another have been added. -/
theorem find_inheritEach {entries : List (K × V)} {table after : OrderedTable K W} {key : K}
    {made : W} (idempotent : ∀ key, second (second key) = second key)
    (distinct : (entries.map Prod.fst).Nodup)
    (ended : inheritEach second wanted copy entries table = some after) :
    after.find key = some made ↔ table.find key = some made ∨
      ∃ value, Inherits second wanted entries table key value ∧ copy key value = some made := by
  constructor
  · intro found
    cases before : table.find key with
    | some value =>
        rw [find_inheritEach_of_some before ended] at found
        exact Or.inl found
    | none =>
        apply Or.inr
        -- the key comes from a wanted entry, which is the only one with it
        obtain ⟨value, isIn, -⟩ : ∃ value, (key, value) ∈ entries ∧ wanted key value = true := by
          by_contra nowhere
          push Not at nowhere
          have missing := find_inheritEach_of_none before
            (fun value isIn => Bool.eq_false_iff.mpr (nowhere value isIn)) ended
          rw [found] at missing
          cases missing
        obtain ⟨first, later, rfl⟩ := List.append_of_mem isIn
        obtain ⟨notBefore, notLater⟩ := notMem_of_distinct distinct
        rw [inheritEach_append] at ended
        obtain ⟨middle, isMiddle, rest⟩ := Option.bind_eq_some_iff.mp ended
        have missing := find_inheritEach_of_none before
          (fun other isIn => absurd isIn (notBefore other)) isMiddle
        rw [inheritEach] at rest
        split at rest
        · next inherits =>
          have unknown := (knows_inheritEach idempotent notBefore isMiddle).mp inherits.2
          cases copied : copy key value with
          | none => simp [copied] at rest
          | some other =>
              simp only [copied] at rest
              have added := find_inheritEach_of_some (find_update_same middle key other) rest
              rw [found, Option.some.injEq] at added
              exact ⟨value, ⟨first, later, rfl, inherits.1, unknown⟩, copied.trans (by rw [added])⟩
        · have still := find_inheritEach_of_none missing
            (fun other isIn => absurd isIn (notLater other)) rest
          rw [found] at still
          cases still
  · rintro (found | ⟨value, ⟨first, later, rfl, isWanted, unknown⟩, copied⟩)
    · exact find_inheritEach_of_some found ended
    · obtain ⟨notBefore, -⟩ := notMem_of_distinct distinct
      rw [inheritEach_append] at ended
      obtain ⟨middle, isMiddle, rest⟩ := Option.bind_eq_some_iff.mp ended
      have isUnknown := (knows_inheritEach idempotent notBefore isMiddle).mpr unknown
      rw [inheritEach, if_pos ⟨isWanted, isUnknown⟩, copied] at rest
      exact find_inheritEach_of_some (find_update_same middle key made) rest

/-- The entries are added unless one that is added cannot be copied. -/
theorem inheritEach_isSome_iff {entries : List (K × V)} {table : OrderedTable K W}
    (idempotent : ∀ key, second (second key) = second key)
    (distinct : (entries.map Prod.fst).Nodup) :
    (inheritEach second wanted copy entries table).isSome = true ↔
      ∀ key value, Inherits second wanted entries table key value →
        (copy key value).isSome = true := by
  constructor
  · rintro ended key value ⟨first, later, rfl, isWanted, unknown⟩
    obtain ⟨notBefore, -⟩ := notMem_of_distinct distinct
    obtain ⟨after, isAfter⟩ := Option.isSome_iff_exists.mp ended
    rw [inheritEach_append] at isAfter
    obtain ⟨middle, isMiddle, rest⟩ := Option.bind_eq_some_iff.mp isAfter
    have isUnknown := (knows_inheritEach idempotent notBefore isMiddle).mpr unknown
    rw [inheritEach, if_pos ⟨isWanted, isUnknown⟩] at rest
    cases copied : copy key value with
    | none => simp [copied] at rest
    | some made => rfl
  · intro copies
    -- every beginning of the entries is added, by induction from its end
    have reaches : ∀ first later, entries = first ++ later →
        (inheritEach second wanted copy first table).isSome = true := by
      intro first
      induction first using List.reverseRecOn with
      | nil => exact fun _ _ => rfl
      | append_singleton first entry ih =>
          intro later isWhole
          have whole : entries = first ++ entry :: later := by simpa using isWhole
          obtain ⟨middle, isMiddle⟩ := Option.isSome_iff_exists.mp (ih _ whole)
          rw [inheritEach_append, isMiddle, Option.bind_some, inheritEach]
          split
          · next inherits =>
            rw [whole] at distinct
            obtain ⟨notBefore, -⟩ := notMem_of_distinct distinct
            have unknown := (knows_inheritEach idempotent notBefore isMiddle).mp inherits.2
            have isSome := copies entry.1 entry.2 ⟨first, later, whole, inherits.1, unknown⟩
            obtain ⟨made, copied⟩ := Option.isSome_iff_exists.mp isSome
            simp [copied, inheritEach]
          · rfl
    exact reaches entries [] (List.append_nil entries).symm

section Adding

/-- Add a copy of each entry that is wanted and whose key the table does not have. -/
def addEach (wanted : K → V → Bool) (copy : K → V → W) :
    List (K × V) → OrderedTable K W → OrderedTable K W
  | [], table => table
  | entry :: entries, table =>
      if wanted entry.1 entry.2 = true ∧ (table.find entry.1).isSome = false then
        addEach wanted copy entries (table.update entry.1 (copy entry.1 entry.2))
      else addEach wanted copy entries table

/-- Adding is inheriting with one lookup and copies that do not fail. -/
theorem inheritEach_eq_addEach {copy : K → V → W} {entries : List (K × V)}
    {table : OrderedTable K W} :
    inheritEach id wanted (fun key value => some (copy key value)) entries table =
      some (addEach wanted copy entries table) := by
  induction entries generalizing table with
  | nil => rfl
  | cons entry entries ih =>
      have unknown : knows id table entry.1 = (table.find entry.1).isSome := Bool.or_self _
      rw [inheritEach, addEach, unknown]
      split
      · exact ih
      · exact ih

theorem find_addEach {copy : K → V → W} {entries : List (K × V)} {table : OrderedTable K W}
    {key : K} {made : W} (distinct : (entries.map Prod.fst).Nodup) :
    (addEach wanted copy entries table).find key = some made ↔ table.find key = some made ∨
      (table.find key = none ∧ ∃ value, (key, value) ∈ entries ∧ wanted key value = true ∧
        copy key value = made) := by
  rw [find_inheritEach (fun _ => rfl) distinct inheritEach_eq_addEach]
  apply or_congr_right
  constructor
  · rintro ⟨value, ⟨before, later, rfl, isWanted, missing, -⟩, copied⟩
    refine ⟨missing, value, ?_, isWanted, Option.some.inj copied⟩
    exact List.mem_append_right _ List.mem_cons_self
  · rintro ⟨missing, value, isIn, isWanted, rfl⟩
    obtain ⟨before, later, rfl⟩ := List.append_of_mem isIn
    have isNew := (notMem_of_distinct distinct).1
    exact ⟨value, ⟨before, later, rfl, isWanted, missing, missing,
      fun other isBefore => absurd isBefore (isNew other)⟩, rfl⟩

end Adding

end Pthreads.OrderedTable
