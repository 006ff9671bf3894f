import Pthreads.OrderedTable

/-!
# Merging entries into a table

Entries are merged into a table in their order.  Without overwriting an entry is
skipped when its key is present; otherwise it is placed under a key computed from
its own.  The law of merging is stated for keys taken up to a normalisation, and
this file finds out when it holds: for entries that are placed under their
normalised keys, and for entries that are copied under the keys they have.
-/

namespace Pthreads.TableMerges

open OrderedTable

variable {K V : Type*}

/-- A normalisation of keys: normalised keys stay, and the keys that are not
normalised stand for different ones. -/
structure Normalises (normalise : K → K) : Prop where
  idempotent : ∀ key, normalise (normalise key) = normalise key
  separates : ∀ first second, normalise first ≠ first → normalise second ≠ second →
    normalise first = normalise second → first = second

theorem Normalises.notMem {normalise : K → K} (normalises : Normalises normalise) {key : K}
    (notNormal : normalise key ≠ key) (entries : List (K × V)) :
    key ∉ entries.map fun entry => normalise entry.1 := by
  intro isIn
  obtain ⟨entry, -, rfl⟩ := List.mem_map.mp isIn
  exact notNormal (normalises.idempotent entry.1)

variable [DecidableEq K]

/-- Merge one entry: the test looks for its own key, and the update places it. -/
def mergeEntry (place : K → K) (overwrite : Bool) (table : OrderedTable K V) (entry : K × V) :
    OrderedTable K V :=
  if ¬ overwrite ∧ (table.find entry.1).isSome then table
  else table.update (place entry.1) entry.2

def mergeAll (place : K → K) (overwrite : Bool) (table : OrderedTable K V)
    (entries : List (K × V)) : OrderedTable K V :=
  entries.foldl (mergeEntry place overwrite) table

/-- The law of merging, up to a normalisation of the keys: without overwriting
what was there stays, elements under other keys stay, the keys to be merged hold
one of the values to be merged, and the new keys follow the old ones in the order
of the entries. -/
structure Law (normalise : K → K) (overwrite : Bool) (before : OrderedTable K V)
    (entries : List (K × V)) (after : OrderedTable K V) : Prop where
  kept : overwrite = false → ∀ key value, before.find key = some value →
    after.find key = some value
  others : ∀ key, key ∉ entries.map (fun entry => normalise entry.1) →
    after.find key = before.find key
  held : ∀ entry ∈ entries, overwrite = true ∨ before.find (normalise entry.1) = none →
    ∃ other ∈ entries, normalise other.1 = normalise entry.1 ∧
      after.find (normalise entry.1) = some other.2
  order : ∃ added, after.keys = before.keys ++ added ∧
    added.Sublist (entries.map fun entry => normalise entry.1)

section Merging

variable {place : K → K} {overwrite : Bool} {table : OrderedTable K V} {entries : List (K × V)}
  {key : K} {value : V}

theorem mergeAll_cons (entry : K × V) :
    mergeAll place overwrite table (entry :: entries) =
      mergeAll place overwrite (mergeEntry place overwrite table entry) entries := rfl

theorem mergeEntry_cases (place : K → K) (overwrite : Bool) (table : OrderedTable K V)
    (entry : K × V) :
    (overwrite = false ∧ (table.find entry.1).isSome = true ∧
      mergeEntry place overwrite table entry = table) ∨
    ((overwrite = false → table.find entry.1 = none) ∧
      mergeEntry place overwrite table entry = table.update (place entry.1) entry.2) := by
  unfold mergeEntry
  split
  · next skipped => exact Or.inl ⟨by simpa using skipped.1, skipped.2, rfl⟩
  · next merged =>
    refine Or.inr ⟨?_, rfl⟩
    rintro rfl
    simpa using merged

/-- The keys that were there keep their positions, and the new ones follow. -/
theorem mergeAll_order (place : K → K) (overwrite : Bool) (table : OrderedTable K V)
    (entries : List (K × V)) :
    ∃ added, (mergeAll place overwrite table entries).keys = table.keys ++ added ∧
      added.Sublist (entries.map fun entry => place entry.1) := by
  induction entries generalizing table with
  | nil => exact ⟨[], by simp [mergeAll], List.Sublist.refl _⟩
  | cons entry entries ih =>
      obtain ⟨added, keys, sublist⟩ := ih (mergeEntry place overwrite table entry)
      rw [mergeAll_cons, keys]
      rcases mergeEntry_cases place overwrite table entry with ⟨-, -, same⟩ | ⟨-, placed⟩
      · exact ⟨added, by rw [same], sublist.cons _⟩
      · rw [placed, keys_update]
        split
        · exact ⟨added, rfl, sublist.cons _⟩
        · exact ⟨place entry.1 :: added, by simp, sublist.cons_cons _⟩

theorem mergeEntry_other {entry : K × V} (different : place entry.1 ≠ key) :
    (mergeEntry place overwrite table entry).find key = table.find key := by
  rcases mergeEntry_cases place overwrite table entry with ⟨-, -, same⟩ | ⟨-, placed⟩
  · rw [same]
  · rw [placed, find_update_other _ _ (Ne.symm different)]

theorem mergeAll_other (absent : key ∉ entries.map fun entry => place entry.1) :
    (mergeAll place overwrite table entries).find key = table.find key := by
  induction entries generalizing table with
  | nil => rfl
  | cons entry entries ih =>
      simp only [List.map_cons, List.mem_cons, not_or] at absent
      rw [mergeAll_cons, ih absent.2, mergeEntry_other (Ne.symm absent.1)]

/-- A value comes from the table or from an entry that was placed there. -/
theorem mergeAll_find
    (found : (mergeAll place overwrite table entries).find key = some value) :
    table.find key = some value ∨
      ∃ entry ∈ entries, place entry.1 = key ∧ entry.2 = value := by
  induction entries generalizing table with
  | nil => exact Or.inl found
  | cons entry entries ih =>
      rcases ih found with old | ⟨later, isIn, placed, isValue⟩
      · rcases mergeEntry_cases place overwrite table entry with ⟨-, -, same⟩ | ⟨-, updated⟩
        · exact Or.inl (same ▸ old)
        · rw [updated] at old
          rcases find_update_cases old with ⟨rfl, rfl⟩ | ⟨-, older⟩
          · exact Or.inr ⟨entry, List.mem_cons_self, rfl, rfl⟩
          · exact Or.inl older
      · exact Or.inr ⟨later, List.mem_cons_of_mem _ isIn, placed, isValue⟩

theorem mergeEntry_present (entry : K × V) (present : (table.find key).isSome = true) :
    ((mergeEntry place overwrite table entry).find key).isSome = true := by
  rcases mergeEntry_cases place overwrite table entry with ⟨-, -, same⟩ | ⟨-, placed⟩
  · rw [same]
    exact present
  · rw [placed]
    by_cases here : key = place entry.1
    · rw [here, find_update_same]
      rfl
    · rw [find_update_other _ _ here]
      exact present

theorem mergeAll_present (entries : List (K × V)) (present : (table.find key).isSome = true) :
    ((mergeAll place overwrite table entries).find key).isSome = true := by
  induction entries generalizing table with
  | nil => exact present
  | cons entry entries ih => exact ih (mergeEntry_present entry present)

/-- An entry is placed, or it was skipped because its own key is present. -/
theorem mergeAll_merges (place : K → K) (overwrite : Bool) (table : OrderedTable K V)
    {entries : List (K × V)} {entry : K × V} (isIn : entry ∈ entries) :
    ((mergeAll place overwrite table entries).find (place entry.1)).isSome = true ∨
      ((mergeAll place overwrite table entries).find entry.1).isSome = true := by
  induction entries generalizing table with
  | nil => cases isIn
  | cons first entries ih =>
      rcases List.mem_cons.mp isIn with rfl | later
      · rcases mergeEntry_cases place overwrite table entry with ⟨-, present, -⟩ | ⟨-, placed⟩
        · exact Or.inr (mergeAll_present (entry :: entries) present)
        · refine Or.inl (mergeAll_present entries ?_)
          rw [placed, find_update_same]
          rfl
      · exact ih _ later

/-- With overwriting the last entry for a key gives its value. -/
theorem mergeAll_overwrites (place : K → K) (table : OrderedTable K V)
    {entries : List (K × V)} {entry : K × V} (isIn : entry ∈ entries) :
    ∃ other ∈ entries, place other.1 = place entry.1 ∧
      (mergeAll place true table entries).find (place entry.1) = some other.2 := by
  induction entries generalizing table entry with
  | nil => cases isIn
  | cons first entries ih =>
      by_cases again : place entry.1 ∈ entries.map fun later => place later.1
      · obtain ⟨later, laterIn, samePlace⟩ := List.mem_map.mp again
        obtain ⟨other, otherIn, placed, found⟩ := ih _ laterIn
        exact ⟨other, List.mem_cons_of_mem _ otherIn, placed.trans samePlace, samePlace ▸ found⟩
      · have isFirst : entry = first := by
          rcases List.mem_cons.mp isIn with here | later
          · exact here
          · exact absurd (List.mem_map.mpr ⟨entry, later, rfl⟩) again
        subst isFirst
        refine ⟨entry, List.mem_cons_self, rfl, ?_⟩
        rw [mergeAll_cons, mergeAll_other again]
        simp [mergeEntry]

/-- Without overwriting a value stays, if the entries that would be placed over it
are skipped or bring the same value. -/
theorem mergeAll_keeps (found : table.find key = some value)
    (harmless : ∀ entry ∈ entries, place entry.1 = key →
      (table.find entry.1).isSome = true ∨ entry.2 = value) :
    (mergeAll place false table entries).find key = some value := by
  induction entries generalizing table with
  | nil => exact found
  | cons entry entries ih =>
      obtain ⟨isHarmless, areHarmless⟩ := List.forall_mem_cons.mp harmless
      apply ih
      · rcases mergeEntry_cases place false table entry with ⟨-, -, same⟩ | ⟨absent, placed⟩
        · rw [same]
          exact found
        · rw [placed]
          by_cases here : place entry.1 = key
          · rcases isHarmless here with present | sameValue
            · simp [absent rfl] at present
            · rw [← here, find_update_same, sameValue]
          · rw [find_update_other _ _ (Ne.symm here)]
            exact found
      · intro later isIn placed
        rcases areHarmless later isIn placed with present | sameValue
        · exact Or.inl (mergeEntry_present entry present)
        · exact Or.inr sameValue

/-- Without overwriting a key stays absent, if the entries that would be placed
under it are skipped. -/
theorem mergeAll_skips
    (skipped : ∀ entry ∈ entries, place entry.1 = key → (table.find entry.1).isSome = true) :
    (mergeAll place false table entries).find key = table.find key := by
  induction entries generalizing table with
  | nil => rfl
  | cons entry entries ih =>
      obtain ⟨isSkipped, areSkipped⟩ := List.forall_mem_cons.mp skipped
      have same : (mergeEntry place false table entry).find key = table.find key := by
        by_cases here : place entry.1 = key
        · simp [mergeEntry, isSkipped here]
        · exact mergeEntry_other here
      rw [mergeAll_cons, ih, same]
      intro later isIn placed
      exact mergeEntry_present entry (areSkipped later isIn placed)

end Merging

/-- An entry whose key is not normalised does no harm where entries are placed
under their normalised keys: with overwriting never, and otherwise if it is
skipped only when the normalised key is present in the end, and not skipped only
when the key is absent or holds its value already. -/
def PlacedWell (normalise : K → K) (overwrite : Bool) (before : OrderedTable K V)
    (entries : List (K × V)) (entry : K × V) : Prop :=
  overwrite = true ∨
    ((before.find entry.1).isSome = true →
      (before.find (normalise entry.1)).isSome = true ∨ normalise entry.1 ∈ entries.map Prod.fst) ∧
    (before.find entry.1 = none →
      ∀ value, before.find (normalise entry.1) = some value → value = entry.2)

/-- The same where entries are copied under the keys they have: the key is there,
with the same value if that would be overwritten, and the normalised key is
there or comes with another entry. -/
def CopiedWell (normalise : K → K) (overwrite : Bool) (before : OrderedTable K V)
    (entries : List (K × V)) (entry : K × V) : Prop :=
  if overwrite then
    before.find entry.1 = some entry.2 ∧
      (normalise entry.1 ∈ entries.map Prod.fst ∨ before.find (normalise entry.1) = some entry.2)
  else
    (before.find entry.1).isSome = true ∧
      (normalise entry.1 ∈ entries.map Prod.fst ∨
        (before.find (normalise entry.1)).isSome = true)

section Laws

variable {normalise : K → K} {overwrite : Bool} {before : OrderedTable K V}
  {entries : List (K × V)}

/-- Entries placed with overwriting always follow the law. -/
theorem law_of_placed_overwrite (normalise : K → K) (before : OrderedTable K V)
    (entries : List (K × V)) :
    Law normalise true before entries (mergeAll normalise true before entries) := by
  refine ⟨nofun, fun key absent => mergeAll_other absent, ?_,
    mergeAll_order normalise true before entries⟩
  intro entry isIn _
  exact mergeAll_overwrites normalise before isIn

theorem law_of_placedWell (normalises : Normalises normalise)
    (well : ∀ entry ∈ entries, normalise entry.1 ≠ entry.1 →
      PlacedWell normalise false before entries entry) :
    Law normalise false before entries (mergeAll normalise false before entries) := by
  refine ⟨?_, fun key absent => mergeAll_other absent, ?_,
    mergeAll_order normalise false before entries⟩
  · intro _ key value found
    apply mergeAll_keeps found
    rintro entry isIn rfl
    by_cases normal : normalise entry.1 = entry.1
    · exact Or.inl (by rw [← normal, found]; rfl)
    · rcases well entry isIn normal with isFalse | ⟨-, sameValue⟩
      · cases isFalse
      · cases own : before.find entry.1 with
        | some other => exact Or.inl rfl
        | none => exact Or.inr (sameValue own value found).symm
  · rintro entry isIn (isFalse | absent)
    · cases isFalse
    · -- a value found there can only come from an entry
      suffices present : ((mergeAll normalise false before entries).find
          (normalise entry.1)).isSome = true by
        obtain ⟨value, found⟩ := Option.isSome_iff_exists.mp present
        rcases mergeAll_find found with old | ⟨other, otherIn, placed, rfl⟩
        · rw [absent] at old
          cases old
        · exact ⟨other, otherIn, placed, found⟩
      rcases mergeAll_merges normalise false before isIn with placed | own
      · exact placed
      · by_cases normal : normalise entry.1 = entry.1
        · rw [normal]
          exact own
        · rw [mergeAll_other (normalises.notMem normal entries)] at own
          rcases well entry isIn normal with isFalse | ⟨comes, -⟩
          · cases isFalse
          · rcases comes own with old | isKey
            · simp [absent] at old
            · obtain ⟨other, otherIn, isOther⟩ := List.mem_map.mp isKey
              have normalOther : normalise other.1 = other.1 := by
                rw [isOther, normalises.idempotent]
              have merges := mergeAll_merges normalise false before otherIn
              rw [normalOther, or_self, isOther] at merges
              exact merges

theorem placedWell_of_law (normalises : Normalises normalise)
    (distinct : (entries.map Prod.fst).Nodup)
    (law : Law normalise false before entries (mergeAll normalise false before entries))
    {entry : K × V} (isIn : entry ∈ entries) (notNormal : normalise entry.1 ≠ entry.1) :
    PlacedWell normalise false before entries entry := by
  -- the entries for the same key are this one and one under the normalised key
  have same : ∀ other ∈ entries, normalise other.1 = normalise entry.1 →
      other = entry ∨ other.1 = normalise entry.1 := by
    intro other otherIn sameKey
    by_cases normal : normalise other.1 = other.1
    · exact Or.inr (normal.symm.trans sameKey)
    · refine Or.inl (List.inj_on_of_nodup_map distinct otherIn isIn ?_)
      exact normalises.separates _ _ normal notNormal sameKey
  refine Or.inr ⟨?_, ?_⟩
  · intro own
    by_contra neither
    simp only [not_or, Bool.not_eq_true, Option.isSome_eq_false_iff, Option.isNone_iff_eq_none]
      at neither
    obtain ⟨absent, notKey⟩ := neither
    obtain ⟨other, -, -, found⟩ := law.held entry isIn (Or.inr absent)
    rw [mergeAll_skips, absent] at found
    · cases found
    · intro other otherIn sameKey
      rcases same other otherIn sameKey with rfl | isKey
      · exact own
      · exact absurd (List.mem_map.mpr ⟨other, otherIn, isKey⟩) notKey
  · intro own value found
    obtain ⟨earlier, later, rfl⟩ := List.append_of_mem isIn
    have kept := law.kept rfl _ value found
    have unseen : (mergeAll normalise false before earlier).find entry.1 = none := by
      rw [mergeAll_other (normalises.notMem notNormal earlier)]
      exact own
    have replaced : (mergeAll normalise false before (earlier ++ entry :: later)).find
        (normalise entry.1) = some entry.2 := by
      rw [mergeAll, List.foldl_append, List.foldl_cons]
      apply mergeAll_keeps
      · rw [← mergeAll, mergeEntry, if_neg (by simp [unseen]), find_update_same]
      · intro other otherIn sameKey
        left
        rcases same other (by simp [otherIn]) sameKey with rfl | isKey
        · rw [List.map_append, List.map_cons] at distinct
          have notIn := (List.nodup_cons.mp distinct.of_append_right).1
          exact absurd (List.mem_map_of_mem otherIn) notIn
        · rw [← mergeAll, mergeEntry, if_neg (by simp [unseen]), isKey, find_update_same]
          rfl
    rw [kept] at replaced
    exact Option.some.inj replaced

/-- Whether entries that are placed follow the law. -/
theorem law_of_placed_iff (normalises : Normalises normalise)
    (distinct : (entries.map Prod.fst).Nodup) :
    Law normalise overwrite before entries (mergeAll normalise overwrite before entries) ↔
      ∀ entry ∈ entries, normalise entry.1 ≠ entry.1 →
        PlacedWell normalise overwrite before entries entry := by
  cases overwrite with
  | true =>
      apply iff_of_true (law_of_placed_overwrite normalise before entries)
      intro entry _ _
      exact Or.inl rfl
  | false =>
      constructor
      · intro law entry isIn notNormal
        exact placedWell_of_law normalises distinct law isIn notNormal
      · exact law_of_placedWell normalises

theorem copied_keeps {key : K} {value : V} (found : before.find key = some value) :
    (mergeAll id false before entries).find key = some value := by
  apply mergeAll_keeps found
  rintro entry - rfl
  exact Or.inl (by rw [show before.find entry.1 = some value from found]; rfl)

theorem copied_present (overwrite : Bool) (before : OrderedTable K V) {entry : K × V}
    (isIn : entry ∈ entries) :
    ((mergeAll id overwrite before entries).find entry.1).isSome = true := by
  have merges := mergeAll_merges id overwrite before isIn
  simpa using merges

theorem copied_overwrites (distinct : (entries.map Prod.fst).Nodup) {entry : K × V}
    (isIn : entry ∈ entries) : (mergeAll id true before entries).find entry.1 = some entry.2 := by
  obtain ⟨other, otherIn, sameKey, found⟩ := mergeAll_overwrites id before isIn
  rw [List.inj_on_of_nodup_map distinct otherIn isIn sameKey] at found
  exact found

theorem copied_other {key : K} (absent : key ∉ entries.map Prod.fst) :
    (mergeAll id overwrite before entries).find key = before.find key :=
  mergeAll_other absent

/-- A copied entry that the table did not have, under its normalised key. -/
theorem copied_holds {entry : K × V} (isKey : normalise entry.1 ∈ entries.map Prod.fst)
    (normalises : Normalises normalise) (distinct : (entries.map Prod.fst).Nodup)
    (absent : overwrite = true ∨ before.find (normalise entry.1) = none) :
    ∃ other ∈ entries, normalise other.1 = normalise entry.1 ∧
      (mergeAll id overwrite before entries).find (normalise entry.1) = some other.2 := by
  obtain ⟨other, otherIn, isOther⟩ := List.mem_map.mp isKey
  refine ⟨other, otherIn, by rw [isOther, normalises.idempotent], ?_⟩
  rw [← isOther]
  cases overwrite with
  | true => exact copied_overwrites distinct otherIn
  | false =>
      rcases absent with isFalse | isAbsent
      · cases isFalse
      · obtain ⟨value, found⟩ := Option.isSome_iff_exists.mp
          (copied_present false before otherIn)
        rcases mergeAll_find found with old | ⟨same, sameIn, sameKey, rfl⟩
        · rw [isOther, isAbsent] at old
          cases old
        · rw [found, List.inj_on_of_nodup_map distinct sameIn otherIn sameKey]

/-- When the keys that are not normalised are there already, the new keys are
normalised. -/
theorem copied_order (distinctKeys : ∀ entry ∈ entries, normalise entry.1 ≠ entry.1 →
      (before.find entry.1).isSome = true) :
    ∃ added, (mergeAll id overwrite before entries).keys = before.keys ++ added ∧
      added.Sublist (entries.map fun entry => normalise entry.1) := by
  obtain ⟨added, keys, sublist⟩ := mergeAll_order id overwrite before entries
  refine ⟨added, keys, ?_⟩
  have distinct := (mergeAll id overwrite before entries).distinct
  rw [show (mergeAll id overwrite before entries).entries.map Prod.fst = _ from keys] at distinct
  have normal : added.map normalise = added := by
    refine (List.map_congr_left fun key isIn => ?_).trans (List.map_id _)
    by_contra notNormal
    obtain ⟨entry, entryIn, rfl⟩ := List.mem_map.mp (sublist.subset isIn)
    have present := distinctKeys entry entryIn notNormal
    obtain ⟨value, found⟩ := Option.isSome_iff_exists.mp present
    have isOld : entry.1 ∈ before.keys :=
      List.mem_map.mpr ⟨(entry.1, value), find_eq_some_iff.mp found, rfl⟩
    exact List.disjoint_of_nodup_append distinct isOld isIn
  rw [← normal]
  simpa [Function.comp_def] using sublist.map normalise

theorem law_of_copiedWell (normalises : Normalises normalise)
    (distinct : (entries.map Prod.fst).Nodup)
    (well : ∀ entry ∈ entries, normalise entry.1 ≠ entry.1 →
      CopiedWell normalise overwrite before entries entry) :
    Law normalise overwrite before entries (mergeAll id overwrite before entries) := by
  refine ⟨?_, ?_, ?_, copied_order ?_⟩
  · rintro rfl key value found
    exact copied_keeps found
  · intro key absent
    by_cases isKey : key ∈ entries.map Prod.fst
    · obtain ⟨entry, isIn, rfl⟩ := List.mem_map.mp isKey
      have notNormal : normalise entry.1 ≠ entry.1 :=
        fun normal => absent (List.mem_map.mpr ⟨entry, isIn, normal⟩)
      have isWell := well entry isIn notNormal
      cases overwrite with
      | true => exact (copied_overwrites distinct isIn).trans isWell.1.symm
      | false =>
          obtain ⟨value, found⟩ := Option.isSome_iff_exists.mp isWell.1
          rw [found]
          exact copied_keeps found
    · exact copied_other isKey
  · intro entry isIn absent
    by_cases isKey : normalise entry.1 ∈ entries.map Prod.fst
    · exact copied_holds isKey normalises distinct absent
    · have notNormal : normalise entry.1 ≠ entry.1 :=
        fun normal => isKey (List.mem_map.mpr ⟨entry, isIn, normal.symm⟩)
      refine ⟨entry, isIn, rfl, (copied_other isKey).trans ?_⟩
      have isWell := well entry isIn notNormal
      cases overwrite with
      | true => exact isWell.2.resolve_left isKey
      | false =>
          have present := isWell.2.resolve_left isKey
          rcases absent with isFalse | isAbsent
          · cases isFalse
          · simp [isAbsent] at present
  · intro entry isIn notNormal
    have isWell := well entry isIn notNormal
    cases overwrite with
    | true =>
        have found : before.find entry.1 = some entry.2 := isWell.1
        rw [found]
        rfl
    | false => exact isWell.1

theorem copiedWell_of_law (normalises : Normalises normalise)
    (distinct : (entries.map Prod.fst).Nodup)
    (law : Law normalise overwrite before entries (mergeAll id overwrite before entries))
    {entry : K × V} (isIn : entry ∈ entries) (notNormal : normalise entry.1 ≠ entry.1) :
    CopiedWell normalise overwrite before entries entry := by
  have unchanged := law.others entry.1 (normalises.notMem notNormal entries)
  by_cases isKey : normalise entry.1 ∈ entries.map Prod.fst
  · cases overwrite with
    | true => exact ⟨unchanged ▸ copied_overwrites distinct isIn, Or.inl isKey⟩
    | false => exact ⟨unchanged ▸ copied_present false before isIn, Or.inl isKey⟩
  · cases overwrite with
    | true =>
        refine ⟨unchanged ▸ copied_overwrites distinct isIn, Or.inr ?_⟩
        obtain ⟨other, otherIn, sameKey, found⟩ := law.held entry isIn (Or.inl rfl)
        rw [copied_other isKey] at found
        have otherNotNormal : normalise other.1 ≠ other.1 :=
          fun normal => isKey (List.mem_map.mpr ⟨other, otherIn, normal.symm.trans sameKey⟩)
        have isEntry := normalises.separates _ _ otherNotNormal notNormal sameKey
        rw [found, List.inj_on_of_nodup_map distinct otherIn isIn isEntry]
    | false =>
        refine ⟨unchanged ▸ copied_present false before isIn, Or.inr ?_⟩
        by_contra absent
        simp only [Bool.not_eq_true, Option.isSome_eq_false_iff, Option.isNone_iff_eq_none]
          at absent
        obtain ⟨other, -, -, found⟩ := law.held entry isIn (Or.inr absent)
        rw [copied_other isKey, absent] at found
        cases found

/-- Whether entries that are copied follow the law. -/
theorem law_of_copied_iff (normalises : Normalises normalise)
    (distinct : (entries.map Prod.fst).Nodup) :
    Law normalise overwrite before entries (mergeAll id overwrite before entries) ↔
      ∀ entry ∈ entries, normalise entry.1 ≠ entry.1 →
        CopiedWell normalise overwrite before entries entry := by
  constructor
  · intro law entry isIn notNormal
    exact copiedWell_of_law normalises distinct law isIn notNormal
  · exact law_of_copiedWell normalises distinct

end Laws

end Pthreads.TableMerges
