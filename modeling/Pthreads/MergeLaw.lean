import Pthreads.StoreKeys
import Pthreads.TableMerges

/-!
# The law of `pthreads_store_merge`

A merge copies the storages of a ThreadedArray under the keys they have, and
writes the elements of an array or a plain object under their coerced keys, while
it looks for the keys that are present before they are coerced.  Both ways are
instances of merging entries into a table.
-/

namespace Pthreads.Store

open ObjectRegistry TableMerges

/-- The key that stands for an element in user code. -/
def normaliseKey (key : Key) : Key := coerce key.toZval

/-- What a merge takes its elements from. -/
inductive MergeSource where
  /-- The shared table of a ThreadedArray. -/
  | threaded (table : OrderedTable Key Storage)
  /-- An array, or the property table of a plain object. -/
  | elements (table : OrderedTable Key Zval)

/-- `pthreads_store_merge`, with the shared properties of the destination after
it. -/
def storeMerge (declared : List Key) (registry : Registry) (props : Props)
    (connection : Connection) (overwrite coerceArrays : Bool) (fresh : Key → Fresh)
    (pointers : Key → Nat) : MergeSource → Option Props
  | .threaded table =>
      some (storeMergeThreaded props connection table.entries overwrite pointers).props
  | .elements table =>
      (storeMergeArray declared overwrite coerceArrays fresh table.entries
        ⟨registry, props, connection, []⟩).map WrittenAll.props

/-- The storage that a write makes of a value. -/
def storedAs (registry : Registry) (owner : Nat) (coerceArrays : Bool) (fresh : Fresh)
    (value : Zval) : Option Storage :=
  match value, coerceArrays with
  | .array _, true => some (.pthreads fresh.newAddress)
  | _, _ => saveZval registry owner value

/-- The elements of the source as they are stored, if all of them can be. -/
def MergeSource.stored (registry : Registry) (owner : Nat) (coerceArrays : Bool)
    (fresh : Key → Fresh) (pointers : Key → Nat) : MergeSource → Option (List (Key × Storage))
  | .threaded table =>
      some (table.entries.map fun entry => (entry.1, hardCopyStorage (pointers entry.1) entry.2))
  | .elements table => table.entries.mapM fun entry =>
      (storedAs registry owner coerceArrays (fresh entry.1) entry.2).map fun storage =>
        (entry.1, storage)

/-- An element of the source under a string that stands for an integer does no
harm. -/
def MergeSource.Harmless (overwrite : Bool) (before : OrderedTable Key Storage)
    (entries : List (Key × Storage)) (entry : Key × Storage) : MergeSource → Prop
  | .threaded _ => CopiedWell normaliseKey overwrite before entries entry
  | .elements _ => PlacedWell normaliseKey overwrite before entries entry

theorem normalises_normaliseKey : Normalises normaliseKey := by
  refine ⟨coerce_coerce, ?_⟩
  intro first second firstNot secondNot same
  have numeric : ∀ key : Key, normaliseKey key ≠ key → ∃ value,
      key = .string (decimalForm value) ∧ normaliseKey key = .long value := by
    intro key notNormal
    cases key with
    | long value => exact absurd rfl notNormal
    | string bytes =>
        cases isNumeric : handleNumeric bytes with
        | none => exact absurd ((canonical_string_iff bytes).mpr isNumeric) notNormal
        | some value =>
            rw [(handleNumeric_eq_some_iff.mp isNumeric).1]
            refine ⟨value, rfl, ?_⟩
            rw [← (handleNumeric_eq_some_iff.mp isNumeric).1]
            simp [normaliseKey, Key.toZval, coerce, isNumeric]
  obtain ⟨firstValue, rfl, firstLong⟩ := numeric first firstNot
  obtain ⟨secondValue, rfl, secondLong⟩ := numeric second secondNot
  rw [firstLong, secondLong, Key.long.injEq] at same
  rw [same]

section Copies

theorem foldl_mergeStorage_table (overwrite : Bool) (pointers : Key → Nat)
    (source : List (Key × Storage)) (merged : Merged) :
    (source.foldl (mergeStorage overwrite pointers) merged).props.hash.table =
      mergeAll id overwrite merged.props.hash.table
        (source.map fun entry => (entry.1, hardCopyStorage (pointers entry.1) entry.2)) := by
  induction source generalizing merged with
  | nil => rfl
  | cons entry source ih =>
      rw [List.foldl_cons, ih, List.map_cons, mergeAll_cons]
      congr 1
      unfold mergeStorage mergeEntry
      split
      · next skipped => exact (if_pos skipped).symm
      · next placed => exact (if_neg placed).symm

theorem storeMergeThreaded_table (props : Props) (connection : Connection)
    (source : List (Key × Storage)) (overwrite : Bool) (pointers : Key → Nat) :
    (storeMergeThreaded props connection source overwrite pointers).props.hash.table =
      mergeAll id overwrite props.hash.table
        (source.map fun entry => (entry.1, hardCopyStorage (pointers entry.1) entry.2)) := by
  simp only [storeMergeThreaded, bumpModcount_hash]
  exact foldl_mergeStorage_table overwrite pointers source _

end Copies

section Writes

/-- The objects that were there are still there, as they were. -/
def Grows (registry after : Registry) : Prop :=
  ∀ address zobj, registry.zobjs address = some zobj → after.zobjs address = some zobj

theorem Grows.storeCreate {registry after : Registry} (grows : Grows registry after) (owner : Nat)
    {value : Zval} {storage : Storage}
    (created : storeCreate registry owner value = some storage) :
    storeCreate after owner value = some storage := by
  induction value using storeCreate.induct with
  | case1 slot ih => exact ih created
  | case2 target ih => exact ih created
  | case7 address =>
      obtain ⟨zobj, found, rfl⟩ := Option.map_eq_some_iff.mp created
      simp [Store.storeCreate, grows address zobj found]
  | _ => simpa only [Store.storeCreate] using created

theorem Grows.saveZval {registry after : Registry} (grows : Grows registry after) (owner : Nat)
    {value : Zval} {storage : Storage} (saved : saveZval registry owner value = some storage) :
    saveZval after owner value = some storage := by
  cases value with
  | string string =>
      simp only [Store.saveZval] at saved ⊢
      split at saved
      · next permanent => rw [if_pos permanent, saved]
      · next notPermanent =>
        rw [if_neg notPermanent]
        exact grows.storeCreate owner saved
  | null | bool | long | double => exact saved
  | _ => exact grows.storeCreate owner saved

theorem coerceArray_grows {registry after : Registry} {thread : Nat} {fresh : Fresh} {value : Zval}
    (coerced : coerceArray registry thread fresh = some (after, value)) :
    Grows registry after ∧
      ∀ owner, saveZval after owner value = some (.pthreads fresh.newAddress) := by
  obtain ⟨unused, rfl, zobjs⟩ := coerceArray_eq coerced
  refine ⟨?_, fun owner => by simp [Store.saveZval, Store.storeCreate, savedAddress, zobjs]⟩
  intro address zobj found
  have different : address ≠ fresh.newAddress := by
    rintro rfl
    rw [unused] at found
    cases found
  simp [zobjs, different, found]

theorem bumpModcount_owner (bump : Bool) (props : Props) (connection : Connection) :
    (bumpModcount bump props connection).2.owner = connection.owner := by
  unfold bumpModcount
  split
  · dsimp only
    split <;> rfl
  · rfl

variable {origin : Registry} {coerceArrays : Bool} {storage : Storage}

/-- A value that could be stored at the start of a merge is stored in the same way
later. -/
theorem storeWrite_stored {registry : Registry} {props : Props} {connection : Connection}
    {key : Option KeyZval} {value : Zval} {fresh : Fresh} {result : Option Written}
    (grows : Grows origin registry)
    (stored : storedAs origin connection.owner coerceArrays fresh value = some storage)
    (wrote : storeWrite registry props connection key value coerceArrays fresh = some result) :
    ∃ written, result = some written ∧
      written.props.hash = props.hash.update ((key.map coerce).getD (appendKey props)) storage ∧
      Grows origin written.registry ∧ written.connection.owner = connection.owner := by
  have saves : ∀ later write, writtenValue registry connection.owner value coerceArrays fresh =
      some (later, write) → Grows origin later ∧
        saveZval later connection.owner write = some storage := by
    intro later write written
    unfold writtenValue at written
    unfold storedAs at stored
    split at written
    · cases stored
      obtain ⟨laterGrows, saved⟩ := coerceArray_grows written
      exact ⟨fun address zobj found => laterGrows address zobj (grows address zobj found),
        saved connection.owner⟩
    · next notCoerced =>
      cases written
      split at stored
      · next entries => exact absurd rfl (notCoerced entries rfl)
      · exact ⟨grows, grows.saveZval connection.owner stored⟩
  simp only [storeWrite, Option.bind_eq_bind, Option.bind_eq_some_iff] at wrote
  obtain ⟨⟨later, write⟩, written, wrote⟩ := wrote
  obtain ⟨laterGrows, saved⟩ := saves later write written
  rw [saved] at wrote
  cases wrote
  refine ⟨_, rfl, bumpModcount_hash _, laterGrows, ?_⟩
  apply (syncLocalProperties_synced _ _ _).owner.trans
  exact bumpModcount_owner _ _ _

theorem writeAndFinish_stored {declared : List Key} {state : WrittenAll} {key : KeyZval}
    {value : Zval} {fresh : Fresh} {result : Option WrittenAll}
    (grows : Grows origin state.registry)
    (stored : storedAs origin state.connection.owner coerceArrays fresh value = some storage)
    (wrote : writeAndFinish declared state key value coerceArrays fresh = some result) :
    ∃ next, result = some next ∧
      next.props.hash = state.props.hash.update (coerce key) storage ∧
      Grows origin next.registry ∧ next.connection.owner = state.connection.owner := by
  obtain ⟨outcome, written, rfl⟩ := Option.map_eq_some_iff.mp wrote
  obtain ⟨one, rfl, hash, laterGrows, owner⟩ := storeWrite_stored grows stored written
  exact ⟨_, rfl, hash, laterGrows, (finishPending_owner declared one.connection).trans owner⟩

/-- The elements of an array or an object are placed under their normalised keys. -/
theorem storeMergeArray_table {declared : List Key} {overwrite : Bool} {fresh : Key → Fresh}
    {source : List (Key × Zval)} {state result : WrittenAll} {entries : List (Key × Storage)}
    (merged : storeMergeArray declared overwrite coerceArrays fresh source state = some result)
    (grows : Grows origin state.registry)
    (stored : (source.mapM fun entry =>
      (storedAs origin state.connection.owner coerceArrays (fresh entry.1) entry.2).map
        fun storage => (entry.1, storage)) = some entries) :
    result.props.hash.table =
      mergeAll normaliseKey overwrite state.props.hash.table entries := by
  induction source generalizing state entries with
  | nil =>
      cases stored
      cases merged
      rfl
  | cons entry source ih =>
      obtain ⟨key, value⟩ := entry
      simp only [List.mapM_cons, Option.bind_eq_bind, Option.bind_eq_some_iff,
        Option.pure_def, Option.some.injEq] at stored
      obtain ⟨first, storedFirst, rest, storedRest, rfl⟩ := stored
      obtain ⟨storage, isStored, rfl⟩ := Option.map_eq_some_iff.mp storedFirst
      rw [mergeAll_cons]
      simp only [storeMergeArray] at merged
      split at merged
      · next skipped =>
        rw [ih merged grows storedRest]
        congr 1
        exact (if_pos skipped).symm
      · next placed =>
        simp only [Option.bind_eq_bind, Option.bind_eq_some_iff] at merged
        obtain ⟨outcome, wrote, merged⟩ := merged
        obtain ⟨next, rfl, hash, laterGrows, owner⟩ := writeAndFinish_stored grows isStored wrote
        rw [Option.getD_some] at merged
        rw [ih merged laterGrows (owner ▸ storedRest), hash]
        congr 1
        exact (if_neg placed).symm

end Writes

theorem mapM_keys {source : List (Key × Zval)} {entries : List (Key × Storage)}
    {make : Key × Zval → Option Storage}
    (made : (source.mapM fun entry => (make entry).map fun storage => (entry.1, storage)) =
      some entries) : entries.map Prod.fst = source.map Prod.fst := by
  induction source generalizing entries with
  | nil =>
      cases made
      rfl
  | cons entry source ih =>
      simp only [List.mapM_cons, Option.bind_eq_bind, Option.bind_eq_some_iff, Option.pure_def,
        Option.some.injEq] at made
      obtain ⟨first, madeFirst, rest, madeRest, rfl⟩ := made
      obtain ⟨storage, -, rfl⟩ := Option.map_eq_some_iff.mp madeFirst
      rw [List.map_cons, List.map_cons, ih madeRest]

/-- The law holds for a merge exactly when the elements of the source under strings
that stand for integers do no harm. -/
theorem store_merge_law_iff {declared : List Key} {registry : Registry} {props after : Props}
    {connection : Connection} {overwrite coerceArrays : Bool} {fresh : Key → Fresh}
    {pointers : Key → Nat} {source : MergeSource} {entries : List (Key × Storage)}
    (storable : source.stored registry connection.owner coerceArrays fresh pointers = some entries)
    (merged : storeMerge declared registry props connection overwrite coerceArrays fresh pointers
      source = some after) :
    Law normaliseKey overwrite props.hash.table entries after.hash.table ↔
      ∀ entry ∈ entries, normaliseKey entry.1 ≠ entry.1 →
        source.Harmless overwrite props.hash.table entries entry := by
  cases source with
  | threaded table =>
      cases storable
      cases merged
      rw [storeMergeThreaded_table]
      apply law_of_copied_iff normalises_normaliseKey
      simpa [Function.comp_def] using table.distinct
  | elements table =>
      obtain ⟨result, merging, rfl⟩ := Option.map_eq_some_iff.mp merged
      rw [storeMergeArray_table merging (fun _ _ found => found) storable]
      apply law_of_placed_iff normalises_normaliseKey
      rw [mapM_keys storable]
      exact table.distinct

/-- A ThreadedArray with the element 5 under the key 0. -/
def fiveUnderZero : Props := { storeInit with hash := HashTable.empty.update (.long 0) (.long 5) }

/-- A plain object with one property, which is 7. -/
def objectWith (name : Bytes) : MergeSource :=
  .elements ⟨[(.string name, .long 7)], List.nodup_singleton _⟩

/-- The merge of the object without overwriting. -/
def mergeObject (name : Bytes) : Option Props :=
  storeMerge [] ObjectRegistry.initial fiveUnderZero ⟨0, none, 0, none⟩ false false
    (fun _ => ⟨0, 0, 0⟩) (fun _ => 0) (objectWith name)

/-- The property `a` is added. -/
theorem store_merge_law_newName :
    ∃ after, mergeObject [97] = some after ∧
      after.hash.table.entries = [(.long 0, .long 5), (.string [97], .long 7)] ∧
      Law normaliseKey false fiveUnderZero.hash.table [(.string [97], .long 7)]
        after.hash.table := by
  refine ⟨_, rfl, rfl, ?_⟩
  have storable : (objectWith [97]).stored ObjectRegistry.initial 0 false (fun _ => ⟨0, 0, 0⟩)
      (fun _ => 0) = some [(.string [97], .long 7)] := rfl
  have merged : mergeObject [97] = some _ := rfl
  apply (store_merge_law_iff storable merged).mpr
  intro entry isIn notNormal
  rw [List.mem_singleton] at isIn
  subst isIn
  exact absurd rfl notNormal

/-- The property `0` replaces the element under the integer. -/
theorem store_merge_breaks_law_zero :
    ∃ after, (objectWith [48]).stored ObjectRegistry.initial 0 false (fun _ => ⟨0, 0, 0⟩)
        (fun _ => 0) = some [(.string [48], .long 7)] ∧
      mergeObject [48] = some after ∧
      fiveUnderZero.hash.table.entries = [(.long 0, .long 5)] ∧
      after.hash.table.entries = [(.long 0, .long 7)] ∧
      ¬ Law normaliseKey false fiveUnderZero.hash.table [(.string [48], .long 7)]
        after.hash.table := by
  refine ⟨_, rfl, rfl, rfl, rfl, ?_⟩
  intro law
  cases law.kept rfl (.long 0) (.long 5) rfl

end Pthreads.Store
