import Pthreads.MergeElements

/-!
# The two merges, element by element

Both ways go through the same keys in the same order and write the same ones.
The invariant that relates the two states says of each key whether it has been
written, what the two tables hold under it, and what the local tables have.  Where
a write enters nothing, what the sync of the first write left stays there.
-/

namespace Pthreads.Store

open ObjectRegistry GuardedRuns

theorem bumpModcount_modcount (bump : Bool) (props : Props) (connection : Connection) :
    (bumpModcount bump props connection).1.modcount =
      props.modcount + if bump then 1 else 0 := by
  cases bump <;> simp [bumpModcount]

/-- The state after one element of the array was written. -/
structure Wrote (state after : WrittenAll) (key : Key) (value : Zval) (saved : Storage) : Prop where
  registry : after.registry = state.registry
  owner : after.connection.owner = state.connection.owner
  hash : after.props.hash = state.props.hash.update key saved
  modcount : after.props.modcount =
    state.props.modcount + if memberIsCacheable state.props key then 1 else 0
  synced : after.connection.localPropsModcount = after.props.modcount
  cached : ∀ other, after.connection.cached other =
    if retainInLocalCache value = true ∧ other = key then some value
    else if state.connection.localPropsModcount = state.props.modcount then
      state.connection.cached other
    else (state.connection.cached other).filter
      (staysCached state.registry state.connection.owner (after.props.hash.find other))
  keeps : ∀ found, after.connection.Keeps found → found = .indirect .undef ∨
    state.connection.Keeps found ∨ (found = value ∧ retainInLocalCache value = true)

theorem writeAndFinish_wrote {state : WrittenAll} {key : Key} {value : Zval} {saved : Storage}
    (fresh : Fresh) (below : state.connection.localPropsModcount ≤ state.props.modcount)
    (canonical : coerce key.toZval = key) (notArray : ∀ entries, value ≠ .array entries)
    (isSaved : saveZval state.registry state.connection.owner value = some saved) :
    ∃ after, writeAndFinish [] state key.toZval value true fresh = some (some after) ∧
      Wrote state after key value saved := by
  have isWritten : writtenValue state.registry state.connection.owner value true fresh =
      some (state.registry, value) := by
    cases value with
    | array entries => exact absurd rfl (notArray entries)
    | _ => rfl
  have bumped := bumpModcount_bumped (memberIsCacheable state.props key)
    { state.props with hash := state.props.hash.update key saved } state.connection below
  have moved := bumpModcount_modcount (memberIsCacheable state.props key)
    { state.props with hash := state.props.hash.update key saved } state.connection
  generalize isBumped : bumpModcount (memberIsCacheable state.props key)
    { state.props with hash := state.props.hash.update key saved } state.connection = result
    at bumped moved
  have synced := syncLocalProperties_synced state.registry result.1 result.2
  refine ⟨⟨state.registry, result.1, finishPending []
    { syncLocalProperties state.registry result.1 result.2 with
      pending := some (.update key value) }, state.written ++ [(key, value)]⟩, ?_, ?_⟩
  · simp only [writeAndFinish, storeWrite, isWritten, Option.bind_eq_bind, Option.bind_some,
      isSaved, Option.map_some, Option.getD_some, canonical, isBumped]
  · refine ⟨rfl, ?_, bumped.hash, moved, ?_, ?_, ?_⟩
    · rw [finishPending_owner]
      exact synced.owner.trans bumped.owner
    · rw [finishPending_modcount]
      exact synced.modcount
    · intro other
      rw [finishPending_update_cached, syncLocalProperties_cached, bumped.cached, bumped.owner]
      simp only [bumped.inSync]
    · intro found keeps
      rcases finishPending_update_keeps keeps with isSlot | before | entered
      · exact Or.inl isSlot
      · exact Or.inr (Or.inl ((bumped.keeps found).mp (synced.keeps found before)))
      · exact Or.inr (Or.inr entered)

/-- A key that both ways have written: the storages stand for the same value, and
of the local tables only the one of the array path has it. -/
structure WrittenKey (setting : Setting) (registry : Registry) (table : OrderedTable Key Zval)
    (pointers : Key → Nat) (merged : Merged) (state : WrittenAll) (key : Key) (storage : Storage)
    (value : Zval) (saved : Storage) : Prop where
  source : setting.source.hash.find key = some storage
  element : table.find key = some value
  writes : setting.Writes key
  savedAs : SavedAs registry setting.connection.owner storage value saved
  stands : Stands registry storage value
  direct : merged.props.hash.find key = some (hardCopyStorage (pointers key) storage)
  array : state.props.hash.find key = some saved
  evicted : merged.connection.cached key = none
  entered : state.connection.cached key =
    if retainInLocalCache value then some value else setting.syncedTable.cached key

/-- A key that neither way has written.  The array path may have synced the local
table. -/
structure UnwrittenKey (setting : Setting) (registry : Registry) (merged : Merged)
    (state : WrittenAll) (key : Key) : Prop where
  direct : merged.props.hash.find key = setting.destination.hash.find key
  array : state.props.hash.find key = setting.destination.hash.find key
  kept : merged.connection.cached key = setting.connection.cached key
  synced : ((setting.connection.localPropsModcount = setting.destination.modcount ∨
      merged.written = []) ∧ state.connection.cached key = setting.connection.cached key) ∨
    (setting.connection.localPropsModcount ≠ setting.destination.modcount ∧
      state.connection.cached key = (setting.connection.cached key).filter
        (staysCached registry setting.connection.owner (setting.destination.hash.find key)))

structure Twin (setting : Setting) (registry : Registry) (table : OrderedTable Key Zval)
    (pointers : Key → Nat) (merged : Merged) (state : WrittenAll) : Prop where
  sameRegistry : state.registry = registry
  owner : state.connection.owner = setting.connection.owner
  mergedOwner : merged.connection.owner = setting.connection.owner
  keys : merged.props.hash.table.keys = state.props.hash.table.keys
  modcount : merged.props.modcount = setting.destination.modcount
  count : merged.connection.localPropsModcount = setting.connection.localPropsModcount
  grows : setting.destination.modcount ≤ state.props.modcount
  overwrote : merged.overwrote = true ↔ state.props.modcount ≠ setting.destination.modcount
  untouched : merged.written = [] →
    state.connection = setting.connection ∧ state.props.modcount = setting.destination.modcount
  first : merged.written ≠ [] →
    ∃ entry, setting.firstWritten = some entry ∧ entry.1 ∈ merged.written
  synced : merged.written ≠ [] → state.connection.localPropsModcount = state.props.modcount
  keeps : ∀ found, state.connection.Keeps found → found = .indirect .undef ∨
    setting.connection.Keeps found ∨ (setting.entering table).Keeps found
  mergedKeeps : ∀ found, merged.connection.Keeps found → setting.connection.Keeps found
  written : ∀ key ∈ merged.written, ∃ storage value saved,
    WrittenKey setting registry table pointers merged state key storage value saved
  unwritten : ∀ key, key ∉ merged.written → UnwrittenKey setting registry merged state key

theorem twin_initial (setting : Setting) (registry : Registry) (table : OrderedTable Key Zval)
    (pointers : Key → Nat) :
    Twin setting registry table pointers ⟨setting.destination, setting.connection, false, []⟩
      ⟨registry, setting.destination, setting.connection, []⟩ := by
  refine ⟨rfl, rfl, rfl, rfl, rfl, rfl, le_rfl, by simp, fun _ => ⟨rfl, rfl⟩, by simp, by simp,
    fun _ keeps => Or.inr (Or.inl keeps), fun _ keeps => keeps, by simp, ?_⟩
  exact fun key _ => ⟨rfl, rfl, rfl, Or.inl ⟨Or.inr rfl, rfl⟩⟩

/-- A local table in sync is not touched by the sync. -/
theorem Setting.syncedTable_inSync (setting : Setting)
    (inSync : setting.connection.localPropsModcount = setting.destination.modcount) :
    setting.syncedTable = setting.connection := by
  unfold Setting.syncedTable
  split
  · rfl
  · exact if_pos inSync

/-- Of the first key that is written the sync leaves nothing that its storage does not
stand for. -/
theorem Setting.syncedTable_first {setting : Setting} {key : Key} {storage : Storage}
    (isFirst : setting.firstWritten = some (key, storage))
    (outdated : setting.connection.localPropsModcount ≠ setting.destination.modcount) :
    setting.syncedTable.cached key = (setting.connection.cached key).filter
      (staysCached setting.registry setting.connection.owner (some storage)) := by
  rw [Setting.syncedTable, isFirst]
  simp only [syncLocalProperties_cached, if_neg outdated, find_hash_update, if_true]

theorem Setting.syncedTable_other {setting : Setting} {first : Key × Storage} {key : Key}
    (isFirst : setting.firstWritten = some first) (different : key ≠ first.1)
    (outdated : setting.connection.localPropsModcount ≠ setting.destination.modcount) :
    setting.syncedTable.cached key = (setting.connection.cached key).filter
      (staysCached setting.registry setting.connection.owner
        (setting.destination.hash.find key)) := by
  rw [Setting.syncedTable, isFirst]
  simp only [syncLocalProperties_cached, if_neg outdated, find_hash_update, if_neg different]

theorem staysCached_inert {registry : Registry} {thread : Nat} {storage : Storage}
    (inert : storageIsCacheable storage = false) (value : Zval) :
    staysCached registry thread (some storage) value = false := by
  cases storage with
  | pthreads | closure | socket | stringPtr => cases inert
  | _ => rfl

section Twin

variable {setting : Setting} {registry : Registry} {table : OrderedTable Key Zval}
  {pointers : Key → Nat} {merged : Merged} {state after : WrittenAll} {key : Key}
  {storage saved : Storage} {value : Zval}

/-- The local table of the array path is never ahead. -/
theorem Twin.below (twin : Twin setting registry table pointers merged state)
    (counts : setting.connection.localPropsModcount ≤ setting.destination.modcount) :
    state.connection.localPropsModcount ≤ state.props.modcount := by
  by_cases none : merged.written = []
  · obtain ⟨same, count⟩ := twin.untouched none
    rw [same, count]
    exact counts
  · exact le_of_eq (twin.synced none)

theorem Twin.memberIsCacheable (twin : Twin setting registry table pointers merged state)
    (isNew : key ∉ merged.written) :
    Store.memberIsCacheable merged.props key = Store.memberIsCacheable state.props key := by
  have unwritten := twin.unwritten key isNew
  rw [Store.memberIsCacheable, Store.memberIsCacheable, unwritten.direct, unwritten.array]

/-- The local table of the array path under another key after a write. -/
theorem Twin.cached_other (twin : Twin setting registry table pointers merged state)
    (wrote : Wrote state after key value saved) {other : Key} (different : other ≠ key) :
    (merged.written ≠ [] ∧ after.connection.cached other = state.connection.cached other) ∨
      (merged.written = [] ∧
        ((setting.connection.localPropsModcount = setting.destination.modcount ∧
          after.connection.cached other = setting.connection.cached other) ∨
        (setting.connection.localPropsModcount ≠ setting.destination.modcount ∧
          after.connection.cached other = (setting.connection.cached other).filter
            (staysCached registry setting.connection.owner
              (state.props.hash.find other))))) := by
  have cached := wrote.cached other
  rw [if_neg (fun both => different both.2)] at cached
  by_cases none : merged.written = []
  · obtain ⟨same, count⟩ := twin.untouched none
    refine Or.inr ⟨none, ?_⟩
    rw [same, count] at cached
    split at cached
    · next current => exact Or.inl ⟨current, cached⟩
    · next outdated =>
      rw [wrote.hash, find_hash_update, if_neg different, twin.sameRegistry] at cached
      exact Or.inr ⟨outdated, cached⟩
  · rw [if_pos (twin.synced none)] at cached
    exact Or.inl ⟨none, cached⟩

/-- The direct merge after one more element. -/
def Merged.write (merged : Merged) (pointer : Nat) (key : Key) (storage : Storage) : Merged where
  props := { merged.props with
    hash := merged.props.hash.update key (hardCopyStorage pointer storage) }
  connection := evictLocalProperty merged.connection key
  overwrote := merged.overwrote || Store.memberIsCacheable merged.props key
  written := merged.written ++ [key]

theorem Twin.writtenKey_other (twin : Twin setting registry table pointers merged state)
    (wrote : Wrote state after key value saved) {other : Key} (different : other ≠ key)
    (isWritten : other ∈ merged.written) :
    ∃ source found kept, WrittenKey setting registry table pointers
      (merged.write (pointers key) key storage) after other source found kept := by
  obtain ⟨source, found, kept, holds⟩ := twin.written other isWritten
  have notEmpty : merged.written ≠ [] := List.ne_nil_of_mem isWritten
  refine ⟨source, found, kept, holds.source, holds.element, holds.writes, holds.savedAs,
    holds.stands, ?_, ?_, ?_, ?_⟩
  · simp only [Merged.write, find_hash_update, different, if_false]
    exact holds.direct
  · rw [wrote.hash, find_hash_update, if_neg different]
    exact holds.array
  · simp only [Merged.write, evictLocalProperty_cached, different, if_false]
    exact holds.evicted
  · rcases twin.cached_other wrote different with ⟨-, same⟩ | ⟨isEmpty, -⟩
    · rw [same]
      exact holds.entered
    · exact absurd isEmpty notEmpty

theorem Twin.unwrittenKey_other (twin : Twin setting registry table pointers merged state)
    (wrote : Wrote state after key value saved) {other : Key} (different : other ≠ key)
    (isUnwritten : other ∉ merged.written) :
    UnwrittenKey setting registry (merged.write (pointers key) key storage) after other := by
  have holds := twin.unwritten other isUnwritten
  refine ⟨?_, ?_, ?_, ?_⟩
  · simp only [Merged.write, find_hash_update, different, if_false]
    exact holds.direct
  · rw [wrote.hash, find_hash_update, if_neg different]
    exact holds.array
  · simp only [Merged.write, evictLocalProperty_cached, different, if_false]
    exact holds.kept
  · rcases twin.cached_other wrote different with ⟨notEmpty, same⟩ | ⟨-, ⟨current, same⟩ | same⟩
    · rw [same]
      rcases holds.synced with ⟨current | isEmpty, before⟩ | outdated
      · exact Or.inl ⟨Or.inl current, before⟩
      · exact absurd isEmpty notEmpty
      · exact Or.inr outdated
    · exact Or.inl ⟨Or.inl current, same⟩
    · rw [holds.array] at same
      exact Or.inr same

/-- Writing the same new element on both ways. -/
theorem Twin.write (twin : Twin setting registry table pointers merged state)
    (isNew : key ∉ merged.written) (writes : setting.Writes key)
    (source : setting.source.hash.find key = some storage)
    (element : table.find key = some value)
    (isFirst : merged.written = [] → setting.firstWritten = some (key, storage))
    (savedAs : SavedAs registry setting.connection.owner storage value saved)
    (stands : Stands registry storage value)
    (left : retainInLocalCache value = false →
      after.connection.cached key = setting.syncedTable.cached key)
    (wrote : Wrote state after key value saved) :
    Twin setting registry table pointers (merged.write (pointers key) key storage) after := by
  refine ⟨wrote.registry.trans twin.sameRegistry, wrote.owner.trans twin.owner, twin.mergedOwner,
    ?_, twin.modcount, twin.count, ?_, ?_, ?_, ?_, fun _ => wrote.synced, ?_, ?_, ?_, ?_⟩
  · simp only [Merged.write, HashTable.update, wrote.hash, OrderedTable.keys_update, twin.keys]
  · have := twin.grows
    rw [wrote.modcount]
    split <;> omega
  · have := twin.grows
    have before := twin.overwrote
    rw [wrote.modcount, ← twin.memberIsCacheable isNew]
    simp only [Merged.write, Bool.or_eq_true, before]
    split
    · next isCacheable => simp only [isCacheable, or_true, true_iff]; omega
    · next notCacheable =>
      simp only [notCacheable, Int.add_zero]
      simp
  · simp [Merged.write]
  · intro _
    by_cases isEmpty : merged.written = []
    · exact ⟨(key, storage), isFirst isEmpty, by simp [Merged.write]⟩
    · obtain ⟨entry, first, isIn⟩ := twin.first isEmpty
      exact ⟨entry, first, List.mem_append_left _ isIn⟩
  · intro found keeps
    rcases wrote.keeps found keeps with isSlot | before | ⟨rfl, retained⟩
    · exact Or.inl isSlot
    · exact twin.keeps found before
    · refine Or.inr (Or.inr (Or.inl ⟨_, key, rfl, ?_⟩))
      rw [OrderedTable.find_filter, element]
      have isWritten : (setting.overwrite || (setting.destination.hash.find key).isNone) = true := by
        rcases writes.2 with overwrite | absent
        · simp [overwrite]
        · simp [absent]
      simp [retained, writes.1, isWritten]
  · intro found keeps
    exact twin.mergedKeeps found (evictLocalProperty_keeps keeps)
  · intro other isIn
    rcases List.mem_append.mp isIn with isWritten | isKey
    · have different : other ≠ key := by
        rintro rfl
        exact isNew isWritten
      exact twin.writtenKey_other wrote different isWritten
    · cases List.mem_singleton.mp isKey
      refine ⟨storage, value, saved, source, element, writes, savedAs, stands, ?_, ?_, ?_, ?_⟩
      · simp [Merged.write, find_hash_update]
      · rw [wrote.hash, find_hash_update, if_pos rfl]
      · simp [Merged.write, evictLocalProperty_cached]
      · by_cases retained : retainInLocalCache value = true
        · rw [wrote.cached, if_pos ⟨retained, rfl⟩, if_pos retained]
        · rw [if_neg retained]
          exact left (by simpa using retained)
  · intro other notIn
    simp only [Merged.write, List.mem_append, List.mem_singleton, not_or] at notIn
    exact twin.unwrittenKey_other wrote notIn.2 notIn.1

end Twin

section Merging

variable {setting : Setting} {fresh : Key → Fresh} {registry : Registry}
  {table : OrderedTable Key Zval} {pointers : Key → Nat} {merged : Merged}
  {state after : WrittenAll} {key : Key} {storage saved : Storage} {value : Zval}
  {original : Nat → Nat}

/-- Restoring the array leaves the objects that storages name as they were. -/
theorem Setting.Consistent.zobjs_eq (consistent : setting.Consistent)
    (regular : setting.Regular fresh)
    (extended : Extends (setting.Places fresh) setting.registry registry) {address : Nat}
    (stores : setting.Stores (.pthreads address)) :
    registry.zobjs address = setting.registry.zobjs address :=
  extended.zobjs_eq (consistent.sturdy regular stores address rfl)

/-- The new connections do not change what the sync keeps. -/
theorem Setting.Consistent.staysCached_eq (consistent : setting.Consistent)
    (regular : setting.Regular fresh)
    (extended : Extends (setting.Places fresh) setting.registry registry)
    (cached : setting.connection.cached key = some value) (thread : Nat) :
    staysCached registry thread (setting.destination.hash.find key) value =
      staysCached setting.registry thread (setting.destination.hash.find key) value := by
  have soundBefore := sound_of_reaches consistent.reached
  apply staysCached_congr soundBefore (extended.sound soundBefore)
  · intro handle stored
    exact consistent.zobjs_eq regular extended (Or.inl ⟨key, stored⟩)
  · rintro object rfl
    obtain ⟨zobj, found, visible, constructed⟩ :=
      consistent.held _ (Connection.keeps_of_cached cached) object (by simp [refersTo])
    rw [found]
    exact extended.kept object zobj found visible constructed
  · exact (Option.filter_eq_some_iff.mp cached).2

/-- Once something was written, the local table of the array path is that which the sync
left, but for what was entered. -/
theorem Twin.left_cached (twin : Twin setting registry table pointers merged state)
    (consistent : setting.Consistent) (regular : setting.Regular fresh)
    (extended : Extends (setting.Places fresh) setting.registry registry)
    (notEmpty : merged.written ≠ []) (isNew : key ∉ merged.written) :
    state.connection.cached key = setting.syncedTable.cached key := by
  rcases (twin.unwritten key isNew).synced with ⟨inSync | isEmpty, same⟩ | ⟨outdated, same⟩
  · rw [same, setting.syncedTable_inSync inSync]
  · exact absurd isEmpty notEmpty
  · obtain ⟨first, isFirst, isIn⟩ := twin.first notEmpty
    have different : key ≠ first.1 := by
      rintro rfl
      exact isNew isIn
    rw [same, Setting.syncedTable_other isFirst different outdated]
    cases cached : setting.connection.cached key with
    | none => rfl
    | some value =>
        simp only [Option.filter_some, consistent.staysCached_eq regular extended cached]

/-- The sync drops the entries of keys whose storages are not kept. -/
theorem Setting.Consistent.dropped (consistent : setting.Consistent)
    (notRetained : storageRetained setting.registry storage = false) {found : Zval}
    (cached : setting.connection.cached key = some found) (thread : Nat) :
    staysCached setting.registry thread (some storage) found = false := by
  cases storage with
  | string | stringPtr | closure | socket => cases notRetained
  | pthreads address =>
      have absent : tsObjAt setting.registry address = none := by
        simpa [storageRetained] using notRetained
      cases found with
      | threaded own =>
          obtain ⟨zobj, isThere, -, constructed⟩ :=
            consistent.held _ (Connection.keeps_of_cached cached) own (by simp [refersTo])
          obtain ⟨tsObj, points⟩ := Option.isSome_iff_exists.mp constructed
          have atOwn : tsObjAt setting.registry own = some tsObj := by
            simp [tsObjAt, isThere, points]
          have different : address ≠ own := by
            rintro rfl
            rw [absent] at atOwn
            cases atOwn
          simp [staysCached, deindirect, absent, atOwn, different]
      | indirect slot => cases (Option.filter_eq_some_iff.mp cached).2
      | _ => rfl
  | _ => rfl

/-- Whether a written storage is kept, the new connections do not change. -/
theorem Setting.Consistent.storageRetained_eq (consistent : setting.Consistent)
    (regular : setting.Regular fresh)
    (extended : Extends (setting.Places fresh) setting.registry registry)
    (source : setting.source.hash.find key = some storage) :
    storageRetained registry storage = storageRetained setting.registry storage := by
  cases storage with
  | pthreads address =>
      simp only [storageRetained, tsObjAt,
        consistent.zobjs_eq regular extended (Or.inr ⟨key, source⟩)]
  | _ => rfl

/-- What a write that enters nothing leaves under its key. -/
theorem Twin.left_written (twin : Twin setting registry table pointers merged state)
    (consistent : setting.Consistent) (regular : setting.Regular fresh)
    (extended : Extends (setting.Places fresh) setting.registry registry)
    (isNew : key ∉ merged.written) (source : setting.source.hash.find key = some storage)
    (isFirst : merged.written = [] → setting.firstWritten = some (key, storage))
    (savedAs : SavedAs registry setting.connection.owner storage value saved)
    (wrote : Wrote state after key value saved) (notRetained : retainInLocalCache value = false) :
    after.connection.cached key = setting.syncedTable.cached key := by
  rw [wrote.cached, if_neg (fun both => by simp [notRetained] at both)]
  by_cases isEmpty : merged.written = []
  · obtain ⟨same, count⟩ := twin.untouched isEmpty
    rw [same, count]
    split
    · next inSync => rw [setting.syncedTable_inSync inSync]
    · next outdated =>
      -- the first write has replaced the storage, and the sync drops the entry
      rw [Setting.syncedTable_first (isFirst isEmpty) outdated, wrote.hash, find_hash_update,
        if_pos rfl]
      have inert : storageIsCacheable saved = false := savedAs.inert notRetained
      have notKept : storageRetained setting.registry storage = false := by
        rw [← consistent.storageRetained_eq regular extended source, ← savedAs.retained]
        exact notRetained
      cases cached : setting.connection.cached key with
      | none => rfl
      | some found =>
          simp only [Option.filter_some, staysCached_inert inert,
            consistent.dropped notKept cached]
  · rw [if_pos (twin.synced isEmpty)]
    exact twin.left_cached consistent regular extended isEmpty isNew

/-- What a written element is saved as. -/
theorem Stands.savedAs (consistent : setting.Consistent) (regular : setting.Regular fresh)
    (extended : Extends (setting.Places fresh) setting.registry registry)
    (named : OriginalOf registry original) (writes : setting.Writes key)
    (source : setting.source.hash.find key = some storage)
    (stands : Stands registry storage value) :
    ∃ saved, SavedAs registry setting.connection.owner storage value saved := by
  apply stands.saves setting.connection.owner named
  rintro address zobj rfl found
  rw [consistent.zobjs_eq regular extended (Or.inr ⟨key, source⟩)] at found
  exact regular.original key address zobj writes source found

theorem Stands.not_array (stands : Stands registry storage value)
    (entries : List (Key × Zval)) : value ≠ .array entries := by
  rintro rfl
  have same := stands.meaning
  simp [Zval.meaning] at same

/-- Both ways through the rest of the source. -/
theorem twin_foldl (consistent : setting.Consistent) (regular : setting.Regular fresh)
    (extended : Extends (setting.Places fresh) setting.registry registry)
    (named : OriginalOf registry original) (writes : Key → Fresh)
    {entries : List (Key × Storage)} {elements : List (Key × Zval)}
    (mirrors : Mirrors setting.Writes registry entries elements)
    (stored : ∀ entry ∈ entries, setting.source.hash.find entry.1 = some entry.2)
    (located : ∀ element ∈ elements, table.find element.1 = some element.2)
    (distinct : (entries.map Prod.fst).Nodup)
    (isNew : ∀ entry ∈ entries, entry.1 ∉ merged.written)
    (isFirst : merged.written = [] → setting.firstWritten = entries.find? fun entry =>
      setting.overwrite || (setting.destination.hash.find entry.1).isNone)
    (twin : Twin setting registry table pointers merged state) :
    ∃ result, storeMergeArray [] setting.overwrite true writes elements state = some result ∧
      Twin setting registry table pointers
        (entries.foldl (mergeStorage setting.overwrite pointers) merged) result := by
  induction mirrors generalizing merged state with
  | nil => exact ⟨state, rfl, twin⟩
  | @cons entry element entries elements first rest ih =>
      obtain ⟨key, value⟩ := element
      obtain ⟨sameKey, stands⟩ := first
      simp only at sameKey stands
      subst sameKey
      have here := stored entry List.mem_cons_self
      have unwritten := twin.unwritten entry.1 (isNew entry List.mem_cons_self)
      obtain ⟨notIn, distinctRest⟩ := List.nodup_cons.mp distinct
      have storedRest : ∀ later ∈ entries, setting.source.hash.find later.1 = some later.2 :=
        fun later isIn => stored later (List.mem_cons_of_mem _ isIn)
      have locatedRest : ∀ later ∈ elements, table.find later.1 = some later.2 :=
        fun later isIn => located later (List.mem_cons_of_mem _ isIn)
      rw [List.foldl_cons]
      by_cases skipped : ¬ setting.overwrite ∧ (merged.props.hash.find entry.1).isSome
      · have skippedToo : ¬ setting.overwrite ∧ (state.props.hash.find entry.1).isSome := by
          rw [unwritten.array, ← unwritten.direct]
          exact skipped
        have notFirst : (setting.overwrite ||
            (setting.destination.hash.find entry.1).isNone) = false := by
          rw [← unwritten.direct]
          have present := skipped.2
          simp [skipped.1, present]
        simp only [storeMergeArray, mergeStorage, if_pos skipped, if_pos skippedToo]
        apply ih storedRest locatedRest distinctRest _ _ twin
        · intro later isIn
          exact isNew later (List.mem_cons_of_mem _ isIn)
        · intro isEmpty
          rw [isFirst isEmpty, List.find?_cons_of_neg (by simp [notFirst])]
      · have isTaken : (setting.overwrite ||
            (setting.destination.hash.find entry.1).isNone) = true := by
          rw [← unwritten.direct]
          cases overwrite : setting.overwrite with
          | true => rfl
          | false => simpa [overwrite] using skipped
        have isWritten : setting.Writes entry.1 := by
          refine ⟨List.mem_map_of_mem (OrderedTable.find_eq_some_iff.mp here), ?_⟩
          simpa using isTaken
        have notSkipped : ¬ (¬ setting.overwrite ∧ (state.props.hash.find entry.1).isSome) := by
          rw [unwritten.array, ← unwritten.direct]
          exact skipped
        have isValue := stands isWritten
        have isFirstHere : merged.written = [] →
            setting.firstWritten = some (entry.1, entry.2) := by
          intro isEmpty
          rw [isFirst isEmpty, List.find?_cons, isTaken]
        obtain ⟨saved, savedAs⟩ :=
          isValue.savedAs consistent regular extended named isWritten here
        have isSaved : saveZval state.registry state.connection.owner value = some saved := by
          rw [twin.sameRegistry, twin.owner]
          exact savedAs.isSaved
        obtain ⟨after, isAfter, wrote⟩ := writeAndFinish_wrote (writes entry.1)
          (twin.below consistent.counts) (regular.canonical entry.1 isWritten) isValue.not_array
          isSaved
        have left := twin.left_written consistent regular extended
          (isNew entry List.mem_cons_self) here isFirstHere savedAs wrote
        have twinAfter := twin.write (isNew entry List.mem_cons_self) isWritten here
          (located (entry.1, value) List.mem_cons_self) isFirstHere savedAs isValue left wrote
        simp only [storeMergeArray, if_neg notSkipped, isAfter, Option.bind_eq_bind,
          Option.bind_some, Option.getD_some, mergeStorage, if_neg skipped]
        refine ih storedRest locatedRest distinctRest ?_ ?_ twinAfter
        · intro later isIn
          simp only [List.mem_append, List.mem_singleton, not_or]
          refine ⟨isNew later (List.mem_cons_of_mem _ isIn), ?_⟩
          intro same
          exact notIn (same ▸ List.mem_map_of_mem isIn)
        · intro isEmpty
          simp at isEmpty

end Merging

end Pthreads.Store
