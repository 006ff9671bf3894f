import Pthreads.StoreTableEffects

/-!
# The effect of copying the shared table out

`pthreads_store_tohash` and `pthreads_store_full_sync_local_properties` go through
the shared table and fill a local one, which may be the cache itself.
-/

namespace Pthreads.Store

open ObjectRegistry

variable {declared : List Key} {placed : Nat → Prop} {careless : Key → Prop}
  {enumCases : EnumCases} {registry : Registry} {props : Props} {connection : Connection}

/-- Copying the shared table into another: each entry is one the copy started
from, or it agrees with the storage. -/
structure Copies (placed : Nat → Prop) (registry : Registry) (props : Props)
    (start : Key → Zval → Prop) (copied : Copied) : Prop where
  extended : Extends placed registry copied.registry
  entries : ∀ key value, copied.table.find key = some value →
    start key value ∨ (Agrees copied.registry value (props.hash.find key) ∧
      SettledValue copied.registry value)

/-- The table has a valid item for the key. -/
def HasItem (table : OrderedTable Key Zval) (key : Key) : Prop :=
  ∃ value, table.find key = some value ∧ validLocalCacheItem value = true

theorem HasItem.update {table : OrderedTable Key Zval} {key other : Key} {value : Zval}
    (valid : validLocalCacheItem value = true) (has : other = key ∨ HasItem table other) :
    HasItem (table.update key value) other := by
  by_cases same : other = key
  · subst same
    exact ⟨value, OrderedTable.find_update_same _ _ _, valid⟩
  · obtain ⟨found, isThere, isValid⟩ := has.resolve_left same
    exact ⟨found, by rw [OrderedTable.find_update_other _ _ same, isThere], isValid⟩

/-- A restored element is added to the copy. -/
theorem Copies.restore {start : Key → Zval → Prop} {copied : Copied} {entry : Key × Storage}
    {registry' : Registry} {value : Zval} {newAddress : Nat}
    (ready : Ready placed registry props connection)
    (copies : Copies placed registry props start copied) (isPlaced : placed newAddress)
    (isStored : props.hash.find entry.1 = some entry.2)
    (restores : Restores copied.registry registry' newAddress entry.2 value) :
    Copies placed registry props start ⟨registry', copied.table.update entry.1 value, true⟩ := by
  have later : Extends placed copied.registry registry' := by
    apply restores.extended.mono
    rintro address rfl
    exact isPlaced
  refine ⟨copies.extended.trans later, ?_⟩
  intro key found isThere
  by_cases same : key = entry.1
  · subst same
    simp only [OrderedTable.find_update_same, Option.some.injEq] at isThere
    subst isThere
    rw [isStored]
    exact Or.inr ⟨restores.agrees, restores.settled⟩
  · rw [OrderedTable.find_update_other _ _ same] at isThere
    rcases copies.entries key found isThere with before | ⟨agrees, settled⟩
    · exact Or.inl before
    · refine Or.inr ⟨later.agrees agrees settled ?_, later.settledValue settled⟩
      intro storage isStorage
      exact copies.extended.sturdyStorage (ready.sturdy key storage isStorage)

/-- Restoring while a copy is made. -/
theorem Copies.restores {start : Key → Zval → Prop} {copied : Copied} {entry : Key × Storage}
    {thread : Nat} {fresh : Fresh} {registry' : Registry} {value : Zval}
    (ready : Ready placed registry props connection)
    (copies : Copies placed registry props start copied)
    (isStored : props.hash.find entry.1 = some entry.2)
    (restored : restoreZval enumCases copied.registry thread fresh entry.2 =
      some (registry', value)) :
    Restores copied.registry registry' fresh.newAddress entry.2 value := by
  refine restoreZval_restores (copies.extended.sound ready.sound) ?_ restored
  intro address isHandle
  exact (copies.extended.sturdy (ready.sturdy _ _ isStored address isHandle)).1

theorem copyElement_copies {start : Key → Zval → Prop} {copied next : Copied} {thread : Nat}
    {own : Option (OrderedTable Key Zval)} {fresh : Key → Fresh} {entry : Key × Storage}
    (ready : Ready placed registry props connection)
    (isPlaced : placed (fresh entry.1).newAddress)
    (isStored : props.hash.find entry.1 = some entry.2)
    (offered : ∀ table key value, own = some table → table.find key = some value →
      start key value)
    (copies : Copies placed registry props start copied)
    (copy : copyElement enumCases thread own fresh copied entry = some next) :
    Copies placed registry props start next ∧
      ∀ key, key = entry.1 ∨ HasItem copied.table key → HasItem next.table key := by
  simp only [copyElement] at copy
  split at copy
  · next value isCached =>
    obtain ⟨isThere, valid⟩ := Option.filter_eq_some_iff.mp isCached
    cases copy
    cases own with
    | none =>
        refine ⟨copies, ?_⟩
        rintro key (rfl | has)
        · exact ⟨value, isThere, valid⟩
        · exact has
    | some table =>
        refine ⟨⟨copies.extended, ?_⟩, fun key has => HasItem.update valid has⟩
        intro key found isFound
        simp only [Option.isSome_some, if_true] at isFound
        by_cases same : key = entry.1
        · subst same
          simp only [OrderedTable.find_update_same, Option.some.injEq] at isFound
          subst isFound
          exact Or.inl (offered table _ _ rfl isThere)
        · rw [OrderedTable.find_update_other _ _ same] at isFound
          exact copies.entries key found isFound
  · obtain ⟨⟨registry', value⟩, restored, rfl⟩ := Option.map_eq_some_iff.mp copy
    have restores := copies.restores ready isStored restored
    exact ⟨copies.restore ready isPlaced isStored restores,
      fun key has => HasItem.update restores.valid has⟩

theorem foldlM_copyElement_copies {start : Key → Zval → Prop} {copied result : Copied}
    {thread : Nat} {own : Option (OrderedTable Key Zval)} {fresh : Key → Fresh}
    {entries : List (Key × Storage)} (ready : Ready placed registry props connection)
    (isStored : ∀ entry ∈ entries, props.hash.find entry.1 = some entry.2 ∧
      placed (fresh entry.1).newAddress)
    (offered : ∀ table key value, own = some table → table.find key = some value →
      start key value)
    (copies : Copies placed registry props start copied)
    (copy : entries.foldlM (copyElement enumCases thread own fresh) copied = some result) :
    Copies placed registry props start result ∧
      ∀ key, (key ∈ entries.map Prod.fst ∨ HasItem copied.table key) →
        HasItem result.table key := by
  induction entries generalizing copied with
  | nil =>
      cases copy
      exact ⟨copies, fun key has => by simpa using has⟩
  | cons entry entries ih =>
      simp only [List.foldlM_cons, Option.bind_eq_bind, Option.bind_eq_some_iff] at copy
      obtain ⟨next, first, rest⟩ := copy
      obtain ⟨stored, isPlaced⟩ := isStored entry List.mem_cons_self
      obtain ⟨copiesNext, hasNext⟩ :=
        copyElement_copies ready isPlaced stored offered copies first
      obtain ⟨copiesAll, hasAll⟩ :=
        ih (fun other isIn => isStored other (List.mem_cons_of_mem _ isIn)) copiesNext rest
      refine ⟨copiesAll, ?_⟩
      intro key has
      apply hasAll key
      rcases has with isIn | has
      · rcases List.mem_cons.mp isIn with isFirst | later
        · exact Or.inr (hasNext key (Or.inl isFirst))
        · exact Or.inl later
      · exact Or.inr (hasNext key (Or.inr has))

theorem foldlM_fullSyncElement_copies {start : Key → Zval → Prop} {copied result : Copied}
    {thread : Nat} {fresh : Key → Fresh} {entries : List (Key × Storage)}
    (ready : Ready placed registry props connection)
    (isStored : ∀ entry ∈ entries, props.hash.find entry.1 = some entry.2 ∧
      placed (fresh entry.1).newAddress)
    (copies : Copies placed registry props start copied)
    (copy : entries.foldlM (fullSyncElement enumCases thread fresh) copied = some result) :
    Copies placed registry props start result := by
  induction entries generalizing copied with
  | nil =>
      cases copy
      exact copies
  | cons entry entries ih =>
      simp only [List.foldlM_cons, Option.bind_eq_bind, Option.bind_eq_some_iff] at copy
      obtain ⟨next, first, rest⟩ := copy
      obtain ⟨stored, isPlaced⟩ := isStored entry List.mem_cons_self
      refine ih (fun other isIn => isStored other (List.mem_cons_of_mem _ isIn)) ?_ rest
      unfold fullSyncElement at first
      split at first
      · cases first
        exact copies
      · obtain ⟨⟨registry', value⟩, restored, rfl⟩ := Option.map_eq_some_iff.mp first
        exact copies.restore ready isPlaced stored (copies.restores ready stored restored)

theorem prepared_keeps {value : Zval} (keeps : (prepared declared connection).Keeps value) :
    value = .indirect .undef ∨ connection.Keeps value := by
  rcases keeps with ⟨table, key, isTable, isThere⟩ | waiting
  · cases isTable
    rcases initLocalProperties_find isThere with isSlot | ⟨table, isTable, wasThere⟩
    · exact Or.inl isSlot
    · exact Or.inr (Or.inl ⟨table, key, isTable, wasThere⟩)
  · exact Or.inr (Or.inr waiting)

theorem Ready.prepared (ready : Ready placed registry props connection) :
    Ready placed registry props (prepared declared connection) := by
  refine ⟨ready.sound, ready.sturdy, ?_, ready.counts, ready.idle⟩
  intro value keeps
  rcases prepared_keeps keeps with rfl | before
  · exact settledValue_slot registry
  · exact ready.settled value before

/-- A connection whose table was synced and then filled. -/
structure Filled (declared : List Key) (registry : Registry) (props : Props)
    (connection filled : Connection) (table : OrderedTable Key Zval) : Prop where
  owner : filled.owner = connection.owner
  pending : filled.pending = connection.pending
  counts : filled.localPropsModcount ≤ props.modcount
  start : ∀ key value, table.find key = some value → validLocalCacheItem value = true →
    connection.cached key = some value ∧ (connection.localPropsModcount = props.modcount ∨
      Agrees registry value (props.hash.find key))
  keeps : ∀ key value, table.find key = some value →
    value = .indirect .undef ∨ connection.Keeps value

/-- An entry that the filled table started from agrees with the storage, or it was
cached in sync. -/
theorem Filled.source {filled : Connection} {table : OrderedTable Key Zval} {registry' : Registry}
    {key : Key} {value : Zval} (ready : Ready placed registry props connection)
    (isFilled : Filled declared registry props connection filled table)
    (extended : Extends placed registry registry') (isThere : table.find key = some value)
    (valid : validLocalCacheItem value = true) :
    Agrees registry' value (props.hash.find key) ∨
      (connection.localPropsModcount = props.modcount ∧ connection.cached key = some value) := by
  obtain ⟨wasCached, reason⟩ := isFilled.start key value isThere valid
  rcases reason with inSync | agrees
  · exact Or.inr ⟨inSync, wasCached⟩
  · exact Or.inl (extended.agrees agrees
      (ready.settled value (Connection.keeps_of_cached wasCached)) (ready.sturdy key))

theorem Filled.effect {filled : Connection} {table last : OrderedTable Key Zval} {copied : Copied}
    (ready : Ready placed registry props connection)
    (isFilled : Filled declared registry props connection filled table)
    (copies : Copies placed registry props (fun key value => table.find key = some value) copied)
    (properties : filled.properties = some last)
    (source : ∀ key value, last.find key = some value →
      value = .indirect .undef ∨ copied.table.find key = some value) :
    Effect declared placed careless registry props connection copied.registry props filled [] := by
  refine ⟨copies.extended, isFilled.owner, fun _ _ => rfl, le_rfl, ?_, isFilled.counts, ?_, ?_, ?_,
    ?_⟩
  · intro _ key touched
    simp [lastChange] at touched
  · intro _ key value offered
    rw [offers_of_idle (isFilled.pending.trans ready.idle)] at offered
    simp only [Connection.cached, properties, Option.bind_some] at offered
    obtain ⟨isThere, valid⟩ := Option.filter_eq_some_iff.mp offered
    rcases source key value isThere with rfl | isCopied
    · simp [validLocalCacheItem] at valid
    · rcases copies.entries key value isCopied with before | ⟨agrees, -⟩
      · rcases isFilled.source ready copies.extended before valid with agrees |
          ⟨inSync, wasCached⟩
        · exact Or.inl agrees
        · exact Or.inr (Or.inl ⟨inSync, wasCached, rfl⟩)
      · exact Or.inl agrees
  · rintro value (⟨other, key, isTable, isThere⟩ | ⟨key, waiting⟩)
    · rw [properties] at isTable
      cases isTable
      rcases source key value isThere with rfl | isCopied
      · exact settledValue_slot _
      · rcases copies.entries key value isCopied with before | ⟨-, settled⟩
        · rcases isFilled.keeps key value before with rfl | kept
          · exact settledValue_slot _
          · exact copies.extended.settledValue (ready.settled value kept)
        · exact settled
    · rw [isFilled.pending, ready.idle] at waiting
      cases waiting
  · intro key storage isStored
    exact copies.extended.sturdyStorage (ready.sturdy key storage isStored)
  · intro key meaning touched
    simp [lastChange] at touched

theorem foldl_copyDeclared (declared : List Key) (copied : Copied) :
    (declared.foldl copyDeclared copied).registry = copied.registry ∧
      ∀ key value, (declared.foldl copyDeclared copied).table.find key = some value →
        value = .indirect .undef ∨ copied.table.find key = some value := by
  induction declared generalizing copied with
  | nil => exact ⟨rfl, fun _ _ isThere => Or.inr isThere⟩
  | cons first declared ih =>
      obtain ⟨sameRegistry, entries⟩ := ih (copyDeclared copied first)
      have step : (copyDeclared copied first).registry = copied.registry ∧
          ∀ key value, (copyDeclared copied first).table.find key = some value →
            value = .indirect .undef ∨ copied.table.find key = some value := by
        unfold copyDeclared
        split
        · refine ⟨rfl, ?_⟩
          intro key value isThere
          by_cases same : key = first
          · subst same
            simp only [OrderedTable.find_update_same, Option.some.injEq] at isThere
            exact Or.inl isThere.symm
          · rw [OrderedTable.find_update_other _ _ same] at isThere
            exact Or.inr isThere
        · exact ⟨rfl, fun _ _ isThere => Or.inr isThere⟩
      refine ⟨sameRegistry.trans step.1, ?_⟩
      intro key value isThere
      rcases entries key value isThere with isSlot | before
      · exact Or.inl isSlot
      · exact step.2 key value before

/-- Declared properties only fill the keys that are absent. -/
theorem foldl_copyDeclared_find (declared : List Key) (copied : Copied) {key : Key} {value : Zval}
    (isThere : copied.table.find key = some value) :
    (declared.foldl copyDeclared copied).table.find key = some value := by
  induction declared generalizing copied with
  | nil => exact isThere
  | cons first declared ih =>
      apply ih (copyDeclared copied first)
      unfold copyDeclared
      split
      · next absent =>
        have different : key ≠ first := by
          rintro rfl
          simp [isThere] at absent
        rw [OrderedTable.find_update_other _ _ different, isThere]
      · exact isThere

theorem filled_of_synced {synced filled base : Connection}
    (isSynced : Synced registry props base synced) (owner : base.owner = connection.owner)
    (pending : base.pending = connection.pending)
    (modcount : base.localPropsModcount = connection.localPropsModcount)
    (cached : ∀ key, base.cached key = connection.cached key)
    (keeps : ∀ value, base.Keeps value → value = .indirect .undef ∨ connection.Keeps value)
    (sameOwner : filled.owner = synced.owner) (samePending : filled.pending = synced.pending)
    (counts : filled.localPropsModcount ≤ props.modcount) :
    Filled declared registry props connection filled (initLocalProperties declared synced) := by
  refine ⟨sameOwner.trans (isSynced.owner.trans owner),
    samePending.trans (isSynced.pending.trans pending), counts, ?_, ?_⟩
  · intro key value isThere valid
    have isCached : synced.cached key = some value := by
      rw [← initLocalProperties_cached declared synced key, isThere]
      simp [valid]
    have wasCached := isSynced.cached key value isCached
    rwa [cached, modcount] at wasCached
  · intro key value isThere
    rcases initLocalProperties_find isThere with isSlot | ⟨table, isTable, wasThere⟩
    · exact Or.inl isSlot
    · exact keeps value (isSynced.keeps value (Or.inl ⟨table, key, isTable, wasThere⟩))

theorem copies_start (table : OrderedTable Key Zval) (changed : Bool) :
    Copies placed registry props (fun key value => table.find key = some value)
      ⟨registry, table, changed⟩ :=
  ⟨Extends.refl _ _, fun _ _ isThere => Or.inl isThere⟩

theorem entries_stored {fresh : Key → Fresh}
    (isPlaced : ∀ key ∈ props.hash.table.keys, placed (fresh key).newAddress) :
    ∀ entry ∈ props.hash.table.entries, props.hash.find entry.1 = some entry.2 ∧
      placed (fresh entry.1).newAddress := by
  intro entry isIn
  exact ⟨OrderedTable.find_eq_some_iff.mpr isIn, isPlaced entry.1 (List.mem_map_of_mem isIn)⟩

theorem fullSyncLocalProperties_effect {fresh : Key → Fresh} {registry' : Registry}
    {connection' : Connection} (ready : Ready placed registry props connection)
    (isPlaced : ∀ key ∈ props.hash.table.keys, placed (fresh key).newAddress)
    (synced : fullSyncLocalProperties enumCases declared registry props connection fresh =
      some (registry', connection')) :
    Effect declared placed careless registry props connection registry' props connection' [] := by
  obtain ⟨copied, done, rfl, rfl⟩ := fullSyncLocalProperties_eq synced
  have isSynced := syncLocalProperties_synced registry props connection
  have copies := foldlM_fullSyncElement_copies ready (entries_stored isPlaced)
    (copies_start _ false) done
  have isFilled : Filled declared registry props connection
      { syncLocalProperties registry props connection with properties := some copied.table } _ :=
    filled_of_synced isSynced rfl rfl rfl (fun _ => rfl) (fun _ keeps => Or.inr keeps) rfl rfl
      (le_of_eq isSynced.modcount)
  exact isFilled.effect ready copies rfl fun _ _ isThere => Or.inr isThere

/-- Syncing the prepared connection, and filling its table or leaving it. -/
theorem filled_of_prepared {filled : Connection}
    (sameOwner : filled.owner = connection.owner)
    (samePending : filled.pending = connection.pending)
    (counts : filled.localPropsModcount ≤ props.modcount) :
    Filled declared registry props connection filled (initLocalProperties declared
      (syncLocalProperties registry props (prepared declared connection))) := by
  have isSynced := syncLocalProperties_synced registry props (prepared declared connection)
  exact filled_of_synced isSynced rfl rfl rfl (prepared_cached declared connection)
    (fun _ keeps => prepared_keeps keeps) (sameOwner.trans isSynced.owner.symm)
    (samePending.trans isSynced.pending.symm) counts

/-- What `pthreads_store_tohash` puts into a table. -/
structure HashSound (registry : Registry) (props : Props) (connection : Connection)
    (hash table : OrderedTable Key Zval) : Prop where
  entries : ∀ key value, table.find key = some value → validLocalCacheItem value = true →
    hash.find key = some value ∨ Agrees registry value (props.hash.find key) ∨
      (connection.localPropsModcount = props.modcount ∧ connection.cached key = some value)
  complete : ∀ key ∈ props.hash.table.keys, HasItem table key

theorem storeToOwnHash_effect {fresh : Key → Fresh} {registry' : Registry}
    {connection' : Connection} (ready : Ready placed registry props connection)
    (isPlaced : ∀ key ∈ props.hash.table.keys, placed (fresh key).newAddress)
    (copy : storeToOwnHash enumCases declared registry props connection fresh =
      some (registry', connection')) :
    Effect declared placed careless registry props connection registry' props connection' [] ∧
      ∃ table, connection'.properties = some table ∧
        HashSound registry' props connection OrderedTable.empty table := by
  obtain ⟨_, copied, rfl, done, rfl, rfl⟩ := storeToOwnHash_eq copy
  have isSynced := syncLocalProperties_synced registry props (prepared declared connection)
  obtain ⟨copies, complete⟩ := foldlM_copyElement_copies ready (entries_stored isPlaced)
    (fun _ _ _ isOwn _ => by cases isOwn) (copies_start _ false) done
  obtain ⟨sameRegistry, source⟩ := foldl_copyDeclared declared copied
  have inSync := isSynced.modcount
  rw [sameRegistry]
  have isFilled : Filled declared registry props connection
      { syncLocalProperties registry props (prepared declared connection) with
        properties := some (declared.foldl copyDeclared copied).table
        localPropsModcount :=
          if (declared.foldl copyDeclared copied).changed then props.modcount - 1
          else (syncLocalProperties registry props
            (prepared declared connection)).localPropsModcount }
      (initLocalProperties declared
        (syncLocalProperties registry props (prepared declared connection))) := by
    refine filled_of_prepared isSynced.owner isSynced.pending ?_
    simp only
    split <;> omega
  refine ⟨isFilled.effect ready copies rfl source, _, rfl, ?_, ?_⟩
  · intro key value isThere valid
    rcases source key value isThere with rfl | isCopied
    · simp [validLocalCacheItem] at valid
    · rcases copies.entries key value isCopied with before | ⟨agrees, -⟩
      · exact Or.inr (isFilled.source ready copies.extended before valid)
      · exact Or.inr (Or.inl agrees)
  · intro key isKey
    obtain ⟨value, isThere, valid⟩ := complete key (Or.inl isKey)
    exact ⟨value, foldl_copyDeclared_find declared copied isThere, valid⟩

theorem synced_properties (declared : List Key) (registry : Registry) (props : Props)
    (connection : Connection) :
    (syncLocalProperties registry props (prepared declared connection)).properties =
      some (initLocalProperties declared
        (syncLocalProperties registry props (prepared declared connection))) := by
  unfold syncLocalProperties
  split <;> rfl

theorem storeToHash_effect {fresh : Key → Fresh} {registry' : Registry} {connection' : Connection}
    {hash table : OrderedTable Key Zval} (ready : Ready placed registry props connection)
    (isPlaced : ∀ key ∈ props.hash.table.keys, placed (fresh key).newAddress)
    (copy : storeToHash enumCases declared registry props connection fresh hash =
      some (registry', connection', table)) :
    Effect declared placed careless registry props connection registry' props connection' [] ∧
      HashSound registry' props connection hash table := by
  obtain ⟨copied, rfl, done, rfl, rfl⟩ := storeToHash_eq copy
  have isSynced := syncLocalProperties_synced registry props (prepared declared connection)
  have isFilled : Filled declared registry props connection
      (syncLocalProperties registry props (prepared declared connection)) (initLocalProperties
        declared (syncLocalProperties registry props (prepared declared connection))) :=
    filled_of_prepared isSynced.owner isSynced.pending (le_of_eq isSynced.modcount)
  have isOwn := synced_properties declared registry props connection
  generalize initLocalProperties declared (syncLocalProperties registry props
    (prepared declared connection)) = own at isFilled isOwn
  rw [isOwn] at done
  have begins : Copies placed registry props
      (fun key value => hash.find key = some value ∨ own.find key = some value)
      ⟨registry, hash, false⟩ :=
    ⟨Extends.refl _ _, fun _ _ isThere => Or.inl (Or.inl isThere)⟩
  obtain ⟨copies, complete⟩ := foldlM_copyElement_copies ready (entries_stored isPlaced)
    (fun _ _ _ isTable isThere => Or.inr (Option.some.inj isTable ▸ isThere)) begins done
  obtain ⟨-, source⟩ := foldl_copyDeclared declared copied
  refine ⟨?_, ?_, ?_⟩
  · -- the local table is only synced, while objects are connected
    have unfilled : Copies placed registry props (fun key value => own.find key = some value)
        ⟨copied.registry, own, false⟩ :=
      ⟨copies.extended, fun _ _ isThere => Or.inl isThere⟩
    have synced : Effect declared placed careless registry props connection
        (⟨copied.registry, own, false⟩ : Copied).registry props _ [] :=
      isFilled.effect ready unfilled isOwn fun _ _ isThere => Or.inr isThere
    exact synced
  · intro key value isThere valid
    rcases source key value isThere with rfl | isCopied
    · simp [validLocalCacheItem] at valid
    · rcases copies.entries key value isCopied with (given | cached) | ⟨agrees, -⟩
      · exact Or.inl given
      · exact Or.inr (isFilled.source ready copies.extended cached valid)
      · exact Or.inr (Or.inl agrees)
  · intro key isKey
    obtain ⟨value, isThere, valid⟩ := complete key (Or.inl isKey)
    exact ⟨value, foldl_copyDeclared_find declared copied isThere, valid⟩

end Pthreads.Store
