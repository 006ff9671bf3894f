import Pthreads.StoreOperationEffects

/-!
# The effect of operations on many elements

Removing elements from the shared table, and copying storages into it from the
table of another object.
-/

namespace Pthreads.Store

open ObjectRegistry

variable {declared : List Key} {placed : Nat → Prop} {careless : Key → Prop}
  {enumCases : EnumCases} {registry : Registry} {props : Props} {connection : Connection}

/-- What an operation does before it bumps the count: the keys that it touches are
no longer cached, and the others are as they were. -/
structure Touches (placed : Nat → Prop) (registry : Registry) (props : Props)
    (connection : Connection) (registry' : Registry) (props' : Props) (connection' : Connection)
    (cacheable : Bool) (keys : List Key) : Prop where
  extended : Extends placed registry registry'
  owner : connection'.owner = connection.owner
  pending : connection'.pending = connection.pending
  modcount : props'.modcount = props.modcount
  localModcount : connection'.localPropsModcount = connection.localPropsModcount
  elsewhere : ∀ key, key ∉ keys → props'.hash.find key = props.hash.find key
  cached : ∀ key value, connection'.cached key = some value →
    key ∉ keys ∧ connection.cached key = some value
  keeps : ∀ value, connection'.Keeps value → connection.Keeps value
  cacheable : cacheable = false → ∀ key ∈ keys, memberIsCacheable props key = false
  sturdy : ∀ key storage, props'.hash.find key = some storage →
    SturdyStorage placed registry' storage

theorem Touches.refl (ready : Ready placed registry props connection) :
    Touches placed registry props connection registry props connection false [] :=
  ⟨Extends.refl _ _, rfl, rfl, rfl, rfl, fun _ _ => rfl, fun _ _ cached => ⟨by simp, cached⟩,
    fun _ keeps => keeps, by simp, ready.sturdy⟩

theorem Touches.trans {registry₁ registry₂ : Registry} {props₁ props₂ : Props}
    {connection₁ connection₂ : Connection} {cacheable₁ cacheable₂ : Bool} {keys₁ keys₂ : List Key}
    (first : Touches placed registry props connection registry₁ props₁ connection₁ cacheable₁
      keys₁)
    (second : Touches placed registry₁ props₁ connection₁ registry₂ props₂ connection₂ cacheable₂
      keys₂) :
    Touches placed registry props connection registry₂ props₂ connection₂
      (cacheable₁ || cacheable₂) (keys₁ ++ keys₂) := by
  refine ⟨first.extended.trans second.extended, second.owner.trans first.owner,
    second.pending.trans first.pending, second.modcount.trans first.modcount,
    second.localModcount.trans first.localModcount, ?_, ?_, ?_, ?_, second.sturdy⟩
  · intro key notIn
    simp only [List.mem_append, not_or] at notIn
    rw [second.elsewhere key notIn.2, first.elsewhere key notIn.1]
  · intro key value cached
    obtain ⟨notSecond, middle⟩ := second.cached key value cached
    obtain ⟨notFirst, wasCached⟩ := first.cached key value middle
    exact ⟨by simp [notFirst, notSecond], wasCached⟩
  · intro value keeps
    exact first.keeps value (second.keeps value keeps)
  · intro none key isIn
    simp only [Bool.or_eq_false_iff] at none
    by_cases earlier : key ∈ keys₁
    · exact first.cacheable none.1 key earlier
    · have later : key ∈ keys₂ := (List.mem_append.mp isIn).resolve_left earlier
      have notCacheable := second.cacheable none.2 key later
      simpa [memberIsCacheable, first.elsewhere key earlier] using notCacheable

theorem Touches.ready {registry' : Registry} {props' : Props} {connection' : Connection}
    {cacheable : Bool} {keys : List Key} (ready : Ready placed registry props connection)
    (touches : Touches placed registry props connection registry' props' connection' cacheable
      keys) : Ready placed registry' props' connection' := by
  refine ⟨touches.extended.sound ready.sound, touches.sturdy, ?_, ?_,
    touches.pending.trans ready.idle⟩
  · intro value keeps
    exact touches.extended.settledValue (ready.settled value (touches.keeps value keeps))
  · rw [touches.modcount, touches.localModcount]
    exact ready.counts

theorem lastChange_eq_none_iff {changes : List (Key × Option Meaning)} {key : Key} :
    lastChange changes key = none ↔ key ∉ changes.map Prod.fst := by
  induction changes with
  | nil => simp [lastChange]
  | cons change changes ih =>
      rw [lastChange, Option.or_eq_none_iff, ih]
      by_cases same : change.1 = key
      · simp [same]
      · simp [same, Ne.symm same]

/-- Bumping the count afterwards gives the effect. -/
theorem Touches.effect {registry' : Registry} {props' : Props} {connection' : Connection}
    {cacheable : Bool} {keys : List Key} {changes : List (Key × Option Meaning)}
    (ready : Ready placed registry props connection)
    (touches : Touches placed registry props connection registry' props' connection' cacheable
      keys)
    (sameKeys : changes.map Prod.fst = keys)
    (recorded : ∀ key meaning, lastChange changes key = some meaning →
      Matches registry' meaning (props'.hash.find key)) :
    Effect declared placed careless registry props connection registry'
      (bumpModcount cacheable props' connection').1
      (bumpModcount cacheable props' connection').2 changes := by
  have readyAfter := touches.ready ready
  have bumped := bumpModcount_bumped cacheable props' connection' readyAfter.counts
  have untouched : ∀ key, lastChange changes key = none ↔ key ∉ keys := by
    intro key
    rw [lastChange_eq_none_iff, sameKeys]
  refine ⟨touches.extended, bumped.owner.trans touches.owner, ?_, ?_, ?_, bumped.counts, ?_, ?_,
    ?_, ?_⟩
  · intro key isSame
    rw [bumped.hash, touches.elsewhere key ((untouched key).mp isSame)]
  · rw [← touches.modcount]
    exact bumped.grows
  · intro same key touched
    rw [← touches.modcount] at same
    apply touches.cacheable (bumped.moved same) key
    by_contra notIn
    exact touched ((untouched key).mpr notIn)
  · intro inSync key value offered
    have wasInSync := bumped.inSync.mp inSync
    rw [touches.modcount, touches.localModcount] at wasInSync
    rw [offers_of_idle (bumped.pending.trans readyAfter.idle), bumped.cached] at offered
    obtain ⟨notIn, wasCached⟩ := touches.cached key value offered
    exact Or.inr (Or.inl ⟨wasInSync, wasCached, (untouched key).mpr notIn⟩)
  · intro value keeps
    exact readyAfter.settled value ((bumped.keeps value).mp keeps)
  · intro key storage isStored
    rw [bumped.hash] at isStored
    exact touches.sturdy key storage isStored
  · intro key meaning touched
    rw [bumped.hash]
    exact recorded key meaning touched

theorem storeDelete_effect {key : KeyZval} {props' : Props} {connection' : Connection}
    {removed : Bool} (ready : Ready placed registry props connection)
    (deleted : storeDelete props connection key = (props', connection', removed)) :
    Effect declared placed careless registry props connection registry props' connection'
      (if removed then [(coerce key, none)] else []) := by
  rcases storeDelete_cases props connection key with ⟨-, same⟩ |
    ⟨storage, _, isStored, rfl, same⟩
  · cases same.symm.trans deleted
    exact Effect.refl ready
  · cases same.symm.trans deleted
    have bumped := bumpModcount_bumped (storageIsCacheable storage)
      { props with hash := props.hash.delete (coerce key) } connection ready.counts
    have found : ∀ other, (bumpModcount (storageIsCacheable storage)
        { props with hash := props.hash.delete (coerce key) } connection).1.hash.find other =
          if other = coerce key then none else props.hash.find other := by
      intro other
      rw [bumped.hash, find_hash_delete]
    simp only [if_true]
    refine ⟨Extends.refl _ _, bumped.owner, ?_, bumped.grows, ?_, bumped.counts, ?_, ?_, ?_, ?_⟩
    · intro other untouched
      rw [lastChange_singleton] at untouched
      have different : other ≠ coerce key := by
        rintro rfl
        simp at untouched
      rw [found, if_neg different]
    · intro same other touched
      rw [lastChange_singleton] at touched
      have isMember : coerce key = other := by
        by_contra different
        exact touched (if_neg different)
      rw [← isMember, memberIsCacheable, isStored]
      exact bumped.moved same
    · intro inSync other value offered
      rw [offers_evict, bumped.cached] at offered
      split at offered
      · cases offered
      · next different =>
        refine Or.inr (Or.inl ⟨bumped.inSync.mp inSync, offered, ?_⟩)
        rw [lastChange_singleton, if_neg (Ne.symm different)]
    · rintro value (inTable | ⟨other, ⟨⟩⟩)
      exact ready.settled value ((bumped.keeps value).mp (Or.inl inTable))
    · intro other stored isThere
      rw [found] at isThere
      split at isThere
      · cases isThere
      · exact ready.sturdy other stored isThere
    · intro other meaning touched
      rw [lastChange_singleton] at touched
      split at touched
      · next same =>
        cases touched
        rw [found, if_pos same.symm]
        rfl
      · cases touched

/-- The keys of the elements removed. -/
def Removed.keys (removed : Removed) : List Key := removed.values.map Prod.fst

/-- The removed elements are gone from the shared table. -/
structure Takes (placed : Nat → Prop) (registry : Registry) (props : Props)
    (connection : Connection) (removed : Removed) : Prop where
  touches : Touches placed registry props connection removed.registry removed.props
    removed.connection removed.cacheable removed.keys
  gone : ∀ key ∈ removed.keys, removed.props.hash.find key = none

theorem takeElement_takes {fresh : Key → Fresh} {entry : Key × Storage} {removed : Removed}
    (ready : Ready placed registry props connection)
    (isPlaced : placed (fresh entry.1).newAddress) (isIn : entry ∈ props.hash.table.entries)
    (taken : takeElement enumCases registry props connection fresh entry = some removed) :
    Takes placed registry props connection removed := by
  obtain ⟨⟨restored, value⟩, isRestored, rfl⟩ := Option.map_eq_some_iff.mp taken
  have isStored : props.hash.find entry.1 = some entry.2 := OrderedTable.find_eq_some_iff.mpr isIn
  have restores := restoreElement_restores ready.sound
    (fun address isHandle => (ready.sturdy _ _ isStored address isHandle).1) isRestored
  have extended : Extends placed registry restored := by
    apply restores.1.mono
    rintro address rfl
    exact isPlaced
  refine ⟨⟨extended, rfl, rfl, rfl, rfl, ?_, ?_, ?_, ?_, ?_⟩, ?_⟩
  · intro key notIn
    simp only [Removed.keys, List.map_cons, List.map_nil, List.mem_singleton] at notIn
    rw [find_hash_delete, if_neg notIn]
  · intro key found cached
    rw [evictLocalProperty_cached] at cached
    split at cached
    · cases cached
    · next different => exact ⟨by simpa [Removed.keys] using different, cached⟩
  · intro kept keeps
    exact evictLocalProperty_keeps keeps
  · intro notCacheable key isKey
    simp only [Removed.keys, List.map_cons, List.map_nil, List.mem_singleton] at isKey
    rw [isKey, memberIsCacheable, isStored]
    exact notCacheable
  · intro key storage isThere
    rw [find_hash_delete] at isThere
    split at isThere
    · cases isThere
    · exact extended.sturdyStorage (ready.sturdy key storage isThere)
  · intro key isKey
    simp only [Removed.keys, List.map_cons, List.map_nil, List.mem_singleton] at isKey
    rw [find_hash_delete, if_pos isKey]

/-- Deleting the key of one entry leaves the others. -/
theorem delete_middle {hash : HashTable} {front back : List (Key × Storage)}
    {entry : Key × Storage} (entries : hash.table.entries = front ++ entry :: back) :
    (hash.delete entry.1).table.entries = front ++ back := by
  have distinct := hash.table.distinct
  rw [entries, List.map_append, List.map_cons] at distinct
  have apart := List.nodup_middle.mp distinct
  rw [List.nodup_cons, ← List.map_append] at apart
  have others : ∀ other ∈ front ++ back, other.1 ≠ entry.1 := by
    intro other isIn same
    exact apart.1 (List.mem_map.mpr ⟨other, isIn, same⟩)
  simp only [HashTable.delete, OrderedTable.delete, OrderedTable.filter, entries,
    List.filter_append]
  rw [List.filter_cons_of_neg (by simp), ← List.filter_append]
  exact List.filter_eq_self.mpr fun other isIn => by simpa using others other isIn

theorem delete_head {hash : HashTable} {entry : Key × Storage} {rest : List (Key × Storage)}
    (entries : hash.table.entries = entry :: rest) :
    (hash.delete entry.1).table.entries = rest :=
  @delete_middle hash [] rest entry entries

theorem takeElement_left {fresh : Key → Fresh} {entry : Key × Storage} {removed : Removed}
    (taken : takeElement enumCases registry props connection fresh entry = some removed) :
    removed.props.hash = props.hash.delete entry.1 ∧
      removed.connection.owner = connection.owner := by
  obtain ⟨restored, -, rfl⟩ := Option.map_eq_some_iff.mp taken
  exact ⟨rfl, rfl⟩

/-- One round of `pthreads_store_chunk` finds the table empty, or takes its first element
and goes on. -/
theorem takeFront_succ_cases {fresh : Key → Fresh} {count : Nat} {removed : Removed}
    (taken : takeFront enumCases registry props connection fresh (count + 1) = some removed) :
    props.hash.table.entries = [] ∧ removed = ⟨registry, props, connection, [], false⟩ ∨
      ∃ entry rest first later, props.hash.table.entries = entry :: rest ∧
        takeElement enumCases registry props connection fresh entry = some first ∧
        takeFront enumCases first.registry first.props first.connection fresh count =
          some later ∧
        removed = { later with
          values := first.values ++ later.values
          cacheable := first.cacheable || later.cacheable } := by
  simp only [takeFront] at taken
  cases entries : props.hash.table.entries with
  | nil =>
      simp only [entries, List.head?_nil, Option.some.injEq] at taken
      exact Or.inl ⟨rfl, taken.symm⟩
  | cons entry rest =>
      simp only [entries, List.head?_cons, Option.bind_eq_bind, Option.bind_eq_some_iff] at taken
      obtain ⟨first, isFirst, later, isLater, ⟨⟩⟩ := taken
      exact Or.inr ⟨entry, rest, first, later, rfl, isFirst, isLater, rfl⟩

theorem takeFront_takes {fresh : Key → Fresh} {count : Nat} {removed : Removed}
    (ready : Ready placed registry props connection)
    (isPlaced : ∀ key ∈ props.hash.table.keys, placed (fresh key).newAddress)
    (taken : takeFront enumCases registry props connection fresh count = some removed) :
    Takes placed registry props connection removed := by
  induction count generalizing registry props connection removed with
  | zero =>
      cases taken
      exact ⟨Touches.refl ready, by simp [Removed.keys]⟩
  | succ count ih =>
      rcases takeFront_succ_cases taken with ⟨-, rfl⟩ |
        ⟨entry, others, first, rest, entries, takenFirst, takenRest, rfl⟩
      · exact ⟨Touches.refl ready, by simp [Removed.keys]⟩
      · have isIn : entry ∈ props.hash.table.entries := by
          rw [entries]
          exact List.mem_cons_self
        have one := takeElement_takes ready (isPlaced entry.1 (List.mem_map_of_mem isIn)) isIn
          takenFirst
        have others := ih (one.touches.ready ready) ?_ takenRest
        · have keysEq : ({ rest with
              values := first.values ++ rest.values
              cacheable := first.cacheable || rest.cacheable } : Removed).keys =
                first.keys ++ rest.keys := by
            simp [Removed.keys]
          refine ⟨?_, ?_⟩
          · rw [keysEq]
            exact one.touches.trans others.touches
          · rw [keysEq]
            intro key isKey
            by_cases later : key ∈ rest.keys
            · exact others.gone key later
            · have earlier := (List.mem_append.mp isKey).resolve_right later
              rw [others.touches.elsewhere key later]
              exact one.gone key earlier
        · intro key isKey
          apply isPlaced key
          by_contra notIn
          have absent := OrderedTable.find_eq_none_iff.mpr notIn
          have present : first.props.hash.find key ≠ none :=
            fun isNone => OrderedTable.find_eq_none_iff.mp isNone isKey
          by_cases isTaken : key ∈ first.keys
          · exact present (one.gone key isTaken)
          · rw [one.touches.elsewhere key isTaken] at present
            exact present absent

theorem lastChange_removed {removed : Removed} {key : Key} {meaning : Option Meaning}
    (touched : lastChange removed.changes key = some meaning) :
    key ∈ removed.keys ∧ meaning = none := by
  unfold Removed.changes at touched
  unfold Removed.keys
  generalize removed.values = values at touched ⊢
  induction values with
  | nil => simp [lastChange] at touched
  | cons element values ih =>
      simp only [List.map_cons, lastChange, Option.or_eq_some_iff] at touched
      rcases touched with later | ⟨-, here⟩
      · obtain ⟨isIn, isNone⟩ := ih later
        exact ⟨by simp only [List.map_cons, List.mem_cons]; exact Or.inr isIn, isNone⟩
      · obtain ⟨same, ⟨⟩⟩ := Option.ite_none_right_eq_some.mp here
        exact ⟨by simp [same], rfl⟩

theorem Takes.effect {removed : Removed} (ready : Ready placed registry props connection)
    (takes : Takes placed registry props connection removed) :
    Effect declared placed careless registry props connection removed.bump.registry
      removed.bump.props removed.bump.connection removed.bump.changes := by
  apply takes.touches.effect ready (by simp [Removed.changes, Removed.keys, Removed.bump])
  intro key meaning touched
  obtain ⟨isKey, rfl⟩ := lastChange_removed touched
  rw [takes.gone key isKey]
  rfl

theorem storeShift_effect {fresh : Key → Fresh} {removed : Removed}
    (ready : Ready placed registry props connection)
    (isPlaced : ∀ key ∈ props.hash.table.keys, placed (fresh key).newAddress)
    (shifted : storeShift enumCases registry props connection fresh = some removed) :
    Effect declared placed careless registry props connection removed.registry removed.props
      removed.connection removed.changes := by
  rcases storeShift_cases shifted with ⟨-, rfl⟩ | ⟨entry, taken, isFirst, isTaken, rfl⟩
  · exact Effect.refl ready
  · have isIn := List.mem_of_head? isFirst
    exact (takeElement_takes ready (isPlaced entry.1 (List.mem_map_of_mem isIn)) isIn
      isTaken).effect ready

theorem storePop_effect {fresh : Key → Fresh} {removed : Removed}
    (ready : Ready placed registry props connection)
    (isPlaced : ∀ key ∈ props.hash.table.keys, placed (fresh key).newAddress)
    (popped : storePop enumCases registry props connection fresh = some removed) :
    Effect declared placed careless registry props connection removed.registry removed.props
      removed.connection removed.changes := by
  rcases storePop_cases popped with ⟨-, rfl⟩ | ⟨entry, taken, isLast, isTaken, rfl⟩
  · exact Effect.refl ready
  · have isIn := List.mem_of_getLast? isLast
    exact (takeElement_takes ready (isPlaced entry.1 (List.mem_map_of_mem isIn)) isIn
      isTaken).effect ready

theorem storeChunk_effect {fresh : Key → Fresh} {size : Int} {removed : Removed}
    (ready : Ready placed registry props connection)
    (isPlaced : ∀ key ∈ props.hash.table.keys, placed (fresh key).newAddress)
    (chunked : storeChunk enumCases registry props connection fresh size = some removed) :
    Effect declared placed careless registry props connection removed.registry removed.props
      removed.connection removed.changes := by
  obtain ⟨taken, isTaken, rfl⟩ := Option.map_eq_some_iff.mp chunked
  exact (takeFront_takes ready isPlaced isTaken).effect ready

theorem hardCopyStorage_sturdy {storage : Storage} {pointer : Nat}
    (sturdy : SturdyStorage placed registry storage) :
    SturdyStorage placed registry (hardCopyStorage pointer storage) := by
  intro address isHandle
  cases storage with
  | pthreads other =>
      cases isHandle
      exact sturdy address rfl
  | _ => cases isHandle

/-- One element of a merge of storages. -/
theorem mergeStorage_touches {overwrite : Bool} {pointers : Key → Nat} {merged : Merged}
    {entry : Key × Storage} (sturdy : SturdyStorage placed registry entry.2)
    (touches : Touches placed registry props connection registry merged.props merged.connection
      merged.overwrote merged.written) :
    Touches placed registry props connection registry
      (mergeStorage overwrite pointers merged entry).props
      (mergeStorage overwrite pointers merged entry).connection
      (mergeStorage overwrite pointers merged entry).overwrote
      (mergeStorage overwrite pointers merged entry).written := by
  unfold mergeStorage
  split
  · exact touches
  · refine touches.trans ⟨Extends.refl _ _, rfl, rfl, rfl, rfl, ?_, ?_, ?_, ?_, ?_⟩
    · intro key notIn
      simp only [List.mem_singleton] at notIn
      rw [find_hash_update, if_neg notIn]
    · intro key value cached
      rw [evictLocalProperty_cached] at cached
      split at cached
      · cases cached
      · next different => exact ⟨by simpa using different, cached⟩
    · intro value keeps
      exact evictLocalProperty_keeps keeps
    · intro notCacheable key isKey
      simp only [List.mem_singleton] at isKey
      rw [isKey]
      exact notCacheable
    · intro key storage isThere
      rw [find_hash_update] at isThere
      split at isThere
      · cases isThere
        exact hardCopyStorage_sturdy sturdy
      · exact touches.sturdy key storage isThere

theorem foldl_mergeStorage_touches (overwrite : Bool) (pointers : Key → Nat)
    {source : List (Key × Storage)} (merged : Merged)
    (sturdy : ∀ entry ∈ source, SturdyStorage placed registry entry.2)
    (touches : Touches placed registry props connection registry merged.props merged.connection
      merged.overwrote merged.written) :
    Touches placed registry props connection registry
      (source.foldl (mergeStorage overwrite pointers) merged).props
      (source.foldl (mergeStorage overwrite pointers) merged).connection
      (source.foldl (mergeStorage overwrite pointers) merged).overwrote
      (source.foldl (mergeStorage overwrite pointers) merged).written := by
  induction source generalizing merged with
  | nil => exact touches
  | cons entry source ih =>
      apply ih _ (fun other isIn => sturdy other (List.mem_cons_of_mem _ isIn))
      exact mergeStorage_touches (sturdy entry List.mem_cons_self) touches

theorem lastChange_map_self {keys : List Key} {meaningOf : Key → Option Meaning} {key : Key}
    {meaning : Option Meaning}
    (touched : lastChange (keys.map fun other => (other, meaningOf other)) key = some meaning) :
    meaning = meaningOf key := by
  induction keys with
  | nil => simp [lastChange] at touched
  | cons first keys ih =>
      simp only [List.map_cons, lastChange, Option.or_eq_some_iff] at touched
      rcases touched with later | ⟨-, here⟩
      · exact ih later
      · obtain ⟨rfl, ⟨⟩⟩ := Option.ite_none_right_eq_some.mp here
        rfl

theorem storeMergeThreaded_effect {source : List (Key × Storage)} {overwrite : Bool}
    {pointers : Key → Nat} (ready : Ready placed registry props connection)
    (sturdy : ∀ entry ∈ source, SturdyStorage placed registry entry.2) :
    Effect declared placed careless registry props connection registry
      (storeMergeThreaded props connection source overwrite pointers).props
      (storeMergeThreaded props connection source overwrite pointers).connection
      ((storeMergeThreaded props connection source overwrite pointers).written.map fun key =>
        (key, ((storeMergeThreaded props connection source overwrite pointers).props.hash.find
          key).bind (Storage.meaning registry))) := by
  have touches := foldl_mergeStorage_touches overwrite pointers ⟨props, connection, false, []⟩
    sturdy (Touches.refl ready)
  have bumped := bumpModcount_bumped
    (source.foldl (mergeStorage overwrite pointers) ⟨props, connection, false, []⟩).overwrote
    _ _ (touches.ready ready).counts
  apply touches.effect ready (by simp [storeMergeThreaded, Function.comp_def])
  intro key meaning touched
  rw [lastChange_map_self touched, ← bumped.hash]
  simp only [storeMergeThreaded]
  cases (bumpModcount (source.foldl (mergeStorage overwrite pointers)
    ⟨props, connection, false, []⟩).overwrote _ _).1.hash.find key with
  | none => rfl
  | some storage => exact Or.inr rfl

end Pthreads.Store
