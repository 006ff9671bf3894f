import Pthreads.DefaultProperties

/-!
# The two modification counts

Every connection compares its `local_props_modcount` with the `modcount` of the
shared properties, and takes its local table for up to date when they are equal.
Whatever an operation through a connection does to the two counts is one of
three things: it bumps the shared count any number of times, taking the local one
along only if the two were equal; it ends with a sync; or it sets the local count
one below.  `Counted` says which, and every fact about the counts follows from it.

A connection starts as an object of its own, with a store and a count of its own,
and `_pthreads_connect_nolock` exchanges the store but not the count.  The defaults of
the class have modified no element of that store twice, so that the count is minus one.
-/

namespace Pthreads.Store

open ObjectRegistry (Registry)
open GuardedRuns

/-- Bumping the counts some number of times. -/
structure BumpedBy (times : Nat) (props : Props) (connection : Connection) (props' : Props)
    (connection' : Connection) : Prop where
  modcount : props'.modcount = props.modcount + times
  localModcount : connection'.localPropsModcount =
    if connection.localPropsModcount = props.modcount then props.modcount + times
    else connection.localPropsModcount

theorem BumpedBy.refl (props : Props) (connection : Connection) :
    BumpedBy 0 props connection props connection := by
  constructor
  · simp
  · split
    · next inSync => simp [inSync]
    · rfl

theorem bumpModcount_bumpedBy (bump : Bool) (props : Props) (connection : Connection) :
    BumpedBy (if bump then 1 else 0) props connection (bumpModcount bump props connection).1
      (bumpModcount bump props connection).2 := by
  cases bump with
  | false =>
      constructor
      · simp [bumpModcount]
      · by_cases inSync : connection.localPropsModcount = props.modcount <;>
          simp [bumpModcount, inSync]
  | true =>
      constructor
      · simp [bumpModcount]
      · by_cases inSync : connection.localPropsModcount = props.modcount <;>
          simp [bumpModcount, inSync]

/-- Bumps add up as long as no count is ahead. -/
theorem BumpedBy.trans {first second : Nat} {props props' props'' : Props}
    {connection connection' connection'' : Connection}
    (earlier : BumpedBy first props connection props' connection')
    (later : BumpedBy second props' connection' props'' connection'')
    (below : connection.localPropsModcount ≤ props.modcount) :
    BumpedBy (first + second) props connection props'' connection'' := by
  obtain ⟨isCount, isLocal⟩ := earlier
  obtain ⟨isLaterCount, isLaterLocal⟩ := later
  constructor
  · omega
  · rw [isLaterLocal, isLocal, isCount]
    split
    · simp only [if_true]
      push_cast
      omega
    · next notInSync =>
      rw [if_neg (by omega)]

/-- The shared count does not fall, and the local one stays behind it. -/
structure Counts (props : Props) (props' : Props) (connection' : Connection) : Prop where
  grows : props.modcount ≤ props'.modcount
  below : connection'.localPropsModcount ≤ props'.modcount

theorem Counts.trans {props' props'' : Props} {connection' connection'' : Connection}
    (first : Counts props props' connection') (second : Counts props' props'' connection'') :
    Counts props props'' connection'' :=
  ⟨first.grows.trans second.grows, second.below⟩

/-- How an operation through a connection changes the two counts. -/
inductive Counted (syncs : Prop) (props : Props) (connection : Connection) (props' : Props)
    (connection' : Connection) : Prop
  | bumped (times : Nat) (bumped : BumpedBy times props connection props' connection')
  | synced (executed : syncs) (grows : props.modcount ≤ props'.modcount)
      (equal : connection'.localPropsModcount = props'.modcount)
  | dropped (same : props'.modcount = props.modcount)
      (less : connection'.localPropsModcount = props.modcount - 1)

section Counted

variable {syncs : Prop} {registry : Registry} {props props' : Props}
  {connection connection' : Connection} {enumCases : EnumCases} {declared : List Key}

/-- An operation that leaves both counts alone. -/
theorem Counted.ofSame (sameCount : props'.modcount = props.modcount)
    (sameLocal : connection'.localPropsModcount = connection.localPropsModcount) :
    Counted syncs props connection props' connection' := by
  obtain ⟨isCount, isLocal⟩ := BumpedBy.refl props connection
  exact .bumped 0 ⟨sameCount.trans isCount, sameLocal.trans isLocal⟩

/-- A bump after a change that leaves both counts alone. -/
theorem Counted.ofBump (bump : Bool) {changed : Props} {touched : Connection}
    (sameCount : changed.modcount = props.modcount)
    (sameLocal : touched.localPropsModcount = connection.localPropsModcount) :
    Counted syncs props connection (bumpModcount bump changed touched).1
      (bumpModcount bump changed touched).2 := by
  obtain ⟨isCount, isLocal⟩ := bumpModcount_bumpedBy bump changed touched
  rw [sameCount] at isCount
  rw [sameCount, sameLocal] at isLocal
  exact .bumped _ ⟨isCount, isLocal⟩

theorem Counted.grows (counted : Counted syncs props connection props' connection') :
    props.modcount ≤ props'.modcount := by
  cases counted with
  | bumped times bumped =>
      rw [bumped.modcount]
      omega
  | synced executed grows equal => exact grows
  | dropped same less => exact same.ge

/-- No count gets ahead of the shared one. -/
theorem Counted.below (counted : Counted syncs props connection props' connection')
    (below : connection.localPropsModcount ≤ props.modcount) :
    connection'.localPropsModcount ≤ props'.modcount := by
  cases counted with
  | bumped times bumped =>
      rw [bumped.modcount, bumped.localModcount]
      split <;> omega
  | synced executed grows equal => exact equal.le
  | dropped same less => omega

/-- Only a sync brings a count that is behind back to the shared one. -/
theorem Counted.strict (counted : Counted syncs props connection props' connection')
    (notSynced : ¬ syncs) (strict : connection.localPropsModcount < props.modcount) :
    connection'.localPropsModcount < props'.modcount := by
  cases counted with
  | bumped times bumped =>
      rw [bumped.modcount, bumped.localModcount, if_neg strict.ne]
      omega
  | synced executed grows equal => exact absurd executed notSynced
  | dropped same less => omega

/-- No count falls below minus one. -/
theorem Counted.bounded (counted : Counted syncs props connection props' connection')
    (nonneg : 0 ≤ props.modcount) (bounded : -1 ≤ connection.localPropsModcount) :
    -1 ≤ connection'.localPropsModcount := by
  cases counted with
  | bumped times bumped =>
      rw [bumped.localModcount]
      split <;> omega
  | synced executed grows equal => omega
  | dropped same less => omega

theorem Counted.counts (counted : Counted syncs props connection props' connection')
    (below : connection.localPropsModcount ≤ props.modcount) :
    Counts props props' connection' :=
  ⟨counted.grows, counted.below below⟩

/-! ### The operations -/

/-- Taking elements out leaves both counts alone. -/
theorem takeElement_modcount {fresh : Key → Fresh}
    {entry : Key × Storage} {removed : Removed}
    (taken : takeElement enumCases registry props connection fresh entry = some removed) :
    removed.props.modcount = props.modcount ∧
      removed.connection.localPropsModcount = connection.localPropsModcount := by
  obtain ⟨⟨restored, value⟩, -, rfl⟩ := Option.map_eq_some_iff.mp taken
  exact ⟨rfl, rfl⟩

theorem takeFront_modcount {fresh : Key → Fresh} {count : Nat}
    {removed : Removed}
    (taken : takeFront enumCases registry props connection fresh count = some removed) :
    removed.props.modcount = props.modcount ∧
      removed.connection.localPropsModcount = connection.localPropsModcount := by
  induction count generalizing registry props connection removed with
  | zero =>
      cases taken
      exact ⟨rfl, rfl⟩
  | succ count ih =>
      rcases takeFront_succ_cases taken with ⟨-, rfl⟩ |
        ⟨entry, others, first, rest, -, tookFirst, tookRest, rfl⟩
      · exact ⟨rfl, rfl⟩
      · obtain ⟨firstCount, firstLocal⟩ := takeElement_modcount tookFirst
        obtain ⟨restCount, restLocal⟩ := ih tookRest
        exact ⟨restCount.trans firstCount, restLocal.trans firstLocal⟩

/-- Copying storages leaves both counts alone. -/
theorem foldl_mergeStorage_modcount (overwrite : Bool) (pointers : Key → Nat)
    (source : List (Key × Storage)) (merged : Merged) :
    (source.foldl (mergeStorage overwrite pointers) merged).props.modcount =
        merged.props.modcount ∧
      (source.foldl (mergeStorage overwrite pointers) merged).connection.localPropsModcount =
        merged.connection.localPropsModcount := by
  induction source generalizing merged with
  | nil => exact ⟨rfl, rfl⟩
  | cons entry source ih =>
      obtain ⟨laterCount, laterLocal⟩ := ih (mergeStorage overwrite pointers merged entry)
      rw [List.foldl_cons, laterCount, laterLocal]
      unfold mergeStorage
      split
      · exact ⟨rfl, rfl⟩
      · exact ⟨rfl, rfl⟩

theorem storeRead_counted {key : KeyZval} {type : AccessType} {fresh : Fresh}
    {registry' : Registry} {updated : Connection} {outcome : ReadOutcome}
    (executed : connection.properties.isSome → syncs)
    (read : storeRead enumCases registry props connection key type fresh =
      some (registry', updated, outcome)) : Counted syncs props connection props updated := by
  obtain ⟨synced, isSynced, reads⟩ := storeRead_cases read
  have same : updated.localPropsModcount = synced.localPropsModcount := by
    rcases reads with ⟨-, rfl⟩ | ⟨storage, value, -, -, -, rfl⟩ <;> rfl
  split at isSynced
  · next hasTable =>
    refine .synced (executed hasTable) le_rfl ?_
    rw [same, isSynced]
    exact (syncLocalProperties_synced registry props connection).modcount
  · refine .ofSame rfl ?_
    rw [same, isSynced]

theorem storeWrite_counted {key : Option KeyZval} {value : Zval} {coerceArrays : Bool}
    {fresh : Fresh} {result : Written} (executed : syncs)
    (wrote : storeWrite registry props connection key value coerceArrays fresh =
      some (some result)) : Counted syncs props connection result.props result.connection := by
  obtain ⟨storage, -, -, -, isProps, isConnection⟩ := storeWrite_eq wrote
  refine .synced executed ?_ ?_
  · rw [isProps]
    have bumped := bumpModcount_bumpedBy (memberIsCacheable props result.member)
      { props with hash := props.hash.update result.member storage } connection
    rw [bumped.modcount]
    exact Int.le_add_of_nonneg_right (Int.natCast_nonneg _)
  · rw [isConnection]
    exact (syncLocalProperties_synced _ result.props _).modcount

theorem storeDelete_counted (key : KeyZval) :
    Counted syncs props connection (storeDelete props connection key).1
      (storeDelete props connection key).2.1 := by
  rcases storeDelete_cases props connection key with ⟨-, same⟩ | ⟨storage, _, -, rfl, same⟩
  · rw [same]
    exact .ofSame rfl rfl
  · rw [same]
    obtain ⟨isCount, isLocal⟩ := bumpModcount_bumpedBy (storageIsCacheable storage)
      { props with hash := props.hash.delete (coerce key) } connection
    exact .bumped _ ⟨isCount, isLocal⟩

/-- Removing elements bumps the counts once at the end, if at all. -/
theorem removedBump_counted {removed : Removed}
    (same : removed.props.modcount = props.modcount ∧
      removed.connection.localPropsModcount = connection.localPropsModcount) :
    Counted syncs props connection removed.bump.props removed.bump.connection :=
  .ofBump removed.cacheable same.1 same.2

theorem storeShift_counted {fresh : Key → Fresh} {removed : Removed}
    (shifted : storeShift enumCases registry props connection fresh = some removed) :
    Counted syncs props connection removed.props removed.connection := by
  rcases storeShift_cases shifted with ⟨-, rfl⟩ | ⟨entry, taken, -, took, rfl⟩
  · exact .ofSame rfl rfl
  · exact removedBump_counted (takeElement_modcount took)

theorem storePop_counted {fresh : Key → Fresh} {removed : Removed}
    (popped : storePop enumCases registry props connection fresh = some removed) :
    Counted syncs props connection removed.props removed.connection := by
  rcases storePop_cases popped with ⟨-, rfl⟩ | ⟨entry, taken, -, took, rfl⟩
  · exact .ofSame rfl rfl
  · exact removedBump_counted (takeElement_modcount took)

theorem storeChunk_counted {fresh : Key → Fresh} {size : Int} {removed : Removed}
    (chunked : storeChunk enumCases registry props connection fresh size = some removed) :
    Counted syncs props connection removed.props removed.connection := by
  obtain ⟨taken, took, rfl⟩ := Option.map_eq_some_iff.mp chunked
  exact removedBump_counted (takeFront_modcount took)

theorem storeMergeThreaded_counted (source : List (Key × Storage)) (overwrite : Bool)
    (pointers : Key → Nat) :
    Counted syncs props connection
      (storeMergeThreaded props connection source overwrite pointers).props
      (storeMergeThreaded props connection source overwrite pointers).connection := by
  obtain ⟨sameCount, sameLocal⟩ :=
    foldl_mergeStorage_modcount overwrite pointers source ⟨props, connection, false, []⟩
  exact .ofBump _ sameCount sameLocal

theorem writeAndFinish_counts {state result : WrittenAll} {key : KeyZval}
    {value : Zval} {coerceArrays : Bool} {fresh : Fresh}
    (below : state.connection.localPropsModcount ≤ state.props.modcount)
    (wrote : writeAndFinish declared state key value coerceArrays fresh = some (some result)) :
    Counts state.props result.props result.connection := by
  obtain ⟨outcome, stored, finished⟩ := Option.map_eq_some_iff.mp wrote
  obtain ⟨written, rfl, rfl⟩ := Option.map_eq_some_iff.mp finished
  have counted : Counted True state.props state.connection written.props written.connection :=
    storeWrite_counted trivial stored
  have counts := counted.counts below
  exact ⟨counts.grows, (finishPending_modcount declared written.connection).trans_le counts.below⟩

theorem baseInit_counts {fresh : Key → Fresh}
    {defaults : List (Key × Zval)} {state result : WrittenAll}
    (below : state.connection.localPropsModcount ≤ state.props.modcount)
    (built : baseInit declared fresh defaults state = some result) :
    Counts state.props result.props result.connection := by
  apply @baseInit_keeps declared
    (fun next => Counts state.props next.props next.connection) _ _ _ _ _
    ⟨le_rfl, below⟩ built
  intro middle next counts _ _ wrote
  exact counts.trans (writeAndFinish_counts counts.below wrote)

/-- Once an element was written, the last write has synced. -/
theorem storeMergeArray_counted {overwrite coerceArrays : Bool} {fresh : Key → Fresh}
    {source : List (Key × Zval)} {merged : WrittenAll}
    (executed : merged.written ≠ [] → syncs)
    (isMerged : storeMergeArray declared overwrite coerceArrays fresh source
      ⟨registry, props, connection, []⟩ = some merged) :
    Counted syncs props connection merged.props merged.connection := by
  have followed : merged.written = [] ∧ merged.props = props ∧ merged.connection = connection ∨
      merged.written ≠ [] ∧ props.modcount ≤ merged.props.modcount ∧
        merged.connection.localPropsModcount = merged.props.modcount := by
    apply @storeMergeArray_keeps declared (fun next =>
      next.written = [] ∧ next.props = props ∧ next.connection = connection ∨
        next.written ≠ [] ∧ props.modcount ≤ next.props.modcount ∧
          next.connection.localPropsModcount = next.props.modcount) _ _ _ _ _ _ _
      (Or.inl ⟨rfl, rfl, rfl⟩) isMerged
    intro middle next before _ _ _ wrote
    have grown : props.modcount ≤ middle.props.modcount := by
      rcases before with ⟨-, sameProps, -⟩ | ⟨-, grows, -⟩
      · rw [sameProps]
      · exact grows
    obtain ⟨outcome, stored, finished⟩ := Option.map_eq_some_iff.mp wrote
    obtain ⟨written, rfl, rfl⟩ := Option.map_eq_some_iff.mp finished
    have counted : Counted True middle.props middle.connection written.props
        written.connection := storeWrite_counted trivial stored
    obtain ⟨storage, -, -, -, -, isConnection⟩ := storeWrite_eq stored
    refine Or.inr ⟨by simp, grown.trans counted.grows, ?_⟩
    rw [finishPending_modcount, isConnection]
    exact (syncLocalProperties_synced _ written.props _).modcount
  rcases followed with ⟨-, sameProps, sameConnection⟩ | ⟨wroteOne, grows, equal⟩
  · rw [sameProps, sameConnection]
    exact .ofSame rfl rfl
  · exact .synced (executed wroteOne) grows equal

theorem storeToHash_counted {fresh : Key → Fresh} {hash table : OrderedTable Key Zval}
    {registry' : Registry} {updated : Connection} (executed : syncs)
    (copied : storeToHash enumCases declared registry props connection fresh hash =
      some (registry', updated, table)) : Counted syncs props connection props updated := by
  obtain ⟨filled, rfl, -, rfl, rfl⟩ := storeToHash_eq copied
  exact .synced executed le_rfl (syncLocalProperties_synced registry props _).modcount

theorem storeToOwnHash_counted {fresh : Key → Fresh} {registry' : Registry}
    {updated : Connection} (executed : syncs)
    (copied : storeToOwnHash enumCases declared registry props connection fresh =
      some (registry', updated)) : Counted syncs props connection props updated := by
  obtain ⟨_, filled, rfl, -, rfl, rfl⟩ := storeToOwnHash_eq copied
  cases changed : (declared.foldl copyDeclared filled).changed with
  | true => exact .dropped rfl (by simp)
  | false =>
      refine .synced executed le_rfl ?_
      exact (syncLocalProperties_synced registry props _).modcount

theorem fullSyncLocalProperties_counted {fresh : Key → Fresh} {registry' : Registry}
    {updated : Connection} (executed : syncs)
    (synced : fullSyncLocalProperties enumCases declared registry props connection fresh =
      some (registry', updated)) : Counted syncs props connection props updated := by
  obtain ⟨filled, -, rfl, rfl⟩ := fullSyncLocalProperties_eq synced
  exact .synced executed le_rfl (syncLocalProperties_synced registry props _).modcount

end Counted

/-! ### Moves -/

/-- `_pthreads_connect_nolock`: the store of the destination is given up and its
table is cleaned, but its count stays as `pthreads_base_ctor` has left it. -/
def connectNolock (own : PropertyTables.BaseState) : Connection :=
  { own.connection with
    properties := own.connection.properties.map fun _ => OrderedTable.empty
    localPropsModcount := own.props.modcount - 1 }

/-- An action, or a connection whose class is written like this on its thread. -/
inductive Move where
  | base (action : Action)
  | connectOwn (connection owner : Nat) (declared : List Key)
      (declarations : List PropertyTables.ClassDeclaration) (fresh : Fresh)

/-- The destination of a connection is an object of its own before, with the defaults of
its class in its own store. -/
def move (state : State) : Move → Option State
  | .base action => step state action
  | .connectOwn connection owner declared declarations fresh =>
      if state.connections.entries.isEmpty ∨ (state.connections.find connection).isSome then none
      else
        match PropertyTables.linkClasses declarations with
        | some (ce :: parents) =>
            let own := PropertyTables.baseInit declared fresh (ce :: parents)
              (PropertyTables.objectPropertiesInit state.registry owner ce)
            some { state with
              registry := own.registry
              connections := state.connections.update connection (connectNolock own) }
        | _ => none

/-- The connection that an action is made through. -/
def Action.actor : Action → Option Nat
  | .construct connection _ _ _ => some connection
  | .connect connection _ _ => some connection
  | .disconnect connection _ => some connection
  | .read connection _ _ _ => some connection
  | .write connection _ _ _ _ => some connection
  | .delete connection _ => some connection
  | .shift connection _ => some connection
  | .pop connection _ => some connection
  | .chunk connection _ _ => some connection
  | .mergeThreaded connection _ _ _ => some connection
  | .mergeArray connection _ _ _ _ => some connection
  | .toHash connection _ _ => some connection
  | .toOwnHash connection _ => some connection
  | .fullSync connection _ => some connection
  | .persist connection _ => some connection
  | .finish connection => some connection
  | .registry _ => none
  | .loadEnum _ _ _ => none

def Move.actor : Move → Option Nat
  | .base action => action.actor
  | .connectOwn connection _ _ _ _ => some connection

/-- The action executes `pthreads_store_sync_local_properties` on the connection: a
read does if there is a local table, a write if the value can be stored, and a
merge of values if it writes one of them. -/
def Action.Syncs (state : State) (connection : Nat) : Action → Prop
  | .read actor _ _ _ => actor = connection ∧ ∃ found,
      state.idle connection = some found ∧ found.properties.isSome
  | .write actor key value coerceArrays fresh => actor = connection ∧ ∃ found written,
      state.idle connection = some found ∧
        storeWrite state.registry state.props found key value coerceArrays fresh =
          some (some written)
  | .mergeArray actor source overwrite coerceArrays fresh => actor = connection ∧
      ∃ found merged, state.idle connection = some found ∧
        storeMergeArray state.declared overwrite coerceArrays fresh source
          ⟨state.registry, state.props, found, []⟩ = some merged ∧ merged.written ≠ []
  | .toHash actor _ _ => actor = connection
  | .toOwnHash actor _ => actor = connection
  | .fullSync actor _ => actor = connection
  | _ => False

def Move.Syncs (state : State) (connection : Nat) : Move → Prop
  | .base action => action.Syncs state connection
  | .connectOwn _ _ _ _ _ => False

/-- What a move does to the counts. -/
inductive CountChange (before : State) (moved : Move) (after : State) : Prop
  | through (connection : Nat) (found updated : Connection)
      (acts : moved.actor = some connection)
      (isThere : before.connections.find connection = some found)
      (counted : Counted (moved.Syncs before connection) before.props found after.props updated)
      (connections : after.connections = before.connections.update connection updated)
  | opened (connection : Nat) (created : Connection) (acts : moved.actor = some connection)
      (grows : before.props.modcount ≤ after.props.modcount)
      (bounded : -1 ≤ created.localPropsModcount)
      (strict : created.localPropsModcount < after.props.modcount)
      (connections : after.connections = before.connections.update connection created)
  | kept (same : after.props.modcount = before.props.modcount)
      (connections : ∀ connection found, after.connections.find connection = some found →
        before.connections.find connection = some found)
  | emptied (props : after.props = storeInit) (connections : after.connections.entries = [])

/-- An operation through an idle connection. -/
theorem CountChange.after {before : State} {action : Action} {connection : Nat}
    {found updated : Connection} {registry : Registry} {props : Props}
    (acts : action.actor = some connection) (idle : before.idle connection = some found)
    (counted : Counted (action.Syncs before connection) before.props found props updated)
    (changes : List (Key × Option Meaning)) :
    CountChange before (.base action) (before.after connection registry props updated changes) :=
  .through connection found updated acts (Option.filter_eq_some_iff.mp idle).1 counted rfl

theorem entries_ne_nil_of_find {connections : OrderedTable Nat Connection} {connection : Nat}
    {found : Connection} (isThere : connections.find connection = some found) :
    connections.entries ≠ [] := by
  intro vacant
  rw [OrderedTable.find, vacant] at isThere
  cases isThere

theorem step_countChange {before after : State} {action : Action}
    (nonneg : 0 ≤ before.props.modcount) (stepped : step before action = some after) :
    CountChange before (.base action) after := by
  cases action with
  | construct connection owner defaults fresh =>
      obtain ⟨-, -, built, isBuilt, rfl⟩ := construct_eq stepped
      have counts := baseInit_counts nonneg isBuilt
      have grown := nonneg.trans counts.grows
      refine .opened connection _ rfl counts.grows ?_ ?_ rfl
      · simp only
        omega
      · simp only [State.after]
        omega
  | connect connection owner hasTable =>
      obtain ⟨occupied, -, rfl⟩ := connect_eq stepped
      refine .opened connection _ rfl le_rfl ?_ ?_ rfl
      · simp [freshConnection]
      · simp only [freshConnection]
        omega
  | disconnect connection pointers =>
      obtain ⟨gone, -, rfl⟩ := Option.map_eq_some_iff.mp stepped
      rcases disconnect_cases before connection gone pointers with
        ⟨vacant, emptied, -⟩ | ⟨occupied, remains⟩
      · exact .emptied emptied vacant
      · rw [remains]
        exact .kept rfl fun other found isThere => (OrderedTable.find_of_find_delete isThere).2
  | read connection key type fresh =>
      obtain ⟨found, registry, updated, outcome, idle, read, rfl⟩ := read_eq stepped
      have executed (hasTable : found.properties.isSome) :
          (Action.read connection key type fresh).Syncs before connection :=
        ⟨rfl, found, idle, hasTable⟩
      exact .after rfl idle (storeRead_counted executed read) _
  | write connection key value coerceArrays fresh =>
      obtain ⟨found, idle, -, ⟨-, rfl⟩ | ⟨written, wrote, rfl⟩⟩ := write_eq stepped
      · exact .kept rfl fun _ _ isThere => isThere
      · have executed : (Action.write connection key value coerceArrays fresh).Syncs before
            connection := ⟨rfl, found, written, idle, wrote⟩
        exact .after rfl idle (storeWrite_counted executed wrote) _
  | delete connection key =>
      obtain ⟨found, idle, rfl⟩ := delete_eq stepped
      exact .after rfl idle (storeDelete_counted key) _
  | shift connection fresh =>
      obtain ⟨found, removed, idle, isRemoved, rfl⟩ := remove_eq stepped
      exact .after rfl idle (storeShift_counted isRemoved) _
  | pop connection fresh =>
      obtain ⟨found, removed, idle, isRemoved, rfl⟩ := remove_eq stepped
      exact .after rfl idle (storePop_counted isRemoved) _
  | chunk connection size fresh =>
      obtain ⟨found, removed, idle, isRemoved, rfl⟩ := remove_eq stepped
      exact .after rfl idle (storeChunk_counted isRemoved) _
  | mergeThreaded connection source overwrite pointers =>
      obtain ⟨found, merged, idle, rfl, rfl⟩ := mergeThreaded_eq stepped
      exact .after rfl idle (storeMergeThreaded_counted source overwrite pointers) _
  | mergeArray connection source overwrite coerceArrays fresh =>
      obtain ⟨found, merged, idle, -, isMerged, rfl⟩ := mergeArray_eq stepped
      have executed (wroteOne : merged.written ≠ []) :
          (Action.mergeArray connection source overwrite coerceArrays fresh).Syncs before
            connection := ⟨rfl, found, merged, idle, isMerged, wroteOne⟩
      exact .after rfl idle (storeMergeArray_counted executed isMerged) _
  | toHash connection hash fresh =>
      obtain ⟨found, registry, updated, table, idle, copied, rfl⟩ := toHash_eq stepped
      have executed : (Action.toHash connection hash fresh).Syncs before connection := rfl
      exact .after rfl idle (storeToHash_counted executed copied) _
  | toOwnHash connection fresh =>
      obtain ⟨found, registry, updated, idle, copied, rfl⟩ := toOwnHash_eq stepped
      have executed : (Action.toOwnHash connection fresh).Syncs before connection := rfl
      exact .after rfl idle (storeToOwnHash_counted executed copied) _
  | fullSync connection fresh =>
      obtain ⟨found, registry, updated, idle, synced, rfl⟩ := fullSync_eq stepped
      have executed : (Action.fullSync connection fresh).Syncs before connection := rfl
      exact .after rfl idle (fullSyncLocalProperties_counted executed synced) _
  | persist connection pointers =>
      obtain ⟨found, idle, rfl⟩ := Option.map_eq_some_iff.mp stepped
      exact .kept rfl fun _ _ isThere => isThere
  | finish connection =>
      obtain ⟨found, isThere, rfl⟩ := Option.map_eq_some_iff.mp stepped
      exact .through connection found _ rfl isThere
        (.ofSame rfl (finishPending_modcount before.declared found)) rfl
  | registry other =>
      obtain ⟨-, stepped⟩ := Option.ite_none_right_eq_some.mp stepped
      obtain ⟨registry, -, rfl⟩ := Option.map_eq_some_iff.mp stepped
      exact .kept rfl fun _ _ isThere => isThere
  | loadEnum thread className memberName =>
      cases stepped
      exact .kept rfl fun _ _ isThere => isThere

/-- The connection has a new count, and nothing else is changed for the others. -/
theorem connectOwn_eq {before after : State} {connection owner : Nat} {declared : List Key}
    {declarations : List PropertyTables.ClassDeclaration} {fresh : Fresh}
    (moved : move before (.connectOwn connection owner declared declarations fresh) =
      some after) :
    ∃ created, created.localPropsModcount = -1 ∧ after.props = before.props ∧
      after.connections = before.connections.update connection created := by
  simp only [move] at moved
  split at moved
  · cases moved
  split at moved
  · next ce parents linked =>
    cases moved
    refine ⟨_, ?_, rfl, rfl⟩
    rw [connectNolock, PropertyTables.baseInit_modcount linked]
    rfl
  · cases moved

theorem move_countChange {before after : State} {moved : Move}
    (nonneg : 0 ≤ before.props.modcount) (isMoved : move before moved = some after) :
    CountChange before moved after := by
  cases moved with
  | base action => exact step_countChange nonneg isMoved
  | connectOwn connection owner declared declarations fresh =>
      obtain ⟨created, isCount, sameProps, connections⟩ := connectOwn_eq isMoved
      refine .opened connection created rfl ?_ ?_ ?_ connections
      · rw [sameProps]
      · rw [isCount]
      · rw [isCount, sameProps]
        omega

/-! ### Runs -/

/-- No connection is ahead of the shared properties. -/
structure State.Behind (state : State) : Prop where
  nonneg : 0 ≤ state.props.modcount
  below : ∀ connection found, state.connections.find connection = some found →
    found.localPropsModcount ≤ state.props.modcount

/-- The counts of the connections lie between minus one and the shared count. -/
structure State.CountsHold (state : State) : Prop where
  nonneg : 0 ≤ state.props.modcount
  bounded : ∀ connection found, state.connections.find connection = some found →
    -1 ≤ found.localPropsModcount
  below : ∀ connection found, state.connections.find connection = some found →
    found.localPropsModcount ≤ state.props.modcount

/-- The connection will sync before it trusts its local table. -/
def State.StrictlyBelow (state : State) (connection : Nat) : Prop :=
  ∀ found, state.connections.find connection = some found →
    found.localPropsModcount < state.props.modcount

theorem countsHold_initial (declared : List Key) : (initial declared).CountsHold :=
  ⟨le_rfl, nofun, nofun⟩

section Changes

variable {before after : State} {moved : Move}

theorem CountChange.behind (change : CountChange before moved after) (behind : before.Behind) :
    after.Behind := by
  cases change with
  | through connection found updated acts isThere counted connections =>
      have counts := counted.counts (behind.below connection found isThere)
      refine ⟨behind.nonneg.trans counts.grows, ?_⟩
      intro other present isPresent
      rw [connections] at isPresent
      rcases OrderedTable.find_update_cases isPresent with ⟨-, rfl⟩ | ⟨-, earlier⟩
      · exact counts.below
      · exact (behind.below other present earlier).trans counts.grows
  | opened connection created acts grows bounded strict connections =>
      refine ⟨behind.nonneg.trans grows, ?_⟩
      intro other present isPresent
      rw [connections] at isPresent
      rcases OrderedTable.find_update_cases isPresent with ⟨-, rfl⟩ | ⟨-, earlier⟩
      · exact strict.le
      · exact (behind.below other present earlier).trans grows
  | kept same connections =>
      refine ⟨behind.nonneg.trans same.ge, ?_⟩
      intro other present isPresent
      rw [same]
      exact behind.below other present (connections other present isPresent)
  | emptied props connections =>
      refine ⟨by rw [props]; rfl, ?_⟩
      intro other present isPresent
      exact absurd connections (entries_ne_nil_of_find isPresent)

theorem CountChange.countsHold (change : CountChange before moved after)
    (holds : before.CountsHold) : after.CountsHold := by
  have behind := change.behind ⟨holds.nonneg, holds.below⟩
  refine ⟨behind.nonneg, ?_, behind.below⟩
  intro other present isPresent
  cases change with
  | through connection found updated acts isThere counted connections =>
      rw [connections] at isPresent
      rcases OrderedTable.find_update_cases isPresent with ⟨-, rfl⟩ | ⟨-, earlier⟩
      · exact counted.bounded holds.nonneg (holds.bounded connection found isThere)
      · exact holds.bounded other present earlier
  | opened connection created acts grows bounded strict connections =>
      rw [connections] at isPresent
      rcases OrderedTable.find_update_cases isPresent with ⟨-, rfl⟩ | ⟨-, earlier⟩
      · exact bounded
      · exact holds.bounded other present earlier
  | kept same connections =>
      exact holds.bounded other present (connections other present isPresent)
  | emptied props connections => exact absurd connections (entries_ne_nil_of_find isPresent)

/-- A connection that is strictly below stays so unless it syncs. -/
theorem CountChange.strictlyBelow (change : CountChange before moved after) {connection : Nat}
    (notSynced : ¬ moved.Syncs before connection) (strict : before.StrictlyBelow connection) :
    after.StrictlyBelow connection := by
  intro present isPresent
  cases change with
  | through actor found updated acts isThere counted connections =>
      rw [connections] at isPresent
      rcases OrderedTable.find_update_cases isPresent with ⟨rfl, rfl⟩ | ⟨-, earlier⟩
      · exact counted.strict notSynced (strict found isThere)
      · exact (strict present earlier).trans_le counted.grows
  | opened actor created acts grows bounded isStrict connections =>
      rw [connections] at isPresent
      rcases OrderedTable.find_update_cases isPresent with ⟨rfl, rfl⟩ | ⟨-, earlier⟩
      · exact isStrict
      · exact (strict present earlier).trans_le grows
  | kept same connections =>
      rw [same]
      exact strict present (connections connection present isPresent)
  | emptied props connections => exact absurd connections (entries_ne_nil_of_find isPresent)

/-- A modification through another connection leaves every connection behind. -/
theorem CountChange.strictlyBelow_of_other (change : CountChange before moved after)
    (holds : before.CountsHold) {connection : Nat} (other : moved.actor ≠ some connection)
    (bumped : before.props.modcount < after.props.modcount) : after.StrictlyBelow connection := by
  intro present isPresent
  cases change with
  | through actor found updated acts isThere counted connections =>
      rw [connections] at isPresent
      rcases OrderedTable.find_update_cases isPresent with ⟨rfl, -⟩ | ⟨-, earlier⟩
      · exact absurd acts other
      · exact (holds.below connection present earlier).trans_lt bumped
  | opened actor created acts grows bounded isStrict connections =>
      rw [connections] at isPresent
      rcases OrderedTable.find_update_cases isPresent with ⟨rfl, -⟩ | ⟨-, earlier⟩
      · exact absurd acts other
      · exact (holds.below connection present earlier).trans_lt bumped
  | kept same connections => exact absurd bumped same.not_gt
  | emptied props connections => exact absurd connections (entries_ne_nil_of_find isPresent)

end Changes

/-- The move makes the object or a connection to it. -/
def Move.Opens (connection : Nat) : Move → Prop
  | .base (.construct opened _ _ _) => opened = connection
  | .base (.connect opened _ _) => opened = connection
  | .connectOwn opened _ _ _ _ => opened = connection
  | _ => False

theorem strictlyBelow_of_opens {before after : State} {moved : Move} {connection : Nat}
    (nonneg : 0 ≤ before.props.modcount) (opens : moved.Opens connection)
    (isMoved : move before moved = some after) :
    after.StrictlyBelow connection := by
  intro present isPresent
  cases moved with
  | base action =>
      cases action with
      | construct opened owner defaults fresh =>
          obtain rfl : opened = connection := opens
          obtain ⟨-, -, built, isBuilt, rfl⟩ := construct_eq isMoved
          simp only [State.after, OrderedTable.find_update_same] at isPresent ⊢
          cases isPresent
          simp only
          omega
      | connect opened owner hasTable =>
          obtain rfl : opened = connection := opens
          obtain ⟨-, -, rfl⟩ := connect_eq isMoved
          simp only [OrderedTable.find_update_same] at isPresent ⊢
          cases isPresent
          simp only [freshConnection]
          omega
      | _ => exact absurd opens id
  | connectOwn opened owner declared declarations fresh =>
      obtain rfl : opened = connection := opens
      obtain ⟨created, isCount, sameProps, connections⟩ := connectOwn_eq isMoved
      rw [connections, OrderedTable.find_update_same, Option.some.injEq] at isPresent
      rw [← isPresent, isCount, sameProps]
      omega

end Pthreads.Store
