import Pthreads.StoreTargets

/-!
# What one step of a store run can do

Every step is one of a few kinds: an operation with its effect, the creation of
the object, a connection that comes or goes, a cache update, or something that
happens to other objects.  The invariants of a run are proved for these kinds.
-/

namespace Pthreads.Store

open ObjectRegistry

/-- What holds in every state: the objects in memory are sound, the handles of
the table and the values in the caches lead to constructed objects, and no
connection is ahead of the count. -/
structure Grounded (state : State) : Prop where
  sound : Sound state.registry
  handles : ∀ key address, state.props.hash.find key = some (.pthreads address) →
    SettledAt state.registry address
  settled : ∀ connection found, state.connections.find connection = some found →
    ∀ value, found.Keeps value → SettledValue state.registry value
  counts : ∀ connection found, state.connections.find connection = some found →
    found.localPropsModcount ≤ state.props.modcount
  nonneg : 0 ≤ state.props.modcount
  vacant : state.connections.entries = [] → state.props = storeInit

/-- The action may place a new object at the address. -/
def State.placed (state : State) (action : Action) (address : Nat) : Prop :=
  address ∈ state.placements action

theorem settledAt_iff {registry : Registry} {address : Nat} :
    settledAt registry address = true ↔ SettledAt registry address := by
  unfold settledAt SettledAt
  cases registry.zobjs address <;> simp

theorem savedWell_wellSaved {registry : Registry} {placements : List Nat} {value : Zval}
    (well : savedWell registry placements value = true) :
    WellSaved (· ∈ placements) registry value := by
  intro address zobj refers found
  rw [refersTo_iff] at refers
  simp only [savedWell, refers, Option.bind_some, found, Option.map_some, Option.all_some,
    Bool.and_eq_true, settledAt_iff] at well
  obtain ⟨settled, rest⟩ := well
  cases origin : registry.zobjs (savedAddress zobj address) with
  | none =>
      simp only [origin, decide_eq_true_eq] at rest
      exact ⟨⟨settled, fun _ => rest⟩, by simp⟩
  | some original =>
      simp only [origin, decide_eq_true_eq] at rest
      refine ⟨⟨settled, by simp [origin]⟩, ?_⟩
      rintro _ ⟨⟩
      exact rest

theorem usable_settled {registry : Registry} {thread : Nat} :
    ∀ {value : Zval}, usable registry thread value = true → SettledValue registry value
  | .threaded address, isUsable => by
      intro other refers
      simp only [refersTo, decide_eq_true_eq] at refers
      subst refers
      simp only [usable, Option.any_eq_true, decide_eq_true_eq] at isUsable
      obtain ⟨zobj, found, -, constructed, visible⟩ := isUsable
      exact ⟨zobj, found, visible, constructed⟩
  | .reference target, isUsable => by
      have settled : SettledValue registry target := usable_settled isUsable
      exact settled
  | .indirect slot, isUsable => by
      have settled : SettledValue registry slot := usable_settled isUsable
      exact settled
  | .undef, _ | .null, _ | .bool _, _ | .long _, _ | .double _, _ | .string _, _ | .array _, _
  | .closure _, _ | .socket _ _, _ | .enumCase _ _, _ | .object _, _ | .resource _, _ =>
      settledValue_of_scalar fun _ => rfl

section Conditions

variable {state : State} {action : Action}

theorem handlesKept_iff : state.handlesKept action = true ↔
    (∀ address ∈ state.placements action, ∀ entry ∈ state.props.hash.table.entries,
      entry.2 ≠ .pthreads address) ∧
    (∀ address, .pthreads address ∈ action.storages → SettledAt state.registry address) ∧
    ∀ value ∈ action.values, savedWell state.registry (state.placements action) value = true := by
  simp only [State.handlesKept, Bool.and_eq_true, List.all_eq_true, decide_eq_true_eq, and_assoc]
  refine and_congr_right fun _ => and_congr_left fun _ => ?_
  constructor
  · intro settled address isIn
    exact settledAt_iff.mp (settled _ isIn)
  · intro settled storage isIn
    cases storage with
    | pthreads address => exact settledAt_iff.mpr (settled address isIn)
    | _ => rfl

theorem Grounded.sturdy (grounded : Grounded state) (kept : state.handlesKept action = true)
    (key : Key) (storage : Storage) (isStored : state.props.hash.find key = some storage) :
    SturdyStorage (state.placed action) state.registry storage := by
  rintro address rfl
  refine ⟨grounded.handles key address isStored, ?_⟩
  intro _ isPlaced
  exact (handlesKept_iff.mp kept).1 address isPlaced _ (OrderedTable.find_eq_some_iff.mp isStored)
    rfl

/-- What an operation relies on holds in a grounded state. -/
theorem Grounded.ready (grounded : Grounded state) (kept : state.handlesKept action = true)
    {connection : Nat} {found : Connection} (idle : state.idle connection = some found) :
    Ready (state.placed action) state.registry state.props found := by
  obtain ⟨isThere, isIdle⟩ := find_of_idle idle
  exact ⟨grounded.sound, grounded.sturdy kept, grounded.settled connection found isThere,
    grounded.counts connection found isThere, isIdle⟩

theorem writable_of_kept (kept : state.handlesKept action = true) {thread : Nat} {value : Zval}
    (isValue : value ∈ action.values) (isUsable : usable state.registry thread value = true) :
    Writable (state.placed action) state.registry value :=
  ⟨usable_settled isUsable, savedWell_wellSaved ((handlesKept_iff.mp kept).2.2 value isValue)⟩

end Conditions

/-- The keys where an operation may leave an outdated entry behind: any, when the
other connections are what matters, and otherwise only keys it does not change. -/
def State.careless (own : Bool) (state : State) (action : Action) (key : Key) : Prop :=
  own = false ∨ key ∉ state.targets action

/-- The kinds of step. -/
inductive Outcome (own : Bool) (state : State) (action : Action) (after : State) : Prop
  | unchanged (same : after = state)
  | operated (connection : Nat) (found updated : Connection) (registry : Registry) (props : Props)
      (changes : List (Key × Option Meaning)) (idle : state.idle connection = some found)
      (effect : Effect state.declared (state.placed action) (state.careless own action)
        state.registry state.props found registry props updated changes)
      (targets : ∀ key, lastChange changes key ≠ none ↔ key ∈ state.targets action)
      (modifier : changes ≠ [] → action.modifier = some connection)
      (result : after = state.after connection registry props updated changes)
  | constructed (connection owner : Nat) (built : Connection) (registry : Registry)
      (props : Props) (changes : List (Key × Option Meaning))
      (vacant : state.connections.entries = [])
      (effect : Effect state.declared (state.placed action) (fun _ => True)
        state.registry state.props ⟨owner, none, 0, none⟩ registry props built changes)
      (result : after = state.after connection registry props
        { built with localPropsModcount := props.modcount - 1 } changes)
  | connected (connection owner : Nat) (hasTable : Bool)
      (occupied : state.connections.entries ≠ [])
      (result : after = { state with
        connections := state.connections.update connection (freshConnection owner hasTable) })
  | disconnected (connection : Nat) (found : Connection) (pointers : Key → Nat)
      (idle : state.idle connection = some found)
      (result : after = state.disconnect connection found pointers)
  | persisted (connection thread : Nat) (found : Connection) (pointers : Key → Nat)
      (idle : state.idle connection = some found)
      (result : after = { state with
        props := persistLocalProperties thread pointers state.props })
  | finished (connection : Nat) (found : Connection)
      (present : state.connections.find connection = some found)
      (result : after = { state with
        connections := state.connections.update connection
          (finishPending state.declared found) })
  | registered (other : ObjectRegistry.Action) (registry : Registry)
      (isAction : action = .registry other) (permitted : state.permits other = true)
      (stepped : ObjectRegistry.step state.registry other = some registry)
      (result : after = { state with registry := registry })
  | loaded (enumCases : EnumCases) (result : after = { state with enumCases := enumCases })

theorem lastChange_ne_none_iff {changes : List (Key × Option Meaning)} {key : Key} :
    lastChange changes key ≠ none ↔ key ∈ changes.map Prod.fst := by
  rw [ne_eq, lastChange_eq_none_iff, not_not]

section Steps

variable {own : Bool} {state after : State} {action : Action}

/-- An operation that only reads. -/
theorem outcome_of_reading {connection : Nat} {found updated : Connection} {registry : Registry}
    (idle : state.idle connection = some found) (none : state.targets action = [])
    (effect : Effect state.declared (state.placed action) (state.careless own action)
      state.registry state.props found registry state.props updated []) :
    Outcome own state action (state.after connection registry state.props updated []) :=
  .operated connection found updated registry state.props [] idle effect
    (by simp [lastChange, none]) (by simp) rfl

/-- An operation that removes elements. -/
theorem outcome_of_removing {connection : Nat} {found : Connection} {removed : Removed}
    (idle : state.idle connection = some found) (modifier : action.modifier = some connection)
    (keys : removed.keys = state.targets action)
    (effect : Effect state.declared (state.placed action) (state.careless own action)
      state.registry state.props found removed.registry removed.props removed.connection
      removed.changes) :
    Outcome own state action (state.after connection removed.registry removed.props
      removed.connection removed.changes) := by
  refine .operated connection found removed.connection removed.registry removed.props
    removed.changes idle effect ?_ (fun _ => modifier) rfl
  intro key
  rw [lastChange_ne_none_iff, ← keys, Removed.changes, Removed.keys, List.map_map]
  rfl

theorem step_outcome_write {connection : Nat} {key : Option KeyZval} {value : Zval}
    {coerceArrays : Bool} {fresh : Fresh} (grounded : Grounded state)
    (trusted : state.trustworthy own (.write connection key value coerceArrays fresh) = true)
    (stepped : step state (.write connection key value coerceArrays fresh) = some after) :
    Outcome own state (.write connection key value coerceArrays fresh) after := by
  obtain ⟨kept, careful⟩ := Bool.and_eq_true_iff.mp trusted
  obtain ⟨found, idle, isUsable, ⟨-, rfl⟩ | ⟨written, wrote, rfl⟩⟩ := write_eq stepped
  · exact .unchanged rfl
  · have ready := grounded.ready kept idle
    have isAccepted : accepts state.registry coerceArrays value = true :=
      storeWrite_accepts wrote
    obtain ⟨_, isWritten, -, isMember, -⟩ := storeWrite_eq wrote
    have isTarget : state.targets (.write connection key value coerceArrays fresh) =
        [written.member] := by
      simp [State.targets, isAccepted, isMember]
    refine .operated connection found _ _ _ _ idle
      (storeWrite_effect ready (writable_of_kept kept (by simp [Action.values]) isUsable)
        (by simp [State.placed, State.placements]) wrote ?_) ?_ (fun _ => rfl) rfl
    · intro notRetained inSync isCached
      rw [writtenValue_retained isWritten] at notRetained
      cases own with
      | false => exact Or.inl rfl
      | true =>
          simp only [if_true, State.writerNotMisled, notRetained, isAccepted, idle,
            Bool.false_or, Bool.not_true, Option.all_some, Bool.not_eq_true',
            Connection.trusts, finishPending, ready.idle, ← isMember, inSync] at careful
          simp [isCached] at careful
    · intro other
      rw [lastChange_ne_none_iff, isTarget]
      rfl

theorem step_outcome_delete {connection : Nat} {key : KeyZval} (grounded : Grounded state)
    (kept : state.handlesKept (.delete connection key) = true)
    (stepped : step state (.delete connection key) = some after) :
    Outcome own state (.delete connection key) after := by
  obtain ⟨found, idle, rfl⟩ := delete_eq stepped
  have ready := grounded.ready kept idle
  refine .operated connection found _ _ _ _ idle (storeDelete_effect ready rfl) ?_ (fun _ => rfl)
    rfl
  intro other
  rw [lastChange_ne_none_iff, State.targets, List.filter_cons]
  cases state.props.hash.find (coerce key) with
  | none => simp
  | some storage => simp

theorem step_outcome_mergeThreaded {connection : Nat} {source : List (Key × Storage)}
    {overwrite : Bool} {pointers : Key → Nat} (grounded : Grounded state)
    (kept : state.handlesKept (.mergeThreaded connection source overwrite pointers) = true)
    (stepped : step state (.mergeThreaded connection source overwrite pointers) = some after) :
    Outcome own state (.mergeThreaded connection source overwrite pointers) after := by
  obtain ⟨found, merged, idle, rfl, rfl⟩ := mergeThreaded_eq stepped
  refine .operated connection found _ _ _ _ idle
    (storeMergeThreaded_effect (grounded.ready kept idle) ?_) ?_ (fun _ => rfl) rfl
  · intro entry isIn address isHandle
    refine ⟨(handlesKept_iff.mp kept).2.1 address ?_, ?_⟩
    · rw [← isHandle]
      exact List.mem_map_of_mem isIn
    · intro _ isPlaced
      cases isPlaced
  · intro key
    rw [lastChange_ne_none_iff, List.map_map, State.targets, ← storeMergeThreaded_written
      state.props found source overwrite pointers key]
    simp

theorem step_outcome_mergeArray {connection : Nat} {source : List (Key × Zval)}
    {overwrite coerceArrays : Bool} {fresh : Key → Fresh} (grounded : Grounded state)
    (trusted : state.trustworthy own
      (.mergeArray connection source overwrite coerceArrays fresh) = true)
    (stepped : step state (.mergeArray connection source overwrite coerceArrays fresh) =
      some after) :
    Outcome own state (.mergeArray connection source overwrite coerceArrays fresh) after := by
  obtain ⟨kept, careful⟩ := Bool.and_eq_true_iff.mp trusted
  obtain ⟨found, merged, idle, isUsable, isMerged, rfl⟩ := mergeArray_eq stepped
  have ready := grounded.ready kept idle
  have writable : WritableSource (state.placed (.mergeArray connection source overwrite
      coerceArrays fresh)) state.registry fresh source := by
    intro element isIn
    exact ⟨writable_of_kept kept (List.mem_map_of_mem isIn) (isUsable element isIn),
      List.mem_map_of_mem isIn⟩
  have tidy : Tidy (state.careless own (.mergeArray connection source overwrite coerceArrays
      fresh)) coerceArrays found source := by
    intro element isIn notRetained
    cases own with
    | false => exact Or.inl (Or.inl rfl)
    | true =>
        simp only [if_true, State.writerNotMisled, idle, Option.all_some, List.all_eq_true]
          at careful
        have careful := careful element isIn
        simp only [notRetained, Bool.false_or, Bool.or_eq_true, Bool.and_eq_true,
          decide_eq_true_eq, Option.isNone_iff_eq_none, List.all_eq_true] at careful
        rcases careful with notTarget | ⟨empty, alone⟩
        · exact Or.inl (Or.inr notTarget)
        · refine Or.inr ⟨empty, ?_⟩
          intro other isOther retained
          simpa [retained] using alone other isOther
  obtain ⟨added, isAdded, -, effect⟩ := (storeMergeArray_writes ready writable tidy isMerged).effect
  cases isAdded
  refine .operated connection found _ _ _ _ idle effect ?_ (fun _ => rfl) rfl
  intro key
  have written := mem_storeMergeArray_written (fun key => (state.props.hash.find key).isSome)
    (accepts state.registry coerceArrays) ready writable (by simp) (by simp) (fun _ _ => rfl)
    isMerged key
  rw [lastChange_ne_none_iff, writtenChanges, List.map_map]
  simpa [State.targets] using written

theorem step_outcome_construct {connection owner : Nat} {defaults : List (Key × Zval)}
    {fresh : Key → Fresh} (grounded : Grounded state)
    (kept : state.handlesKept (.construct connection owner defaults fresh) = true)
    (stepped : step state (.construct connection owner defaults fresh) = some after) :
    Outcome own state (.construct connection owner defaults fresh) after := by
  obtain ⟨isVacant, isUsable, built, isBuilt, rfl⟩ := construct_eq stepped
  have ready : Ready (state.placed (.construct connection owner defaults fresh)) state.registry
      state.props ⟨owner, none, 0, none⟩ := by
    refine ⟨grounded.sound, grounded.sturdy kept, ?_, ?_, rfl⟩
    · rintro value (⟨table, key, ⟨⟩, -⟩ | ⟨key, ⟨⟩⟩)
    · simp [grounded.vacant isVacant, storeInit]
  have writable : WritableSource (state.placed (.construct connection owner defaults fresh))
      state.registry fresh defaults := by
    intro element isIn
    exact ⟨writable_of_kept kept (List.mem_map_of_mem isIn) (isUsable element isIn),
      List.mem_map_of_mem isIn⟩
  obtain ⟨added, isAdded, -, effect⟩ := (baseInit_writes ready writable isBuilt).effect
  cases isAdded
  exact .constructed connection owner built.connection _ _ _ isVacant effect rfl

/-- Every step that stays clear of the gaps is of one of the kinds. -/
theorem step_outcome (grounded : Grounded state)
    (trusted : state.trustworthy own action = true) (stepped : step state action = some after) :
    Outcome own state action after := by
  obtain ⟨kept, -⟩ := Bool.and_eq_true_iff.mp trusted
  have allPlaced : ∀ fresh : Key → Fresh, state.placements action =
      (state.props.hash.table.keys.map fun key => (fresh key).newAddress) →
      ∀ key ∈ state.props.hash.table.keys, state.placed action (fresh key).newAddress := by
    intro fresh places key isKey
    rw [State.placed, places]
    exact List.mem_map_of_mem isKey
  cases action with
  | construct connection owner defaults fresh => exact step_outcome_construct grounded kept stepped
  | connect connection owner hasTable =>
      obtain ⟨notVacant, isNew, rfl⟩ := connect_eq stepped
      exact .connected connection owner hasTable (by simp_all) rfl
  | disconnect connection pointers =>
      obtain ⟨found, idle, rfl⟩ := Option.map_eq_some_iff.mp stepped
      exact .disconnected connection found pointers idle rfl
  | read connection key type fresh =>
      obtain ⟨found, registry, updated, outcome, idle, read, rfl⟩ := read_eq stepped
      exact outcome_of_reading idle rfl (storeRead_effect (grounded.ready kept idle)
        (by simp [State.placed, State.placements]) read).1
  | write connection key value coerceArrays fresh =>
      exact step_outcome_write grounded trusted stepped
  | delete connection key => exact step_outcome_delete grounded kept stepped
  | shift connection fresh =>
      obtain ⟨found, removed, idle, isRemoved, rfl⟩ := remove_eq stepped
      exact outcome_of_removing idle rfl (storeShift_keys isRemoved)
        (storeShift_effect (grounded.ready kept idle) (allPlaced fresh rfl) isRemoved)
  | pop connection fresh =>
      obtain ⟨found, removed, idle, isRemoved, rfl⟩ := remove_eq stepped
      exact outcome_of_removing idle rfl (storePop_keys isRemoved)
        (storePop_effect (grounded.ready kept idle) (allPlaced fresh rfl) isRemoved)
  | chunk connection size fresh =>
      obtain ⟨found, removed, idle, isRemoved, rfl⟩ := remove_eq stepped
      exact outcome_of_removing idle rfl (storeChunk_keys isRemoved)
        (storeChunk_effect (grounded.ready kept idle) (allPlaced fresh rfl) isRemoved)
  | mergeThreaded connection source overwrite pointers =>
      exact step_outcome_mergeThreaded grounded kept stepped
  | mergeArray connection source overwrite coerceArrays fresh =>
      exact step_outcome_mergeArray grounded trusted stepped
  | toHash connection hash fresh =>
      obtain ⟨found, registry, updated, table, idle, copy, rfl⟩ := toHash_eq stepped
      exact outcome_of_reading idle rfl
        (storeToHash_effect (grounded.ready kept idle) (allPlaced fresh rfl) copy).1
  | toOwnHash connection fresh =>
      obtain ⟨found, registry, updated, idle, copy, rfl⟩ := toOwnHash_eq stepped
      exact outcome_of_reading idle rfl
        (storeToOwnHash_effect (grounded.ready kept idle) (allPlaced fresh rfl) copy).1
  | fullSync connection fresh =>
      obtain ⟨found, registry, updated, idle, synced, rfl⟩ := fullSync_eq stepped
      exact outcome_of_reading idle rfl
        (fullSyncLocalProperties_effect (grounded.ready kept idle) (allPlaced fresh rfl) synced)
  | persist connection pointers =>
      obtain ⟨found, idle, rfl⟩ := Option.map_eq_some_iff.mp stepped
      exact .persisted connection found.owner found pointers idle rfl
  | finish connection =>
      obtain ⟨found, present, rfl⟩ := Option.map_eq_some_iff.mp stepped
      exact .finished connection found present rfl
  | registry other =>
      obtain ⟨permitted, stepped⟩ := Option.ite_none_right_eq_some.mp stepped
      obtain ⟨registry, moved, rfl⟩ := Option.map_eq_some_iff.mp stepped
      exact .registered other registry rfl permitted moved rfl
  | loadEnum thread className memberName =>
      cases stepped
      exact .loaded _ rfl

end Steps

end Pthreads.Store
