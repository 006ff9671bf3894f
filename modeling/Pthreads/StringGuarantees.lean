import Pthreads.StringRetention

/-!
# The strings of a store run

In every run whose writes lead to no string through a reference or a slot, each
storage that points to a string is backed by a local table of its owner, from the
moment the write has returned.
-/

namespace Pthreads.Store

open ObjectRegistry GuardedRuns

/-- The connection that an action works through. -/
def Action.connection : Action → Option Nat
  | .construct connection _ _ _ | .connect connection _ _ | .disconnect connection _
  | .read connection _ _ _ | .write connection _ _ _ _ | .delete connection _
  | .shift connection _ | .pop connection _ | .chunk connection _ _
  | .mergeThreaded connection _ _ _ | .mergeArray connection _ _ _ _ | .toHash connection _ _
  | .toOwnHash connection _ | .fullSync connection _ | .persist connection _
  | .finish connection => some connection
  | .registry _ | .loadEnum _ _ _ => none

/-- `pthreads_store_write` on its own, which does work after the unlock. -/
def Action.isWrite : Action → Bool
  | .write _ _ _ _ _ => true
  | _ => false

/-- A state together with the connections whose last action was a write, which has
not returned while its work is pending. -/
structure Watched where
  state : State
  writing : Nat → Bool

def watch (declared : List Key) : Watched := ⟨initial declared, fun _ => false⟩

def watchedStep (watched : Watched) (action : Action) : Option Watched :=
  (step watched.state action).map fun after =>
    ⟨after, fun connection =>
      if action.connection = some connection then action.isWrite
      else watched.writing connection⟩

/-- The values that an action writes as they are: an element that is present is
skipped unless it is overwritten. -/
def State.written (state : State) : Action → List Zval
  | .construct _ _ defaults _ => defaults.map Prod.snd
  | .write _ _ value _ _ => [value]
  | .mergeArray _ source overwrite _ _ =>
      (source.filter fun element =>
        overwrite || (state.props.hash.find element.1).isNone).map Prod.snd
  | _ => []

/-- No value that is written leads to a string through a reference or a slot. -/
def Unwrapped (watched : Watched) (action : Action) : Prop :=
  ∀ value ∈ watched.state.written action, wrapsString value = false

instance (watched : Watched) (action : Action) : Decidable (Unwrapped watched action) :=
  inferInstanceAs (Decidable (∀ value ∈ _, _ = _))

/-- The string is in the local table of a live connection of its owner. -/
def HeldByOwner (state : State) (key : Key) (string : ZString) (owner : Nat) : Prop :=
  ∃ connection found table, state.connections.find connection = some found ∧
    found.owner = owner ∧ found.properties = some table ∧ table.find key = some (.string string)

/-- A write of the string by its owner has not returned. -/
def WriteUnreturned (watched : Watched) (key : Key) (string : ZString) (owner : Nat) : Prop :=
  ∃ connection found, watched.state.connections.find connection = some found ∧
    found.owner = owner ∧ watched.writing connection = true ∧
    found.pending = some (.update key (.string string))

/-- A connection of the owner retains the string, or is about to. -/
def Backed (watched : Watched) (key : Key) (string : ZString) (owner : Nat) : Prop :=
  ∃ connection found, watched.state.connections.find connection = some found ∧
    found.owner = owner ∧ (found.Retains key string ∨
      (watched.writing connection = true ∧ found.pending = some (.update key (.string string))))

/-- Every storage that points to a string is backed. -/
def AllBacked (watched : Watched) : Prop :=
  ∀ key string owner, watched.state.props.hash.find key = some (.stringPtr string owner) →
    Backed watched key string owner

section Steps

variable {watched after : Watched} {action : Action}

/-- An operation through an idle connection. -/
theorem AllBacked.operate (backed : AllBacked watched) {connection : Nat}
    {found updated : Connection} {registry : Registry} {props : Props}
    {changes : List (Key × Option Meaning)} (actor : action.connection = some connection)
    (idle : watched.state.idle connection = some found)
    (keeps : KeepsStrings action.isWrite watched.state.props found props updated) :
    AllBacked ⟨watched.state.after connection registry props updated changes, fun other =>
      if action.connection = some other then action.isWrite else watched.writing other⟩ := by
  obtain ⟨isThere, isIdle⟩ := find_of_idle idle
  intro key string owner isStored
  rcases keeps.strings key string owner isStored with ⟨wasStored, retained⟩ | ⟨isOwner, made⟩
  · obtain ⟨holder, held, present, isOwner, reason⟩ := backed key string owner wasStored
    by_cases same : holder = connection
    · -- the connection itself holds it, and it was idle
      subst same
      cases Option.some.inj (isThere.symm.trans present)
      rcases reason with retains | ⟨-, waiting⟩
      · exact ⟨holder, updated, OrderedTable.find_update_same _ _ _, keeps.owner.trans isOwner,
          Or.inl (retained isOwner.symm retains.has)⟩
      · rw [isIdle] at waiting
        cases waiting
    · refine ⟨holder, held, ?_, isOwner, ?_⟩
      · exact (OrderedTable.find_update_other _ _ same).trans present
      · simpa [actor, Ne.symm same] using reason
  · refine ⟨connection, updated, OrderedTable.find_update_same _ _ _,
      keeps.owner.trans isOwner.symm, ?_⟩
    simpa [actor] using made

/-- An action through an idle connection that leaves it as it is. -/
theorem AllBacked.rewatch (backed : AllBacked watched) {connection : Nat} {found : Connection}
    (actor : action.connection = some connection)
    (idle : watched.state.idle connection = some found) :
    AllBacked ⟨watched.state, fun other =>
      if action.connection = some other then action.isWrite else watched.writing other⟩ := by
  obtain ⟨isThere, isIdle⟩ := find_of_idle idle
  intro key string owner isStored
  obtain ⟨holder, held, present, isOwner, reason⟩ := backed key string owner isStored
  refine ⟨holder, held, present, isOwner, ?_⟩
  rcases reason with retains | ⟨isWriting, waiting⟩
  · exact Or.inl retains
  · have different : holder ≠ connection := by
      rintro rfl
      cases Option.some.inj (isThere.symm.trans present)
      rw [isIdle] at waiting
      cases waiting
    exact Or.inr ⟨by simp [actor, Ne.symm different, isWriting], waiting⟩

/-- Nobody holds anything in an object without connections. -/
theorem AllBacked.construct (backed : AllBacked watched) {connection owner : Nat}
    {built : Connection} {registry : Registry} {props : Props} {count : Int}
    {changes : List (Key × Option Meaning)} (writing : Nat → Bool)
    (vacant : watched.state.connections.entries = [])
    (keeps : KeepsStrings false watched.state.props ⟨owner, none, 0, none⟩ props built) :
    AllBacked ⟨watched.state.after connection registry props
      { built with localPropsModcount := count } changes, writing⟩ := by
  intro key string keeper isStored
  rcases keeps.strings key string keeper isStored with ⟨wasStored, -⟩ | ⟨isOwner, made⟩
  · obtain ⟨holder, held, present, -⟩ := backed key string keeper wasStored
    have isIn := OrderedTable.find_eq_some_iff.mp present
    rw [vacant] at isIn
    cases isIn
  · rcases made with ⟨has, notEvicted, notReplaced⟩ | ⟨⟨⟩, -⟩
    exact ⟨connection, _, OrderedTable.find_update_same _ _ _, keeps.owner.trans isOwner.symm,
      Or.inl ⟨has, notEvicted, notReplaced⟩⟩

theorem AllBacked.persist (backed : AllBacked watched) (thread : Nat) (pointers : Key → Nat)
    {key : Key} {string : ZString} {owner : Nat}
    (isStored : (persistLocalProperties thread pointers watched.state.props).hash.find key =
      some (.stringPtr string owner)) :
    owner ≠ thread ∧ Backed watched key string owner := by
  rw [persistLocalProperties_find] at isStored
  obtain ⟨storage, wasStored, changed⟩ := Option.map_eq_some_iff.mp isStored
  cases storage with
  | stringPtr text keeper =>
      simp only [persistStorage] at changed
      split at changed
      · cases changed
      · next different =>
        cases changed
        exact ⟨different, backed key string owner wasStored⟩
  | _ => cases changed

theorem AllBacked.disconnect (backed : AllBacked watched) {connection : Nat} {found : Connection}
    (present : watched.state.connections.find connection = some found) (pointers : Key → Nat)
    {writing : Nat → Bool}
    (sameWriting : ∀ other, other ≠ connection → writing other = watched.writing other) :
    AllBacked ⟨watched.state.disconnect connection found pointers, writing⟩ := by
  rcases disconnect_cases watched.state connection found pointers with ⟨-, fresh, -⟩ |
    ⟨-, result⟩
  · intro key string owner isStored
    rw [fresh] at isStored
    cases isStored
  · rw [result]
    intro key string owner isStored
    obtain ⟨different, holder, held, isThere, isOwner, reason⟩ :=
      backed.persist found.owner pointers isStored
    have notFreed : holder ≠ connection := by
      rintro rfl
      cases Option.some.inj (present.symm.trans isThere)
      exact different isOwner.symm
    refine ⟨holder, held, ?_, isOwner, ?_⟩
    · exact (OrderedTable.find_delete_other _ notFreed).trans isThere
    · simpa [sameWriting holder notFreed] using reason

/-- Another connection's table or pending work changes. -/
theorem AllBacked.update (backed : AllBacked watched) {connection : Nat} {updated : Connection}
    {writing : Nat → Bool}
    (sameWriting : ∀ other, other ≠ connection → writing other = watched.writing other)
    (sameOwner : ∀ found, watched.state.connections.find connection = some found →
      updated.owner = found.owner ∧ ∀ key string,
        (found.Retains key string ∨ found.pending = some (.update key (.string string))) →
          updated.Retains key string) :
    AllBacked ⟨{ watched.state with
      connections := watched.state.connections.update connection updated }, writing⟩ := by
  intro key string owner isStored
  obtain ⟨holder, held, present, isOwner, reason⟩ := backed key string owner isStored
  by_cases same : holder = connection
  · subst same
    obtain ⟨keepsOwner, keepsString⟩ := sameOwner held present
    exact ⟨holder, updated, OrderedTable.find_update_same _ _ _, keepsOwner.trans isOwner,
      Or.inl (keepsString key string (reason.imp id And.right))⟩
  · refine ⟨holder, held, (OrderedTable.find_update_other _ _ same).trans present, isOwner, ?_⟩
    simpa [sameWriting holder same] using reason

theorem step_allBacked (backed : AllBacked watched) (unwrapped : Unwrapped watched action)
    (watchedStepped : watchedStep watched action = some after) : AllBacked after := by
  obtain ⟨state, stepped, rfl⟩ := Option.map_eq_some_iff.mp watchedStepped
  clear watchedStepped
  have sameWriting : ∀ connection, action.connection = some connection →
      ∀ other, other ≠ connection →
        (if action.connection = some other then action.isWrite else watched.writing other) =
          watched.writing other := by
    intro connection actor other different
    simp [actor, Ne.symm different]
  cases action with
  | construct connection owner defaults fresh =>
      obtain ⟨vacant, -, built, isBuilt, rfl⟩ := construct_eq stepped
      obtain ⟨keeps, -⟩ := baseInit_keepsStrings rfl
        (fun element isIn => unwrapped element.2 (List.mem_map_of_mem isIn)) isBuilt
      exact backed.construct _ vacant keeps
  | connect connection owner hasTable =>
      obtain ⟨-, isNew, rfl⟩ := connect_eq stepped
      apply backed.update (sameWriting connection rfl)
      intro found present
      cases isNew.symm.trans present
  | disconnect connection pointers =>
      obtain ⟨found, idle, rfl⟩ := Option.map_eq_some_iff.mp stepped
      exact backed.disconnect (find_of_idle idle).1 pointers (sameWriting connection rfl)
  | read connection key type fresh =>
      obtain ⟨found, registry, updated, outcome, idle, read, rfl⟩ := read_eq stepped
      exact backed.operate rfl idle (storeRead_keepsStrings (find_of_idle idle).2 read)
  | write connection key value coerceArrays fresh =>
      obtain ⟨found, idle, -, ⟨-, rfl⟩ | ⟨written, wrote, rfl⟩⟩ := write_eq stepped
      · exact backed.rewatch rfl idle
      · exact backed.operate rfl idle
          (storeWrite_keepsStrings (unwrapped value List.mem_cons_self) wrote)
  | delete connection key =>
      obtain ⟨found, idle, rfl⟩ := delete_eq stepped
      exact backed.operate rfl idle (storeDelete_keepsStrings (find_of_idle idle).2)
  | shift connection fresh =>
      obtain ⟨found, removed, idle, isRemoved, rfl⟩ := remove_eq stepped
      exact backed.operate rfl idle (storeShift_keepsStrings (find_of_idle idle).2 isRemoved)
  | pop connection fresh =>
      obtain ⟨found, removed, idle, isRemoved, rfl⟩ := remove_eq stepped
      exact backed.operate rfl idle (storePop_keepsStrings (find_of_idle idle).2 isRemoved)
  | chunk connection size fresh =>
      obtain ⟨found, removed, idle, isRemoved, rfl⟩ := remove_eq stepped
      exact backed.operate rfl idle (storeChunk_keepsStrings (find_of_idle idle).2 isRemoved)
  | mergeThreaded connection source overwrite pointers =>
      obtain ⟨found, merged, idle, rfl, rfl⟩ := mergeThreaded_eq stepped
      have merges := foldl_mergeStorage_keepsStrings overwrite pointers source
        ⟨watched.state.props, found, false, []⟩ (find_of_idle idle).2
      exact backed.operate rfl idle merges.bump
  | mergeArray connection source overwrite coerceArrays fresh =>
      obtain ⟨found, merged, idle, -, isMerged, rfl⟩ := mergeArray_eq stepped
      refine backed.operate rfl idle
        (storeMergeArray_keepsStrings (find_of_idle idle).2 ?_ isMerged)
      intro element isIn isWritten
      refine unwrapped element.2 (List.mem_map_of_mem (List.mem_filter.mpr ⟨isIn, ?_⟩))
      simpa using isWritten
  | toHash connection hash fresh =>
      obtain ⟨found, registry, updated, table, idle, copy, rfl⟩ := toHash_eq stepped
      exact backed.operate rfl idle (storeToHash_keepsStrings (find_of_idle idle).2 copy)
  | toOwnHash connection fresh =>
      obtain ⟨found, registry, updated, idle, copy, rfl⟩ := toOwnHash_eq stepped
      exact backed.operate rfl idle (storeToOwnHash_keepsStrings (find_of_idle idle).2 copy)
  | fullSync connection fresh =>
      obtain ⟨found, registry, updated, idle, synced, rfl⟩ := fullSync_eq stepped
      exact backed.operate rfl idle
        (fullSyncLocalProperties_keepsStrings (find_of_idle idle).2 synced)
  | persist connection pointers =>
      obtain ⟨found, idle, rfl⟩ := Option.map_eq_some_iff.mp stepped
      intro key string owner isStored
      exact (backed.rewatch rfl idle).persist found.owner pointers isStored |>.2
  | finish connection =>
      obtain ⟨found, present, rfl⟩ := Option.map_eq_some_iff.mp stepped
      apply backed.update (sameWriting connection rfl)
      intro same isSame
      cases Option.some.inj (present.symm.trans isSame)
      refine ⟨finishPending_owner _ _, ?_⟩
      rintro key string (retains | waiting)
      · exact retains.finish _
      · exact finishPending_has_written _ waiting
  | registry other =>
      obtain ⟨-, stepped⟩ := Option.ite_none_right_eq_some.mp stepped
      obtain ⟨registry, -, rfl⟩ := Option.map_eq_some_iff.mp stepped
      exact backed
  | loadEnum thread className memberName =>
      cases stepped
      exact backed

end Steps

theorem Backed.held {watched : Watched} {key : Key} {string : ZString} {owner : Nat}
    (backed : Backed watched key string owner) :
    HeldByOwner watched.state key string owner ∨ WriteUnreturned watched key string owner := by
  obtain ⟨connection, found, present, isOwner, retains | ⟨isWriting, waiting⟩⟩ := backed
  · obtain ⟨table, isTable, isThere⟩ := Option.bind_eq_some_iff.mp retains.has
    exact Or.inl ⟨connection, found, table, present, isOwner, isTable, isThere⟩
  · exact Or.inr ⟨connection, found, present, isOwner, isWriting, waiting⟩

/-- In every run whose writes lead to no string through a reference or a slot,
every storage that points to a string points to one that its owner holds under
the same key, unless the write of it has not returned. -/
theorem string_held_by_owner {declared : List Key} {watched : Watched}
    (reached : Reaches watchedStep Unwrapped (watch declared) watched) {key : Key}
    {string : ZString} {owner : Nat}
    (isStored : watched.state.props.hash.find key = some (.stringPtr string owner)) :
    HeldByOwner watched.state key string owner ∨ WriteUnreturned watched key string owner := by
  have backed : AllBacked watched :=
    reached.preserves (fun _ _ _ backed unwrapped stepped =>
      step_allBacked backed unwrapped stepped) (by rintro key string owner ⟨⟩)
  exact (backed key string owner isStored).held

/-- Thread 1 creates an object and merges a table with one element into it. -/
def mergeOne (value : Zval) : List Action :=
  [.construct 1 1 [] (fun _ => ⟨0, 0, 0⟩),
    .mergeArray 1 [(.string [120], value)] true false (fun _ => ⟨0, 0, 0⟩)]

theorem string_held_by_owner_mergeOne :
    ∃ watched, execute watchedStep (watch []) (mergeOne (.string ⟨1, [97], false⟩)) =
        some watched ∧
      watched.state.props.hash.find (.string [120]) = some (.stringPtr ⟨1, [97], false⟩ 1) ∧
      (HeldByOwner watched.state (.string [120]) ⟨1, [97], false⟩ 1 ∨
        WriteUnreturned watched (.string [120]) ⟨1, [97], false⟩ 1) := by
  have admitted : Admits watchedStep Unwrapped (watch [])
      (mergeOne (.string ⟨1, [97], false⟩)) := by decide
  refine ⟨_, rfl, rfl, ?_⟩
  exact string_held_by_owner (reaches_of_execute admitted rfl) rfl

/-- The slot of a declared property is merged: the storage points to the string,
and no table has it. -/
theorem string_not_held_mergeOne :
    ∃ watched, execute watchedStep (watch []) (mergeOne (.indirect (.string ⟨1, [97], false⟩))) =
        some watched ∧
      watched.state.props.hash.find (.string [120]) = some (.stringPtr ⟨1, [97], false⟩ 1) ∧
      ¬ HeldByOwner watched.state (.string [120]) ⟨1, [97], false⟩ 1 ∧
      ¬ WriteUnreturned watched (.string [120]) ⟨1, [97], false⟩ 1 := by
  refine ⟨_, rfl, rfl, ?_, ?_⟩
  · rintro ⟨connection, found, table, present, -, isTable, isThere⟩
    cases OrderedTable.find_eq_some_iff.mp present with
    | head => cases isTable
    | tail _ isIn => cases isIn
  · rintro ⟨connection, found, present, -, isWriting, waiting⟩
    cases OrderedTable.find_eq_some_iff.mp present with
    | head => cases waiting
    | tail _ isIn => cases isIn

end Pthreads.Store
