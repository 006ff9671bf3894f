import Pthreads.StringRetention

/-!
# What the storages of a table point to

Some storages keep a pointer to memory of the thread that wrote them: to a string, to a
closure, to a resource.  An operation adds no pointers to the table but those of the
values it writes and of the storages it copies.
-/

namespace Pthreads.Store

/-- Memory that a storage points to and does not own. -/
inductive Block where
  | string (pointer : Nat)
  | closure (pointer : Nat)
  | resource (pointer : Nat)
deriving DecidableEq, Repr

def Storage.block : Storage → Option Block
  | .stringPtr text _ => if text.permanent then none else some (.string text.pointer)
  | .closure made _ => some (.closure made.pointer)
  | .resource pointer _ => some (.resource pointer)
  | _ => none

/-- The memory of a value that its storage would point to. -/
def Zval.block : Zval → Option Block
  | .string text => if text.permanent then none else some (.string text.pointer)
  | .closure made => some (.closure made.pointer)
  | .resource pointer => some (.resource pointer)
  | .reference target => target.block
  | .indirect slot => slot.block
  | _ => none

/-- The storages of the table point to such memory only. -/
def HashTable.Points (hash : HashTable) (Live : Block → Prop) : Prop :=
  ∀ key storage block, hash.find key = some storage → storage.block = some block → Live block

/-- The storages that a merge from a ThreadedArray copies. -/
def State.copied (state : State) : Action → List (Key × Storage)
  | .mergeThreaded _ source overwrite _ =>
      source.filter fun entry => overwrite || (state.props.hash.find entry.1).isNone
  | _ => []

section Operations

variable {Live : Block → Prop} {hash : HashTable} {declared : List Key} {enumCases : EnumCases}
  {registry registry' : ObjectRegistry.Registry} {props : Props} {connection : Connection}

theorem HashTable.Points.update (points : hash.Points Live) (key : Key) {storage : Storage}
    (live : ∀ block, storage.block = some block → Live block) :
    (hash.update key storage).Points Live := by
  intro other found block isStored isBlock
  rw [find_hash_update] at isStored
  split at isStored
  · cases isStored
    exact live block isBlock
  · exact points other found block isStored isBlock

theorem HashTable.Points.delete (points : hash.Points Live) (key : Key) :
    (hash.delete key).Points Live := by
  intro other found block isStored isBlock
  rw [find_hash_delete] at isStored
  split at isStored
  · cases isStored
  · exact points other found block isStored isBlock

theorem HashTable.Points.bump (points : props.hash.Points Live) (bump : Bool)
    (connection : Connection) : (bumpModcount bump props connection).1.hash.Points Live := by
  rw [(bumpModcount_eq bump props connection).1]
  exact points

theorem storeCreate_block {source : Nat} {storage : Storage} :
    ∀ value : Zval, storeCreate registry source value = some storage →
      storage.block = value.block
  | .indirect slot, created => storeCreate_block slot created
  | .reference target, created => storeCreate_block target created
  | .string _, created | .closure _, created | .resource _, created | .enumCase _ _, created => by
      cases created
      rfl
  | .threaded address, created => by
      obtain ⟨zobj, -, rfl⟩ := Option.map_eq_some_iff.mp created
      rfl
  | .socket socket hasStream, created => by
      cases hasStream <;> cases created
      rfl

theorem saveZval_block {source : Nat} {storage : Storage} {value : Zval}
    (saved : saveZval registry source value = some storage) : storage.block = value.block := by
  cases value with
  | string text =>
      simp only [saveZval] at saved
      split at saved
      · next isPermanent =>
        cases saved
        simp [Storage.block, Zval.block, isPermanent]
      · exact storeCreate_block _ saved
  | null | bool | long | double =>
      cases saved
      rfl
  | _ =>
      have created : storeCreate registry source _ = some storage := saved
      exact storeCreate_block _ created

/-- The object that an array is turned into is not among what is pointed to. -/
theorem writtenValue_block {thread : Nat} {value write : Zval} {coerceArrays : Bool}
    {fresh : Fresh} {block : Block}
    (written : writtenValue registry thread value coerceArrays fresh = some (registry', write))
    (isBlock : write.block = some block) : value.block = some block := by
  unfold writtenValue at written
  split at written
  · obtain ⟨-, rfl, -⟩ := coerceArray_eq written
    cases isBlock
  · cases written
    exact isBlock

theorem storeWrite_points {key : Option KeyZval} {value : Zval} {coerceArrays : Bool}
    {fresh : Fresh} {result : Written} (points : props.hash.Points Live)
    (live : ∀ block, value.block = some block → Live block)
    (wrote : storeWrite registry props connection key value coerceArrays fresh =
      some (some result)) : result.props.hash.Points Live := by
  obtain ⟨storage, isWritten, saved, -, propsEq, -⟩ := storeWrite_eq wrote
  rw [propsEq]
  apply HashTable.Points.bump
  apply points.update
  intro block isBlock
  apply live block
  apply writtenValue_block isWritten
  rw [← saveZval_block saved, isBlock]

theorem writeAndFinish_points {state next : WrittenAll} {key : KeyZval} {value : Zval}
    {coerceArrays : Bool} {fresh : Fresh} (points : state.props.hash.Points Live)
    (live : ∀ block, value.block = some block → Live block)
    (wrote : writeAndFinish declared state key value coerceArrays fresh = some (some next)) :
    next.props.hash.Points Live := by
  obtain ⟨outcome, isWritten, finished⟩ := Option.map_eq_some_iff.mp wrote
  obtain ⟨one, rfl, rfl⟩ := Option.map_eq_some_iff.mp finished
  exact storeWrite_points points live isWritten

theorem storeDelete_points {key : KeyZval} (points : props.hash.Points Live) :
    (storeDelete props connection key).1.hash.Points Live := by
  rcases storeDelete_cases props connection key with ⟨-, same⟩ | ⟨storage, _, -, rfl, same⟩
  · rw [same]
    exact points
  · rw [same]
    apply HashTable.Points.bump
    exact points.delete (coerce key)

theorem takeElement_points {fresh : Key → Fresh} {entry : Key × Storage} {removed : Removed}
    (points : props.hash.Points Live)
    (taken : takeElement enumCases registry props connection fresh entry = some removed) :
    removed.props.hash.Points Live := by
  obtain ⟨_, -, rfl⟩ := Option.map_eq_some_iff.mp taken
  exact points.delete entry.1

theorem storeShift_points {fresh : Key → Fresh} {removed : Removed}
    (points : props.hash.Points Live)
    (shifted : storeShift enumCases registry props connection fresh = some removed) :
    removed.props.hash.Points Live := by
  rcases storeShift_cases shifted with ⟨-, rfl⟩ | ⟨entry, taken, -, isTaken, rfl⟩
  · exact points
  · exact (takeElement_points points isTaken).bump _ _

theorem storePop_points {fresh : Key → Fresh} {removed : Removed}
    (points : props.hash.Points Live)
    (popped : storePop enumCases registry props connection fresh = some removed) :
    removed.props.hash.Points Live := by
  rcases storePop_cases popped with ⟨-, rfl⟩ | ⟨entry, taken, -, isTaken, rfl⟩
  · exact points
  · exact (takeElement_points points isTaken).bump _ _

theorem takeFront_points {fresh : Key → Fresh} {count : Nat} {removed : Removed}
    (points : props.hash.Points Live)
    (taken : takeFront enumCases registry props connection fresh count = some removed) :
    removed.props.hash.Points Live := by
  induction count generalizing registry props connection removed with
  | zero =>
      cases taken
      exact points
  | succ count ih =>
      rcases takeFront_succ_cases taken with ⟨-, rfl⟩ |
        ⟨entry, others, first, rest, -, isFirst, isRest, rfl⟩
      · exact points
      · have later := ih (takeElement_points points isFirst) isRest
        exact later

theorem storeChunk_points {fresh : Key → Fresh} {size : Int} {removed : Removed}
    (points : props.hash.Points Live)
    (chunked : storeChunk enumCases registry props connection fresh size = some removed) :
    removed.props.hash.Points Live := by
  obtain ⟨taken, isTaken, rfl⟩ := Option.map_eq_some_iff.mp chunked
  exact (takeFront_points points isTaken).bump _ _

theorem hardCopyStorage_block {pointer : Nat} {storage : Storage} {block : Block}
    (isBlock : (hardCopyStorage pointer storage).block = some block) :
    storage.block = some block := by
  cases storage with
  | stringPtr | string => cases isBlock
  | _ => exact isBlock

/-- Elements that are present and not overwritten are skipped, also later in the merge. -/
theorem foldl_mergeStorage_points {overwrite : Bool} {pointers : Key → Nat}
    {source : List (Key × Storage)} {merged : Merged} (points : merged.props.hash.Points Live)
    (live : ∀ entry ∈ source,
      (overwrite || (merged.props.hash.find entry.1).isNone) = true →
        ∀ block, entry.2.block = some block → Live block) :
    (source.foldl (mergeStorage overwrite pointers) merged).props.hash.Points Live := by
  induction source generalizing merged with
  | nil => exact points
  | cons entry source ih =>
      obtain ⟨isLive, others⟩ := List.forall_mem_cons.mp live
      rw [List.foldl_cons, mergeStorage]
      split
      · exact ih points others
      · next notSkipped =>
        have isWritten : (overwrite || (merged.props.hash.find entry.1).isNone) = true := by
          cases overwrite with
          | true => rfl
          | false => simpa using notSkipped
        apply ih
        · apply points.update
          intro block isBlock
          exact isLive isWritten block (hardCopyStorage_block isBlock)
        · intro other isOther isTaken
          apply others other isOther
          by_cases same : other.1 = entry.1
          · rw [same]
            exact isWritten
          · simpa [find_hash_update, same] using isTaken

theorem persistLocalProperties_points (thread : Nat) (pointers : Key → Nat)
    (points : props.hash.Points Live) :
    (persistLocalProperties thread pointers props).hash.Points Live := by
  intro key storage block isStored isBlock
  rw [persistLocalProperties_find] at isStored
  obtain ⟨before, wasStored, rfl⟩ := Option.map_eq_some_iff.mp isStored
  apply points key before block wasStored
  cases before with
  | stringPtr text owner =>
      simp only [persistStorage] at isBlock
      split at isBlock
      · cases isBlock
      · exact isBlock
  | _ => exact isBlock

end Operations

/-- An action adds no pointers but those of the values it writes and of the storages it
copies. -/
theorem step_points {state after : State} {action : Action} {Live : Block → Prop}
    (points : state.props.hash.Points Live)
    (written : ∀ value ∈ action.values, ∀ block, value.block = some block → Live block)
    (copied : ∀ entry ∈ state.copied action, ∀ block, entry.2.block = some block → Live block)
    (stepped : step state action = some after) : after.props.hash.Points Live := by
  cases action with
  | construct connection owner defaults fresh =>
      obtain ⟨-, -, built, isBuilt, rfl⟩ := construct_eq stepped
      apply @baseInit_keeps state.declared (fun next => next.props.hash.Points Live) _ _ _ _ _
        points isBuilt
      intro middle next isLive element isIn wrote
      exact writeAndFinish_points isLive (written _ (List.mem_map_of_mem isIn)) wrote
  | connect connection owner hasTable =>
      obtain ⟨-, -, rfl⟩ := connect_eq stepped
      exact points
  | disconnect connection pointers =>
      obtain ⟨found, -, rfl⟩ := Option.map_eq_some_iff.mp stepped
      rcases disconnect_cases state connection found pointers with ⟨-, isFresh, -⟩ | ⟨-, result⟩
      · intro key storage block isStored
        rw [isFresh] at isStored
        cases isStored
      · rw [result]
        exact persistLocalProperties_points found.owner pointers points
  | read connection key type fresh =>
      obtain ⟨_, _, _, _, -, -, rfl⟩ := read_eq stepped
      exact points
  | write connection key value coerceArrays fresh =>
      obtain ⟨found, -, -, ⟨-, rfl⟩ | ⟨result, wrote, rfl⟩⟩ := write_eq stepped
      · exact points
      · exact storeWrite_points points (written value List.mem_cons_self) wrote
  | delete connection key =>
      obtain ⟨found, -, rfl⟩ := delete_eq stepped
      exact storeDelete_points points
  | shift connection fresh =>
      obtain ⟨found, removed, -, shifted, rfl⟩ := remove_eq stepped
      exact storeShift_points points shifted
  | pop connection fresh =>
      obtain ⟨found, removed, -, popped, rfl⟩ := remove_eq stepped
      exact storePop_points points popped
  | chunk connection size fresh =>
      obtain ⟨found, removed, -, chunked, rfl⟩ := remove_eq stepped
      exact storeChunk_points points chunked
  | mergeThreaded connection source overwrite pointers =>
      obtain ⟨found, merged, -, rfl, rfl⟩ := mergeThreaded_eq stepped
      apply HashTable.Points.bump
      have start : (⟨state.props, found, false, []⟩ : Merged).props.hash.Points Live := points
      apply foldl_mergeStorage_points start
      intro entry isIn isTaken
      exact copied entry (List.mem_filter.mpr ⟨isIn, isTaken⟩)
  | mergeArray connection source overwrite coerceArrays fresh =>
      obtain ⟨found, merged, -, -, isMerged, rfl⟩ := mergeArray_eq stepped
      apply @storeMergeArray_keeps state.declared (fun next => next.props.hash.Points Live)
        _ _ _ _ _ _ _ points isMerged
      intro middle next isLive element isIn _ wrote
      exact writeAndFinish_points isLive (written _ (List.mem_map_of_mem isIn)) wrote
  | toHash connection hash fresh =>
      obtain ⟨_, _, _, _, -, -, rfl⟩ := toHash_eq stepped
      exact points
  | toOwnHash connection fresh =>
      obtain ⟨_, _, _, -, -, rfl⟩ := toOwnHash_eq stepped
      exact points
  | fullSync connection fresh =>
      obtain ⟨_, _, _, -, -, rfl⟩ := fullSync_eq stepped
      exact points
  | persist connection pointers =>
      obtain ⟨found, -, rfl⟩ := Option.map_eq_some_iff.mp stepped
      exact persistLocalProperties_points found.owner pointers points
  | finish connection =>
      obtain ⟨found, -, rfl⟩ := Option.map_eq_some_iff.mp stepped
      exact points
  | registry other =>
      obtain ⟨-, moved⟩ := Option.ite_none_right_eq_some.mp stepped
      obtain ⟨registry, -, rfl⟩ := Option.map_eq_some_iff.mp moved
      exact points
  | loadEnum thread className memberName =>
      cases stepped
      exact points

end Pthreads.Store
