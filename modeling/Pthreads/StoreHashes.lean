import Pthreads.StoreSteps

/-!
# The shared table of a store run

Whatever an operation does, the shared table changes by updates, removals and the
copying of strings into persistent memory, and it is emptied when the last
connection goes.  The next free element stays ahead of every integer key that is
not the largest.
-/

namespace Pthreads.Store

/-- The changes that operations make to the shared table. -/
inductive HashSteps (before : HashTable) : HashTable → Prop
  | refl : HashSteps before before
  | update {middle : HashTable} (earlier : HashSteps before middle) (key : Key)
      (storage : Storage) : HashSteps before (middle.update key storage)
  | delete {middle : HashTable} (earlier : HashSteps before middle) (key : Key) :
      HashSteps before (middle.delete key)
  | persist {middle : HashTable} (earlier : HashSteps before middle) (thread : Nat)
      (pointers : Key → Nat) :
      HashSteps before { middle with
        table := middle.table.mapValues fun key storage =>
          persistStorage thread (pointers key) storage }
  | emptied : HashSteps before HashTable.empty

/-- The same changes, with updates only under the keys that are allowed. -/
inductive TableSteps (allowed : Key → Prop) (before : HashTable) : HashTable → Prop
  | refl : TableSteps allowed before before
  | update {middle : HashTable} (earlier : TableSteps allowed before middle) {key : Key}
      (isAllowed : allowed key) (storage : Storage) :
      TableSteps allowed before (middle.update key storage)
  | delete {middle : HashTable} (earlier : TableSteps allowed before middle) (key : Key) :
      TableSteps allowed before (middle.delete key)
  | persist {middle : HashTable} (earlier : TableSteps allowed before middle) (thread : Nat)
      (pointers : Key → Nat) :
      TableSteps allowed before { middle with
        table := middle.table.mapValues fun key storage =>
          persistStorage thread (pointers key) storage }
  | emptied : TableSteps allowed before HashTable.empty

theorem TableSteps.hashSteps {allowed : Key → Prop} {before after : HashTable}
    (steps : TableSteps allowed before after) : HashSteps before after := by
  induction steps with
  | refl => exact .refl
  | update _ _ storage ih => exact ih.update _ storage
  | delete _ key ih => exact ih.delete key
  | persist _ thread pointers ih => exact ih.persist thread pointers
  | emptied => exact .emptied

/-- The keys under which an action may write. -/
def State.writtenKeys (state : State) : Action → List Key
  | .construct _ _ defaults _ => defaults.map fun element => coerce element.1.toZval
  | .write _ key _ _ _ => [(key.map coerce).getD (appendKey state.props)]
  | .mergeThreaded _ source _ _ => source.map Prod.fst
  | .mergeArray _ source _ _ _ => source.map fun element => coerce element.1.toZval
  | _ => []

section Operations

variable {allowed : Key → Prop} {before : HashTable} {registry : ObjectRegistry.Registry}
  {props : Props} {connection : Connection}

@[simp]
theorem bumpModcount_hash (bump : Bool) :
    (bumpModcount bump props connection).1.hash = props.hash := by
  cases bump <;> rfl

theorem storeWrite_hash {key : Option KeyZval} {value : Zval} {coerceArrays : Bool}
    {fresh : Fresh} {result : Written} (earlier : TableSteps allowed before props.hash)
    (wrote : storeWrite registry props connection key value coerceArrays fresh =
      some (some result))
    (isAllowed : allowed ((key.map coerce).getD (appendKey props))) :
    TableSteps allowed before result.props.hash := by
  obtain ⟨storage, -, -, member, after, -⟩ := storeWrite_eq wrote
  rw [after, bumpModcount_hash, member]
  exact earlier.update isAllowed storage

theorem storeDelete_hash (key : KeyZval) (earlier : TableSteps allowed before props.hash) :
    TableSteps allowed before (storeDelete props connection key).1.hash := by
  rcases storeDelete_cases props connection key with ⟨-, same⟩ |
    ⟨storage, _, -, rfl, same⟩
  · rw [same]
    exact earlier
  · rw [same, bumpModcount_hash]
    exact earlier.delete _

theorem takeElement_hash {enumCases : EnumCases} {fresh : Key → Fresh} {entry : Key × Storage}
    {removed : Removed} (earlier : TableSteps allowed before props.hash)
    (taken : takeElement enumCases registry props connection fresh entry = some removed) :
    TableSteps allowed before removed.props.hash := by
  obtain ⟨⟨restored, value⟩, -, rfl⟩ := Option.map_eq_some_iff.mp taken
  exact earlier.delete _

theorem takeFront_hash {enumCases : EnumCases} {fresh : Key → Fresh} {count : Nat}
    {removed : Removed} (earlier : TableSteps allowed before props.hash)
    (taken : takeFront enumCases registry props connection fresh count = some removed) :
    TableSteps allowed before removed.props.hash := by
  induction count generalizing registry props connection removed with
  | zero =>
      cases taken
      exact earlier
  | succ count ih =>
      rcases takeFront_succ_cases taken with ⟨-, rfl⟩ |
        ⟨entry, rest, first, later, -, tookFirst, tookRest, rfl⟩
      · exact earlier
      · have laterSteps := ih (takeElement_hash earlier tookFirst) tookRest
        exact laterSteps

@[simp]
theorem Removed.bump_hash (removed : Removed) : removed.bump.props.hash = removed.props.hash :=
  bumpModcount_hash _

theorem storeShift_hash {enumCases : EnumCases} {fresh : Key → Fresh} {removed : Removed}
    (earlier : TableSteps allowed before props.hash)
    (shifted : storeShift enumCases registry props connection fresh = some removed) :
    TableSteps allowed before removed.props.hash := by
  rcases storeShift_cases shifted with ⟨-, rfl⟩ | ⟨entry, taken, -, took, rfl⟩
  · exact earlier
  · rw [Removed.bump_hash]
    exact takeElement_hash earlier took

theorem storePop_hash {enumCases : EnumCases} {fresh : Key → Fresh} {removed : Removed}
    (earlier : TableSteps allowed before props.hash)
    (popped : storePop enumCases registry props connection fresh = some removed) :
    TableSteps allowed before removed.props.hash := by
  rcases storePop_cases popped with ⟨-, rfl⟩ | ⟨entry, taken, -, took, rfl⟩
  · exact earlier
  · rw [Removed.bump_hash]
    exact takeElement_hash earlier took

theorem storeChunk_hash {enumCases : EnumCases} {fresh : Key → Fresh} {size : Int}
    {removed : Removed} (earlier : TableSteps allowed before props.hash)
    (chunked : storeChunk enumCases registry props connection fresh size = some removed) :
    TableSteps allowed before removed.props.hash := by
  obtain ⟨taken, took, rfl⟩ := Option.map_eq_some_iff.mp chunked
  rw [Removed.bump_hash]
  exact takeFront_hash earlier took

theorem storeMergeThreaded_hash (source : List (Key × Storage)) (overwrite : Bool)
    (pointers : Key → Nat) (earlier : TableSteps allowed before props.hash)
    (areAllowed : ∀ entry ∈ source, allowed entry.1) :
    TableSteps allowed before
      (storeMergeThreaded props connection source overwrite pointers).props.hash := by
  have folded : ∀ merged : Merged, TableSteps allowed before merged.props.hash →
      TableSteps allowed before
        (source.foldl (mergeStorage overwrite pointers) merged).props.hash := by
    induction source with
    | nil => exact fun _ already => already
    | cons entry source ih =>
        intro merged already
        apply ih (fun entry isIn => areAllowed entry (List.mem_cons_of_mem _ isIn)) _
        unfold mergeStorage
        split
        · exact already
        · exact already.update (areAllowed entry List.mem_cons_self) _
  simp only [storeMergeThreaded, bumpModcount_hash]
  exact folded _ earlier

theorem writeAndFinish_hash {declared : List Key} {state result : WrittenAll} {key : KeyZval}
    {value : Zval} {coerceArrays : Bool} {fresh : Fresh}
    (earlier : TableSteps allowed before state.props.hash) (isAllowed : allowed (coerce key))
    (wrote : writeAndFinish declared state key value coerceArrays fresh = some (some result)) :
    TableSteps allowed before result.props.hash := by
  obtain ⟨outcome, stored, finished⟩ := Option.map_eq_some_iff.mp wrote
  obtain ⟨written, rfl, rfl⟩ := Option.map_eq_some_iff.mp finished
  exact storeWrite_hash earlier stored isAllowed

theorem storeMergeArray_hash {declared : List Key} {overwrite coerceArrays : Bool}
    {fresh : Key → Fresh} {source : List (Key × Zval)} {state result : WrittenAll}
    (earlier : TableSteps allowed before state.props.hash)
    (areAllowed : ∀ element ∈ source, allowed (coerce element.1.toZval))
    (merged : storeMergeArray declared overwrite coerceArrays fresh source state = some result) :
    TableSteps allowed before result.props.hash := by
  apply @storeMergeArray_keeps declared
    (fun next => TableSteps allowed before next.props.hash) _ _ _ _ _ _ _ earlier merged
  intro middle next steps element isIn _ wrote
  exact writeAndFinish_hash steps (areAllowed element isIn) wrote

theorem baseInit_hash {declared : List Key} {fresh : Key → Fresh}
    {defaults : List (Key × Zval)} {state result : WrittenAll}
    (earlier : TableSteps allowed before state.props.hash)
    (areAllowed : ∀ element ∈ defaults, allowed (coerce element.1.toZval))
    (built : baseInit declared fresh defaults state = some result) :
    TableSteps allowed before result.props.hash := by
  apply @baseInit_keeps declared (fun next => TableSteps allowed before next.props.hash) _ _ _ _ _
    earlier built
  intro middle next steps element isIn wrote
  exact writeAndFinish_hash steps (areAllowed element isIn) wrote

end Operations

/-- What a step does to the shared table. -/
theorem step_table {allowed : Key → Prop} {state after : State} {action : Action}
    (areAllowed : ∀ key ∈ state.writtenKeys action, allowed key)
    (stepped : step state action = some after) :
    TableSteps allowed state.props.hash after.props.hash := by
  cases action with
  | construct connection owner defaults fresh =>
      obtain ⟨-, -, built, isBuilt, rfl⟩ := construct_eq stepped
      exact baseInit_hash .refl (List.forall_mem_map.mp areAllowed) isBuilt
  | connect connection owner hasTable =>
      obtain ⟨-, -, rfl⟩ := connect_eq stepped
      exact .refl
  | disconnect connection pointers =>
      obtain ⟨found, -, rfl⟩ := Option.map_eq_some_iff.mp stepped
      rcases disconnect_cases state connection found pointers with ⟨-, emptied, -⟩ | ⟨-, kept⟩
      · rw [emptied]
        exact .emptied
      · rw [kept]
        exact .persist .refl _ _
  | read connection key type fresh =>
      obtain ⟨found, registry, updated, outcome, -, -, rfl⟩ := read_eq stepped
      exact .refl
  | write connection key value coerceArrays fresh =>
      obtain ⟨found, -, -, ⟨-, rfl⟩ | ⟨written, wrote, rfl⟩⟩ := write_eq stepped
      · exact .refl
      · exact storeWrite_hash .refl wrote (areAllowed _ List.mem_cons_self)
  | delete connection key =>
      obtain ⟨found, -, rfl⟩ := delete_eq stepped
      exact storeDelete_hash key .refl
  | shift connection fresh =>
      obtain ⟨found, removed, -, isRemoved, rfl⟩ := remove_eq stepped
      exact storeShift_hash .refl isRemoved
  | pop connection fresh =>
      obtain ⟨found, removed, -, isRemoved, rfl⟩ := remove_eq stepped
      exact storePop_hash .refl isRemoved
  | chunk connection size fresh =>
      obtain ⟨found, removed, -, isRemoved, rfl⟩ := remove_eq stepped
      exact storeChunk_hash .refl isRemoved
  | mergeThreaded connection source overwrite pointers =>
      obtain ⟨found, merged, -, rfl, rfl⟩ := mergeThreaded_eq stepped
      exact storeMergeThreaded_hash source overwrite pointers .refl
        (List.forall_mem_map.mp areAllowed)
  | mergeArray connection source overwrite coerceArrays fresh =>
      obtain ⟨found, merged, -, -, isMerged, rfl⟩ := mergeArray_eq stepped
      exact storeMergeArray_hash .refl (List.forall_mem_map.mp areAllowed) isMerged
  | toHash connection hash fresh =>
      obtain ⟨found, registry, updated, table, -, -, rfl⟩ := toHash_eq stepped
      exact .refl
  | toOwnHash connection fresh =>
      obtain ⟨found, registry, updated, -, -, rfl⟩ := toOwnHash_eq stepped
      exact .refl
  | fullSync connection fresh =>
      obtain ⟨found, registry, updated, -, -, rfl⟩ := fullSync_eq stepped
      exact .refl
  | persist connection pointers =>
      obtain ⟨found, -, rfl⟩ := Option.map_eq_some_iff.mp stepped
      exact .persist .refl _ _
  | finish connection =>
      obtain ⟨found, -, rfl⟩ := Option.map_eq_some_iff.mp stepped
      exact .refl
  | registry other =>
      obtain ⟨-, stepped⟩ := Option.ite_none_right_eq_some.mp stepped
      obtain ⟨registry, -, rfl⟩ := Option.map_eq_some_iff.mp stepped
      exact .refl
  | loadEnum thread className memberName =>
      cases stepped
      exact .refl

theorem step_hash {state after : State} {action : Action}
    (stepped : step state action = some after) :
    HashSteps state.props.hash after.props.hash := by
  have anyKey : ∀ key ∈ state.writtenKeys action, (fun _ => True : Key → Prop) key :=
    fun _ _ => trivial
  exact (step_table anyKey stepped).hashSteps

/-- The next free element is ahead of every integer key but the largest. -/
structure NextFree (hash : HashTable) : Prop where
  atMost : hash.nextFreeElement ≤ zendLongMax
  ahead : ∀ value, .long value ∈ hash.table.keys →
    value < hash.nextFreeElement ∨ zendLongMax ≤ value

theorem nextFree_empty : NextFree HashTable.empty := by
  refine ⟨by decide, fun value isIn => ?_⟩
  cases isIn

theorem NextFree.update {hash : HashTable} (nextFree : NextFree hash) (key : Key)
    (storage : Storage) : NextFree (hash.update key storage) ∧
      hash.nextFreeElement ≤ (hash.update key storage).nextFreeElement := by
  obtain ⟨atMost, ahead⟩ := nextFree
  cases key with
  | string bytes =>
      refine ⟨⟨atMost, fun value isIn => ?_⟩, Int.le_refl _⟩
      rcases OrderedTable.mem_map_place.mp isIn with isNew | old
      · cases isNew
      · exact ahead value old
  | long number =>
      have grows : hash.nextFreeElement ≤ (hash.update (.long number) storage).nextFreeElement := by
        simp only [HashTable.update]
        split
        · split <;> omega
        · exact Int.le_refl _
      have covers : number < (hash.update (.long number) storage).nextFreeElement ∨
          zendLongMax ≤ number := by
        simp only [HashTable.update]
        split
        · split <;> omega
        · omega
      refine ⟨⟨?_, fun value isIn => ?_⟩, grows⟩
      · simp only [HashTable.update]
        split
        · split <;> omega
        · exact atMost
      · rcases OrderedTable.mem_map_place.mp isIn with isNew | old
        · cases isNew
          exact covers
        · rcases ahead value old with below | largest
          · exact Or.inl (Int.lt_of_lt_of_le below grows)
          · exact Or.inr largest

theorem mapValues_keys {K V W : Type*} (table : OrderedTable K V) (change : K → V → W) :
    (table.mapValues change).keys = table.keys := by
  simp [OrderedTable.mapValues, OrderedTable.keys]

/-- The changes of the table keep the next free element ahead. -/
theorem HashSteps.nextFree {before after : HashTable} (steps : HashSteps before after)
    (nextFree : NextFree before) : NextFree after := by
  induction steps with
  | refl => exact nextFree
  | update _ key storage ih => exact (ih.update key storage).1
  | delete _ key ih =>
      refine ⟨ih.atMost, fun value isIn => ih.ahead value ?_⟩
      obtain ⟨entry, kept, isKey⟩ := List.mem_map.mp isIn
      exact List.mem_map.mpr ⟨entry, (List.mem_filter.mp kept).1, isKey⟩
  | persist _ thread pointers ih =>
      refine ⟨ih.atMost, fun value isIn => ih.ahead value ?_⟩
      rw [mapValues_keys] at isIn
      exact isIn
  | emptied => exact nextFree_empty

/-- The key of an append is none of those that the next free element is ahead of,
unless it is the largest. -/
theorem appendKey_notMem {props : Props} {keys : List Key}
    (atMost : props.hash.nextFreeElement ≤ zendLongMax)
    (ahead : ∀ value, .long value ∈ keys →
      value < props.hash.nextFreeElement ∨ zendLongMax ≤ value)
    (below : appendKey props ≠ .long zendLongMax) : appendKey props ∉ keys := by
  intro isIn
  unfold appendKey at below isIn
  have bounds : zendLongMin < 0 ∧ 0 < zendLongMax := by decide
  split at isIn
  · next unused =>
    have zeroAhead := ahead 0 isIn
    omega
  · next used =>
    rw [if_neg used] at below
    have isAhead := ahead _ isIn
    have notLargest : props.hash.nextFreeElement ≠ zendLongMax := fun equal => below (by rw [equal])
    omega

end Pthreads.Store
