import Pthreads.StoreConditions

/-!
# The keys that an operation changes

The conditions on an action name the keys it replaces or removes from the state
before it.  Here each operation is shown to change exactly these.
-/

namespace Pthreads.Store

open ObjectRegistry

variable {declared : List Key} {placed : Nat → Prop} {enumCases : EnumCases}
  {registry : Registry} {props : Props} {connection : Connection}

theorem storeCreate_isSome (registry : Registry) (source other : Nat) :
    ∀ value : Zval, (storeCreate registry source value).isSome =
      (storeCreate registry other value).isSome
  | .reference target => storeCreate_isSome registry source other target
  | .indirect slot => storeCreate_isSome registry source other slot
  | .undef | .null | .bool _ | .long _ | .double _ | .string _ | .array _ | .threaded _ | .closure _
  | .socket _ _ | .enumCase _ _ | .object _ | .resource _ => rfl

theorem saveZval_isSome (registry : Registry) (source other : Nat) (value : Zval) :
    (saveZval registry source value).isSome = (saveZval registry other value).isSome := by
  cases value with
  | string string =>
      simp only [saveZval]
      split
      · rfl
      · exact storeCreate_isSome registry source other _
  | null | bool | long | double => rfl
  | _ => exact storeCreate_isSome registry source other _

/-- Whether a write stores its value does not depend on what the allocators
return. -/
theorem storeWrite_accepts {key : Option KeyZval} {value : Zval} {coerceArrays : Bool}
    {fresh : Fresh} {result : Option Written}
    (wrote : storeWrite registry props connection key value coerceArrays fresh = some result) :
    accepts registry coerceArrays value = result.isSome := by
  simp only [storeWrite, Option.bind_eq_bind, Option.bind_eq_some_iff] at wrote
  obtain ⟨⟨stored, write⟩, written, wrote⟩ := wrote
  have saved : (saveZval stored connection.owner write).isSome = result.isSome := by
    split at wrote
    · next isNone =>
      cases wrote
      rw [isNone]
      rfl
    · next storage isStorage =>
      cases wrote
      rw [isStorage]
      rfl
  unfold writtenValue at written
  split at written
  · next entries =>
    -- an array that is coerced becomes an object, which can be stored
    obtain ⟨-, rfl, zobjs⟩ := coerceArray_eq written
    rw [← saved]
    simp [accepts, saveZval, storeCreate, zobjs]
  · next notCoerced =>
    cases written
    rw [← saved, saveZval_isSome registry connection.owner 0]
    cases value with
    | array entries =>
        cases coerceArrays with
        | true => exact absurd rfl (notCoerced entries rfl)
        | false => rfl
    | _ => rfl

theorem saveZval_extends {registry' : Registry} (extended : Extends placed registry registry')
    (source : Nat) {value : Zval} (settled : SettledValue registry value) :
    (saveZval registry' source value).isSome = (saveZval registry source value).isSome := by
  have created : ∀ value : Zval, SettledValue registry value →
      (storeCreate registry' source value).isSome = (storeCreate registry source value).isSome := by
    intro value
    induction value using storeCreate.induct with
    | case1 slot ih => exact ih
    | case2 target ih => exact ih
    | case7 address =>
        intro settled
        obtain ⟨zobj, found, visible, constructed⟩ := settled address (by simp [refersTo])
        simp [storeCreate, found, extended.kept address zobj found visible constructed]
    | _ => intros; simp [storeCreate]
  cases value with
  | string string =>
      simp only [saveZval]
      split
      · rfl
      · exact created _ settled
  | null | bool | long | double => rfl
  | _ => exact created _ settled

theorem accepts_extends {registry' : Registry} (extended : Extends placed registry registry')
    (coerceArrays : Bool) {value : Zval} (settled : SettledValue registry value) :
    accepts registry' coerceArrays value = accepts registry coerceArrays value := by
  cases value with
  | array entries => rfl
  | _ => exact saveZval_extends extended 0 settled

theorem storeShift_keys {fresh : Key → Fresh} {removed : Removed}
    (shifted : storeShift enumCases registry props connection fresh = some removed) :
    removed.keys = props.hash.table.keys.take 1 := by
  rw [OrderedTable.keys, List.take_one, List.head?_map]
  rcases storeShift_cases shifted with ⟨vacant, rfl⟩ | ⟨entry, taken, isFirst, took, rfl⟩
  · rw [vacant]
    rfl
  · obtain ⟨_, -, rfl⟩ := Option.map_eq_some_iff.mp took
    rw [isFirst]
    rfl

theorem storePop_keys {fresh : Key → Fresh} {removed : Removed}
    (popped : storePop enumCases registry props connection fresh = some removed) :
    removed.keys = props.hash.table.keys.getLast?.toList := by
  rw [OrderedTable.keys, List.getLast?_map]
  rcases storePop_cases popped with ⟨vacant, rfl⟩ | ⟨entry, taken, isLast, took, rfl⟩
  · rw [vacant]
    rfl
  · obtain ⟨_, -, rfl⟩ := Option.map_eq_some_iff.mp took
    rw [isLast]
    rfl

theorem takeFront_keys {fresh : Key → Fresh} {count : Nat} {removed : Removed}
    (taken : takeFront enumCases registry props connection fresh count = some removed) :
    removed.keys = props.hash.table.keys.take count := by
  induction count generalizing registry props connection removed with
  | zero =>
      cases taken
      rfl
  | succ count ih =>
      rcases takeFront_succ_cases taken with ⟨entries, rfl⟩ |
        ⟨entry, rest, first, later, entries, isFirst, isLater, rfl⟩
      · simp [OrderedTable.keys, entries, Removed.keys]
      · obtain ⟨_, -, rfl⟩ := Option.map_eq_some_iff.mp isFirst
        have restKeys := ih isLater
        have tail : (props.hash.delete entry.1).table.keys = rest.map Prod.fst := by
          rw [OrderedTable.keys, delete_head entries]
        simp only [tail] at restKeys
        simp [OrderedTable.keys, entries, Removed.keys, ← restKeys]

theorem storeChunk_keys {fresh : Key → Fresh} {size : Int} {removed : Removed}
    (chunked : storeChunk enumCases registry props connection fresh size = some removed) :
    removed.keys = props.hash.table.keys.take size.toNat := by
  obtain ⟨taken, isTaken, rfl⟩ := Option.map_eq_some_iff.mp chunked
  have takenKeys := takeFront_keys isTaken
  exact takenKeys

/-- A table of storages is merged over those present at the start and those
written since. -/
theorem mem_foldl_mergeStorage (overwrite : Bool) (pointers : Key → Nat)
    (source : List (Key × Storage)) {merged : Merged} {present : Key → Bool}
    (invariant : ∀ key, (merged.props.hash.find key).isSome = true ↔
      present key = true ∨ key ∈ merged.written) (key : Key) :
    key ∈ (source.foldl (mergeStorage overwrite pointers) merged).written ↔
      key ∈ merged.written ∨
        key ∈ (source.map Prod.fst).filter fun key => overwrite || !present key := by
  induction source generalizing merged with
  | nil => simp
  | cons entry source ih =>
      rw [List.foldl_cons, mergeStorage]
      split
      · next skipped =>
        rw [ih invariant]
        have wasThere := (invariant entry.1).mp skipped.2
        by_cases same : entry.1 = key
        · subst same
          simp only [List.map_cons, List.filter_cons]
          split
          · next isTarget => simp_all
          · rfl
        · simp only [List.map_cons, List.filter_cons]
          split
          · simp [Ne.symm same]
          · rfl
      · next written =>
        rw [ih]
        · have isTarget : (overwrite || !present entry.1) = true := by
            by_contra notTarget
            simp only [Bool.or_eq_true, Bool.not_eq_true', not_or, Bool.not_eq_true,
              Bool.not_eq_false] at notTarget
            exact written ⟨by simp [notTarget.1], (invariant entry.1).mpr (Or.inl notTarget.2)⟩
          simp only [List.map_cons, List.filter_cons, isTarget, if_true, List.mem_append,
            List.mem_cons, List.not_mem_nil, or_assoc, false_or]
        · intro other
          rw [find_hash_update]
          by_cases same : other = entry.1
          · simp [same]
          · simp [same, invariant other]

theorem storeMergeThreaded_written (props : Props) (connection : Connection)
    (source : List (Key × Storage)) (overwrite : Bool) (pointers : Key → Nat) (key : Key) :
    key ∈ (storeMergeThreaded props connection source overwrite pointers).written ↔
      key ∈ (source.map Prod.fst).filter fun key =>
        overwrite || (props.hash.find key).isNone := by
  have start : ∀ key,
      ((⟨props, connection, false, []⟩ : Merged).props.hash.find key).isSome = true ↔
      (props.hash.find key).isSome = true ∨ key ∈ ([] : List Key) := by simp
  have written := mem_foldl_mergeStorage overwrite pointers source start key
  simpa [storeMergeThreaded] using written

/-- A coerced key is its own coercion. -/
theorem coerce_coerce (key : Key) : coerce (coerce key.toZval).toZval = coerce key.toZval := by
  cases key with
  | long value => rfl
  | string bytes =>
      cases numeric : handleNumeric bytes with
      | some value => simp [Key.toZval, coerce, numeric]
      | none => simp [Key.toZval, coerce, numeric]

/-- What one write of a sequence does to the keys. -/
theorem writeAndFinish_keys {state result : WrittenAll} {key : KeyZval} {value : Zval}
    {coerceArrays : Bool} {fresh : Fresh}
    (wrote : writeAndFinish declared state key value coerceArrays fresh = some (some result)) :
    result.written.map Prod.fst = state.written.map Prod.fst ++ [coerce key] ∧
      ∀ other, (result.props.hash.find other).isSome = true ↔
        other = coerce key ∨ (state.props.hash.find other).isSome = true := by
  obtain ⟨outcome, written, isResult⟩ := Option.map_eq_some_iff.mp wrote
  obtain ⟨one, rfl, rfl⟩ := Option.map_eq_some_iff.mp isResult
  obtain ⟨storage, -, -, isMember, propsEq, -⟩ := storeWrite_eq written
  have isKey : one.member = coerce key := isMember
  refine ⟨by simp [isKey], ?_⟩
  intro other
  have found : one.props.hash.find other =
      if other = one.member then some storage else state.props.hash.find other := by
    rw [propsEq, ← find_hash_update]
    unfold bumpModcount
    split <;> rfl
  rw [found, isKey]
  by_cases same : other = coerce key
  · simp [same]
  · simp [same]

theorem writeAndFinish_accepts {state : WrittenAll} {key : KeyZval} {value : Zval}
    {coerceArrays : Bool} {fresh : Fresh} {result : Option WrittenAll}
    (wrote : writeAndFinish declared state key value coerceArrays fresh = some result) :
    accepts state.registry coerceArrays value = result.isSome := by
  obtain ⟨outcome, written, rfl⟩ := Option.map_eq_some_iff.mp wrote
  rw [storeWrite_accepts written, Option.isSome_map]

/-- The elements of an array are written over those present at the start and those
written since. -/
theorem mem_storeMergeArray_written {overwrite coerceArrays : Bool} {fresh : Key → Fresh}
    {source : List (Key × Zval)} {state result : WrittenAll} (present : Key → Bool)
    (accepted : Zval → Bool)
    (ready : Ready placed state.registry state.props state.connection)
    (writable : WritableSource placed state.registry fresh source)
    (invariant : ∀ key, (state.props.hash.find key).isSome = true ↔
      present key = true ∨ key ∈ state.written.map Prod.fst)
    (coerced : ∀ key ∈ state.written.map Prod.fst, coerce key.toZval = key)
    (isAccepted : ∀ element ∈ source,
      accepts state.registry coerceArrays element.2 = accepted element.2)
    (merged : storeMergeArray declared overwrite coerceArrays fresh source state = some result)
    (key : Key) :
    key ∈ result.written.map Prod.fst ↔ key ∈ state.written.map Prod.fst ∨
      key ∈ (source.filter fun element => (overwrite || !present element.1) &&
        accepted element.2).map fun element => coerce element.1.toZval := by
  induction source generalizing state with
  | nil =>
      cases merged
      simp
  | cons element source ih =>
      obtain ⟨first, value⟩ := element
      have writableRest : WritableSource placed state.registry fresh source :=
        fun element isIn => writable element (List.mem_cons_of_mem _ isIn)
      have acceptedRest : ∀ element ∈ source,
          accepts state.registry coerceArrays element.2 = accepted element.2 :=
        fun element isIn => isAccepted element (List.mem_cons_of_mem _ isIn)
      simp only [storeMergeArray] at merged
      split at merged
      · next skipped =>
        rw [ih ready writableRest invariant coerced acceptedRest merged]
        have wasThere := (invariant first).mp skipped.2
        rw [List.filter_cons]
        split
        · next isTarget =>
          -- present only since the merge began, so it is a written key already
          have notPresent : present first = false := by
            simpa [skipped.1] using (Bool.and_eq_true_iff.mp isTarget).1
          have isWritten : first ∈ state.written.map Prod.fst := by
            simpa [notPresent] using wasThere
          rw [List.map_cons, List.mem_cons, coerced first isWritten]
          constructor
          · rintro (before | later)
            · exact Or.inl before
            · exact Or.inr (Or.inr later)
          · rintro (before | rfl | later)
            · exact Or.inl before
            · exact Or.inl isWritten
            · exact Or.inr later
        · rfl
      · next written =>
        simp only [Option.bind_eq_bind, Option.bind_eq_some_iff] at merged
        obtain ⟨outcome, wrote, merged⟩ := merged
        have isHead := isAccepted (first, value) List.mem_cons_self
        rw [writeAndFinish_accepts wrote] at isHead
        cases outcome with
        | none =>
            rw [ih ready writableRest invariant coerced acceptedRest merged]
            have refused : accepted value = false := isHead.symm
            rw [List.filter_cons_of_neg (by simp [refused])]
        | some one =>
            obtain ⟨isWritable, isPlaced⟩ := writable (first, value) List.mem_cons_self
            have writes : WritesEffect declared placed (fun _ => True) state one :=
              writeAndFinish_writes ready isWritable isPlaced wrote fun _ _ _ => trivial
            obtain ⟨added, -, -, effect⟩ := writes.effect
            obtain ⟨keys, found⟩ := writeAndFinish_keys wrote
            have isTarget : ((overwrite || !present first) && accepted value) = true := by
              have taken : accepted value = true := isHead.symm
              by_contra notTarget
              simp only [taken, Bool.and_true, Bool.or_eq_true, Bool.not_eq_true', not_or,
                Bool.not_eq_true, Bool.not_eq_false] at notTarget
              exact written ⟨by simp [notTarget.1], (invariant first).mpr (Or.inl notTarget.2)⟩
            rw [ih (writes.ready ready) ?_ ?_ ?_ ?_ merged]
            · rw [List.filter_cons, if_pos isTarget, keys]
              simp only [List.map_cons, List.mem_append, List.mem_cons, List.not_mem_nil, or_false,
                or_assoc]
            · intro element isIn
              obtain ⟨isWritable, isPlaced⟩ := writableRest element isIn
              exact ⟨effect.extended.writable isWritable, isPlaced⟩
            · intro other
              rw [found other, invariant other, keys, List.mem_append,
                List.mem_singleton]
              tauto
            · intro other isIn
              rw [keys, List.mem_append, List.mem_singleton] at isIn
              rcases isIn with before | rfl
              · exact coerced other before
              · exact coerce_coerce first
            · intro element isIn
              rw [← acceptedRest element isIn]
              exact accepts_extends effect.extended coerceArrays
                (writableRest element isIn).1.settled

end Pthreads.Store
