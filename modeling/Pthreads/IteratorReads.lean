import Pthreads.StoreIteration
import Pthreads.StoreKeys
import Pthreads.StoreReads

/-!
# The value at the position of an iterator

`pthreads_store_data` turns the key at the position back into a zval and reads it like
any other key.  Where there is no element the key is null, which is read as the empty
string.
-/

namespace Pthreads.Store

open BucketTables GuardedRuns ObjectRegistry StoreIteration

/-- `zend_hash_get_current_key_zval_ex`: null, with its string form, if there is no
element. -/
def currentKeyZval (table : Buckets) (position : Nat) : KeyZval :=
  ((storeKey table position).map Key.toZval).getD (.other [])

/-- `pthreads_store_data`. -/
def State.storeData (state : State) (connection : Nat) (table : Buckets) (position : Nat)
    (fresh : Fresh) : Option (State × ReadOutcome) :=
  state.readThrough connection (currentKeyZval table position) .read fresh

/-- The buckets hold the elements of the store. -/
def State.HasBuckets (state : State) (table : Buckets) : Prop :=
  table.toTable.entries = state.props.hash.table.entries

/-- `pthreads_store_data` yields what is stored in the bucket whose key
`pthreads_store_key` reports, and nothing if it reports null. -/
def State.DataMatchesKey (state : State) (connection : Nat) (table : Buckets) (position : Nat)
    (fresh : Fresh) : Prop :=
  ∃ after value, state.storeData connection table position fresh =
      some (after, Option.elim value .undefined .value) ∧
    value.map (Zval.meaning after.registry) =
      (current table.slots position).map fun entry => entry.2.meaning state.registry

/-- The key at the position survives coercion, or leads to an element that stands for
the same; where there is no element, none is stored under the empty string. -/
def State.KeySurvives (state : State) (table : Buckets) (position : Nat) : Prop :=
  match current table.slots position with
  | some (key, storage) => key.Canonical ∨
      (state.props.hash.find (coerce key.toZval)).map (Storage.meaning state.registry) =
        some (storage.meaning state.registry)
  | none => state.props.hash.find (.string []) = none

/-- The action stays clear of the gaps of the caches, for every connection. -/
def TrustworthyForAll (state : State) (action : Action) : Prop :=
  Trustworthy false state action ∧ Trustworthy true state action

section Positions

variable {declared : List Key} {state : State} {connection : Nat} {found : Connection}
  {table : Buckets} {position : Nat} {fresh : Fresh}

/-- A read shows what is stored under the member it is about, in every state of a run that
stays clear of the gaps. -/
theorem readThrough_shows_all
    (reached : Reaches step TrustworthyForAll (initial declared) state)
    (idle : state.idle connection = some found) {key : KeyZval}
    (kept : state.handlesKept (.read connection key .read fresh) = true)
    (restorable : ∀ storage, state.props.hash.find (coerce key) = some storage →
      Restorable state.enumCases state.registry found.owner fresh storage) :
    ∃ after value, state.readThrough connection key .read fresh =
        some (after, Option.elim value .undefined .value) ∧
      Shows state after (coerce key) value := by
  obtain ⟨grounded, coherentOthers, -⟩ := trusted_of_reaches
    (reached.weaken fun _ _ both => both.1)
  obtain ⟨-, coherentOwn, -⟩ := trusted_of_reaches (reached.weaken fun _ _ both => both.2)
  cases concerned :
      (state.modified (coerce key)).any (fun last => last.connection = connection) with
  | true => exact readThrough_shows grounded coherentOwn idle concerned kept restorable
  | false => exact readThrough_shows grounded coherentOthers idle concerned kept restorable

/-- The element at a position is in the table. -/
theorem find_of_current (holds : state.HasBuckets table) {entry : Key × Storage}
    (isCurrent : current table.slots position = some entry) :
    state.props.hash.find entry.1 = some entry.2 := by
  rw [current_eq] at isCurrent
  have isIn := (rest_sublist table.slots position).subset (List.mem_of_head? isCurrent)
  have entries : live table.slots = state.props.hash.table.entries := holds
  rw [entries] at isIn
  exact OrderedTable.find_eq_some_iff.mpr isIn

theorem keySurvives_iff (holds : state.HasBuckets table) :
    state.KeySurvives table position ↔
      (state.props.hash.find (coerce (currentKeyZval table position))).map
          (Storage.meaning state.registry) =
        (current table.slots position).map fun entry => entry.2.meaning state.registry := by
  unfold State.KeySurvives currentKeyZval storeKey
  cases isCurrent : current table.slots position with
  | none =>
      simp only [Option.map_none, Option.getD_none, coerce, Option.map_eq_none_iff]
  | some entry =>
      have isStored := find_of_current holds isCurrent
      simp only [Option.map_some, Option.getD_some]
      constructor
      · rintro (canonical | same)
        · rw [canonical, isStored, Option.map_some]
        · exact same
      · exact Or.inr

end Positions

/-- In every run that stays clear of the gaps of the caches, at every position, the value
matches the key if and only if the key survives coercion, or leads to an element that
stands for the same, or there is no key and no element is stored under the empty string. -/
theorem data_matches_key_iff {declared : List Key} {state : State}
    (reached : Reaches step TrustworthyForAll (initial declared) state) {connection : Nat}
    {found : Connection} (idle : state.idle connection = some found) {table : Buckets}
    (holds : state.HasBuckets table) {position : Nat} {fresh : Fresh}
    (kept : state.handlesKept
      (.read connection (currentKeyZval table position) .read fresh) = true)
    (restorable : ∀ storage,
      state.props.hash.find (coerce (currentKeyZval table position)) = some storage →
        Restorable state.enumCases state.registry found.owner fresh storage) :
    state.DataMatchesKey connection table position fresh ↔ state.KeySurvives table position := by
  obtain ⟨after, value, read, shows⟩ := readThrough_shows_all reached idle kept restorable
  rw [keySurvives_iff holds, ← shows]
  constructor
  · rintro ⟨other, otherValue, otherRead, same⟩
    rw [State.storeData, read] at otherRead
    cases value with
    | none =>
        cases otherValue with
        | none => cases otherRead; exact same
        | some otherValue => cases otherRead
    | some value =>
        cases otherValue with
        | none => cases otherRead
        | some otherValue => cases otherRead; exact same
  · intro same
    exact ⟨after, value, read, same⟩

/-- Thread 1 stores a value under the empty string and one under 'x'. -/
def emptyKeyFirst : List Action :=
  [.construct 1 1 [] (fun _ => noFresh), .write 1 (some (.string [])) (.long 5) false noFresh,
    .finish 1, .write 1 (some (.string [120])) (.long 6) false noFresh, .finish 1]

/-- The buckets after these writes. -/
def emptyKeyBuckets : Buckets :=
  StoreIteration.write (StoreIteration.write StoreIteration.storeInit (.string []) (.long 5))
    (.string [120]) (.long 6)

instance (state : State) (action : Action) : Decidable (TrustworthyForAll state action) :=
  inferInstanceAs (Decidable (_ ∧ _))

theorem data_matches_key_iff_emptyKeyFirst :
    ∃ state, execute step (initial []) emptyKeyFirst = some state ∧
      (storeKey emptyKeyBuckets 1) = some (.string [120]) ∧
      state.DataMatchesKey 1 emptyKeyBuckets 1 noFresh := by
  refine ⟨_, rfl, rfl, ?_⟩
  have admitted : Admits step TrustworthyForAll (initial []) emptyKeyFirst := by decide
  apply (@data_matches_key_iff _ _ (reaches_of_execute admitted rfl) _ _ rfl emptyKeyBuckets rfl
    1 noFresh rfl ?_).mpr
  · exact Or.inl rfl
  · rintro storage ⟨⟩
    trivial

/-- At the position of 'x' after its removal the key is null, and the value that of the
empty string. -/
theorem exhausted_readsEmptyKey :
    ¬ ∀ (state : State) (connection : Nat) (found : Connection) (table : Buckets)
        (position : Nat) (fresh : Fresh), Reaches step anyAction (initial []) state →
      state.idle connection = some found → state.HasBuckets table →
        state.DataMatchesKey connection table position fresh := by
  intro claim
  have ran : execute step (initial []) (emptyKeyFirst ++ [.delete 1 (.string [120]), .finish 1]) =
      some _ := rfl
  obtain ⟨after, value, read, same⟩ := claim _ 1 _ (StoreIteration.remove emptyKeyBuckets
    (.string [120])) 1 noFresh (reaches_of_execute (admits_anyAction _ _ _) ran) rfl rfl
  cases value with
  | none => cases read
  | some value => cases same

end Pthreads.Store
