import Pthreads.StoreHashes

/-!
# Appending to the property store

An append computes its key from the next free element and then updates the table
under it, whether or not the key is there.  The next free element cannot pass the
largest integer, so this is safe for as long as the table has no element under
that integer.
-/

namespace Pthreads.Store

open GuardedRuns

/-- The next free element stays at the largest integer once that was a key. -/
def StaysLargest (hash : HashTable) : Prop :=
  .long zendLongMax ∈ hash.table.keys → hash.nextFreeElement = zendLongMax

theorem StaysLargest.update {hash : HashTable} (nextFree : NextFree hash)
    (stays : StaysLargest hash) (key : Key) (storage : Storage) :
    StaysLargest (hash.update key storage) := by
  obtain ⟨nextAfter, grows⟩ := nextFree.update key storage
  intro isIn
  have atMost := nextAfter.atMost
  rcases OrderedTable.mem_map_place.mp isIn with isNew | old
  · subst isNew
    simp only [HashTable.update, nextFree.atMost, if_true, Int.lt_irrefl, if_false]
  · have isLargest := stays old
    omega

theorem HashSteps.staysLargest {before after : HashTable} (steps : HashSteps before after)
    (nextFree : NextFree before) (stays : StaysLargest before) : StaysLargest after := by
  induction steps with
  | refl => exact stays
  | update earlier key storage ih => exact ih.update (earlier.nextFree nextFree) key storage
  | delete _ key ih =>
      intro isIn
      obtain ⟨entry, kept, isKey⟩ := List.mem_map.mp isIn
      exact ih (List.mem_map.mpr ⟨entry, (List.mem_filter.mp kept).1, isKey⟩)
  | persist _ thread pointers ih =>
      intro isIn
      rw [mapValues_keys] at isIn
      exact ih isIn
  | emptied => exact fun isIn => nomatch isIn

/-- The invariant of the table in every run. -/
structure KeysCounted (hash : HashTable) : Prop where
  nextFree : NextFree hash
  staysLargest : StaysLargest hash

theorem keysCounted_of_reaches {declared : List Key} {state : State}
    (reached : Reaches step anyAction (initial declared) state) :
    KeysCounted state.props.hash := by
  have keeps : ∀ before action after, KeysCounted before.props.hash → anyAction before action →
      step before action = some after → KeysCounted after.props.hash := by
    rintro before action after ⟨nextFree, staysLargest⟩ - stepped
    have steps := step_hash stepped
    exact ⟨steps.nextFree nextFree, steps.staysLargest nextFree staysLargest⟩
  exact reached.preserves keeps ⟨nextFree_empty, fun isIn => nomatch isIn⟩

/-- The key of the next append is absent exactly when the largest integer is. -/
theorem appendKey_absent_iff {props : Props} (counted : KeysCounted props.hash) :
    appendKey props ∉ props.hash.table.keys ↔ .long zendLongMax ∉ props.hash.table.keys := by
  constructor
  · intro absent isIn
    have isLargest : appendKey props = .long zendLongMax := by
      simp only [appendKey, counted.staysLargest isIn]
      rfl
    exact absent (isLargest ▸ isIn)
  · intro absent
    by_cases isLargest : appendKey props = .long zendLongMax
    · rw [isLargest]
      exact absent
    · exact appendKey_notMem counted.nextFree.atMost counted.nextFree.ahead isLargest

/-- What an append is to do to the table: the written element is new, and the
elements that were there are as they were. -/
structure AddsElement (before : HashTable) (owner : Nat) (written : Written) : Prop where
  absent : before.find written.member = none
  stored : ∃ storage, saveZval written.registry owner written.value = some storage ∧
    written.props.hash.find written.member = some storage
  unchanged : ∀ key storage, before.find key = some storage →
    written.props.hash.find key = some storage
  counted : written.props.hash.table.entries.length = before.table.entries.length + 1

/-- In every run, an append adds an element exactly when there is none under the
largest integer. -/
theorem append_adds_element_iff {declared : List Key} {state : State}
    (reached : Reaches step anyAction (initial declared) state) {connection : Connection}
    (value : Zval) (coerceArrays : Bool) (fresh : Fresh) {written : Written}
    (wrote : storeWrite state.registry state.props connection none value coerceArrays fresh =
      some (some written)) :
    AddsElement state.props.hash connection.owner written ↔
      state.props.hash.find (.long zendLongMax) = none := by
  obtain ⟨storage, -, saved, member, props, -⟩ := storeWrite_eq wrote
  simp only [Option.map_none, Option.getD_none] at member
  have hash : written.props.hash = state.props.hash.update (appendKey state.props) storage := by
    rw [props, bumpModcount_hash, member]
  have counted := keysCounted_of_reaches reached
  rw [HashTable.find, OrderedTable.find_eq_none_iff, ← appendKey_absent_iff counted]
  constructor
  · intro adds
    have absent := adds.absent
    rw [member] at absent
    exact OrderedTable.find_eq_none_iff.mp absent
  · intro absent
    refine ⟨?_, ⟨storage, saved, ?_⟩, ?_, ?_⟩
    · rw [member]
      exact OrderedTable.find_eq_none_iff.mpr absent
    · rw [member, hash]
      exact OrderedTable.find_update_same _ _ _
    · intro key other isThere
      have different : key ≠ appendKey state.props := by
        rintro rfl
        exact absent (List.mem_map_of_mem (OrderedTable.find_eq_some_iff.mp isThere))
      rw [hash]
      exact (OrderedTable.find_update_other _ storage different).trans isThere
    · rw [hash]
      simp only [HashTable.update, OrderedTable.entries_update_of_notMem storage absent,
        List.length_append, List.length_singleton]

/-- An element is written under a key, and another one is to be appended. -/
def writesUnder (key : Int) : List Action :=
  [.construct 1 1 [] (fun _ => ⟨0, 0, 0⟩),
    .write 1 (some (.long key)) (.long 5) false ⟨0, 0, 0⟩, .finish 1]

/-- After a negative key the append goes to the integer that follows it. -/
theorem append_adds_element_afterNegative :
    ∃ state connection written, execute step (initial []) (writesUnder (-5)) = some state ∧
      state.idle 1 = some connection ∧
      storeWrite state.registry state.props connection none (.long 6) false ⟨0, 0, 0⟩ =
        some (some written) ∧
      written.member = .long (-4) ∧ AddsElement state.props.hash connection.owner written := by
  refine ⟨_, _, _, rfl, rfl, rfl, rfl, ?_⟩
  have reached := reaches_of_execute
    (admits_anyAction step (initial []) (writesUnder (-5))) rfl
  refine (append_adds_element_iff reached (.long 6) false ⟨0, 0, 0⟩ ?_).mpr ?_
  · rfl
  · rfl

/-- After the largest integer key the append replaces the element under it. -/
theorem append_replaces_element_afterLargest :
    ∃ state connection written,
      execute step (initial []) (writesUnder zendLongMax) = some state ∧
      state.idle 1 = some connection ∧
      state.props.hash.table.entries = [(.long zendLongMax, .long 5)] ∧
      storeWrite state.registry state.props connection none (.long 6) false ⟨0, 0, 0⟩ =
        some (some written) ∧
      written.props.hash.table.entries = [(.long zendLongMax, .long 6)] ∧
      ¬ AddsElement state.props.hash connection.owner written := by
  refine ⟨_, _, _, rfl, rfl, rfl, rfl, rfl, ?_⟩
  intro adds
  cases adds.absent

end Pthreads.Store
