import Pthreads.BucketTables
import Pthreads.GuardedRuns
import Pthreads.StoreValues

/-!
# Iterating over a table that changes

The iterator of a Threaded object keeps a bucket index of `ts_obj->props.hash` that
the table does not know of.  This file models `pthreads_store_reset`, `key`, `data`
and `forward` over the buckets of the table, while any thread writes and removes
elements in between.
-/

namespace Pthreads.StoreIteration

open BucketTables GuardedRuns Store

/-- How a Zend hash table lays out its buckets. -/
inductive Layout where
  | uninitialised
  /-- The bucket index is the key. -/
  | packed
  | mixed
deriving DecidableEq, Repr

/-- `ts_obj->props.hash`, with its buckets. -/
structure Buckets where
  slots : Slots Key Storage
  /-- `nTableSize`. -/
  tableSize : Nat
  layout : Layout
  distinct : ((live slots).map Prod.fst).Nodup

/-- The table that `pthreads_store_init` makes. -/
def storeInit : Buckets := ⟨[], 8, .uninitialised, List.nodup_nil⟩

def Buckets.keys (table : Buckets) : List Key := (live table.slots).map Prod.fst

/-- The elements as a table without buckets. -/
def Buckets.toTable (table : Buckets) : OrderedTable Key Storage :=
  ⟨live table.slots, table.distinct⟩

/-- The index of a key in a packed table. -/
def packedIndex : Key → Option Nat
  | .long value => if 0 ≤ value then some value.toNat else none
  | .string _ => none

/-- Where a new element goes. -/
inductive Placement where
  /-- Behind the last bucket, and behind some holes in a packed table. -/
  | append (holes tableSize : Nat) (layout : Layout)
  /-- Behind the last bucket of a table whose holes are squeezed out first. -/
  | rehash (tableSize : Nat)
deriving DecidableEq, Repr

/-- `ZEND_HASH_IF_FULL_DO_RESIZE`. -/
def ifFullDoResize (table : Buckets) : Placement :=
  let used := table.slots.length
  let elements := (live table.slots).length
  if used < table.tableSize then .append 0 table.tableSize .mixed
  else if elements + elements / 32 < used then .rehash table.tableSize
  else .rehash (table.tableSize * 2)

/-- A packed table that is turned into a mixed one for a key that it cannot hold.  For a
string `zend_hash_packed_to_hash` has squeezed out the holes before the table is tested
for being full. -/
def packedToHash (table : Buckets) (key : Key) : Placement :=
  let used :=
    match key with
    | .string _ => (live table.slots).length
    | .long _ => table.slots.length
  .rehash (if used < table.tableSize then table.tableSize else table.tableSize * 2)

/-- Where `zend_hash_update` and `zend_hash_index_update` put a key that is not there. -/
def placement (table : Buckets) (key : Key) : Placement :=
  match table.layout, packedIndex key with
  | .uninitialised, some index =>
      if index < table.tableSize then .append index table.tableSize .packed
      else .append 0 table.tableSize .mixed
  | .uninitialised, none => .append 0 table.tableSize .mixed
  | .packed, some index =>
      if index < table.slots.length then .rehash table.tableSize
      else if index < table.tableSize then
        .append (index - table.slots.length) table.tableSize .packed
      else if index / 2 < table.tableSize ∧ table.tableSize / 2 < (live table.slots).length then
        .append (index - table.slots.length) (table.tableSize * 2) .packed
      else packedToHash table key
  | .packed, none => packedToHash table key
  | .mixed, _ => ifFullDoResize table

/-- The buckets with a new element. -/
def Placement.slots (slots : Slots Key Storage) (entry : Key × Storage) :
    Placement → Slots Key Storage
  | .append holes _ _ => slots ++ List.replicate holes none ++ [some entry]
  | .rehash _ => compact slots ++ [some entry]

def Placement.tableSize : Placement → Nat
  | .append _ tableSize _ | .rehash tableSize => tableSize

def Placement.layout : Placement → Layout
  | .append _ _ layout => layout
  | .rehash _ => .mixed

/-- A value is replaced where it stands. -/
def replaceIn (key : Key) (storage : Storage) (slot : Option (Key × Storage)) :
    Option (Key × Storage) :=
  slot.map fun entry => if entry.1 = key then (key, storage) else entry

def eraseIn (key : Key) (slot : Option (Key × Storage)) : Option (Key × Storage) :=
  slot.filter fun entry => entry.1 ≠ key

theorem live_placement (slots : Slots Key Storage) (entry : Key × Storage)
    (placement : Placement) : live (placement.slots slots entry) = live slots ++ [entry] := by
  cases placement with
  | append holes tableSize layout => simp [Placement.slots]
  | rehash tableSize => simp [Placement.slots]

theorem live_replace (slots : Slots Key Storage) (key : Key) (storage : Storage) :
    live (slots.map (replaceIn key storage)) =
      (live slots).map fun entry => if entry.1 = key then (key, storage) else entry := by
  rw [live_map _ rfl]
  exact congrFun List.filterMap_eq_map (live slots)

theorem live_erase (slots : Slots Key Storage) (key : Key) :
    live (trim (slots.map (eraseIn key))) = (live slots).filter fun entry => entry.1 ≠ key := by
  rw [live_trim, live_map _ rfl]
  exact congrFun List.filterMap_eq_filter (live slots)

theorem keys_replace (entries : List (Key × Storage)) (key : Key) (storage : Storage) :
    (entries.map fun entry => if entry.1 = key then (key, storage) else entry).map Prod.fst =
      entries.map Prod.fst := by
  rw [List.map_map]
  apply List.map_congr_left
  intro entry _
  by_cases same : entry.1 = key <;> simp [same]

/-- `zend_hash_update` and `zend_hash_index_update`. -/
def write (table : Buckets) (key : Key) (storage : Storage) : Buckets :=
  if present : key ∈ table.keys then
    { table with
      slots := table.slots.map (replaceIn key storage)
      distinct := by
        rw [live_replace, keys_replace]
        exact table.distinct }
  else
    { slots := (placement table key).slots table.slots (key, storage)
      tableSize := (placement table key).tableSize
      layout := (placement table key).layout
      distinct := by
        rw [live_placement, List.map_append]
        exact List.nodup_append.mpr ⟨table.distinct, List.nodup_singleton _,
          fun other isIn _ isKey => by
            rw [List.mem_singleton.mp isKey]
            rintro rfl
            exact present isIn⟩ }

/-- `zend_hash_del` and `zend_hash_index_del`. -/
def remove (table : Buckets) (key : Key) : Buckets where
  slots := trim (table.slots.map (eraseIn key))
  tableSize := table.tableSize
  layout := table.layout
  distinct := by
    rw [live_erase]
    exact table.distinct.sublist (List.filter_sublist.map _)

/-- `pthreads_store_reset`; no position stands for `HT_INVALID_IDX`. -/
def storeReset (table : Buckets) : Option Nat :=
  let position := validPos table.slots 0
  if (current table.slots position).isSome then some position else none

/-- What `pthreads_store_key` reports, which is null if there is no element, and the key
that `pthreads_store_data` goes on to read. -/
def storeKey (table : Buckets) (position : Nat) : Option Key :=
  (current table.slots position).map Prod.fst

/-- `pthreads_store_forward`. -/
def storeForward (table : Buckets) (position : Nat) : Option Nat :=
  let next := moveForward table.slots position
  if (current table.slots next).isSome then some next else none

/-- An iteration under way, and the table that it goes through. -/
structure State where
  table : Buckets
  /-- The iterator's position; none is `HT_INVALID_IDX`. -/
  position : Option Nat
  /-- `pthreads_store_key` and `pthreads_store_data` have been called at the position. -/
  keyed : Bool
  given : Bool
  /-- The keys that `pthreads_store_key` has reported. -/
  keys : List Key
  /-- The keys of the elements that `pthreads_store_data` has given. -/
  data : List Key
  /-- The keys present from the start until now, never read by the program. -/
  lasting : List Key

/-- The iteration after `pthreads_store_reset`. -/
def start (table : Buckets) : State :=
  ⟨table, storeReset table, false, false, [], [], table.keys⟩

inductive Action where
  | key
  | data
  | forward
  /-- A write or a removal by any thread. -/
  | write (key : Key) (storage : Storage)
  | remove (key : Key)
deriving DecidableEq

def step (state : State) : Action → Option State
  | .key =>
      match state.position with
      | some position =>
          if state.keyed then none
          else some { state with
            keyed := true
            keys := state.keys ++ (storeKey state.table position).toList }
      | none => none
  | .data =>
      match state.position with
      | some position =>
          if state.given then none
          else some { state with
            given := true
            data := state.data ++ (storeKey state.table position).toList }
      | none => none
  | .forward =>
      match state.position with
      | some position =>
          if state.keyed ∧ state.given then
            some { state with
              position := storeForward state.table position
              keyed := false
              given := false }
          else none
      | none => none
  | .write key storage => some { state with table := write state.table key storage }
  | .remove key =>
      some { state with
        table := remove state.table key
        lasting := state.lasting.filter (· ≠ key) }

/-- The elements that still have to be reported, when what is reported at the position
has been or not. -/
def State.remaining (state : State) (reported : Bool) : List Key :=
  match state.position with
  | none => []
  | some position =>
      let keys := (rest state.table.slots position).map Prod.fst
      if reported then keys.tail else keys

/-- A write squeezes out the holes of the table. -/
def rehashes (table : Buckets) (key : Key) : Bool :=
  key ∉ table.keys &&
    match placement table key with
    | .rehash _ => true
    | .append _ _ _ => false

/-- The position has no hole before it, or nothing remains to be reported. -/
def State.survivesRehash (state : State) : Prop :=
  state.remaining (state.keyed && state.given) = [] ∨
    ∀ position, state.position = some position → NoHoleBefore state.table.slots position

/-- An element that has been reported is not removed while others follow it, and the
holes before the position are not squeezed out while something remains. -/
def Undisturbed (state : State) : Action → Prop
  | .write key _ => rehashes state.table key = true → state.survivesRehash
  | .remove key =>
      (state.keyed || state.given) = true → state.remaining true ≠ [] →
        ∀ position, state.position = some position → storeKey state.table position ≠ some key
  | .key | .data | .forward => True

/-- Every lasting key has been reported once, or it remains. -/
def Complete (state : State) : Prop :=
  ∀ key ∈ state.lasting,
    state.keys.count key + (state.remaining state.keyed).count key = 1 ∧
      state.data.count key + (state.remaining state.given).count key = 1

section Tables

variable {table : Buckets} {key : Key} {storage : Storage}

/-- The buckets refine the table in insertion order. -/
theorem write_toTable (table : Buckets) (key : Key) (storage : Storage) :
    (write table key storage).toTable.entries = (table.toTable.update key storage).entries := by
  simp only [Buckets.toTable, OrderedTable.update, write]
  split
  · next present => rw [live_replace, OrderedTable.place_of_mem _ table.distinct present]
  · next absent => rw [live_placement, OrderedTable.place_of_notMem _ absent]

theorem remove_toTable (table : Buckets) (key : Key) :
    (remove table key).toTable.entries = (table.toTable.delete key).entries :=
  live_erase table.slots key

theorem mem_keys_write {other : Key} :
    other ∈ (write table key storage).keys ↔ other = key ∨ other ∈ table.keys := by
  have same : (write table key storage).keys =
      ((table.toTable.update key storage).entries).map Prod.fst :=
    congrArg (List.map Prod.fst) (write_toTable table key storage)
  rw [same]
  exact OrderedTable.mem_map_place

theorem mem_keys_remove {other : Key} :
    other ∈ (remove table key).keys ↔ other ∈ table.keys ∧ other ≠ key := by
  have same : (remove table key).keys = ((table.toTable.delete key).entries).map Prod.fst :=
    congrArg (List.map Prod.fst) (remove_toTable table key)
  rw [same]
  simp [OrderedTable.delete, OrderedTable.filter, Buckets.keys, Buckets.toTable]

/-- Holes at the end change nothing. -/
theorem rest_append_holes (slots : Slots Key Storage) (holes position : Nat) :
    rest (slots ++ List.replicate holes none) position = rest slots position := by
  by_cases inside : position ≤ slots.length
  · rw [rest, List.drop_append_of_le_length inside, live_append, live_replicate_none,
      List.append_nil, rest]
  · have beyond : slots.drop position = [] := List.drop_eq_nil_of_le (by omega)
    rw [rest, List.drop_append, beyond, List.nil_append, List.drop_replicate, live_replicate_none,
      rest_eq_nil_of_length_le (by omega)]

/-- The keys that an iterator at a position has still before it. -/
def Buckets.keysFrom (table : Buckets) (position : Nat) : List Key :=
  (rest table.slots position).map Prod.fst

/-- The keys that are left to an iterator, none if it has no position. -/
def keysAt (table : Buckets) (position : Option Nat) : List Key :=
  position.elim [] table.keysFrom

theorem storeKey_eq (table : Buckets) (position : Nat) :
    storeKey table position = (table.keysFrom position).head? := by
  rw [storeKey, current_eq, Buckets.keysFrom, List.head?_map]

/-- An iterator that is reset or moved has a position if there is an element left. -/
theorem keysAt_of_current (table : Buckets) (position : Nat) :
    keysAt table (if (current table.slots position).isSome then some position else none) =
      table.keysFrom position := by
  split
  · rfl
  · next ended =>
    rw [current_eq, Option.not_isSome_iff_eq_none, List.head?_eq_none_iff] at ended
    rw [Buckets.keysFrom, ended]
    rfl

theorem keysAt_storeReset (table : Buckets) : keysAt table (storeReset table) = table.keys := by
  have all : table.keysFrom (validPos table.slots 0) = table.keys := by
    rw [Buckets.keysFrom, rest_validPos, rest_zero, Buckets.keys]
  exact (keysAt_of_current table _).trans all

theorem keysAt_storeForward (table : Buckets) (position : Nat) :
    keysAt table (storeForward table position) = (table.keysFrom position).tail := by
  have moved : table.keysFrom (moveForward table.slots position) =
      (table.keysFrom position).tail := by
    rw [Buckets.keysFrom, rest_moveForward, Buckets.keysFrom, List.map_tail]
  exact (keysAt_of_current table _).trans moved

theorem keysFrom_write_present (present : key ∈ table.keys) (position : Nat) :
    (write table key storage).keysFrom position = table.keysFrom position := by
  have placed : (write table key storage).slots = table.slots.map (replaceIn key storage) := by
    rw [write, dif_pos present]
  have replaced : rest (table.slots.map (replaceIn key storage)) position =
      (rest table.slots position).map fun entry =>
        if entry.1 = key then (key, storage) else entry := by
    rw [rest_map _ rfl]
    exact congrFun List.filterMap_eq_map _
  rw [Buckets.keysFrom, placed, replaced, keys_replace, Buckets.keysFrom]

/-- What a list of keys may gain at its end. -/
def Gains (key : Key) (before after : List Key) : Prop :=
  after = before ++ [key] ∨ before = [] ∧ after = []

theorem Gains.count {before after : List Key} (gains : Gains key before after) {other : Key}
    (different : other ≠ key) :
    after.count other = before.count other ∧ after.tail.count other = before.tail.count other := by
  rcases gains with rfl | ⟨rfl, rfl⟩
  · have unseen : [key].count other = 0 := by simp [Ne.symm different]
    cases before with
    | nil => simp [Ne.symm different]
    | cons first before => simp [List.count_append, unseen, List.count_cons]
  · exact ⟨rfl, rfl⟩

theorem keysFrom_append (slots : Slots Key Storage) (position : Nat) :
    Gains key ((rest slots position).map Prod.fst)
      ((rest (slots ++ [some (key, storage)]) position).map Prod.fst) := by
  rcases rest_append_some slots (key, storage) position with more | ⟨empty, still⟩
  · left
    rw [more, List.map_append]
    rfl
  · right
    rw [empty, still]
    exact ⟨rfl, rfl⟩

/-- A new key that does not squeeze holes out comes last. -/
theorem keysFrom_write_append (absent : key ∉ table.keys) (quiet : rehashes table key = false)
    (position : Nat) :
    Gains key (table.keysFrom position) ((write table key storage).keysFrom position) := by
  simp only [rehashes, absent, not_false_eq_true, decide_true, Bool.true_and] at quiet
  have placed : (write table key storage).slots =
      (placement table key).slots table.slots (key, storage) := by
    rw [write, dif_neg absent]
  rw [Buckets.keysFrom, Buckets.keysFrom, placed]
  split at quiet
  · cases quiet
  · next holes tableSize layout isPlaced =>
    rw [isPlaced, Placement.slots, ← rest_append_holes table.slots holes position]
    exact keysFrom_append _ position

/-- A new key that squeezes the holes out. -/
theorem keysFrom_write_rehash (rehashed : rehashes table key = true) (position : Nat) :
    Gains key ((rest (compact table.slots) position).map Prod.fst)
      ((write table key storage).keysFrom position) := by
  obtain ⟨absent, isRehash⟩ := Bool.and_eq_true_iff.mp rehashed
  have placed : (write table key storage).slots =
      (placement table key).slots table.slots (key, storage) := by
    rw [write, dif_neg (of_decide_eq_true absent)]
  rw [Buckets.keysFrom, placed]
  split at isRehash
  · next tableSize isPlaced =>
    rw [isPlaced, Placement.slots]
    exact keysFrom_append _ position
  · cases isRehash

theorem keysFrom_remove (table : Buckets) (key : Key) (position : Nat) :
    (remove table key).keysFrom position = (table.keysFrom position).filter (· ≠ key) := by
  have erased : rest (trim (table.slots.map (eraseIn key))) position =
      (rest table.slots position).filter fun entry => entry.1 ≠ key := by
    rw [rest_trim, rest_map _ rfl]
    exact congrFun List.filterMap_eq_filter _
  rw [Buckets.keysFrom, remove, erased, Buckets.keysFrom, List.filter_map]
  rfl

end Tables

section Remaining

variable {state after : State} {reported : Bool} {key other : Key} {storage : Storage}

/-- Every lasting key is present, and has been reported once or remains. -/
structure Sound (state : State) : Prop where
  present : ∀ key ∈ state.lasting, key ∈ state.table.keys
  complete : Complete state

theorem remaining_eq {position : Nat} (isAt : state.position = some position) :
    state.remaining reported =
      if reported then (state.table.keysFrom position).tail
      else state.table.keysFrom position := by
  simp only [State.remaining, isAt]
  rfl

theorem remaining_none (ended : state.position = none) : state.remaining reported = [] := by
  simp only [State.remaining, ended]

theorem remaining_eq_keysAt (state : State) (reported : Bool) :
    state.remaining reported =
      if reported then (keysAt state.table state.position).tail
      else keysAt state.table state.position := by
  cases isAt : state.position with
  | none =>
      rw [remaining_none isAt]
      cases reported <;> rfl
  | some position => exact remaining_eq isAt

/-- Reporting takes the first of the remaining keys. -/
theorem count_report (keys reportedKeys : List Key) (key : Key) :
    (reportedKeys ++ keys.head?.toList).count key + keys.tail.count key =
      reportedKeys.count key + keys.count key := by
  cases keys with
  | nil => simp
  | cons first later =>
      simp only [List.head?_cons, Option.toList_some, List.tail_cons, List.count_append,
        List.count_cons, List.count_nil]
      omega

/-- A change of the table that only adds a key at the end. -/
theorem remaining_count_of_gains (samePosition : after.position = state.position)
    (gains : ∀ position, state.position = some position →
      Gains key (state.table.keysFrom position) (after.table.keysFrom position))
    (different : other ≠ key) :
    (after.remaining reported).count other = (state.remaining reported).count other := by
  cases isAt : state.position with
  | none => rw [remaining_none isAt, remaining_none (samePosition.trans isAt)]
  | some position =>
      rw [remaining_eq isAt, remaining_eq (samePosition.trans isAt)]
      obtain ⟨all, tail⟩ := (gains position isAt).count different
      cases reported with
      | false => exact all
      | true => exact tail

theorem tail_eq_nil_of_append {first second : List Key} (empty : (first ++ second).tail = []) :
    second.tail = [] := by
  cases first with
  | nil => exact empty
  | cons head first =>
      rw [List.cons_append, List.tail_cons] at empty
      rw [(List.append_eq_nil_iff.mp empty).2, List.tail_nil]

/-- Squeezing holes out brings nothing back where nothing remains to be reported. -/
theorem rehash_count_of_nothing {position : Nat} (isAt : state.position = some position)
    (nothing : state.remaining (state.keyed && state.given) = [])
    (mode : reported = state.keyed ∨ reported = state.given)
    (rehashed : rehashes state.table key = true)
    (written : after.table = write state.table key storage)
    (samePosition : after.position = state.position) (different : other ≠ key) :
    (after.remaining reported).count other = (state.remaining reported).count other := by
  have gains := @keysFrom_write_rehash _ _ storage rehashed position
  rw [← written] at gains
  obtain ⟨all, tail⟩ := gains.count different
  obtain ⟨skipped, parts⟩ := rest_compact_suffix state.table.slots position
  have keyParts : state.table.keysFrom position = skipped.map Prod.fst ++
      (rest (compact state.table.slots) position).map Prod.fst := by
    rw [Buckets.keysFrom, parts, List.map_append]
  rw [remaining_eq isAt] at nothing
  rw [remaining_eq isAt, remaining_eq (samePosition.trans isAt)]
  cases both : state.keyed && state.given with
  | true =>
      rw [both, if_pos rfl] at nothing
      obtain ⟨keyed, given⟩ := Bool.and_eq_true_iff.mp both
      have isReported : reported = true := by
        rcases mode with rfl | rfl
        · exact keyed
        · exact given
      rw [isReported, if_pos rfl, if_pos rfl, tail, nothing,
        tail_eq_nil_of_append (keyParts ▸ nothing)]
  | false =>
      rw [both, if_neg (by decide)] at nothing
      rw [nothing] at keyParts
      rw [(List.append_eq_nil_iff.mp keyParts.symm).2] at all tail
      rw [nothing]
      cases reported with
      | false => exact all
      | true => exact tail

/-- Squeezing holes out skips what the position has left, unless there is no hole before
it. -/
theorem rehash_count (survives : state.survivesRehash)
    (mode : reported = state.keyed ∨ reported = state.given)
    (rehashed : rehashes state.table key = true)
    (written : after.table = write state.table key storage)
    (samePosition : after.position = state.position) (different : other ≠ key) :
    (after.remaining reported).count other = (state.remaining reported).count other := by
  rcases survives with nothing | noHoles
  · cases isAt : state.position with
    | none => rw [remaining_none isAt, remaining_none (samePosition.trans isAt)]
    | some position =>
        exact rehash_count_of_nothing isAt nothing mode rehashed written samePosition different
  · apply remaining_count_of_gains samePosition _ different
    intro position isAt
    have gains := @keysFrom_write_rehash _ _ storage rehashed position
    rw [rest_compact_of_noHoleBefore (noHoles position isAt)] at gains
    rw [written]
    exact gains

theorem write_count (present : other ∈ state.table.keys)
    (undisturbed : Undisturbed state (.write key storage))
    (mode : reported = state.keyed ∨ reported = state.given)
    (written : after.table = write state.table key storage)
    (samePosition : after.position = state.position) :
    (after.remaining reported).count other = (state.remaining reported).count other := by
  by_cases isThere : key ∈ state.table.keys
  · cases isAt : state.position with
    | none => rw [remaining_none isAt, remaining_none (samePosition.trans isAt)]
    | some position =>
        rw [remaining_eq isAt, remaining_eq (samePosition.trans isAt), written,
          keysFrom_write_present isThere]
  · have different : other ≠ key := by
      rintro rfl
      exact isThere present
    cases rehashed : rehashes state.table key with
    | true => exact rehash_count (undisturbed rehashed) mode rehashed written samePosition different
    | false =>
        apply remaining_count_of_gains samePosition _ different
        intro position _
        rw [written]
        exact keysFrom_write_append isThere rehashed position

theorem remove_count (undisturbed : Undisturbed state (.remove key))
    (mode : reported = state.keyed ∨ reported = state.given)
    (removed : after.table = remove state.table key)
    (samePosition : after.position = state.position) (different : other ≠ key) :
    (after.remaining reported).count other = (state.remaining reported).count other := by
  cases isAt : state.position with
  | none => rw [remaining_none isAt, remaining_none (samePosition.trans isAt)]
  | some position =>
      rw [remaining_eq isAt, remaining_eq (samePosition.trans isAt), removed, keysFrom_remove]
      have kept : ∀ keys : List Key, (keys.filter (· ≠ key)).count other = keys.count other := by
        intro keys
        exact List.count_filter (by simpa using different)
      cases isReported : reported with
      | false => exact kept _
      | true =>
          cases keys : state.table.keysFrom position with
          | nil => rfl
          | cons first later =>
              by_cases isFirst : first = key
              · -- the reported element goes, so nothing may follow it
                have someReported : (state.keyed || state.given) = true := by
                  rw [isReported] at mode
                  rcases mode with keyed | given
                  · rw [← keyed, Bool.true_or]
                  · rw [← given, Bool.or_true]
                have isCurrent : storeKey state.table position = some key := by
                  rw [storeKey_eq, keys, isFirst, List.head?_cons]
                have last : later = [] := by
                  by_contra others
                  have remains : state.remaining true ≠ [] := by
                    rw [remaining_eq isAt, keys]
                    exact others
                  exact undisturbed someReported remains position isAt isCurrent
                simp [last, isFirst]
              · rw [List.filter_cons_of_pos (by simpa using isFirst)]
                exact kept later

/-- The next position has before it what remained. -/
theorem forward_remaining {position : Nat} (isAt : state.position = some position) :
    state.remaining true = State.remaining { state with
      position := storeForward state.table position
      keyed := false
      given := false } false := by
  rw [remaining_eq isAt, remaining_eq_keysAt, if_pos rfl, if_neg (by decide)]
  exact (keysAt_storeForward state.table position).symm

/-- A key that remains is counted where it is reported. -/
theorem report_count {position : Nat} (isAt : state.position = some position)
    {reportedKeys : List Key} (first : ¬ reported = true)
    (once : reportedKeys.count key + (state.remaining reported).count key = 1)
    (sameTable : after.table = state.table) (samePosition : after.position = state.position) :
    (reportedKeys ++ (storeKey state.table position).toList).count key +
      (after.remaining true).count key = 1 := by
  rw [remaining_eq isAt, if_neg first] at once
  rw [remaining_eq (samePosition.trans isAt), if_pos rfl, sameTable, storeKey_eq, count_report]
  exact once

/-- One step keeps count. -/
theorem step_sound {action : Action} (sound : Sound state) (undisturbed : Undisturbed state action)
    (stepped : step state action = some after) : Sound after := by
  obtain ⟨present, complete⟩ := sound
  cases action with
  | key =>
      simp only [step] at stepped
      split at stepped
      · next position isAt =>
        obtain ⟨first, ⟨⟩⟩ := Option.ite_none_left_eq_some.mp stepped
        refine ⟨present, ?_⟩
        intro key isLasting
        obtain ⟨keys, data⟩ := complete key isLasting
        exact ⟨report_count isAt first keys rfl rfl, data⟩
      · cases stepped
  | data =>
      simp only [step] at stepped
      split at stepped
      · next position isAt =>
        obtain ⟨first, ⟨⟩⟩ := Option.ite_none_left_eq_some.mp stepped
        refine ⟨present, ?_⟩
        intro key isLasting
        obtain ⟨keys, data⟩ := complete key isLasting
        exact ⟨keys, report_count isAt first data rfl rfl⟩
      · cases stepped
  | forward =>
      simp only [step] at stepped
      split at stepped
      · next position isAt =>
        obtain ⟨⟨keyed, given⟩, ⟨⟩⟩ := Option.ite_none_right_eq_some.mp stepped
        refine ⟨present, ?_⟩
        intro key isLasting
        obtain ⟨keys, data⟩ := complete key isLasting
        rw [keyed, forward_remaining isAt] at keys
        rw [given, forward_remaining isAt] at data
        exact ⟨keys, data⟩
      · cases stepped
  | write key storage =>
      cases stepped
      refine ⟨fun other isLasting => mem_keys_write.mpr (Or.inr (present other isLasting)), ?_⟩
      intro other isLasting
      obtain ⟨keys, data⟩ := complete other isLasting
      have isThere := present other isLasting
      refine ⟨?_, ?_⟩
      · rw [← keys]
        exact congrArg _ (write_count isThere undisturbed (Or.inl rfl) rfl rfl)
      · rw [← data]
        exact congrArg _ (write_count isThere undisturbed (Or.inr rfl) rfl rfl)
  | remove key =>
      cases stepped
      refine ⟨?_, ?_⟩
      · intro other isLasting
        obtain ⟨wasLasting, different⟩ := List.mem_filter.mp isLasting
        exact mem_keys_remove.mpr ⟨present other wasLasting, of_decide_eq_true different⟩
      · intro other isLasting
        obtain ⟨wasLasting, isOther⟩ := List.mem_filter.mp isLasting
        have different := of_decide_eq_true isOther
        obtain ⟨keys, data⟩ := complete other wasLasting
        refine ⟨?_, ?_⟩
        · rw [← keys]
          exact congrArg _ (remove_count undisturbed (Or.inl rfl) rfl rfl different)
        · rw [← data]
          exact congrArg _ (remove_count undisturbed (Or.inr rfl) rfl rfl different)

theorem sound_start (table : Buckets) : Sound (start table) := by
  refine ⟨fun _ isKey => isKey, ?_⟩
  intro key isKey
  have once : table.keys.count key = 1 := List.count_eq_one_of_mem table.distinct isKey
  have remains : (start table).remaining false = table.keys := by
    rw [remaining_eq_keysAt, if_neg (by decide)]
    exact keysAt_storeReset table
  have counted : [].count key + ((start table).remaining false).count key = 1 := by
    rw [remains, once, List.count_nil]
  exact ⟨counted, counted⟩

theorem step_lasting {action : Action} (stepped : step state action = some after) :
    key ∈ after.lasting ↔ key ∈ state.lasting ∧ .remove key ≠ action := by
  cases action with
  | remove removed =>
      cases stepped
      simp [List.mem_filter]
  | write written storage =>
      cases stepped
      simp
  | key | data | forward =>
      simp only [step] at stepped
      split at stepped
      · split at stepped
        all_goals cases stepped
        all_goals simp
      · cases stepped

/-- The lasting keys are those present at the start that no step has removed. -/
theorem mem_lasting_iff {actions : List Action}
    (ran : execute step state actions = some after) :
    key ∈ after.lasting ↔ key ∈ state.lasting ∧ .remove key ∉ actions := by
  induction actions generalizing state with
  | nil =>
      cases ran
      simp
  | cons action actions ih =>
      simp only [execute] at ran
      cases stepped : step state action with
      | none => rw [stepped] at ran; cases ran
      | some next =>
          rw [stepped] at ran
          rw [ih ran, step_lasting stepped, List.mem_cons, not_or, and_assoc]

end Remaining

/-- In every run in which no reported element is removed while others follow it, and no
holes before the position are squeezed out while elements remain, each key present from
the start is reported once by the time the position is `HT_INVALID_IDX`, by
`pthreads_store_key` and by `pthreads_store_data`. -/
theorem iteration_complete {table : Buckets} {state : State}
    (reached : Reaches step Undisturbed (start table) state) (ended : state.position = none)
    {key : Key} (lasting : key ∈ state.lasting) :
    state.keys.count key = 1 ∧ state.data.count key = 1 := by
  have sound : Sound state :=
    reached.preserves (fun _ _ _ sound undisturbed stepped => step_sound sound undisturbed stepped)
      (sound_start table)
  obtain ⟨keys, data⟩ := sound.complete key lasting
  rw [remaining_none ended] at keys data
  exact ⟨keys, data⟩

instance NoHoleBefore.decidable (slots : Slots Key Storage) (position : Nat) :
    Decidable (NoHoleBefore slots position) :=
  inferInstanceAs (Decidable (∀ slot ∈ slots.take position, slot ≠ none))

/-- A condition on the position, if there is one. -/
def decidableAt (position : Option Nat) (holds : Nat → Prop) [DecidablePred holds] :
    Decidable (∀ index, position = some index → holds index) :=
  match position with
  | none => isTrue nofun
  | some index =>
      decidable_of_iff (holds index) ⟨fun isTrue _ same => Option.some.inj same ▸ isTrue,
        fun all => all index rfl⟩

instance (state : State) : Decidable state.survivesRehash :=
  have := decidableAt state.position (NoHoleBefore state.table.slots)
  inferInstanceAs (Decidable (_ ∨ _))

instance Undisturbed.decidable (state : State) : ∀ action, Decidable (Undisturbed state action)
  | .write _ _ => inferInstanceAs (Decidable (_ → _))
  | .remove key =>
      have := decidableAt state.position fun position => storeKey state.table position ≠ some key
      inferInstanceAs (Decidable (_ → _ → _))
  | .key | .data | .forward => isTrue trivial

/-- A table with string keys of one letter. -/
def letters (keys : List UInt8) : Buckets :=
  keys.foldl (fun table letter => write table (.string [letter]) .null) storeInit

/-- The first element is written again, and another is added at the end. -/
theorem iteration_complete_twoLetters :
    ∃ state, execute step (start (letters [97, 98]))
        [.key, .data, .write (.string [97]) (.long 1), .forward, .key, .write (.string [99]) .null,
          .data, .forward, .remove (.string [99]), .key, .data, .forward] = some state ∧
      state.keys.count (.string [97]) = 1 ∧ state.data.count (.string [97]) = 1 := by
  refine ⟨_, rfl, ?_⟩
  have admitted : Admits step Undisturbed (start (letters [97, 98]))
      [.key, .data, .write (.string [97]) (.long 1), .forward, .key, .write (.string [99]) .null,
        .data, .forward, .remove (.string [99]), .key, .data, .forward] := by decide
  exact iteration_complete (reaches_of_execute admitted rfl) rfl (by decide)

/-- The body of the loop removes the first of two elements. -/
theorem removedCurrent_skips :
    ¬ ∀ (table : Buckets) (state : State), Reaches step anyAction (start table) state →
      state.position = none → ∀ key ∈ state.lasting,
        state.keys.count key = 1 ∧ state.data.count key = 1 := by
  intro claim
  have once := claim (letters [97, 98]) _
    (@reaches_of_execute _ _ step _ [.key, .data, .remove (.string [97]), .forward] _ _
      (admits_anyAction _ _ _) rfl) rfl (.string [98]) (by decide)
  revert once
  decide

/-- The third of the elements is skipped when the hole before the second is squeezed out. -/
example : (execute step (start (remove (letters [97, 98, 99, 100, 101, 102, 103, 104])
    (.string [97]))) [.key, .data, .forward, .write (.string [105]) .null, .key]).map State.keys =
      some [.string [98], .string [100]] := by decide

/-- A full packed table with a hole has room for a string key when it is turned into a mixed
one. -/
example :
    let packed := (List.range 8).foldl (fun table index => write table (.long index) .null) storeInit
    let mixed := write (remove packed (.long 0)) (.string [97]) .null
    mixed.layout = .mixed ∧ mixed.tableSize = 8 ∧ mixed.slots.length = 8 := by decide

end Pthreads.StoreIteration
