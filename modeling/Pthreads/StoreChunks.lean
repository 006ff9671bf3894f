import Pthreads.ModificationCounters
import Pthreads.StoreConversions

/-!
# Chunks as repeated shifts

`pthreads_store_chunk` removes elements from the front until its result has
enough of them, and bumps the modification count once at the end;
`pthreads_store_shift` removes one element and bumps the count for it.  No local
count is ever ahead of the shared one, so the two leave the same connections out
of sync.
-/

namespace Pthreads.Store

open ObjectRegistry (Registry Sound globalsObjectConnect globalsObjectValid
  globalsObjectConnect_succeeds globalsObjectConnect_sound globalsObjectConnect_tsObjs)
open GuardedRuns

theorem State.Behind.idle {state : State} (behind : state.Behind) {connection : Nat}
    {found : Connection} (idle : state.idle connection = some found) :
    found.localPropsModcount ≤ state.props.modcount :=
  behind.below connection found (Option.filter_eq_some_iff.mp idle).1

theorem step_behind {state after : State} {action : Action} (behind : state.Behind)
    (stepped : step state action = some after) : after.Behind :=
  (step_countChange behind.nonneg stepped).behind behind

theorem behind_of_reaches {declared : List Key} {state : State}
    (reached : Reaches step anyAction (initial declared) state) : state.Behind :=
  reached.preserves (fun _ _ _ behind _ stepped => step_behind behind stepped)
    ⟨le_rfl, nofun⟩

section Chunks

variable {enumCases : EnumCases} {fresh : Key → Fresh}

/-- What the loop of `pthreads_store_chunk` has done so far. -/
structure Chunking where
  registry : Registry
  props : Props
  connection : Connection
  /-- The array that is returned, with nothing for a value that was never written. -/
  chunk : OrderedTable Key (Option Zval)
  removedPthreadsObject : Bool

/-- The loop of `pthreads_store_chunk`.  Every round removes an element, so that
as many rounds as there are elements are enough. -/
def chunkLoop (enumCases : EnumCases) (fresh : Key → Fresh) (size : Int) :
    Nat → Chunking → Option Chunking
  | 0, chunking =>
      if (chunking.chunk.entries.length : Int) < size ∧
          (chunking.props.hash.table.entries.head?).isSome then none
      else some chunking
  | rounds + 1, chunking =>
      if (chunking.chunk.entries.length : Int) < size then
        match chunking.props.hash.table.entries.head? with
        | none => some chunking
        | some entry =>
            (restoreElement enumCases chunking.registry chunking.connection.owner (fresh entry.1)
              entry.2).bind fun restored =>
                chunkLoop enumCases fresh size rounds
                  { registry := restored.1
                    props := { chunking.props with hash := chunking.props.hash.delete entry.1 }
                    connection := evictLocalProperty chunking.connection entry.1
                    chunk := chunking.chunk.update entry.1 restored.2
                    removedPthreadsObject :=
                      chunking.removedPthreadsObject || storageIsCacheable entry.2 }
      else some chunking

/-- `pthreads_store_chunk`, which never looks at `preserve`. -/
def storeChunkArray (enumCases : EnumCases) (registry : Registry) (props : Props)
    (connection : Connection) (fresh : Key → Fresh) (size : Int) (_preserve : Bool) :
    Option Chunking :=
  (chunkLoop enumCases fresh size props.hash.table.entries.length
    ⟨registry, props, connection, OrderedTable.empty, false⟩).map fun chunking =>
      let (bumped, counted) :=
        bumpModcount chunking.removedPthreadsObject chunking.props chunking.connection
      { chunking with
        props := bumped
        connection := counted }

/-- Successive calls of `pthreads_store_shift`, with the values they return. -/
def storeShifts (enumCases : EnumCases) (registry : Registry) (props : Props)
    (connection : Connection) (fresh : Key → Fresh) : Nat → Option Removed
  | 0 => some ⟨registry, props, connection, [], false⟩
  | count + 1 => do
      let first ← storeShift enumCases registry props connection fresh
      let rest ← storeShifts enumCases first.registry first.props first.connection fresh count
      some { rest with
        values := first.values ++ rest.values
        cacheable := first.cacheable || rest.cacheable }

/-- The connections that would look for outdated entries in their local tables. -/
def State.outOfSync (state : State) : Set Nat :=
  { connection | ∃ found, state.connections.find connection = some found ∧
    found.localPropsModcount ≠ state.props.modcount }

/-- What calls of `pthreads_store_shift` return: the zval of the caller is null before
the call. -/
def Removed.returned (removed : Removed) : List (Key × Zval) :=
  removed.values.map fun element => (element.1, element.2.getD .null)

/-- A chunk and a sequence of shifts through one connection leave the same behind. -/
structure SameEffects (state : State) (connection : Nat) (chunked : Chunking)
    (shifted : Removed) : Prop where
  registry : chunked.registry = shifted.registry
  hash : chunked.props.hash = shifted.props.hash
  cache : chunked.connection.properties = shifted.connection.properties
  outOfSync :
    (state.after connection chunked.registry chunked.props chunked.connection []).outOfSync =
      (state.after connection shifted.registry shifted.props shifted.connection []).outOfSync

/-- They also return the same values. -/
structure SameRemoval (state : State) (connection : Nat) (chunked : Chunking)
    (shifted : Removed) : Prop extends SameEffects state connection chunked shifted where
  values : chunked.chunk.entries =
    shifted.returned.map fun element => (element.1, some element.2)

/-- The loop has added the removed elements to its result. -/
structure Fills (chunking result : Chunking) (removed : Removed) : Prop where
  registry : result.registry = removed.registry
  props : result.props = removed.props
  connection : result.connection = removed.connection
  values : result.chunk.entries = chunking.chunk.entries ++ removed.values
  cacheable : result.removedPthreadsObject =
    (chunking.removedPthreadsObject || removed.cacheable)

/-- The loop stops at the end of the table. -/
theorem chunkLoop_vacant (size : Int) (rounds : Nat) {chunking : Chunking}
    (vacant : chunking.props.hash.table.entries = []) :
    chunkLoop enumCases fresh size rounds chunking = some chunking := by
  cases rounds <;> simp [chunkLoop, vacant]

theorem takeFront_vacant {registry : Registry} {props : Props} {connection : Connection}
    (vacant : props.hash.table.entries = []) (count : Nat) :
    takeFront enumCases registry props connection fresh count =
      some ⟨registry, props, connection, [], false⟩ := by
  cases count <;> simp [takeFront, vacant]

theorem Fills.refl (chunking : Chunking) : Fills chunking chunking
    ⟨chunking.registry, chunking.props, chunking.connection, [], false⟩ :=
  ⟨rfl, rfl, rfl, (List.append_nil _).symm, (Bool.or_false _).symm⟩

theorem rel_map {Left Right First Second : Type*} {related : Left → Right → Prop}
    {implied : First → Second → Prop} {change : Left → First} {other : Right → Second}
    {first : Option Left} {second : Option Right} (rel : Option.Rel related first second)
    (implies : ∀ left right, related left right → implied (change left) (other right)) :
    Option.Rel implied (first.map change) (second.map other) := by
  cases rel with
  | some holds => exact .some (implies _ _ holds)
  | none => exact .none

/-- The loop after it has moved an element to its result. -/
def Chunking.take (chunking : Chunking) (entry : Key × Storage)
    (restored : Registry × Option Zval) : Chunking where
  registry := restored.1
  props := { chunking.props with hash := chunking.props.hash.delete entry.1 }
  connection := evictLocalProperty chunking.connection entry.1
  chunk := chunking.chunk.update entry.1 restored.2
  removedPthreadsObject := chunking.removedPthreadsObject || storageIsCacheable entry.2

theorem chunkLoop_cons {size : Int} {rounds : Nat} {chunking : Chunking} {entry : Key × Storage}
    {rest : List (Key × Storage)} (room : (chunking.chunk.entries.length : Int) < size)
    (entries : chunking.props.hash.table.entries = entry :: rest) :
    chunkLoop enumCases fresh size (rounds + 1) chunking =
      (restoreElement enumCases chunking.registry chunking.connection.owner (fresh entry.1)
        entry.2).bind fun restored =>
          chunkLoop enumCases fresh size rounds (chunking.take entry restored) := by
  rw [chunkLoop, if_pos room, entries]
  rfl

/-- What was removed, with one more element before it. -/
def Removed.before (removed : Removed) (entry : Key × Storage) (value : Option Zval) :
    Removed :=
  { removed with
    values := (entry.1, value) :: removed.values
    cacheable := storageIsCacheable entry.2 || removed.cacheable }

theorem takeFront_cons {registry : Registry} {props : Props} {connection : Connection}
    {entry : Key × Storage} {rest : List (Key × Storage)} (count : Nat)
    (entries : props.hash.table.entries = entry :: rest) :
    takeFront enumCases registry props connection fresh (count + 1) =
      (restoreElement enumCases registry connection.owner (fresh entry.1) entry.2).bind
        fun restored =>
          (takeFront enumCases restored.1 { props with hash := props.hash.delete entry.1 }
            (evictLocalProperty connection entry.1) fresh count).map fun removed =>
              removed.before entry restored.2 := by
  simp only [takeFront, entries, List.head?_cons, takeElement, Option.bind_eq_bind]
  cases restoreElement enumCases registry connection.owner (fresh entry.1) entry.2 with
  | none => rfl
  | some restored =>
      simp only [Option.map_some, Option.bind_some]
      cases takeFront enumCases restored.1 _ _ fresh count <;> rfl

/-- The rest of the loop fills what the first element has left. -/
theorem Fills.before {chunking result : Chunking} {removed : Removed} {entry : Key × Storage}
    {restored : Registry × Option Zval} (notYet : entry.1 ∉ chunking.chunk.keys)
    (fills : Fills (chunking.take entry restored) result removed) :
    Fills chunking result (removed.before entry restored.2) := by
  refine ⟨fills.registry, fills.props, fills.connection, ?_, ?_⟩
  · rw [fills.values, Chunking.take, OrderedTable.entries_update_of_notMem restored.2 notYet,
      List.append_assoc]
    rfl
  · rw [fills.cacheable, Chunking.take, Bool.or_assoc]
    rfl

/-- The loop takes elements from the front until the result is large enough. -/
theorem chunkLoop_fills (size : Int) {rounds : Nat} {chunking : Chunking}
    (enough : chunking.props.hash.table.entries.length ≤ rounds)
    (apart : ∀ key ∈ chunking.props.hash.table.keys, key ∉ chunking.chunk.keys) :
    Option.Rel (Fills chunking) (chunkLoop enumCases fresh size rounds chunking)
      (takeFront enumCases chunking.registry chunking.props chunking.connection fresh
        (size - chunking.chunk.entries.length).toNat) := by
  induction rounds generalizing chunking with
  | zero =>
      have vacant := List.eq_nil_of_length_eq_zero (Nat.le_zero.mp enough)
      rw [chunkLoop_vacant size 0 vacant, takeFront_vacant vacant]
      exact .some (Fills.refl chunking)
  | succ rounds ih =>
      by_cases room : (chunking.chunk.entries.length : Int) < size
      · obtain ⟨count, isCount⟩ : ∃ count, (size - chunking.chunk.entries.length).toNat =
            count + 1 := ⟨(size - chunking.chunk.entries.length - 1).toNat, by omega⟩
        cases entries : chunking.props.hash.table.entries with
        | nil =>
            rw [chunkLoop_vacant size _ entries, takeFront_vacant entries]
            exact .some (Fills.refl chunking)
        | cons entry rest =>
            have tail := delete_head entries
            have distinct := chunking.props.hash.table.distinct
            rw [entries, List.map_cons, List.nodup_cons] at distinct
            have keys : chunking.props.hash.table.keys = entry.1 :: rest.map Prod.fst := by
              rw [OrderedTable.keys, entries, List.map_cons]
            rw [keys, List.forall_mem_cons] at apart
            obtain ⟨notYet, apart⟩ := apart
            rw [isCount, chunkLoop_cons room entries, takeFront_cons count entries]
            cases restoreElement enumCases chunking.registry chunking.connection.owner
                (fresh entry.1) entry.2 with
            | none => exact .none
            | some restored =>
                have added := OrderedTable.entries_update_of_notMem restored.2 notYet
                have left : (size - (chunking.take entry restored).chunk.entries.length).toNat =
                    count := by
                  rw [Chunking.take, added, List.length_append, List.length_singleton]
                  omega
                have later := @ih (chunking.take entry restored) ?_ ?_
                · rw [left] at later
                  rw [Option.bind_some, Option.bind_some,
                    ← Option.map_id' (x := chunkLoop _ _ _ _ _)]
                  exact rel_map later fun _ _ fills => fills.before notYet
                · rw [Chunking.take, tail]
                  simpa [entries] using enough
                · intro key isIn
                  rw [Chunking.take, OrderedTable.keys, tail] at isIn
                  rw [Chunking.take, OrderedTable.keys, added, List.map_append, List.mem_append]
                  rintro (old | isNew)
                  · exact apart key isIn old
                  · cases List.mem_singleton.mp isNew
                    exact distinct.1 isIn
      · have isCount : (size - chunking.chunk.entries.length).toNat = 0 := by omega
        rw [isCount, chunkLoop, if_neg room]
        exact .some (Fills.refl chunking)

/-- Removing the same elements from the front with shifts: the count is bumped for
every cacheable one, and at least once if there is any. -/
structure Follows (props : Props) (connection : Connection) (shifted taken : Removed) : Prop where
  registry : shifted.registry = taken.registry
  hash : shifted.props.hash = taken.props.hash
  properties : shifted.connection.properties = taken.connection.properties
  owner : shifted.connection.owner = taken.connection.owner
  values : shifted.values = taken.values
  bumped : ∃ times : Nat, (times = 0 ↔ taken.cacheable = false) ∧
    BumpedBy times props connection shifted.props shifted.connection

theorem Follows.refl {registry : Registry} {props props' : Props}
    {connection connection' : Connection} (hash : props.hash = props'.hash)
    (properties : connection.properties = connection'.properties)
    (owner : connection.owner = connection'.owner) :
    Follows props connection ⟨registry, props, connection, [], false⟩
      ⟨registry, props', connection', [], false⟩ := by
  refine ⟨rfl, hash, properties, owner, rfl, 0, by simp, ?_⟩
  exact BumpedBy.refl props connection

/-- The state after one shift. -/
def afterShift (props : Props) (connection : Connection) (entry : Key × Storage) :
    Props × Connection :=
  bumpModcount (storageIsCacheable entry.2) { props with hash := props.hash.delete entry.1 }
    (evictLocalProperty connection entry.1)

theorem storeShifts_cons {registry : Registry} {props : Props} {connection : Connection}
    {entry : Key × Storage} {rest : List (Key × Storage)} (count : Nat)
    (entries : props.hash.table.entries = entry :: rest) :
    storeShifts enumCases registry props connection fresh (count + 1) =
      (restoreElement enumCases registry connection.owner (fresh entry.1) entry.2).bind
        fun restored =>
          (storeShifts enumCases restored.1 (afterShift props connection entry).1
            (afterShift props connection entry).2 fresh count).map fun removed =>
              removed.before entry restored.2 := by
  simp only [storeShifts, storeShift, entries, List.head?_cons, takeElement, Option.bind_eq_bind]
  cases restoreElement enumCases registry connection.owner (fresh entry.1) entry.2 with
  | none => rfl
  | some restored =>
      simp only [Option.map_some, Option.bind_some]
      change (storeShifts enumCases restored.1 (afterShift props connection entry).1
        (afterShift props connection entry).2 fresh count).bind _ = _
      cases storeShifts enumCases restored.1 _ _ fresh count <;> rfl

/-- One more shift before the others. -/
theorem Follows.before {props : Props} {connection : Connection} {entry : Key × Storage}
    {value : Option Zval} {others taken : Removed}
    (below : connection.localPropsModcount ≤ props.modcount)
    (follows : Follows (afterShift props connection entry).1 (afterShift props connection entry).2
      others taken) :
    Follows props connection (others.before entry value) (taken.before entry value) := by
  obtain ⟨times, none, more⟩ := follows.bumped
  have bumped := bumpModcount_bumpedBy (storageIsCacheable entry.2)
    { props with hash := props.hash.delete entry.1 } (evictLocalProperty connection entry.1)
  have total := bumped.trans more below
  refine ⟨follows.registry, follows.hash, follows.properties, follows.owner, ?_,
    (if storageIsCacheable entry.2 then 1 else 0) + times, ?_, ?_⟩
  · rw [Removed.before, follows.values]
    rfl
  · cases isCacheable : storageIsCacheable entry.2 <;> simp [Removed.before, isCacheable, none]
  · exact ⟨total.modcount, total.localModcount⟩

/-- Shifts remove what is taken from the front. -/
theorem storeShifts_follow {count : Nat} {registry : Registry} {props props' : Props}
    {connection connection' : Connection} (hash : props.hash = props'.hash)
    (properties : connection.properties = connection'.properties)
    (owner : connection.owner = connection'.owner)
    (below : connection.localPropsModcount ≤ props.modcount) :
    Option.Rel (Follows props connection)
      (storeShifts enumCases registry props connection fresh
        (min count props.hash.table.entries.length))
      (takeFront enumCases registry props' connection' fresh count) := by
  induction count generalizing registry props props' connection connection' with
  | zero =>
      rw [Nat.zero_min]
      exact .some (Follows.refl hash properties owner)
  | succ count ih =>
      cases entries : props.hash.table.entries with
      | nil =>
          rw [takeFront_vacant (by rw [← hash, entries]), List.length_nil, Nat.min_zero]
          exact .some (Follows.refl hash properties owner)
      | cons entry rest =>
          have tail := delete_head entries
          have facts := bumpModcount_bumped (storageIsCacheable entry.2)
            { props with hash := props.hash.delete entry.1 }
            (evictLocalProperty connection entry.1) below
          rw [List.length_cons, Nat.add_min_add_right, storeShifts_cons _ entries,
            takeFront_cons _ (hash ▸ entries), ← owner, ← hash]
          cases restoreElement enumCases registry connection.owner (fresh entry.1) entry.2 with
          | none => exact .none
          | some restored =>
              have later := @ih restored.1 (afterShift props connection entry).1
                { props' with hash := props.hash.delete entry.1 }
                (afterShift props connection entry).2 (evictLocalProperty connection' entry.1)
                facts.hash
                (facts.properties.trans (by simp only [evictLocalProperty, properties]))
                (facts.owner.trans owner) facts.counts
              have sameHash : (afterShift props connection entry).1.hash =
                  props.hash.delete entry.1 := facts.hash
              rw [sameHash, tail] at later
              exact rel_map later fun _ _ follows => follows.before below

/-- Which connections are out of sync does not depend on how often the count was
bumped, only on whether it was. -/
theorem outOfSync_of_bumpedBy {state : State} (behind : state.Behind) {connection : Nat}
    {found : Connection} (idle : state.idle connection = some found) {registry : Registry}
    {times : Nat} {props : Props} {updated : Connection}
    (bumped : BumpedBy times state.props found props updated) :
    (state.after connection registry props updated []).outOfSync =
      { other | ∃ keeper, state.connections.find other = some keeper ∧
        (keeper.localPropsModcount ≠ state.props.modcount ∨ other ≠ connection ∧ times ≠ 0) } := by
  obtain ⟨isThere, -⟩ := Option.filter_eq_some_iff.mp idle
  have below := behind.idle idle
  obtain ⟨isCount, isLocal⟩ := bumped
  ext other
  simp only [State.outOfSync, State.after, Set.mem_ofPred_eq, isCount]
  by_cases same : other = connection
  · subst same
    simp only [OrderedTable.find_update_same, isThere, Option.some.injEq, exists_eq_left', isLocal,
      ne_eq, not_true_eq_false, false_and, or_false]
    split
    · next inSync => simp [inSync]
    · omega
  · simp only [OrderedTable.find_update_other state.connections updated same, same, ne_eq,
      not_false_eq_true, true_and]
    apply exists_congr
    intro keeper
    apply and_congr_right
    intro present
    have keeperBelow := behind.below other keeper present
    omega

/-- One bump at the end and a bump for every cacheable element come to the same. -/
theorem sameEffects_of_bumps {state : State} (behind : state.Behind) {connection : Nat}
    {found : Connection} (idle : state.idle connection = some found) {chunking : Chunking}
    {taken shifted : Removed}
    (fills : Fills ⟨state.registry, state.props, found, OrderedTable.empty, false⟩ chunking taken)
    (sameCounts : taken.props.modcount = state.props.modcount ∧
      taken.connection.localPropsModcount = found.localPropsModcount)
    (follows : Follows state.props found shifted taken) :
    SameEffects state connection
      { chunking with
        props := (bumpModcount chunking.removedPthreadsObject chunking.props
          chunking.connection).1
        connection := (bumpModcount chunking.removedPthreadsObject chunking.props
          chunking.connection).2 } shifted := by
  obtain ⟨times, isNone, shiftBumped⟩ := follows.bumped
  obtain ⟨sameCount, sameLocal⟩ := sameCounts
  have flag : chunking.removedPthreadsObject = taken.cacheable := fills.cacheable
  have bumped := bumpModcount_bumpedBy taken.cacheable taken.props taken.connection
  have facts := bumpModcount_bumped taken.cacheable taken.props taken.connection
    (by rw [sameCount, sameLocal]; exact behind.idle idle)
  rw [flag, fills.props, fills.connection]
  have chunkBumped : BumpedBy (if taken.cacheable then 1 else 0) state.props found
      (bumpModcount taken.cacheable taken.props taken.connection).1
      (bumpModcount taken.cacheable taken.props taken.connection).2 := by
    refine ⟨?_, ?_⟩
    · rw [bumped.modcount, sameCount]
    · rw [bumped.localModcount, sameCount, sameLocal]
  refine ⟨fills.registry.trans follows.registry.symm, facts.hash.trans follows.hash.symm,
    facts.properties.trans follows.properties.symm, ?_⟩
  rw [outOfSync_of_bumpedBy behind idle chunkBumped, outOfSync_of_bumpedBy behind idle shiftBumped]
  ext other
  cases cacheable : taken.cacheable with
  | false => simp [isNone.mpr cacheable]
  | true =>
      have some : times ≠ 0 := fun none => by simp [isNone.mp none] at cacheable
      simp [some]

/-- A chunk and the shifts remove and restore the same elements. -/
theorem storeChunkArray_storeShifts {state : State} (behind : state.Behind) {connection : Nat}
    {found : Connection} (idle : state.idle connection = some found) (size : Int)
    (preserve : Bool) (fresh : Key → Fresh) :
    (takeFront state.enumCases state.registry state.props found fresh size.toNat = none ∧
        storeChunkArray state.enumCases state.registry state.props found fresh size preserve =
          none ∧
        storeShifts state.enumCases state.registry state.props found fresh
          (min size.toNat state.props.hash.table.entries.length) = none) ∨
      ∃ taken chunked shifted,
        takeFront state.enumCases state.registry state.props found fresh size.toNat =
          some taken ∧
        storeChunkArray state.enumCases state.registry state.props found fresh size preserve =
          some chunked ∧
        storeShifts state.enumCases state.registry state.props found fresh
          (min size.toNat state.props.hash.table.entries.length) = some shifted ∧
        chunked.chunk.entries = taken.values ∧ shifted.values = taken.values ∧
        SameEffects state connection chunked shifted := by
  have shifted := @storeShifts_follow state.enumCases fresh size.toNat state.registry state.props
    state.props found found rfl rfl rfl (behind.idle idle)
  have looped := @chunkLoop_fills state.enumCases fresh size state.props.hash.table.entries.length
    ⟨state.registry, state.props, found, OrderedTable.empty, false⟩ le_rfl nofun
  have whole : size - (OrderedTable.empty : OrderedTable Key (Option Zval)).entries.length =
      size := Int.sub_zero size
  simp only [whole] at looped
  unfold storeChunkArray
  revert shifted looped
  generalize chunkLoop state.enumCases fresh size _ _ = chunked
  generalize storeShifts state.enumCases state.registry state.props found fresh _ = removed
  generalize isTook : takeFront state.enumCases state.registry state.props found fresh
    size.toNat = took
  intro shifted looped
  cases looped with
  | none =>
      cases shifted with
      | none => exact Or.inl ⟨rfl, rfl, rfl⟩
  | some fills =>
      cases shifted with
      | some follows =>
          exact Or.inr ⟨_, _, _, rfl, rfl, rfl, fills.values, follows.values,
            sameEffects_of_bumps behind idle fills (takeFront_modcount isTook) follows⟩

theorem takeElement_written_iff {registry : Registry} {props : Props} {connection : Connection}
    {entry : Key × Storage} {removed : Removed}
    (taken : takeElement enumCases registry props connection fresh entry = some removed) :
    (∀ element ∈ removed.values, element.2.isSome = true) ↔
      unloadable enumCases connection.owner entry.2 = false := by
  obtain ⟨⟨restored, value⟩, isRestored, rfl⟩ := Option.map_eq_some_iff.mp taken
  rw [List.forall_mem_singleton]
  rcases restoreElement_cases isRestored with ⟨written, rfl, loadable, -⟩ | ⟨rfl, -, cannot⟩
  · simp [loadable]
  · simp [cannot]

/-- Every value is written if and only if the thread can load the enum cases. -/
theorem takeFront_written_iff {count : Nat} {registry : Registry} {props : Props}
    {connection : Connection} {removed : Removed}
    (taken : takeFront enumCases registry props connection fresh count = some removed) :
    (∀ element ∈ removed.values, element.2.isSome = true) ↔
      ∀ entry ∈ props.hash.table.entries.take count,
        unloadable enumCases connection.owner entry.2 = false := by
  induction count generalizing registry props connection removed with
  | zero =>
      cases taken
      simp
  | succ count ih =>
      rcases takeFront_succ_cases taken with ⟨entries, rfl⟩ |
        ⟨entry, rest, first, later, entries, isFirst, isLater, rfl⟩
      · simp [entries]
      · have one := takeElement_written_iff isFirst
        have others := ih isLater
        obtain ⟨left, owner⟩ := takeElement_left isFirst
        rw [left, delete_head entries, owner] at others
        rw [entries, List.take_succ_cons, List.forall_mem_cons, ← one, ← others]
        simp [or_imp, forall_and]

/-- An element that is accessible is restored or skipped. -/
theorem restoreElement_succeeds {registry : Registry} (sound : Sound registry) {one : Fresh}
    {storage : Storage} {thread : Nat} (accessible : Accessible registry one storage) :
    ∃ after value, restoreElement enumCases registry thread one storage = some (after, value) := by
  cases storage with
  | pthreads address =>
      obtain ⟨settled, available⟩ := accessible
      cases found : registry.zobjs address with
      | none =>
          have dead : ¬ globalsObjectValid registry address = true := by
            simp [globalsObjectValid, sound.table, found]
          refine ⟨registry, some .null, ?_⟩
          simp [restoreElement, unloadable, restoreZval, globalsObjectConnect, dead]
      | some zobj =>
          obtain ⟨tsObj, points⟩ := Option.isSome_iff_exists.mp (settled zobj found).2
          obtain ⟨after, object, connected⟩ :=
            globalsObjectConnect_succeeds sound thread available found points
          refine ⟨after, some (.threaded object), ?_⟩
          simp [restoreElement, unloadable, restoreZval, connected]
  | enumCase className memberName =>
      unfold restoreElement
      cases loads : enumCases thread className memberName with
      | true =>
          refine ⟨registry, some (.enumCase className memberName), ?_⟩
          simp [unloadable, loads, restoreZval]
      | false => exact ⟨registry, none, by simp [unloadable, loads]⟩
  | stringPtr string owner =>
      by_cases own : owner = thread
      · refine ⟨registry, some (.string string), ?_⟩
        simp [restoreElement, unloadable, restoreZval, own]
      · refine ⟨registry, some (.string (restoreString string one.pointer)), ?_⟩
        simp [restoreElement, unloadable, restoreZval, own]
  | _ => exact ⟨_, _, rfl⟩

/-- Restoring changes the objects only by a connection. -/
theorem restoreElement_registry {registry after : Registry} {one : Fresh} {storage : Storage}
    {thread : Nat} {value : Option Zval}
    (restored : restoreElement enumCases registry thread one storage = some (after, value)) :
    after = registry ∨ ∃ address object,
      globalsObjectConnect registry thread address one.newAddress one.newTs =
        some (after, object) := by
  rcases restoreElement_cases restored with ⟨written, -, -, isRestored⟩ | ⟨-, same, -⟩
  · cases storage with
    | pthreads address =>
        obtain ⟨⟨registry', object⟩, connected, equal⟩ := Option.map_eq_some_iff.mp isRestored
        cases object <;> cases equal <;> exact Or.inr ⟨address, _, connected⟩
    | enumCase className memberName =>
        obtain ⟨-, ⟨⟩⟩ := Option.ite_none_right_eq_some.mp isRestored
        exact Or.inl rfl
    | stringPtr string owner =>
        simp only [restoreZval] at isRestored
        split at isRestored <;> cases isRestored <;> exact Or.inl rfl
    | _ =>
        cases isRestored
        exact Or.inl rfl
  · exact Or.inl same

/-- Accessible elements are taken, however many there are. -/
theorem takeFront_succeeds {count : Nat} {registry : Registry} {props : Props}
    {connection : Connection} (sound : Sound registry)
    (supplied : Supplied registry fresh props.hash.table.entries) :
    ∃ removed, takeFront enumCases registry props connection fresh count = some removed := by
  induction count generalizing registry props connection with
  | zero => exact ⟨_, rfl⟩
  | succ count ih =>
      cases entries : props.hash.table.entries with
      | nil => exact ⟨_, takeFront_vacant entries _⟩
      | cons entry rest =>
          rw [entries] at supplied
          obtain ⟨others, apart⟩ := List.pairwise_cons.mp supplied.apart
          have restores : ∃ after value, restoreElement enumCases registry connection.owner
              (fresh entry.1) entry.2 = some (after, value) :=
            restoreElement_succeeds sound (supplied.accessible entry List.mem_cons_self)
          obtain ⟨after, value, restored⟩ := restores
          have left : ({ props with hash := props.hash.delete entry.1 } :
              Props).hash.table.entries = rest := delete_head entries
          have changes := restoreElement_registry restored
          have soundAfter : Sound after := by
            rcases changes with rfl | ⟨address, object, connected⟩
            · exact sound
            · exact globalsObjectConnect_sound sound connected
          have suppliedAfter : Supplied after fresh rest := by
            refine ⟨fun other isIn => ?_, apart⟩
            have accessible := supplied.accessible other (List.mem_cons_of_mem _ isIn)
            rcases changes with rfl | ⟨address, object, connected⟩
            · exact accessible
            · exact accessible.connected sound connected (others other isIn)
          have takes : ∃ removed, takeFront enumCases after
              { props with hash := props.hash.delete entry.1 }
              (evictLocalProperty connection entry.1) fresh count = some removed :=
            ih soundAfter (left ▸ suppliedAfter)
          obtain ⟨later, isLater⟩ := takes
          refine ⟨later.before entry value, ?_⟩
          rw [takeFront_cons count entries, restored, Option.bind_some, isLater]
          rfl

/-- A shift returns null where nothing was written. -/
theorem returned_eq_iff (removed : Removed) :
    removed.values = (removed.returned.map fun element => (element.1, some element.2)) ↔
      ∀ element ∈ removed.values, element.2.isSome = true := by
  rw [Removed.returned, List.map_map]
  constructor
  · intro same element isIn
    rw [same] at isIn
    obtain ⟨other, -, rfl⟩ := List.mem_map.mp isIn
    rfl
  · intro written
    have same : ∀ element ∈ removed.values,
        (element.1, some (element.2.getD .null)) = element := by
      intro element isIn
      obtain ⟨value, isSome⟩ := Option.isSome_iff_exists.mp (written element isIn)
      rw [isSome, Option.getD_some, ← isSome]
    exact ((List.map_congr_left same).trans (List.map_id' _)).symm

/-- A chunk is repeated shift if and only if the thread can load the enum cases among
the elements it takes: for every size, with either value of `preserve`, the two leave
the same behind, and what `pthreads_store_chunk` returns in place of the null of a
shift was never written. -/
theorem chunk_repeats_shift_iff {declared : List Key} {state : State}
    (reached : Reaches step anyAction (initial declared) state) {connection : Nat}
    {found : Connection} (idle : state.idle connection = some found) (size : Int)
    (preserve : Bool) (fresh : Key → Fresh) :
    Option.Rel (SameEffects state connection)
        (storeChunkArray state.enumCases state.registry state.props found fresh size preserve)
        (storeShifts state.enumCases state.registry state.props found fresh
          (min size.toNat state.props.hash.table.entries.length)) ∧
      (Sound state.registry → Supplied state.registry fresh state.props.hash.table.entries →
        (storeChunkArray state.enumCases state.registry state.props found fresh size
          preserve).isSome = true) ∧
      ∀ chunked shifted,
        storeChunkArray state.enumCases state.registry state.props found fresh size preserve =
          some chunked →
        storeShifts state.enumCases state.registry state.props found fresh
          (min size.toNat state.props.hash.table.entries.length) = some shifted →
        (SameRemoval state connection chunked shifted ↔
          ∀ entry ∈ state.props.hash.table.entries.take size.toNat,
            unloadable state.enumCases found.owner entry.2 = false) := by
  have behind := behind_of_reaches reached
  rcases storeChunkArray_storeShifts behind idle size preserve fresh with
      ⟨noneTaken, noChunk, noShifts⟩ |
      ⟨taken, chunked, shifted, isTaken, isChunked, isShifted, chunk, values, effects⟩
  · rw [noChunk, noShifts]
    refine ⟨.none, fun sound supplied => ?_, fun _ _ isChunked => ?_⟩
    · have succeeds : ∃ removed, takeFront state.enumCases state.registry state.props found fresh
          size.toNat = some removed := takeFront_succeeds sound supplied
      rw [noneTaken] at succeeds
      obtain ⟨_, ⟨⟩⟩ := succeeds
    · cases isChunked
  · rw [isChunked, isShifted]
    refine ⟨.some effects, fun _ _ => rfl, ?_⟩
    rintro _ _ ⟨⟩ ⟨⟩
    rw [← takeFront_written_iff isTaken, ← values, ← returned_eq_iff, values, ← chunk]
    exact ⟨fun same => same.values, fun same => ⟨effects, same⟩⟩

end Chunks

/-- Thread 1 writes a string and an integer. -/
def writeTwo : List Action :=
  [.construct 1 1 [] (fun _ => ⟨0, 0, 0⟩),
    .write 1 none (.string ⟨1, [97], false⟩) false ⟨0, 0, 0⟩, .finish 1,
    .write 1 (some (.string [107])) (.long 5) false ⟨0, 0, 0⟩, .finish 1]

def writtenTwo : State := (execute step (initial []) writeTwo).getD (initial [])

theorem chunk_repeats_shift_iff_writeTwo :
    ∃ found chunked shifted, execute step (initial []) writeTwo = some writtenTwo ∧
      writtenTwo.idle 1 = some found ∧ writtenTwo.props.hash.table.entries.length = 2 ∧
      storeChunkArray writtenTwo.enumCases writtenTwo.registry writtenTwo.props found
        (fun _ => ⟨0, 0, 0⟩) 5 true = some chunked ∧
      storeShifts writtenTwo.enumCases writtenTwo.registry writtenTwo.props found
        (fun _ => ⟨0, 0, 0⟩) (min (5 : Int).toNat writtenTwo.props.hash.table.entries.length) =
          some shifted ∧
      SameRemoval writtenTwo 1 chunked shifted := by
  refine ⟨_, _, _, rfl, rfl, rfl, rfl, rfl, ?_⟩
  have reached : Reaches step anyAction (initial []) writtenTwo :=
    reaches_of_execute (admits_anyAction step (initial []) writeTwo) rfl
  refine ((chunk_repeats_shift_iff reached rfl 5 true fun _ => ⟨0, 0, 0⟩).2.2 _ _ rfl rfl).mpr ?_
  decide

/-- Thread 1 writes an enum case that thread 2, which is connected, has not loaded. -/
def writeEnumCase : List Action :=
  [.construct 1 1 [] (fun _ => ⟨0, 0, 0⟩), .loadEnum 1 [83] [65],
    .write 1 none (.enumCase [83] [65]) false ⟨0, 0, 0⟩, .finish 1, .connect 2 2 false]

def writtenEnumCase : State := (execute step (initial []) writeEnumCase).getD (initial [])

/-- The chunk of thread 2 has a slot that was never written, where a shift gives null. -/
theorem chunk_keeps_unwritten :
    ∃ found chunked shifted,
      Reaches step anyAction (initial []) writtenEnumCase ∧
      writtenEnumCase.idle 2 = some found ∧
      storeChunkArray writtenEnumCase.enumCases writtenEnumCase.registry writtenEnumCase.props
        found (fun _ => ⟨0, 0, 0⟩) 1 true = some chunked ∧
      storeShifts writtenEnumCase.enumCases writtenEnumCase.registry writtenEnumCase.props found
        (fun _ => ⟨0, 0, 0⟩) (min (1 : Int).toNat writtenEnumCase.props.hash.table.entries.length) =
          some shifted ∧
      chunked.chunk.entries = [(.long 0, none)] ∧ shifted.returned = [(.long 0, .null)] ∧
      ¬ SameRemoval writtenEnumCase 2 chunked shifted := by
  have reached : Reaches step anyAction (initial []) writtenEnumCase :=
    reaches_of_execute (admits_anyAction step (initial []) writeEnumCase) rfl
  refine ⟨_, _, _, reached, rfl, rfl, rfl, rfl, rfl, ?_⟩
  have differ : ([(.long 0, none)] : List (Key × Option Zval)) ≠ [(.long 0, some .null)] := by
    simp
  exact fun same => differ same.values

end Pthreads.Store
