import Pthreads.ModificationCounters

/-!
# No change is masked

A connection trusts its local table when the two counts are equal.  A new
connection, a modification through another connection and a copy of the shared
table into the local one each leave the connection strictly below, and only a sync
brings it back.
-/

namespace Pthreads.Store

open ObjectRegistry (Registry)
open GuardedRuns

/-! ### What a copy adds to the own table -/

/-- Unless something was noted as changed, the table is as it was. -/
structure Copied.Unchanged (copied after : Copied) : Prop where
  keeps : copied.changed = true → after.changed = true
  same : after.changed = false → after.table = copied.table

theorem Copied.Unchanged.refl (copied : Copied) : copied.Unchanged copied :=
  ⟨fun changed => changed, fun _ => rfl⟩

theorem Copied.Unchanged.trans {first second third : Copied}
    (earlier : first.Unchanged second) (later : second.Unchanged third) :
    first.Unchanged third := by
  refine ⟨fun changed => later.keeps (earlier.keeps changed), fun notChanged => ?_⟩
  have before : second.changed = false := by
    cases changed : second.changed with
    | false => rfl
    | true => exact absurd (later.keeps changed) (by simp [notChanged])
  exact (later.same notChanged).trans (earlier.same before)

theorem copyElement_unchanged {enumCases : EnumCases} {thread : Nat} {fresh : Key → Fresh}
    {copied after : Copied} {entry : Key × Storage}
    (done : copyElement enumCases thread none fresh copied entry = some after) :
    copied.Unchanged after := by
  unfold copyElement at done
  split at done
  · cases done
    exact .refl copied
  · obtain ⟨⟨restored, value⟩, -, rfl⟩ := Option.map_eq_some_iff.mp done
    refine ⟨fun _ => rfl, ?_⟩
    rintro ⟨⟩

theorem copyDeclared_unchanged (copied : Copied) (key : Key) :
    copied.Unchanged (copyDeclared copied key) := by
  unfold copyDeclared
  split
  · refine ⟨fun _ => rfl, ?_⟩
    rintro ⟨⟩
  · exact .refl copied

theorem foldlM_copyElement_unchanged {enumCases : EnumCases} {thread : Nat}
    {fresh : Key → Fresh} {entries : List (Key × Storage)} {copied after : Copied}
    (done : entries.foldlM (copyElement enumCases thread none fresh) copied = some after) :
    copied.Unchanged after := by
  induction entries generalizing copied with
  | nil =>
      cases done
      exact .refl _
  | cons entry entries ih =>
      rw [List.foldlM_cons] at done
      obtain ⟨next, first, rest⟩ := Option.bind_eq_some_iff.mp done
      exact (copyElement_unchanged first).trans (ih rest)

theorem foldl_copyDeclared_unchanged (declared : List Key) (copied : Copied) :
    copied.Unchanged (declared.foldl copyDeclared copied) := by
  induction declared generalizing copied with
  | nil => exact .refl copied
  | cons key declared ih => exact (copyDeclared_unchanged copied key).trans (ih _)

/-- If `pthreads_store_tohash` has put a value into the own table, the local count
is one below. -/
theorem storeToOwnHash_dropped {enumCases : EnumCases} {declared : List Key}
    {registry registry' : Registry} {props : Props} {connection updated : Connection}
    {fresh : Key → Fresh} {key : Key} {value : Zval}
    (copied : storeToOwnHash enumCases declared registry props connection fresh =
      some (registry', updated))
    (stands : updated.cached key = some value) (added : connection.cached key ≠ some value) :
    updated.localPropsModcount < props.modcount := by
  obtain ⟨_, filled, rfl, done, rfl, rfl⟩ := storeToOwnHash_eq copied
  have unchanged := (foldlM_copyElement_unchanged done).trans
    (foldl_copyDeclared_unchanged declared filled)
  cases changed : (declared.foldl copyDeclared filled).changed with
  | true =>
      simp only [if_true]
      omega
  | false =>
      refine absurd ?_ added
      have same := unchanged.same changed
      rw [← prepared_cached declared connection key]
      apply ((syncLocalProperties_synced registry props _).cached key value ?_).1
      rw [← initLocalProperties_cached declared _ key]
      simpa only [Connection.cached, Option.bind_some, same] using stands

/-! ### No change is masked -/

/-- What makes the local table of a connection untrustworthy: the connection is
new, another connection has bumped the count, or `pthreads_store_tohash` has put a
value into the table. -/
inductive Outdates (before : State) (moved : Move) (after : State) (connection : Nat) : Prop
  | opened (opens : moved.Opens connection)
  | modified (other : moved.actor ≠ some connection)
      (bumped : before.props.modcount < after.props.modcount)
  | filled (fresh : Key → Fresh) (found updated : Connection) (key : Key) (value : Zval)
      (copies : moved = .base (.toOwnHash connection fresh))
      (isThere : before.connections.find connection = some found)
      (isUpdated : after.connections.find connection = some updated)
      (stands : updated.cached key = some value) (added : found.cached key ≠ some value)

theorem strictlyBelow_of_outdates {before after : State} {moved : Move} {connection : Nat}
    (holds : before.CountsHold) (isMoved : move before moved = some after)
    (outdates : Outdates before moved after connection) : after.StrictlyBelow connection := by
  cases outdates with
  | opened opens => exact strictlyBelow_of_opens holds.nonneg opens isMoved
  | modified other bumped =>
      exact (move_countChange holds.nonneg isMoved).strictlyBelow_of_other holds other bumped
  | filled fresh found updated key value copies isThere isUpdated stands added =>
      subst copies
      obtain ⟨idle, registry, copiedTo, isIdle, copied, rfl⟩ := toOwnHash_eq isMoved
      obtain rfl : found = idle :=
        Option.some.inj (isThere.symm.trans (Option.filter_eq_some_iff.mp isIdle).1)
      simp only [State.after, OrderedTable.find_update_same, Option.some.injEq] at isUpdated
      subst isUpdated
      intro present isPresent
      simp only [State.after, OrderedTable.find_update_same, Option.some.injEq] at isPresent
      subst isPresent
      exact storeToOwnHash_dropped copied stands added

/-- Runs in which a connection does not sync. -/
def neverSyncs (connection : Nat) (state : State) (moved : Move) : Prop :=
  ¬ moved.Syncs state connection

theorem countsHold_of_reaches {declared : List Key} {state : State}
    (reached : Reaches move anyAction (initial declared) state) : state.CountsHold :=
  reached.preserves
    (fun _ _ _ holds _ isMoved => (move_countChange holds.nonneg isMoved).countsHold holds)
    (countsHold_initial declared)

/-- A connection that is strictly below stays so along every run in which it does
not sync. -/
theorem strictlyBelow_of_reaches {first last : State} {connection : Nat}
    (holds : first.CountsHold) (strict : first.StrictlyBelow connection)
    (reached : Reaches move (neverSyncs connection) first last) :
    last.StrictlyBelow connection := by
  have kept : last.CountsHold ∧ last.StrictlyBelow connection := by
    apply @Reaches.preserves _ _ _ _
      (fun state => state.CountsHold ∧ state.StrictlyBelow connection) _ _ _ reached
      ⟨holds, strict⟩
    rintro before moved after ⟨holds, strict⟩ notSynced isMoved
    have change := move_countChange holds.nonneg isMoved
    exact ⟨change.countsHold holds, change.strictlyBelow notSynced strict⟩
  exact kept.2

/-- In every run every local count lies between minus one and the shared count, and a
connection whose table has become untrustworthy stays strictly below until it syncs. -/
theorem counts_mask_no_change {declared : List Key} {state : State}
    (reached : Reaches move anyAction (initial declared) state) :
    (∀ connection found, state.connections.find connection = some found →
      -1 ≤ found.localPropsModcount ∧ found.localPropsModcount ≤ state.props.modcount) ∧
    ∀ moved after connection, move state moved = some after →
      Outdates state moved after connection →
        ∀ later, Reaches move (neverSyncs connection) after later →
          later.StrictlyBelow connection := by
  have holds := countsHold_of_reaches reached
  refine ⟨fun connection found isThere =>
    ⟨holds.bounded connection found isThere, holds.below connection found isThere⟩, ?_⟩
  intro moved after connection isMoved outdates later continued
  have change := move_countChange holds.nonneg isMoved
  exact strictlyBelow_of_reaches (change.countsHold holds)
    (strictlyBelow_of_outdates holds isMoved outdates) continued

/-- The allocators return nothing that matters. -/
def noPointers (_ : Key) : Fresh := ⟨0, 0, 0⟩

/-- A string that is not permanent. -/
def requestString (pointer : Nat) : Zval := .string ⟨pointer, [], false⟩

/-- A class with a private property `x` that has such a string as its default. -/
def classWithString (name : UInt8) (notStar : [name] ≠ [42]) :
    PropertyTables.ClassDeclaration where
  name := [name]
  properties := [⟨[120], .accPrivate, false, requestString 2, by simp, rfl⟩]
  distinct := List.nodup_singleton _
  notStar := notStar

/-- Thread 1 makes an object of a class without defaults and writes a string.  Thread 2
knows a class of the same name with the private property in each of three classes of its
line, connects to the object and reads the string. -/
def connectAndRead : List Move :=
  [.base (.construct 1 1 [] noPointers),
    .base (.write 1 (some (.long 0)) (requestString 1) false ⟨0, 0, 0⟩), .base (.finish 1),
    .connectOwn 2 2 [] [classWithString 65 (by decide), classWithString 66 (by decide),
      classWithString 67 (by decide)] ⟨0, 0, 0⟩,
    .base (.read 2 (.long 0) .read ⟨3, 0, 0⟩), .base (.finish 2)]

/-- Thread 1 overwrites the string. -/
def overwriteString : Move :=
  .base (.write 1 (some (.long 0)) (requestString 4) false ⟨0, 0, 0⟩)

/-- Thread 2 deletes an element through its connection. -/
def deleteOnly : List Move := [.base (.delete 2 (.long 0)), .base (.finish 2)]

/-- The deletion bumps the count as well, but does not take the local one along. -/
theorem counts_mask_no_change_connectAndRead :
    ∃ state after later, execute move (initial []) connectAndRead = some state ∧
      (∀ connection found, state.connections.find connection = some found →
        -1 ≤ found.localPropsModcount ∧ found.localPropsModcount ≤ state.props.modcount) ∧
      move state overwriteString = some after ∧ execute move after deleteOnly = some later ∧
      later.StrictlyBelow 2 ∧ after.props.modcount < later.props.modcount := by
  have admitted := admits_anyAction move (initial []) connectAndRead
  refine ⟨_, _, _, rfl, ?_, rfl, rfl, ?_, by decide⟩
  · exact (counts_mask_no_change (reaches_of_execute admitted rfl)).1
  · refine (counts_mask_no_change (reaches_of_execute admitted rfl)).2 overwriteString _ 2 rfl
      (.modified (by decide) (by decide)) _ ?_
    exact @reaches_of_execute _ _ move (neverSyncs 2) deleteOnly _ _ ⟨id, id, trivial⟩ rfl

end Pthreads.Store
