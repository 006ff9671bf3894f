import Pthreads.StoreMemory

/-!
# What connections see of each other's writes, and of their own

The two guarantees of the property store, for every run that stays clear of the
gaps, and the shortest runs that fall into them.
-/

namespace Pthreads.StoreMemory

open GuardedRuns ObjectRegistry Store

/-- The thread can restore the storage of the key, if there is one. -/
def State.Restores (state : State) (thread : Nat) (key : Key) (fresh : Fresh) : Prop :=
  ∀ storage, state.store.props.hash.find key = some storage →
    Restorable state.store.enumCases state.store.registry thread fresh storage ∧
      state.copies storage = true

/-- The thread can restore every storage. -/
structure Loadable (state : State) (thread : Nat) (fresh : Key → Fresh) : Prop where
  store : Store.Loadable state.store thread fresh
  copies : ∀ entry ∈ state.store.props.hash.table.entries, state.copies entry.2 = true

/-- What a connection is shown of the keys that it did not modify last: by a read,
by a copy into another table, and in its own table. -/
structure SeesOthers (state : State) (connection : Nat) (found : Connection) : Prop where
  read : ∀ key fresh, state.store.concerns false connection (coerce key) →
    state.store.handlesKept (.read connection key .read fresh) = true →
    state.Restores found.owner (coerce key) fresh →
    ∃ after value, state.readThrough connection key .read fresh =
      some (after, value.elim .undefined .value) ∧
      Shows state.store after.store (coerce key) value
  toHash : ∀ hash fresh, state.store.handlesKept (.toHash connection hash fresh) = true →
    Loadable state found.owner fresh →
    ∃ after table, state.copyThrough connection hash fresh = some (after, table) ∧
      ∀ key, hash.find key = none → state.store.concerns false connection key →
        Shows state.store after.store key ((table.find key).filter validLocalCacheItem)
  toOwnHash : ∀ fresh, state.store.handlesKept (.toOwnHash connection fresh) = true →
    Loadable state found.owner fresh →
    ∃ after updated table, step state (.operate (.toOwnHash connection fresh)) = some after ∧
      after.store.connections.find connection = some updated ∧
      updated.properties = some table ∧
      ∀ key, state.store.concerns false connection key →
        Shows state.store after.store key ((table.find key).filter validLocalCacheItem)

section Reads

variable {own : Bool} {state : State} {connection : Nat} {found : Connection}

theorem Trusted.performs_read (trusted : Trusted own state)
    (idle : state.store.idle connection = some found) {key : KeyZval} {fresh : Fresh}
    (restores : state.Restores found.owner (coerce key) fresh) (type : AccessType) :
    state.performs (.read connection key type fresh) = true := by
  apply trusted.intact.performs _ rfl
  intro entry isFollowed
  simp only [followed, idle, Option.elim_some] at isFollowed
  obtain ⟨isUncached, isRead⟩ := List.mem_filter.mp isFollowed
  have isIn := mem_uncached isUncached
  have isKey : entry.1 = coerce key := by
    simpa using (Bool.and_eq_true_iff.mp isRead).1
  refine ⟨isIn, (restores entry.2 ?_).2⟩
  rw [← isKey]
  exact OrderedTable.find_eq_some_iff.mpr isIn

theorem Trusted.performs_copy (trusted : Trusted own state)
    (idle : state.store.idle connection = some found) {fresh : Key → Fresh}
    (loadable : Loadable state found.owner fresh) {operation : Store.Action}
    (follows : followed state.store operation =
      (state.store.idle connection).elim [] (uncached state.store))
    (nothing : operation.values = []) : state.performs operation = true := by
  apply trusted.intact.performs _ nothing
  intro entry isFollowed
  rw [follows, idle, Option.elim_some] at isFollowed
  have isIn := mem_uncached isFollowed
  exact ⟨isIn, loadable.copies entry isIn⟩

theorem Trusted.readThrough_shows (trusted : Trusted own state)
    (idle : state.store.idle connection = some found) {key : KeyZval} {fresh : Fresh}
    (concerned : state.store.concerns own connection (coerce key))
    (kept : state.store.handlesKept (.read connection key .read fresh) = true)
    (restores : state.Restores found.owner (coerce key) fresh) :
    ∃ after value, state.readThrough connection key .read fresh =
      some (after, value.elim .undefined .value) ∧
      Shows state.store after.store (coerce key) value := by
  obtain ⟨grounded, coherent, -⟩ := trusted.store
  obtain ⟨after, value, read, shows⟩ := Store.readThrough_shows grounded coherent idle concerned
    kept fun storage isStored => (restores storage isStored).1
  refine ⟨{ state with store := after }, value, ?_, shows⟩
  simp [State.readThrough, trusted.performs_read idle restores, read]

end Reads

/-- In every run in which no other connection is misled and nothing is freed that the
table points to, a connection sees what others wrote. -/
theorem connection_sees_others {declared : List Key} {state : State}
    (reached : Reaches step (Trustworthy false) (initial declared) state) {connection : Nat}
    {found : Connection} (idle : state.store.idle connection = some found) :
    SeesOthers state connection found := by
  have trusted := trusted_of_reaches reached
  obtain ⟨grounded, coherent, -⟩ := trusted.store
  refine ⟨?_, ?_, ?_⟩
  · intro key fresh concerned kept restores
    exact trusted.readThrough_shows idle concerned kept restores
  · intro hash fresh kept loadable
    obtain ⟨after, table, copied, shows⟩ :=
      copyThrough_shows grounded coherent idle hash kept loadable.store
    refine ⟨{ state with store := after }, table, ?_, shows⟩
    have performs : state.performs (.toHash connection hash fresh) = true :=
      trusted.performs_copy idle loadable rfl rfl
    simp [State.copyThrough, performs, copied]
  · intro fresh kept loadable
    obtain ⟨after, updated, table, stepped, isUpdated, isTable, shows⟩ :=
      toOwnHash_shows grounded coherent idle kept loadable.store
    refine ⟨{ state with store := after }, updated, table, ?_, isUpdated, isTable, shows⟩
    have performs : state.performs (.toOwnHash connection fresh) = true :=
      trusted.performs_copy idle loadable rfl rfl
    simp [step, performs, stepped]

/-- Thread 1 writes a string, thread 2 caches it, and thread 1 writes another, after
which the first is freed if it can be. -/
def overwriteAfterRead (permanent : Bool) : List Action :=
  [.operate (.construct 1 1 [] (fun _ => noFresh)), .operate (.connect 2 2 false),
    .operate (.write 1 (some (.long 0)) (.string ⟨1, [97], permanent⟩) false noFresh),
    .operate (.finish 1), .operate (.read 2 (.long 0) .read noFresh), .operate (.finish 2),
    .operate (.read 2 (.long 0) .read noFresh), .operate (.finish 2),
    .operate (.write 1 (some (.long 0)) (.string ⟨2, [98], permanent⟩) false noFresh),
    .operate (.finish 1)] ++ if permanent then [] else [.free (.string 1)]

/-- With strings of the request the count moves, and thread 2 sees the second. -/
theorem connection_sees_others_overwriteAfterRead :
    ∃ state found, execute step (initial []) (overwriteAfterRead false) = some state ∧
      Admits step (Trustworthy false) (initial []) (overwriteAfterRead false) ∧
      state.store.idle 2 = some found ∧ SeesOthers state 2 found ∧
      ∃ after value, state.readThrough 2 (.long 0) .read noFresh =
        some (after, value.elim .undefined .value) ∧
        Shows state.store after.store (.long 0) value := by
  have admitted : Admits step (Trustworthy false) (initial []) (overwriteAfterRead false) := by
    decide
  refine ⟨_, _, rfl, admitted, rfl,
    connection_sees_others (reaches_of_execute admitted rfl) rfl, ?_⟩
  refine (connection_sees_others (reaches_of_execute admitted rfl) rfl).read (.long 0) noFresh rfl
    rfl ?_
  rintro storage ⟨⟩
  exact ⟨trivial, rfl⟩

/-- With permanent strings the count does not move, and thread 2 still reads the
first. -/
theorem connection_misses_overwriteAfterRead :
    ∃ state found after, execute step (initial []) (overwriteAfterRead true) = some state ∧
      state.store.idle 2 = some found ∧ state.store.concerns false 2 (.long 0) ∧
      state.store.props.hash.find (.long 0) = some (.string ⟨2, [98], true⟩) ∧
      state.readThrough 2 (.long 0) .read noFresh =
        some (after, .value (.string ⟨1, [97], true⟩)) ∧ ¬ SeesOthers state 2 found := by
  refine ⟨_, _, _, rfl, rfl, rfl, rfl, rfl, ?_⟩
  intro sees
  obtain ⟨after, value, read, shows⟩ := sees.read (.long 0) noFresh rfl rfl (by
    rintro storage ⟨⟩
    exact ⟨trivial, rfl⟩)
  cases value with
  | none => cases read
  | some value =>
      cases read
      cases shows

/-- A string that is merged through a reference is freed, and the read of another thread
follows the pointer that is left. -/
example : ∃ state, execute step (initial [])
    [.operate (.construct 1 1 [] (fun _ => noFresh)), .operate (.connect 2 2 false),
      .operate (.mergeArray 1 [(.long 0, .reference (.string ⟨1, [97], false⟩))] true false
        fun _ => noFresh), .free (.string 1)] = some state ∧
      state.readThrough 2 (.long 0) .read noFresh = none :=
  ⟨_, rfl, rfl⟩

/-- The read through the connection that modified the key last gives back what it
wrote, or nothing if it removed the key. -/
def ReadsBack (state : State) (connection : Nat) (key : KeyZval) (fresh : Fresh) : Prop :=
  ∀ last, state.store.modified (coerce key) = some last → last.connection = connection →
    ∃ (after : State) (value : Option Zval), state.readThrough connection key .read fresh =
        some (after, value.elim .undefined .value) ∧
      value.map (Zval.meaning after.store.registry) = last.meaning.map some

/-- In every run in which no writer is misled and nothing is freed that the table points
to, a connection reads its own writes back. -/
theorem connection_reads_back {declared : List Key} {state : State}
    (reached : Reaches step (Trustworthy true) (initial declared) state) {connection : Nat}
    {found : Connection} (idle : state.store.idle connection = some found) {key : KeyZval}
    {fresh : Fresh} (kept : state.store.handlesKept (.read connection key .read fresh) = true)
    (restores : state.Restores found.owner (coerce key) fresh) :
    ReadsBack state connection key fresh := by
  have trusted := trusted_of_reaches reached
  intro last modified isOwn
  have concerned : state.store.concerns true connection (coerce key) := by
    simp [State.concerns, modified, isOwn]
  obtain ⟨after, value, read, shows⟩ :=
    trusted.readThrough_shows idle concerned kept restores
  refine ⟨after, value, read, ?_⟩
  have matched := trusted.store.recalls (coerce key) last modified
  rw [shows]
  cases isStored : state.store.props.hash.find (coerce key) with
  | none =>
      have removed : last.meaning = none := by simpa [isStored, Matches] using matched
      simp [removed]
  | some storage =>
      obtain ⟨meaning, isMeaning⟩ := (restores storage isStored).1.meaning
      simp only [isStored, Matches, isMeaning] at matched
      rcases matched with dead | same
      · cases dead
      · simp [isMeaning, ← same]

/-- Thread 1 writes a string, reads it, and writes another value. -/
def overwriteOwn (value : Zval) : List Action :=
  [.operate (.construct 1 1 [] (fun _ => noFresh)),
    .operate (.write 1 (some (.long 0)) (.string ⟨1, [97], false⟩) false noFresh),
    .operate (.finish 1), .operate (.read 1 (.long 0) .read noFresh), .operate (.finish 1),
    .operate (.write 1 (some (.long 0)) value false noFresh), .operate (.finish 1)]

theorem connection_reads_back_overwriteOwn :
    ∃ state, execute step (initial []) (overwriteOwn (.string ⟨2, [98], false⟩)) = some state ∧
      Admits step (Trustworthy true) (initial []) (overwriteOwn (.string ⟨2, [98], false⟩)) ∧
      state.store.modified (.long 0) = some ⟨1, some (.string [98])⟩ ∧
      ReadsBack state 1 (.long 0) noFresh := by
  have admitted : Admits step (Trustworthy true) (initial [])
      (overwriteOwn (.string ⟨2, [98], false⟩)) := by decide
  refine ⟨_, rfl, admitted, rfl, ?_⟩
  apply connection_reads_back (reaches_of_execute admitted rfl) rfl rfl
  rintro storage ⟨⟩
  exact ⟨trivial, rfl⟩

/-- After an integer is written over the string, the string is read. -/
theorem connection_reads_stale_overwriteOwn :
    ∃ state after, execute step (initial []) (overwriteOwn (.long 5)) = some state ∧
      state.store.modified (.long 0) = some ⟨1, some (.long 5)⟩ ∧
      state.store.props.hash.find (.long 0) = some (.long 5) ∧
      state.readThrough 1 (.long 0) .read noFresh =
        some (after, .value (.string ⟨1, [97], false⟩)) ∧
      ¬ ReadsBack state 1 (.long 0) noFresh := by
  refine ⟨_, _, rfl, rfl, rfl, rfl, ?_⟩
  intro readsBack
  obtain ⟨after, value, read, same⟩ := readsBack _ rfl rfl
  cases value with
  | none => cases read
  | some value =>
      cases read
      cases same

end Pthreads.StoreMemory
