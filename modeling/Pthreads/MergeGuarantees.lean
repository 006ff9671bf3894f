import Pthreads.MergeSurvival

/-!
# Merging a ThreadedArray and merging its array

Both ways leave the same destination, also when the source is destroyed right after
the merge, exactly if the local table of the destination shows nothing in the place of
what is written and this does not go with the source.  The direct way enters nothing in
the local table, so it can leave storages that point to what goes with the source.
-/

namespace Pthreads.Store

open ObjectRegistry GuardedRuns

/-- A connection that has nothing in its local table. -/
def Setting.tableless (setting : Setting) : Connection :=
  ⟨0, none, setting.destination.modcount, none⟩

theorem Setting.tableless_fits {setting : Setting} {dependents : Dependents}
    (apart : dependents.Apart setting.connection) :
    setting.Fits dependents setting.tableless := by
  have empty : ∀ value, ¬ setting.tableless.Keeps value := by
    rintro value (⟨table, key, ⟨⟩, -⟩ | ⟨key, ⟨⟩⟩)
  exact ⟨le_rfl, fun value keeps => absurd keeps (empty value),
    apart.of_keeps fun value keeps => absurd keeps (empty value)⟩

section Views

variable {enumCases : EnumCases} {memory : Memory} {thread : Nat} {key : Key} {address : Nat}

theorem view_tableless (setting : Setting) (props : Props) :
    view enumCases memory props setting.tableless key =
      storageView enumCases memory 0 key (props.hash.find key) := by
  have empty : setting.tableless.cached key = none := rfl
  rw [view, empty, ite_self]
  rfl

/-- A handle whose object is gone is read as null. -/
theorem storageView_gone (isGone : memory.registry.zobjs address = none) :
    storageView enumCases memory thread key (some (.pthreads address)) =
      some (.value (some .null)) := by
  simp [storageView, Memory.dangling, Storage.restored, Storage.meaning, tsObjAt, isGone]

theorem storageView_there {tsObj : Nat} (isThere : tsObjAt memory.registry address = some tsObj) :
    storageView enumCases memory thread key (some (.pthreads address)) =
      some (.value (some (.threaded tsObj))) := by
  simp [storageView, Memory.dangling, Storage.restored, Storage.meaning, isThere]

theorem storageView_dangling {storage : Storage} (dangles : memory.dangling key storage = true) :
    storageView enumCases memory thread key (some storage) = none := by
  rw [storageView, if_pos dangles]

theorem storageView_safe {storage : Storage} (safe : memory.dangling key storage = false) :
    storageView enumCases memory thread key (some storage) ≠ none := by
  simp [storageView, safe]

/-- What the entries of a local table stand for. -/
theorem retained_meaning {registry : Registry} {found : Zval}
    (retained : retainInLocalCache found = true) (settled : SettledValue registry found) :
    ∃ meaning, found.meaning registry = some meaning ∧
      ((∃ tsObj, meaning = .threaded tsObj) ∨ (∃ bytes, meaning = .string bytes) ∨
        (∃ closure, meaning = .closure closure) ∨ ∃ socket, meaning = .socket socket) := by
  cases found with
  | threaded own =>
      obtain ⟨zobj, isThere, -, constructed⟩ := settled own (by simp [refersTo])
      obtain ⟨tsObj, points⟩ := Option.isSome_iff_exists.mp constructed
      exact ⟨.threaded tsObj, by simp [Zval.meaning, tsObjAt, isThere, points], Or.inl ⟨tsObj, rfl⟩⟩
  | closure own => exact ⟨_, rfl, Or.inr (Or.inr (Or.inl ⟨_, rfl⟩))⟩
  | socket own hasStream => exact ⟨_, rfl, Or.inr (Or.inr (Or.inr ⟨_, rfl⟩))⟩
  | string own => exact ⟨_, rfl, Or.inr (Or.inl ⟨_, rfl⟩)⟩
  | _ => cases retained

/-- An entry of a local table is never what a storage of another kind is restored to. -/
theorem storageView_ne {registry after : Registry} {storage : Storage} {found : Zval}
    (notRetained : storageRetained registry storage = false)
    (retained : retainInLocalCache found = true) (settled : SettledValue after found)
    (pointer : Nat) :
    storageView enumCases (.intact registry) thread key (some (hardCopyStorage pointer storage)) ≠
      some (.value (found.meaning after)) := by
  obtain ⟨meaning, isMeaning, shape⟩ := retained_meaning retained settled
  rw [isMeaning, storageView, dangling_intact]
  cases storage with
  | string | stringPtr | closure | socket => cases notRetained
  | pthreads address =>
      have absent : tsObjAt registry address = none := by
        simpa [storageRetained] using notRetained
      rcases shape with ⟨_, rfl⟩ | ⟨_, rfl⟩ | ⟨_, rfl⟩ | ⟨_, rfl⟩ <;>
        simp [hardCopyStorage, Storage.restored, Storage.meaning, Memory.intact, absent]
  | enumCase className memberName =>
      by_cases loaded : enumCases thread className memberName = true <;>
        rcases shape with ⟨_, rfl⟩ | ⟨_, rfl⟩ | ⟨_, rfl⟩ | ⟨_, rfl⟩ <;>
          simp [hardCopyStorage, Storage.restored, loaded]
  | _ =>
      rcases shape with ⟨_, rfl⟩ | ⟨_, rfl⟩ | ⟨_, rfl⟩ | ⟨_, rfl⟩ <;>
        simp [hardCopyStorage, Storage.restored, Storage.meaning]

end Views

/-- The sync keeps only values of the kinds that are entered. -/
theorem retained_of_staysCached {registry : Registry} {thread : Nat} {stored : Option Storage}
    {value : Zval} (valid : validLocalCacheItem value = true)
    (stays : staysCached registry thread stored value = true) :
    retainInLocalCache value = true := by
  simp only [staysCached, deindirect_of_valid valid] at stays
  split at stays
  · rfl
  · rfl
  · rfl
  · rfl
  · cases stays

namespace SideBySide

variable {setting : Setting} {dependents : Dependents} {fresh : Key → Fresh}
  {pointers : Key → Nat} {registry : Registry} {table : OrderedTable Key Zval}
  {state : WrittenAll} {direct array : Registry} {key : Key} {storage : Storage} {value : Zval}
  {address : Nat}
  (both : SideBySide setting dependents fresh pointers registry table state direct array)

include both

theorem written_ne_nil (writes : setting.Writes key) : (setting.copied pointers).written ≠ [] :=
  List.ne_nil_of_mem ((both.writes key).mpr writes)

/-- Once something is written, the local table has only what it was entered for. -/
theorem syncedTable_retained (notEmpty : (setting.copied pointers).written ≠ [])
    (cached : setting.syncedTable.cached key = some value) :
    setting.connection.cached key = some value ∧ retainInLocalCache value = true := by
  by_cases inSync : setting.connection.localPropsModcount = setting.destination.modcount
  · rw [setting.syncedTable_inSync inSync] at cached
    exact ⟨cached, both.consistent.retains key value inSync cached⟩
  · obtain ⟨⟨first, storage⟩, isFirst, -⟩ := both.twin.first notEmpty
    have filtered : ∃ stored, (setting.connection.cached key).filter
        (staysCached setting.registry setting.connection.owner stored) = some value := by
      by_cases same : key = first
      · subst same
        exact ⟨_, (Setting.syncedTable_first isFirst inSync).symm.trans cached⟩
      · exact ⟨_, (Setting.syncedTable_other isFirst same inSync).symm.trans cached⟩
    obtain ⟨stored, filtered⟩ := filtered
    obtain ⟨isCached, stays⟩ := Option.filter_eq_some_iff.mp filtered
    exact ⟨isCached, retained_of_staysCached (Connection.valid_of_cached isCached) stays⟩

/-- A written key on the direct way: its storage is read. -/
theorem view_direct_written (memory : Memory) (writes : setting.Writes key)
    (source : setting.source.hash.find key = some storage) :
    view setting.enumCases memory (setting.mergeDirectly pointers).props
        (setting.mergeDirectly pointers).connection key =
      storageView setting.enumCases memory setting.connection.owner key
        (some (hardCopyStorage (pointers key) storage)) := by
  obtain ⟨value, saved, here⟩ := both.entered writes source
  have shown := both.twin.view_direct both.consistent.counts setting.enumCases memory key
  rw [here.evicted, ite_self, here.direct] at shown
  exact shown

theorem view_direct_same (memory : Memory) (writes : setting.Writes key)
    (source : setting.source.hash.find key = some storage)
    (same : hardCopyStorage (pointers key) storage = storage) :
    view setting.enumCases memory (setting.mergeDirectly pointers).props
        (setting.mergeDirectly pointers).connection key =
      storageView setting.enumCases memory setting.connection.owner key (some storage) := by
  rw [both.view_direct_written memory writes source, same]

theorem written_of_first (isWritten : setting.firstWritten.isSome = true) :
    (setting.copied pointers).written ≠ [] := by
  obtain ⟨first, isFirst⟩ := Option.isSome_iff_exists.mp isWritten
  have taken := List.find?_some isFirst
  have isIn := List.mem_of_find?_eq_some isFirst
  have writes : setting.Writes first.1 := ⟨List.mem_map_of_mem isIn, by simpa using taken⟩
  exact both.written_ne_nil writes

theorem view_state_cached (memory : Memory) (notEmpty : (setting.copied pointers).written ≠ [])
    (cached : state.connection.cached key = some value) :
    view setting.enumCases memory state.props state.connection key =
      some (.value (value.meaning memory.registry)) := by
  rw [view, if_pos (both.twin.synced notEmpty), cached]

/-- A dependent that a storage leads to, on the thread of the merge. -/
theorem stored_dependent (stores : setting.Stores (.pthreads address))
    (depends : dependents.Object address) : ∃ tsObj, tsObjAt setting.registry address = some tsObj ∧
      tsObjAt registry address = some tsObj := by
  obtain ⟨zobj, found⟩ := Option.isSome_iff_exists.mp (both.direct_gone depends).1
  obtain ⟨-, constructed⟩ := both.consistent.stored address stores zobj found
  obtain ⟨tsObj, points⟩ := Option.isSome_iff_exists.mp constructed
  have isThere : tsObjAt setting.registry address = some tsObj := by simp [tsObjAt, found, points]
  refine ⟨tsObj, isThere, ?_⟩
  rw [tsObjAt, both.zobjs_eq stores]
  exact isThere

/-- A closure that goes with the source dangles on the direct way. -/
theorem dangling_closure (key : Key) {closure : Closure} (owner : Nat)
    (depends : dependents.closures closure.pointer = true) :
    (Memory.afterDirect dependents setting.source (setting.mergeDirectly pointers) direct).dangling
      key (.closure closure owner) = true := by
  have notHeld : (setting.mergeDirectly pointers).connection.holdsClosure closure.pointer =
      false := by
    by_contra holds
    have free := both.directApart.closures closure.pointer (by simpa using holds)
    rw [depends] at free
    cases free
  simp [Memory.dangling, Memory.afterDirect, depends, notHeld]

section Agreeing

variable {other : Connection}
  (agrees : PathsAgree setting dependents other (setting.mergeDirectly pointers) state direct array)
  (room : Roomy setting.registry) (arrayRoom : Roomy state.registry)

include agrees room arrayRoom

theorem views_now (key : Key) :
    view setting.enumCases (.intact setting.registry) (setting.mergeDirectly pointers).props
        (setting.mergeDirectly pointers).connection key =
      view setting.enumCases (.intact state.registry) state.props state.connection key :=
  agrees.now.views (both.readable_direct fun _ keeps => both.held_direct keeps)
    (both.readable_array fun _ keeps => both.state_settled keeps) room arrayRoom key

omit agrees in
theorem rooms_later : Roomy direct ∧ Roomy array := by
  rw [both.twin.sameRegistry] at arrayRoom
  exact ⟨both.destroys.roomy both.sound room, both.arrayDestroys.roomy both.soundArray arrayRoom⟩

theorem views_later (key : Key) :
    view setting.enumCases (.afterDirect dependents setting.source (setting.mergeDirectly pointers)
        direct) (setting.mergeDirectly pointers).props (setting.mergeDirectly pointers).connection
        key =
      view setting.enumCases (.afterArray dependents state array) state.props state.connection
        key := by
  obtain ⟨directRoom, laterRoom⟩ := both.rooms_later room arrayRoom
  exact agrees.later.views
    (both.readable_direct_later (fun _ keeps => both.held_direct keeps) both.directApart)
    both.readable_state_later directRoom laterRoom key

/-- The local table shows nothing in the place of what is written. -/
theorem tidy_of_agrees : setting.Tidy := by
  intro key storage writes source notRetained
  by_contra cached
  obtain ⟨found, cached⟩ := Option.ne_none_iff_exists'.mp cached
  obtain ⟨value, saved, here⟩ := both.entered writes source
  have notEmpty := both.written_ne_nil writes
  obtain ⟨wasCached, retained⟩ := both.syncedTable_retained notEmpty cached
  have notTaken : ¬ retainInLocalCache value = true := by
    rw [here.savedAs.retained,
      both.consistent.storageRetained_eq both.regular both.extended source, notRetained]
    simp
  have isCached : state.connection.cached key = some found := by
    rw [here.entered, if_neg notTaken, cached]
  have settled := both.extended.settledValue
    (both.consistent.held found (Connection.keeps_of_cached wasCached))
  have same := both.views_now agrees room arrayRoom key
  rw [both.view_direct_written _ writes source, both.view_state_cached _ notEmpty isCached,
    both.twin.sameRegistry] at same
  exact storageView_ne notRetained retained settled (pointers key) same

/-- A member that goes with the source is null on the direct way only. -/
theorem objects_of_agrees (writes : setting.Writes key)
    (source : setting.source.hash.find key = some (.pthreads address)) :
    ¬ dependents.Object address := by
  intro depends
  obtain ⟨tsObj, isThere, isThereToo⟩ := both.stored_dependent (Or.inr ⟨key, source⟩) depends
  obtain ⟨value, saved, here⟩ := both.entered writes source
  have retained : retainInLocalCache value = true := by
    rw [here.savedAs.retained]
    simp [storageRetained, isThereToo]
  have isCached := here.entered.trans (if_pos retained)
  have meaning : value.meaning array = some (.threaded tsObj) := by
    rw [meaning_congr fun _ refers => both.array_held (Connection.keeps_of_cached isCached) refers,
      here.stands.meaning]
    simp [Storage.meaning, isThereToo]
  have same := both.views_later agrees room arrayRoom key
  rw [both.view_direct_same _ writes source rfl,
    both.view_state_cached _ (both.written_ne_nil writes) isCached,
    storageView_gone (both.direct_gone depends).2, Memory.afterArray, meaning] at same
  cases same

/-- A written closure that goes with the source dangles on the direct way only. -/
theorem closures_of_agrees {closure : Closure} {owner : Nat} (writes : setting.Writes key)
    (source : setting.source.hash.find key = some (.closure closure owner)) :
    dependents.closures closure.pointer = false := by
  by_contra depends
  obtain ⟨value, saved, here⟩ := both.entered writes source
  have retained : retainInLocalCache value = true := by
    rw [here.savedAs.retained]
    rfl
  have isCached := here.entered.trans (if_pos retained)
  have same := both.views_later agrees room arrayRoom key
  have dangles := both.dangling_closure key owner (by simpa using depends)
  rw [both.view_direct_same _ writes source rfl, storageView_dangling dangles,
    both.view_state_cached _ (both.written_ne_nil writes) isCached] at same
  cases same

/-- Names that are freed with the source dangle on the direct way only. -/
theorem names_of_agrees {className memberName : Bytes} (writes : setting.Writes key)
    (source : setting.source.hash.find key = some (.enumCase className memberName)) :
    dependents.permanentNames key = true := by
  by_contra permanent
  have freed : dependents.permanentNames key = false := by simpa using permanent
  obtain ⟨value, saved, here⟩ := both.entered writes source
  have notTaken : ¬ retainInLocalCache value = true := by
    rw [here.savedAs.retained]
    simp [storageRetained]
  have isUncached : state.connection.cached key = none := by
    rw [here.entered, if_neg notTaken]
    apply both.tidy_of_agrees agrees room arrayRoom key _ writes source
    rfl
  have isIn : key ∈ (setting.mergeDirectly pointers).written := (both.writes key).mpr writes
  have dangles : (Memory.afterDirect dependents setting.source (setting.mergeDirectly pointers)
      direct).dangling key (.enumCase className memberName) = true := by
    simp [Memory.dangling, Memory.afterDirect, sharesNames, isIn, source, freed]
  have same := both.views_later agrees room arrayRoom key
  rw [both.view_direct_same _ writes source rfl, storageView_dangling dangles, view,
    isUncached, ite_self, here.array] at same
  exact storageView_safe (both.safe_array writes here.array) same.symm

/-- An entry that is kept for an outdated local table shows the member that is null on the
direct way. -/
theorem notKept_of_agrees (notWrites : ¬ setting.Writes key)
    (stored : setting.destination.hash.find key = some (.pthreads address))
    (depends : dependents.Object address) (isWritten : setting.firstWritten.isSome = true)
    (outdated : setting.connection.localPropsModcount ≠ setting.destination.modcount) :
    setting.syncedTable.cached key = none := by
  by_contra cached
  obtain ⟨found, cached⟩ := Option.ne_none_iff_exists'.mp cached
  have notIn : key ∉ (setting.copied pointers).written :=
    fun isIn => notWrites ((both.writes key).mp isIn)
  have notEmpty := both.written_of_first isWritten
  have isCached : state.connection.cached key = some found := by
    rw [both.twin.left_cached both.consistent both.regular both.extended notEmpty notIn, cached]
  have kept := Connection.keeps_of_cached isCached
  have same := both.views_later agrees room arrayRoom key
  have shown := both.twin.view_direct both.consistent.counts setting.enumCases
    (.afterDirect dependents setting.source (setting.mergeDirectly pointers) direct) key
  rw [if_neg outdated, (both.twin.unwritten key notIn).direct, stored] at shown
  have isNull := shown.trans (storageView_gone (both.direct_gone depends).2)
  obtain ⟨meaning, isMeaning, shape⟩ := retained_meaning
    (both.syncedTable_retained notEmpty cached).2 (both.state_settled kept)
  have held : found.meaning array = found.meaning registry :=
    meaning_congr fun _ refers => both.array_held kept refers
  rw [both.view_state_cached _ notEmpty isCached, Memory.afterArray, held, isMeaning] at same
  rcases shape with ⟨_, rfl⟩ | ⟨_, rfl⟩ | ⟨_, rfl⟩ | ⟨_, rfl⟩ <;> cases isNull.symm.trans same

end Agreeing

/-- The reads through a connection that has nothing in its local table. -/
theorem views_tableless
    (agrees : PathsAgree setting dependents setting.tableless (setting.mergeDirectly pointers) state
      direct array)
    (room : Roomy setting.registry) (arrayRoom : Roomy state.registry)
    (notWrites : ¬ setting.Writes key) :
    storageView setting.enumCases (.afterDirect dependents setting.source
        (setting.mergeDirectly pointers) direct) 0 key (setting.destination.hash.find key) =
      storageView setting.enumCases (.afterArray dependents state array) 0 key
        (setting.destination.hash.find key) := by
  have fits := Setting.tableless_fits both.apart
  obtain ⟨directRoom, laterRoom⟩ := both.rooms_later room arrayRoom
  have same := agrees.laterOther.views (both.readable_direct_later fits.held fits.apart)
    (both.readable_other_later fits) directRoom laterRoom key
  have here := both.twin.unwritten key fun isIn => notWrites ((both.writes key).mp isIn)
  rw [view_tableless, view_tableless, both.bumped.hash, here.direct, here.array] at same
  exact same

/-- What is entered on the array way is there for others, who find null on the direct
way. -/
theorem notEntered_of_agrees
    (agrees : PathsAgree setting dependents setting.tableless (setting.mergeDirectly pointers) state
      direct array)
    (room : Roomy setting.registry) (arrayRoom : Roomy state.registry)
    (notWrites : ¬ setting.Writes key)
    (stored : setting.destination.hash.find key = some (.pthreads address))
    (depends : dependents.Object address) :
    ¬ Spared dependents.members (setting.entering table) address := by
  intro spared
  obtain ⟨tsObj, -, isThere⟩ := both.stored_dependent (Or.inl ⟨key, stored⟩) depends
  have same := both.views_tableless agrees room arrayRoom notWrites
  have isStill : tsObjAt array address = some tsObj := by
    rw [tsObjAt, both.array_kept (Or.inr spared)]
    exact isThere
  rw [stored, storageView_gone (both.direct_gone depends).2, storageView_there isStill] at same
  cases same

theorem closuresNotEntered_of_agrees
    (agrees : PathsAgree setting dependents setting.tableless (setting.mergeDirectly pointers) state
      direct array)
    (room : Roomy setting.registry) (arrayRoom : Roomy state.registry)
    {closure : Closure} {owner : Nat} (notWrites : ¬ setting.Writes key)
    (stored : setting.destination.hash.find key = some (.closure closure owner))
    (depends : dependents.closures closure.pointer = true) :
    (setting.entering table).holdsClosure closure.pointer = false := by
  by_contra entered
  have isEntered : (setting.entering table).holdsClosure closure.pointer = true := by
    simpa using entered
  obtain ⟨value, keeps, isHere⟩ := Connection.keepsAny_iff.mp isEntered
  have isHeld : state.connection.holdsClosure closure.pointer = true :=
    Connection.keepsAny_iff.mpr ⟨value, (both.keeps_of_entering keeps).1, isHere⟩
  have same := both.views_tableless agrees room arrayRoom notWrites
  rw [stored, storageView_dangling (both.dangling_closure key owner depends)] at same
  exact storageView_safe (by simp [Memory.dangling, Memory.afterArray, isHeld]) same.symm

/-- The two ways agree for every other connection exactly under the condition. -/
theorem agree_iff (room : Roomy setting.registry) (arrayRoom : Roomy state.registry) :
    (∀ other, setting.Fits dependents other →
      PathsAgree setting dependents other (setting.mergeDirectly pointers) state direct array) ↔
        setting.Tidy ∧ setting.Independent dependents table := by
  constructor
  · intro agree
    have agrees := agree setting.tableless (Setting.tableless_fits both.apart)
    refine ⟨both.tidy_of_agrees agrees room arrayRoom, ?_⟩
    constructor
    · exact fun key address => both.objects_of_agrees agrees room arrayRoom
    · exact fun key closure owner => both.closures_of_agrees agrees room arrayRoom
    · exact fun key className memberName => both.names_of_agrees agrees room arrayRoom
    · exact fun key address => both.notEntered_of_agrees agrees room arrayRoom
    · exact fun key address => both.notKept_of_agrees agrees room arrayRoom
    · exact fun key closure owner => both.closuresNotEntered_of_agrees agrees room arrayRoom
  · rintro ⟨tidy, independent⟩ other fits
    exact both.agree tidy independent fits

end SideBySide

section Merges

variable {setting : Setting} {dependents : Dependents} {fresh writes : Key → Fresh}
  {pointers : Key → Nat} {registry : Registry} {table : OrderedTable Key Zval}
  {written : WrittenAll} {direct array : Registry}

theorem mem_copied_written (setting : Setting) (pointers : Key → Nat) (key : Key) :
    key ∈ (setting.copied pointers).written ↔ setting.Writes key := by
  have isWritten : key ∈ (setting.copied pointers).written ↔ _ :=
    storeMergeThreaded_written setting.destination setting.connection
      setting.source.hash.table.entries setting.overwrite pointers key
  rw [Setting.Writes, OrderedTable.keys]
  simpa using isWritten

theorem twin_of_merges (consistent : setting.Consistent) (regular : setting.Regular fresh)
    (pointers : Key → Nat) (obtained : setting.plainArray fresh = some (registry, table))
    (mergedArray : setting.mergeArray fresh writes = some written) :
    Extends (setting.Places fresh) setting.registry registry ∧
      Twin setting registry table pointers (setting.copied pointers) written := by
  simp only [Setting.mergeArray, obtained, Option.bind_eq_bind, Option.bind_some] at mergedArray
  obtain ⟨original, mirrors, extended, named⟩ := plainArray_mirrors consistent regular obtained
  have stored : ∀ entry ∈ setting.source.hash.table.entries,
      setting.source.hash.find entry.1 = some entry.2 :=
    fun entry isIn => OrderedTable.find_eq_some_iff.mpr isIn
  have located : ∀ element ∈ table.entries, table.find element.1 = some element.2 :=
    fun element isIn => OrderedTable.find_eq_some_iff.mpr isIn
  obtain ⟨result, isResult, twin⟩ := twin_foldl consistent regular extended named writes mirrors
    stored located setting.source.hash.table.distinct (by simp) (fun _ => rfl)
    (twin_initial setting registry table pointers)
  cases Option.some.inj (isResult.symm.trans mergedArray)
  exact ⟨extended, twin⟩

end Merges

/-- Thread 1 creates the destination, the source and a member for it. -/
def createMember : List ObjectRegistry.Action :=
  [.alloc 8, .construct 1 8 100, .publish 8, .alloc 16, .construct 1 16 101, .publish 16,
    .alloc 24, .construct 1 24 102, .publish 24]

/-- The member has been appended to the source, which is merged into an empty
destination. -/
def mergeMember : Setting where
  enumCases := fun _ _ _ => false
  registry := (execute ObjectRegistry.step ObjectRegistry.initial createMember).getD
    ObjectRegistry.initial
  destination := storeInit
  connection := freshConnection 1 false
  source := ⟨HashTable.empty.update (.long 0) (.pthreads 24), 0⟩
  sourceConnection := ⟨1, some (OrderedTable.empty.update (.long 0) (.threaded 24)), 0, none⟩
  overwrite := true

/-- What goes with the source: its zend object, and the member unless something
else refers to it. -/
def memberDependents (referenced : Bool) : Dependents where
  objects := if referenced then [(1, 16)] else [(1, 16), (1, 24)]
  members := fun _ => []
  closures := fun _ => false
  permanentNames := fun _ => true

theorem mergeMember_find {key : Key} {storage : Storage}
    (found : mergeMember.source.hash.find key = some storage) :
    key = .long 0 ∧ storage = .pthreads 24 := by
  have isIn := OrderedTable.find_eq_some_iff.mp found
  simpa [mergeMember, HashTable.update, HashTable.empty, OrderedTable.update, OrderedTable.empty,
    OrderedTable.place] using isIn

theorem mergeMember_handle {address : Nat} (stores : mergeMember.Stores (.pthreads address)) :
    address = 24 := by
  rcases stores with ⟨key, found⟩ | ⟨key, found⟩
  · cases found
  · cases (mergeMember_find found).2
    rfl

theorem mergeMember_settled : SettledValue mergeMember.registry (.threaded 24) := by
  intro address refers
  simp only [refersTo, decide_eq_true_eq] at refers
  subst refers
  exact ⟨_, rfl, rfl, rfl⟩

theorem mergeMember_consistent : mergeMember.Consistent := by
  have empty : ∀ value, ¬ (freshConnection 1 false).Keeps value := by
    rintro value (⟨table, key, isTable, -⟩ | ⟨key, waiting⟩)
    · cases isTable
    · cases waiting
  constructor
  · exact reaches_of_execute (admits_anyAction ObjectRegistry.step ObjectRegistry.initial
      createMember) rfl
  · rfl
  · decide
  · intro address stores zobj found
    cases mergeMember_handle stores
    cases found
    exact ⟨rfl, rfl⟩
  · exact fun value keeps => absurd keeps (empty value)
  · rintro value (⟨table, key, isTable, isThere⟩ | ⟨key, waiting⟩)
    · cases isTable
      have isIn := OrderedTable.find_eq_some_iff.mp isThere
      simp only [OrderedTable.update, OrderedTable.empty, OrderedTable.place,
        List.mem_singleton, Prod.mk.injEq] at isIn
      rw [isIn.2]
      exact mergeMember_settled
    · cases waiting
  · intro key value _ cached
    cases cached

theorem mergeMember_regular : mergeMember.Regular fun _ => ⟨0, 32, 103⟩ := by
  constructor
  · rintro key ⟨isKey, -⟩
    obtain ⟨⟨_, storage⟩, isIn, rfl⟩ := List.mem_map.mp isKey
    rw [(mergeMember_find (OrderedTable.find_eq_some_iff.mpr isIn)).1]
    rfl
  · intro key storage value _ found cached
    obtain ⟨rfl, rfl⟩ := mergeMember_find found
    cases cached
    exact ⟨rfl, rfl, rfl⟩
  · intro key address zobj _ found isThere
    obtain ⟨-, ⟨⟩⟩ := mergeMember_find found
    cases isThere
    rfl
  · intro address stores absent
    cases mergeMember_handle stores
    cases absent

theorem mergeMember_tidy : mergeMember.Tidy := by
  intro key storage _ _ _
  rfl

theorem mergeMember_independent (table : OrderedTable Key Zval) :
    mergeMember.Independent (memberDependents true) table := by
  constructor
  · rintro key address - found ⟨entry, isIn, same⟩
    obtain ⟨-, ⟨⟩⟩ := mergeMember_find found
    simp only [memberDependents, if_true, List.mem_singleton] at isIn
    rw [isIn] at same
    cases same
  · exact fun _ _ _ _ _ => rfl
  · exact fun _ _ _ _ _ => rfl
  · intro key address _ found
    cases found
  · intro key address _ found
    cases found
  · intro key closure owner _ found
    cases found

theorem memberDependents_apart (referenced : Bool) (owner : Nat) :
    (memberDependents referenced).Apart (freshConnection owner false) := by
  constructor
  · exact fun _ holds => by cases holds
  · exact fun _ holds => by cases holds
  · exact fun _ _ _ isMember => by cases isMember

theorem not_spared_fresh {members : Nat → List Nat} {owner address : Nat} :
    ¬ Spared members (freshConnection owner false) address := by
  intro spared
  induction spared with
  | held holds => cases holds
  | member _ _ ih => exact ih

/-- The destination after the array of the source was merged. -/
def memberWritten : WrittenAll :=
  (mergeMember.mergeArray (fun _ => ⟨0, 32, 103⟩) fun _ => ⟨0, 40, 104⟩).getD
    ⟨mergeMember.registry, storeInit, freshConnection 1 false, []⟩

theorem spared_memberWritten {referenced : Bool} {address : Nat} :
    Spared (memberDependents referenced).members memberWritten.connection address ↔
      address = 24 := by
  have holds : ∀ address, memberWritten.connection.holds address =
      ((decide (24 = address) || false) || false) := fun _ => rfl
  constructor
  · intro spared
    induction spared with
    | held isHeld =>
        rw [holds] at isHeld
        simpa [eq_comm] using isHeld
    | member _ isMember _ => cases isMember
  · rintro rfl
    exact .held (by rw [holds]; rfl)

theorem mergeMember_room : Roomy mergeMember.registry := ⟨48, 105, rfl, by decide, rfl⟩

theorem memberWritten_room : Roomy memberWritten.registry := ⟨48, 105, rfl, by decide, rfl⟩

end Pthreads.Store
