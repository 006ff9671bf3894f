import Pthreads.ArrayConversion

/-!
# Merging an array into a new ThreadedArray

A write of a new key adds one element to the two tables of its object and leaves all
other objects as they are.  From this follows, by recursion over the nested arrays, that
`pthreads_store_merge` places every element, and that the object built for a nested
array keeps the one reference that its parent's local table adds.
-/

namespace Pthreads.ArrayConversion

open ObjectGraph Store
open ObjectRegistry (Registry)

section Writes

variable {thread object tsObj : Nat} {heap after : Heap} {key : Key} {value : Zval}
  {storage : Storage}

/-- The local table after a write of a new key. -/
def writtenTable (properties : Option (OrderedTable Key Zval)) (key : Key) (value : Zval) :
    Option (OrderedTable Key Zval) :=
  if retainInLocalCache value then
    some ((properties.getD OrderedTable.empty).update key value)
  else properties

theorem find_writtenTable_other {properties : Option (OrderedTable Key Zval)} {other : Key}
    (different : other ≠ key) :
    ((writtenTable properties key value).bind fun table => table.find other) =
      properties.bind fun table => table.find other := by
  unfold writtenTable
  split
  · rw [Option.bind_some, OrderedTable.find_update_other _ _ different]
    cases properties <;> rfl
  · rfl

/-- The heap after a write of a new key. -/
def Heap.written (heap : Heap) (object tsObj : Nat) (key : Key) (value : Zval)
    (storage : Storage) : Heap where
  world :=
    { registry := heap.world.registry
      props := Function.update heap.world.props tsObj
        { heap.world.props tsObj with
          hash := (heap.world.props tsObj).hash.update key storage }
      locals := Function.update heap.world.locals object
        ⟨writtenTable (heap.world.locals object).properties key value,
          (heap.world.props tsObj).modcount⟩ }
  refcounts := addrefValue heap.refcounts value
  supply := heap.supply

theorem unsyncedValues_self (properties : Option (OrderedTable Key Zval)) :
    unsyncedValues properties properties = [] := by
  cases properties with
  | none => rfl
  | some table =>
      simp only [unsyncedValues, Option.bind_some, List.map_eq_nil_iff,
        List.filter_eq_nil_iff, Option.isNone_iff_eq_none]
      intro entry isIn absent
      exact OrderedTable.find_eq_none_iff.mp absent (List.mem_map_of_mem isIn)

/-- Where nothing leaves the local table, a write only adds a reference. -/
theorem countWrite_eq {properties : Option (OrderedTable Key Zval)} (refcounts : Nat → Nat)
    (absent : (properties.bind fun table => table.find key) = none) :
    countWrite refcounts properties properties key value =
      some (addrefValue refcounts value) := by
  simp only [countWrite, unsyncedValues_self, absent, List.foldlM_nil, Option.toList_none,
    Option.pure_def, Option.bind_eq_bind, Option.bind_some]
  split
  · rfl
  · next notRetained =>
    cases value <;> first | rfl | exact absurd rfl notRetained

theorem syncLocalProperties_ready {registry : Registry} {hash : HashTable} {modcount : Int}
    {locals : LocalTable}
    (synced : locals.localPropsModcount = modcount ∨ locals.properties = none) :
    syncLocalProperties registry ⟨hash, modcount⟩
        ⟨thread, locals.properties, locals.localPropsModcount, none⟩ =
      ⟨thread, locals.properties, modcount, none⟩ := by
  unfold syncLocalProperties
  split
  · next same =>
    have equal : locals.localPropsModcount = modcount := same
    rw [equal]
  · next behind =>
    rcases synced with same | absent
    · exact absurd same behind
    · rw [absent]
      rfl

/-- A write of a new key into a ThreadedArray, by the thread that builds it. -/
theorem writeValue_eq (ready : Ready heap.world object tsObj) (canonical : key.Canonical)
    (absent : (heap.world.props tsObj).hash.find key = none)
    (saved : saveZval heap.world.registry thread value = some storage) :
    writeValue thread heap object key value =
      some (heap.written object tsObj key value storage) := by
  have notCacheable : memberIsCacheable (heap.world.props tsObj) key = false := by
    simp [memberIsCacheable, absent]
  have isKey : coerce key.toZval = key := canonical
  have stored : writtenValue heap.world.registry thread value false ⟨0, 0, 0⟩ =
      some (heap.world.registry, value) := by
    simp [writtenValue]
  have wrote : storeWrite heap.world.registry (heap.world.props tsObj)
      (heap.world.connection thread object) (some key.toZval) value false ⟨0, 0, 0⟩ =
        some (some ⟨heap.world.registry,
          { heap.world.props tsObj with
            hash := (heap.world.props tsObj).hash.update key storage },
          ⟨thread, (heap.world.locals object).properties, (heap.world.props tsObj).modcount,
            some (.update key value)⟩, key, value⟩) := by
    simp only [storeWrite, World.connection, stored, saved, Option.bind_eq_bind,
      Option.bind_some, Option.map_some, Option.getD_some, isKey, notCacheable, bumpModcount,
      Bool.false_eq_true, if_false]
    rw [syncLocalProperties_ready ready.synced]
  simp only [writeValue, ready.attached, wrote, Option.bind_eq_bind, Option.bind_some,
    countWrite_eq _ (ready.within key absent)]
  congr 1
  simp only [Heap.written, World.setLocal, finishPending, updateLocalProperty, writtenTable]
  split <;> rfl

theorem le_addrefValue (refcounts : Nat → Nat) (value : Zval) (address : Nat) :
    refcounts address ≤ addrefValue refcounts value address := by
  cases value with
  | threaded other =>
      by_cases same : address = other
      · subst same
        simp [addrefValue]
      · simp [addrefValue, same]
  | _ => exact Nat.le_refl _

theorem written_spares (object tsObj : Nat) (heap : Heap) (key : Key) (value : Zval)
    (storage : Storage) :
    Spares object tsObj heap (heap.written object tsObj key value storage) := by
  refine ⟨?_, ?_, ?_, ?_, ?_, ?_⟩
  · exact fun _ _ found => found
  · exact fun _ present => present
  · exact Finset.Subset.refl _
  · exact fun _ _ different => Function.update_of_ne different _ _
  · exact fun _ _ different => Function.update_of_ne different _ _
  · exact fun address _ => le_addrefValue heap.refcounts value address

theorem written_supplied (supplied : heap.Supplied) :
    (heap.written object tsObj key value storage).Supplied :=
  ⟨supplied.free, supplied.addresses, supplied.tsObjs⟩

theorem written_find (other : Key) :
    ((heap.written object tsObj key value storage).world.props tsObj).hash.find other =
      if other = key then some storage else (heap.world.props tsObj).hash.find other := by
  simp only [Heap.written, Function.update_self]
  exact find_hash_update _ key other storage

theorem written_locals :
    (heap.written object tsObj key value storage).world.locals object =
      ⟨writtenTable (heap.world.locals object).properties key value,
        (heap.world.props tsObj).modcount⟩ := by
  simp [Heap.written]

theorem written_ready (ready : Ready heap.world object tsObj) :
    Ready (heap.written object tsObj key value storage).world object tsObj := by
  refine ⟨ready.attached, ready.shared, Or.inl ?_, ?_⟩
  · simp [Heap.written]
  · intro other absent
    rw [written_find] at absent
    split at absent
    · cases absent
    · next different =>
      rw [written_locals, find_writtenTable_other different]
      exact ready.within other absent

theorem written_keys (absent : (heap.world.props tsObj).hash.find key = none) :
    ((heap.written object tsObj key value storage).world.props tsObj).hash.table.keys =
      (heap.world.props tsObj).hash.table.keys ++ [key] := by
  have notIn : key ∉ (heap.world.props tsObj).hash.table.keys :=
    OrderedTable.find_eq_none_iff.mp absent
  simp only [Heap.written, Function.update_self, HashTable.update]
  rw [OrderedTable.keys_update, if_neg notIn]

theorem written_other {other : Key} (different : other ≠ key) :
    cachedMember (heap.written object tsObj key value storage).world object other =
        cachedMember heap.world object other ∧
      ((heap.written object tsObj key value storage).world.props tsObj).hash.find other =
        (heap.world.props tsObj).hash.find other := by
  rw [written_find, if_neg different, cachedMember, written_locals,
    find_writtenTable_other different]
  exact ⟨rfl, rfl⟩

theorem written_cached (ready : Ready heap.world object tsObj)
    (absent : (heap.world.props tsObj).hash.find key = none)
    (valid : validLocalCacheItem value = true) :
    cachedMember (heap.written object tsObj key value storage).world object key =
      if retainInLocalCache value then some value else none := by
  rw [cachedMember, written_locals]
  unfold writtenTable
  split
  · simp [valid]
  · rw [ready.within key absent]
    rfl

end Writes

section Leaves

variable {registry before : Registry} {enumCases : EnumCases} {thread : Nat} {value : Zval}
  {storage : Storage}

theorem leaf_saved (storable : Storable registry enumCases thread value)
    (isLeaf : arrayCount value = 0) : ∃ storage, saveZval registry thread value = some storage := by
  cases value with
  | array entries => simp [arrayCount] at isLeaf
  | reference target => exact absurd storable id
  | indirect slot => exact absurd storable id
  | enumCase className memberName => exact ⟨_, rfl⟩
  | _ => exact storable

/-- A leaf that the local table does not take is restored as it was. -/
theorem leaf_stands {later : Registry} (storable : Storable registry enumCases thread value)
    (isLeaf : arrayCount value = 0) (saved : saveZval later thread value = some storage)
    {world : World} :
    Stands before enumCases thread world
      (if retainInLocalCache value then some value else none) (some storage) value := by
  cases value with
  | array entries => simp [arrayCount] at isLeaf
  | reference target => exact absurd storable id
  | indirect slot => exact absurd storable id
  | string text => exact Or.inl rfl
  | threaded address => exact Or.inl rfl
  | closure made => exact Or.inl rfl
  | socket opened hasStream => exact Or.inl rfl
  | undef => cases saved
  | object pointer => cases saved
  | enumCase className memberName =>
      cases saved
      exact Or.inr ⟨rfl, rfl, _, rfl, fun _ _ => if_pos storable⟩
  | null | bool | long | double | resource =>
      cases saved
      exact Or.inr ⟨rfl, rfl, _, rfl, fun _ _ => rfl⟩

end Leaves

/-- What merging elements with new keys into an object has done. -/
structure Merges (enumCases : EnumCases) (thread object tsObj : Nat)
    (entries : List (Key × Zval)) (heap after : Heap) : Prop where
  supply : after.supply = heap.supply.drop (arrayCountAll entries)
  supplied : after.Supplied
  spares : Spares object tsObj heap after
  ready : Ready after.world object tsObj
  keys : (after.world.props tsObj).hash.table.keys =
    (heap.world.props tsObj).hash.table.keys ++ entries.map Prod.fst
  others : ∀ key ∉ entries.map Prod.fst,
    cachedMember after.world object key = cachedMember heap.world object key ∧
      (after.world.props tsObj).hash.find key = (heap.world.props tsObj).hash.find key
  stands : StandsAll heap.world.registry enumCases thread after.world object tsObj entries
  alive : ∀ address, heap.world.registry.zobjs address = none →
    (after.world.registry.zobjs address).isSome → after.Alive address

section Merging

variable {enumCases : EnumCases} {thread object tsObj child shared : Nat}
  {heap made middle merged after : Heap} {key : Key} {value : Zval}
  {entries : List (Key × Zval)}

theorem merges_nil (supplied : heap.Supplied) (ready : Ready heap.world object tsObj) :
    Merges enumCases thread object tsObj [] heap heap := by
  refine ⟨rfl, supplied, ⟨?_, ?_, ?_, ?_, ?_, ?_⟩, ready, ?_, ?_, trivial, ?_⟩
  · exact fun _ _ found => found
  · exact fun _ present => present
  · exact Finset.Subset.refl _
  · exact fun _ _ _ => rfl
  · exact fun _ _ _ => rfl
  · exact fun _ _ => Nat.le_refl _
  · exact (List.append_nil _).symm
  · exact fun _ _ => ⟨rfl, rfl⟩
  · intro address absent present
    rw [absent] at present
    cases present

/-- What is new in a later heap is new in an earlier one. -/
theorem Spares.new (spares : Spares object tsObj heap made) :
    (∀ address, made.world.registry.zobjs address = none →
        heap.world.registry.zobjs address = none) ∧
      ∀ address, made.world.registry.tsObjs address = none →
        heap.world.registry.tsObjs address = none := by
  constructor
  · intro address new
    by_contra present
    have still := spares.present (Option.isSome_iff_ne_none.mpr present)
    rw [new] at still
    cases still
  · intro address new
    by_contra present
    have still := spares.tsObjs address (Option.isSome_iff_ne_none.mpr present)
    rw [new] at still
    cases still

theorem Spares.standsAll {world : World} (spares : Spares object tsObj heap made)
    (stands : StandsAll made.world.registry enumCases thread world child shared entries) :
    StandsAll heap.world.registry enumCases thread world child shared entries := by
  obtain ⟨newObject, newShared⟩ := spares.new
  apply StandsAll.later _ (fun _ _ => ⟨rfl, rfl⟩) stands
  intro other shared newOther isNew isReady
  exact ⟨newObject other newOther, newShared shared isNew, isReady.attached, isReady.shared, rfl,
    rfl⟩

/-- The first element stands while the others are merged. -/
theorem Merges.cons (ready : Ready heap.world object tsObj)
    (first : Merges enumCases thread object tsObj [(key, value)] heap middle)
    (rest : Merges enumCases thread object tsObj entries middle after)
    (apart : key ∉ entries.map Prod.fst) :
    Merges enumCases thread object tsObj ((key, value) :: entries) heap after := by
  have known := zobjs_of_attached ready.attached
  refine ⟨?_, rest.supplied, ?_, rest.ready, ?_, ?_, ⟨?_, ?_⟩, ?_⟩
  · rw [rest.supply, first.supply, List.drop_drop]
    simp [arrayCountAll]
  · exact first.spares.trans rest.spares (Or.inl rfl) (Or.inl rfl)
  · rw [rest.keys, first.keys]
    simp
  · intro other notIn
    simp only [List.map_cons, List.mem_cons, not_or] at notIn
    obtain ⟨laterCached, laterStored⟩ := rest.others other notIn.2
    obtain ⟨cached, stored⟩ := first.others other (by simpa using notIn.1)
    exact ⟨laterCached.trans cached, laterStored.trans stored⟩
  · obtain ⟨sameCached, sameStored⟩ := rest.others key apart
    rw [sameCached, sameStored]
    apply Stands.later (rest.spares.keepsNew known ready.shared)
    exact first.stands.1
  · exact first.spares.standsAll rest.stands
  · intro address new present
    cases inMiddle : middle.world.registry.zobjs address with
    | none => exact rest.alive address inMiddle present
    | some zobj =>
        apply rest.spares.alive
        apply first.alive address new
        rw [inMiddle]
        rfl

/-- A leaf is written. -/
theorem merges_leaf {registry : Registry} {storage : Storage} (supplied : heap.Supplied)
    (ready : Ready heap.world object tsObj)
    (absent : (heap.world.props tsObj).hash.find key = none)
    (storable : Storable registry enumCases thread value) (isLeaf : arrayCount value = 0)
    (saved : saveZval heap.world.registry thread value = some storage) :
    Merges enumCases thread object tsObj [(key, value)] heap
      (heap.written object tsObj key value storage) := by
  have valid : validLocalCacheItem value = true := by
    cases value with
    | indirect slot => exact absurd storable id
    | _ => rfl
  refine ⟨?_, written_supplied supplied, written_spares .., written_ready ready,
    written_keys absent, ?_, ⟨?_, trivial⟩, ?_⟩
  · simp [arrayCountAll, isLeaf, Heap.written]
  · intro other notIn
    exact written_other (by simpa using notIn)
  · rw [written_cached ready absent valid, written_find, if_pos rfl]
    exact leaf_stands storable isLeaf saved
  · intro address new present
    have still : heap.world.registry.zobjs address ≠ none := Option.isSome_iff_ne_none.mp present
    exact absurd new still

theorem setRefcount_spares {count : Nat} (spares : Spares object tsObj heap merged)
    (new : heap.world.registry.zobjs child = none) :
    Spares object tsObj heap (merged.setRefcount child count) := by
  refine ⟨spares.zobjs, spares.tsObjs, spares.objects, spares.locals, spares.props, ?_⟩
  intro address present
  have other : address ≠ child := by
    rintro rfl
    rw [new] at present
    cases present
  have same : (merged.setRefcount child count).refcounts address = merged.refcounts address :=
    Function.update_of_ne other _ _
  rw [same]
  exact spares.refcounts address present

section Nested

variable {storage : Storage} (supplied : heap.Supplied)
  (isMade : Made thread child shared heap made)
  (nested : Merges enumCases thread child shared entries made merged)

include supplied isMade

theorem Made.apart (ready : Ready heap.world object tsObj) : object ≠ child ∧ tsObj ≠ shared := by
  obtain ⟨unused, unshared, -⟩ := isMade.unused supplied
  constructor
  · rintro rfl
    have present := zobjs_of_attached ready.attached
    rw [unused] at present
    cases present
  · rintro rfl
    have present := ready.shared
    rw [unshared] at present
    cases present

include nested

/-- Building the new object does not touch the one that it is built for. -/
theorem Made.sameAt (ready : Ready heap.world object tsObj) :
    SameAt object tsObj heap.world (merged.setRefcount child 0).world := by
  obtain ⟨apart, apartShared⟩ := isMade.apart supplied ready
  have spares : Spares child shared heap merged :=
    (isMade.spares supplied).trans nested.spares (Or.inl rfl) (Or.inl rfl)
  exact spares.sameAt ready apart apartShared

theorem nested_spares : Spares object tsObj heap
    ((merged.setRefcount child 0).written object tsObj key (.threaded child) storage) := by
  obtain ⟨unused, unshared, -⟩ := isMade.unused supplied
  have spares : Spares object tsObj heap merged :=
    (isMade.spares supplied).trans nested.spares (Or.inr unused) (Or.inr unshared)
  exact (setRefcount_spares spares unused).trans (written_spares ..) (Or.inl rfl) (Or.inl rfl)

/-- The array stands in the member that the new object is written to. -/
theorem nested_stands (ready : Ready heap.world object tsObj) {stored : Option Storage} :
    Stands heap.world.registry enumCases thread
      ((merged.setRefcount child 0).written object tsObj key (.threaded child) storage).world
      (some (.threaded child)) stored (.array entries) := by
  obtain ⟨unused, unshared, -⟩ := isMade.unused supplied
  obtain ⟨apart, apartShared⟩ := isMade.apart supplied ready
  have grown : Spares object tsObj heap made := isMade.spares supplied
  have writes := written_spares object tsObj (merged.setRefcount child 0) key (.threaded child)
    storage
  have same := writes.sameAt nested.ready apart.symm apartShared.symm
  refine ⟨child, shared, rfl, unused, unshared, nested.ready.later same, ?_, ?_⟩
  · rw [same.props]
    apply nested.keys.trans
    rw [isMade.props, Function.update_self]
    rfl
  · apply StandsAll.later _ _ nested.stands
    · intro other shared newOther newShared isReady
      obtain ⟨-, -, keeps⟩ := writes.keepsNew
        (grown.present (zobjs_of_attached ready.attached)) (grown.tsObjs tsObj ready.shared)
        other shared newOther newShared isReady
      exact ⟨grown.new.1 other newOther, grown.new.2 shared newShared, keeps⟩
    · intro other _
      rw [cachedMember, same.locals, same.props]
      exact ⟨rfl, rfl⟩

/-- The local table that the new object is written to gives it its reference. -/
theorem nested_alive {address : Nat} (new : heap.world.registry.zobjs address = none)
    (present : (merged.world.registry.zobjs address).isSome) :
    ((merged.setRefcount child 0).written object tsObj key (.threaded child) storage).Alive
      address := by
  by_cases isChild : address = child
  · subst isChild
    have alive := nested.spares.alive (isMade.alive supplied)
    refine ⟨?_, alive.valid, alive.attached⟩
    simp [Heap.written, Heap.setRefcount, addrefValue]
  · have unmade : made.world.registry.zobjs address = none := by
      rw [isMade.zobjs, Function.update_of_ne isChild, new]
    have alive := nested.alive address unmade present
    refine ⟨?_, alive.valid, alive.attached⟩
    have same : (merged.setRefcount child 0).refcounts address = merged.refcounts address :=
      Function.update_of_ne isChild _ _
    have kept := le_addrefValue (merged.setRefcount child 0).refcounts (.threaded child) address
    rw [same] at kept
    exact alive.referenced.trans_le kept

/-- An array has been merged into a new object, and that is written. -/
theorem merges_array (ready : Ready heap.world object tsObj)
    (absent : (heap.world.props tsObj).hash.find key = none) :
    Merges enumCases thread object tsObj [(key, .array entries)] heap
      ((merged.setRefcount child 0).written object tsObj key (.threaded child) storage) := by
  have same := isMade.sameAt supplied nested ready
  have isReady := ready.later same
  have stillAbsent : ((merged.setRefcount child 0).world.props tsObj).hash.find key = none := by
    rw [same.props]
    exact absent
  refine ⟨?_, ?_, nested_spares supplied isMade nested, written_ready isReady, ?_, ?_,
    ⟨?_, trivial⟩, ?_⟩
  · rw [Heap.written, Heap.setRefcount, nested.supply, isMade.supply]
    simp [arrayCountAll, arrayCount]
  · exact written_supplied ⟨nested.supplied.free, nested.supplied.addresses,
      nested.supplied.tsObjs⟩
  · rw [written_keys stillAbsent, same.props]
    rfl
  · intro other notIn
    have unchanged := @written_other object tsObj (merged.setRefcount child 0) key
      (.threaded child) storage other (by simpa using notIn)
    rw [unchanged.1, unchanged.2, cachedMember, same.locals, same.props]
    exact ⟨rfl, rfl⟩
  · rw [written_cached isReady stillAbsent rfl]
    exact nested_stands supplied isMade nested ready
  · intro address new present
    exact nested_alive supplied isMade nested new present

/-- The new object can be stored. -/
theorem writes_array (ready : Ready heap.world object tsObj) (canonical : key.Canonical)
    (absent : (heap.world.props tsObj).hash.find key = none)
    (init : objectInit thread heap = some (made, child))
    (merging : storeMergeCoerced thread entries made child = some merged) :
    ∃ after, storeWriteCoerced thread (.array entries) heap object key = some after ∧
      Merges enumCases thread object tsObj [(key, .array entries)] heap after := by
  have same := isMade.sameAt supplied nested ready
  have stillAbsent : ((merged.setRefcount child 0).world.props tsObj).hash.find key = none := by
    rw [same.props]
    exact absent
  obtain ⟨zobj, found, -⟩ := Option.bind_eq_some_iff.mp nested.ready.attached
  have saved : saveZval (merged.setRefcount child 0).world.registry thread (.threaded child) =
      some (.pthreads (ObjectRegistry.savedAddress zobj child)) := by
    simp [saveZval, storeCreate, Heap.setRefcount, found]
  have written : storeWriteCoerced thread (.array entries) heap object key =
      writeValue thread (merged.setRefcount child 0) object key (.threaded child) := by
    simp only [storeWriteCoerced, init, merging, Option.bind_eq_bind, Option.bind_some]
  exact ⟨_, written.trans (writeValue_eq (ready.later same) canonical stillAbsent saved),
    merges_array supplied isMade nested ready absent⟩

end Nested

theorem writes_leaf {base : Registry} (supplied : heap.Supplied)
    (ready : Ready heap.world object tsObj) (grows : Grows base heap.world.registry)
    (canonical : key.Canonical) (absent : (heap.world.props tsObj).hash.find key = none)
    (storable : Storable base enumCases thread value) (isLeaf : arrayCount value = 0) :
    ∃ after, storeWriteCoerced thread value heap object key = some after ∧
      Merges enumCases thread object tsObj [(key, value)] heap after := by
  obtain ⟨storage, saved⟩ := leaf_saved storable isLeaf
  have savedLater := grows.saveZval thread saved
  have asItIs : storeWriteCoerced thread value heap object key =
      writeValue thread heap object key value := by
    cases value with
    | array entries => simp [arrayCount] at isLeaf
    | _ => rfl
  refine ⟨_, ?_, merges_leaf supplied ready absent storable isLeaf savedLater⟩
  rw [asItIs]
  exact writeValue_eq ready canonical absent savedLater

/-- An array whose elements can be merged into a new object is. -/
theorem builds_array {base : Registry}
    (merges : ∀ (heap : Heap) (object tsObj : Nat), heap.Supplied →
      Ready heap.world object tsObj → Grows base heap.world.registry →
      arrayCountAll entries ≤ heap.supply.length →
      (∀ key ∈ entries.map Prod.fst, (heap.world.props tsObj).hash.find key = none) →
        ∃ after, storeMergeCoerced thread entries heap object = some after ∧
          Merges enumCases thread object tsObj entries heap after)
    (supplied : heap.Supplied) (grows : Grows base heap.world.registry)
    (enough : arrayCount (.array entries) ≤ heap.supply.length) :
    ∃ made child shared merged, objectInit thread heap = some (made, child) ∧
      Made thread child shared heap made ∧
      storeMergeCoerced thread entries made child = some merged ∧
      Merges enumCases thread child shared entries made merged := by
  rw [arrayCount] at enough
  have nonempty : heap.supply ≠ [] := by
    intro empty
    rw [empty, List.length_nil] at enough
    omega
  obtain ⟨made, child, shared, init, isMade⟩ := @objectInit_made thread heap supplied nonempty
  have grown : Spares child shared heap made := isMade.spares supplied
  have left : arrayCountAll entries ≤ made.supply.length := by
    rw [isMade.supply, List.length_cons] at enough
    omega
  have empty : ∀ key, (made.world.props shared).hash.find key = none := by
    intro key
    rw [isMade.props, Function.update_self]
    rfl
  obtain ⟨merged, merging, nested⟩ := merges made child shared (isMade.supplied supplied)
    isMade.ready (fun address zobj found => grown.zobjs address zobj (grows address zobj found))
    left (fun key _ => empty key)
  exact ⟨made, child, shared, merged, init, isMade, merging, nested⟩

mutual

/-- Every value that can be stored is written. -/
theorem storeWriteCoerced_merges {base : Registry} :
    ∀ (value : Zval) (heap : Heap) (object tsObj : Nat) (key : Key), heap.Supplied →
      Ready heap.world object tsObj → Grows base heap.world.registry →
      arrayCount value ≤ heap.supply.length → key.Canonical →
      (heap.world.props tsObj).hash.find key = none → Storable base enumCases thread value →
        ∃ after, storeWriteCoerced thread value heap object key = some after ∧
          Merges enumCases thread object tsObj [(key, value)] heap after
  | .array entries => by
      intro heap object tsObj key supplied ready grows enough canonical absent storable
      obtain ⟨made, child, shared, merged, init, isMade, merging, nested⟩ := builds_array
        (fun heap object tsObj supplied ready grows enough absent => storeMergeCoerced_merges
          entries heap object tsObj supplied ready grows enough absent storable.1 storable.2)
        supplied grows enough
      exact writes_array supplied isMade nested ready canonical absent init merging
  | .undef | .null | .bool _ | .long _ | .double _ | .string _ | .threaded _ | .closure _
  | .socket _ _ | .enumCase _ _ | .object _ | .resource _ | .reference _ | .indirect _ => by
      intro heap object tsObj key supplied ready grows _ canonical absent storable
      exact writes_leaf supplied ready grows canonical absent storable rfl

theorem storeMergeCoerced_merges {base : Registry} :
    ∀ (entries : List (Key × Zval)) (heap : Heap) (object tsObj : Nat), heap.Supplied →
      Ready heap.world object tsObj → Grows base heap.world.registry →
      arrayCountAll entries ≤ heap.supply.length →
      (∀ key ∈ entries.map Prod.fst, (heap.world.props tsObj).hash.find key = none) →
      (entries.map Prod.fst).Nodup → StorableAll base enumCases thread entries →
        ∃ after, storeMergeCoerced thread entries heap object = some after ∧
          Merges enumCases thread object tsObj entries heap after
  | [] => by
      intro heap object tsObj supplied ready _ _ _ _ _
      exact ⟨heap, rfl, merges_nil supplied ready⟩
  | (key, value) :: entries => by
      intro heap object tsObj supplied ready grows enough absent distinct storable
      obtain ⟨⟨canonical, valueStorable⟩, restStorable⟩ := storable
      obtain ⟨apart, restDistinct⟩ := List.nodup_cons.mp distinct
      rw [arrayCountAll] at enough
      obtain ⟨middle, written, first⟩ := storeWriteCoerced_merges value heap object tsObj key
        supplied ready grows (by omega) canonical (absent key List.mem_cons_self) valueStorable
      have left : arrayCountAll entries ≤ middle.supply.length := by
        rw [first.supply, List.length_drop]
        simp only [arrayCountAll]
        omega
      have restAbsent : ∀ other ∈ entries.map Prod.fst,
          (middle.world.props tsObj).hash.find other = none := by
        intro other isIn
        have different : other ∉ [(key, value)].map Prod.fst := by
          intro isKey
          cases List.mem_singleton.mp isKey
          exact apart isIn
        rw [(first.others other different).2]
        exact absent other (List.mem_cons_of_mem _ isIn)
      obtain ⟨after, merged, rest⟩ := storeMergeCoerced_merges entries middle object tsObj
        first.supplied first.ready (fun address zobj found =>
          first.spares.zobjs address zobj (grows address zobj found)) left restAbsent
        restDistinct restStorable
      refine ⟨after, ?_, first.cons ready rest apart⟩
      simp only [storeMergeCoerced, written, Option.bind_eq_bind, Option.bind_some]
      exact merged

end

end Merging

end Pthreads.ArrayConversion
