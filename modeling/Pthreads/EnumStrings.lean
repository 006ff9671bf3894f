import Pthreads.GuardedRuns
import Pthreads.PartialFolds
import Pthreads.StoreOperations
import Pthreads.TableSums
import Mathlib.Algebra.Order.Group.Multiset
import Mathlib.Tactic.Abel

/-!
# Who owns the names in enum storages

A storage of an enum case has two strings of its own, the persistent copies of
the names of the class and of the case, unless these are permanent.
`pthreads_store_storage_dtor` frees them with the storage.  The tables of all
shared objects are in one world here.  A merge of an array or of a plain object,
and a write of an array that is turned into a ThreadedArray, are runs of writes.
-/

namespace Pthreads.EnumStrings

open GuardedRuns PartialFolds
open Store (Key Storage ZString saveString hardCopyStorage persistStorage)

/-- An element of a shared table: `pthreads_enum_storage_t`, or any other storage. -/
inductive Element where
  | enumCase (className memberName : ZString)
  | other (storage : Storage)
deriving DecidableEq, Repr

/-- What a write is given: an enum case, with the names of its class entry and of
the case, or a value that is saved as another storage. -/
inductive Value where
  | enumCase (className memberName : ZString)
  | other (storage : Storage)

/-- `pthreads_store_save_zval`, with the strings that the allocator returns. -/
def saveValue (classPointer memberPointer : Nat) : Value → Element
  | .enumCase className memberName =>
      .enumCase (saveString className classPointer) (saveString memberName memberPointer)
  | .other storage => .other storage

/-- What `zend_string_free` gives back: permanent strings are interned. -/
def stringFree (string : ZString) : List Nat := if string.permanent then [] else [string.pointer]

/-- The strings that the destructor of a storage frees. -/
def Element.names : Element → List Nat
  | .enumCase className memberName => stringFree className ++ stringFree memberName
  | .other _ => []

/-- `pthreads_store_hard_copy_storage`: an enum storage is copied byte for byte. -/
def hardCopyElement (pointer : Nat) : Element → Element
  | .enumCase className memberName => .enumCase className memberName
  | .other storage => .other (hardCopyStorage pointer storage)

/-- `pthreads_store_persist_local_properties` for one element. -/
def persistElement (thread pointer : Nat) : Element → Element
  | .enumCase className memberName => .enumCase className memberName
  | .other storage => .other (persistStorage thread pointer storage)

/-- The tables of the shared objects that exist.  The program keeps no record of
the strings it has saved for enum storages, nor of those it has freed. -/
structure World where
  tables : OrderedTable Nat (OrderedTable Key Element)
  saved : List Nat
  released : List Nat

def initial : World := ⟨OrderedTable.empty, [], []⟩

/-- `pthreads_store_storage_dtor`. -/
def storageDtor (world : World) (element : Element) : World :=
  { world with released := world.released ++ element.names }

def World.setTable (world : World) (object : Nat) (table : OrderedTable Key Element) : World :=
  { world with tables := world.tables.update object table }

/-- The table's destructor is called for the element, if there is one. -/
def destroyFound (world : World) (found : Option Element) : World :=
  match found with
  | none => world
  | some element => storageDtor world element

/-- `pthreads_store_update_shared_property`. -/
def updateSharedProperty (world : World) (object : Nat) (key : Key) (element : Element) :
    Option World := do
  let table ← world.tables.find object
  some ((destroyFound world (table.find key)).setTable object (table.update key element))

/-- `zend_hash_del` and `zend_hash_index_del` on a shared table. -/
def removeElement (object : Nat) (world : World) (key : Key) : Option World := do
  let table ← world.tables.find object
  some ((destroyFound world (table.find key)).setTable object (table.delete key))

/-- Remove elements in order. -/
def removeElements (world : World) (object : Nat) (keys : List Key) : Option World :=
  keys.foldlM (removeElement object) world

/-- `pthreads_store_write` under the key that it resolves; if the monitor cannot
be locked the storage is destroyed again. -/
def storeWrite (world : World) (object : Nat) (key : Key) (value : Value)
    (classPointer memberPointer : Nat) (locked : Bool) : Option World :=
  let element := saveValue classPointer memberPointer value
  if element.names.Nodup ∧ ∀ pointer ∈ element.names, pointer ∉ world.saved then
    let saved := { world with saved := world.saved ++ element.names }
    if locked then updateSharedProperty saved object key element
    else some (storageDtor saved element)
  else none

/-- One element of the storage-copying path of `pthreads_store_merge`. -/
def mergeElement (destination : Nat) (overwrite : Bool) (pointers : Key → Nat) (world : World)
    (entry : Key × Element) : Option World := do
  let table ← world.tables.find destination
  if ¬ overwrite ∧ (table.find entry.1).isSome then some world
  else updateSharedProperty world destination entry.1 (hardCopyElement (pointers entry.1) entry.2)

/-- `pthreads_store_merge` from a ThreadedArray.  Merging an array into itself
changes no element before it is its turn. -/
def storeMerge (world : World) (destination source : Nat) (overwrite : Bool)
    (pointers : Key → Nat) : Option World := do
  let table ← world.tables.find source
  table.entries.foldlM (mergeElement destination overwrite pointers) world

/-- `pthreads_store_destroy`. -/
def storeDestroy (world : World) (object : Nat) : Option World := do
  let table ← world.tables.find object
  let emptied ← removeElements world object table.keys
  some { emptied with tables := emptied.tables.delete object }

inductive Action where
  /-- A shared object is created. -/
  | create (object : Nat)
  /-- A write, with the strings that the allocator returns: none of them was
  returned before. -/
  | write (object : Nat) (key : Key) (value : Value) (classPointer memberPointer : Nat)
      (locked : Bool)
  | delete (object : Nat) (key : Key)
  | shift (object : Nat)
  | pop (object : Nat)
  | chunk (object : Nat) (size : Int)
  | merge (destination source : Nat) (overwrite : Bool) (pointers : Key → Nat)
  /-- A connection that is not the last one is freed. -/
  | persist (object thread : Nat) (pointers : Key → Nat)
  /-- The shared object is freed. -/
  | destroy (object : Nat)

def step (world : World) : Action → Option World
  | .create object =>
      if (world.tables.find object).isNone then some (world.setTable object OrderedTable.empty)
      else none
  | .write object key value classPointer memberPointer locked =>
      storeWrite world object key value classPointer memberPointer locked
  | .delete object key => removeElement object world key
  | .shift object => do
      let table ← world.tables.find object
      removeElements world object table.keys.head?.toList
  | .pop object => do
      let table ← world.tables.find object
      removeElements world object table.keys.getLast?.toList
  | .chunk object size => do
      let table ← world.tables.find object
      removeElements world object (table.keys.take size.toNat)
  | .merge destination source overwrite pointers =>
      storeMerge world destination source overwrite pointers
  | .persist object thread pointers => do
      let table ← world.tables.find object
      some (world.setTable object
        (table.mapValues fun key element => persistElement thread (pointers key) element))
  | .destroy object => storeDestroy world object

/-- The strings that storages in some table refer to, with multiplicity. -/
def World.referenced (world : World) : Multiset Nat :=
  world.tables.weight fun table => table.weight fun element => (element.names : Multiset Nat)

/-- Every string that was saved was released once and is not referred to any more,
or was not released and has one storage that refers to it. -/
def ReleasedOnce (world : World) : Prop :=
  ∀ pointer ∈ world.saved,
    (world.released.count pointer = 1 ∧ pointer ∉ world.referenced) ∨
    (pointer ∉ world.released ∧ world.referenced.count pointer = 1)

/-- A merge copies no enum storage with a name of its own. -/
def CopiesNoNames (world : World) : Action → Prop
  | .merge destination source overwrite _ =>
      ∀ from_ into, world.tables.find source = some from_ →
        world.tables.find destination = some into → ∀ entry ∈ from_.entries,
          (overwrite = true ∨ into.find entry.1 = none) → entry.2.names = []
  | _ => True

/-- Every saved string is released, or belongs to a storage in some table, or to a
storage that is in none at the moment. -/
structure World.Owns (world : World) (inFlight : Multiset Nat) : Prop where
  distinct : world.saved.Nodup
  balance : (world.saved : Multiset Nat) = world.released + world.referenced + inFlight

theorem owns_initial : initial.Owns 0 := ⟨List.nodup_nil, rfl⟩

/-- What the storages of a table refer to. -/
abbrev tableNames (table : OrderedTable Key Element) : Multiset Nat :=
  table.weight fun element => (element.names : Multiset Nat)

abbrev foundNames (found : Option Element) : Multiset Nat :=
  OrderedTable.weighFound (fun element : Element => (element.names : Multiset Nat)) found

/-- Exchanging the table of an object. -/
theorem referenced_setTable {world : World} {object : Nat} {table : OrderedTable Key Element}
    (isThere : world.tables.find object = some table) (new : OrderedTable Key Element) :
    (world.setTable object new).referenced + tableNames table =
      world.referenced + tableNames new := by
  have exchanged := world.tables.weight_update object new tableNames
  rw [isThere] at exchanged
  exact exchanged

theorem destroyFound_released (world : World) (found : Option Element) :
    ((destroyFound world found).released : Multiset Nat) = world.released + foundNames found := by
  cases found with
  | none => exact (add_zero _).symm
  | some element => exact (Multiset.coe_add _ _).symm

theorem destroyFound_tables (world : World) (found : Option Element) :
    (destroyFound world found).tables = world.tables := by
  cases found <;> rfl

theorem destroyFound_saved (world : World) (found : Option Element) :
    (destroyFound world found).saved = world.saved := by
  cases found <;> rfl

theorem storageDtor_owns {world : World} {element : Element}
    (owns : world.Owns element.names) : (storageDtor world element).Owns 0 := by
  refine ⟨owns.distinct, owns.balance.trans ?_⟩
  have released : ((storageDtor world element).released : Multiset Nat) =
      world.released + element.names := (Multiset.coe_add _ _).symm
  have referenced : (storageDtor world element).referenced = world.referenced := rfl
  rw [released, referenced]
  abel

/-- The element that leaves a table gives its names back, and the one that enters
it brings its own. -/
theorem exchange_owns {world : World} {object : Nat} {table new : OrderedTable Key Element}
    (isThere : world.tables.find object = some table) {found : Option Element}
    {entering : Multiset Nat} (owns : world.Owns entering)
    (exchanged : tableNames new + foundNames found = tableNames table + entering) :
    ((destroyFound world found).setTable object new).Owns 0 := by
  have saved : ((destroyFound world found).setTable object new).saved = world.saved :=
    destroyFound_saved world found
  have released : (((destroyFound world found).setTable object new).released : Multiset Nat) =
      world.released + foundNames found := destroyFound_released world found
  have referenced : ((destroyFound world found).setTable object new).referenced +
      tableNames table = world.referenced + tableNames new := by
    have sameTables := destroyFound_tables world found
    have same : (destroyFound world found).referenced = world.referenced := by
      rw [World.referenced, sameTables, World.referenced]
    rw [← same]
    exact referenced_setTable (by rw [sameTables]; exact isThere) new
  refine ⟨by rw [saved]; exact owns.distinct, ?_⟩
  rw [saved, released, owns.balance, add_zero]
  apply add_right_cancel (b := tableNames table)
  calc world.released + world.referenced + entering + tableNames table
      = world.released + world.referenced + (tableNames table + entering) := by abel
    _ = world.released + foundNames found + (world.referenced + tableNames new) := by
        rw [← exchanged]
        abel
    _ = world.released + foundNames found +
          ((destroyFound world found).setTable object new).referenced + tableNames table := by
        rw [← referenced]
        abel

theorem updateSharedProperty_owns {world after : World} {object : Nat} {key : Key}
    {element : Element} (owns : world.Owns element.names)
    (updated : updateSharedProperty world object key element = some after) : after.Owns 0 := by
  obtain ⟨table, isThere, ⟨⟩⟩ := Option.bind_eq_some_iff.mp updated
  exact exchange_owns isThere owns (table.weight_update key element _)

theorem removeElement_owns {world after : World} {object : Nat} {key : Key}
    (owns : world.Owns 0) (removed : removeElement object world key = some after) :
    after.Owns 0 := by
  obtain ⟨table, isThere, ⟨⟩⟩ := Option.bind_eq_some_iff.mp removed
  exact exchange_owns isThere owns ((table.weight_delete key _).trans (add_zero _).symm)

theorem removeElements_owns {world after : World} {object : Nat} {keys : List Key}
    (owns : world.Owns 0) (removed : removeElements world object keys = some after) :
    after.Owns 0 :=
  foldlM_keeps (fun _ _ owns _ _ removed => removeElement_owns owns removed) removed owns

theorem storeWrite_owns {world after : World} {object : Nat} {key : Key} {value : Value}
    {classPointer memberPointer : Nat} {locked : Bool} (owns : world.Owns 0)
    (wrote : storeWrite world object key value classPointer memberPointer locked = some after) :
    after.Owns 0 := by
  obtain ⟨⟨distinct, fresh⟩, wrote⟩ := Option.ite_none_right_eq_some.mp wrote
  have saved : World.Owns { world with
      saved := world.saved ++ (saveValue classPointer memberPointer value).names }
      (saveValue classPointer memberPointer value).names := by
    constructor
    · refine List.nodup_append.mpr ⟨owns.distinct, distinct, ?_⟩
      rintro pointer old other isNew rfl
      exact fresh pointer isNew old
    · have referenced : World.referenced { world with
          saved := world.saved ++ (saveValue classPointer memberPointer value).names } =
        world.referenced := rfl
      rw [referenced, ← Multiset.coe_add, owns.balance, add_zero]
  cases locked with
  | true => exact updateSharedProperty_owns saved wrote
  | false =>
      cases wrote
      exact storageDtor_owns saved

theorem updateSharedProperty_find {world after : World} {object : Nat} {key : Key}
    {element : Element} {table : OrderedTable Key Element}
    (updated : updateSharedProperty world object key element = some after)
    (isThere : world.tables.find object = some table) :
    after.tables.find object = some (table.update key element) := by
  obtain ⟨found, isFound, ⟨⟩⟩ := Option.bind_eq_some_iff.mp updated
  cases Option.some.inj (isThere.symm.trans isFound)
  exact OrderedTable.find_update_same _ _ _

/-- A copy of an enum storage refers to the same strings. -/
theorem hardCopyElement_names (pointer : Nat) (element : Element) :
    (hardCopyElement pointer element).names = element.names := by
  cases element <;> rfl

/-- What a merge has done so far: the destination has every key that it had. -/
structure Merging (destination : Nat) (into : OrderedTable Key Element) (world : World) :
    Prop where
  owns : world.Owns 0
  kept : ∃ table, world.tables.find destination = some table ∧
    ∀ key, table.find key = none → into.find key = none

theorem mergeElement_merging {destination : Nat} {into : OrderedTable Key Element}
    {overwrite : Bool} {pointers : Key → Nat} {world after : World} {entry : Key × Element}
    (merging : Merging destination into world)
    (nameless : overwrite = true ∨ into.find entry.1 = none → entry.2.names = [])
    (merged : mergeElement destination overwrite pointers world entry = some after) :
    Merging destination into after := by
  obtain ⟨owns, table, isThere, kept⟩ := merging
  obtain ⟨found, isFound, merged⟩ := Option.bind_eq_some_iff.mp merged
  cases Option.some.inj (isThere.symm.trans isFound)
  split at merged
  · cases merged
    exact ⟨owns, table, isThere, kept⟩
  · next copied =>
    have isCopied : overwrite = true ∨ into.find entry.1 = none := by
      by_contra neither
      simp only [not_or, Bool.not_eq_true] at neither
      apply copied
      refine ⟨by simp [neither.1], ?_⟩
      rw [Option.isSome_iff_ne_none]
      exact fun missing => neither.2 (kept entry.1 missing)
    have noNames : (hardCopyElement (pointers entry.1) entry.2).names = [] := by
      rw [hardCopyElement_names, nameless isCopied]
    refine ⟨updateSharedProperty_owns (by rw [noNames]; exact owns) merged, _,
      updateSharedProperty_find merged isThere, ?_⟩
    intro key missing
    by_cases same : key = entry.1
    · subst same
      rw [OrderedTable.find_update_same] at missing
      cases missing
    · rw [OrderedTable.find_update_other table _ same] at missing
      exact kept key missing

theorem storeMerge_owns {world after : World} {destination source : Nat} {overwrite : Bool}
    {pointers : Key → Nat} (owns : world.Owns 0)
    (nameless : CopiesNoNames world (.merge destination source overwrite pointers))
    (merged : storeMerge world destination source overwrite pointers = some after) :
    after.Owns 0 := by
  obtain ⟨from_, isFrom, merged⟩ := Option.bind_eq_some_iff.mp merged
  cases isInto : world.tables.find destination with
  | none =>
      cases entries : from_.entries with
      | nil =>
          rw [entries] at merged
          cases merged
          exact owns
      | cons entry entries' =>
          rw [entries, List.foldlM_cons] at merged
          simp [mergeElement, isInto] at merged
  | some into =>
      have merging : Merging destination into after :=
        foldlM_keeps (fun _ _ merging entry isIn merged => mergeElement_merging merging
          (nameless from_ into isFrom isInto entry isIn) merged)
          merged ⟨owns, into, isInto, fun _ missing => missing⟩
      exact merging.owns

theorem persistElement_names (thread pointer : Nat) (element : Element) :
    (persistElement thread pointer element).names = element.names := by
  cases element <;> rfl

theorem removeElements_find {world after : World} {object : Nat} {keys : List Key}
    {table : OrderedTable Key Element} (isThere : world.tables.find object = some table)
    (removed : removeElements world object keys = some after) :
    ∃ rest, after.tables.find object = some rest ∧
      rest.entries = table.entries.filter fun entry => entry.1 ∉ keys := by
  induction keys generalizing world table with
  | nil =>
      cases removed
      exact ⟨table, isThere, by simp⟩
  | cons key keys ih =>
      obtain ⟨middle, first, others⟩ := Option.bind_eq_some_iff.mp removed
      obtain ⟨found, isFound, ⟨⟩⟩ := Option.bind_eq_some_iff.mp first
      cases Option.some.inj (isThere.symm.trans isFound)
      obtain ⟨rest, isRest, entries⟩ := ih (OrderedTable.find_update_same _ _ _) others
      refine ⟨rest, isRest, ?_⟩
      rw [entries, OrderedTable.delete, OrderedTable.filter, List.filter_filter]
      congr 1
      funext entry
      simp [not_or, Bool.and_comm]

/-- A destroyed table has lost its elements before it goes. -/
theorem storeDestroy_owns {world after : World} {object : Nat} (owns : world.Owns 0)
    (destroyed : storeDestroy world object = some after) : after.Owns 0 := by
  obtain ⟨table, isThere, destroyed⟩ := Option.bind_eq_some_iff.mp destroyed
  obtain ⟨emptied, removed, ⟨⟩⟩ := Option.bind_eq_some_iff.mp destroyed
  have kept := removeElements_owns owns removed
  obtain ⟨rest, isRest, entries⟩ := removeElements_find isThere removed
  have vacant : rest.entries = [] := by
    rw [entries]
    apply List.filter_eq_nil_iff.mpr
    intro entry isIn
    simp [OrderedTable.keys, List.mem_map_of_mem isIn]
  have nothing : tableNames rest = 0 := by
    simp only [OrderedTable.weight, vacant]
    rfl
  have gone := emptied.tables.weight_delete object tableNames
  rw [isRest, OrderedTable.weighFound_some, nothing, add_zero] at gone
  exact ⟨kept.distinct, kept.balance.trans (by rw [World.referenced, World.referenced, gone])⟩

theorem step_owns {world after : World} {action : Action} (owns : world.Owns 0)
    (allowed : CopiesNoNames world action) (stepped : step world action = some after) :
    after.Owns 0 := by
  cases action with
  | create object =>
      obtain ⟨absent, ⟨⟩⟩ := Option.ite_none_right_eq_some.mp stepped
      have added := world.tables.weight_update object OrderedTable.empty tableNames
      rw [Option.isNone_iff_eq_none.mp absent, OrderedTable.weighFound_none, add_zero] at added
      have same : (world.setTable object OrderedTable.empty).referenced = world.referenced :=
        added.trans (add_zero _)
      exact ⟨owns.distinct, owns.balance.trans (by rw [same]; rfl)⟩
  | write object key value classPointer memberPointer locked => exact storeWrite_owns owns stepped
  | delete object key => exact removeElement_owns owns stepped
  | shift object =>
      obtain ⟨table, -, removed⟩ := Option.bind_eq_some_iff.mp stepped
      exact removeElements_owns owns removed
  | pop object =>
      obtain ⟨table, -, removed⟩ := Option.bind_eq_some_iff.mp stepped
      exact removeElements_owns owns removed
  | chunk object size =>
      obtain ⟨table, -, removed⟩ := Option.bind_eq_some_iff.mp stepped
      exact removeElements_owns owns removed
  | merge destination source overwrite pointers => exact storeMerge_owns owns allowed stepped
  | persist object thread pointers =>
      obtain ⟨table, isThere, ⟨⟩⟩ := Option.bind_eq_some_iff.mp stepped
      have same : tableNames (table.mapValues fun key element =>
          persistElement thread (pointers key) element) = tableNames table := by
        apply table.weight_mapValues
        intro key element
        rw [persistElement_names]
      have exchanged := referenced_setTable isThere (table.mapValues fun key element =>
        persistElement thread (pointers key) element)
      rw [same] at exchanged
      exact ⟨owns.distinct, owns.balance.trans (by rw [add_right_cancel exchanged]; rfl)⟩
  | destroy object => exact storeDestroy_owns owns stepped

theorem World.Owns.releasedOnce {world : World} (owns : world.Owns 0) : ReleasedOnce world := by
  intro pointer isSaved
  have once : world.saved.count pointer = 1 := List.count_eq_one_of_mem owns.distinct isSaved
  have total := congrArg (Multiset.count pointer) owns.balance
  rw [add_zero, Multiset.count_add, Multiset.coe_count, Multiset.coe_count, once] at total
  by_cases released : pointer ∈ world.released
  · have counted := List.count_pos_iff.mpr released
    refine Or.inl ⟨by omega, ?_⟩
    intro isReferenced
    have referenced := Multiset.count_pos.mpr isReferenced
    omega
  · rw [List.count_eq_zero_of_not_mem released] at total
    exact Or.inr ⟨released, by omega⟩

/-- In every run whose merges copy no enum storage with a name of its own, each
string saved for an enum case is released once, and only when no storage refers to
it any more. -/
theorem enumStrings_releasedOnce {world : World}
    (reached : Reaches step CopiesNoNames initial world) : ReleasedOnce world :=
  (reached.preserves (fun _ _ _ owns allowed stepped => step_owns owns allowed stepped)
    owns_initial).releasedOnce

/-- An enum case of user code, whose names are strings of the request. -/
def suit : Value := .enumCase ⟨0, [83], false⟩ ⟨1, [72], false⟩

/-- An enum case is written, overwritten, and the array merged and destroyed. -/
def overwriteThenMerge : List Action :=
  [.create 1, .create 2, .write 1 (.long 0) suit 10 11 true,
    .write 1 (.long 0) (.other (.long 5)) 12 13 true, .merge 2 1 true fun _ => 0, .destroy 1]

theorem enumStrings_releasedOnce_overwriteThenMerge :
    ∃ world, execute step initial overwriteThenMerge = some world ∧
      Admits step CopiesNoNames initial overwriteThenMerge ∧ world.saved = [10, 11] ∧
      ReleasedOnce world := by
  have admitted : Admits step CopiesNoNames initial overwriteThenMerge := by
    refine ⟨trivial, trivial, trivial, trivial, ?_, trivial, trivial⟩
    rintro from_ into ⟨⟩ ⟨⟩ entry isIn -
    cases List.mem_singleton.mp isIn
    rfl
  refine ⟨_, rfl, admitted, rfl, ?_⟩
  exact enumStrings_releasedOnce (reaches_of_execute admitted rfl)

/-- An enum case is written and the array merged into another. -/
def mergeThenDestroy : List Action :=
  [.create 1, .create 2, .write 1 (.long 0) suit 10 11 true, .merge 2 1 true fun _ => 0,
    .destroy 1]

/-- The names are freed with the first array while the second refers to them, and
freed again with the second. -/
theorem mergedNames_freedTwice :
    ∃ world after, execute step initial mergeThenDestroy = some world ∧
      10 ∈ world.released ∧ 10 ∈ world.referenced ∧ ¬ ReleasedOnce world ∧
      step world (.destroy 2) = some after ∧ after.released.count 10 = 2 := by
  refine ⟨_, _, rfl, by decide, by decide, ?_, rfl, by decide⟩
  intro once
  rcases once 10 (by decide) with ⟨-, notReferenced⟩ | ⟨notReleased, -⟩
  · exact notReferenced (by decide)
  · exact notReleased (by decide)

end Pthreads.EnumStrings
