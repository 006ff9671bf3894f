import Pthreads.RelatedTables
import Pthreads.StoreSteps

/-!
# The store as an ordered dictionary

What the store of a Threaded object is for: an ordered dictionary of what its members
stand for, on which every operation takes effect at once.  Its operations say nothing of
storages, caches, threads and modification counts.  This file defines the dictionary,
when a shared table represents it, and what each action of a store run asks of it.
-/

namespace Pthreads.Store

open ObjectRegistry GuardedRuns

/-- Keys in order, what stands under them, and the next key of an append. -/
structure Dictionary where
  table : OrderedTable Key (Option Meaning)
  nextFreeElement : Int

namespace Dictionary

def empty : Dictionary := ⟨OrderedTable.empty, zendLongMin⟩

/-- An integer key that is not less than the next one moves it. -/
def put (dictionary : Dictionary) (key : Key) (meaning : Option Meaning) : Dictionary where
  table := dictionary.table.update key meaning
  nextFreeElement :=
    match key with
    | .long value =>
        if dictionary.nextFreeElement ≤ value then
          if value < zendLongMax then value + 1 else zendLongMax
        else dictionary.nextFreeElement
    | .string _ => dictionary.nextFreeElement

def appendKey (dictionary : Dictionary) : Key :=
  .long (if dictionary.nextFreeElement = zendLongMin then 0 else dictionary.nextFreeElement)

end Dictionary

/-- What can be done to a dictionary. -/
inductive Operation where
  /-- Without a key it is an append. -/
  | put (key : Option Key) (meaning : Option Meaning)
  /-- Put, but without overwriting not if there is an element under the first key. -/
  | merge (overwrite : Bool) (checked key : Key) (meaning : Option Meaning)
  | erase (key : Key)
  | takeFront (count : Nat)
  | takeBack
  | clear

namespace Dictionary

variable (dictionary : Dictionary)

def perform : Operation → Dictionary
  | .put key meaning => dictionary.put (key.getD dictionary.appendKey) meaning
  | .merge overwrite checked key meaning =>
      if ¬ overwrite ∧ (dictionary.table.find checked).isSome then dictionary
      else dictionary.put key meaning
  | .erase key => { dictionary with table := dictionary.table.delete key }
  | .takeFront count => { dictionary with table := dictionary.table.drop count }
  | .takeBack => { dictionary with table := dictionary.table.dropLast }
  | .clear => empty

/-- What an operation gives back. -/
def result : Operation → List (Key × Option Meaning)
  | .takeFront count => dictionary.table.entries.take count
  | .takeBack => dictionary.table.entries.getLast?.toList
  | _ => []

end Dictionary

/-- A storage stands for the meaning, or it is the handle of an object that is gone. -/
def StandsFor (registry : Registry) (storage : Storage) (meaning : Option Meaning) : Prop :=
  storage.meaning registry = meaning ∨
    (storage.meaning registry = none ∧ ∃ object, meaning = some (.threaded object))

structure Represents (registry : Registry) (hash : HashTable) (dictionary : Dictionary) :
    Prop where
  table : hash.table.Related (StandsFor registry) dictionary.table
  nextFree : hash.nextFreeElement = dictionary.nextFreeElement

/-- What a written value stands for.  An array becomes a new ThreadedArray if asked for. -/
def writtenMeaning (registry : Registry) (coerceArrays : Bool) (fresh : Fresh) :
    Zval → Option Meaning
  | .array _ => if coerceArrays then some (.threaded fresh.newTs) else none
  | value => value.meaning registry

/-- What an action asks of the dictionary. -/
def State.operations (state : State) : Action → List Operation
  | .construct _ _ defaults fresh =>
      (defaults.filter fun element => accepts state.registry false element.2).map fun element =>
        .put (some (coerce element.1.toZval))
          (writtenMeaning state.registry false (fresh element.1) element.2)
  | .write _ key value coerceArrays fresh =>
      if accepts state.registry coerceArrays value then
        [.put (key.map coerce) (writtenMeaning state.registry coerceArrays fresh value)]
      else []
  | .delete _ key => [.erase (coerce key)]
  | .shift _ _ => [.takeFront 1]
  | .pop _ _ => [.takeBack]
  | .chunk _ size _ => [.takeFront size.toNat]
  | .mergeThreaded _ source overwrite _ =>
      source.map fun entry => .merge overwrite entry.1 entry.1 (entry.2.meaning state.registry)
  | .mergeArray _ source overwrite coerceArrays fresh =>
      (source.filter fun element => accepts state.registry coerceArrays element.2).map
        fun element => .merge overwrite element.1 (coerce element.1.toZval)
          (writtenMeaning state.registry coerceArrays (fresh element.1) element.2)
  | .disconnect connection _ =>
      if (state.connections.delete connection).entries.isEmpty then [.clear] else []
  | _ => []

section Meanings

variable {placed : Nat → Prop} {registry after : Registry}

/-- Only a handle stands for nothing. -/
theorem meaning_eq_none {storage : Storage} (nothing : storage.meaning registry = none) :
    ∃ address, storage = .pthreads address ∧ tsObjAt registry address = none := by
  cases storage with
  | pthreads address => exact ⟨address, rfl, Option.map_eq_none_iff.mp nothing⟩
  | _ => cases nothing

/-- A storage still stands for what it stood for when its object goes. -/
theorem StandsFor.later {storage : Storage} {meaning : Option Meaning}
    (stands : StandsFor registry storage meaning)
    (kept : storage.meaning after = none ∨ storage.meaning after = storage.meaning registry) :
    StandsFor after storage meaning := by
  rcases kept with gone | same
  · rcases stands with stood | ⟨_, isObject⟩
    · obtain ⟨address, isHandle, _⟩ := meaning_eq_none gone
      subst isHandle
      cases object : tsObjAt registry address with
      | none =>
          have nothing : meaning = none := by
            rw [← stood]
            exact Option.map_eq_none_iff.mpr object
          exact Or.inl (gone.trans nothing.symm)
      | some object' =>
          have isObject : meaning = some (.threaded object') := by
            rw [← stood]
            exact Option.map_eq_some_iff.mpr ⟨object', object, rfl⟩
          exact Or.inr ⟨gone, object', isObject⟩
    · exact Or.inr ⟨gone, isObject⟩
  · unfold StandsFor
    rwa [same]

/-- The handle of a value that leads nowhere was made from a Threaded object. -/
theorem storeCreate_standsFor {source : Nat} {storage : Storage} :
    ∀ value : Zval, SettledValue registry value →
      storeCreate registry source value = some storage → storage.meaning registry = none →
        ∃ object, value.meaning registry = some (.threaded object)
  | .indirect slot, settled, created, nothing => by
      have isObject := storeCreate_standsFor slot settled created nothing
      exact isObject
  | .reference target, settled, created, nothing => by
      have isObject := storeCreate_standsFor target settled created nothing
      exact isObject
  | .threaded address, settled, created, nothing => by
      obtain ⟨zobj, found, visible, constructed⟩ := settled address (by simp [refersTo])
      obtain ⟨object, isObject⟩ := Option.isSome_iff_exists.mp constructed
      exact ⟨object, by simp [Zval.meaning, tsObjAt, found, isObject]⟩
  | .string _, _, created, nothing | .resource _, _, created, nothing
  | .enumCase _ _, _, created, nothing | .closure _, _, created, nothing => by
      cases created
      cases nothing
  | .socket socket hasStream, _, created, nothing => by
      cases hasStream with
      | true => simp [storeCreate] at created
      | false =>
          cases created
          cases nothing

theorem saveZval_standsFor {source : Nat} {value : Zval} {storage : Storage}
    (writable : Writable placed registry value)
    (saved : saveZval registry source value = some storage) :
    StandsFor registry storage (value.meaning registry) := by
  rcases (saveZval_saves writable.settled writable.wellSaved saved).meaning with nothing | same
  · obtain ⟨address, isHandle, _⟩ := meaning_eq_none nothing
    have created : storeCreate registry source value = some storage := by
      cases value with
      | null | bool | long | double =>
          cases saved
          cases isHandle
      | string text =>
          simp only [saveZval] at saved
          split at saved
          · cases saved
            cases isHandle
          · exact saved
      | _ => exact saved
    exact Or.inr ⟨nothing, storeCreate_standsFor value writable.settled created nothing⟩
  · exact Or.inl same

theorem writtenValue_meaning {thread : Nat} {fresh : Fresh} {value write : Zval}
    {coerceArrays : Bool}
    (written : writtenValue registry thread value coerceArrays fresh = some (after, write)) :
    write.meaning after = writtenMeaning registry coerceArrays fresh value := by
  unfold writtenValue at written
  split at written
  · obtain ⟨_, rfl, zobjs⟩ := coerceArray_eq written
    simp [Zval.meaning, tsObjAt, zobjs, writtenMeaning]
  · rename_i notCoerced
    cases written
    cases value with
    | array entries =>
        cases coerceArrays with
        | true => exact absurd rfl (notCoerced entries rfl)
        | false => rfl
    | _ => rfl

theorem writtenMeaning_extends (extended : Extends placed registry after) (coerceArrays : Bool)
    (fresh : Fresh) {value : Zval} (settled : SettledValue registry value) :
    writtenMeaning after coerceArrays fresh value =
      writtenMeaning registry coerceArrays fresh value := by
  cases value with
  | array entries => rfl
  | _ => exact extended.value_meaning settled

end Meanings

section Tables

variable {placed : Nat → Prop} {registry after : Registry} {hash : HashTable}
  {dictionary : Dictionary}

theorem represents_empty (registry : Registry) : Represents registry HashTable.empty .empty :=
  ⟨List.Forall₂.nil, rfl⟩

/-- Other objects that come and go do not change what is represented. -/
theorem Represents.later (represents : Represents registry hash dictionary)
    (kept : ∀ key storage, hash.find key = some storage →
      storage.meaning after = none ∨ storage.meaning after = storage.meaning registry) :
    Represents after hash dictionary := by
  constructor
  · apply represents.table.mono
    intro entry isIn meaning stands
    exact stands.later (kept entry.1 entry.2 (OrderedTable.find_eq_some_iff.mpr isIn))
  · exact represents.nextFree

theorem Represents.extends (represents : Represents registry hash dictionary)
    (extended : Extends placed registry after)
    (sturdy : ∀ key storage, hash.find key = some storage →
      SturdyStorage placed registry storage) : Represents after hash dictionary := by
  apply represents.later
  intro key storage isStored
  exact Or.inr (extended.storage_meaning (sturdy key storage isStored))

theorem Represents.update (represents : Represents registry hash dictionary) (key : Key)
    {storage : Storage} {meaning : Option Meaning}
    (stands : StandsFor registry storage meaning) :
    Represents registry (hash.update key storage) (dictionary.put key meaning) := by
  constructor
  · exact represents.table.update key stands
  · cases key with
    | long value => simp only [HashTable.update, Dictionary.put, represents.nextFree]
    | string bytes => exact represents.nextFree

theorem Represents.delete (represents : Represents registry hash dictionary) (key : Key) :
    Represents registry (hash.delete key) (dictionary.perform (.erase key)) :=
  ⟨represents.table.delete key, represents.nextFree⟩

theorem Represents.appendKey {props : Props}
    (represents : Represents registry props.hash dictionary) :
    Store.appendKey props = dictionary.appendKey := by
  simp only [Store.appendKey, Dictionary.appendKey, represents.nextFree]

theorem Represents.persist {props : Props} (represents : Represents registry props.hash dictionary)
    (thread : Nat) (pointers : Key → Nat) :
    Represents registry (persistLocalProperties thread pointers props).hash dictionary := by
  constructor
  · apply represents.table.mapValues
    intro key storage meaning stands
    unfold StandsFor at stands ⊢
    rwa [persistStorage_meaning]
  · exact represents.nextFree

end Tables

end Pthreads.Store
