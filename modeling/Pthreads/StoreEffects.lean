import Pthreads.StoreAgreement

/-!
# What each store operation does

Every operation is described by the same few facts: which keys it modifies and
to what, when it moves the modification count, and where the entries of the
local table come from afterwards.  An entry agrees with its storage, or it was
there and in sync before and its key was not touched, or the operation wrote a
value over it that the local table does not take.
-/

namespace Pthreads.Store

open ObjectRegistry

/-- What the local table has for a key once the pending work is done. -/
def Offers (declared : List Key) (connection : Connection) (key : Key) (value : Zval) : Prop :=
  (finishPending declared connection).cached key = some value

/-- The last change of a key in a list of changes. -/
def lastChange : List (Key × Option Meaning) → Key → Option (Option Meaning)
  | [], _ => none
  | change :: changes, key =>
      (lastChange changes key).or (if change.1 = key then some change.2 else none)

theorem lastChange_append (first second : List (Key × Option Meaning)) (key : Key) :
    lastChange (first ++ second) key = (lastChange second key).or (lastChange first key) := by
  induction first with
  | nil => simp [lastChange]
  | cons change changes ih => simp [lastChange, ih, Option.or_assoc]

theorem recordModified_eq (modified : Key → Option Modification) (connection : Nat)
    (changes : List (Key × Option Meaning)) (key : Key) :
    recordModified modified connection changes key =
      ((lastChange changes key).map (Modification.mk connection)).or (modified key) := by
  induction changes generalizing modified with
  | nil => simp [recordModified, lastChange]
  | cons change changes ih =>
      have unfolded : recordModified modified connection (change :: changes) key =
          recordModified (Function.update modified change.1 (some ⟨connection, change.2⟩))
            connection changes key := rfl
      rw [unfolded, ih]
      cases later : lastChange changes key with
      | some meaning => simp [lastChange, later]
      | none =>
          by_cases same : change.1 = key
          · subst same
            simp [lastChange, later]
          · simp [lastChange, later, same, Function.update_of_ne (Ne.symm same)]

/-- The storage stands for what was recorded. -/
def Matches (registry : Registry) (meaning : Option Meaning) : Option Storage → Prop
  | none => meaning = none
  | some storage => storage.meaning registry = none ∨ storage.meaning registry = meaning

/-- What an operation can rely on. -/
structure Ready (placed : Nat → Prop) (registry : Registry) (props : Props)
    (connection : Connection) : Prop where
  sound : Sound registry
  sturdy : ∀ key storage, props.hash.find key = some storage →
    SturdyStorage placed registry storage
  settled : ∀ value, connection.Keeps value → SettledValue registry value
  counts : connection.localPropsModcount ≤ props.modcount
  idle : connection.pending = none

/-- What an operation does.  The keys in `careless` are those where the local table
may be left with an outdated entry. -/
structure Effect (declared : List Key) (placed : Nat → Prop) (careless : Key → Prop)
    (registry : Registry) (props : Props) (connection : Connection) (registry' : Registry)
    (props' : Props) (connection' : Connection) (changes : List (Key × Option Meaning)) :
    Prop where
  extended : Extends placed registry registry'
  owner : connection'.owner = connection.owner
  elsewhere : ∀ key, lastChange changes key = none →
    props'.hash.find key = props.hash.find key
  grows : props.modcount ≤ props'.modcount
  bumped : props'.modcount = props.modcount → ∀ key, lastChange changes key ≠ none →
    memberIsCacheable props key = false
  counts : connection'.localPropsModcount ≤ props'.modcount
  offers : connection'.localPropsModcount = props'.modcount → ∀ key value,
    Offers declared connection' key value →
      Agrees registry' value (props'.hash.find key) ∨
      (connection.localPropsModcount = props.modcount ∧ connection.cached key = some value ∧
        lastChange changes key = none) ∨
      (careless key ∧ lastChange changes key ≠ none)
  settled : ∀ value, connection'.Keeps value → SettledValue registry' value
  sturdy : ∀ key storage, props'.hash.find key = some storage →
    SturdyStorage placed registry' storage
  recorded : ∀ key meaning, lastChange changes key = some meaning →
    Matches registry' meaning (props'.hash.find key)

theorem offers_of_idle {declared : List Key} {connection : Connection} {key : Key} {value : Zval}
    (idle : connection.pending = none) :
    Offers declared connection key value ↔ connection.cached key = some value := by
  simp [Offers, finishPending, idle]

theorem Effect.ready {declared : List Key} {placed : Nat → Prop} {careless : Key → Prop}
    {registry registry' : Registry} {props props' : Props} {connection connection' : Connection}
    {changes : List (Key × Option Meaning)}
    (effect : Effect declared placed careless registry props connection registry' props'
      connection' changes)
    (ready : Ready placed registry props connection) (idle : connection'.pending = none) :
    Ready placed registry' props' connection' :=
  ⟨effect.extended.sound ready.sound, effect.sturdy, effect.settled, effect.counts, idle⟩

/-- An operation that does nothing. -/
theorem Effect.refl {declared : List Key} {placed : Nat → Prop} {careless : Key → Prop}
    {registry : Registry} {props : Props} {connection : Connection}
    (ready : Ready placed registry props connection) :
    Effect declared placed careless registry props connection registry props connection [] := by
  refine ⟨Extends.refl _ _, rfl, fun _ _ => rfl, le_rfl, ?_, ready.counts, ?_, ready.settled,
    ready.sturdy, ?_⟩
  · intro _ key touched
    simp [lastChange] at touched
  · intro inSync key value offered
    rw [offers_of_idle ready.idle] at offered
    exact Or.inr (Or.inl ⟨inSync, offered, rfl⟩)
  · intro key meaning touched
    simp [lastChange] at touched

/-- Two operations under one lock. -/
theorem Effect.trans {declared : List Key} {placed : Nat → Prop} {careless : Key → Prop}
    {registry registry₁ registry₂ : Registry} {props props₁ props₂ : Props}
    {connection connection₁ connection₂ : Connection}
    {changes₁ changes₂ : List (Key × Option Meaning)}
    (first : Effect declared placed careless registry props connection registry₁ props₁
      connection₁ changes₁)
    (idle : connection₁.pending = none)
    (second : Effect declared placed careless registry₁ props₁ connection₁ registry₂ props₂
      connection₂ changes₂) :
    Effect declared placed careless registry props connection registry₂ props₂ connection₂
      (changes₁ ++ changes₂) := by
  have untouched : ∀ key, lastChange (changes₁ ++ changes₂) key = none ↔
      lastChange changes₂ key = none ∧ lastChange changes₁ key = none := by
    intro key
    rw [lastChange_append, Option.or_eq_none_iff]
  refine ⟨first.extended.trans second.extended, second.owner.trans first.owner, ?_,
    first.grows.trans second.grows, ?_, second.counts, ?_, second.settled, second.sturdy, ?_⟩
  · intro key isSame
    obtain ⟨later, earlier⟩ := (untouched key).mp isSame
    rw [second.elsewhere key later, first.elsewhere key earlier]
  · intro same key touched
    have sameFirst : props₁.modcount = props.modcount :=
      le_antisymm (same ▸ second.grows) first.grows
    have sameSecond : props₂.modcount = props₁.modcount := same.trans sameFirst.symm
    by_cases earlier : lastChange changes₁ key = none
    · have later : lastChange changes₂ key ≠ none := by
        intro isNone
        exact touched ((untouched key).mpr ⟨isNone, earlier⟩)
      have notCacheable := second.bumped sameSecond key later
      simpa [memberIsCacheable, first.elsewhere key earlier] using notCacheable
    · exact first.bumped sameFirst key earlier
  · intro inSync key value offered
    rcases second.offers inSync key value offered with agrees | ⟨middle, cached, later⟩ |
      ⟨isCareless, later⟩
    · exact Or.inl agrees
    · rcases first.offers middle key value ((offers_of_idle idle).mpr cached) with agrees |
        ⟨before, wasCached, earlier⟩ | ⟨isCareless, earlier⟩
      · -- what agreed in between still does, since the key was not touched again
        rw [← second.elsewhere key later] at agrees
        refine Or.inl (second.extended.agrees agrees
          (first.settled value (Connection.keeps_of_cached cached)) ?_)
        intro storage isStored
        rw [second.elsewhere key later] at isStored
        exact first.sturdy key storage isStored
      · exact Or.inr (Or.inl ⟨before, wasCached, (untouched key).mpr ⟨later, earlier⟩⟩)
      · refine Or.inr (Or.inr ⟨isCareless, ?_⟩)
        intro isNone
        exact earlier ((untouched key).mp isNone).2
    · refine Or.inr (Or.inr ⟨isCareless, ?_⟩)
      intro isNone
      exact later ((untouched key).mp isNone).1
  · intro key meaning touched
    rw [lastChange_append] at touched
    cases later : lastChange changes₂ key with
    | some recent =>
        rw [later, Option.some_or] at touched
        cases touched
        exact second.recorded key meaning later
    | none =>
        rw [later, Option.none_or] at touched
        have matched := first.recorded key meaning touched
        rw [← second.elsewhere key later] at matched
        cases isStored : props₂.hash.find key with
        | none => simpa [Matches, isStored] using matched
        | some storage =>
            have wasStored := second.elsewhere key later ▸ isStored
            simp only [Matches, isStored] at matched ⊢
            rwa [second.extended.storage_meaning (first.sturdy key storage wasStored)]

section LocalTable

variable {declared : List Key} {connection : Connection} {key other : Key} {value found : Zval}

theorem foldl_declared_find (declared : List Key) {table : OrderedTable Key Zval}
    (holds : ∀ value, table.find key = some value → value = .indirect .undef)
    (isThere : (declared.foldl (fun table key => table.update key (.indirect .undef)) table).find
      key = some value) : value = .indirect .undef := by
  induction declared generalizing table with
  | nil => exact holds value isThere
  | cons first declared ih =>
      refine ih ?_ isThere
      intro found isFound
      by_cases same : key = first
      · subst same
        simp only [OrderedTable.find_update_same, Option.some.injEq] at isFound
        exact isFound.symm
      · rw [OrderedTable.find_update_other _ _ same] at isFound
        exact holds found isFound

theorem initLocalProperties_find
    (isThere : (initLocalProperties declared connection).find key = some value) :
    value = .indirect .undef ∨ ∃ table, connection.properties = some table ∧
      table.find key = some value := by
  cases properties : connection.properties with
  | none =>
      simp only [initLocalProperties, properties, Option.getD_none, declaredSlots] at isThere
      exact Or.inl (foldl_declared_find declared (by simp) isThere)
  | some table =>
      simp only [initLocalProperties, properties, Option.getD_some] at isThere
      exact Or.inr ⟨table, rfl, isThere⟩

/-- The slots that preparing the table adds are not valid items. -/
theorem initLocalProperties_cached (declared : List Key) (connection : Connection) (key : Key) :
    ((initLocalProperties declared connection).find key).filter validLocalCacheItem =
      connection.cached key := by
  cases properties : connection.properties with
  | some table => simp [initLocalProperties, properties, Connection.cached]
  | none =>
      simp only [Connection.cached, properties, Option.bind_none, Option.filter_none]
      rw [Option.filter_eq_none_iff]
      intro value isThere
      rcases initLocalProperties_find isThere with rfl | ⟨table, isTable, -⟩
      · simp [validLocalCacheItem]
      · rw [properties] at isTable
        cases isTable

theorem prepared_cached (declared : List Key) (connection : Connection) (key : Key) :
    (prepared declared connection).cached key = connection.cached key := by
  rw [← initLocalProperties_cached declared connection key]
  rfl

theorem settledValue_slot (registry : Registry) : SettledValue registry (.indirect .undef) :=
  settledValue_of_scalar fun _ => rfl

theorem retained_valid (retained : retainInLocalCache value = true) :
    validLocalCacheItem value = true := by
  cases value <;> first | rfl | simp [retainInLocalCache] at retained

theorem updateLocalProperty_cached (key other : Key) (value : Zval) :
    (updateLocalProperty declared connection key value).cached other =
      if retainInLocalCache value = true ∧ other = key then some value
      else connection.cached other := by
  unfold updateLocalProperty
  split
  · next retained =>
    by_cases same : other = key
    · subst same
      simp [Connection.cached, retained, retained_valid retained]
    · simp only [same, and_false, if_false]
      rw [← initLocalProperties_cached declared connection other]
      simp [Connection.cached, OrderedTable.find_update_other _ _ same]
  · next notRetained => simp [notRetained]

theorem evictLocalProperty_cached (connection : Connection) (key other : Key) :
    (evictLocalProperty connection key).cached other =
      if other = key then none else connection.cached other := by
  cases properties : connection.properties with
  | none => simp [evictLocalProperty, Connection.cached, properties]
  | some table =>
      by_cases same : other = key
      · subst same
        simp [evictLocalProperty, Connection.cached, properties]
      · simp [evictLocalProperty, Connection.cached, properties, same,
          OrderedTable.find_delete_other _ same]

theorem updateLocalProperty_keeps
    (keeps : (updateLocalProperty declared connection key value).Keeps found) :
    found = value ∨ found = .indirect .undef ∨ connection.Keeps found := by
  unfold updateLocalProperty at keeps
  split at keeps
  · rcases keeps with ⟨table, place, isTable, isThere⟩ | waiting
    · cases isTable
      by_cases same : place = key
      · subst same
        simp only [OrderedTable.find_update_same, Option.some.injEq] at isThere
        exact Or.inl isThere.symm
      · rw [OrderedTable.find_update_other _ _ same] at isThere
        rcases initLocalProperties_find isThere with isSlot | ⟨table, isTable, wasThere⟩
        · exact Or.inr (Or.inl isSlot)
        · exact Or.inr (Or.inr (Or.inl ⟨table, place, isTable, wasThere⟩))
    · exact Or.inr (Or.inr (Or.inr waiting))
  · exact Or.inr (Or.inr keeps)

theorem evictLocalProperty_keeps (keeps : (evictLocalProperty connection key).Keeps found) :
    connection.Keeps found := by
  rcases keeps with ⟨table, place, isTable, isThere⟩ | waiting
  · obtain ⟨original, isOriginal, rfl⟩ := Option.map_eq_some_iff.mp isTable
    rw [OrderedTable.delete, OrderedTable.find_filter] at isThere
    exact Or.inl ⟨original, place, isOriginal, (Option.filter_eq_some_iff.mp isThere).1⟩
  · exact Or.inr waiting

theorem finishPending_update_cached :
    (finishPending declared { connection with pending := some (.update key value) }).cached other =
      if retainInLocalCache value = true ∧ other = key then some value
      else connection.cached other := by
  have sameTable : (finishPending declared
      { connection with pending := some (.update key value) }).cached other =
        (updateLocalProperty declared connection key value).cached other := by
    simp only [finishPending, Connection.cached, updateLocalProperty, initLocalProperties]
    split <;> rfl
  rw [sameTable, updateLocalProperty_cached]

theorem finishPending_update_keeps
    (keeps : (finishPending declared
      { connection with pending := some (.update key value) }).Keeps found) :
    found = .indirect .undef ∨ connection.Keeps found ∨
      (found = value ∧ retainInLocalCache value = true) := by
  rcases keeps with ⟨table, place, isTable, isThere⟩ | ⟨place, ⟨⟩⟩
  simp only [finishPending, updateLocalProperty] at isTable
  split at isTable
  · next retained =>
    cases isTable
    rcases OrderedTable.find_update_cases isThere with ⟨-, isValue⟩ | ⟨-, wasThere⟩
    · exact Or.inr (Or.inr ⟨isValue, retained⟩)
    · rcases initLocalProperties_find wasThere with isSlot | ⟨table, isTable, before⟩
      · exact Or.inl isSlot
      · exact Or.inr (Or.inl (Or.inl ⟨table, place, isTable, before⟩))
  · exact Or.inr (Or.inl (Or.inl ⟨table, place, isTable, isThere⟩))

theorem offers_update :
    Offers declared { connection with pending := some (.update key value) } other found ↔
      (if retainInLocalCache value = true ∧ other = key then some value
        else connection.cached other) = some found := by
  rw [Offers, finishPending_update_cached]

theorem offers_evict :
    Offers declared { connection with pending := some (.evict key) } other found ↔
      (if other = key then none else connection.cached other) = some found := by
  rw [← evictLocalProperty_cached]
  rfl

theorem finishPending_owner (declared : List Key) (connection : Connection) :
    (finishPending declared connection).owner = connection.owner := by
  unfold finishPending
  split
  · rfl
  · simp only [updateLocalProperty]
    split <;> rfl
  · rfl

theorem finishPending_modcount (declared : List Key) (connection : Connection) :
    (finishPending declared connection).localPropsModcount = connection.localPropsModcount := by
  unfold finishPending
  split
  · rfl
  · simp only [updateLocalProperty]
    split <;> rfl
  · rfl

theorem finishPending_pending (declared : List Key) (connection : Connection) :
    (finishPending declared connection).pending = none := by
  unfold finishPending
  split
  · assumption
  · rfl
  · rfl

theorem finishPending_keeps (keeps : (finishPending declared connection).Keeps found) :
    found = .indirect .undef ∨ connection.Keeps found := by
  unfold finishPending at keeps
  split at keeps
  · exact Or.inr keeps
  · next place waiting isPending =>
    rcases keeps with inTable | ⟨_, ⟨⟩⟩
    rcases updateLocalProperty_keeps (Or.inl inTable) with rfl | isSlot | before
    · exact Or.inr (Or.inr ⟨place, isPending⟩)
    · exact Or.inl isSlot
    · exact Or.inr before
  · rcases keeps with inTable | ⟨_, ⟨⟩⟩
    exact Or.inr (evictLocalProperty_keeps (Or.inl inTable))

theorem offers_finishPending :
    Offers declared (finishPending declared connection) key value ↔
      Offers declared connection key value := by
  rw [offers_of_idle (finishPending_pending declared connection)]
  rfl

end LocalTable

/-- The work after the unlock adds nothing to the effect. -/
theorem Effect.finish {declared : List Key} {placed : Nat → Prop} {careless : Key → Prop}
    {registry registry' : Registry} {props props' : Props} {connection connection' : Connection}
    {changes : List (Key × Option Meaning)}
    (effect : Effect declared placed careless registry props connection registry' props'
      connection' changes) :
    Effect declared placed careless registry props connection registry' props'
      (finishPending declared connection') changes := by
  refine ⟨effect.extended, (finishPending_owner _ _).trans effect.owner, effect.elsewhere,
    effect.grows, effect.bumped, ?_, ?_, ?_, effect.sturdy, effect.recorded⟩
  · rw [finishPending_modcount]
    exact effect.counts
  · rw [finishPending_modcount]
    intro inSync key value offered
    exact effect.offers inSync key value (offers_finishPending.mp offered)
  · intro value keeps
    rcases finishPending_keeps keeps with rfl | before
    · exact settledValue_slot registry'
    · exact effect.settled value before

/-- What bumping the count does. -/
structure Bumped (bump : Bool) (props : Props) (connection : Connection) (props' : Props)
    (connection' : Connection) : Prop where
  hash : props'.hash = props.hash
  grows : props.modcount ≤ props'.modcount
  moved : props'.modcount = props.modcount → bump = false
  owner : connection'.owner = connection.owner
  properties : connection'.properties = connection.properties
  pending : connection'.pending = connection.pending
  inSync : connection'.localPropsModcount = props'.modcount ↔
    connection.localPropsModcount = props.modcount
  counts : connection'.localPropsModcount ≤ props'.modcount

/-- Bumping the count does not concern the tables. -/
theorem bumpModcount_eq (bump : Bool) (props : Props) (connection : Connection) :
    (bumpModcount bump props connection).1.hash = props.hash ∧
      (bumpModcount bump props connection).2.owner = connection.owner ∧
      (bumpModcount bump props connection).2.properties = connection.properties ∧
      (bumpModcount bump props connection).2.pending = connection.pending := by
  unfold bumpModcount
  split
  · split <;> simp
  · simp

theorem bumpModcount_bumped (bump : Bool) (props : Props) (connection : Connection)
    (below : connection.localPropsModcount ≤ props.modcount) :
    Bumped bump props connection (bumpModcount bump props connection).1
      (bumpModcount bump props connection).2 := by
  unfold bumpModcount
  cases bump with
  | false => exact ⟨rfl, le_rfl, fun _ => rfl, rfl, rfl, rfl, Iff.rfl, below⟩
  | true =>
      simp only [if_true]
      by_cases inSync : connection.localPropsModcount = props.modcount
      · simp only [inSync, if_true]
        exact ⟨rfl, by simp only; omega, by simp only; omega, rfl, rfl, rfl, by simp [inSync],
          le_rfl⟩
      · simp only [inSync, if_false]
        exact ⟨rfl, by simp only; omega, by simp only; omega, rfl, rfl, rfl,
          by simp only; omega, by simp only; omega⟩

theorem Bumped.cached {bump : Bool} {props props' : Props} {connection connection' : Connection}
    (bumped : Bumped bump props connection props' connection') (key : Key) :
    connection'.cached key = connection.cached key := by
  simp [Connection.cached, bumped.properties]

theorem Bumped.keeps {bump : Bool} {props props' : Props} {connection connection' : Connection}
    (bumped : Bumped bump props connection props' connection') (value : Zval) :
    connection'.Keeps value ↔ connection.Keeps value := by
  simp [Connection.Keeps, bumped.properties, bumped.pending]

/-- The handle that a storage of the value would keep is sturdy and leads to what
the value is attached to. -/
def WellSaved (placed : Nat → Prop) (registry : Registry) (value : Zval) : Prop :=
  ∀ address zobj, refersTo address value = true → registry.zobjs address = some zobj →
    Sturdy placed registry (savedAddress zobj address) ∧
      ∀ origin, registry.zobjs (savedAddress zobj address) = some origin →
        origin.tsObj = zobj.tsObj

theorem Extends.wellSaved {placed : Nat → Prop} {registry after : Registry}
    (extended : Extends placed registry after) {value : Zval}
    (settled : SettledValue registry value) (saved : WellSaved placed registry value) :
    WellSaved placed after value := by
  intro address zobj refers found
  obtain ⟨earlier, wasThere, visible, constructed⟩ := settled address refers
  rw [extended.kept address earlier wasThere visible constructed] at found
  cases found
  obtain ⟨sturdy, attached⟩ := saved address zobj refers wasThere
  refine ⟨extended.sturdy sturdy, ?_⟩
  rw [extended.zobjs_eq sturdy]
  exact attached

/-- A storage that is made stands for the value it is made from. -/
structure Saves (placed : Nat → Prop) (registry : Registry) (value : Zval) (storage : Storage) :
    Prop where
  sturdy : SturdyStorage placed registry storage
  meaning : storage.meaning registry = none ∨ storage.meaning registry = value.meaning registry

theorem saves_inline {placed : Nat → Prop} {registry : Registry} {value : Zval}
    {storage : Storage} (notHandle : ∀ address, storage ≠ .pthreads address)
    (same : storage.meaning registry = value.meaning registry) :
    Saves placed registry value storage :=
  ⟨fun address isHandle => absurd isHandle (notHandle address), Or.inr same⟩

theorem storeCreate_saves {placed : Nat → Prop} {registry : Registry} (source : Nat)
    {storage : Storage} :
    ∀ value : Zval, SettledValue registry value → WellSaved placed registry value →
      storeCreate registry source value = some storage → Saves placed registry value storage
  | .indirect slot, settled, saved, created => by
      obtain ⟨sturdy, meaning⟩ := storeCreate_saves source slot settled saved created
      exact ⟨sturdy, meaning⟩
  | .reference target, settled, saved, created => by
      obtain ⟨sturdy, meaning⟩ := storeCreate_saves source target settled saved created
      exact ⟨sturdy, meaning⟩
  | .threaded address, settled, saved, created => by
      obtain ⟨zobj, found, rfl⟩ := Option.map_eq_some_iff.mp created
      obtain ⟨sturdy, attached⟩ := saved address zobj (by simp [refersTo]) found
      refine ⟨?_, ?_⟩
      · intro other isHandle
        cases isHandle
        exact sturdy
      · cases origin : registry.zobjs (savedAddress zobj address) with
        | none => exact Or.inl (by simp [Storage.meaning, tsObjAt, origin])
        | some original =>
            right
            simp [Storage.meaning, Zval.meaning, tsObjAt, origin, found, attached original origin]
  | .string string, _, _, created => by
      cases created
      exact saves_inline (by simp) rfl
  | .resource pointer, _, _, created => by
      cases created
      exact saves_inline (by simp) rfl
  | .enumCase className memberName, _, _, created => by
      cases created
      exact saves_inline (by simp) rfl
  | .closure closure, _, _, created => by
      cases created
      exact saves_inline (by simp) rfl
  | .socket socket hasStream, _, _, created => by
      cases hasStream with
      | true => simp [storeCreate] at created
      | false =>
          cases created
          exact saves_inline (by simp) rfl

theorem saveZval_saves {placed : Nat → Prop} {registry : Registry} {source : Nat}
    {value : Zval} {storage : Storage} (settled : SettledValue registry value)
    (wellSaved : WellSaved placed registry value)
    (saved : saveZval registry source value = some storage) :
    Saves placed registry value storage := by
  cases value with
  | string string =>
      simp only [saveZval] at saved
      split at saved
      · cases saved
        exact saves_inline (by simp) rfl
      · exact storeCreate_saves source _ settled wellSaved saved
  | null | bool | long | double =>
      cases saved
      exact saves_inline (by simp) rfl
  | _ => exact storeCreate_saves source _ settled wellSaved saved

end Pthreads.Store
