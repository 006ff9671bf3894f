import Pthreads.MergeAgreement

/-!
# What goes with the source

When the source is destroyed, what depends on it is freed, unless the local table of
the destination has come to hold it.  The direct way enters nothing there, so all of
it goes.  The other way spares what its writes have entered and what this holds.
-/

namespace Pthreads.Store

open ObjectRegistry GuardedRuns

/-- What freeing objects does to the registry. -/
structure FreedAll (freed : List (Nat × Nat)) (registry later : Registry) : Prop where
  sound : Sound later
  kept : ∀ address, (∀ entry ∈ freed, entry.2 ≠ address) →
    later.zobjs address = registry.zobjs address
  gone : ∀ entry ∈ freed, (registry.zobjs entry.2).isSome = true ∧ later.zobjs entry.2 = none
  zobjs_none : ∀ address, registry.zobjs address = none → later.zobjs address = none
  tsObjs_none : ∀ tsObj, registry.tsObjs tsObj = none → later.tsObjs tsObj = none

theorem execute_free {freed : List (Nat × Nat)} {registry later : Registry}
    (sound : Sound registry)
    (executed : execute ObjectRegistry.step registry
      (freed.map fun entry => .free entry.1 entry.2) = some later) :
    FreedAll freed registry later := by
  induction freed generalizing registry with
  | nil =>
      cases executed
      exact ⟨sound, fun _ _ => rfl, by simp, fun _ absent => absent, fun _ absent => absent⟩
  | cons entry freed ih =>
      simp only [List.map_cons, execute] at executed
      split at executed
      · cases executed
      · next next stepped =>
        have rest := ih (step_sound sound stepped) executed
        obtain ⟨zobj, tsObj, shared, found, -, -, isShared, rfl⟩ := baseFree_eq stepped
        have nextNone : ∀ address, registry.zobjs address = none →
            Function.update registry.zobjs entry.2 none address = none := by
          intro address absent
          by_cases same : address = entry.2
          · rw [same, Function.update_self]
          · rw [Function.update_of_ne same, absent]
        refine ⟨rest.sound, ?_, ?_, ?_, ?_⟩
        · intro address apart
          rw [rest.kept address fun other isIn => apart other (List.mem_cons_of_mem _ isIn)]
          exact Function.update_of_ne (apart entry List.mem_cons_self).symm _ _
        · intro other isIn
          rcases List.mem_cons.mp isIn with rfl | isIn
          · exact ⟨by simp [found], rest.zobjs_none _ (Function.update_self ..)⟩
          · obtain ⟨isThere, isGone⟩ := rest.gone other isIn
            refine ⟨?_, isGone⟩
            by_contra absent
            have isNone := nextNone other.2 (by simpa using absent)
            simp only [isNone, Option.isSome_none, Bool.false_eq_true] at isThere
        · intro address absent
          exact rest.zobjs_none address (nextNone address absent)
        · intro other absent
          apply rest.tsObjs_none other
          have different : other ≠ tsObj := by
            rintro rfl
            rw [isShared] at absent
            cases absent
          exact (Function.update_of_ne different _ _).trans absent

section Destroys

variable {dependents : Dependents} {connection later : Connection} {registry after : Registry}
  {address : Nat}

theorem Destroys.sound (destroys : Destroys dependents connection registry after)
    (sound : Sound registry) : Sound after := by
  obtain ⟨freed, -, executed⟩ := destroys
  exact (execute_free sound executed).sound

/-- What does not depend on the source is left as it is, and so is what the destination
holds. -/
theorem Destroys.survives (destroys : Destroys dependents connection registry after)
    (sound : Sound registry)
    (survives : ¬ dependents.Object address ∨ Spared dependents.members connection address) :
    after.zobjs address = registry.zobjs address := by
  obtain ⟨freed, isFreed, executed⟩ := destroys
  apply (execute_free sound executed).kept address
  rintro entry isIn rfl
  obtain ⟨isDependent, notSpared⟩ := (isFreed entry).mp isIn
  rcases survives with notDependent | spared
  · exact notDependent ⟨entry, isDependent, rfl⟩
  · exact notSpared spared

/-- The rest is there until then, and is freed. -/
theorem Destroys.gone (destroys : Destroys dependents connection registry after)
    (sound : Sound registry) (depends : dependents.Object address)
    (notSpared : ¬ Spared dependents.members connection address) :
    (registry.zobjs address).isSome = true ∧ after.zobjs address = none := by
  obtain ⟨freed, isFreed, executed⟩ := destroys
  obtain ⟨entry, isDependent, rfl⟩ := depends
  exact (execute_free sound executed).gone entry ((isFreed entry).mpr ⟨isDependent, notSpared⟩)

theorem Destroys.settledAt (destroys : Destroys dependents connection registry after)
    (sound : Sound registry) (settled : SettledAt registry address) :
    SettledAt after address := by
  by_cases survives : ¬ dependents.Object address ∨ Spared dependents.members connection address
  · rw [SettledAt, destroys.survives sound survives]
    exact settled
  · rw [not_or, not_not] at survives
    intro zobj found
    rw [(destroys.gone sound survives.1 survives.2).2] at found
    cases found

theorem Destroys.settledValue (destroys : Destroys dependents connection registry after)
    (sound : Sound registry) {value : Zval} (settled : SettledValue registry value)
    (survives : ∀ address, refersTo address value = true →
      ¬ dependents.Object address ∨ Spared dependents.members connection address) :
    SettledValue after value := by
  intro address refers
  rw [destroys.survives sound (survives address refers)]
  exact settled address refers

theorem Destroys.roomy (destroys : Destroys dependents connection registry after)
    (sound : Sound registry) (room : Roomy registry) : Roomy after := by
  obtain ⟨freed, -, executed⟩ := destroys
  obtain ⟨newAddress, newTs, available⟩ := room
  have facts := execute_free sound executed
  exact ⟨newAddress, newTs, facts.zobjs_none newAddress available.address, available.inRange,
    facts.tsObjs_none newTs available.tsObj⟩

/-- What the local tables of the destination hold outlasts the source, and so does what
this holds in turn. -/
theorem Dependents.Apart.not_spared (apart : dependents.Apart connection)
    (depends : dependents.Object address) : ¬ Spared dependents.members connection address := by
  intro spared
  induction spared with
  | held holds => exact apart.objects _ holds depends
  | @member parent member _ isMember ih =>
      by_cases parentDepends : dependents.Object parent
      · exact ih parentDepends
      · exact apart.members parent parentDepends member isMember depends

theorem Dependents.Apart.not_object (apart : dependents.Apart connection) {value : Zval}
    (keeps : connection.Keeps value) (refers : refersTo address value = true) :
    ¬ dependents.Object address :=
  apart.objects address (Connection.holds_of_keeps keeps refers)

theorem Dependents.Apart.of_keeps (apart : dependents.Apart connection)
    (keeps : ∀ value, later.Keeps value → connection.Keeps value) : dependents.Apart later := by
  refine ⟨?_, ?_, apart.members⟩
  · intro address holds
    rw [Connection.holds_eq_keepsAny, Connection.keepsAny_iff] at holds
    obtain ⟨value, isKept, refers⟩ := holds
    exact apart.not_object (keeps value isKept) refers
  · intro pointer holds
    obtain ⟨value, isKept, isClosure⟩ := Connection.keepsAny_iff.mp holds
    apply apart.closures pointer
    exact Connection.keepsAny_iff.mpr ⟨value, keeps value isKept, isClosure⟩

end Destroys

/-- Both merges and both destructions. -/
structure SideBySide (setting : Setting) (dependents : Dependents) (fresh : Key → Fresh)
    (pointers : Key → Nat) (registry : Registry) (table : OrderedTable Key Zval)
    (state : WrittenAll) (direct array : Registry) : Prop where
  consistent : setting.Consistent
  regular : setting.Regular fresh
  apart : dependents.Apart setting.connection
  extended : Extends (setting.Places fresh) setting.registry registry
  twin : Twin setting registry table pointers (setting.copied pointers) state
  writes : ∀ key, key ∈ (setting.copied pointers).written ↔ setting.Writes key
  destroys : Destroys dependents (setting.mergeDirectly pointers).connection setting.registry direct
  arrayDestroys : Destroys dependents state.connection registry array

namespace SideBySide

variable {setting : Setting} {dependents : Dependents} {fresh : Key → Fresh}
  {pointers : Key → Nat} {registry : Registry} {table : OrderedTable Key Zval}
  {state : WrittenAll} {direct array : Registry} {address : Nat}
  (both : SideBySide setting dependents fresh pointers registry table state direct array)

include both

theorem sound : Sound setting.registry :=
  sound_of_reaches both.consistent.reached

theorem soundArray : Sound registry :=
  both.extended.sound both.sound

/-- The count of the direct way, and what it leaves of the tables. -/
theorem bumped :
    Bumped (setting.copied pointers).overwrote (setting.copied pointers).props
      (setting.copied pointers).connection (setting.mergeDirectly pointers).props
      (setting.mergeDirectly pointers).connection := by
  apply bumpModcount_bumped
  rw [both.twin.count, both.twin.modcount]
  exact both.consistent.counts

theorem direct_keeps {value : Zval}
    (keeps : (setting.mergeDirectly pointers).connection.Keeps value) :
    setting.connection.Keeps value :=
  both.twin.mergedKeeps value ((both.bumped.keeps value).mp keeps)

theorem directApart : dependents.Apart (setting.mergeDirectly pointers).connection :=
  both.apart.of_keeps fun _ keeps => both.direct_keeps keeps

/-- The direct way spares nothing. -/
theorem direct_gone (depends : dependents.Object address) :
    (setting.registry.zobjs address).isSome = true ∧ direct.zobjs address = none :=
  both.destroys.gone both.sound depends (both.directApart.not_spared depends)

theorem direct_kept (outlasts : ¬ dependents.Object address) :
    direct.zobjs address = setting.registry.zobjs address :=
  both.destroys.survives both.sound (Or.inl outlasts)

/-- The value that was written under a key, which the local table has if it takes it. -/
theorem entered {key : Key} {storage : Storage} (writes : setting.Writes key)
    (source : setting.source.hash.find key = some storage) :
    ∃ value saved, WrittenKey setting registry table pointers (setting.copied pointers) state key
      storage value saved := by
  obtain ⟨found, value, saved, here⟩ := both.twin.written key ((both.writes key).mpr writes)
  cases Option.some.inj (source.symm.trans here.source)
  exact ⟨value, saved, here⟩

theorem keeps_of_entering {value : Zval} (keeps : (setting.entering table).Keeps value) :
    state.connection.Keeps value ∧ SettledValue registry value := by
  rcases keeps with ⟨_, key, ⟨⟩, isThere⟩ | ⟨key, ⟨⟩⟩
  rw [OrderedTable.find_filter] at isThere
  obtain ⟨found, passes⟩ := Option.filter_eq_some_iff.mp isThere
  simp only [Bool.and_eq_true, decide_eq_true_eq, Bool.or_eq_true, Option.isNone_iff_eq_none]
    at passes
  obtain ⟨⟨retained, isKey⟩, taken⟩ := passes
  obtain ⟨storage, written, saved, here⟩ :=
    both.twin.written key ((both.writes key).mpr ⟨isKey, taken⟩)
  cases Option.some.inj (found.symm.trans here.element)
  exact ⟨Connection.keeps_of_cached (here.entered.trans (if_pos retained)), here.stands.settled⟩

/-- Of what depends on the source the array way spares what it has entered and what
this holds. -/
theorem spared_iff (depends : dependents.Object address) :
    Spared dependents.members state.connection address ↔
      Spared dependents.members (setting.entering table) address := by
  constructor
  · intro spared
    induction spared with
    | held holds =>
        rw [Connection.holds_eq_keepsAny, Connection.keepsAny_iff] at holds
        obtain ⟨value, keeps, refers⟩ := holds
        rcases both.twin.keeps value keeps with rfl | before | entered
        · cases refers
        · exact absurd depends (both.apart.not_object before refers)
        · exact .held (Connection.holds_of_keeps entered refers)
    | @member parent member _ isMember ih =>
        by_cases parentDepends : dependents.Object parent
        · exact .member (ih parentDepends) isMember
        · exact absurd depends (both.apart.members parent parentDepends member isMember)
  · intro spared
    clear depends
    induction spared with
    | held holds =>
        rw [Connection.holds_eq_keepsAny, Connection.keepsAny_iff] at holds
        obtain ⟨value, keeps, refers⟩ := holds
        exact .held (Connection.holds_of_keeps (both.keeps_of_entering keeps).1 refers)
    | member _ isMember ih => exact .member ih isMember

theorem array_kept (survives : ¬ dependents.Object address ∨
      Spared dependents.members (setting.entering table) address) :
    array.zobjs address = registry.zobjs address := by
  apply both.arrayDestroys.survives both.soundArray
  by_cases depends : dependents.Object address
  · rcases survives with outlasts | spared
    · exact Or.inl outlasts
    · exact Or.inr ((both.spared_iff depends).mpr spared)
  · exact Or.inl depends

theorem array_gone (depends : dependents.Object address)
    (notEntered : ¬ Spared dependents.members (setting.entering table) address) :
    array.zobjs address = none :=
  (both.arrayDestroys.gone both.soundArray depends
    fun spared => notEntered ((both.spared_iff depends).mp spared)).2

/-- What the local table of the array way holds is still there. -/
theorem array_held {value : Zval} (keeps : state.connection.Keeps value)
    (refers : refersTo address value = true) : array.zobjs address = registry.zobjs address :=
  both.arrayDestroys.survives both.soundArray
    (Or.inr (.held (Connection.holds_of_keeps keeps refers)))

/-- The storages of the two tables as the array finds them. -/
theorem zobjs_eq (stores : setting.Stores (.pthreads address)) :
    registry.zobjs address = setting.registry.zobjs address :=
  both.consistent.zobjs_eq both.regular both.extended stores

theorem settledAt (stores : setting.Stores (.pthreads address)) : SettledAt registry address := by
  rw [SettledAt, both.zobjs_eq stores]
  exact both.consistent.stored address stores

/-- What the local table of the destination held before the merge. -/
theorem held_zobjs {value : Zval} (settled : SettledValue setting.registry value)
    (refers : refersTo address value = true) :
    registry.zobjs address = setting.registry.zobjs address := by
  obtain ⟨zobj, found, visible, constructed⟩ := settled address refers
  rw [found]
  exact both.extended.kept address zobj found visible constructed

theorem state_settled {value : Zval} (keeps : state.connection.Keeps value) :
    SettledValue registry value := by
  rcases both.twin.keeps value keeps with rfl | before | entered
  · exact settledValue_slot registry
  · exact both.extended.settledValue (both.consistent.held value before)
  · exact (both.keeps_of_entering entered).2

theorem stores_direct {key : Key} (found : (setting.mergeDirectly pointers).props.hash.find key =
      some (.pthreads address)) : setting.Stores (.pthreads address) := by
  rw [both.bumped.hash] at found
  exact both.twin.stores_direct found

theorem stored_direct {key : Key} (found : (setting.mergeDirectly pointers).props.hash.find key =
    some (.pthreads address)) : SettledAt setting.registry address :=
  both.consistent.stored address (both.stores_direct found)

theorem stored_array {key : Key} (found : state.props.hash.find key = some (.pthreads address)) :
    SettledAt registry address :=
  both.settledAt (both.twin.stores_array found)

section Readable

variable {connection : Connection}

theorem readable_direct (held : ∀ value, connection.Keeps value →
    SettledValue setting.registry value) :
    Readable (.intact setting.registry) (setting.mergeDirectly pointers).props connection :=
  ⟨both.sound, fun _ _ found => both.stored_direct found,
    fun _ value cached => held value (Connection.keeps_of_cached cached), fun _ _ => rfl⟩

theorem readable_array (held : ∀ value, connection.Keeps value → SettledValue registry value) :
    Readable (.intact state.registry) state.props connection := by
  rw [both.twin.sameRegistry]
  exact ⟨both.soundArray, fun _ _ found => both.stored_array found,
    fun _ value cached => held value (Connection.keeps_of_cached cached), fun _ _ => rfl⟩

theorem readable_direct_later (held : ∀ value, connection.Keeps value →
    SettledValue setting.registry value) (apart : dependents.Apart connection) :
    Readable (.afterDirect dependents setting.source (setting.mergeDirectly pointers) direct)
      (setting.mergeDirectly pointers).props connection := by
  refine ⟨both.destroys.sound both.sound, ?_, ?_, ?_⟩
  · intro key address found
    exact both.destroys.settledAt both.sound (both.stored_direct found)
  · intro key value cached
    have keeps := Connection.keeps_of_cached cached
    apply both.destroys.settledValue both.sound (held value keeps)
    intro address refers
    exact Or.inl (apart.not_object keeps refers)
  · intro pointer holds
    simp [Memory.afterDirect, apart.closures pointer holds]

/-- The local table of the array way may hold what would go with the source. -/
theorem readable_array_later (held : ∀ value, connection.Keeps value →
    SettledValue registry value)
    (survives : ∀ value, connection.Keeps value → ∀ address, refersTo address value = true →
      ¬ dependents.Object address ∨ Spared dependents.members state.connection address)
    (closures : ∀ pointer, connection.holdsClosure pointer = true →
      dependents.closures pointer = false ∨ state.connection.holdsClosure pointer = true) :
    Readable (.afterArray dependents state array) state.props connection := by
  refine ⟨both.arrayDestroys.sound both.soundArray, ?_, ?_, ?_⟩
  · intro key address found
    exact both.arrayDestroys.settledAt both.soundArray (both.stored_array found)
  · intro key value cached
    have keeps := Connection.keeps_of_cached cached
    exact both.arrayDestroys.settledValue both.soundArray (held value keeps) (survives value keeps)
  · intro pointer holds
    rcases closures pointer holds with free | isHeld
    · simp [Memory.afterArray, free]
    · simp [Memory.afterArray, isHeld]

theorem readable_state_later :
    Readable (.afterArray dependents state array) state.props state.connection := by
  apply both.readable_array_later fun _ keeps => both.state_settled keeps
  · intro value keeps address refers
    exact Or.inr (.held (Connection.holds_of_keeps keeps refers))
  · exact fun pointer holds => Or.inr holds

theorem readable_other_later {other : Connection} (fits : setting.Fits dependents other) :
    Readable (.afterArray dependents state array) state.props other := by
  apply both.readable_array_later fun value keeps =>
    both.extended.settledValue (fits.held value keeps)
  · intro value keeps address refers
    exact Or.inl (fits.apart.not_object keeps refers)
  · exact fun pointer holds => Or.inl (fits.apart.closures pointer holds)

end Readable

end SideBySide

end Pthreads.Store
