import Pthreads.HandleIdentity
import Pthreads.StoreSteps

/-!
# Invariants of store runs

In runs that stay clear of the gaps, a connection that is in sync has nothing in
its table that disagrees with the shared one: not for the keys that others
modified last, and, under the condition for the writer, not for its own.
-/

namespace Pthreads.Store

open ObjectRegistry

section OtherObjects

variable {state : State} {other : ObjectRegistry.Action} {registry : Registry}

theorem Connection.holds_of_keeps {connection : Connection} {value : Zval} {address : Nat}
    (keeps : connection.Keeps value) (refers : refersTo address value = true) :
    connection.holds address = true := by
  unfold Connection.holds
  rcases keeps with ⟨table, key, isTable, isThere⟩ | ⟨key, waiting⟩
  · have isIn := OrderedTable.find_eq_some_iff.mp isThere
    simp only [isTable, Option.any_some, Bool.or_eq_true, List.any_eq_true]
    exact Or.inl ⟨(key, value), isIn, refers⟩
  · simp [waiting, refers]

/-- What a local table keeps is not freed. -/
theorem not_free_of_keeps (permitted : state.permits other = true) {connection : Nat}
    {found : Connection} (present : state.connections.find connection = some found) {value : Zval}
    (keeps : found.Keeps value) {address : Nat} (refers : refersTo address value = true)
    (thread : Nat) : other ≠ .free thread address := by
  rintro rfl
  simp only [State.permits, List.all_eq_true] at permitted
  have notHeld := permitted (connection, found) (OrderedTable.find_eq_some_iff.mp present)
  simp [Connection.holds_of_keeps keeps refers] at notHeld

/-- A constructed object stays as it is until it is freed. -/
theorem zobjs_of_not_free (stepped : ObjectRegistry.step state.registry other = some registry)
    {address : Nat} {zobj : ZendObject} (found : state.registry.zobjs address = some zobj)
    (visible : zobj.fresh = false) (constructed : zobj.tsObj.isSome)
    (notFreed : ∀ thread, other ≠ .free thread address) :
    registry.zobjs address = some zobj := by
  obtain ⟨tsObj, points⟩ := Option.isSome_iff_exists.mp constructed
  rcases step_keeps stepped found points notFreed (step_not_connect stepped found visible) with
    same | shown
  · exact same
  · rw [shown, ← visible]

/-- An unused address is used only by what is placed there. -/
theorem zobjs_of_not_placed (stepped : ObjectRegistry.step state.registry other = some registry)
    {address : Nat} (absent : state.registry.zobjs address = none)
    (notPlaced : ¬ state.placed (.registry other) address) : registry.zobjs address = none := by
  by_contra present
  obtain ⟨zobj, found⟩ := Option.ne_none_iff_exists'.mp present
  cases step_origin stepped found with
  | kept earlier isThere original tsObj => simp [absent] at isThere
  | connected source origin isConnect existed isThere visible constructed original tsObj =>
      simp [absent] at existed
  | restored thread source newTs origin isRestore inRange isThere constructed original tsObj =>
      subst isRestore
      exact notPlaced (by simp [State.placed, State.placements])
  | building original placed =>
      rcases placed with ⟨earlier, isThere, -⟩ | ⟨rfl, -⟩
      · simp [absent] at isThere
      · exact notPlaced (by simp [State.placed, State.placements])

/-- What stands at a sturdy address stays or is freed. -/
theorem zobjs_of_sturdy (stepped : ObjectRegistry.step state.registry other = some registry)
    {address : Nat} (sturdy : Sturdy (state.placed (.registry other)) state.registry address) :
    registry.zobjs address = state.registry.zobjs address ∨ registry.zobjs address = none := by
  cases earlier : state.registry.zobjs address with
  | none => exact Or.inl (zobjs_of_not_placed stepped earlier (sturdy.2 earlier))
  | some zobj =>
      obtain ⟨visible, constructed⟩ := sturdy.1 zobj earlier
      cases later : registry.zobjs address with
      | none => exact Or.inr rfl
      | some found => rw [visible_kept stepped earlier visible constructed later]; exact Or.inl rfl

theorem settledValue_of_permitted
    (stepped : ObjectRegistry.step state.registry other = some registry)
    (permitted : state.permits other = true) {connection : Nat} {found : Connection}
    (present : state.connections.find connection = some found) {value : Zval}
    (keeps : found.Keeps value) (settled : SettledValue state.registry value) :
    SettledValue registry value := by
  intro address refers
  obtain ⟨zobj, isThere, visible, constructed⟩ := settled address refers
  exact ⟨zobj, zobjs_of_not_free stepped isThere visible constructed
    (not_free_of_keeps permitted present keeps refers), visible, constructed⟩

theorem meaning_of_permitted
    (stepped : ObjectRegistry.step state.registry other = some registry)
    (permitted : state.permits other = true) {connection : Nat} {found : Connection}
    (present : state.connections.find connection = some found) {value : Zval}
    (keeps : found.Keeps value) (settled : SettledValue state.registry value) :
    value.meaning registry = value.meaning state.registry := by
  apply meaning_congr
  intro address refers
  obtain ⟨zobj, isThere, visible, constructed⟩ := settled address refers
  rw [isThere]
  exact zobjs_of_not_free stepped isThere visible constructed
    (not_free_of_keeps permitted present keeps refers)

/-- A storage keeps its meaning until its handle dies. -/
theorem storage_meaning_of_sturdy
    (stepped : ObjectRegistry.step state.registry other = some registry) {storage : Storage}
    (sturdy : SturdyStorage (state.placed (.registry other)) state.registry storage) :
    storage.meaning registry = none ∨
      storage.meaning registry = storage.meaning state.registry := by
  cases storage with
  | pthreads address =>
      rcases zobjs_of_sturdy stepped (sturdy address rfl) with same | gone
      · exact Or.inr (by simp [Storage.meaning, tsObjAt, same])
      · exact Or.inl (by simp [Storage.meaning, tsObjAt, gone])
  | _ => exact Or.inr rfl

end OtherObjects

section Steps

variable {own : Bool} {state after : State} {action : Action}

/-- What stays true of the other connections is true of all. -/
theorem Effect.grounded {placed : Nat → Prop} {careless : Key → Prop} {connection : Nat}
    {found updated : Connection} {registry : Registry} {props : Props}
    {changes : List (Key × Option Meaning)} (grounded : Grounded state)
    (effect : Effect state.declared placed careless state.registry state.props found registry props
      updated changes) {count : Int} (counts : count ≤ props.modcount) :
    Grounded (state.after connection registry props
      { updated with localPropsModcount := count } changes) := by
  refine ⟨effect.extended.sound grounded.sound, ?_, ?_, ?_, ?_, ?_⟩
  · intro key address isStored
    exact (effect.sturdy key _ isStored address rfl).1
  · intro other kept present value keeps
    rcases OrderedTable.find_update_cases present with ⟨-, rfl⟩ | ⟨-, before⟩
    · exact effect.settled value keeps
    · exact effect.extended.settledValue (grounded.settled other kept before value keeps)
  · intro other kept present
    rcases OrderedTable.find_update_cases present with ⟨-, rfl⟩ | ⟨-, before⟩
    · exact counts
    · exact (grounded.counts other kept before).trans effect.grows
  · exact grounded.nonneg.trans effect.grows
  · intro vacant
    exact absurd vacant (OrderedTable.entries_update_ne_nil _ _ _)

theorem Grounded.persist (grounded : Grounded state) (thread : Nat) (pointers : Key → Nat)
    (occupied : state.connections.entries ≠ []) :
    Grounded { state with props := persistLocalProperties thread pointers state.props } := by
  refine ⟨grounded.sound, ?_, grounded.settled, grounded.counts, grounded.nonneg,
    fun vacant => absurd vacant occupied⟩
  intro key address isStored
  rw [persistLocalProperties_find] at isStored
  obtain ⟨storage, wasStored, isHandle⟩ := Option.map_eq_some_iff.mp isStored
  rw [persistStorage_handle isHandle] at wasStored
  exact grounded.handles key address wasStored

theorem connections_ne_nil {connection : Nat} {found : Connection}
    (present : state.connections.find connection = some found) :
    state.connections.entries ≠ [] :=
  List.ne_nil_of_mem (OrderedTable.find_eq_some_iff.mp present)

theorem Grounded.disconnect (grounded : Grounded state) (connection : Nat) (found : Connection)
    (pointers : Key → Nat) (present : state.connections.find connection = some found) :
    Grounded (state.disconnect connection found pointers) := by
  rcases disconnect_cases state connection found pointers with ⟨vacant, fresh, same, -⟩ |
    ⟨occupied, result⟩
  · have noConnection : ∀ other, (state.disconnect connection found pointers).connections.find
        other = none := by
      intro other
      simp [OrderedTable.find, OrderedTable.lookup, vacant]
    refine ⟨same ▸ grounded.sound, ?_, ?_, ?_, ?_, fun _ => fresh⟩
    · intro key address isStored
      rw [fresh] at isStored
      cases isStored
    · intro other kept isThere
      rw [noConnection other] at isThere
      cases isThere
    · intro other kept isThere
      rw [noConnection other] at isThere
      cases isThere
    · rw [fresh]
      exact le_rfl
  · rw [result]
    have persisted := grounded.persist found.owner pointers (connections_ne_nil present)
    refine ⟨persisted.sound, persisted.handles, ?_, ?_, persisted.nonneg, ?_⟩
    · intro other kept isThere
      exact grounded.settled other kept (OrderedTable.find_of_find_delete isThere).2
    · intro other kept isThere
      exact grounded.counts other kept (OrderedTable.find_of_find_delete isThere).2
    · intro vacant
      exact absurd vacant occupied

theorem freshConnection_keeps {owner : Nat} {hasTable : Bool} {value : Zval} :
    ¬ (freshConnection owner hasTable).Keeps value := by
  rintro (⟨table, key, isTable, isThere⟩ | ⟨key, ⟨⟩⟩)
  obtain ⟨-, ⟨⟩⟩ := Option.ite_none_right_eq_some.mp isTable
  simp at isThere

theorem Outcome.grounded (grounded : Grounded state) (kept : state.handlesKept action = true)
    (outcome : Outcome own state action after) : Grounded after := by
  cases outcome with
  | unchanged same => exact same ▸ grounded
  | operated connection found updated registry props changes idle effect targets modifier result =>
      subst result
      exact effect.grounded grounded effect.counts
  | constructed connection owner built registry props changes vacant effect result =>
      subst result
      exact effect.grounded grounded (by omega)
  | connected connection owner hasTable occupied result =>
      subst result
      refine ⟨grounded.sound, grounded.handles, ?_, ?_, grounded.nonneg, ?_⟩
      · intro other found present value keeps
        rcases OrderedTable.find_update_cases present with ⟨-, rfl⟩ | ⟨-, before⟩
        · exact absurd keeps freshConnection_keeps
        · exact grounded.settled other found before value keeps
      · intro other found present
        rcases OrderedTable.find_update_cases present with ⟨-, rfl⟩ | ⟨-, before⟩
        · have nonneg := grounded.nonneg
          simp only [freshConnection]
          omega
        · exact grounded.counts other found before
      · intro vacant
        exact absurd vacant (OrderedTable.entries_update_ne_nil _ _ _)
  | disconnected connection found pointers idle result =>
      subst result
      exact grounded.disconnect connection found pointers (find_of_idle idle).1
  | persisted connection thread found pointers idle result =>
      subst result
      exact grounded.persist thread pointers (connections_ne_nil (find_of_idle idle).1)
  | finished connection found present result =>
      subst result
      refine ⟨grounded.sound, grounded.handles, ?_, ?_, grounded.nonneg, ?_⟩
      · intro other kept isThere value keeps
        rcases OrderedTable.find_update_cases isThere with ⟨-, rfl⟩ | ⟨-, before⟩
        · rcases finishPending_keeps keeps with rfl | before
          · exact settledValue_slot state.registry
          · exact grounded.settled connection found present value before
        · exact grounded.settled other kept before value keeps
      · intro other kept isThere
        rcases OrderedTable.find_update_cases isThere with ⟨-, rfl⟩ | ⟨-, before⟩
        · rw [finishPending_modcount]
          exact grounded.counts connection found present
        · exact grounded.counts other kept before
      · intro vacant
        exact absurd vacant (OrderedTable.entries_update_ne_nil _ _ _)
  | registered other registry isAction permitted stepped result =>
      subst isAction result
      refine ⟨step_sound grounded.sound stepped, ?_, ?_, grounded.counts, grounded.nonneg,
        grounded.vacant⟩
      · intro key address isStored zobj found
        have sturdy := grounded.sturdy kept key _ isStored address rfl
        rcases zobjs_of_sturdy stepped sturdy with same | gone
        · exact sturdy.1 zobj (same ▸ found)
        · rw [gone] at found
          cases found
      · intro connection found present value keeps
        exact settledValue_of_permitted stepped permitted present keeps
          (grounded.settled connection found present value keeps)
  | loaded enumCases result =>
      subst result
      exact ⟨grounded.sound, grounded.handles, grounded.settled, grounded.counts, grounded.nonneg,
        grounded.vacant⟩

end Steps

end Pthreads.Store
