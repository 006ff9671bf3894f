import Pthreads.StoreInvariants

/-!
# Coherence of the caches

A connection that is in sync offers only values that agree with the shared
table.  This is proved for the keys that others modified last, in runs where no
other connection is misled, and for the keys that the connection itself modified
last, in runs where no writer is misled.  Runs that stay clear of these gaps keep
both.
-/

namespace Pthreads.Store

open ObjectRegistry

/-- The connection is the one that modified the key last, or it is not. -/
def State.concerns (own : Bool) (state : State) (connection : Nat) (key : Key) : Prop :=
  (state.modified key).any (fun last => last.connection = connection) = own

/-- What a connection in sync offers agrees with the shared table. -/
def Coherent (own : Bool) (state : State) : Prop :=
  ∀ connection found key value, state.connections.find connection = some found →
    found.localPropsModcount = state.props.modcount → Offers state.declared found key value →
    state.concerns own connection key → Agrees state.registry value (state.props.hash.find key)

/-- The shared table has what was written last. -/
def Recalls (state : State) : Prop :=
  ∀ key last, state.modified key = some last →
    Matches state.registry last.meaning (state.props.hash.find key)

section Effects

variable {declared : List Key} {placed : Nat → Prop} {careless : Key → Prop}
  {registry registry' : Registry} {props props' : Props} {connection connection' : Connection}
  {changes : List (Key × Option Meaning)}

/-- What agreed before an operation still does where it changed nothing. -/
theorem Effect.agrees (effect : Effect declared placed careless registry props connection registry'
      props' connection' changes)
    (sturdy : ∀ key storage, props.hash.find key = some storage →
      SturdyStorage placed registry storage)
    {key : Key} {value : Zval} (untouched : lastChange changes key = none)
    (settled : SettledValue registry value)
    (agrees : Agrees registry value (props.hash.find key)) :
    Agrees registry' value (props'.hash.find key) := by
  rw [effect.elsewhere key untouched]
  exact effect.extended.agrees agrees settled (sturdy key)

theorem Effect.matches (effect : Effect declared placed careless registry props connection
      registry' props' connection' changes)
    (sturdy : ∀ key storage, props.hash.find key = some storage →
      SturdyStorage placed registry storage)
    {key : Key} {meaning : Option Meaning} (untouched : lastChange changes key = none)
    (matched : Matches registry meaning (props.hash.find key)) :
    Matches registry' meaning (props'.hash.find key) := by
  rw [effect.elsewhere key untouched]
  cases isStored : props.hash.find key with
  | none => simpa [isStored, Matches] using matched
  | some storage =>
      simp only [isStored, Matches] at matched ⊢
      rwa [effect.extended.storage_meaning (sturdy key storage isStored)]

/-- What a connection offers is something it keeps. -/
theorem keeps_of_offers {key : Key} {value : Zval}
    (offered : Offers declared connection key value) :
    connection.Keeps value := by
  have valid := (Option.filter_eq_some_iff.mp offered).2
  rcases finishPending_keeps (Connection.keeps_of_cached offered) with rfl | keeps
  · simp [validLocalCacheItem] at valid
  · exact keeps

end Effects

section Steps

variable {own : Bool} {state after : State} {action : Action}

theorem coherent_operated {connection : Nat} {found updated : Connection} {registry : Registry}
    {props : Props} {changes : List (Key × Option Meaning)} (grounded : Grounded state)
    (coherent : Coherent own state) (trusted : state.trustworthy own action = true)
    (idle : state.idle connection = some found)
    (effect : Effect state.declared (state.placed action) (state.careless own action)
      state.registry state.props found registry props updated changes)
    (targets : ∀ key, lastChange changes key ≠ none ↔ key ∈ state.targets action)
    (modifier : changes ≠ [] → action.modifier = some connection) :
    Coherent own (state.after connection registry props updated changes) := by
  obtain ⟨kept, careful⟩ := Bool.and_eq_true_iff.mp trusted
  have ready := grounded.ready kept idle
  intro other keeper key value present inSync offered concerned
  simp only [State.concerns, State.after, recordModified_eq] at concerned
  rcases OrderedTable.find_update_cases present with ⟨rfl, rfl⟩ | ⟨different, before⟩
  · rcases effect.offers inSync key value offered with agrees | ⟨wasInSync, cached, untouched⟩ |
      ⟨isCareless, touched⟩
    · exact agrees
    · rw [untouched] at concerned
      apply effect.agrees ready.sturdy untouched
        (ready.settled value (Connection.keeps_of_cached cached))
      exact coherent other found key value (find_of_idle idle).1 wasInSync
        ((offers_of_idle ready.idle).mpr cached) concerned
    · obtain ⟨meaning, isLast⟩ := Option.ne_none_iff_exists'.mp touched
      rcases isCareless with notOwn | notTarget
      · simp [isLast, notOwn] at concerned
      · exact absurd ((targets key).mp touched) notTarget
  · -- another connection is in sync afterwards only if the count has not moved
    have below := grounded.counts other keeper before
    have grows := effect.grows
    have sameCount : props.modcount = state.props.modcount := by
      simp only [State.after] at inSync
      omega
    have wasInSync : keeper.localPropsModcount = state.props.modcount := inSync.trans sameCount
    by_cases untouched : lastChange changes key = none
    · rw [untouched] at concerned
      apply effect.agrees ready.sturdy untouched
        (grounded.settled other keeper before value (keeps_of_offers offered))
      exact coherent other keeper key value before wasInSync offered concerned
    · obtain ⟨meaning, isLast⟩ := Option.ne_none_iff_exists'.mp untouched
      cases own with
      | true => simp [isLast, Ne.symm different] at concerned
      | false =>
          simp only [Bool.false_eq_true, if_false, State.othersNotMisled, Bool.or_eq_true,
            List.any_eq_true, List.all_eq_true] at careful
          rcases careful with ⟨target, isTarget, cacheable⟩ | notTrusted
          · have notCacheable := effect.bumped sameCount target ((targets target).mpr isTarget)
            rw [notCacheable] at cacheable
            cases cacheable
          · have isTarget := (targets key).mp untouched
            have isModifier := modifier (by rintro rfl; exact untouched rfl)
            have notTrusted := notTrusted key isTarget (other, keeper)
              (OrderedTable.find_eq_some_iff.mp before)
            have isOffered : (finishPending state.declared keeper).cached key = some value :=
              offered
            simp [isModifier, different, Connection.trusts, wasInSync, isOffered] at notTrusted

theorem offers_freshConnection {declared : List Key} {owner : Nat} {hasTable : Bool} {key : Key}
    {value : Zval} : ¬ Offers declared (freshConnection owner hasTable) key value :=
  fun offered => freshConnection_keeps (keeps_of_offers offered)

theorem Agrees.persist {registry : Registry} {props : Props} {key : Key} {value : Zval}
    (thread : Nat) (pointers : Key → Nat) (agrees : Agrees registry value (props.hash.find key)) :
    Agrees registry value ((persistLocalProperties thread pointers props).hash.find key) := by
  obtain ⟨storage, isStored, same⟩ := agrees
  refine ⟨persistStorage thread (pointers key) storage, ?_, ?_⟩
  · rw [persistLocalProperties_find, isStored]
    rfl
  · rw [persistStorage_meaning]
    exact same

theorem Matches.persist {registry : Registry} {props : Props} {key : Key}
    {meaning : Option Meaning} (thread : Nat) (pointers : Key → Nat)
    (matched : Matches registry meaning (props.hash.find key)) :
    Matches registry meaning ((persistLocalProperties thread pointers props).hash.find key) := by
  rw [persistLocalProperties_find]
  cases isStored : props.hash.find key with
  | none => simpa [isStored] using matched
  | some storage =>
      simp only [isStored, Option.map_some, Matches, persistStorage_meaning] at matched ⊢
      exact matched

theorem Outcome.coherent (grounded : Grounded state) (coherent : Coherent own state)
    (trusted : state.trustworthy own action = true) (outcome : Outcome own state action after) :
    Coherent own after := by
  cases outcome with
  | unchanged same => exact same ▸ coherent
  | operated connection found updated registry props changes idle effect targets modifier result =>
      subst result
      exact coherent_operated grounded coherent trusted idle effect targets modifier
  | constructed connection owner built registry props changes vacant effect result =>
      subst result
      intro other keeper key value present inSync
      rcases OrderedTable.find_update_cases present with ⟨-, rfl⟩ | ⟨-, before⟩
      · -- the original starts out of sync
        simp only [State.after] at inSync
        omega
      · exact absurd vacant (connections_ne_nil before)
  | connected connection owner hasTable occupied result =>
      subst result
      intro other keeper key value present inSync offered concerned
      rcases OrderedTable.find_update_cases present with ⟨-, rfl⟩ | ⟨-, before⟩
      · exact absurd offered offers_freshConnection
      · exact coherent other keeper key value before inSync offered concerned
  | disconnected connection found pointers idle result =>
      subst result
      rcases disconnect_cases state connection found pointers with ⟨vacant, -⟩ | ⟨-, result⟩
      · intro other keeper key value present
        exact absurd vacant (connections_ne_nil present)
      · rw [result]
        intro other keeper key value present inSync offered concerned
        obtain ⟨different, before⟩ := OrderedTable.find_of_find_delete present
        refine
          (coherent other keeper key value before inSync offered ?_).persist found.owner pointers
        simp only [State.concerns] at concerned ⊢
        rw [← concerned]
        cases state.modified key with
        | none => rfl
        | some last =>
            by_cases same : last.connection = connection
            · simp [same, Ne.symm different]
            · simp [same]
  | persisted connection thread found pointers idle result =>
      subst result
      intro other keeper key value present inSync offered concerned
      exact (coherent other keeper key value present inSync offered concerned).persist thread
        pointers
  | finished connection found present result =>
      subst result
      intro other keeper key value isThere inSync offered concerned
      rcases OrderedTable.find_update_cases isThere with ⟨rfl, rfl⟩ | ⟨-, before⟩
      · rw [finishPending_modcount] at inSync
        exact coherent other found key value present inSync (offers_finishPending.mp offered)
          concerned
      · exact coherent other keeper key value before inSync offered concerned
  | registered other registry isAction permitted stepped result =>
      subst isAction result
      obtain ⟨kept, -⟩ := Bool.and_eq_true_iff.mp trusted
      intro connection keeper key value present inSync offered concerned
      obtain ⟨storage, isStored, same⟩ :=
        coherent connection keeper key value present inSync offered concerned
      have keeps := keeps_of_offers offered
      refine ⟨storage, isStored, ?_⟩
      rcases storage_meaning_of_sturdy stepped (grounded.sturdy kept key storage isStored) with
        dead | unchanged
      · exact Or.inl dead
      · rw [unchanged, meaning_of_permitted stepped permitted present keeps
          (grounded.settled connection keeper present value keeps)]
        exact same
  | loaded enumCases result =>
      subst result
      exact coherent

theorem recalls_after {placed : Nat → Prop} {careless : Key → Prop} {connection : Nat}
    {found built updated : Connection} {registry : Registry} {props : Props}
    {changes : List (Key × Option Meaning)} (recalls : Recalls state)
    (sturdy : ∀ key storage, state.props.hash.find key = some storage →
      SturdyStorage placed state.registry storage)
    (effect : Effect state.declared placed careless state.registry state.props found registry props
      built changes) :
    Recalls (state.after connection registry props updated changes) := by
  intro key last modified
  simp only [State.after, recordModified_eq] at modified
  cases touched : lastChange changes key with
  | some meaning =>
      rw [touched, Option.map_some, Option.some_or, Option.some.injEq] at modified
      subst modified
      exact effect.recorded key meaning touched
  | none =>
      rw [touched, Option.map_none, Option.none_or] at modified
      exact effect.matches sturdy touched (recalls key last modified)

theorem Outcome.recalls (grounded : Grounded state) (recalls : Recalls state)
    (kept : state.handlesKept action = true) (outcome : Outcome own state action after) :
    Recalls after := by
  cases outcome with
  | unchanged same => exact same ▸ recalls
  | operated connection found updated registry props changes idle effect targets modifier result =>
      subst result
      exact recalls_after recalls (grounded.sturdy kept) effect
  | constructed connection owner built registry props changes vacant effect result =>
      subst result
      exact recalls_after recalls (grounded.sturdy kept) effect
  | connected connection owner hasTable occupied result =>
      subst result
      exact recalls
  | disconnected connection found pointers idle result =>
      subst result
      rcases disconnect_cases state connection found pointers with ⟨-, -, -, forgotten⟩ |
        ⟨-, result⟩
      · intro key last modified
        rw [forgotten] at modified
        cases modified
      · rw [result]
        intro key last modified
        exact (recalls key last (Option.filter_eq_some_iff.mp modified).1).persist found.owner
          pointers
  | persisted connection thread found pointers idle result =>
      subst result
      intro key last modified
      exact (recalls key last modified).persist thread pointers
  | finished connection found present result =>
      subst result
      exact recalls
  | registered other registry isAction permitted stepped result =>
      subst isAction result
      intro key last modified
      have matched := recalls key last modified
      simp only at matched ⊢
      cases isStored : state.props.hash.find key with
      | none => simpa [isStored, Matches] using matched
      | some storage =>
          simp only [isStored, Matches] at matched ⊢
          rcases storage_meaning_of_sturdy stepped (grounded.sturdy kept key storage isStored) with
            dead | unchanged
          · exact Or.inl dead
          · rw [unchanged]
            exact matched
  | loaded enumCases result =>
      subst result
      exact recalls

end Steps

section Runs

open GuardedRuns

/-- The action stays clear of the gaps. -/
def Trustworthy (own : Bool) (state : State) (action : Action) : Prop :=
  state.trustworthy own action = true

instance (own : Bool) (state : State) (action : Action) :
    Decidable (Trustworthy own state action) :=
  inferInstanceAs (Decidable (_ = _))

/-- What every state of such a run satisfies. -/
structure Trusted (own : Bool) (state : State) : Prop where
  grounded : Grounded state
  coherent : Coherent own state
  recalls : Recalls state

theorem trusted_initial (own : Bool) (declared : List Key) : Trusted own (initial declared) := by
  refine ⟨⟨sound_initial, ?_, ?_, ?_, le_rfl, fun _ => rfl⟩, ?_, ?_⟩
  · rintro key address ⟨⟩
  · rintro connection found ⟨⟩
  · rintro connection found ⟨⟩
  · rintro connection found key value ⟨⟩
  · rintro key last ⟨⟩

theorem step_trusted {own : Bool} {state after : State} {action : Action}
    (trusted : Trusted own state) (allowed : Trustworthy own state action)
    (stepped : step state action = some after) : Trusted own after := by
  obtain ⟨grounded, coherent, recalls⟩ := trusted
  have outcome := step_outcome grounded allowed stepped
  have kept := (Bool.and_eq_true_iff.mp allowed).1
  exact ⟨outcome.grounded grounded kept, outcome.coherent grounded coherent allowed,
    outcome.recalls grounded recalls kept⟩

theorem trusted_of_reaches {own : Bool} {declared : List Key} {state : State}
    (reached : Reaches step (Trustworthy own) (initial declared) state) : Trusted own state :=
  reached.preserves (fun _ _ _ trusted allowed stepped => step_trusted trusted allowed stepped)
    (trusted_initial own declared)

end Runs

end Pthreads.Store
