import Pthreads.ClassPreparation
import Pthreads.PlannedRuns

/-!
# The recursion through the classes

Preparing a class goes through the classes that it needs and those of the objects that are
copied on the way, and leaves to a binding what happens to the static members.  This
file has two rules for that recursion.  What each step does to the state, a whole run does;
and where one binding follows another, so does the recursion with it.
-/

namespace Pthreads.ClassPreparation

open PartialFolds PlannedRuns

variable {ClassId Value Members : Type*}

section Steps

variable (binding : Binding ClassId Members)
  (Step : Prepared ClassId Members → Prepared ClassId Members → Prop)

/-- What a call does when it returns. -/
def Does (call : Prepared ClassId Members → Option (Prepared ClassId Members)) : Prop :=
  ∀ state after, call state = some after → Step state after

/-- A relation between states that each part of preparation keeps to. -/
structure Keeps [DecidableEq ClassId] : Prop where
  refl : ∀ state, Step state state
  trans : ∀ {first second third}, Step first second → Step second third → Step first third
  insert : ∀ state candidate,
    Step state { state with table := insertKey state.table candidate }
  function : ∀ state key, Step state { state with functions := state.functions ++ [key] }
  objectInit : ∀ candidate state statics,
    binding.objectInit candidate state.statics = some statics → Step state { state with statics }
  lateBindings : ∀ connect, (∀ candidate, Does Step (connect candidate)) →
    ∀ candidate, Does Step (binding.lateBindings connect candidate)

variable {binding Step} [DecidableEq ClassId] (keeps : Keeps binding Step)
include keeps

theorem Keeps.foldlM {Item : Type*}
    {body : Prepared ClassId Members → Item → Option (Prepared ClassId Members)}
    {items : List Item} (each : ∀ item ∈ items, Does Step (body · item)) :
    Does Step fun state => items.foldlM body state := by
  intro state after done
  have since : ∀ middle after, Step state middle → ∀ item ∈ items,
      body middle item = some after → Step state after := by
    intro middle after before item isIn moved
    exact keeps.trans before (each item isIn middle after moved)
  exact foldlM_keeps since done (keeps.refl state)

theorem Keeps.bind {first second : Prepared ClassId Members → Option (Prepared ClassId Members)}
    (one : Does Step first) (other : Does Step second) :
    Does Step fun state => (first state).bind second := by
  intro state after done
  obtain ⟨middle, moved, last⟩ := Option.bind_eq_some_iff.mp done
  exact keeps.trans (one state middle moved) (other middle after last)

theorem Keeps.connectEach {connect : ClassId → Prepared ClassId Members →
      Option (Prepared ClassId Members)} (connects : ∀ candidate, Does Step (connect candidate))
    (candidates : List ClassId) : Does Step (connectEach connect candidates) :=
  keeps.foldlM fun candidate _ => connects candidate

variable {create : ClassId → Bool → Prepared ClassId Members → Option (Prepared ClassId Members)}
  (creates : ∀ candidate late, Does Step (create candidate late))
include creates

theorem Keeps.connectObject (candidate : ClassId) :
    Does Step (connectObject binding create candidate) := by
  apply keeps.bind (creates candidate true)
  intro state after done
  obtain ⟨statics, started, rfl⟩ := Option.map_eq_some_iff.mp done
  exact keeps.objectInit candidate state statics started

theorem Keeps.prepareFunction (function : UserFunction ClassId) :
    Does Step fun state => prepareFunction binding create state function := by
  intro state after done
  dsimp only at done
  unfold ClassPreparation.prepareFunction at done
  split at done
  · cases Option.some.inj done
    exact keeps.refl state
  · obtain ⟨middle, connected, last⟩ := Option.map_eq_some_iff.mp done
    have before : Step state middle :=
      keeps.connectEach (keeps.connectObject creates) function.objects state middle connected
    rw [← last]
    split
    · exact before
    · exact keeps.trans before (keeps.function middle function.key)

theorem Keeps.lateBindingsIf (doLateBindings : Bool) (candidate : ClassId) :
    Does Step (lateBindingsIf binding create doLateBindings candidate) := by
  cases doLateBindings with
  | true => exact keeps.lateBindings _ (keeps.connectObject creates) candidate
  | false =>
    rintro state after ⟨⟩
    exact keeps.refl state

variable (creator : ObjectCreator ClassId Value)

theorem Keeps.prepareClosures : Does Step (prepareClosures creator binding create) :=
  keeps.foldlM fun function _ => keeps.prepareFunction creates function

theorem Keeps.enterCopy (candidate : ClassId) (doLateBindings : Bool) :
    Does Step (enterCopy creator binding create candidate doLateBindings) := by
  intro state after done
  unfold ClassPreparation.enterCopy at done
  split at done
  · cases done
  · apply keeps.trans (keeps.insert state candidate)
    exact keeps.bind (keeps.lateBindingsIf creates doLateBindings candidate)
      (keeps.prepareClosures creates creator) _ after done

theorem Keeps.createEntryBody (candidate : ClassId) (doLateBindings : Bool) :
    Does Step (createEntryBody creator binding create candidate doLateBindings) := by
  intro state after done
  have unchanged : some state = some after → Step state after := by
    rintro ⟨⟩
    exact keeps.refl state
  unfold ClassPreparation.createEntryBody at done
  cases origin : (creator.entry candidate).origin with
  | internal =>
    simp only [origin] at done
    exact unchanged done
  | preloaded =>
    simp only [origin] at done
    exact unchanged done
  | immutable =>
    simp only [origin] at done
    split at done
    · exact unchanged done
    · obtain ⟨middle, others, last⟩ := Option.bind_eq_some_iff.mp done
      apply keeps.trans (keeps.insert state candidate)
      apply keeps.trans (keeps.foldlM (fun other _ => creates other doLateBindings) _ middle others)
      exact keeps.lateBindingsIf creates doLateBindings candidate middle after last
  | user =>
    simp only [origin] at done
    split at done
    · exact unchanged done
    · apply keeps.bind _ _ state after done
      · exact keeps.foldlM fun other _ => creates other true
      · apply keeps.bind (keeps.connectEach (keeps.connectObject creates) _)
        exact keeps.enterCopy creates creator candidate doLateBindings

omit creates in
/-- What each part keeps to, `pthreads_create_entry` keeps to. -/
theorem Keeps.createEntry (fuel : Nat) (candidate : ClassId) (doLateBindings : Bool) :
    Does Step (createEntry creator binding fuel candidate doLateBindings) := by
  induction fuel generalizing candidate doLateBindings with
  | zero => exact fun _ _ done => by cases done
  | succ fuel ih => exact keeps.createEntryBody ih creator candidate doLateBindings

theorem Keeps.createEntries : Does Step (createEntries creator create) := by
  apply keeps.foldlM
  intro candidate _ state after done
  dsimp only at done
  split at done
  · exact creates candidate false state after done
  · cases Option.some.inj done
    exact keeps.refl state

theorem Keeps.contextLateBindings : Does Step (contextLateBindings creator binding create) := by
  intro state
  refine keeps.foldlM ?_ state
  intro candidate _ later after done
  dsimp only at done
  split at done
  · cases done
  · split at done
    · cases Option.some.inj done
      exact keeps.refl later
    · exact keeps.lateBindings _ (keeps.connectObject creates) candidate later after done

theorem Keeps.startupConstants (threadOptions : Nat) :
    Does Step (startupConstants creator binding create threadOptions) := by
  intro state after done
  unfold ClassPreparation.startupConstants at done
  split at done
  · exact keeps.connectEach (keeps.connectObject creates) _ state after done
  · cases Option.some.inj done
    exact keeps.refl state

theorem Keeps.startupFunctions (threadOptions : Nat) :
    Does Step (startupFunctions creator binding create threadOptions) := by
  intro state after done
  unfold ClassPreparation.startupFunctions at done
  split at done
  · exact keeps.foldlM (fun function _ => keeps.prepareFunction creates function) state after done
  · exact keeps.prepareClosures creates creator state after done

theorem Keeps.startupClasses (threadOptions : Nat) (threadClass : ClassId) :
    Does Step (startupClasses creator create threadOptions threadClass) := by
  intro state after done
  unfold ClassPreparation.startupClasses at done
  split at done
  · exact keeps.createEntries creates creator state after done
  · exact creates threadClass false state after done

/-- What each part keeps to, a start keeps to. -/
theorem Keeps.startup (threadOptions : Nat) (threadClass : ClassId) :
    Does Step (startup creator binding create threadOptions threadClass) := by
  apply keeps.bind (keeps.startupConstants creates creator threadOptions)
  apply keeps.bind (keeps.startupFunctions creates creator threadOptions)
  apply keeps.bind (keeps.startupClasses creates creator threadOptions threadClass)
  exact keeps.contextLateBindings creates creator

end Steps

section Presence

variable [DecidableEq ClassId] {creator : ObjectCreator ClassId Value}
  {binding : Binding ClassId Members}
  {Step : Prepared ClassId Members → Prepared ClassId Members → Prop}

theorem mem_insertKey (table : List ClassId) (candidate : ClassId) :
    candidate ∈ insertKey table candidate := by
  unfold insertKey
  split
  · assumption
  · exact List.mem_append_right _ (List.mem_singleton_self candidate)

theorem subset_insertKey (table : List ClassId) (candidate : ClassId) :
    table ⊆ insertKey table candidate := by
  unfold insertKey
  split
  · exact List.Subset.refl _
  · exact List.subset_append_left _ _

/-- After `pthreads_create_entry` the class is in the table. -/
theorem Keeps.present (keeps : Keeps binding Step)
    (grows : ∀ state after, Step state after → state.table ⊆ after.table) {fuel : Nat}
    {candidate : ClassId} {doLateBindings : Bool} {state after : Prepared ClassId Members}
    (notInternal : (creator.entry candidate).origin ≠ .internal)
    (preloaded : (creator.entry candidate).origin = .preloaded → candidate ∈ state.table)
    (done : ClassPreparation.createEntry creator binding fuel candidate doLateBindings state =
      some after) : candidate ∈ after.table := by
  cases fuel with
  | zero => cases done
  | succ fuel =>
    have creates : ∀ other late,
        Does Step (ClassPreparation.createEntry creator binding fuel other late) :=
      keeps.createEntry creator fuel
    unfold ClassPreparation.createEntry ClassPreparation.createEntryBody at done
    cases origin : (creator.entry candidate).origin with
    | internal => exact absurd origin notInternal
    | preloaded =>
      simp only [origin] at done
      cases Option.some.inj done
      exact preloaded origin
    | immutable =>
      simp only [origin] at done
      split at done
      · cases Option.some.inj done
        assumption
      · obtain ⟨middle, others, last⟩ := Option.bind_eq_some_iff.mp done
        have first : Step _ middle :=
          keeps.foldlM (fun other _ => creates other doLateBindings) _ middle others
        have second : Step middle after :=
          keeps.lateBindingsIf creates doLateBindings candidate middle after last
        exact grows middle after second (grows _ middle first (mem_insertKey _ candidate))
    | user =>
      simp only [origin] at done
      split at done
      · cases Option.some.inj done
        assumption
      · obtain ⟨above, -, done⟩ := Option.bind_eq_some_iff.mp done
        obtain ⟨copied, -, done⟩ := Option.bind_eq_some_iff.mp done
        unfold ClassPreparation.enterCopy at done
        split at done
        · cases done
        · have last : Step _ after :=
            keeps.bind (keeps.lateBindingsIf creates doLateBindings candidate)
              (keeps.prepareClosures creates creator) _ after done
          exact grows _ after last (mem_insertKey _ candidate)

end Presence

section Simulation

variable {PlanMembers RunMembers : Type*} [DecidableEq ClassId]
  (creator : ObjectCreator ClassId Value)

/-- A plan and a state with the same classes and functions. -/
structure Alike (Related : PlanMembers → RunMembers → Prop) (plan : Prepared ClassId PlanMembers)
    (state : Prepared ClassId RunMembers) : Prop where
  table : plan.table = state.table
  functions : plan.functions = state.functions
  statics : Related plan.statics state.statics
  preloaded : ∀ candidate, (creator.entry candidate).origin = .preloaded →
    candidate ∈ state.table

/-- What one binding does follows what another one plans. -/
structure BindingFollows (plans : Binding ClassId PlanMembers) (runs : Binding ClassId RunMembers)
    (Related : PlanMembers → RunMembers → Prop) (Spoilt : Prepared ClassId RunMembers → Prop)
    (PlanStep : Prepared ClassId PlanMembers → Prepared ClassId PlanMembers → Prop)
    (Step : Prepared ClassId RunMembers → Prepared ClassId RunMembers → Prop) : Prop where
  planKeeps : Keeps plans PlanStep
  keeps : Keeps runs Step
  grows : ∀ state after, Step state after → state.table ⊆ after.table
  spoilt : ∀ state after, Step state after → Spoilt state → Spoilt after
  objectInit : ∀ candidate plan state, Alike creator Related plan state →
    ((creator.entry candidate).origin ≠ .internal → candidate ∈ state.table) →
      Follows Related (fun statics => Spoilt { state with statics })
        (plans.objectInit candidate plan.statics) (runs.objectInit candidate state.statics)
  lateBindings : ∀ connectPlan connect,
    (∀ candidate, Does PlanStep (connectPlan candidate)) →
    (∀ candidate, Does Step (connect candidate)) →
    (∀ candidate plan state, Alike creator Related plan state →
      Follows (Alike creator Related) Spoilt (connectPlan candidate plan)
        (connect candidate state)) →
    ∀ candidate plan state, Alike creator Related plan state → candidate ∈ state.table →
      (creator.entry candidate).origin ≠ .internal →
        Follows (Alike creator Related) Spoilt (plans.lateBindings connectPlan candidate plan)
          (runs.lateBindings connect candidate state)

variable {creator} {plans : Binding ClassId PlanMembers} {runs : Binding ClassId RunMembers}
  {Related : PlanMembers → RunMembers → Prop} {Spoilt : Prepared ClassId RunMembers → Prop}
  {PlanStep : Prepared ClassId PlanMembers → Prepared ClassId PlanMembers → Prop}
  {Step : Prepared ClassId RunMembers → Prepared ClassId RunMembers → Prop}

theorem Alike.insert {plan : Prepared ClassId PlanMembers} {state : Prepared ClassId RunMembers}
    (alike : Alike creator Related plan state) (candidate : ClassId) :
    Alike creator Related { plan with table := insertKey plan.table candidate }
      { state with table := insertKey state.table candidate } where
  table := congrArg (insertKey · candidate) alike.table
  functions := alike.functions
  statics := alike.statics
  preloaded other isPreloaded :=
    subset_insertKey state.table candidate (alike.preloaded other isPreloaded)

variable (follows : BindingFollows creator plans runs Related Spoilt PlanStep Step)
include follows

/-- Steps of the run spoil nothing that is spoilt already. -/
theorem BindingFollows.stays
    {call : Prepared ClassId RunMembers → Option (Prepared ClassId RunMembers)}
    (does : Does Step call) (state after : Prepared ClassId RunMembers) (spoilt : Spoilt state)
    (done : call state = some after) : Spoilt after :=
  follows.spoilt state after (does state after done) spoilt

theorem BindingFollows.connectEach
    {connectPlan : ClassId → Prepared ClassId PlanMembers → Option (Prepared ClassId PlanMembers)}
    {connect : ClassId → Prepared ClassId RunMembers → Option (Prepared ClassId RunMembers)}
    (connects : ∀ candidate, Does Step (connect candidate))
    (each : ∀ candidate plan state, Alike creator Related plan state →
      Follows (Alike creator Related) Spoilt (connectPlan candidate plan)
        (connect candidate state))
    (candidates : List ClassId) {plan : Prepared ClassId PlanMembers}
    {state : Prepared ClassId RunMembers} (alike : Alike creator Related plan state) :
    Follows (Alike creator Related) Spoilt (connectEach connectPlan candidates plan)
      (connectEach connect candidates state) := by
  apply follows_foldlM _ _ alike
  · exact fun candidate _ => each candidate
  · exact fun candidate _ => follows.stays (connects candidate)

variable {createPlan : ClassId → Bool → Prepared ClassId PlanMembers →
    Option (Prepared ClassId PlanMembers)}
  {create : ClassId → Bool → Prepared ClassId RunMembers → Option (Prepared ClassId RunMembers)}
  (plansKeep : ∀ candidate late, Does PlanStep (createPlan candidate late))
  (creates : ∀ candidate late, Does Step (create candidate late))
  (present : ∀ candidate late state after, (creator.entry candidate).origin ≠ .internal →
    ((creator.entry candidate).origin = .preloaded → candidate ∈ state.table) →
      create candidate late state = some after → candidate ∈ after.table)
  (each : ∀ candidate late plan state, Alike creator Related plan state →
    Follows (Alike creator Related) Spoilt (createPlan candidate late plan)
      (create candidate late state))
include creates each

theorem BindingFollows.createEach (late : Bool) (candidates : List ClassId)
    {plan : Prepared ClassId PlanMembers} {state : Prepared ClassId RunMembers}
    (alike : Alike creator Related plan state) :
    Follows (Alike creator Related) Spoilt (createEach createPlan late candidates plan)
      (createEach create late candidates state) := by
  apply follows_foldlM _ _ alike
  · exact fun candidate _ => each candidate late
  · exact fun candidate _ => follows.stays (creates candidate late)

include present

omit creates in
theorem BindingFollows.connectObject (candidate : ClassId)
    (plan : Prepared ClassId PlanMembers) (state : Prepared ClassId RunMembers)
    (alike : Alike creator Related plan state) :
    Follows (Alike creator Related) Spoilt (connectObject plans createPlan candidate plan)
      (connectObject runs create candidate state) := by
  have isThere : ∀ after, create candidate true state = some after →
      (creator.entry candidate).origin ≠ .internal → candidate ∈ after.table := by
    intro after created notInternal
    apply present candidate true state after notInternal _ created
    exact alike.preloaded candidate
  have created := (each candidate true plan state alike).also isThere
  apply created.bind
  · rintro plan state ⟨alike, isThere⟩
    apply (follows.objectInit candidate plan state alike isThere).map
    · intro planned statics related
      exact ⟨alike.table, alike.functions, related, alike.preloaded⟩
    · exact fun statics spoilt => spoilt
  · intro state after spoilt done
    obtain ⟨statics, started, rfl⟩ := Option.map_eq_some_iff.mp done
    exact follows.spoilt _ _ (follows.keeps.objectInit candidate state statics started) spoilt

theorem BindingFollows.prepareFunction (function : UserFunction ClassId)
    (plan : Prepared ClassId PlanMembers) (state : Prepared ClassId RunMembers)
    (alike : Alike creator Related plan state) :
    Follows (Alike creator Related) Spoilt (prepareFunction plans createPlan plan function)
      (prepareFunction runs create state function) := by
  unfold ClassPreparation.prepareFunction
  rw [alike.functions]
  split
  · exact follows_some alike
  · apply (follows.connectEach (follows.keeps.connectObject creates)
      (follows.connectObject present each) function.objects alike).map
    · intro plan state alike
      rw [alike.functions]
      split
      · exact alike
      · exact ⟨alike.table, rfl, alike.statics, alike.preloaded⟩
    · intro state spoilt
      split
      · exact spoilt
      · exact follows.spoilt _ _ (follows.keeps.function state function.key) spoilt

theorem BindingFollows.prepareEach (functions : List (UserFunction ClassId))
    {plan : Prepared ClassId PlanMembers} {state : Prepared ClassId RunMembers}
    (alike : Alike creator Related plan state) :
    Follows (Alike creator Related) Spoilt
      (functions.foldlM (ClassPreparation.prepareFunction plans createPlan) plan)
      (functions.foldlM (ClassPreparation.prepareFunction runs create) state) := by
  apply follows_foldlM _ _ alike
  · exact fun function _ => follows.prepareFunction creates present each function
  · exact fun function _ => follows.stays (follows.keeps.prepareFunction creates function)

include plansKeep

theorem BindingFollows.lateBindingsIf (late : Bool) {candidate : ClassId}
    {plan : Prepared ClassId PlanMembers} {state : Prepared ClassId RunMembers}
    (alike : Alike creator Related plan state) (isIn : candidate ∈ state.table)
    (notInternal : (creator.entry candidate).origin ≠ .internal) :
    Follows (Alike creator Related) Spoilt (lateBindingsIf plans createPlan late candidate plan)
      (lateBindingsIf runs create late candidate state) := by
  cases late with
  | true =>
    exact follows.lateBindings _ _ (follows.planKeeps.connectObject plansKeep)
      (follows.keeps.connectObject creates) (follows.connectObject present each)
      candidate plan state alike isIn notInternal
  | false => exact follows_some alike

theorem BindingFollows.insertImmutable (candidate : ClassId) (late : Bool)
    (notInternal : (creator.entry candidate).origin ≠ .internal)
    {plan : Prepared ClassId PlanMembers} {state : Prepared ClassId RunMembers}
    (alike : Alike creator Related plan state) :
    Follows (Alike creator Related) Spoilt
      (insertImmutable creator plans createPlan candidate late plan)
      (insertImmutable creator runs create candidate late state) := by
  have others : Does Step (ClassPreparation.createEach create late
      (creator.entry candidate).dependencies) :=
    follows.keeps.foldlM fun other _ => creates other late
  have isThere : ∀ after, ClassPreparation.createEach create late
      (creator.entry candidate).dependencies
        { state with table := insertKey state.table candidate } = some after →
          candidate ∈ after.table :=
    fun after done => follows.grows _ after (others _ after done) (mem_insertKey _ candidate)
  apply ((follows.createEach creates each late (creator.entry candidate).dependencies
    (alike.insert candidate)).also isThere).bind
  · rintro plan state ⟨alike, isIn⟩
    exact follows.lateBindingsIf plansKeep creates present each late alike isIn notInternal
  · exact follows.stays (follows.keeps.lateBindingsIf creates late candidate)

theorem BindingFollows.enterCopy (candidate : ClassId) (late : Bool)
    (notInternal : (creator.entry candidate).origin ≠ .internal)
    {plan : Prepared ClassId PlanMembers} {state : Prepared ClassId RunMembers}
    (alike : Alike creator Related plan state) :
    Follows (Alike creator Related) Spoilt
      (enterCopy creator plans createPlan candidate late plan)
      (enterCopy creator runs create candidate late state) := by
  have inserted := alike.insert candidate
  unfold ClassPreparation.enterCopy
  rw [alike.table] at inserted ⊢
  apply Follows.ite
  · exact follows_none fun _ done => by cases done
  · apply (follows.lateBindingsIf plansKeep creates present each late inserted
      (mem_insertKey _ candidate) notInternal).bind
    · intro plan state alike
      exact follows.prepareEach creates present each _ alike
    · exact follows.stays (follows.keeps.prepareClosures creates creator)

theorem BindingFollows.insertCopy (candidate : ClassId) (late : Bool)
    (notInternal : (creator.entry candidate).origin ≠ .internal)
    {plan : Prepared ClassId PlanMembers} {state : Prepared ClassId RunMembers}
    (alike : Alike creator Related plan state) :
    Follows (Alike creator Related) Spoilt
      (insertCopy creator plans createPlan candidate late plan)
      (insertCopy creator runs create candidate late state) := by
  have connects : ∀ other, Does Step (ClassPreparation.connectObject runs create other) :=
    follows.keeps.connectObject creates
  have entered : Does Step (ClassPreparation.enterCopy creator runs create candidate late) :=
    follows.keeps.enterCopy creates creator candidate late
  apply (follows.createEach creates each true (creator.entry candidate).required alike).bind
  · intro plan state alike
    apply (follows.connectEach connects (follows.connectObject present each)
      (creator.methodObjects candidate) alike).bind
    · intro plan state alike
      exact follows.enterCopy plansKeep creates present each candidate late notInternal alike
    · exact follows.stays entered
  · apply follows.stays
    exact follows.keeps.bind
      (follows.keeps.connectEach connects (creator.methodObjects candidate)) entered

theorem BindingFollows.createEntryBody (candidate : ClassId) (late : Bool)
    (plan : Prepared ClassId PlanMembers) (state : Prepared ClassId RunMembers)
    (alike : Alike creator Related plan state) :
    Follows (Alike creator Related) Spoilt
      (createEntryBody creator plans createPlan candidate late plan)
      (createEntryBody creator runs create candidate late state) := by
  unfold ClassPreparation.createEntryBody
  rw [alike.table]
  cases origin : (creator.entry candidate).origin with
  | internal => exact follows_some alike
  | preloaded => exact follows_some alike
  | immutable =>
    apply Follows.ite
    · exact follows_some alike
    · apply follows.insertImmutable plansKeep creates present each candidate late _ alike
      simp [origin]
  | user =>
    apply Follows.ite
    · exact follows_some alike
    · apply follows.insertCopy plansKeep creates present each candidate late _ alike
      simp [origin]

omit plansKeep creates present each in
/-- Where one binding follows another, so does `pthreads_create_entry` with it. -/
theorem BindingFollows.createEntry (fuel : Nat) (candidate : ClassId) (late : Bool)
    (plan : Prepared ClassId PlanMembers) (state : Prepared ClassId RunMembers)
    (alike : Alike creator Related plan state) :
    Follows (Alike creator Related) Spoilt (createEntry creator plans fuel candidate late plan)
      (createEntry creator runs fuel candidate late state) := by
  induction fuel generalizing candidate late plan state with
  | zero => exact follows_none fun _ done => by cases done
  | succ fuel ih =>
    apply follows.createEntryBody _ _ _ ih candidate late plan state alike
    · exact follows.planKeeps.createEntry creator fuel
    · exact follows.keeps.createEntry creator fuel
    · intro other late state after notInternal preloaded done
      exact follows.keeps.present follows.grows notInternal preloaded done

/-- The classes of the loop stay in the table. -/
theorem BindingFollows.contextLateBindings {plan : Prepared ClassId PlanMembers}
    {state : Prepared ClassId RunMembers} (alike : Alike creator Related plan state) :
    Follows (Alike creator Related) Spoilt (contextLateBindings creator plans createPlan plan)
      (contextLateBindings creator runs create state) := by
  have connects : ∀ other, Does Step (ClassPreparation.connectObject runs create other) :=
    follows.keeps.connectObject creates
  have lates : ∀ candidate, Does Step
      (runs.lateBindings (ClassPreparation.connectObject runs create) candidate) :=
    follows.keeps.lateBindings _ connects
  have loop : Follows
      (fun planned later => Alike creator Related planned later ∧ state.table ⊆ later.table) Spoilt
      (ClassPreparation.contextLateBindings creator plans createPlan plan)
      (ClassPreparation.contextLateBindings creator runs create state) := by
    unfold ClassPreparation.contextLateBindings
    rw [alike.table]
    apply follows_foldlM _ _ ⟨alike, List.Subset.refl _⟩
    · rintro candidate isIn planned later ⟨now, within⟩
      rw [now.table]
      apply Follows.ite
      · exact follows_none fun _ done => by cases done
      · by_cases internal : (creator.entry candidate).origin = .internal
        · rw [if_pos internal, if_pos internal]
          exact follows_some ⟨now, within⟩
        · rw [if_neg internal, if_neg internal]
          apply (follows.lateBindings _ _ (follows.planKeeps.connectObject plansKeep) connects
            (follows.connectObject present each) candidate planned later now (within isIn)
            internal).also
          intro after done other isOther
          exact follows.grows later after (lates candidate later after done) (within isOther)
    · intro candidate _ later after spoilt done
      split at done
      · cases done
      · split at done
        · cases Option.some.inj done
          exact spoilt
        · exact follows.stays (lates candidate) later after spoilt done
  refine ⟨?_, loop.failure⟩
  intro planned isPlanned
  obtain ⟨after, isAfter, now, -⟩ := loop.success planned isPlanned
  exact ⟨after, isAfter, now⟩

omit present plansKeep in
theorem BindingFollows.createEntries {plan : Prepared ClassId PlanMembers}
    {state : Prepared ClassId RunMembers} (alike : Alike creator Related plan state) :
    Follows (Alike creator Related) Spoilt (createEntries creator createPlan plan)
      (createEntries creator create state) := by
  apply follows_foldlM _ _ alike
  · intro candidate _ plan state alike
    rw [alike.table]
    apply Follows.ite
    · exact each candidate false plan state alike
    · exact follows_some alike
  · intro candidate _ state after spoilt done
    split at done
    · exact follows.stays (creates candidate false) state after spoilt done
    · cases Option.some.inj done
      exact spoilt

theorem BindingFollows.startup (threadOptions : Nat) (threadClass : ClassId)
    {plan : Prepared ClassId PlanMembers} {state : Prepared ClassId RunMembers}
    (alike : Alike creator Related plan state) :
    Follows (Alike creator Related) Spoilt
      (startup creator plans createPlan threadOptions threadClass plan)
      (startup creator runs create threadOptions threadClass state) := by
  have context := follows.keeps.contextLateBindings creates creator
  have classes := follows.keeps.bind
    (follows.keeps.startupClasses creates creator threadOptions threadClass) context
  have functions := follows.keeps.bind
    (follows.keeps.startupFunctions creates creator threadOptions) classes
  have constants : Follows (Alike creator Related) Spoilt
      (startupConstants creator plans createPlan threadOptions plan)
      (startupConstants creator runs create threadOptions state) := by
    apply Follows.ite
    · exact follows.connectEach (follows.keeps.connectObject creates)
        (follows.connectObject present each) creator.constantObjects alike
    · exact follows_some alike
  apply constants.bind _ (follows.stays functions)
  intro plan state alike
  have copied : Follows (Alike creator Related) Spoilt
      (startupFunctions creator plans createPlan threadOptions plan)
      (startupFunctions creator runs create threadOptions state) := by
    apply Follows.ite
    · exact follows.prepareEach creates present each creator.functionTable alike
    · exact follows.prepareEach creates present each _ alike
  apply copied.bind _ (follows.stays classes)
  intro plan state alike
  have created : Follows (Alike creator Related) Spoilt
      (startupClasses creator createPlan threadOptions threadClass plan)
      (startupClasses creator create threadOptions threadClass state) := by
    apply Follows.ite
    · exact follows.createEntries creates each alike
    · exact each threadClass false plan state alike
  apply created.bind _ (follows.stays context)
  intro plan state alike
  exact follows.contextLateBindings plansKeep creates present each alike

end Simulation

section Fuel

/-- The second call succeeds more often than the first, and then does the same. -/
def Succeeds (first second : ClassId → Prepared ClassId Members →
    Option (Prepared ClassId Members)) : Prop :=
  ∀ candidate state, Below (first candidate state) (second candidate state)

variable {binding : Binding ClassId Members} {create more : ClassId → Bool →
    Prepared ClassId Members → Option (Prepared ClassId Members)}
  (lates : ∀ connect other, Succeeds connect other →
    Succeeds (binding.lateBindings connect) (binding.lateBindings other))
  (creates : ∀ late, Succeeds (create · late) (more · late))
include creates

theorem below_connectObject :
    Succeeds (connectObject binding create) (connectObject binding more) :=
  fun candidate state => (creates true candidate state).bind fun _ => Below.refl _

theorem below_prepareFunction (function : UserFunction ClassId)
    (state : Prepared ClassId Members) :
    Below (prepareFunction binding create state function)
      (prepareFunction binding more state function) := by
  apply Below.ite (Below.refl _)
  rw [Option.map_eq_bind, Option.map_eq_bind]
  apply Below.bind _ fun _ => Below.refl _
  exact below_foldlM (fun state candidate => below_connectObject creates candidate state) _ state

include lates

theorem below_lateBindingsIf (late : Bool) :
    Succeeds (lateBindingsIf binding create late) (lateBindingsIf binding more late) := by
  intro candidate state
  apply Below.ite _ (Below.refl _)
  exact lates _ _ (below_connectObject creates) candidate state

variable [DecidableEq ClassId] (creator : ObjectCreator ClassId Value)

theorem below_createEntryBody (late : Bool) :
    Succeeds (createEntryBody creator binding create · late)
      (createEntryBody creator binding more · late) := by
  intro candidate state
  have each (late : Bool) (candidates : List ClassId) (state : Prepared ClassId Members) :
      Below (createEach create late candidates state) (createEach more late candidates state) :=
    below_foldlM (fun state candidate => creates late candidate state) candidates state
  unfold createEntryBody
  dsimp only
  cases (creator.entry candidate).origin with
  | internal => exact Below.refl _
  | preloaded => exact Below.refl _
  | immutable =>
    apply Below.ite (Below.refl _)
    apply (each late _ _).bind
    exact below_lateBindingsIf lates creates late candidate
  | user =>
    apply Below.ite (Below.refl _)
    apply (each true _ _).bind
    intro state
    apply Below.bind
    · exact below_foldlM (fun state candidate => below_connectObject creates candidate state) _ _
    · intro state
      apply Below.ite (Below.refl _)
      apply (below_lateBindingsIf lates creates late candidate _).bind
      intro state
      exact below_foldlM (fun state function => below_prepareFunction creates function state) _
        state

omit creates in
theorem below_createEntry (fuel : Nat) (late : Bool) :
    Succeeds (createEntry creator binding fuel · late)
      (createEntry creator binding (fuel + 1) · late) := by
  induction fuel generalizing late with
  | zero => exact fun _ _ _ done => by cases done
  | succ fuel ih => exact below_createEntryBody lates ih creator late

theorem below_startup (threadOptions : Nat) (threadClass : ClassId)
    (state : Prepared ClassId Members) :
    Below (startup creator binding create threadOptions threadClass state)
      (startup creator binding more threadOptions threadClass state) := by
  have functions (candidates : List (UserFunction ClassId)) (state : Prepared ClassId Members) :
      Below (candidates.foldlM (prepareFunction binding create) state)
        (candidates.foldlM (prepareFunction binding more) state) :=
    below_foldlM (fun state function => below_prepareFunction creates function state) _ state
  apply Below.bind
  · apply Below.ite _ (Below.refl _)
    exact below_foldlM (fun state candidate => below_connectObject creates candidate state) _ state
  · intro state
    apply Below.bind
    · exact Below.ite (functions _ state) (functions _ state)
    · intro state
      apply Below.bind
      · apply Below.ite _ (creates false threadClass state)
        apply below_foldlM
        exact fun state candidate => Below.ite (creates false candidate state) (Below.refl _)
      · intro state
        apply below_foldlM
        intro later candidate
        apply Below.ite (Below.refl _)
        apply Below.ite (Below.refl _)
        exact lates _ _ (below_connectObject creates) candidate later

end Fuel

end Pthreads.ClassPreparation
