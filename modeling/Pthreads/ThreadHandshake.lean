import Pthreads.ThreadLifecycle

/-!
# The handshake of a join

The creator copies from the objects of the child before the child destroys them,
and only while the child stands still.  The events of a run are in the order that
the four flags of the monitor enforce.
-/

namespace Pthreads.ThreadLifecycle

open GuardedRuns
open WorkerTasks (MonitorFlag monitorAdd monitorRemove)

/-- How far the creator is in `pthreads_start` and `pthreads_join`. -/
def CreatorPhase.rank : CreatorPhase → Nat
  | .free => 0
  | .awaitingReady _ => 1
  | .awaitingJoin _ => 2
  | .joinAwaited => 3
  | .syncingThread => 4
  | .syncingTasks => 5
  | .synced => 6
  | .awaitingThread => 7

/-- How far the child is in `pthreads_routine`. -/
def ChildPhase.rank : ChildPhase → Nat
  | .absent => 0
  | .preparing => 1
  | .running => 2
  | .left => 3
  | .awaitingExit _ => 4
  | .destroying => 5
  | .shuttingDown => 6
  | .exited => 7

section Notifications

variable (state : State) (flag : MonitorFlag)

@[simp] theorem notify_creator_rank : state.notify.creator.rank = state.creator.rank := by
  simp only [State.notify]
  cases state.creator <;> rfl

@[simp] theorem notify_child_rank : state.notify.child.rank = state.child.rank := by
  simp only [State.notify]
  cases state.child <;> rfl

@[simp] theorem add_creator_rank : (state.add flag).creator.rank = state.creator.rank :=
  notify_creator_rank _

@[simp] theorem add_child_rank : (state.add flag).child.rank = state.child.rank :=
  notify_child_rank _

@[simp] theorem remove_creator_rank : (state.remove flag).creator.rank = state.creator.rank :=
  notify_creator_rank _

@[simp] theorem remove_child_rank : (state.remove flag).child.rank = state.child.rank :=
  notify_child_rank _

@[simp] theorem add_monitor : (state.add flag).monitor = monitorAdd state.monitor flag := rfl

@[simp] theorem remove_monitor : (state.remove flag).monitor = monitorRemove state.monitor flag :=
  rfl

@[simp] theorem add_history : (state.add flag).history = state.history := rfl

@[simp] theorem remove_history : (state.remove flag).history = state.history := rfl

@[simp] theorem add_original : (state.add flag).original = state.original := rfl

@[simp] theorem remove_original : (state.remove flag).original = state.original := rfl

end Notifications

/-- What has to come before an event. -/
def Event.Due (earlier : List Event) : Event → Prop
  | .childUserCode => .childLeft ∈ earlier → .childDestroys ∈ earlier
  | .childLeft => True
  | .syncBegins => .childLeft ∈ earlier
  | .syncEnds => .syncBegins ∈ earlier
  | .childDestroys => .syncEnds ∈ earlier

/-- Every event came in its turn. -/
def Orderly : List Event → Prop
  | [] => True
  | event :: earlier => event.Due earlier ∧ Orderly earlier

theorem Orderly.due {later earlier : List Event} {event : Event}
    (orderly : Orderly (later ++ event :: earlier)) : event.Due earlier := by
  induction later with
  | nil => exact orderly.1
  | cons _ later ih => exact ih orderly.2

/-- What the flags and the phases say about the past. -/
structure Handshake (state : State) : Prop where
  orderly : Orderly state.history.events
  /-- A thread that is not started has done nothing. -/
  unstarted : state.monitor .started = false → state.child.rank = 0 ∧ state.creator.rank = 0
  /-- Only a started thread is joined. -/
  joined : 2 ≤ state.creator.rank → state.monitor .started = true
  left : .childLeft ∈ state.history.events ↔ 3 ≤ state.child.rank
  destroys : 5 ≤ state.child.rank → .childDestroys ∈ state.history.events
  awaitJoin : state.monitor .awaitJoin = true → 4 ≤ state.child.rank
  awaited : 3 ≤ state.creator.rank → state.monitor .awaitJoin = true
  syncs : state.creator.rank = 4 ∨ state.creator.rank = 5 →
    .syncBegins ∈ state.history.events
  synced : state.creator.rank = 6 → .syncEnds ∈ state.history.events
  exit : state.monitor .exit = true → .syncEnds ∈ state.history.events

theorem handshake_initial : Handshake initial := by
  constructor <;> simp [initial, Orderly, ChildPhase.rank, CreatorPhase.rank]

/-- The handshake depends on the past, three flags and the two phases only. -/
theorem Handshake.congr {state after : State} (handshake : Handshake state)
    (events : after.history.events = state.history.events)
    (started : after.monitor .started = state.monitor .started)
    (awaitJoin : after.monitor .awaitJoin = state.monitor .awaitJoin)
    (exit : after.monitor .exit = state.monitor .exit)
    (creatorRank : after.creator.rank = state.creator.rank)
    (childRank : after.child.rank = state.child.rank) : Handshake after := by
  obtain ⟨orderly, unstarted, joined, left, destroys, awaitsJoin, awaited, syncs, synced, exits⟩ :=
    handshake
  constructor <;> simpa only [events, started, awaitJoin, exit, creatorRank, childRank]

/-- The creator goes on to a phase that says nothing about the past. -/
theorem Handshake.creatorTo {state after : State} (handshake : Handshake state)
    (events : after.history.events = state.history.events)
    (monitor : after.monitor = state.monitor)
    (childRank : after.child.rank = state.child.rank)
    (started : state.monitor .started = true)
    (phase : after.creator.rank ≤ 2 ∨
      (after.creator.rank = 3 ∧ state.monitor .awaitJoin = true)) : Handshake after := by
  obtain ⟨orderly, unstarted, joined, left, destroys, awaitsJoin, awaited, syncs, synced, exits⟩ :=
    handshake
  constructor <;> simp only [events, monitor, childRank]
  · exact orderly
  · intro notStarted
    rw [started] at notStarted
    cases notStarted
  · exact fun _ => started
  · exact left
  · exact destroys
  · exact awaitsJoin
  · intro atLeast
    rcases phase with early | ⟨-, isSet⟩
    · omega
    · exact isSet
  · omega
  · omega
  · exact exits

theorem Wait.step_cases {Phase : Type} {wait : Wait} {flag : Bool} {next phase : Phase}
    {waiting : Wait → Phase} (stepped : wait.step flag next waiting = some phase) :
    (flag = true ∧ phase = next) ∨ ∃ later, phase = waiting later := by
  cases wait with
  | checking =>
      simp only [Wait.step, Option.some.injEq] at stepped
      split at stepped
      · next isSet => exact Or.inl ⟨isSet, stepped.symm⟩
      · exact Or.inr ⟨_, stepped.symm⟩
  | asleep woken =>
      cases woken with
      | false => cases stepped
      | true => exact Or.inr ⟨_, (Option.some.inj stepped).symm⟩

section Steps

variable {creator : Nat} {state after : State}

theorem pthreadsStart_handshake (handshake : Handshake state) (caller : Nat)
    (throughOriginal : Bool) (result : CreateResult) :
    Handshake (pthreadsStart creator state caller throughOriginal result).1 := by
  unfold pthreadsStart
  split
  · exact handshake
  · split
    · exact handshake
    · next notStarted =>
      have isUnstarted : state.monitor .started = false := by simpa using notStarted
      cases result with
      | again =>
          refine handshake.congr rfl ?_ rfl rfl (by simp) (by simp)
          simp [monitorAdd, monitorRemove, isUnstarted]
      | other =>
          refine handshake.congr rfl ?_ rfl rfl (by simp) (by simp)
          simp [monitorAdd, monitorRemove, isUnstarted]
      | success =>
          obtain ⟨child, -⟩ := handshake.unstarted isUnstarted
          have notLeft : Event.childLeft ∉ state.history.events := by
            rw [handshake.left]
            omega
          have notAwaited : state.monitor .awaitJoin = false := by
            by_contra isSet
            have past := handshake.awaitJoin (by simpa using isSet)
            omega
          constructor <;> simp [monitorAdd, CreatorPhase.rank, ChildPhase.rank, notLeft, notAwaited]
          · exact handshake.orderly
          · exact handshake.exit

theorem pthreadsJoin_handshake (handshake : Handshake state) (caller : Nat)
    (throughOriginal : Bool) :
    Handshake (pthreadsJoin creator state caller throughOriginal).1 := by
  unfold pthreadsJoin
  split
  · exact handshake
  · split
    · exact handshake
    · split
      · exact handshake
      · next started =>
        have isStarted : state.monitor .started = true := by simpa using started
        have marked : Handshake (state.add .joined) :=
          handshake.congr rfl rfl rfl rfl (by simp) (by simp)
        exact marked.creatorTo rfl rfl rfl (by simpa [monitorAdd] using isStarted)
          (Or.inl (by simp [CreatorPhase.rank]))

theorem Handshake.isStarted (handshake : Handshake state)
    (busy : 0 < state.creator.rank ∨ 0 < state.child.rank) : state.monitor .started = true := by
  by_contra notStarted
  obtain ⟨child, creator⟩ := handshake.unstarted (by simpa using notStarted)
  omega

/-- The steps of the creator. -/
theorem creatorWaits_handshake (handshake : Handshake state)
    (stepped : step creator state .creatorWaits = some after) : Handshake after := by
  simp only [step] at stepped
  split at stepped
  · next wait phase =>
    obtain ⟨next, waited, rfl⟩ := Option.map_eq_some_iff.mp stepped
    have started := handshake.isStarted (Or.inl (by simp [phase, CreatorPhase.rank]))
    rcases Wait.step_cases waited with ⟨-, rfl⟩ | ⟨later, rfl⟩ <;>
      exact handshake.creatorTo rfl rfl rfl started (Or.inl (by simp [CreatorPhase.rank]))
  · next wait phase =>
    obtain ⟨next, waited, rfl⟩ := Option.map_eq_some_iff.mp stepped
    have started := handshake.isStarted (Or.inl (by simp [phase, CreatorPhase.rank]))
    rcases Wait.step_cases waited with ⟨isSet, rfl⟩ | ⟨later, rfl⟩
    · exact handshake.creatorTo rfl rfl rfl started (Or.inr ⟨rfl, isSet⟩)
    · exact handshake.creatorTo rfl rfl rfl started (Or.inl (by simp [CreatorPhase.rank]))
  · cases stepped

theorem creatorWakes_handshake (handshake : Handshake state)
    (stepped : step creator state .creatorWakes = some after) : Handshake after := by
  simp only [step] at stepped
  split at stepped
  · next phase =>
    cases stepped
    exact handshake.congr rfl rfl rfl rfl (by rw [phase]; rfl) rfl
  · next phase =>
    cases stepped
    exact handshake.congr rfl rfl rfl rfl (by rw [phase]; rfl) rfl
  · cases stepped

theorem syncThread_handshake (handshake : Handshake state)
    (stepped : step creator state .syncThread = some after) : Handshake after := by
  obtain ⟨phase, ⟨⟩⟩ := Option.ite_none_right_eq_some.mp stepped
  have rank : state.creator.rank = 3 := by rw [phase]; rfl
  have isSet := handshake.awaited (by omega)
  have past := handshake.awaitJoin isSet
  have hasLeft : Event.childLeft ∈ state.history.events := handshake.left.mpr (by omega)
  constructor <;> simp [State.record, CreatorPhase.rank]
  · exact ⟨hasLeft, handshake.orderly⟩
  · simp [handshake.isStarted (Or.inl (by omega))]
  · exact handshake.isStarted (Or.inl (by omega))
  · exact handshake.left
  · exact handshake.destroys
  · exact handshake.awaitJoin
  · exact isSet
  · exact handshake.exit

theorem syncTasks_handshake (handshake : Handshake state)
    (stepped : step creator state .syncTasks = some after) : Handshake after := by
  obtain ⟨phase, ⟨⟩⟩ := Option.ite_none_right_eq_some.mp stepped
  have rank : state.creator.rank = 4 := by rw [phase]; rfl
  have started := handshake.isStarted (Or.inl (by omega))
  constructor <;> simp [CreatorPhase.rank]
  · exact handshake.orderly
  · simp [started]
  · exact started
  · exact handshake.left
  · exact handshake.destroys
  · exact handshake.awaitJoin
  · exact handshake.awaited (by omega)
  · exact handshake.syncs (Or.inl rank)
  · exact handshake.exit

theorem syncDone_handshake (handshake : Handshake state)
    (stepped : step creator state .syncDone = some after) : Handshake after := by
  obtain ⟨phase, ⟨⟩⟩ := Option.ite_none_right_eq_some.mp stepped
  have rank : state.creator.rank = 5 := by rw [phase]; rfl
  have started := handshake.isStarted (Or.inl (by omega))
  constructor <;> simp [State.record, CreatorPhase.rank]
  · exact ⟨handshake.syncs (Or.inr rank), handshake.orderly⟩
  · simp [started]
  · exact started
  · exact handshake.left
  · exact handshake.destroys
  · exact handshake.awaitJoin
  · exact handshake.awaited (by omega)

theorem exit_handshake (handshake : Handshake state)
    (stepped : step creator state .exit = some after) : Handshake after := by
  obtain ⟨phase, ⟨⟩⟩ := Option.ite_none_right_eq_some.mp stepped
  have rank : state.creator.rank = 6 := by rw [phase]; rfl
  have started := handshake.isStarted (Or.inl (by omega))
  constructor <;> simp [monitorAdd, CreatorPhase.rank]
  · exact handshake.orderly
  · simp [started]
  · exact started
  · exact handshake.left
  · exact handshake.destroys
  · exact handshake.awaitJoin
  · exact handshake.awaited (by omega)
  · exact handshake.synced rank

theorem joinReturns_handshake (handshake : Handshake state)
    (stepped : step creator state .joinReturns = some after) : Handshake after := by
  obtain ⟨⟨phase, -⟩, ⟨⟩⟩ := Option.ite_none_right_eq_some.mp stepped
  have started := handshake.isStarted (Or.inl (by simp [phase, CreatorPhase.rank]))
  exact handshake.creatorTo rfl rfl rfl started (Or.inl (by simp [CreatorPhase.rank]))

theorem userJoinReturns_handshake (handshake : Handshake state)
    (stepped : step creator state .userJoinReturns = some after) : Handshake after := by
  obtain ⟨-, ⟨⟩⟩ := Option.ite_none_right_eq_some.mp stepped
  have checked : Handshake { state with original := .destructing } :=
    handshake.congr rfl rfl rfl rfl rfl rfl
  split
  · exact checked
  · exact pthreadsJoin_handshake checked creator true

/-- The steps of the child. -/
theorem childReady_handshake (handshake : Handshake state)
    (stepped : step creator state .childReady = some after) : Handshake after := by
  obtain ⟨phase, ⟨⟩⟩ := Option.ite_none_right_eq_some.mp stepped
  have rank : state.child.rank = 1 := by rw [phase]; rfl
  have started := handshake.isStarted (Or.inr (by omega))
  have notLeft : Event.childLeft ∉ state.history.events := by
    rw [handshake.left]
    omega
  have sameRank : state.creator.notifyReady.rank = state.creator.rank := by
    cases state.creator <;> rfl
  constructor <;> simp [ChildPhase.rank, sameRank]
  · exact handshake.orderly
  · exact started
  · exact handshake.joined
  · exact notLeft
  · by_contra isSet
    have past := handshake.awaitJoin (by simpa using isSet)
    omega
  · exact handshake.awaited
  · exact handshake.syncs
  · exact handshake.synced
  · exact handshake.exit

theorem childLeaves_handshake (handshake : Handshake state)
    (stepped : step creator state .childLeaves = some after) : Handshake after := by
  obtain ⟨phase, ⟨⟩⟩ := Option.ite_none_right_eq_some.mp stepped
  have rank : state.child.rank = 2 := by rw [phase]; rfl
  have started := handshake.isStarted (Or.inr (by omega))
  constructor <;> simp [State.record, ChildPhase.rank]
  · exact ⟨trivial, handshake.orderly⟩
  · exact started
  · exact handshake.joined
  · by_contra isSet
    have past := handshake.awaitJoin (by simpa using isSet)
    omega
  · exact handshake.awaited
  · exact handshake.syncs
  · exact handshake.synced
  · exact handshake.exit

theorem childAwaitsJoin_handshake (handshake : Handshake state)
    (stepped : step creator state .childAwaitsJoin = some after) : Handshake after := by
  obtain ⟨phase, ⟨⟩⟩ := Option.ite_none_right_eq_some.mp stepped
  have rank : state.child.rank = 3 := by rw [phase]; rfl
  have started := handshake.isStarted (Or.inr (by omega))
  constructor <;> simp [monitorAdd, ChildPhase.rank]
  · exact handshake.orderly
  · exact started
  · exact fun _ => started
  · exact handshake.left.mpr (by omega)
  · exact handshake.syncs
  · exact handshake.synced
  · exact handshake.exit

/-- The child goes on, and nothing but its phase changes. -/
theorem Handshake.childTo (handshake : Handshake state)
    (events : after.history.events = state.history.events)
    (monitor : after.monitor = state.monitor) (creatorPhase : after.creator = state.creator)
    (wasPast : 4 ≤ state.child.rank) (isPast : 4 ≤ after.child.rank)
    (destroys : 5 ≤ after.child.rank → .childDestroys ∈ state.history.events) :
    Handshake after := by
  have started := handshake.isStarted (Or.inr (by omega))
  constructor <;> simp only [events, monitor, creatorPhase]
  · exact handshake.orderly
  · simp [started]
  · exact handshake.joined
  · exact ⟨fun _ => by omega, fun _ => handshake.left.mpr (by omega)⟩
  · exact destroys
  · exact fun _ => isPast
  · exact handshake.awaited
  · exact handshake.syncs
  · exact handshake.synced
  · exact handshake.exit

/-- The child or one of its destructors does something that is due. -/
theorem Handshake.record (handshake : Handshake state) {event : Event}
    (due : event.Due state.history.events) (notLeft : event ≠ .childLeft) :
    Handshake (state.record event) := by
  have same : Event.childLeft ∈ (state.record event).history.events ↔
      Event.childLeft ∈ state.history.events := by
    simp [State.record, notLeft.symm]
  refine ⟨⟨due, handshake.orderly⟩, handshake.unstarted, handshake.joined, ?_, ?_,
    handshake.awaitJoin, handshake.awaited, ?_, ?_, ?_⟩
  · rw [same]
    exact handshake.left
  · exact fun past => List.mem_cons_of_mem _ (handshake.destroys past)
  · exact fun syncing => List.mem_cons_of_mem _ (handshake.syncs syncing)
  · exact fun isSynced => List.mem_cons_of_mem _ (handshake.synced isSynced)
  · exact fun isSet => List.mem_cons_of_mem _ (handshake.exit isSet)

theorem childWaits_handshake (handshake : Handshake state)
    (stepped : step creator state .childWaits = some after) : Handshake after := by
  simp only [step] at stepped
  split at stepped
  · next wait phase =>
    obtain ⟨next, waited, rfl⟩ := Option.map_eq_some_iff.mp stepped
    have rank : state.child.rank = 4 := by rw [phase]; rfl
    rcases Wait.step_cases waited with ⟨isSet, rfl⟩ | ⟨later, rfl⟩
    · -- the event is recorded first, so that the phase may speak of it
      have due : Event.childDestroys.Due state.history.events := handshake.exit isSet
      have recorded := handshake.record due (by simp)
      refine recorded.childTo rfl rfl rfl ?_ ?_ ?_
      · exact Nat.le_of_eq rank.symm
      · simp [State.record, ChildPhase.rank]
      · exact fun _ => List.mem_cons_self
    · exact handshake.childTo rfl rfl rfl (Nat.le_of_eq rank.symm) (by simp [ChildPhase.rank])
        (by simp [ChildPhase.rank])
  · cases stepped

/-- Every step keeps the handshake. -/
theorem step_handshake {action : Action} (handshake : Handshake state)
    (stepped : step creator state action = some after) : Handshake after := by
  cases action with
  | start caller throughOriginal result =>
      obtain ⟨-, ⟨⟩⟩ := Option.ite_none_right_eq_some.mp stepped
      exact pthreadsStart_handshake handshake caller throughOriginal result
  | join caller throughOriginal =>
      obtain ⟨-, ⟨⟩⟩ := Option.ite_none_right_eq_some.mp stepped
      exact pthreadsJoin_handshake handshake caller throughOriginal
  | creatorWaits => exact creatorWaits_handshake handshake stepped
  | creatorWakes => exact creatorWakes_handshake handshake stepped
  | syncThread => exact syncThread_handshake handshake stepped
  | syncTasks => exact syncTasks_handshake handshake stepped
  | syncDone => exact syncDone_handshake handshake stepped
  | exit => exact exit_handshake handshake stepped
  | joinReturns => exact joinReturns_handshake handshake stepped
  | userJoinReturns => exact userJoinReturns_handshake handshake stepped
  | destructor | destructReturns | free =>
      obtain ⟨-, ⟨⟩⟩ := Option.ite_none_right_eq_some.mp stepped
      exact handshake.congr rfl rfl rfl rfl rfl rfl
  | childReady => exact childReady_handshake handshake stepped
  | childUserCode =>
      obtain ⟨phase, ⟨⟩⟩ := Option.ite_none_right_eq_some.mp stepped
      refine handshake.record ?_ (by simp)
      intro hasLeft
      have past := handshake.left.mp hasLeft
      simp [phase, ChildPhase.rank] at past
  | childSetsFlag flag on =>
      obtain ⟨⟨-, isRunningFlag⟩, ⟨⟩⟩ := Option.ite_none_right_eq_some.mp stepped
      cases flag <;> cases on <;> first
        | exact handshake.congr rfl rfl rfl rfl (by simp) (by simp)
        | cases isRunningFlag
  | childLeaves => exact childLeaves_handshake handshake stepped
  | childAwaitsJoin => exact childAwaitsJoin_handshake handshake stepped
  | childWaits => exact childWaits_handshake handshake stepped
  | childWakes =>
      simp only [step] at stepped
      split at stepped
      · next phase =>
        cases stepped
        exact handshake.congr rfl rfl rfl rfl rfl (by rw [phase]; rfl)
      · cases stepped
  | childDestructor =>
      obtain ⟨phase, ⟨⟩⟩ := Option.ite_none_right_eq_some.mp stepped
      refine handshake.record ?_ (by simp)
      intro _
      apply handshake.destroys
      rcases phase with phase | phase <;> simp [phase, ChildPhase.rank]
  | childShutsDown =>
      obtain ⟨phase, ⟨⟩⟩ := Option.ite_none_right_eq_some.mp stepped
      have rank : state.child.rank = 5 := by rw [phase]; rfl
      exact handshake.childTo rfl rfl rfl (by omega) (by simp [ChildPhase.rank])
        (fun _ => handshake.destroys (by omega))
  | childExits =>
      obtain ⟨phase, ⟨⟩⟩ := Option.ite_none_right_eq_some.mp stepped
      have rank : state.child.rank = 6 := by rw [phase]; rfl
      exact handshake.childTo rfl rfl rfl (by omega) (by simp [ChildPhase.rank])
        (fun _ => handshake.destroys (by omega))

theorem handshake_of_reaches {allowed : State → Action → Prop}
    (reached : Reaches (step creator) allowed initial state) : Handshake state :=
  reached.preserves (fun _ _ _ handshake _ stepped => step_handshake handshake stepped)
    handshake_initial

end Steps

/-- In every run the child begins to destroy its objects only after the creator's
sync has ended; the creator begins the sync only after the child has left its
user code, and what user code the child executes after that is called by the
destruction of its objects. -/
theorem join_in_order {creator : Nat} {state : State} {later earlier : List Event} {event : Event}
    (reached : Reaches (step creator) anyAction initial state)
    (events : state.history.events = later ++ event :: earlier) :
    (event = .childDestroys → .syncEnds ∈ earlier) ∧
      (event = .syncBegins → .childLeft ∈ earlier) ∧
      (event = .childUserCode → .childLeft ∈ earlier → .childDestroys ∈ earlier) := by
  have orderly := (handshake_of_reaches reached).orderly
  rw [events] at orderly
  have due := orderly.due
  refine ⟨?_, ?_, ?_⟩ <;> rintro rfl <;> exact due

/-- Thread 1 starts a thread and joins it, and the child runs to its end.  The
wait of the creator is woken once without a notification. -/
def startAndJoin : List Action :=
  [.start 1 true .success, .childReady, .creatorWaits, .childUserCode, .join 1 true,
    .creatorWaits, .creatorWakes, .creatorWaits, .childLeaves, .childAwaitsJoin, .creatorWaits,
    .syncThread, .syncTasks, .syncDone, .childWaits, .exit, .childWaits, .childWaits]

theorem join_in_order_startAndJoin :
    ∃ state, execute (step 1) initial startAndJoin = some state ∧
      state.history.events =
        [] ++ .childDestroys :: [.syncEnds, .syncBegins, .childLeft, .childUserCode] ∧
      .syncEnds ∈ [Event.syncEnds, .syncBegins, .childLeft, .childUserCode] := by
  refine ⟨_, rfl, rfl, ?_⟩
  have reached := reaches_of_execute (admits_anyAction (step 1) initial startAndJoin) rfl
  exact (@join_in_order 1 _ [] [.syncEnds, .syncBegins, .childLeft, .childUserCode]
    .childDestroys reached rfl).1 rfl

/-- A destructor of the child executes user code after the creator's sync has
begun. -/
theorem child_destructor_after_sync :
    ¬ ∀ state later earlier, Reaches (step 1) anyAction initial state →
      state.history.events = later ++ .syncBegins :: earlier →
        Event.childLeft ∈ earlier ∧ Event.childUserCode ∉ later := by
  intro claim
  have reached := reaches_of_execute
    (admits_anyAction (step 1) initial (startAndJoin ++ [.childDestructor])) rfl
  have unchanged := claim _ [.childUserCode, .childDestroys, .syncEnds]
    [.childLeft, .childUserCode] reached rfl
  exact unchanged.2 List.mem_cons_self

end Pthreads.ThreadLifecycle
