import Pthreads.ThreadHandshake

/-!
# Every thread is joined once

`pthread_join` is called on the creator, through the original object, once for the
thread that `pthread_create` made.  Only a thread that the user's `__destruct`
starts escapes the check that `pthreads_base_dtor` has made before.
-/

namespace Pthreads.ThreadLifecycle

open GuardedRuns
open WorkerTasks (MonitorFlag monitorAdd monitorRemove)

/-- How far the destruction of the original is. -/
def OriginalPhase.rank : OriginalPhase → Nat
  | .alive => 0
  | .joining => 1
  | .destructing => 2
  | .destructed => 3
  | .freed => 4

/-- What the flags say about the calls of `pthread_create` and `pthread_join`. -/
structure Discipline (creator : Nat) (state : State) : Prop where
  callers : ∀ call ∈ state.history.joins, call = (creator, true)
  created : state.history.created = if state.monitor .started then 1 else 0
  joinedStarted : state.monitor .joined = true → state.monitor .started = true
  /-- `pthread_join` is the last thing that a join does. -/
  joins : state.history.joins.length =
    if state.monitor .joined = true ∧ (state.creator.rank = 0 ∨ state.creator.rank = 7) then 1
    else 0
  starting : state.creator.rank = 1 → state.monitor .joined = false
  inJoin : 2 ≤ state.creator.rank → state.monitor .joined = true
  /-- The destructor has joined what was started before it. -/
  checked : 2 ≤ state.original.rank → state.monitor .started = true →
    state.monitor .joined = true ∨ state.history.startedLate = true
  idle : state.original = .freed → state.creator.rank = 0
  settled : state.original = .freed → state.monitor .started = true →
    state.monitor .joined = true

/-- What is started in `__destruct` or later is joined before the original is
freed. -/
def JoinsLateStart (state : State) (action : Action) : Prop :=
  action = .free → state.history.startedLate = true → state.monitor .joined = true

theorem discipline_initial (creator : Nat) : Discipline creator initial := by
  constructor <;> simp [initial, OriginalPhase.rank, CreatorPhase.rank]

section Steps

variable {creator : Nat} {state after : State}

/-- The discipline depends on two flags, the calls and the phases only. -/
theorem Discipline.congr (discipline : Discipline creator state)
    (joins : after.history.joins = state.history.joins)
    (created : after.history.created = state.history.created)
    (late : after.history.startedLate = state.history.startedLate)
    (started : after.monitor .started = state.monitor .started)
    (joined : after.monitor .joined = state.monitor .joined)
    (creatorRank : after.creator.rank = state.creator.rank)
    (original : after.original = state.original) : Discipline creator after := by
  obtain ⟨callers, create, joinedStarted, joinCount, starting, inJoin, checked, idle, settled⟩ :=
    discipline
  constructor <;> simpa only [joins, created, late, started, joined, creatorRank, original]

/-- A phase of the creator from which it can go on to another one without a call
of `pthread_join`. -/
def SameSection (before after : CreatorPhase) : Prop :=
  (2 ≤ before.rank ∧ before.rank < 7 ∧ 2 ≤ after.rank ∧ after.rank < 7) ∨
    (before.rank = 1 ∧ after.rank ≤ 1) ∨ (before.rank = 7 ∧ after.rank = 0)

/-- The creator goes from one phase of a wait or a sync to another. -/
theorem Discipline.creatorTo (discipline : Discipline creator state)
    (history : after.history.joins = state.history.joins)
    (created : after.history.created = state.history.created)
    (late : after.history.startedLate = state.history.startedLate)
    (monitor : after.monitor = state.monitor)
    (original : after.original = state.original)
    (phase : SameSection state.creator after.creator) : Discipline creator after := by
  obtain ⟨callers, create, joinedStarted, joins, starting, inJoin, checked, idle, settled⟩ :=
    discipline
  constructor <;> simp only [history, created, late, monitor, original]
  · exact callers
  · exact create
  · exact joinedStarted
  · rw [joins]
    rcases phase with ⟨low, high, lowAfter, highAfter⟩ | ⟨was, -⟩ | ⟨was, is⟩
    · rw [if_neg (by omega), if_neg (by omega)]
    · simp [starting was]
    · simp [was, is]
  · intro inStart
    rcases phase with ⟨-, -, low, -⟩ | ⟨was, -⟩ | ⟨-, is⟩
    · omega
    · exact starting was
    · omega
  · intro inside
    rcases phase with ⟨low, -⟩ | ⟨-, low⟩ | ⟨-, is⟩
    · exact inJoin low
    · omega
    · omega
  · exact checked
  · intro isFreed
    have wasIdle := idle isFreed
    rcases phase with ⟨low, -⟩ | ⟨was, -⟩ | ⟨was, -⟩
    · omega
    · omega
    · omega
  · exact settled

/-- Only the original's destruction goes on. -/
theorem Discipline.originalTo (discipline : Discipline creator state) (phase : OriginalPhase)
    (idle : phase = .freed → state.creator.rank = 0)
    (checked : 2 ≤ phase.rank → state.monitor .started = true →
      state.monitor .joined = true ∨ state.history.startedLate = true)
    (settled : phase = .freed → state.monitor .started = true → state.monitor .joined = true) :
    Discipline creator { state with original := phase } :=
  ⟨discipline.callers, discipline.created, discipline.joinedStarted, discipline.joins,
    discipline.starting, discipline.inJoin, checked, idle, settled⟩

theorem canCall_creator {throughOriginal : Bool}
    (allowed : state.canCall creator creator throughOriginal = true) :
    state.creator = .free ∧ (throughOriginal = true → state.original ≠ .freed) := by
  simp only [State.canCall, State.creatorCanCall, if_true, decide_eq_true_eq] at allowed
  exact ⟨allowed.1, fun through => (allowed.2 through).2⟩

theorem pthreadsStart_discipline (discipline : Discipline creator state) {caller : Nat}
    {throughOriginal : Bool} (allowed : state.canCall creator caller throughOriginal = true)
    (result : CreateResult) :
    Discipline creator (pthreadsStart creator state caller throughOriginal result).1 := by
  unfold pthreadsStart
  split
  · exact discipline
  · next isCreator =>
    obtain ⟨rfl, rfl⟩ : caller = creator ∧ throughOriginal = true := by simpa using isCreator
    split
    · exact discipline
    · next notStarted =>
      have isUnstarted : state.monitor .started = false := by simpa using notStarted
      have notJoined : state.monitor .joined = false := by
        by_contra isJoined
        rw [discipline.joinedStarted (by simpa using isJoined)] at isUnstarted
        cases isUnstarted
      cases result with
      | again =>
          refine discipline.congr rfl rfl rfl ?_ rfl (by simp) rfl
          simp [monitorAdd, monitorRemove, isUnstarted]
      | other =>
          refine discipline.congr rfl rfl rfl ?_ rfl (by simp) rfl
          simp [monitorAdd, monitorRemove, isUnstarted]
      | success =>
          obtain ⟨-, notFreed⟩ := canCall_creator allowed
          have created := discipline.created
          have joins := discipline.joins
          rw [isUnstarted] at created
          rw [notJoined] at joins
          constructor <;> simp [monitorAdd, CreatorPhase.rank, notJoined]
          · simpa using discipline.callers
          · simpa using created
          · simpa using joins
          · -- a start behind the check is a late one
            intro behind
            have originalPhase := notFreed rfl
            cases phase : state.original <;> simp_all [OriginalPhase.rank]
          · exact notFreed rfl
          · exact notFreed rfl

theorem pthreadsJoin_discipline (discipline : Discipline creator state) {caller : Nat}
    {throughOriginal : Bool} (allowed : state.canCall creator caller throughOriginal = true) :
    Discipline creator (pthreadsJoin creator state caller throughOriginal).1 := by
  unfold pthreadsJoin
  split
  · exact discipline
  · next isCreator =>
    obtain ⟨rfl, rfl⟩ : caller = creator ∧ throughOriginal = true := by simpa using isCreator
    split
    · exact discipline
    · next notJoined =>
      split
      · exact discipline
      · next started =>
        have isStarted : state.monitor .started = true := by simpa using started
        obtain ⟨-, notFreed⟩ := canCall_creator allowed
        have created := discipline.created
        have joins := discipline.joins
        rw [isStarted] at created
        rw [if_neg (by simp [notJoined])] at joins
        constructor <;> simp [monitorAdd, CreatorPhase.rank, isStarted]
        · simpa using discipline.callers
        · simpa using created
        · simpa using joins
        · exact notFreed rfl

theorem pthreadsJoin_withOriginal (phase : OriginalPhase) (caller : Nat) (throughOriginal : Bool) :
    (pthreadsJoin creator { state with original := phase } caller throughOriginal).1 =
      { (pthreadsJoin creator state caller throughOriginal).1 with original := phase } := by
  unfold pthreadsJoin
  simp only [apply_ite Prod.fst]
  split
  · rfl
  · split
    · rfl
    · split <;> rfl

/-- After the creator's own join a started thread is joined. -/
theorem pthreadsJoin_joined
    (isStarted : (pthreadsJoin creator state creator true).1.monitor .started = true) :
    (pthreadsJoin creator state creator true).1.monitor .joined = true := by
  unfold pthreadsJoin at isStarted ⊢
  rw [if_neg (by simp)] at isStarted ⊢
  split at isStarted
  · next isJoined => simp [isJoined]
  · next notJoined =>
    rw [if_neg notJoined]
    split at isStarted
    · next notStarted => exact absurd isStarted notStarted
    · next started =>
      rw [if_neg started]
      simp [monitorAdd]

theorem exit_discipline (discipline : Discipline creator state)
    (stepped : step creator state .exit = some after) : Discipline creator after := by
  obtain ⟨phase, ⟨⟩⟩ := Option.ite_none_right_eq_some.mp stepped
  have rank : state.creator.rank = 6 := by rw [phase]; rfl
  have isJoined := discipline.inJoin (by omega)
  have isStarted := discipline.joinedStarted isJoined
  have created := discipline.created
  have joins := discipline.joins
  have notFreed : state.original ≠ .freed := by
    intro isFreed
    have isIdle := discipline.idle isFreed
    omega
  rw [if_neg (by omega)] at joins
  constructor <;> simp [monitorAdd, CreatorPhase.rank, isJoined, isStarted, notFreed]
  · simpa using discipline.callers
  · simpa [isStarted] using created
  · simpa using joins

theorem creatorWaits_discipline (discipline : Discipline creator state)
    (stepped : step creator state .creatorWaits = some after) : Discipline creator after := by
  simp only [step] at stepped
  split at stepped
  · next wait phase =>
    obtain ⟨next, waited, rfl⟩ := Option.map_eq_some_iff.mp stepped
    rcases Wait.step_cases waited with ⟨-, rfl⟩ | ⟨later, rfl⟩ <;>
      exact discipline.creatorTo rfl rfl rfl rfl rfl
        (Or.inr (Or.inl (by simp [phase, CreatorPhase.rank])))
  · next wait phase =>
    obtain ⟨next, waited, rfl⟩ := Option.map_eq_some_iff.mp stepped
    rcases Wait.step_cases waited with ⟨-, rfl⟩ | ⟨later, rfl⟩ <;>
      exact discipline.creatorTo rfl rfl rfl rfl rfl
        (Or.inl (by simp [phase, CreatorPhase.rank]))
  · cases stepped

theorem creatorWakes_discipline (discipline : Discipline creator state)
    (stepped : step creator state .creatorWakes = some after) : Discipline creator after := by
  simp only [step] at stepped
  split at stepped
  · next phase =>
    cases stepped
    exact discipline.congr rfl rfl rfl rfl rfl (by rw [phase]; rfl) rfl
  · next phase =>
    cases stepped
    exact discipline.congr rfl rfl rfl rfl rfl (by rw [phase]; rfl) rfl
  · cases stepped

theorem userJoinReturns_discipline (discipline : Discipline creator state)
    (stepped : step creator state .userJoinReturns = some after) : Discipline creator after := by
  obtain ⟨⟨free, phase⟩, ⟨⟩⟩ := Option.ite_none_right_eq_some.mp stepped
  split
  · next isJoined => exact discipline.originalTo _ (by simp) (fun _ _ => Or.inl isJoined) (by simp)
  · have allowed : state.canCall creator creator true = true := by
      simp [State.canCall, State.creatorCanCall, free, phase]
    have joined := pthreadsJoin_discipline discipline allowed
    rw [pthreadsJoin_withOriginal]
    exact joined.originalTo _ (by simp) (fun _ isStarted => Or.inl (pthreadsJoin_joined isStarted))
      (by simp)

/-- Every step keeps the discipline. -/
theorem step_discipline {action : Action} (discipline : Discipline creator state)
    (joinsLate : JoinsLateStart state action)
    (stepped : step creator state action = some after) : Discipline creator after := by
  cases action with
  | start caller throughOriginal result =>
      obtain ⟨allowed, ⟨⟩⟩ := Option.ite_none_right_eq_some.mp stepped
      exact pthreadsStart_discipline discipline allowed result
  | join caller throughOriginal =>
      obtain ⟨allowed, ⟨⟩⟩ := Option.ite_none_right_eq_some.mp stepped
      exact pthreadsJoin_discipline discipline allowed
  | creatorWaits => exact creatorWaits_discipline discipline stepped
  | creatorWakes => exact creatorWakes_discipline discipline stepped
  | syncThread | syncTasks | syncDone =>
      obtain ⟨phase, ⟨⟩⟩ := Option.ite_none_right_eq_some.mp stepped
      exact discipline.creatorTo rfl rfl rfl rfl rfl
        (Or.inl (by simp [phase, State.record, CreatorPhase.rank]))
  | exit => exact exit_discipline discipline stepped
  | joinReturns =>
      obtain ⟨⟨phase, -⟩, ⟨⟩⟩ := Option.ite_none_right_eq_some.mp stepped
      exact discipline.creatorTo rfl rfl rfl rfl rfl
        (Or.inr (Or.inr (by simp [phase, CreatorPhase.rank])))
  | destructor =>
      obtain ⟨⟨free, phase⟩, ⟨⟩⟩ := Option.ite_none_right_eq_some.mp stepped
      apply discipline.originalTo _ (fun _ => by rw [free]; rfl)
      · split
        · simp [OriginalPhase.rank]
        · next joinedOrUnstarted =>
          intro _ isStarted
          exact Or.inl (by simpa [isStarted] using joinedOrUnstarted)
      · split <;> simp
  | userJoinReturns => exact userJoinReturns_discipline discipline stepped
  | destructReturns =>
      obtain ⟨⟨free, phase⟩, ⟨⟩⟩ := Option.ite_none_right_eq_some.mp stepped
      refine discipline.originalTo _ (by simp) ?_ (by simp)
      intro _
      exact discipline.checked (by simp [phase, OriginalPhase.rank])
  | free =>
      obtain ⟨⟨free, phase⟩, ⟨⟩⟩ := Option.ite_none_right_eq_some.mp stepped
      have checked := discipline.checked (by simp [phase, OriginalPhase.rank])
      apply discipline.originalTo _ (fun _ => by rw [free]; rfl) (fun _ => checked)
      intro _ isStarted
      rcases checked isStarted with isJoined | isLate
      · exact isJoined
      · exact joinsLate rfl isLate
  | childReady =>
      obtain ⟨-, ⟨⟩⟩ := Option.ite_none_right_eq_some.mp stepped
      refine discipline.congr rfl rfl rfl rfl rfl ?_ rfl
      show state.creator.notifyReady.rank = state.creator.rank
      cases state.creator <;> rfl
  | childUserCode | childLeaves | childDestructor | childShutsDown | childExits =>
      obtain ⟨-, ⟨⟩⟩ := Option.ite_none_right_eq_some.mp stepped
      exact discipline.congr rfl rfl rfl rfl rfl rfl rfl
  | childSetsFlag flag on =>
      obtain ⟨⟨-, isRunningFlag⟩, ⟨⟩⟩ := Option.ite_none_right_eq_some.mp stepped
      cases flag <;> cases on <;> first
        | exact discipline.congr rfl rfl rfl rfl rfl (by simp) rfl
        | cases isRunningFlag
  | childAwaitsJoin =>
      obtain ⟨-, ⟨⟩⟩ := Option.ite_none_right_eq_some.mp stepped
      exact discipline.congr rfl rfl rfl rfl rfl (by simp) rfl
  | childWaits =>
      simp only [step] at stepped
      split at stepped
      · obtain ⟨next, waited, rfl⟩ := Option.map_eq_some_iff.mp stepped
        split <;> exact discipline.congr rfl rfl rfl rfl rfl rfl rfl
      · cases stepped
  | childWakes =>
      simp only [step] at stepped
      split at stepped
      · cases stepped
        exact discipline.congr rfl rfl rfl rfl rfl rfl rfl
      · cases stepped

theorem discipline_of_reaches (reached : Reaches (step creator) JoinsLateStart initial state) :
    Discipline creator state :=
  reached.preserves (fun _ _ _ discipline joinsLate stepped =>
    step_discipline discipline joinsLate stepped) (discipline_initial creator)

end Steps

theorem monitorRemove_monitorAdd {monitor : WorkerTasks.MonitorState} {flag : MonitorFlag}
    (unset : monitor flag = false) : monitorRemove (monitorAdd monitor flag) flag = monitor := by
  funext other
  by_cases same : other = flag
  · simp [monitorRemove, monitorAdd, same, unset]
  · simp [monitorRemove, monitorAdd, same]

/-- A start that is refused changes no flag. -/
theorem pthreadsStart_refused {creator caller : Nat} {state : State} {throughOriginal : Bool}
    {result : CreateResult} {refusal : Refusal}
    (refused : (pthreadsStart creator state caller throughOriginal result).2 = some refusal) :
    (pthreadsStart creator state caller throughOriginal result).1.monitor = state.monitor := by
  unfold pthreadsStart at refused ⊢
  split at refused
  · next notCreator => rw [if_pos notCreator]
  · next isCreator =>
    rw [if_neg isCreator]
    split at refused
    · next started => rw [if_pos started]
    · next notStarted =>
      rw [if_neg notStarted]
      have isUnstarted : state.monitor .started = false := by simpa using notStarted
      cases result with
      | success => cases refused
      | again => exact monitorRemove_monitorAdd isUnstarted
      | other => exact monitorRemove_monitorAdd isUnstarted

/-- The creator can start a thread that is not started. -/
theorem pthreadsStart_succeeds {creator : Nat} {state : State}
    (isUnstarted : state.monitor .started = false) :
    (pthreadsStart creator state creator true .success).2 = none := by
  simp [pthreadsStart, isUnstarted]

theorem Discipline.joins_le {creator : Nat} {state : State}
    (discipline : Discipline creator state) :
    state.history.joins.length ≤ state.history.created := by
  rw [discipline.joins, discipline.created]
  split
  · next joined => exact Nat.le_of_eq (if_pos (discipline.joinedStarted joined.1)).symm
  · exact Nat.zero_le _

theorem Discipline.joins_eq_of_freed {creator : Nat} {state : State}
    (discipline : Discipline creator state) (isFreed : state.original = .freed) :
    state.history.joins.length = state.history.created := by
  rw [discipline.joins, discipline.created]
  cases started : state.monitor .started with
  | true => simp [discipline.settled isFreed started, discipline.idle isFreed]
  | false =>
      have notJoined : state.monitor .joined ≠ true := by
        intro isJoined
        have isStarted := discipline.joinedStarted isJoined
        rw [started] at isStarted
        cases isStarted
      simp [notJoined]

/-- In every run in which what is started in `__destruct` or later is joined before
the original is freed, `pthread_join` is called by the creator through the
original, at most once for the one thread that can be created, and once by the
time the original is freed; a start that fails leaves the flags as they were and
can be repeated. -/
theorem joined_once {creator : Nat} {state : State}
    (reached : Reaches (step creator) JoinsLateStart initial state) :
    (∀ call ∈ state.history.joins, call = (creator, true)) ∧
      state.history.joins.length ≤ state.history.created ∧
      state.history.created ≤ 1 ∧
      (state.original = .freed → state.history.joins.length = state.history.created) ∧
      ∀ caller throughOriginal result refusal,
        (pthreadsStart creator state caller throughOriginal result).2 = some refusal →
          let failed := (pthreadsStart creator state caller throughOriginal result).1
          failed.monitor = state.monitor ∧
            (state.monitor .started = false →
              (pthreadsStart creator failed creator true .success).2 = none) := by
  have discipline := discipline_of_reaches reached
  refine ⟨discipline.callers, discipline.joins_le, ?_, discipline.joins_eq_of_freed, ?_⟩
  · rw [discipline.created]
    split <;> simp
  · intro caller throughOriginal result refusal refused
    have unchanged := pthreadsStart_refused refused
    refine ⟨unchanged, fun isUnstarted => pthreadsStart_succeeds ?_⟩
    rw [unchanged]
    exact isUnstarted

/-- The run of `startAndJoin` to the end of the original. -/
def startToFree : List Action :=
  startAndJoin ++
    [.childShutsDown, .childExits, .joinReturns, .destructor, .destructReturns, .free]

instance JoinsLateStart.decidable (state : State) (action : Action) :
    Decidable (JoinsLateStart state action) :=
  inferInstanceAs (Decidable (_ → _ → _))

theorem joined_once_startToFree :
    ∃ state, execute (step 1) initial startToFree = some state ∧
      Admits (step 1) JoinsLateStart initial startToFree ∧
      state.original = .freed ∧ state.history.created = 1 ∧
      state.history.joins.length = state.history.created := by
  have admitted : Admits (step 1) JoinsLateStart initial startToFree := by decide
  refine ⟨_, rfl, admitted, rfl, rfl, ?_⟩
  have reached := reaches_of_execute admitted rfl
  exact (joined_once reached).2.2.2.1 rfl

/-- The user's `__destruct` starts the thread and does not join it. -/
def startInDestruct : List Action :=
  [.destructor, .start 1 true .success, .childReady, .creatorWaits, .destructReturns, .free]

/-- The thread that is started in `__destruct` is not joined. -/
theorem startInDestruct_not_joined :
    ¬ ∀ state, Reaches (step 1) anyAction initial state →
      state.original = .freed → state.history.joins.length = state.history.created := by
  intro claim
  have reached := reaches_of_execute (admits_anyAction (step 1) initial startInDestruct) rfl
  have joined := claim _ reached rfl
  cases joined

end Pthreads.ThreadLifecycle
