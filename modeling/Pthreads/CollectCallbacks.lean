import Pthreads.WorkerGuarantees

/-!
# Collectors that use their worker

`pthreads_worker_collect_tasks` calls user code while it walks the garbage list,
and the monitor it holds is recursive: a collector may stack, unstack and
collect on the same worker, and so may the destructor of a task that the loop
removes and those of objects that the full sync before each call of the collector
drops from local tables.  The worker's thread cannot touch the two queues meanwhile.

Addresses of freed items are not handed out again here, so that an item keeps
its identity.  Reading a freed item then has no result.
-/

namespace Pthreads.WorkerTasks

open LinkedCells TaskQueue GuardedRuns

/-- What `zend_call_function` leaves behind; a collector that throws leaves no
value. -/
inductive CallResult where
  | failure
  | undefined
  | value (truth : Bool)
deriving DecidableEq, Repr

/-- `pthreads_worker_collect_function`, from the return of the collector on. -/
def workerCollectFunction : CallResult → Bool
  | .failure => false
  | .undefined => false
  | .value truth => truth

mutual

/-- What user code does to the worker, in order. -/
inductive Script where
  | done
  | stack (object : Nat) (rest : Script)
  | unstack (rest : Script)
  | collect (calls : Calls) (rest : Script)

/-- The calls a collector receives: what the destructors of evicted objects do in
`pthreads_store_full_sync_local_properties` before each of them, what the collector
does and returns, and what the destructor of the task does if the task is destroyed.
After the last of them the collector refuses every task, and nothing else runs. -/
inductive Calls where
  | refuse
  | call (evictions during : Script) (result : CallResult) (destructor : Script) (rest : Calls)

end

/-- One task that a collector was called on, and what the loop removed then. -/
structure Offer where
  item : Nat × Task
  accepted : Bool
  removed : Option (Nat × Task)
deriving DecidableEq, Repr

/-- The worker while user code runs.  The last two fields are never read: they
record the removed items and the calls of `collect` that have returned. -/
structure Session where
  state : State
  /-- The allocator has handed out no address from here on. -/
  allocated : Nat
  removed : List (Nat × Task)
  finished : List (List Offer)

/-- The session of user code that starts in `state`. -/
def Session.start (state : State) (allocated : Nat) : Session := ⟨state, allocated, [], []⟩

/-- `Worker::stack` with a new item. -/
def stackTask (session : Session) (object : Nat) : Option Session := do
  let state ← step session.state (.stack session.allocated object)
  some { session with state := state, allocated := session.allocated + 1 }

/-- `Worker::unstack`. -/
def unstackTask (session : Session) : Option Session := do
  let state ← step session.state .unstack
  some { session with state := state }

/-- The `pthreads_queue_shift` of the loop, with the item it removes. -/
def shiftGarbage (session : Session) : Option (Session × Option (Nat × Task)) := do
  let removal ← queueShift session.state.memory session.state.data.gc false .free
  let removed := session.state.data.gc.head.bind fun head =>
    removal.destroyed.map fun task => (head, task)
  some ({ session with
    state := { session.state with
      memory := removal.memory
      data := { session.state.data with gc := removal.queue }
      history := { session.state.history with
        collected := session.state.history.collected ++ removal.destroyed.toList } }
    removed := session.removed ++ removed.toList }, removed)

/-- `pthreads_worker_collect_tasks` after its loop. -/
def finishCollect (session : Session) (offers : List Offer) : Session :=
  let state := session.state
  let collected := (offers.filter Offer.accepted).length
  let size := state.data.queue.size + state.data.gc.size +
    (if state.data.running.isSome then 1 else 0)
  { session with
    state := { state with
      data := { state.data with tasksCollected := state.data.tasksCollected + collected }
      monitor := if 0 < collected then monitorAdd state.monitor .collectGarbage
        else state.monitor
      worker := if 0 < collected then notify state.worker else state.worker
      history := { state.history with collectReturned := some size } }
    finished := session.finished ++ [offers] }

mutual

/-- User code runs. -/
def runScript : Script → Session → Option Session
  | .done, session => some session
  | .stack object rest, session => (stackTask session object).bind (runScript rest)
  | .unstack rest, session => (unstackTask session).bind (runScript rest)
  | .collect calls rest, session =>
      ((collectWalk calls session session.state.data.gc.head).map fun walked =>
        finishCollect walked.1 walked.2).bind (runScript rest)

/-- The loop of `pthreads_worker_collect_tasks`, from `item` on, with the calls
its collector received. -/
def collectWalk : Calls → Session → Option Nat → Option (Session × List Offer)
  | _, session, none => some (session, [])
  | .refuse, session, some item =>
      (session.state.memory item).map fun cell => (session, [⟨(item, cell.value), false, none⟩])
  | .call evictions during result destructor rest, session, some item =>
      -- the full sync takes the object from the item
      (session.state.memory item).bind fun _ =>
        (runScript evictions session).bind fun session =>
          (session.state.memory item).bind fun cell =>
            (runScript during session).bind fun session =>
              if workerCollectFunction result then
                -- `item = item->next` reads the offered item once more
                (session.state.memory item).bind fun offered =>
                  (shiftGarbage session).bind fun shifted =>
                    (runScript destructor shifted.1).bind fun session =>
                      (collectWalk rest session offered.next).map fun walked =>
                        (walked.1, ⟨(item, cell.value), true, shifted.2⟩ :: walked.2)
              else
                some (session, [⟨(item, cell.value), false, none⟩])

end

/-- `pthreads_worker_collect_tasks` with a collector that receives these calls. -/
def collectTasks (calls : Calls) (session : Session) : Option Session :=
  (collectWalk calls session session.state.data.gc.head).map fun walked =>
    finishCollect walked.1 walked.2

/-- A call of `collect` removed a task exactly when its collector was called on
that task and accepted it, and stopped at the first refusal. -/
structure Disciplined (offers : List Offer) : Prop where
  removed : ∀ offer ∈ offers,
    offer.removed = if offer.accepted then some offer.item else none
  stops : ∀ offer ∈ offers.dropLast, offer.accepted = true

/-- The call returns without touching a freed item.  It and the calls inside it
are disciplined; what they removed is the front of the garbage list, in order,
and was accepted by the collector that it was removed for. -/
def CollectRespects (calls : Calls) (session : Session) : Prop :=
  ∃ after items taken left returned, collectTasks calls session = some after ∧
    Represents session.state.memory session.state.data.gc items ∧
    Represents after.state.memory after.state.data.gc left ∧
    items = taken ++ left ∧
    after.removed = session.removed ++ taken ∧
    after.finished = session.finished ++ returned ∧
    (∀ offers ∈ returned, Disciplined offers) ∧
    ∀ item ∈ taken, ∃ offers ∈ returned, ⟨item, true, some item⟩ ∈ offers

mutual

/-- How many tasks user code takes out of a garbage list of `count` tasks, if no
`collect` in it is spoiled. -/
def Script.removes : Script → Nat → Nat
  | .done, _ => 0
  | .stack _ rest, count => rest.removes count
  | .unstack rest, count => rest.removes count
  | .collect calls rest, count => calls.removes count + rest.removes (count - calls.removes count)

/-- How many tasks a collector with these calls takes out. -/
def Calls.removes : Calls → Nat → Nat
  | _, 0 => 0
  | .refuse, _ + 1 => 0
  | .call _ during result destructor rest, count + 1 =>
      if workerCollectFunction result then
        1 + destructor.removes count + rest.removes (count - destructor.removes count)
      else
        during.removes (count + 1)

end

mutual

/-- Every `collect` in the user code is unspoiled. -/
def Script.Unspoiled : Script → Nat → Prop
  | .done, _ => True
  | .stack _ rest, count => rest.Unspoiled count
  | .unstack rest, count => rest.Unspoiled count
  | .collect calls rest, count =>
      calls.Unspoiled count ∧ rest.Unspoiled (count - calls.removes count)

/-- On a garbage list of `count` tasks, no task is removed while a task is synced or
during a call that accepts, nor by the destructor of a task that is removed. -/
def Calls.Unspoiled : Calls → Nat → Prop
  | _, 0 => True
  | .refuse, _ + 1 => True
  | .call evictions during result destructor rest, count + 1 =>
      evictions.Unspoiled (count + 1) ∧ evictions.removes (count + 1) = 0 ∧
        during.Unspoiled (count + 1) ∧
        (workerCollectFunction result = true →
          during.removes (count + 1) = 0 ∧ destructor.Unspoiled count ∧
            destructor.removes count = 0 ∧ rest.Unspoiled count)

end

section Outcomes

variable {First Second : Type} {firstHolds secondHolds : Prop}

/-- A computation has a good result if a condition holds, and none otherwise. -/
def Ends (holds : Prop) (run : Option First) (good : First → Prop) : Prop :=
  holds ∧ (∃ result, run = some result ∧ good result) ∨ ¬ holds ∧ run = none

theorem ends_some {result : First} {good : First → Prop} (isGood : good result) :
    Ends True (some result) good :=
  Or.inl ⟨trivial, result, rfl, isGood⟩

theorem ends_of_cases {run : Option First} {good : First → Prop}
    (present : firstHolds → ∃ result, run = some result ∧ good result)
    (missing : ¬ firstHolds → run = none) : Ends firstHolds run good := by
  by_cases holds : firstHolds
  · exact Or.inl ⟨holds, present holds⟩
  · exact Or.inr ⟨holds, missing holds⟩

theorem Ends.congr {run : Option First} {good better : First → Prop}
    (ends : Ends firstHolds run good) (same : secondHolds ↔ firstHolds)
    (implied : ∀ result, good result → better result) : Ends secondHolds run better := by
  rcases ends with ⟨holds, result, ran, isGood⟩ | ⟨fails, ran⟩
  · exact Or.inl ⟨same.mpr holds, result, ran, implied result isGood⟩
  · exact Or.inr ⟨fun holds => fails (same.mp holds), ran⟩

/-- A sequence needs both conditions. -/
theorem Ends.bind {run : Option First} {good : First → Prop} {next : First → Option Second}
    {final : Second → Prop} (ends : Ends firstHolds run good)
    (continues : ∀ result, good result → Ends secondHolds (next result) final) :
    Ends (firstHolds ∧ secondHolds) (run.bind next) final := by
  rcases ends with ⟨holds, result, ran, isGood⟩ | ⟨fails, ran⟩
  · rw [ran, Option.bind_some]
    exact (continues result isGood).imp (fun later => ⟨⟨holds, later.1⟩, later.2⟩)
      fun later => ⟨fun both => later.1 both.2, later.2⟩
  · rw [ran, Option.bind_none]
    exact Or.inr ⟨fun both => fails both.1, rfl⟩

theorem Ends.map {run : Option First} {good : First → Prop} {change : First → Second}
    {final : Second → Prop} (ends : Ends firstHolds run good)
    (implied : ∀ result, good result → final (change result)) :
    Ends firstHolds (run.map change) final := by
  rcases ends with ⟨holds, result, ran, isGood⟩ | ⟨fails, ran⟩
  · exact Or.inl ⟨holds, change result, by rw [ran, Option.map_some], implied result isGood⟩
  · exact Or.inr ⟨fails, by rw [ran, Option.map_none]⟩

end Outcomes

/-- The garbage list holds these items, the queue holds others, and no item
lies where the allocator has not been yet. -/
structure Session.Holds (session : Session) (items : List (Nat × Task)) : Prop where
  gc : Represents session.state.memory session.state.data.gc items
  queue : ∃ waiting, Represents session.state.memory session.state.data.queue waiting ∧
    ∀ address ∈ addresses waiting, address ∉ addresses items
  fresh : ∀ address, session.allocated ≤ address → session.state.memory address = none
  free : session.state.creator = .free

/-- Between two points of a session these items were removed from the front of
the garbage list and those are left; `pending` are the offers of a loop that has
not returned. -/
structure Session.Keeps (before after : Session) (taken left : List (Nat × Task))
    (pending : List Offer) : Prop where
  holds : after.Holds left
  removed : after.removed = before.removed ++ taken
  freed : ∀ address ∈ addresses taken,
    address < after.allocated ∧ after.state.memory address = none
  buried : ∀ address < before.allocated,
    before.state.memory address = none → after.state.memory address = none
  grown : before.allocated ≤ after.allocated
  finished : ∃ returned, after.finished = before.finished ++ returned ∧
    (∀ offers ∈ returned, Disciplined offers) ∧
    ∀ item ∈ taken, ⟨item, true, some item⟩ ∈ returned.flatten ++ pending

theorem Session.Keeps.refl {session : Session} {items : List (Nat × Task)}
    (holds : session.Holds items) (pending : List Offer) : session.Keeps session [] items pending :=
  ⟨holds, (List.append_nil _).symm, nofun, fun _ _ gone => gone, le_refl _, [],
    (List.append_nil _).symm, nofun, nofun⟩

theorem Session.Keeps.offer {before after : Session} {taken left : List (Nat × Task)}
    (keeps : before.Keeps after taken left []) (pending : List Offer) :
    before.Keeps after taken left pending := by
  obtain ⟨returned, isReturned, disciplined, accounted⟩ := keeps.finished
  refine ⟨keeps.holds, keeps.removed, keeps.freed, keeps.buried, keeps.grown, returned,
    isReturned, disciplined, ?_⟩
  intro item member
  apply List.mem_append_left
  simpa using accounted item member

theorem Session.Keeps.trans {before middle after : Session} {first second rest left}
    {early late : List Offer} (earlier : before.Keeps middle first rest early)
    (later : middle.Keeps after second left late) :
    before.Keeps after (first ++ second) left (early ++ late) := by
  obtain ⟨front, isFront, frontDisciplined, frontAccounted⟩ := earlier.finished
  obtain ⟨back, isBack, backDisciplined, backAccounted⟩ := later.finished
  refine ⟨later.holds, ?_, ?_, ?_, earlier.grown.trans later.grown, front ++ back, ?_, ?_, ?_⟩
  · rw [later.removed, earlier.removed, List.append_assoc]
  · intro address member
    simp only [List.map_append, List.mem_append] at member
    rcases member with inFirst | inSecond
    · obtain ⟨old, gone⟩ := earlier.freed address inFirst
      exact ⟨old.trans_le later.grown, later.buried address old gone⟩
    · exact later.freed address inSecond
  · intro address old gone
    exact later.buried address (old.trans_le earlier.grown) (earlier.buried address old gone)
  · rw [isBack, isFront, List.append_assoc]
  · intro offers member
    exact (List.mem_append.mp member).elim (frontDisciplined offers) (backDisciplined offers)
  · intro item member
    simp only [List.flatten_append, List.mem_append]
    rcases List.mem_append.mp member with inFirst | inSecond
    · exact (List.mem_append.mp (frontAccounted item inFirst)).imp Or.inl Or.inl
    · exact (List.mem_append.mp (backAccounted item inSecond)).imp Or.inr Or.inr

/-- A freed address belongs to no queue. -/
theorem notMem_of_freed {memory : Memory Task} {queue : Queue} {items : List (Nat × Task)}
    (represented : Represents memory queue items) {address : Nat}
    (gone : memory address = none) : address ∉ addresses items := by
  intro member
  have present := represented.chain.allocated member
  rw [gone] at present
  exact absurd present (by simp)

/-- The items of the garbage list lie below what the allocator has handed out. -/
theorem Session.Holds.old {session : Session} {items : List (Nat × Task)}
    (holds : session.Holds items) {address : Nat} (member : address ∈ addresses items) :
    address < session.allocated := by
  by_contra late
  exact notMem_of_freed holds.gc (holds.fresh address (by omega)) member

/-- The session after some action on the worker's own state. -/
theorem Session.Holds.keeps {session after : Session} {items left : List (Nat × Task)}
    (holds : session.Holds items) (holdsAfter : after.Holds left)
    {taken : List (Nat × Task)} (removed : after.removed = session.removed ++ taken)
    (grown : session.allocated ≤ after.allocated) (split : items = taken ++ left)
    (finished : after.finished = session.finished) {pending : List Offer}
    (accounted : ∀ item ∈ taken, ⟨item, true, some item⟩ ∈ pending)
    (freed : ∀ address ∈ addresses taken, after.state.memory address = none)
    (buried : ∀ address < session.allocated,
      session.state.memory address = none → after.state.memory address = none) :
    session.Keeps after taken left pending := by
  refine ⟨holdsAfter, removed, ?_, buried, grown, [], ?_, nofun, accounted⟩
  · intro address member
    have old : address < session.allocated := by
      apply holds.old
      simp only [split, List.map_append, List.mem_append]
      exact Or.inl member
    exact ⟨old.trans_le grown, freed address member⟩
  · rw [finished, List.append_nil]

/-- An action that leaves the garbage list alone. -/
theorem Session.Holds.keepsAll {session after : Session} {items : List (Nat × Task)}
    (holds : session.Holds items) (holdsAfter : after.Holds items)
    (removed : after.removed = session.removed) (grown : session.allocated ≤ after.allocated)
    (finished : after.finished = session.finished)
    (buried : ∀ address < session.allocated,
      session.state.memory address = none → after.state.memory address = none) :
    session.Keeps after [] items [] :=
  holds.keeps holdsAfter (removed.trans (List.append_nil _).symm) grown rfl finished nofun nofun
    buried

theorem Session.Holds.creatorFree {session : Session} {items : List (Nat × Task)}
    (holds : session.Holds items) : session.state.creatorFree = true :=
  decide_eq_true holds.free

/-- Stacking leaves the garbage list alone. -/
theorem stackTask_keeps {session : Session} {items : List (Nat × Task)}
    (holds : session.Holds items) (object : Nat) :
    ∃ after, stackTask session object = some after ∧ session.Keeps after [] items [] := by
  obtain ⟨waiting, queue, apart⟩ := holds.queue
  have fresh := holds.fresh session.allocated (le_refl _)
  obtain ⟨memory, pushed, push, represents, -, frame⟩ :=
    queuePushNew_represents queue fresh ⟨object, session.state.history.stacked⟩
  have outside := notMem_of_freed holds.gc fresh
  have buried : ∀ address, address ≠ session.allocated →
      session.state.memory address = none → memory address = none := by
    intro address notNew gone
    rw [frame address (notMem_of_freed queue gone) notNew, gone]
  refine ⟨{ session with
    allocated := session.allocated + 1
    state := { session.state with
      memory := memory
      data := { session.state.data with queue := pushed }
      worker := if session.state.data.queue.size = 0 then notify session.state.worker
        else session.state.worker
      history := { session.state.history with stacked := session.state.history.stacked + 1 } } },
    ?_, ?_⟩
  · simp only [stackTask, step, holds.creatorFree, if_true, workerAddTask, push,
      Option.bind_eq_bind, Option.bind_some]
  · apply holds.keepsAll
    · refine ⟨holds.gc.congr ?_, ⟨_, represents, ?_⟩, ?_, holds.free⟩
      · intro address member
        apply frame address (fun inQueue => apart address inQueue member)
        rintro rfl
        exact outside member
      · intro address member
        simp only [List.map_append, List.mem_append] at member
        rcases member with inQueue | isNew
        · exact apart address inQueue
        · cases List.mem_singleton.mp isNew
          exact outside
      · intro address late
        have late : session.allocated + 1 ≤ address := late
        exact buried address (by omega) (holds.fresh address (by omega))
    · rfl
    · exact Nat.le_succ _
    · rfl
    · exact fun address old => buried address (by omega)

/-- Unstacking leaves the garbage list alone. -/
theorem unstackTask_keeps {session : Session} {items : List (Nat × Task)}
    (holds : session.Holds items) :
    ∃ after, unstackTask session = some after ∧ session.Keeps after [] items [] := by
  obtain ⟨waiting, queue, apart⟩ := holds.queue
  cases waiting with
  | nil =>
      refine ⟨session, ?_, Session.Keeps.refl holds []⟩
      simp only [unstackTask, step, holds.creatorFree, if_true, workerDequeueTask,
        queueShift_empty queue, Option.bind_eq_bind, Option.bind_some, Option.toList_none,
        List.append_nil]
  | cons item waiting =>
      obtain ⟨removal, shifted, takes⟩ := queueShift_takes queue true .free
      have frame : ∀ address ∉ addresses (item :: waiting),
          removal.memory address = session.state.memory address := fun _ => takes.frame_cons
      refine ⟨{ session with
        state := { session.state with
          memory := removal.memory
          data := { session.state.data with queue := removal.queue }
          history := { session.state.history with
            unstacked := session.state.history.unstacked ++ removal.handed.toList } } }, ?_, ?_⟩
      · simp only [unstackTask, step, holds.creatorFree, if_true, workerDequeueTask, shifted,
          Option.bind_eq_bind, Option.bind_some]
      · have buried : ∀ address, session.state.memory address = none →
            removal.memory address = none := by
          intro address gone
          rw [frame address (notMem_of_freed queue gone), gone]
        apply holds.keepsAll
        · refine ⟨holds.gc.congr ?_, ⟨waiting, takes.represents, ?_⟩, ?_, holds.free⟩
          · exact fun address member =>
              frame address fun inQueue => apart address inQueue member
          · exact fun address member => apart address (List.mem_cons_of_mem _ member)
          · exact fun address late => buried address (holds.fresh address late)
        · rfl
        · exact le_refl _
        · rfl
        · exact fun address _ => buried address

/-- The loop's shift removes the first item of the garbage list. -/
theorem shiftGarbage_keeps {session : Session} {item : Nat × Task} {items : List (Nat × Task)}
    (holds : session.Holds (item :: items)) :
    ∃ after, shiftGarbage session = some (after, some item) ∧
      session.Keeps after [item] items [⟨item, true, some item⟩] := by
  obtain ⟨waiting, queue, apart⟩ := holds.queue
  obtain ⟨removal, shifted, takes⟩ := queueShift_takes holds.gc false .free
  have head : session.state.data.gc.head = some item.1 := holds.gc.head
  have frame : ∀ address ∉ addresses (item :: items),
      removal.memory address = session.state.memory address := fun _ => takes.frame_cons
  have buried : ∀ address, session.state.memory address = none →
      removal.memory address = none := by
    intro address gone
    rw [frame address (notMem_of_freed holds.gc gone), gone]
  refine ⟨{ session with
    state := { session.state with
      memory := removal.memory
      data := { session.state.data with gc := removal.queue }
      history := { session.state.history with
        collected := session.state.history.collected ++ [item.2] } }
    removed := session.removed ++ [item] }, ?_, ?_⟩
  · simp [shiftGarbage, shifted, head, takes.destroyed]
  · apply holds.keeps
    · refine ⟨takes.represents, ⟨waiting, queue.congr ?_, ?_⟩, ?_, holds.free⟩
      · exact fun address member => frame address (apart address member)
      · exact fun address member inItems =>
          apart address member (List.mem_cons_of_mem _ inItems)
      · exact fun address late => buried address (holds.fresh address late)
    · rfl
    · exact le_refl _
    · rfl
    · rfl
    · intro removed member
      cases List.mem_singleton.mp member
      exact List.mem_singleton_self _
    · intro address member
      cases List.mem_singleton.mp member
      exact takes.freed rfl
    · exact fun address _ => buried address

/-- The end of a call records it. -/
theorem finishCollect_keeps {before session : Session} {taken left : List (Nat × Task)}
    {offers : List Offer} (keeps : before.Keeps session taken left offers)
    (disciplined : Disciplined offers) :
    before.Keeps (finishCollect session offers) taken left [] := by
  obtain ⟨returned, isReturned, earlier, accounted⟩ := keeps.finished
  refine ⟨⟨keeps.holds.gc, keeps.holds.queue, keeps.holds.fresh, keeps.holds.free⟩,
    keeps.removed, keeps.freed, keeps.buried, keeps.grown, returned ++ [offers], ?_, ?_, ?_⟩
  · change session.finished ++ [offers] = _
    rw [isReturned, List.append_assoc]
  · intro others member
    rcases List.mem_append.mp member with old | new
    · exact earlier others old
    · cases List.mem_singleton.mp new
      exact disciplined
  · simpa using accounted

theorem disciplined_refusal (item : Nat × Task) : Disciplined [⟨item, false, none⟩] := by
  constructor
  · intro offer member
    cases List.mem_singleton.mp member
    rfl
  · exact nofun

theorem disciplined_cons {item : Nat × Task} {offers : List Offer}
    (disciplined : Disciplined offers) :
    Disciplined (⟨item, true, some item⟩ :: offers) := by
  constructor
  · intro offer member
    rcases List.mem_cons.mp member with rfl | later
    · rfl
    · exact disciplined.removed offer later
  · intro offer member
    cases offers with
    | nil => exact nomatch member
    | cons next offers =>
        rw [List.dropLast_cons_cons] at member
        rcases List.mem_cons.mp member with rfl | later
        · rfl
        · exact disciplined.stops offer later

/-- The walk reads every item before it offers it. -/
theorem collectWalk_freed (calls : Calls) {session : Session} {item : Nat}
    (gone : session.state.memory item = none) : collectWalk calls session (some item) = none := by
  cases calls <;> simp [collectWalk, gone]

/-- Nothing can be removed from an empty garbage list. -/
theorem Script.removes_zero : ∀ script : Script, script.removes 0 = 0
  | .done => rfl
  | .stack _ rest => rest.removes_zero
  | .unstack rest => rest.removes_zero
  | .collect calls rest => by
      cases calls <;> simpa [Script.removes, Calls.removes] using rest.removes_zero

/-- What happens after some items are gone adds to them. -/
theorem Session.Keeps.extend {before middle after : Session} {items : List (Nat × Task)}
    {first second : Nat} (earlier : before.Keeps middle (items.take first) (items.drop first) [])
    (later : middle.Keeps after ((items.drop first).take second)
      ((items.drop first).drop second) []) :
    before.Keeps after (items.take (first + second)) (items.drop (first + second)) [] := by
  have both := earlier.trans later
  rwa [← List.take_add, List.drop_drop] at both

/-- The walk goes on behind a removed item unless the destructor of that item
has removed the next one. -/
theorem collectWalk_next (rest : Calls) {session : Session} {items : List (Nat × Task)}
    {count : Nat} {unspoiled : Prop} {good : Session × List Offer → Prop}
    (holds : session.Holds (items.drop count))
    (freed : ∀ address ∈ addresses (items.take count), session.state.memory address = none)
    (nonempty : items = [] → count = 0)
    (continues : count = 0 → Ends unspoiled (collectWalk rest session (firstAddress items)) good) :
    Ends (count = 0 ∧ unspoiled) (collectWalk rest session (firstAddress items))
      fun walked => count = 0 ∧ good walked := by
  by_cases untouched : count = 0
  · exact (continues untouched).congr (by simp [untouched]) fun _ isGood => ⟨untouched, isGood⟩
  · refine Or.inr ⟨fun both => untouched both.1, ?_⟩
    cases items with
    | nil => exact absurd (nonempty rfl) untouched
    | cons next items =>
        apply collectWalk_freed rest
        apply freed next.1
        obtain ⟨smaller, rfl⟩ := Nat.exists_eq_succ_of_ne_zero untouched
        simp

/-- The item at the head can be read as long as nothing was removed. -/
theorem readItem_ends {session middle : Session} {item : Nat × Task} {items : List (Nat × Task)}
    {meanwhile : Nat}
    (keeps : session.Keeps middle ((item :: items).take meanwhile)
      ((item :: items).drop meanwhile) []) :
    Ends (meanwhile = 0) (middle.state.memory item.1) fun cell =>
      meanwhile = 0 ∧ cell.value = item.2 ∧ cell.next = firstAddress items := by
  apply ends_of_cases
  · rintro rfl
    exact ⟨_, keeps.holds.gc.chain.1, rfl, rfl, Option.or_none⟩
  · intro removed
    obtain ⟨smaller, rfl⟩ := Nat.exists_eq_succ_of_ne_zero removed
    exact (keeps.freed item.1 (by simp)).2

/-- A call that accepted: the offered item is read and removed, its destructor
runs, and the walk goes on behind it. -/
theorem acceptedCall_ends {session middle : Session} {item : Nat × Task}
    {items : List (Nat × Task)} {meanwhile : Nat} {destructor : Script} {rest : Calls}
    (keeps : session.Keeps middle ((item :: items).take meanwhile)
      ((item :: items).drop meanwhile) [])
    (destructorEnds : ∀ {session : Session}, session.Holds items →
      Ends (destructor.Unspoiled items.length) (runScript destructor session) fun after =>
        session.Keeps after (items.take (destructor.removes items.length))
          (items.drop (destructor.removes items.length)) [])
    (restEnds : ∀ {session : Session}, session.Holds items →
      Ends (rest.Unspoiled items.length) (collectWalk rest session (firstAddress items))
        fun walked => session.Keeps walked.1 (items.take (rest.removes items.length))
          (items.drop (rest.removes items.length)) walked.2 ∧ Disciplined walked.2) :
    Ends (meanwhile = 0 ∧ destructor.Unspoiled items.length ∧
        destructor.removes items.length = 0 ∧ rest.Unspoiled items.length)
      ((middle.state.memory item.1).bind fun offered =>
        (shiftGarbage middle).bind fun shifted =>
          (runScript destructor shifted.1).bind fun after =>
            (collectWalk rest after offered.next).map fun walked =>
              (walked.1, (⟨item, true, shifted.2⟩ : Offer) :: walked.2))
      fun walked =>
        session.Keeps walked.1
          ((item :: items).take (1 + destructor.removes items.length +
            rest.removes (items.length - destructor.removes items.length)))
          ((item :: items).drop (1 + destructor.removes items.length +
            rest.removes (items.length - destructor.removes items.length))) walked.2 ∧
          Disciplined walked.2 := by
  apply (readItem_ends keeps).bind
  rintro offered ⟨rfl, -, next⟩
  obtain ⟨shifted, shift, removal⟩ := shiftGarbage_keeps keeps.holds
  simp only [shift, Option.bind_some, next]
  apply (destructorEnds removal.holds).bind
  intro after destroyed
  have emptied : items = [] → destructor.removes items.length = 0 := by
    rintro rfl
    exact destructor.removes_zero
  have walk := collectWalk_next rest destroyed.holds
    (fun address member => (destroyed.freed address member).2) emptied
    (fun untouched => restEnds (by rw [untouched] at destroyed; exact destroyed.holds))
  apply walk.map
  rintro walked ⟨untouched, later, disciplined⟩
  refine ⟨?_, disciplined_cons disciplined⟩
  rw [untouched] at destroyed ⊢
  have whole := keeps.trans (removal.trans (destroyed.trans later))
  rw [Nat.add_zero, Nat.sub_zero, Nat.add_comm 1]
  exact whole

mutual

/-- User code touches no freed item exactly if it is unspoiled, and then removes
from the front of the garbage list. -/
theorem runScript_ends : ∀ (script : Script) {session : Session} {items : List (Nat × Task)},
    session.Holds items →
      Ends (script.Unspoiled items.length) (runScript script session) fun after =>
        session.Keeps after (items.take (script.removes items.length))
          (items.drop (script.removes items.length)) []
  | .done, _, _, holds => ends_some (Session.Keeps.refl holds [])
  | .stack object rest, session, items, holds => by
      obtain ⟨middle, stacked, keeps⟩ := stackTask_keeps holds object
      simp only [runScript, stacked, Option.bind_some]
      apply (runScript_ends rest keeps.holds).congr Iff.rfl
      exact fun _ later => keeps.trans later
  | .unstack rest, session, items, holds => by
      obtain ⟨middle, unstacked, keeps⟩ := unstackTask_keeps holds
      simp only [runScript, unstacked, Option.bind_some]
      apply (runScript_ends rest keeps.holds).congr Iff.rfl
      exact fun _ later => keeps.trans later
  | .collect calls rest, session, items, holds => by
      have head : session.state.data.gc.head = firstAddress items := holds.gc.head
      have left : (items.drop (calls.removes items.length)).length =
          items.length - calls.removes items.length := List.length_drop
      simp only [runScript, head]
      have finished : Ends (calls.Unspoiled items.length)
          ((collectWalk calls session (firstAddress items)).map fun walked =>
            finishCollect walked.1 walked.2) fun after =>
          session.Keeps after (items.take (calls.removes items.length))
            (items.drop (calls.removes items.length)) [] :=
        (collectWalk_ends calls holds).map fun _ good => finishCollect_keeps good.1 good.2
      apply finished.bind
      intro middle keeps
      apply (runScript_ends rest keeps.holds).congr (by rw [left])
      intro after later
      rw [left] at later
      exact keeps.extend later

/-- The loop touches no freed item exactly if its calls are unspoiled. -/
theorem collectWalk_ends : ∀ (calls : Calls) {session : Session} {items : List (Nat × Task)},
    session.Holds items →
      Ends (calls.Unspoiled items.length) (collectWalk calls session (firstAddress items))
        fun walked =>
          session.Keeps walked.1 (items.take (calls.removes items.length))
            (items.drop (calls.removes items.length)) walked.2 ∧ Disciplined walked.2
  | .refuse, session, [], holds => ends_some ⟨Session.Keeps.refl holds [], nofun, nofun⟩
  | .call _ _ _ _ _, session, [], holds => ends_some ⟨Session.Keeps.refl holds [], nofun, nofun⟩
  | .refuse, session, item :: items, holds => by
      simp only [collectWalk, firstAddress_cons, holds.gc.chain.1, Option.map_some]
      exact ends_some ⟨Session.Keeps.refl holds _, disciplined_refusal item⟩
  | .call evictions during result destructor rest, session, item :: items, holds => by
      simp only [collectWalk, firstAddress_cons, holds.gc.chain.1, Option.bind_some,
        List.length_cons, Calls.Unspoiled, Calls.removes]
      apply (runScript_ends evictions holds).bind
      intro synced evicted
      rw [List.length_cons] at evicted
      apply (readItem_ends evicted).bind
      rintro cell ⟨untouched, value, -⟩
      rw [untouched] at evicted
      simp only [value]
      apply (runScript_ends during evicted.holds).bind
      intro middle later
      have meanwhile := evicted.trans later
      cases accepted : workerCollectFunction result with
      | false =>
          simp only [Bool.false_eq_true, if_false, false_imp_iff]
          exact ends_some ⟨meanwhile.offer _, disciplined_refusal item⟩
      | true =>
          simp only [if_true, forall_const]
          exact acceptedCall_ends meanwhile (runScript_ends destructor) (collectWalk_ends rest)

end

theorem Session.Holds.start {state : State} (consistent : Consistent state)
    (free : state.creator = .free) {allocated : Nat}
    (fresh : ∀ address, allocated ≤ address → state.memory address = none) :
    ∃ items, (Session.start state allocated).Holds items := by
  obtain ⟨places, layout, -⟩ := consistent
  obtain ⟨queueApart, -, -⟩ := layout.disjoint
  exact ⟨places.gc, layout.gc, ⟨places.queue, layout.queue,
    fun address member => (queueApart address member).2.1⟩, fresh, free⟩

/-- A queue holds one list of items only. -/
theorem Session.Holds.size {session : Session} {items : List (Nat × Task)}
    (holds : session.Holds items) : session.state.data.gc.size.toNat = items.length := by
  rw [holds.gc.size, Int.toNat_natCast]

theorem collectTasks_ends (calls : Calls) {session : Session} {items : List (Nat × Task)}
    (holds : session.Holds items) :
    Ends (calls.Unspoiled items.length) (collectTasks calls session) fun after =>
      session.Keeps after (items.take (calls.removes items.length))
        (items.drop (calls.removes items.length)) [] := by
  have head : session.state.data.gc.head = firstAddress items := holds.gc.head
  rw [collectTasks, head]
  exact (collectWalk_ends calls holds).map fun _ good => finishCollect_keeps good.1 good.2

/-- A call of `collect` respects its collector exactly if no task is removed
during a call that accepts, nor by the destructor of a removed task, in it and
in every call inside it. -/
theorem collectRespects_iff {state : State} (reached : Reaches step anyAction initial state)
    (free : state.creator = .free) {allocated : Nat}
    (fresh : ∀ address, allocated ≤ address → state.memory address = none) (calls : Calls) :
    CollectRespects calls (Session.start state allocated) ↔
      calls.Unspoiled state.data.gc.size.toNat := by
  obtain ⟨items, holds⟩ := Session.Holds.start (consistent_of_reaches reached) free fresh
  have size : state.data.gc.size.toNat = items.length := holds.size
  rw [size]
  constructor
  · rintro ⟨after, -, -, -, -, collected, -⟩
    rcases collectTasks_ends calls holds with ⟨unspoiled, -⟩ | ⟨-, failed⟩
    · exact unspoiled
    · rw [failed] at collected
      exact absurd collected (by simp)
  · intro unspoiled
    rcases collectTasks_ends calls holds with ⟨-, after, collected, keeps⟩ | ⟨spoiled, -⟩
    · obtain ⟨returned, isReturned, disciplined, accounted⟩ := keeps.finished
      refine ⟨after, items, _, _, returned, collected, holds.gc, keeps.holds.gc,
        (List.take_append_drop _ _).symm, keeps.removed, isReturned, disciplined, ?_⟩
      intro item member
      simpa using accounted item member
    · exact absurd unspoiled spoiled

/-- A worker runs a task. -/
def runTask : List Action := [.start, .stack 1 70, .enterLoop, .nextTask, .addGarbage]

/-- A collector that accepts the task and does nothing else. -/
def acceptTask : Calls := .call .done .done (.value true) .done .refuse

/-- A worker runs two tasks. -/
def runTwoTasks : List Action :=
  [.start, .stack 1 70, .stack 2 71, .enterLoop, .nextTask, .addGarbage, .recordDone 3, .nextTask,
    .addGarbage]

/-- A collector that collects in vain before it accepts the first task, whose
destructor stacks another one, and that lets its own collector have the second. -/
def acceptOneTask : Calls :=
  .call (.stack 72 (.unstack .done)) (.collect .refuse .done) (.value true) (.stack 73 .done)
    (.call (.collect .refuse .done) (.collect acceptTask .done) (.value false) .done .refuse)

theorem collectRespects_runTwoTasks : ∃ state, execute step initial runTwoTasks = some state ∧
    CollectRespects acceptOneTask (Session.start state 4) := by
  have two : (execute step initial runTwoTasks).map (fun state => state.data.gc.size) =
      some 2 := rfl
  have free : (execute step initial runTwoTasks).map State.creator = some .free := rfl
  have fresh : ∀ further, (execute step initial runTwoTasks).map
      (fun state => state.memory (further + 4)) = some none := fun _ => rfl
  obtain ⟨state, ran, size⟩ := Option.map_eq_some_iff.mp two
  rw [ran] at free fresh
  refine ⟨state, ran, ?_⟩
  apply (collectRespects_iff (reaches_of_execute (admits_anyAction step initial runTwoTasks) ran)
    (Option.some.inj free) _ acceptOneTask).mpr
  · rw [size]
    refine ⟨trivial, rfl, ⟨trivial, trivial⟩, fun _ => ⟨rfl, trivial, rfl, ?_⟩⟩
    refine ⟨⟨trivial, trivial⟩, rfl, ⟨⟨trivial, rfl, trivial, fun _ => ?_⟩, trivial⟩, nofun⟩
    exact ⟨rfl, trivial, rfl, trivial⟩
  · intro address late
    obtain ⟨further, rfl⟩ := Nat.exists_eq_add_of_le' late
    exact Option.some.inj (fresh further)

/-- A collector that collects with another one before it accepts has its loop
read an item that is freed. -/
theorem nestedCollect_spoils : ∃ state, execute step initial runTask = some state ∧
    state.creator = .free ∧ (∀ address, 2 ≤ address → state.memory address = none) ∧
    ¬ CollectRespects (.call .done (.collect acceptTask .done) (.value true) .done .refuse)
      (Session.start state 2) := by
  refine ⟨_, rfl, rfl, ?_, ?_⟩
  · intro address late
    obtain ⟨further, rfl⟩ := Nat.exists_eq_add_of_le' late
    rfl
  · rintro ⟨after, -, -, -, -, collected, -⟩
    exact nomatch collected

end Pthreads.WorkerTasks
