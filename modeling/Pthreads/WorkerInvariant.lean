import Pthreads.WorkerTasks
import Mathlib.Data.List.Perm.Basic
import Mathlib.Data.List.Infix

/-!
# Where the tasks of a worker are

The items of the queue, the running task, the garbage list and the worker's
cache are disjoint cells of one memory.  The invariant fixes these four places
and relates them to the history: started tasks are exactly the collected, the
collectable and the running ones, and the worker's cache holds the tasks it
has finished since the creator's last collection was noticed.
-/

namespace Pthreads.WorkerTasks

open LinkedCells TaskQueue

/-- The loop of `collect` takes items off the front of the garbage list. -/
theorem collectLoop_takes (collect : Task → Bool) {memory : Memory Task} {gc : Queue}
    {items : List (Nat × Task)} (represented : Represents memory gc items)
    {fuel : Nat} (enough : items.length ≤ fuel) :
    ∃ changed rest taken left,
      collectLoop collect fuel memory gc gc.head = some (changed, rest, taken.map Prod.snd) ∧
      items = taken ++ left ∧ Represents changed rest left ∧
      ∀ other ∉ addresses items, changed other = memory other := by
  induction items generalizing memory gc fuel with
  | nil =>
      have head : gc.head = none := represented.head
      exact ⟨memory, gc, [], [], by simp [head, collectLoop], rfl, represented, fun _ _ => rfl⟩
  | cons item items ih =>
      obtain ⟨fuel, rfl⟩ : ∃ smaller, fuel = smaller + 1 :=
        ⟨fuel - 1, by simp only [List.length_cons] at enough; omega⟩
      have head : gc.head = some item.1 := represented.head
      have cell := represented.chain.1
      by_cases answer : collect item.2
      · obtain ⟨removal, shifted, takes⟩ := queueShift_takes represented false .free
        have nextHead : (firstAddress items).or none = removal.queue.head := by
          rw [takes.represents.head, Option.or_none]
        obtain ⟨changed, rest, taken, left, loop, split, after, frame⟩ :=
          ih takes.represents (by simpa using enough)
        refine ⟨changed, rest, item :: taken, left, ?_, by simp [split], after, ?_⟩
        · simp [head, collectLoop, cell, answer, shifted, nextHead, loop, takes.destroyed]
        · intro other notIn
          simp only [List.map_cons, List.mem_cons, not_or] at notIn
          rw [frame other notIn.2, takes.frame other notIn.2 notIn.1]
      · exact ⟨memory, gc, [], item :: items, by simp [head, collectLoop, cell, answer], rfl,
          represented, fun _ _ => rfl⟩

/-- Draining drops the front of the cache. -/
theorem drainLoop_takes {memory : Memory Task} {cache : Queue}
    {dropped left : List (Nat × Task)} (represented : Represents memory cache (dropped ++ left)) :
    ∃ changed rest,
      drainLoop dropped.length memory cache = some (changed, rest, dropped.map Prod.snd) ∧
      Represents changed rest left ∧
      ∀ other ∉ addresses (dropped ++ left), changed other = memory other := by
  induction dropped generalizing memory cache with
  | nil => exact ⟨memory, cache, rfl, represented, fun _ _ => rfl⟩
  | cons item dropped ih =>
      obtain ⟨removal, shifted, takes⟩ := queueShift_takes represented false .free
      obtain ⟨changed, rest, loop, after, frame⟩ := ih takes.represents
      refine ⟨changed, rest, ?_, after, ?_⟩
      · simp [drainLoop, shifted, loop, takes.destroyed]
      · intro other notIn
        simp only [List.cons_append, List.map_cons, List.mem_cons, not_or] at notIn
        rw [frame other notIn.2, takes.frame other notIn.2 notIn.1]

/-- Cleaning a queue frees its items and nothing else. -/
theorem queueClean_frees {memory : Memory Task} {before : Option Nat}
    {items : List (Nat × Task)} (chain : Chain memory before items none)
    (nodup : (addresses items).Nodup) :
    ∃ changed, queueClean items.length memory (firstAddress items) = some changed ∧
      ∀ other ∉ addresses items, changed other = memory other := by
  induction items generalizing memory before with
  | nil => exact ⟨memory, rfl, fun _ _ => rfl⟩
  | cons item items ih =>
      simp only [List.map_cons, List.nodup_cons] at nodup
      have kept : Chain (memory.erase item.1) (some item.1) items none := by
        refine chain_congr ?_ chain.2
        intro address member
        apply Memory.erase_other
        rintro rfl
        exact nodup.1 member
      obtain ⟨changed, cleaned, frame⟩ := ih kept nodup.2
      refine ⟨changed, ?_, ?_⟩
      · simpa [queueClean, chain.1] using cleaned
      · intro other notIn
        simp only [List.map_cons, List.mem_cons, not_or] at notIn
        rw [frame other notIn.2, Memory.erase_other memory notIn.1]

/-- The task a phase is executing. -/
def WorkerPhase.executed : WorkerPhase → List Task
  | .executing task => [task]
  | _ => []

/-- The finished task a phase has not recorded in the cache yet. -/
def WorkerPhase.unrecorded : WorkerPhase → List Task
  | .recording task => [task]
  | _ => []

/-- A worker that looks for a task has none. -/
theorem WorkerPhase.seeking {worker : WorkerPhase}
    (phase : worker = .looping ∨ worker = .waiting true) :
    worker ≠ .destroyed ∧ worker.executed = [] ∧ worker.unrecorded = [] := by
  rcases phase with rfl | rfl
  · exact ⟨nofun, rfl, rfl⟩
  · exact ⟨nofun, rfl, rfl⟩

@[simp]
theorem executed_notify (phase : WorkerPhase) : (notify phase).executed = phase.executed := by
  cases phase <;> rfl

@[simp]
theorem unrecorded_notify (phase : WorkerPhase) :
    (notify phase).unrecorded = phase.unrecorded := by
  cases phase <;> rfl

@[simp]
theorem notify_eq_destroyed (phase : WorkerPhase) :
    notify phase = .destroyed ↔ phase = .destroyed := by
  cases phase <;> simp [notify]

/-- The items in each of the four places of a worker. -/
structure Places where
  queue : List (Nat × Task)
  running : List (Nat × Task)
  gc : List (Nat × Task)
  done : List (Nat × Task)

/-- All the items of a worker. -/
def Places.all (places : Places) : List (Nat × Task) :=
  places.queue ++ (places.running ++ (places.gc ++ places.done))

/-- The tasks of a list of items. -/
abbrev tasks (items : List (Nat × Task)) : List Task := items.map Prod.snd

/-- The layout of a worker's items in memory. -/
structure Layout (state : State) (places : Places) : Prop where
  queue : Represents state.memory state.data.queue places.queue
  gc : Represents state.memory state.data.gc places.gc
  done : state.worker ≠ .destroyed → Represents state.memory state.doneTasksCache places.done
  gone : state.worker = .destroyed → places.done = []
  running : state.data.running = firstAddress places.running
  cell : ∀ item ∈ places.running, ∃ next prev, state.memory item.1 = some ⟨next, prev, item.2⟩
  apart : (addresses places.all).Nodup

/-- The places agree with what has happened so far. -/
structure Accounted (state : State) (places : Places) : Prop where
  executing : tasks places.running = state.worker.executed
  started : state.history.started =
    state.history.collected ++ (tasks places.gc ++ tasks places.running)
  ordered : (state.history.started ++ tasks places.queue).Pairwise
    fun first second => first.serial < second.serial
  conserved : ((state.history.started ++ tasks places.queue ++ state.history.unstacked).map
    Task.serial).Perm (List.range state.history.stacked)
  cached : state.worker ≠ .destroyed →
    state.history.collected ++ tasks places.gc =
      state.history.drained ++ (tasks places.done ++ state.worker.unrecorded)
  counted : state.history.collected.length =
    state.history.drained.length + state.data.tasksCollected
  prefixed : state.history.drained <+: state.history.collected
  flagged : state.monitor .collectGarbage = decide (0 < state.data.tasksCollected)

/-- Some choice of places lays the worker out and accounts for its history. -/
def Consistent (state : State) : Prop :=
  ∃ places, Layout state places ∧ Accounted state places

theorem consistent_initial : Consistent initial := by
  refine ⟨⟨[], [], [], []⟩, ?_, ?_⟩
  · exact ⟨represents_empty _, represents_empty _, fun _ => represents_empty _, fun _ => rfl, rfl,
      by simp, by simp [Places.all]⟩
  · constructor <;> simp [initial, WorkerPhase.executed, WorkerPhase.unrecorded]

theorem Layout.allocated {state : State} {places : Places} (layout : Layout state places)
    {address : Nat} (member : address ∈ addresses places.all) :
    (state.memory address).isSome := by
  simp only [Places.all, List.map_append, List.mem_append] at member
  rcases member with inQueue | inRunning | inGc | inDone
  · exact layout.queue.chain.allocated inQueue
  · obtain ⟨item, present, rfl⟩ := List.mem_map.mp inRunning
    obtain ⟨next, prev, found⟩ := layout.cell item present
    simp [found]
  · exact layout.gc.chain.allocated inGc
  · by_cases dead : state.worker = .destroyed
    · simp [layout.gone dead] at inDone
    · exact (layout.done dead).chain.allocated inDone

theorem Layout.fresh {state : State} {places : Places} (layout : Layout state places)
    {address : Nat} (unallocated : state.memory address = none) :
    address ∉ addresses places.all := by
  intro member
  have := layout.allocated member
  simp [unallocated] at this

/-- A cell of one place lies in no other place. -/
theorem Layout.disjoint {state : State} {places : Places} (layout : Layout state places) :
    (∀ address ∈ addresses places.queue, address ∉ addresses places.running ∧
      address ∉ addresses places.gc ∧ address ∉ addresses places.done) ∧
    (∀ address ∈ addresses places.running,
      address ∉ addresses places.gc ∧ address ∉ addresses places.done) ∧
    ∀ address ∈ addresses places.gc, address ∉ addresses places.done := by
  have apart := layout.apart
  simp only [Places.all, List.map_append, List.nodup_append, List.mem_append] at apart
  obtain ⟨-, ⟨-, ⟨-, -, gcDone⟩, runningRest⟩, queueRest⟩ := apart
  refine ⟨fun address member => ⟨?_, ?_, ?_⟩, fun address member => ⟨?_, ?_⟩, ?_⟩
  · exact fun other => queueRest address member address (Or.inl other) rfl
  · exact fun other => queueRest address member address (Or.inr (Or.inl other)) rfl
  · exact fun other => queueRest address member address (Or.inr (Or.inr other)) rfl
  · exact fun other => runningRest address member address (Or.inl other) rfl
  · exact fun other => runningRest address member address (Or.inr other) rfl
  · exact fun address member other => gcDone address member address other rfl

/-- The running task's cell depends only on its own address. -/
theorem Layout.cell_congr {state : State} {places : Places} (layout : Layout state places)
    {memory : Memory Task}
    (agrees : ∀ address ∈ addresses places.running, memory address = state.memory address) :
    ∀ item ∈ places.running, ∃ next prev, memory item.1 = some ⟨next, prev, item.2⟩ := by
  intro item member
  obtain ⟨next, prev, found⟩ := layout.cell item member
  exact ⟨next, prev, (agrees item.1 (List.mem_map_of_mem member)).trans found⟩

/-- Stacking a task appends it to the queue. -/
theorem queuePushNew_layout {state : State} {places : Places} (layout : Layout state places)
    {address : Nat} (fresh : state.memory address = none) (task : Task) :
    ∃ memory queue,
      queuePushNew state.memory state.data.queue address task = some (memory, queue) ∧
      ∀ worker, (worker = .destroyed ↔ state.worker = .destroyed) →
        Layout { state with memory := memory, data := { state.data with queue := queue },
                            worker := worker }
          { places with queue := places.queue ++ [(address, task)] } := by
  obtain ⟨memory, queue, pushed, represents, -, frame⟩ :=
    queuePushNew_represents layout.queue fresh task
  obtain ⟨queueApart, -, -⟩ := layout.disjoint
  have outside := layout.fresh fresh
  simp only [Places.all, List.map_append, List.mem_append, not_or] at outside
  obtain ⟨notQueue, notRunning, notGc, notDone⟩ := outside
  refine ⟨memory, queue, pushed, fun worker dead => ?_⟩
  refine ⟨represents, layout.gc.congr ?_, fun alive => (layout.done ?_).congr ?_,
    fun gone => layout.gone (dead.mp gone), layout.running, layout.cell_congr ?_, ?_⟩
  · intro other member
    exact frame other (fun inQueue => (queueApart other inQueue).2.1 member)
      (fun equal => notGc (equal ▸ member))
  · exact fun gone => alive (dead.mpr gone)
  · intro other member
    exact frame other (fun inQueue => (queueApart other inQueue).2.2 member)
      (fun equal => notDone (equal ▸ member))
  · intro other member
    exact frame other (fun inQueue => (queueApart other inQueue).1 member)
      (fun equal => notRunning (equal ▸ member))
  · have grown : (address :: addresses places.all).Nodup :=
      List.nodup_cons.mpr ⟨layout.fresh fresh, layout.apart⟩
    refine (List.Perm.nodup_iff ?_).mp grown
    simp only [Places.all, List.map_append, List.map_cons, List.map_nil, List.append_assoc]
    exact List.perm_middle.symm

/-- Unstacking frees the first item of the queue. -/
theorem queueShift_layout {state : State} {places : Places} (layout : Layout state places)
    {item : Nat × Task} {rest : List (Nat × Task)} (first : places.queue = item :: rest) :
    ∃ removal, queueShift state.memory state.data.queue true .free = some removal ∧
      removal.handed = some item.2 ∧
      Layout { state with memory := removal.memory,
                          data := { state.data with queue := removal.queue } }
        { places with queue := rest } := by
  have represented := layout.queue
  rw [first] at represented
  obtain ⟨removal, shifted, takes⟩ := queueShift_takes represented true .free
  obtain ⟨queueApart, -, -⟩ := layout.disjoint
  rw [first] at queueApart
  have frame : ∀ other ∉ addresses (item :: rest), removal.memory other = state.memory other :=
    fun _ => takes.frame_cons
  refine ⟨removal, shifted, by simp [takes.handed], takes.represents, layout.gc.congr ?_,
    fun alive => (layout.done alive).congr ?_, layout.gone, layout.running,
    layout.cell_congr ?_, ?_⟩
  · exact fun other member => frame other fun inQueue => (queueApart other inQueue).2.1 member
  · exact fun other member => frame other fun inQueue => (queueApart other inQueue).2.2 member
  · exact fun other member => frame other fun inQueue => (queueApart other inQueue).1 member
  · have apart := layout.apart
    simp only [Places.all, first, List.cons_append, List.map_cons, List.nodup_cons] at apart
    exact apart.2

/-- Collecting takes items off the front of the garbage list. -/
theorem collectLoop_layout {state : State} {places : Places} (layout : Layout state places)
    (collect : Task → Bool) :
    ∃ memory gc taken left,
      collectLoop collect state.data.gc.size.toNat state.memory state.data.gc
        state.data.gc.head = some (memory, gc, tasks taken) ∧
      places.gc = taken ++ left ∧
      gc.size = left.length ∧
      ∀ worker count, (worker = .destroyed ↔ state.worker = .destroyed) →
        Layout { state with memory := memory, worker := worker, data :=
          { state.data with gc := gc, tasksCollected := count } } { places with gc := left } := by
  obtain ⟨memory, gc, taken, left, loop, split, represents, frame⟩ :=
    collectLoop_takes collect layout.gc
      (show places.gc.length ≤ state.data.gc.size.toNat by simp [layout.gc.size])
  obtain ⟨queueApart, runningApart, gcApart⟩ := layout.disjoint
  refine ⟨memory, gc, taken, left, loop, split, represents.size, fun worker count dead => ?_⟩
  refine ⟨layout.queue.congr ?_, represents, fun alive => (layout.done ?_).congr ?_,
    fun gone => layout.gone (dead.mp gone), layout.running, layout.cell_congr ?_, ?_⟩
  · exact fun other member => frame other (queueApart other member).2.1
  · exact fun gone => alive (dead.mpr gone)
  · exact fun other member => frame other fun inGc => gcApart other inGc member
  · exact fun other member => frame other (runningApart other member).1
  · refine List.Nodup.sublist ?_ layout.apart
    simp only [Places.all, split, List.map_append, List.append_assoc]
    exact ((List.sublist_append_right _ _).append_left _).append_left _

/-- Draining drops the front of the cache. -/
theorem drainLoop_layout {state : State} {places : Places} (layout : Layout state places)
    (alive : state.worker ≠ .destroyed) {dropped left : List (Nat × Task)}
    (split : places.done = dropped ++ left) :
    ∃ memory cache,
      drainLoop dropped.length state.memory state.doneTasksCache =
        some (memory, cache, tasks dropped) ∧
      ∀ monitor history count,
        Layout { state with memory := memory, doneTasksCache := cache, monitor := monitor,
                            history := history,
                            data := { state.data with tasksCollected := count } }
          { places with done := left } := by
  have represented := layout.done alive
  rw [split] at represented
  obtain ⟨memory, cache, loop, represents, frame⟩ := drainLoop_takes represented
  obtain ⟨queueApart, runningApart, gcApart⟩ := layout.disjoint
  simp only [split] at queueApart runningApart gcApart
  refine ⟨memory, cache, loop, fun monitor history count => ?_⟩
  refine ⟨layout.queue.congr ?_, layout.gc.congr ?_, fun _ => represents,
    fun gone => absurd gone alive, layout.running, layout.cell_congr ?_, ?_⟩
  · exact fun other member => frame other (queueApart other member).2.2
  · exact fun other member => frame other (gcApart other member)
  · exact fun other member => frame other (runningApart other member).2
  · refine List.Nodup.sublist ?_ layout.apart
    simp only [Places.all, split, List.map_append]
    exact (((List.sublist_append_right _ _).append_left _).append_left _).append_left _

/-- Taking a task moves the first item of the queue to `running`, unfreed. -/
theorem takeTask_layout {state : State} {places : Places} (layout : Layout state places)
    (alive : state.worker ≠ .destroyed) (idle : places.running = [])
    {item : Nat × Task} {rest : List (Nat × Task)} (first : places.queue = item :: rest) :
    ∃ removal, queueShift state.memory state.data.queue true .nothing = some removal ∧
      state.data.queue.head = some item.1 ∧ removal.handed = some item.2 ∧
      ∀ history, Layout
        { state with memory := removal.memory, worker := .executing item.2, history := history,
                     data := { state.data with queue := removal.queue, running := some item.1 } }
        { places with queue := rest, running := [item] } := by
  have represented := layout.queue
  rw [first] at represented
  obtain ⟨removal, shifted, takes⟩ := queueShift_takes represented true .nothing
  obtain ⟨queueApart, -, -⟩ := layout.disjoint
  rw [first] at queueApart
  have frame : ∀ other ∉ addresses (item :: rest), removal.memory other = state.memory other :=
    fun _ => takes.frame_cons
  obtain ⟨next, prev, found⟩ := represented.chain.cell List.mem_cons_self
  refine ⟨removal, shifted, represented.head, by simp [takes.handed], fun history => ?_⟩
  refine ⟨takes.represents, layout.gc.congr ?_, fun _ => (layout.done alive).congr ?_,
    by simp, by simp, ?_, ?_⟩
  · exact fun other member => frame other fun inQueue => (queueApart other inQueue).2.1 member
  · exact fun other member => frame other fun inQueue => (queueApart other inQueue).2.2 member
  · intro moved member
    cases List.mem_singleton.mp member
    exact ⟨next, prev, (takes.kept rfl).trans found⟩
  · have apart := layout.apart
    refine (List.Perm.nodup_iff ?_).mp apart
    simp only [Places.all, first, idle, List.nil_append, List.cons_append, List.map_cons,
      List.map_append]
    exact List.perm_middle.symm

/-- Adding garbage moves the running item to the end of the garbage list. -/
theorem addGarbage_layout {state : State} {places : Places} (layout : Layout state places)
    (alive : state.worker ≠ .destroyed) {item : Nat × Task} (running : places.running = [item]) :
    ∃ memory gc, state.data.running = some item.1 ∧
      queuePush state.memory state.data.gc item.1 = some (memory, gc) ∧
      ∀ task, Layout
        { state with memory := memory, worker := .recording task,
                     data := { state.data with gc := gc, running := none } }
        { places with running := [], gc := places.gc ++ [item] } := by
  obtain ⟨next, prev, found⟩ := layout.cell item (by simp [running])
  obtain ⟨queueApart, runningApart, gcApart⟩ := layout.disjoint
  have itemApart := runningApart item.1 (by simp [running])
  obtain ⟨memory, gc, pushed, represents, -, frame⟩ :=
    queuePush_represents layout.gc found itemApart.1
  refine ⟨memory, gc, by simp [layout.running, running], pushed, fun task => ?_⟩
  refine ⟨layout.queue.congr ?_, represents, fun _ => (layout.done alive).congr ?_, by simp,
    rfl, by simp, ?_⟩
  · intro other member
    apply frame other (queueApart other member).2.1
    rintro rfl
    exact (queueApart _ member).1 (by simp [running])
  · intro other member
    apply frame other (fun inGc => gcApart other inGc member)
    rintro rfl
    exact itemApart.2 member
  · refine (List.Perm.nodup_iff ?_).mp layout.apart
    simp only [Places.all, running, List.nil_append, List.map_append, List.map_cons,
      List.append_assoc, List.cons_append]
    exact List.perm_middle.symm.append_left _

/-- Recording a finished task appends a new item to the worker's cache. -/
theorem recordDone_layout {state : State} {places : Places} (layout : Layout state places)
    (alive : state.worker ≠ .destroyed) {address : Nat} (fresh : state.memory address = none)
    (task : Task) :
    ∃ memory cache,
      queuePushNew state.memory state.doneTasksCache address task = some (memory, cache) ∧
      Layout { state with memory := memory, doneTasksCache := cache, worker := .looping }
        { places with done := places.done ++ [(address, task)] } := by
  obtain ⟨memory, cache, pushed, represents, -, frame⟩ :=
    queuePushNew_represents (layout.done alive) fresh task
  obtain ⟨queueApart, runningApart, gcApart⟩ := layout.disjoint
  have outside := layout.fresh fresh
  simp only [Places.all, List.map_append, List.mem_append, not_or] at outside
  obtain ⟨notQueue, notRunning, notGc, notDone⟩ := outside
  refine ⟨memory, cache, pushed, layout.queue.congr ?_, layout.gc.congr ?_, fun _ => represents,
    by simp, layout.running, layout.cell_congr ?_, ?_⟩
  · exact fun other member => frame other (queueApart other member).2.2
      fun equal => notQueue (equal ▸ member)
  · exact fun other member => frame other (gcApart other member)
      fun equal => notGc (equal ▸ member)
  · exact fun other member => frame other (runningApart other member).2
      fun equal => notRunning (equal ▸ member)
  · have grown : (address :: addresses places.all).Nodup :=
      List.nodup_cons.mpr ⟨layout.fresh fresh, layout.apart⟩
    refine (List.Perm.nodup_iff ?_).mp grown
    simp only [Places.all, List.map_append, List.map_cons, List.map_nil, ← List.append_assoc]
    exact (List.perm_append_singleton _ _).symm

/-- Cleaning the cache leaves the other places alone. -/
theorem destroy_layout {state : State} {places : Places} (layout : Layout state places)
    (alive : state.worker ≠ .destroyed) :
    ∃ memory,
      queueClean state.doneTasksCache.size.toNat state.memory state.doneTasksCache.head =
        some memory ∧
      Layout { state with memory := memory, worker := .destroyed } { places with done := [] } := by
  have represented := layout.done alive
  obtain ⟨memory, cleaned, frame⟩ := queueClean_frees represented.chain represented.nodup
  obtain ⟨queueApart, runningApart, gcApart⟩ := layout.disjoint
  refine ⟨memory, by simpa [represented.size, represented.head] using cleaned,
    layout.queue.congr ?_, layout.gc.congr ?_, fun contra => absurd rfl contra, fun _ => rfl,
    layout.running, layout.cell_congr ?_, ?_⟩
  · exact fun other member => frame other (queueApart other member).2.2
  · exact fun other member => frame other (gcApart other member)
  · exact fun other member => frame other (runningApart other member).2
  · refine List.Nodup.sublist ?_ layout.apart
    simp only [Places.all, List.map_append, List.append_nil]
    exact ((List.sublist_append_left _ _).append_left _).append_left _

end Pthreads.WorkerTasks
