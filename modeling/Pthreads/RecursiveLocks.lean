import Mathlib.Data.List.Count
import Mathlib.Logic.Function.Basic

/-!
# Threads that take recursive locks

Each thread has a program of lock and unlock instructions left to run.  A lock
can be taken again by the thread that holds it and is free once it was released
as often.  This file has the steps, the fact that a thread with nothing left to
run holds nothing, and a rule that keeps two locks from being taken in opposite
orders at the same time.
-/

namespace Pthreads

/-- What a thread does next. -/
inductive Instruction (M : Type*) where
  | lock (monitor : M)
  | unlock (monitor : M)
deriving DecidableEq

/-- The holder of each lock, how often it has taken it, and what every thread has
left to run. -/
structure Locks (M : Type*) where
  holder : M → Option Nat
  depth : M → Nat
  remaining : Nat → List (Instruction M)

namespace Locks

variable {M : Type*} [DecidableEq M]

def unlocked : Locks M := ⟨fun _ => none, fun _ => 0, fun _ => []⟩

/-- A thread that has nothing left to run takes on a program. -/
def start (locks : Locks M) (thread : Nat) (program : List (Instruction M)) : Option (Locks M) :=
  if locks.remaining thread = [] then
    some { locks with remaining := Function.update locks.remaining thread program }
  else none

/-- A thread runs its next instruction, unless it is blocked. -/
def advance (locks : Locks M) (thread : Nat) : Option (Locks M) :=
  match locks.remaining thread with
  | [] => none
  | .lock monitor :: rest =>
      if locks.holder monitor = none ∨ locks.holder monitor = some thread then
        some ⟨Function.update locks.holder monitor (some thread),
          Function.update locks.depth monitor (locks.depth monitor + 1),
          Function.update locks.remaining thread rest⟩
      else none
  | .unlock monitor :: rest =>
      if locks.holder monitor = some thread then
        some ⟨Function.update locks.holder monitor
            (if locks.depth monitor = 1 then none else some thread),
          Function.update locks.depth monitor (locks.depth monitor - 1),
          Function.update locks.remaining thread rest⟩
      else none

/-- How often the thread holds the lock. -/
def held (locks : Locks M) (thread : Nat) (monitor : M) : Nat :=
  if locks.holder monitor = some thread then locks.depth monitor else 0

/-- A program takes every lock as often as it releases it. -/
def Balanced (program : List (Instruction M)) : Prop :=
  ∀ monitor, program.count (.lock monitor) = program.count (.unlock monitor)

/-- What a thread holds is what it has left to release. -/
structure Settled (locks : Locks M) : Prop where
  free : ∀ monitor, locks.holder monitor = none → locks.depth monitor = 0
  taken : ∀ thread monitor, locks.holder monitor = some thread → 0 < locks.depth monitor
  owed : ∀ thread monitor, locks.held thread monitor +
      (locks.remaining thread).count (.lock monitor) =
    (locks.remaining thread).count (.unlock monitor)

theorem settled_unlocked : (unlocked : Locks M).Settled :=
  ⟨fun _ _ => rfl, by simp [unlocked], by simp [unlocked, held]⟩

/-- A thread that has nothing left to run holds nothing. -/
theorem Settled.holder_ne {locks : Locks M} (settled : locks.Settled) {thread : Nat}
    (finished : locks.remaining thread = []) (monitor : M) :
    locks.holder monitor ≠ some thread := by
  intro isHolder
  have owed := settled.owed thread monitor
  have positive := settled.taken thread monitor isHolder
  simp only [held, isHolder, if_true, finished, List.count_nil] at owed
  omega

theorem start_settled {locks after : Locks M} {thread : Nat} {program : List (Instruction M)}
    (settled : locks.Settled) (balanced : Balanced program)
    (started : locks.start thread program = some after) : after.Settled := by
  obtain ⟨finished, ⟨⟩⟩ := Option.ite_none_right_eq_some.mp started
  refine ⟨settled.free, settled.taken, ?_⟩
  intro other monitor
  by_cases same : other = thread
  · subst same
    have nothing := settled.holder_ne finished monitor
    simp [held, nothing, balanced monitor]
  · have owed := settled.owed other monitor
    simpa [held, same] using owed

/-- What running an instruction does to the holder and to what is left. -/
theorem advance_cases {locks after : Locks M} {thread : Nat}
    (advanced : locks.advance thread = some after) :
    ∃ instruction rest, locks.remaining thread = instruction :: rest ∧
      after.remaining = Function.update locks.remaining thread rest ∧
      ((∃ monitor, instruction = .lock monitor ∧
          (locks.holder monitor = none ∨ locks.holder monitor = some thread) ∧
          after.holder = Function.update locks.holder monitor (some thread) ∧
          after.depth = Function.update locks.depth monitor (locks.depth monitor + 1)) ∨
        ∃ monitor, instruction = .unlock monitor ∧ locks.holder monitor = some thread ∧
          after.holder = Function.update locks.holder monitor
            (if locks.depth monitor = 1 then none else some thread) ∧
          after.depth = Function.update locks.depth monitor (locks.depth monitor - 1)) := by
  unfold advance at advanced
  split at advanced
  · cases advanced
  · next monitor rest program =>
    obtain ⟨isFree, ⟨⟩⟩ := Option.ite_none_right_eq_some.mp advanced
    exact ⟨_, rest, program, rfl, Or.inl ⟨monitor, rfl, isFree, rfl, rfl⟩⟩
  · next monitor rest program =>
    obtain ⟨isHolder, ⟨⟩⟩ := Option.ite_none_right_eq_some.mp advanced
    exact ⟨_, rest, program, rfl, Or.inr ⟨monitor, rfl, isHolder, rfl, rfl⟩⟩

theorem lock_settled {locks after : Locks M} {thread : Nat} {monitor : M}
    {rest : List (Instruction M)} (settled : locks.Settled)
    (program : locks.remaining thread = .lock monitor :: rest)
    (remaining : after.remaining = Function.update locks.remaining thread rest)
    (isFree : locks.holder monitor = none ∨ locks.holder monitor = some thread)
    (holder : after.holder = Function.update locks.holder monitor (some thread))
    (depth : after.depth = Function.update locks.depth monitor (locks.depth monitor + 1)) :
    after.Settled := by
  refine ⟨?_, ?_, ?_⟩
  · intro other isNone
    by_cases same : other = monitor
    · simp [holder, same] at isNone
    · rw [holder, Function.update_of_ne same] at isNone
      rw [depth, Function.update_of_ne same, settled.free other isNone]
  · intro keeper other isHolder
    by_cases same : other = monitor
    · simp [depth, same]
    · rw [holder, Function.update_of_ne same] at isHolder
      rw [depth, Function.update_of_ne same]
      exact settled.taken keeper other isHolder
  · intro keeper other
    have owed := settled.owed keeper other
    by_cases sameThread : keeper = thread
    · subst sameThread
      by_cases same : other = monitor
      · subst same
        -- a lock that was free was not held at all
        have grows : after.held keeper other = locks.held keeper other + 1 := by
          rcases isFree with isNone | isOwn
          · simp [held, holder, depth, isNone, settled.free other isNone]
          · simp [held, holder, depth, isOwn]
        simp only [program, remaining, Function.update_self, List.count_cons_self, grows] at owed ⊢
        simp only [List.count_cons, beq_iff_eq, reduceCtorEq, if_false, Nat.add_zero] at owed
        omega
      · simpa [held, holder, depth, remaining, program, same, Ne.symm same, List.count_cons]
          using owed
    · by_cases same : other = monitor
      · subst same
        have before : locks.holder other ≠ some keeper := by
          rcases isFree with isNone | isOwn
          · simp [isNone]
          · simp [isOwn, Ne.symm sameThread]
        simpa [held, holder, remaining, sameThread, Ne.symm sameThread, before] using owed
      · simpa [held, holder, depth, remaining, same, sameThread] using owed

theorem unlock_settled {locks after : Locks M} {thread : Nat} {monitor : M}
    {rest : List (Instruction M)} (settled : locks.Settled)
    (program : locks.remaining thread = .unlock monitor :: rest)
    (remaining : after.remaining = Function.update locks.remaining thread rest)
    (isHolder : locks.holder monitor = some thread)
    (holder : after.holder = Function.update locks.holder monitor
      (if locks.depth monitor = 1 then none else some thread))
    (depth : after.depth = Function.update locks.depth monitor (locks.depth monitor - 1)) :
    after.Settled := by
  have positive := settled.taken thread monitor isHolder
  refine ⟨?_, ?_, ?_⟩
  · intro other isNone
    by_cases same : other = monitor
    · subst same
      simp only [holder, Function.update_self, ite_eq_left_iff, reduceCtorEq, imp_false,
        not_not] at isNone
      simp [depth, isNone]
    · rw [holder, Function.update_of_ne same] at isNone
      rw [depth, Function.update_of_ne same, settled.free other isNone]
  · intro keeper other isKeeper
    by_cases same : other = monitor
    · subst same
      simp only [holder, Function.update_self] at isKeeper
      split at isKeeper
      · cases isKeeper
      · simp only [depth, Function.update_self]
        omega
    · rw [holder, Function.update_of_ne same] at isKeeper
      rw [depth, Function.update_of_ne same]
      exact settled.taken keeper other isKeeper
  · intro keeper other
    have owed := settled.owed keeper other
    by_cases sameThread : keeper = thread
    · subst sameThread
      by_cases same : other = monitor
      · subst same
        have shrinks : after.held keeper other + 1 = locks.held keeper other := by
          by_cases once : locks.depth other = 1
          · simp [held, holder, isHolder, once]
          · simp only [held, holder, depth, Function.update_self, once, if_false, if_true, isHolder]
            omega
        simp only [program, remaining, Function.update_self, List.count_cons_self] at owed ⊢
        simp only [List.count_cons, beq_iff_eq, reduceCtorEq, if_false, Nat.add_zero] at owed
        omega
      · simpa [held, holder, depth, remaining, program, same, Ne.symm same, List.count_cons]
          using owed
    · by_cases same : other = monitor
      · subst same
        have later : after.holder other ≠ some keeper := by
          simp only [holder, Function.update_self]
          split <;> simp [Ne.symm sameThread]
        simpa [held, remaining, sameThread, later, isHolder, Ne.symm sameThread] using owed
      · simpa [held, holder, depth, remaining, same, sameThread] using owed

theorem advance_settled {locks after : Locks M} {thread : Nat} (settled : locks.Settled)
    (advanced : locks.advance thread = some after) : after.Settled := by
  obtain ⟨instruction, rest, program, remaining, taking | releasing⟩ := advance_cases advanced
  · obtain ⟨monitor, rfl, isFree, holder, depth⟩ := taking
    exact lock_settled settled program remaining isFree holder depth
  · obtain ⟨monitor, rfl, isHolder, holder, depth⟩ := releasing
    exact unlock_settled settled program remaining isHolder holder depth

section Crossing

/-- The thread holds the outer lock and takes the inner one next. -/
def Descends (locks : Locks M) (outer inner : M) (thread : Nat) : Prop :=
  locks.holder outer = some thread ∧ (locks.remaining thread).head? = some (.lock inner)

/-- The thread holds the inner lock and still has to take the outer one. -/
def Ascends (locks : Locks M) (outer inner : M) (thread : Nat) : Prop :=
  locks.holder inner = some thread ∧ .lock outer ∈ locks.remaining thread

/-- Two threads take the two locks in opposite orders at the same time. -/
def Crossed (locks : Locks M) (outer inner : M) : Prop :=
  ∃ first second, first ≠ second ∧ locks.Descends outer inner first ∧
    locks.Ascends outer inner second

/-- The thread comes to descend only while no other ascends, and to ascend only
while no other descends. -/
structure Yields (locks : Locks M) (outer inner : M) (thread : Nat) : Prop where
  descends : ∀ instruction rest, locks.remaining thread = instruction :: .lock inner :: rest →
    (locks.holder outer = some thread ∨ instruction = .lock outer) →
      ∀ other, other ≠ thread → ¬ locks.Ascends outer inner other
  ascends : ∀ rest, locks.remaining thread = .lock inner :: rest → .lock outer ∈ rest →
    ∀ other, other ≠ thread → ¬ locks.Descends outer inner other

theorem start_not_crossed {locks after : Locks M} {outer inner : M} {thread : Nat}
    {program : List (Instruction M)} (settled : locks.Settled)
    (uncrossed : ¬ locks.Crossed outer inner)
    (started : locks.start thread program = some after) : ¬ after.Crossed outer inner := by
  obtain ⟨finished, ⟨⟩⟩ := Option.ite_none_right_eq_some.mp started
  rintro ⟨first, second, different, ⟨holdsOuter, next⟩, holdsInner, needs⟩
  have notFirst : first ≠ thread := fun same => settled.holder_ne finished outer (same ▸ holdsOuter)
  have notSecond : second ≠ thread :=
    fun same => settled.holder_ne finished inner (same ▸ holdsInner)
  simp only [Function.update_of_ne notFirst] at next
  simp only [Function.update_of_ne notSecond] at needs
  exact uncrossed ⟨first, second, different, ⟨holdsOuter, next⟩, holdsInner, needs⟩

/-- Who holds a lock after a step held it before, or has just taken it. -/
theorem advance_holder {locks after : Locks M} {thread keeper : Nat} {monitor : M}
    (advanced : locks.advance thread = some after) (isHolder : after.holder monitor = some keeper) :
    locks.holder monitor = some keeper ∨
      (keeper = thread ∧ (locks.remaining thread).head? = some (.lock monitor)) := by
  obtain ⟨instruction, rest, program, -, taking | releasing⟩ := advance_cases advanced
  · obtain ⟨taken, rfl, -, holder, -⟩ := taking
    by_cases same : monitor = taken
    · subst same
      rw [holder, Function.update_self, Option.some.injEq] at isHolder
      exact Or.inr ⟨isHolder.symm, by simp [program]⟩
    · rw [holder, Function.update_of_ne same] at isHolder
      exact Or.inl isHolder
  · obtain ⟨released, rfl, wasHolder, holder, -⟩ := releasing
    by_cases same : monitor = released
    · subst same
      rw [holder, Function.update_self] at isHolder
      split at isHolder
      · cases isHolder
      · exact Or.inl (wasHolder.trans isHolder)
    · rw [holder, Function.update_of_ne same] at isHolder
      exact Or.inl isHolder

/-- A step of a thread that yields does not cross the locks. -/
theorem advance_not_crossed {locks after : Locks M} {outer inner : M} {thread : Nat}
    (uncrossed : ¬ locks.Crossed outer inner) (yields : locks.Yields outer inner thread)
    (advanced : locks.advance thread = some after) : ¬ after.Crossed outer inner := by
  obtain ⟨instruction, rest, program, remaining, -⟩ := advance_cases advanced
  rintro ⟨first, second, different, ⟨holdsOuter, next⟩, holdsInner, needs⟩
  have outerBefore := advance_holder advanced holdsOuter
  have innerBefore := advance_holder advanced holdsInner
  simp only [program, List.head?_cons, Option.some.injEq] at outerBefore innerBefore
  by_cases isFirst : first = thread
  · -- the thread that moved now descends, so the other was ascending before
    subst isFirst
    have notSecond : second ≠ first := Ne.symm different
    rw [remaining, Function.update_self] at next
    obtain ⟨later, rfl⟩ : ∃ later, rest = .lock inner :: later := by
      cases rest with
      | nil => simp at next
      | cons following later =>
          simp only [List.head?_cons, Option.some.injEq] at next
          exact ⟨later, by rw [next]⟩
    rw [remaining, Function.update_of_ne notSecond] at needs
    refine yields.descends instruction later program ?_ second notSecond ⟨?_, needs⟩
    · exact outerBefore.imp_right And.right
    · exact innerBefore.resolve_right fun moved => notSecond moved.1
  · have wasOuter := outerBefore.resolve_right fun moved => isFirst moved.1
    rw [remaining, Function.update_of_ne isFirst] at next
    by_cases isSecond : second = thread
    · subst isSecond
      rw [remaining, Function.update_self] at needs
      rcases innerBefore with wasInner | ⟨-, isLock⟩
      · exact uncrossed ⟨first, second, different, ⟨wasOuter, next⟩, wasInner, by
          rw [program]
          exact List.mem_cons_of_mem _ needs⟩
      · subst isLock
        exact yields.ascends rest program needs first isFirst ⟨wasOuter, next⟩
    · have wasInner := innerBefore.resolve_right fun moved => isSecond moved.1
      rw [remaining, Function.update_of_ne isSecond] at needs
      exact uncrossed ⟨first, second, different, ⟨wasOuter, next⟩, wasInner, needs⟩

end Crossing

section Nesting

/-- The locks that a program takes. -/
def taken (program : List (Instruction M)) : List M :=
  program.filterMap fun
    | .lock monitor => some monitor
    | .unlock _ => none

/-- The program holds the outer lock at some point where it takes the inner one. -/
def Nests (program : List (Instruction M)) (outer inner : M) : Prop :=
  ∃ position ∈ List.range program.length, program[position]? = some (.lock inner) ∧
    (program.take position).count (.unlock outer) < (program.take position).count (.lock outer)

/-- Two programs nest a pair of locks in opposite orders. -/
def Opposed (first second : List (Instruction M)) (concerned : M → Bool) : Prop :=
  ∃ outer ∈ taken first, ∃ inner ∈ taken first, outer ≠ inner ∧ concerned outer = true ∧
    concerned inner = true ∧ Nests first outer inner ∧ Nests second inner outer

instance (program : List (Instruction M)) (outer inner : M) :
    Decidable (Nests program outer inner) :=
  inferInstanceAs (Decidable (∃ position ∈ _, _))

instance (first second : List (Instruction M)) (concerned : M → Bool) :
    Decidable (Opposed first second concerned) :=
  inferInstanceAs (Decidable (∃ outer ∈ _, ∃ inner ∈ _, _))

omit [DecidableEq M] in
theorem mem_taken {program : List (Instruction M)} {monitor : M} :
    monitor ∈ taken program ↔ .lock monitor ∈ program := by
  simp only [taken, List.mem_filterMap]
  constructor
  · rintro ⟨instruction, isIn, isLock⟩
    cases instruction with
    | lock other =>
        cases isLock
        exact isIn
    | unlock other => cases isLock
  · exact fun isIn => ⟨_, isIn, rfl⟩

theorem Nests.mem_taken {program : List (Instruction M)} {outer inner : M}
    (nests : Nests program outer inner) : outer ∈ taken program ∧ inner ∈ taken program := by
  obtain ⟨position, -, isInner, holdsOuter⟩ := nests
  rw [Locks.mem_taken, Locks.mem_taken]
  refine ⟨?_, List.mem_of_getElem? isInner⟩
  have positive : 0 < (program.take position).count (.lock outer) := by omega
  exact List.mem_of_mem_take (List.count_pos_iff.mp positive)

theorem opposed_of_nests {first second : List (Instruction M)} {concerned : M → Bool}
    {outer inner : M} (different : outer ≠ inner) (concernsOuter : concerned outer = true)
    (concernsInner : concerned inner = true) (nestsFirst : Nests first outer inner)
    (nestsSecond : Nests second inner outer) : Opposed first second concerned :=
  ⟨outer, nestsFirst.mem_taken.1, inner, nestsFirst.mem_taken.2, different, concernsOuter,
    concernsInner, nestsFirst, nestsSecond⟩

theorem Opposed.symm {first second : List (Instruction M)} {concerned : M → Bool}
    (opposed : Opposed first second concerned) : Opposed second first concerned := by
  obtain ⟨outer, -, inner, -, different, concernsOuter, concernsInner, nestsFirst, nestsSecond⟩ :=
    opposed
  exact opposed_of_nests different.symm concernsInner concernsOuter nestsSecond nestsFirst

/-- The program that a thread has begun, and the rest that it has left. -/
def Begun (locks : Locks M) (thread : Nat) (program : List (Instruction M)) : Prop :=
  Balanced program ∧ ∃ finished, program = finished ++ locks.remaining thread

/-- A thread that holds a lock and takes another next nests them. -/
theorem Begun.nests {locks : Locks M} {thread : Nat} {program : List (Instruction M)}
    (begun : locks.Begun thread program) (settled : locks.Settled) {outer inner : M}
    (isHolder : locks.holder outer = some thread)
    (next : (locks.remaining thread).head? = some (.lock inner)) : Nests program outer inner := by
  obtain ⟨balanced, finished, rfl⟩ := begun
  obtain ⟨rest, left⟩ := List.head?_eq_some_iff.mp next
  have owed := settled.owed thread outer
  have positive := settled.taken thread outer isHolder
  have whole := balanced outer
  rw [List.count_append, List.count_append] at whole
  refine ⟨finished.length, ?_, ?_, ?_⟩
  · rw [left, List.mem_range, List.length_append, List.length_cons]
    omega
  · simp [left]
  · rw [List.take_left]
    simp only [held, isHolder, if_true] at owed
    omega

theorem Begun.advance {locks after : Locks M} {thread mover : Nat}
    {program : List (Instruction M)} (begun : locks.Begun thread program)
    (advanced : locks.advance mover = some after) : after.Begun thread program := by
  obtain ⟨balanced, finished, whole⟩ := begun
  obtain ⟨instruction, rest, left, remaining, -⟩ := advance_cases advanced
  refine ⟨balanced, ?_⟩
  by_cases same : thread = mover
  · subst same
    refine ⟨finished ++ [instruction], ?_⟩
    rw [whole, left, remaining, Function.update_self, List.append_assoc, List.singleton_append]
  · refine ⟨finished, ?_⟩
    rw [whole, remaining, Function.update_of_ne same]

/-- Two threads each hold a lock that the other takes next. -/
def BlockEachOther (locks : Locks M) (first second : M) : Prop :=
  ∃ one other, one ≠ other ∧ locks.holder first = some one ∧
    (locks.remaining one).head? = some (.lock second) ∧ locks.holder second = some other ∧
    (locks.remaining other).head? = some (.lock first)

/-- Threads that block each other have begun opposed programs. -/
theorem BlockEachOther.opposed {locks : Locks M} {first second : M} {concerned : M → Bool}
    {programs : Nat → List (Instruction M)} (blocked : locks.BlockEachOther first second)
    (settled : locks.Settled) (begun : ∀ thread, locks.Begun thread (programs thread))
    (concernsFirst : concerned first = true) (concernsSecond : concerned second = true) :
    ∃ one other, one ≠ other ∧ locks.remaining one ≠ [] ∧ locks.remaining other ≠ [] ∧
      Opposed (programs one) (programs other) concerned := by
  obtain ⟨one, other, different, holdsFirst, nextOne, holdsSecond, nextOther⟩ := blocked
  have apart : first ≠ second := by
    rintro rfl
    rw [holdsFirst, Option.some.injEq] at holdsSecond
    exact different holdsSecond
  refine ⟨one, other, different, ?_, ?_, opposed_of_nests apart concernsFirst concernsSecond
    ((begun one).nests settled holdsFirst nextOne)
    ((begun other).nests settled holdsSecond nextOther)⟩
  · intro finished
    simp [finished] at nextOne
  · intro finished
    simp [finished] at nextOther

end Nesting

end Locks

end Pthreads
