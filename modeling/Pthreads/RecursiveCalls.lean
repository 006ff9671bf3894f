import Mathlib.Data.Fintype.Card
import Mathlib.Logic.Relation

/-!
# Recursive procedures with a state

A recursive procedure that changes a state and may run out of fuel is a function into
`Option`.  This file has the loop of such a procedure over a list, the rules for what
it keeps and ensures, and relates the recursions that end to the cycles of a finite
call graph.
-/

namespace Pthreads.RecursiveCalls

section Traversals

variable {State Item Result : Type*}

/-- A loop over a list that keeps the results. -/
def traverse (visit : State → Item → Option (State × Result)) :
    State → List Item → Option (State × List Result)
  | state, [] => some (state, [])
  | state, item :: items =>
      (visit state item).bind fun first =>
        (traverse visit first.1 items).map fun rest => (rest.1, first.2 :: rest.2)

variable {visit : State → Item → Option (State × Result)} {items : List Item}

theorem traverse_cons_eq_some {state after : State} {item : Item} {results : List Result} :
    traverse visit state (item :: items) = some (after, results) ↔
      ∃ middle result others, visit state item = some (middle, result) ∧
        traverse visit middle items = some (after, others) ∧ results = result :: others := by
  simp only [traverse, Option.bind_eq_some_iff, Option.map_eq_some_iff, Prod.mk.injEq,
    Prod.exists]
  constructor
  · rintro ⟨middle, result, first, _, others, rest, rfl, rfl⟩
    exact ⟨middle, result, others, first, rest, rfl⟩
  · rintro ⟨middle, result, others, first, rest, rfl⟩
    exact ⟨middle, result, first, after, others, rest, rfl, rfl⟩

/-- A visit that succeeds more often has the same result where the first succeeds. -/
theorem traverse_mono {more : State → Item → Option (State × Result)}
    (implied : ∀ state item outcome, visit state item = some outcome →
      more state item = some outcome)
    {state : State} {outcome : State × List Result}
    (done : traverse visit state items = some outcome) :
    traverse more state items = some outcome := by
  induction items generalizing state outcome with
  | nil => exact done
  | cons item items ih =>
      obtain ⟨middle, result, others, first, rest, isResult⟩ :=
        traverse_cons_eq_some.mp (outcome.eta ▸ done)
      rw [← outcome.eta, isResult]
      exact traverse_cons_eq_some.mpr
        ⟨middle, result, others, implied _ _ _ first, ih rest, rfl⟩

theorem map_mono {short long : Option Item} {change : Item → Result} {outcome : Result}
    (implied : ∀ item, short = some item → long = some item)
    (done : short.map change = some outcome) : long.map change = some outcome := by
  obtain ⟨item, first, isOutcome⟩ := Option.map_eq_some_iff.mp done
  rw [implied item first, Option.map_some, isOutcome]

end Traversals

section Contracts

variable {State Item Result Other : Type*} {Invariant : State → Prop}

/-- Where the invariant holds the procedure succeeds, and keeps it. -/
def Succeeds (Invariant : State → Prop) (run : State → Option (State × Result)) : Prop :=
  ∀ state, Invariant state → ∃ after result, run state = some (after, result) ∧ Invariant after

/-- When the procedure succeeds, it has kept the invariant and its result is as ensured. -/
def Ensures (Invariant : State → Prop) (run : State → Option (State × Result))
    (Ensured : Result → Prop) : Prop :=
  ∀ state after result, Invariant state → run state = some (after, result) →
    Invariant after ∧ Ensured result

theorem succeeds_done (result : Result) : Succeeds Invariant fun state => some (state, result) :=
  fun state holds => ⟨state, result, rfl, holds⟩

theorem Succeeds.map {run : State → Option (State × Result)} (succeeds : Succeeds Invariant run)
    {change : State × Result → State × Other}
    (kept : ∀ done, Invariant done.1 → Invariant (change done).1) :
    Succeeds Invariant fun state => (run state).map change := by
  intro state holds
  obtain ⟨after, result, done, holds⟩ := succeeds state holds
  exact ⟨(change (after, result)).1, (change (after, result)).2,
    Option.map_eq_some_iff.mpr ⟨_, done, rfl⟩, kept (after, result) holds⟩

theorem Succeeds.bind {run : State → Option (State × Result)} (succeeds : Succeeds Invariant run)
    {next : State × Result → Option (State × Other)}
    (continues : ∀ done, Invariant done.1 →
      ∃ after result, next done = some (after, result) ∧ Invariant after) :
    Succeeds Invariant fun state => (run state).bind next := by
  intro state holds
  obtain ⟨middle, result, done, holds⟩ := succeeds state holds
  obtain ⟨after, other, more, holds⟩ := continues (middle, result) holds
  exact ⟨after, other, Option.bind_eq_some_iff.mpr ⟨_, done, more⟩, holds⟩

theorem traverse_succeeds {visit : State → Item → Option (State × Result)} {items : List Item}
    (succeeds : ∀ item ∈ items, Succeeds Invariant (visit · item)) :
    Succeeds Invariant (traverse visit · items) := by
  induction items with
  | nil => exact succeeds_done []
  | cons item items ih =>
      apply (succeeds item List.mem_cons_self).bind
      intro done holds
      refine (ih fun other isIn => succeeds other (List.mem_cons_of_mem _ isIn)).map ?_ done.1 holds
      exact fun _ holds => holds

theorem ensures_done {result : Result} {Ensured : Result → Prop} (ensured : Ensured result) :
    Ensures Invariant (fun state => some (state, result)) Ensured := by
  rintro state after _ holds done
  cases done
  exact ⟨holds, ensured⟩

theorem Ensures.map {run : State → Option (State × Result)} {Ensured : Result → Prop}
    {Finally : Other → Prop} (ensures : Ensures Invariant run Ensured)
    {change : State × Result → State × Other}
    (kept : ∀ done, Invariant done.1 → Ensured done.2 →
      Invariant (change done).1 ∧ Finally (change done).2) :
    Ensures Invariant (fun state => (run state).map change) Finally := by
  intro state after other holds done
  obtain ⟨middle, first, isOther⟩ := Option.map_eq_some_iff.mp done
  obtain ⟨holds, ensured⟩ := ensures state middle.1 middle.2 holds first
  have last := kept middle holds ensured
  rwa [isOther] at last

/-- What does not depend on the result is ensured of any other result too. -/
theorem Ensures.map_fact {run : State → Option (State × Result)} {Fact : Prop}
    (ensures : Ensures Invariant run fun _ => Fact) {change : State × Result → State × Other}
    (kept : ∀ done, Invariant done.1 → Invariant (change done).1) :
    Ensures Invariant (fun state => (run state).map change) fun _ => Fact :=
  ensures.map fun done holds fact => ⟨kept done holds, fact⟩

theorem Ensures.bind {run : State → Option (State × Result)} {Ensured : Result → Prop}
    {Finally : Other → Prop} (ensures : Ensures Invariant run Ensured)
    {next : State × Result → Option (State × Other)}
    (continues : ∀ done after other, Invariant done.1 → Ensured done.2 →
      next done = some (after, other) → Invariant after ∧ Finally other) :
    Ensures Invariant (fun state => (run state).bind next) Finally := by
  intro state after other holds done
  obtain ⟨middle, first, second⟩ := Option.bind_eq_some_iff.mp done
  obtain ⟨holds, ensured⟩ := ensures state middle.1 middle.2 holds first
  exact continues middle after other holds ensured second

theorem traverse_ensures {visit : State → Item → Option (State × Result)} {items : List Item}
    {Ensured : Item → Result → Prop}
    (ensures : ∀ item ∈ items, Ensures Invariant (visit · item) (Ensured item)) :
    Ensures Invariant (traverse visit · items) (List.Forall₂ Ensured items) := by
  induction items with
  | nil => exact ensures_done List.Forall₂.nil
  | cons item items ih =>
      apply (ensures item List.mem_cons_self).bind
      intro done after others holds ensured rest
      refine (ih fun other isIn => ensures other (List.mem_cons_of_mem _ isIn)).map ?_
        done.1 after others holds rest
      exact fun _ holds more => ⟨holds, List.Forall₂.cons ensured more⟩

theorem Ensures.weaken {run : State → Option (State × Result)} {Ensured Finally : Result → Prop}
    (ensures : Ensures Invariant run Ensured)
    (implied : ∀ result, Ensured result → Finally result) :
    Ensures Invariant run Finally := by
  intro state after result holds done
  obtain ⟨holds, ensured⟩ := ensures state after result holds done
  exact ⟨holds, implied result ensured⟩

/-- What each visit ensures of its result, the loop ensures of all its results. -/
theorem traverse_ensures_all {visit : State → Item → Option (State × Result)} {items : List Item}
    (Ensured : Result → Prop)
    (ensures : ∀ item ∈ items, Ensures Invariant (visit · item) Ensured) :
    Ensures Invariant (traverse visit · items) fun results =>
      ∀ result ∈ results, Ensured result := by
  apply (traverse_ensures ensures).weaken
  intro results ensured
  induction ensured with
  | nil => exact nofun
  | cons first _ ih => exact List.forall_mem_cons.mpr ⟨first, ih fun item isIn =>
      ensures item (List.mem_cons_of_mem _ isIn)⟩

end Contracts

section Measures

variable {Call State : Type*} {body : (Call → State → Option State) → Call → State → Option State}
  {run : Nat → Call → State → Option State}

/-- A recursion whose calls go down in a measure of the call and the state ends, if its
body does where the calls that it makes do. -/
theorem run_ends (unfolds : ∀ fuel, run (fuel + 1) = body (run fuel))
    (measure : Call → State → Nat) (Ready : Call → State → Prop)
    (Done : Call → State → State → Prop)
    (ends : ∀ recurse call state, Ready call state →
      (∀ inner now, Ready inner now → measure inner now < measure call state →
        ∃ after, recurse inner now = some after ∧ Done inner now after) →
      ∃ after, body recurse call state = some after ∧ Done call state after)
    {fuel : Nat} {call : Call} {state : State} (ready : Ready call state)
    (enough : measure call state < fuel) :
    ∃ after, run fuel call state = some after ∧ Done call state after := by
  induction fuel generalizing call state with
  | zero => exact absurd enough (Nat.not_lt_zero _)
  | succ fuel ih =>
      rw [unfolds]
      apply ends (run fuel) call state ready
      intro inner now innerReady less
      exact ih innerReady (Nat.lt_of_lt_of_le less (Nat.le_of_lt_succ enough))

end Measures

section CallGraphs

variable {Task : Type*} {calls : Task → Task → Prop}

open Relation

/-- The recursion from a task ends: it does from each task that it calls. -/
def Ends (calls : Task → Task → Prop) : Task → Prop :=
  Acc (flip calls)

theorem Ends.not_cycle {task : Task} (ends : Ends calls task) : ¬ TransGen calls task task := by
  intro cycle
  have backwards : Acc (TransGen (flip calls)) task := ends.transGen
  have again : TransGen (flip calls) task task := transGen_swap.mpr cycle
  induction backwards with
  | intro task _ ih => exact ih task again ends cycle again

theorem Ends.reaches {task other : Task} (ends : Ends calls task)
    (reaches : ReflTransGen calls task other) : Ends calls other := by
  induction reaches with
  | refl => exact ends
  | tail _ called ih => exact ih.inv called

/-- Calls that go down in rank come to no cycle. -/
theorem not_cycle_of_rank (rank : Task → Nat)
    (descends : ∀ task other, calls task other → rank other < rank task) (task : Task) :
    ¬ TransGen calls task task := by
  intro cycle
  have lower : ∀ other, TransGen calls task other → rank other < rank task := by
    intro other run
    induction run with
    | single called => exact descends _ _ called
    | tail _ called ih => exact (descends _ _ called).trans ih
  exact Nat.lt_irrefl _ (lower task cycle)

/-- In a finite call graph the recursion ends unless it comes to a cycle. -/
theorem ends_iff [Finite Task] (task : Task) :
    Ends calls task ↔ ∀ other, ReflTransGen calls task other → ¬ TransGen calls other other := by
  constructor
  · intro ends other reaches
    exact (ends.reaches reaches).not_cycle
  · intro noCycle
    -- calls between tasks that are reached, a transitive relation without loops
    let later : Task → Task → Prop := fun next other =>
      ReflTransGen calls task other ∧ TransGen calls other next
    have : IsTrans Task later :=
      ⟨fun _ _ _ second first => ⟨first.1, first.2.trans second.2⟩⟩
    have : Std.Irrefl later := ⟨fun other cycle => noCycle other cycle.1 cycle.2⟩
    have descends : ∀ other, ReflTransGen calls task other → Ends calls other := by
      intro other
      induction other using (Finite.wellFounded_of_trans_of_irrefl later).induction with
      | _ other ih =>
          intro reached
          apply Acc.intro other
          intro next called
          exact ih next ⟨reached, TransGen.single called⟩ (reached.tail called)
    exact descends task ReflTransGen.refl

end CallGraphs

end Pthreads.RecursiveCalls
