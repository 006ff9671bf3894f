import Pthreads.GuardedRuns
import Mathlib.Order.WellFounded

/-!
# What a run comes to

A goal is inevitable when every run of allowed actions comes to it, however long the run
is continued and whatever the order of its actions is.  This file defines that by
induction and derives it from a rank which every allowed action lowers.
-/

namespace Pthreads.GuardedRuns

open Relation

variable {State Action : Type*} {step : State → Action → Option State}
  {allowed : State → Action → Prop} {goal : State → Prop}

/-- Every run comes to the goal: it is reached, or an action is possible and all of them
lead on to it. -/
inductive Inevitable (step : State → Action → Option State) (allowed : State → Action → Prop)
    (goal : State → Prop) : State → Prop
  | now {state : State} (reached : goal state) : Inevitable step allowed goal state
  | later {state next : State} (possible : Moves step allowed state next)
      (leads : ∀ after, Moves step allowed state after → Inevitable step allowed goal after) :
      Inevitable step allowed goal state

/-- A goal that can be reached in every way can be reached in one. -/
theorem Inevitable.reaches {state : State} (inevitable : Inevitable step allowed goal state) :
    ∃ last, Reaches step allowed state last ∧ goal last := by
  induction inevitable with
  | now reached => exact ⟨_, ReflTransGen.refl, reached⟩
  | later possible leads ih =>
      obtain ⟨last, reached, isGoal⟩ := ih _ possible
      exact ⟨last, ReflTransGen.head possible reached, isGoal⟩

/-- A goal is inevitable if something goes on until it is reached and every action
before lowers a rank. -/
theorem inevitable_of_rank {Rank : Type*} [Preorder Rank] [WellFoundedLT Rank]
    {Invariant : State → Prop} (rank : State → Rank)
    (keeps : ∀ before action after, Invariant before → allowed before action →
      step before action = some after → Invariant after)
    (goesOn : ∀ state, Invariant state → ¬ goal state →
      ∃ action after, allowed state action ∧ step state action = some after)
    (lowers : ∀ before action after, Invariant before → ¬ goal before →
      allowed before action → step before action = some after → rank after < rank before)
    {state : State} (holds : Invariant state) : Inevitable step allowed goal state := by
  induction state using (InvImage.wf rank wellFounded_lt).induction with
  | _ state ih =>
    by_cases isGoal : goal state
    · exact Inevitable.now isGoal
    · obtain ⟨action, next, permitted, stepped⟩ := goesOn state holds isGoal
      apply Inevitable.later ⟨action, permitted, stepped⟩
      rintro after ⟨other, otherPermitted, otherStepped⟩
      apply ih after (lowers state other after holds isGoal otherPermitted otherStepped)
      exact keeps state other after holds otherPermitted otherStepped

end Pthreads.GuardedRuns
