import Pthreads.PartialFolds

/-!
# Runs that follow a plan

A plan is a computation that may fail, and a run follows it as far as it goes: where
the plan has a result, the run has a related one; where the plan fails, the run has no
result, or one that is spoilt for good.  So if related results are as they should be,
the run comes out right exactly when the plan succeeds.
-/

namespace Pthreads.PlannedRuns

open PartialFolds

variable {Plan State NextPlan Next Item : Type*}

/-- A run follows a plan. -/
structure Follows (Related : Plan → State → Prop) (Spoilt : State → Prop)
    (planned : Option Plan) (run : Option State) : Prop where
  success : ∀ plan, planned = some plan → ∃ state, run = some state ∧ Related plan state
  failure : planned = none → ∀ state, run = some state → Spoilt state

variable {Related : Plan → State → Prop} {Spoilt : State → Prop}
variable {RelatedNext : NextPlan → Next → Prop} {SpoiltNext : Next → Prop}
variable {planned : Option Plan} {run : Option State}

theorem follows_some {plan : Plan} {state : State} (related : Related plan state) :
    Follows Related Spoilt (some plan) (some state) where
  success other same := by
    cases Option.some.inj same
    exact ⟨state, rfl, related⟩
  failure isNone := by cases isNone

theorem follows_none (spoilt : ∀ state, run = some state → Spoilt state) :
    Follows Related Spoilt none run where
  success _ same := by cases same
  failure _ := spoilt

/-- What is known of the result of a run may be added. -/
theorem Follows.knowing (follows : Follows Related Spoilt planned run) {Known : State → Prop}
    (known : ∀ state, run = some state → Known state) :
    Follows (fun plan state => Related plan state ∧ Known state)
      (fun state => Spoilt state ∧ Known state) planned run where
  success plan isPlanned := by
    obtain ⟨state, isState, related⟩ := follows.success plan isPlanned
    exact ⟨state, isState, related, known state isState⟩
  failure isNone state isState := ⟨follows.failure isNone state isState, known state isState⟩

theorem Follows.also (follows : Follows Related Spoilt planned run) {Known : State → Prop}
    (known : ∀ state, run = some state → Known state) :
    Follows (fun plan state => Related plan state ∧ Known state) Spoilt planned run where
  success := (follows.knowing known).success
  failure := follows.failure

/-- What is known of the result of a plan may be added. -/
theorem Follows.alsoPlanned (follows : Follows Related Spoilt planned run) {Known : Plan → Prop}
    (known : ∀ plan, planned = some plan → Known plan) :
    Follows (fun plan state => Related plan state ∧ Known plan) Spoilt planned run where
  success plan isPlanned := by
    obtain ⟨state, isState, related⟩ := follows.success plan isPlanned
    exact ⟨state, isState, related, known plan isPlanned⟩
  failure := follows.failure

/-- The relations may be weakened, and the result of the plan be read in another way. -/
theorem Follows.mapPlan (follows : Follows Related Spoilt planned run)
    {RelatedLater : NextPlan → State → Prop} {SpoiltLater : State → Prop} {next : Plan → NextPlan}
    (relates : ∀ plan state, Related plan state → RelatedLater (next plan) state)
    (spoils : ∀ state, Spoilt state → SpoiltLater state) :
    Follows RelatedLater SpoiltLater (planned.map next) run where
  success later isLater := by
    obtain ⟨plan, isPlanned, rfl⟩ := Option.map_eq_some_iff.mp isLater
    obtain ⟨state, isState, related⟩ := follows.success plan isPlanned
    exact ⟨state, isState, relates plan state related⟩
  failure isNone state isState :=
    spoils state (follows.failure (Option.map_eq_none_iff.mp isNone) state isState)

theorem Follows.bind (first : Follows Related Spoilt planned run)
    {next : Plan → Option NextPlan} {step : State → Option Next}
    (second : ∀ plan state, Related plan state →
      Follows RelatedNext SpoiltNext (next plan) (step state))
    (stays : ∀ state after, Spoilt state → step state = some after → SpoiltNext after) :
    Follows RelatedNext SpoiltNext (planned.bind next) (run.bind step) := by
  cases isPlanned : planned with
  | none =>
    apply follows_none
    intro after done
    obtain ⟨state, isState, last⟩ := Option.bind_eq_some_iff.mp done
    exact stays state after (first.failure isPlanned state isState) last
  | some plan =>
    obtain ⟨state, isState, related⟩ := first.success plan isPlanned
    rw [isState]
    exact second plan state related

theorem Follows.map (first : Follows Related Spoilt planned run)
    {next : Plan → NextPlan} {step : State → Next}
    (second : ∀ plan state, Related plan state → RelatedNext (next plan) (step state))
    (stays : ∀ state, Spoilt state → SpoiltNext (step state)) :
    Follows RelatedNext SpoiltNext (planned.map next) (run.map step) := by
  rw [Option.map_eq_bind, Option.map_eq_bind]
  apply first.bind
  · intro plan state related
    exact follows_some (second plan state related)
  · rintro state after spoilt ⟨⟩
    exact stays state spoilt

/-- The run may do more than its plan says. -/
theorem Follows.mapRun (first : Follows Related Spoilt planned run)
    {RelatedNext : Plan → Next → Prop} {step : State → Next}
    (second : ∀ plan state, Related plan state → RelatedNext plan (step state))
    (stays : ∀ state, Spoilt state → SpoiltNext (step state)) :
    Follows RelatedNext SpoiltNext planned (run.map step) where
  success plan isPlanned := by
    obtain ⟨state, isState, related⟩ := first.success plan isPlanned
    exact ⟨step state, congrArg (Option.map step) isState, second plan state related⟩
  failure isNone after done := by
    obtain ⟨state, isState, rfl⟩ := Option.map_eq_some_iff.mp done
    exact stays state (first.failure isNone state isState)

theorem Follows.ite {condition : Prop} [Decidable condition] {other : Option Plan}
    {otherRun : Option State} (holds : Follows Related Spoilt planned run)
    (fails : Follows Related Spoilt other otherRun) :
    Follows Related Spoilt (if condition then planned else other)
      (if condition then run else otherRun) := by
  split
  · exact holds
  · exact fails

/-- A loop follows its plan when its body does. -/
theorem follows_foldlM {body : Plan → Item → Option Plan} {step : State → Item → Option State}
    {items : List Item}
    (each : ∀ item ∈ items, ∀ plan state, Related plan state →
      Follows Related Spoilt (body plan item) (step state item))
    (stays : ∀ item ∈ items, ∀ state after, Spoilt state → step state item = some after →
      Spoilt after)
    {plan : Plan} {state : State} (related : Related plan state) :
    Follows Related Spoilt (items.foldlM body plan) (items.foldlM step state) := by
  induction items generalizing plan state with
  | nil => exact follows_some related
  | cons item items ih =>
    rw [List.foldlM_cons, List.foldlM_cons]
    apply (each item List.mem_cons_self plan state related).bind
    · intro plan state related
      apply ih _ _ related
      · exact fun other isIn => each other (List.mem_cons_of_mem _ isIn)
      · exact fun other isIn => stays other (List.mem_cons_of_mem _ isIn)
    · intro state after spoilt done
      apply foldlM_keeps _ done spoilt
      intro middle after spoilt other isIn done
      exact stays other (List.mem_cons_of_mem _ isIn) middle after spoilt done

/-- The same for a loop that counts down, with a relation for each number. -/
theorem follows_countDown {At : Nat → Plan → State → Prop} {SpoiltAt : Nat → State → Prop}
    {body : Nat → Plan → Option Plan} {step : Nat → State → Option State}
    (each : ∀ number plan state, At (number + 1) plan state →
      Follows (At number) (SpoiltAt number) (body number plan) (step number state))
    (stays : ∀ number state after, SpoiltAt (number + 1) state →
      step number state = some after → SpoiltAt number after)
    {number : Nat} {plan : Plan} {state : State} (related : At number plan state) :
    Follows (At 0) (SpoiltAt 0) (countDown body number plan) (countDown step number state) := by
  have spoils : ∀ number state after, SpoiltAt number state →
      countDown step number state = some after → SpoiltAt 0 after := by
    intro number
    induction number with
    | zero =>
      rintro state after spoilt ⟨⟩
      exact spoilt
    | succ number ih =>
      intro state after spoilt done
      obtain ⟨middle, first, later⟩ := Option.bind_eq_some_iff.mp done
      exact ih middle after (stays number state middle spoilt first) later
  induction number generalizing plan state with
  | zero => exact follows_some related
  | succ number ih =>
    apply (each number plan state related).bind
    · intro plan state related
      exact ih related
    · exact spoils number

end Pthreads.PlannedRuns
