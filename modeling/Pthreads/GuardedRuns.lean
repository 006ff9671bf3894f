import Mathlib.Logic.Relation

/-!
# Runs of partial step functions

A concurrent system is given by a partial step function: an action names the
party that moves together with the choices the environment makes for it, and
an action that is not enabled has no successor.  A run may also be restricted
by a side condition on each action in the state where it is taken.  This file
fixes reachability along such runs, the induction rule for invariants, and the
passage from an explicit list of actions to a reachability proof.
-/

namespace Pthreads.GuardedRuns

open Relation

variable {State Action : Type*}

/-- One enabled action whose side condition holds where it is taken. -/
def Moves (step : State → Action → Option State)
    (allowed : State → Action → Prop) (before after : State) : Prop :=
  ∃ action, allowed before action ∧ step before action = some after

/-- Reachability along runs all of whose actions meet the side condition. -/
abbrev Reaches (step : State → Action → Option State)
    (allowed : State → Action → Prop) : State → State → Prop :=
  ReflTransGen (Moves step allowed)

/-- The side condition of an unrestricted run. -/
def anyAction (_ : State) (_ : Action) : Prop := True

/-- A property kept by every allowed step is kept by every run. -/
theorem Reaches.preserves {step : State → Action → Option State}
    {allowed : State → Action → Prop} {Invariant : State → Prop}
    (keeps : ∀ before action after, Invariant before →
      allowed before action → step before action = some after →
        Invariant after)
    {first last : State} (reached : Reaches step allowed first last)
    (initially : Invariant first) : Invariant last := by
  induction reached with
  | refl => exact initially
  | tail _ moved ih =>
      obtain ⟨action, permitted, stepped⟩ := moved
      exact keeps _ action _ ih permitted stepped

/-- A run that meets a side condition meets every weaker one. -/
theorem Reaches.weaken {step : State → Action → Option State}
    {allowed weaker : State → Action → Prop}
    (implied : ∀ state action, allowed state action → weaker state action)
    {first last : State} (reached : Reaches step allowed first last) :
    Reaches step weaker first last := by
  induction reached with
  | refl => exact ReflTransGen.refl
  | tail _ moved ih =>
      obtain ⟨action, permitted, stepped⟩ := moved
      exact ih.tail ⟨action, implied _ action permitted, stepped⟩

/-- Perform a list of actions in order. -/
def execute (step : State → Action → Option State) :
    State → List Action → Option State
  | state, [] => some state
  | state, action :: actions =>
      match step state action with
      | none => none
      | some next => execute step next actions

/-- Every action of the list is allowed in the state where it is taken. -/
def Admits (step : State → Action → Option State)
    (allowed : State → Action → Prop) : State → List Action → Prop
  | _, [] => True
  | state, action :: actions =>
      allowed state action ∧
        match step state action with
        | none => True
        | some next => Admits step allowed next actions

instance Admits.decidable {step : State → Action → Option State}
    {allowed : State → Action → Prop} [∀ state action, Decidable (allowed state action)] :
    ∀ (state : State) (actions : List Action),
      Decidable (Admits step allowed state actions)
  | _, [] => isTrue trivial
  | state, action :: actions =>
      match stepped : step state action with
      | none => decidable_of_iff (allowed state action) (by simp [Admits, stepped])
      | some next =>
          have : Decidable (Admits step allowed next actions) :=
            Admits.decidable next actions
          decidable_of_iff
            (allowed state action ∧ Admits step allowed next actions)
            (by simp [Admits, stepped])

theorem reaches_of_execute {step : State → Action → Option State}
    {allowed : State → Action → Prop} {actions : List Action}
    {first last : State} (admitted : Admits step allowed first actions)
    (executed : execute step first actions = some last) :
    Reaches step allowed first last := by
  induction actions generalizing first with
  | nil =>
      cases executed
      exact ReflTransGen.refl
  | cons action actions ih =>
      simp only [execute] at executed
      obtain ⟨permitted, later⟩ := admitted
      cases stepped : step first action with
      | none => simp [stepped] at executed
      | some next =>
          simp only [stepped] at executed later
          exact ReflTransGen.head ⟨action, permitted, stepped⟩
            (ih later executed)

/-- An unrestricted run admits every list of actions. -/
theorem admits_anyAction (step : State → Action → Option State)
    (state : State) (actions : List Action) :
    Admits step anyAction state actions := by
  induction actions generalizing state with
  | nil => trivial
  | cons action actions ih =>
      refine ⟨trivial, ?_⟩
      cases step state action with
      | none => trivial
      | some next => exact ih next

end Pthreads.GuardedRuns
