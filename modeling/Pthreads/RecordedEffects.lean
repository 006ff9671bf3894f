import Mathlib.Data.List.Infix

/-!
# Effects that are recorded before they are performed

A recursion that performs effects on one part of its state, and for everything else does
not depend on that part, can be run in two stages: first a run that only records the
effects, then the effects one after the other.  Where one of them does not end, neither
does the recursion.
-/

namespace Pthreads.RecordedEffects

/-- A kind of state with a part of any type, which can be exchanged. -/
class Holding (Walk : Type → Type) where
  held : {Part : Type} → Walk Part → Part
  replace : {Part Other : Type} → Walk Part → Other → Walk Other
  held_replace : ∀ {Part Other : Type} (state : Walk Part) (other : Other),
    held (replace state other) = other
  replace_replace : ∀ {Part Other Third : Type} (state : Walk Part) (other : Other)
    (third : Third), replace (replace state other) third = replace state third

export Holding (held replace held_replace replace_replace)

/-- The part alone. -/
abbrev Alone (Part : Type) : Type := Part

instance : Holding Alone where
  held part := part
  replace _ other := other
  held_replace _ _ := rfl
  replace_replace _ _ _ := rfl

/-- A state with a result beside it. -/
abbrev Beside (Walk : Type → Type) (Result Part : Type) : Type := Walk Part × Result

instance {Walk : Type → Type} [Holding Walk] {Result : Type} : Holding (Beside Walk Result) where
  held state := held state.1
  replace state other := (replace state.1 other, state.2)
  held_replace state other := held_replace state.1 other
  replace_replace state other third := by
    dsimp only
    rw [replace_replace]

section Mirrors

variable {Walk Further : Type → Type} [Holding Walk] [Holding Further] {Part Item : Type}

/-- The effect is recorded. -/
def record (items : List Item) (item : Item) : Option (List Item) :=
  some (items ++ [item])

variable (Walk) (perform : Part → Item → Option Part) (initially : Part)

/-- As long as the effects that have been recorded can be performed, the part of the
recursion that performs them does what the part that records them does. -/
def Mirrors (before : List Item) (recorded : Option (Walk (List Item)))
    (performed : Part → Option (Walk Part)) : Prop :=
  ∀ after, recorded = some after → before <+: held after ∧
    ∀ part, before.foldlM perform initially = some part →
      performed part = ((held after).foldlM perform initially).map (replace after)

variable {Walk} {perform initially} {before : List Item} {recorded : Option (Walk (List Item))}
  {performed : Part → Option (Walk Part)}

/-- Where some effects cannot be performed, more cannot. -/
theorem foldlM_none_mono {few many : List Item} (begins : few <+: many)
    (failed : few.foldlM perform initially = none) :
    many.foldlM perform initially = none := by
  obtain ⟨others, rfl⟩ := begins
  rw [List.foldlM_append, failed]
  rfl

/-- A part without effects. -/
theorem mirrors_some {state : Walk (List Item)} (same : held state = before)
    (agrees : ∀ part, performed part = some (replace state part)) :
    Mirrors Walk perform initially before (some state) performed := by
  rintro after ⟨⟩
  rw [same]
  refine ⟨List.prefix_refl _, ?_⟩
  intro part done
  rw [agrees, done]
  rfl

theorem mirrors_none : Mirrors Walk perform initially before (none : Option (Walk (List Item)))
    performed :=
  fun after absent => absurd absent (Option.some_ne_none after).symm

theorem Mirrors.bind {next : Walk (List Item) → Option (Further (List Item))}
    {nextPerformed : Walk Part → Option (Further Part)}
    (first : Mirrors Walk perform initially before recorded performed)
    (second : ∀ middle, Mirrors Further perform initially (held middle) (next middle)
      fun part => nextPerformed (replace middle part)) :
    Mirrors Further perform initially before (recorded.bind next)
      fun part => (performed part).bind nextPerformed := by
  intro after done
  obtain ⟨middle, isMiddle, isAfter⟩ := Option.bind_eq_some_iff.mp done
  obtain ⟨few, agrees⟩ := first middle isMiddle
  obtain ⟨more, agreesNext⟩ := second middle after isAfter
  refine ⟨few.trans more, ?_⟩
  intro part isPart
  dsimp only
  rw [agrees part isPart]
  cases between : (held middle).foldlM perform initially with
  | none =>
    rw [foldlM_none_mono more between]
    rfl
  | some later => exact agreesNext later between

theorem Mirrors.map {change : Walk (List Item) → Further (List Item)}
    {changePerformed : Walk Part → Further Part}
    (first : Mirrors Walk perform initially before recorded performed)
    (same : ∀ middle, held (change middle) = held middle)
    (agrees : ∀ middle part,
      changePerformed (replace middle part) = replace (change middle) part) :
    Mirrors Further perform initially before (recorded.map change)
      fun part => (performed part).map changePerformed := by
  intro after done
  obtain ⟨middle, isMiddle, rfl⟩ := Option.map_eq_some_iff.mp done
  obtain ⟨few, isPerformed⟩ := first middle isMiddle
  rw [same]
  refine ⟨few, ?_⟩
  intro part isPart
  dsimp only
  rw [isPerformed part isPart, Option.map_map]
  exact congrArg (Option.map · _) (funext fun later => agrees middle later)

theorem Mirrors.congr {other : Option (Walk (List Item))} {others : Part → Option (Walk Part)}
    (mirrors : Mirrors Walk perform initially before recorded performed) (same : other = recorded)
    (sames : ∀ part, others part = performed part) :
    Mirrors Walk perform initially before other others := by
  rw [same, funext sames]
  exact mirrors

theorem Mirrors.ite {condition : Prop} [Decidable condition]
    {other : Option (Walk (List Item))} {others : Part → Option (Walk Part)}
    (holds : condition → Mirrors Walk perform initially before recorded performed)
    (fails : ¬ condition → Mirrors Walk perform initially before other others) :
    Mirrors Walk perform initially before (if condition then recorded else other)
      fun part => if condition then performed part else others part := by
  split
  · next isTrue => exact (holds isTrue).congr rfl fun part => rfl
  · next isFalse => exact (fails isFalse).congr rfl fun part => rfl

/-- One effect. -/
theorem mirrors_effect (state : Walk (List Item)) (item : Item) :
    Mirrors Walk perform initially (held state) ((record (held state) item).map (replace state))
      fun part => (perform part item).map (replace state) := by
  rintro after ⟨⟩
  rw [held_replace]
  refine ⟨List.prefix_append _ _, ?_⟩
  intro part done
  have single : [item].foldlM perform part = perform part item :=
    Option.bind_fun_some (perform part item)
  have same : ∀ later : Part, replace (replace state (held state ++ [item])) later =
      replace state later := replace_replace state _
  rw [List.foldlM_append, done, funext same]
  exact congrArg (Option.map (replace state)) single.symm

theorem mirrors_alone (items : List Item) (item : Item) :
    Mirrors Alone perform initially items (record items item) fun part => perform part item := by
  rintro after ⟨⟩
  refine ⟨List.prefix_append _ _, ?_⟩
  intro part done
  have single : (items ++ [item]).foldlM perform initially = perform part item := by
    rw [List.foldlM_append, done]
    exact Option.bind_fun_some (perform part item)
  exact single.symm.trans (Option.map_id' ..).symm

theorem Mirrors.foldlM {Element : Type}
    {body : Walk (List Item) → Element → Option (Walk (List Item))}
    {bodyPerformed : Walk Part → Element → Option (Walk Part)}
    (mirrors : ∀ state element, Mirrors Walk perform initially (held state) (body state element)
      fun part => bodyPerformed (replace state part) element)
    (elements : List Element) (state : Walk (List Item)) :
    Mirrors Walk perform initially (held state) (elements.foldlM body state)
      fun part => elements.foldlM bodyPerformed (replace state part) := by
  induction elements generalizing state with
  | nil => exact mirrors_some rfl fun _ => rfl
  | cons element elements ih => exact (mirrors state element).bind ih

/-- The recursion ends when the effects that it records can be performed. -/
theorem Mirrors.performs {after : Walk (List Item)}
    (mirrors : Mirrors Walk perform initially [] recorded performed)
    (done : recorded = some after) :
    performed initially = ((held after).foldlM perform initially).map (replace after) :=
  (mirrors after done).2 initially rfl

end Mirrors

end Pthreads.RecordedEffects
