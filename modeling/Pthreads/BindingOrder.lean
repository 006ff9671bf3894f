import Mathlib.Data.List.Range
import Pthreads.PreparationSteps

/-!
# The order of the late bindings

In which order a thread that starts prepares and binds its classes depends on the class
table of the creator, on its flags and on the objects that are copied, not on any table
of static members.  Here the recursion through the classes runs without such tables.
It stops where a class would be bound before one of its ancestors, or where its static
members would be used while they are being initialised.
-/

namespace Pthreads.ClassPreparation

variable {ClassId Value : Type*} (creator : ObjectCreator ClassId Value)

/-- The classes whose static members are being initialised, and those for which that is
done. -/
structure Progress (ClassId : Type*) where
  opening : List ClassId
  bound : List ClassId

section Order

/-- The static members that a class declares still have their defaults in the creator, and
there is no object among them. -/
def KeepsDefaults (candidate : ClassId) : Prop :=
  ∀ current ∈ (creator.entry candidate).currentStatics,
    ∀ slot ∈ List.range (creator.entry candidate).count, creator.inherited candidate ≤ slot →
      (creator.entry candidate).defaultStatics[slot]? =
          some (creator.copiedStatic current slot) ∧
        creator.objectsAt current slot = []

/-- A class may be used as an ancestor: it has no static members, or it has been bound,
or it is used in place and its defaults are as good. -/
def Settled (bound : List ClassId) (candidate : ClassId) : Prop :=
  (creator.entry candidate).count = 0 ∨ candidate ∈ bound ∨
    ((creator.entry candidate).origin ≠ .user ∧ KeepsDefaults creator candidate)

instance [DecidableEq Value] : DecidablePred (KeepsDefaults creator) := by
  intro candidate
  unfold KeepsDefaults
  infer_instance

instance [DecidableEq ClassId] [DecidableEq Value] (bound : List ClassId) :
    DecidablePred (Settled creator bound) := by
  intro candidate
  unfold Settled
  infer_instance

variable [DecidableEq ClassId] [DecidableEq Value]

/-- The objects of a slot that the class declares are connected while its static members are
being initialised. -/
def planSlot
    (connect : ClassId → Prepared ClassId (Progress ClassId) →
      Option (Prepared ClassId (Progress ClassId)))
    (candidate : ClassId) (current : List Value) (slot : Nat)
    (plan : Prepared ClassId (Progress ClassId)) :
    Option (Prepared ClassId (Progress ClassId)) :=
  if slot < creator.inherited candidate then some plan
  else connectEach connect (creator.objectsAt current slot) plan

/-- The static members of a class are initialised after those of its ancestors. -/
def planBinding
    (connect : ClassId → Prepared ClassId (Progress ClassId) →
      Option (Prepared ClassId (Progress ClassId)))
    (candidate : ClassId) (plan : Prepared ClassId (Progress ClassId)) :
    Option (Prepared ClassId (Progress ClassId)) :=
  match (creator.entry candidate).currentStatics with
  | none => some plan
  | some current =>
      if candidate ∈ plan.statics.opening ∨ candidate ∈ plan.statics.bound then some plan
      else if ∀ ancestor ∈ (creator.entry candidate).lineage,
          Settled creator plan.statics.bound ancestor then
        let opened := { plan.statics with opening := candidate :: plan.statics.opening }
        (PartialFolds.countDown (planSlot creator connect candidate current)
          (creator.entry candidate).count { plan with statics := opened }).map fun after =>
            { after with statics := ⟨plan.statics.opening, after.statics.bound ++ [candidate]⟩ }
      else none

/-- The engine uses the defaults of a class when it creates the first object of it, if the
class has constant expressions. -/
def planObject (candidate : ClassId) (progress : Progress ClassId) :
    Option (Progress ClassId) :=
  let entry := creator.entry candidate
  if entry.origin = .user ∨ entry.origin = .internal ∨ entry.currentStatics.isNone = true ∨
      creator.constantExpressions candidate = false ∨ candidate ∈ progress.bound then
    some progress
  else if candidate ∈ progress.opening then
    if creator.memberExpressions candidate then none else some progress
  else if ∀ other ∈ candidate :: entry.lineage,
      Settled creator progress.bound other then some progress
  else none

/-- The recursion without tables of static members. -/
def orderBinding : Binding ClassId (Progress ClassId) where
  lateBindings := planBinding creator
  objectInit := planObject creator

/-- A thread that starts, without tables of static members. -/
def plannedStartup (fuel threadOptions : Nat) (threadClass : ClassId) :
    Option (Prepared ClassId (Progress ClassId)) :=
  startup creator (orderBinding creator)
    (createEntry creator (orderBinding creator) fuel) threadOptions threadClass
    { table := resident creator.toCreator, functions := [], statics := ⟨[], []⟩ }

/-- Each class that is initialised in the creator is bound after its ancestors, as far as
these matter. -/
def BoundInOrder (threadOptions : Nat) (threadClass : ClassId) : Prop :=
  ∃ fuel, (plannedStartup creator fuel threadOptions threadClass).isSome

end Order

/-- What complete calls do: no class stays half initialised, and the classes that have been
bound stay so. -/
structure Advances (plan after : Prepared ClassId (Progress ClassId)) : Prop where
  table : plan.table ⊆ after.table
  opening : after.statics.opening = plan.statics.opening
  bound : plan.statics.bound ⊆ after.statics.bound

theorem Advances.refl (plan : Prepared ClassId (Progress ClassId)) : Advances plan plan :=
  ⟨List.Subset.refl _, rfl, List.Subset.refl _⟩

theorem Advances.trans {first second third : Prepared ClassId (Progress ClassId)}
    (one : Advances first second) (other : Advances second third) : Advances first third :=
  ⟨List.Subset.trans one.table other.table, other.opening.trans one.opening,
    List.Subset.trans one.bound other.bound⟩

theorem advances_foldlM {Item : Type*}
    {body : Prepared ClassId (Progress ClassId) → Item →
      Option (Prepared ClassId (Progress ClassId))} {items : List Item}
    (each : ∀ item, Does Advances fun plan => body plan item) :
    Does Advances fun plan => items.foldlM body plan := by
  intro plan after done
  have since : ∀ middle after, Advances plan middle → ∀ item ∈ items,
      body middle item = some after → Advances plan after :=
    fun middle after before item _ moved => before.trans (each item middle after moved)
  exact PartialFolds.foldlM_keeps since done (.refl plan)

section Bound

variable [DecidableEq ClassId] [DecidableEq Value] {creator}
  {connect : ClassId → Prepared ClassId (Progress ClassId) →
    Option (Prepared ClassId (Progress ClassId))}
  (connects : ∀ candidate, Does Advances (connect candidate))
include connects

omit [DecidableEq ClassId] [DecidableEq Value] in
theorem advances_countDown {candidate : ClassId} {current : List Value} (left : Nat) :
    Does Advances
      (PartialFolds.countDown (planSlot creator connect candidate current) left) := by
  induction left with
  | zero =>
    rintro plan after ⟨⟩
    exact .refl plan
  | succ left ih =>
    intro plan after done
    obtain ⟨middle, first, others⟩ := Option.bind_eq_some_iff.mp done
    refine Advances.trans ?_ (ih middle after others)
    unfold planSlot at first
    split at first
    · cases Option.some.inj first
      exact .refl plan
    · exact advances_foldlM connects plan middle first

theorem advances_planBinding (candidate : ClassId) :
    Does Advances (planBinding creator connect candidate) := by
  intro plan after done
  unfold planBinding at done
  split at done
  · cases Option.some.inj done
    exact .refl plan
  · split at done
    · cases Option.some.inj done
      exact .refl plan
    · split at done
      · obtain ⟨last, loop, rfl⟩ := Option.map_eq_some_iff.mp done
        have advanced := advances_countDown connects _ _ last loop
        refine ⟨advanced.table, rfl, ?_⟩
        exact List.Subset.trans advanced.bound (List.subset_append_left _ _)
      · cases done

omit connects in
theorem eq_of_planObject {candidate : ClassId} {progress after : Progress ClassId}
    (done : planObject creator candidate progress = some after) :
    after = progress := by
  unfold planObject at done
  dsimp only at done
  split at done
  · exact (Option.some.inj done).symm
  · split at done
    · split at done
      · cases done
      · exact (Option.some.inj done).symm
    · split at done
      · exact (Option.some.inj done).symm
      · cases done

omit connects in
theorem keeps_advances (creator : ObjectCreator ClassId Value) :
    Keeps (orderBinding creator) (@Advances ClassId) where
  refl := .refl
  trans := .trans
  insert _ _ := ⟨subset_insertKey _ _, rfl, List.Subset.refl _⟩
  function _ _ := ⟨List.Subset.refl _, rfl, List.Subset.refl _⟩
  objectInit _ plan statics done := by
    cases eq_of_planObject done
    exact .refl plan
  lateBindings _ := advances_planBinding

end Bound

section Completion

/-- A class whose static members a thread has to set up. -/
def ObjectCreator.initialised (candidate : ClassId) : Prop :=
  (creator.entry candidate).origin ≠ .internal ∧
    (creator.entry candidate).currentStatics.isSome

/-- What calls with late bindings do: the classes that come into the table are bound. -/
def Completes (plan after : Prepared ClassId (Progress ClassId)) : Prop :=
  ∀ candidate ∈ after.table, candidate ∈ plan.table ∨
    (creator.initialised candidate → candidate ∈ after.statics.bound)

variable {creator}

theorem Completes.trans {first second third : Prepared ClassId (Progress ClassId)}
    (one : Completes creator first second) (other : Completes creator second third)
    (later : Advances second third) : Completes creator first third := by
  intro candidate isIn
  rcases other candidate isIn with earlier | bound
  · rcases one candidate earlier with before | bound
    · exact Or.inl before
    · exact Or.inr fun initialised => later.bound (bound initialised)
  · exact Or.inr bound

theorem Completes.refl (plan : Prepared ClassId (Progress ClassId)) :
    Completes creator plan plan :=
  fun _ isIn => Or.inl isIn

/-- A call with late bindings, from a plan where only classes of the table are being
initialised. -/
def DoesComplete (creator : ObjectCreator ClassId Value)
    (call : Prepared ClassId (Progress ClassId) → Option (Prepared ClassId (Progress ClassId))) :
    Prop :=
  ∀ plan after, plan.statics.opening ⊆ plan.table → call plan = some after →
    Advances plan after ∧ Completes creator plan after

theorem Advances.within {plan after : Prepared ClassId (Progress ClassId)}
    (advances : Advances plan after) (within : plan.statics.opening ⊆ plan.table) :
    after.statics.opening ⊆ after.table := by
  rw [advances.opening]
  exact List.Subset.trans within advances.table

theorem DoesComplete.bind
    {first second : Prepared ClassId (Progress ClassId) →
      Option (Prepared ClassId (Progress ClassId))}
    (one : DoesComplete creator first) (other : DoesComplete creator second) :
    DoesComplete creator fun plan => (first plan).bind second := by
  intro plan after within done
  obtain ⟨middle, moved, last⟩ := Option.bind_eq_some_iff.mp done
  have here := one plan middle within moved
  have there := other middle after (here.1.within within) last
  exact ⟨here.1.trans there.1, here.2.trans there.2 there.1⟩

theorem DoesComplete.foldlM {Item : Type*}
    {body : Prepared ClassId (Progress ClassId) → Item →
      Option (Prepared ClassId (Progress ClassId))}
    (each : ∀ item, DoesComplete creator fun plan => body plan item) (items : List Item) :
    DoesComplete creator fun plan => items.foldlM body plan := by
  induction items with
  | nil =>
    rintro plan after - ⟨⟩
    exact ⟨.refl plan, .refl plan⟩
  | cons item items ih => exact (each item).bind ih

/-- A part of the last pass: so many classes have been visited. -/
structure Passed (creator : ObjectCreator ClassId Value)
    (plan : Prepared ClassId (Progress ClassId)) (visited : List ClassId)
    (later : Prepared ClassId (Progress ClassId)) : Prop where
  advances : Advances plan later
  completes : Completes creator plan later
  bound : ∀ candidate ∈ visited, creator.initialised candidate →
    candidate ∈ later.statics.bound

theorem Passed.step {plan later after : Prepared ClassId (Progress ClassId)}
    {visited : List ClassId} {candidate : ClassId} (passed : Passed creator plan visited later)
    (advances : Advances later after) (completes : Completes creator later after)
    (bound : creator.initialised candidate → candidate ∈ after.statics.bound) :
    Passed creator plan (visited ++ [candidate]) after where
  advances := passed.advances.trans advances
  completes := passed.completes.trans completes advances
  bound other isIn initialised := by
    rcases List.mem_append.mp isIn with before | here
    · exact advances.bound (passed.bound other before initialised)
    · rw [List.mem_singleton.mp here] at initialised ⊢
      exact bound initialised

variable {connect : ClassId → Prepared ClassId (Progress ClassId) →
    Option (Prepared ClassId (Progress ClassId))}

theorem completes_countDown (connects : ∀ candidate, DoesComplete creator (connect candidate))
    {candidate : ClassId} {current : List Value} (left : Nat) :
    DoesComplete creator
      (PartialFolds.countDown (planSlot creator connect candidate current) left) := by
  induction left with
  | zero =>
    rintro plan after - ⟨⟩
    exact ⟨.refl plan, .refl plan⟩
  | succ left ih =>
    apply DoesComplete.bind _ ih
    intro plan after within done
    unfold planSlot at done
    split at done
    · cases Option.some.inj done
      exact ⟨.refl plan, .refl plan⟩
    · exact DoesComplete.foldlM connects _ plan after within done

variable [DecidableEq ClassId] [DecidableEq Value]

/-- Late bindings of a class of the table. -/
theorem completes_planBinding (connects : ∀ candidate, DoesComplete creator (connect candidate))
    {candidate : ClassId} {plan after : Prepared ClassId (Progress ClassId)}
    (within : plan.statics.opening ⊆ plan.table) (isIn : candidate ∈ plan.table)
    (done : planBinding creator connect candidate plan = some after) :
    Advances plan after ∧ Completes creator plan after := by
  unfold planBinding at done
  split at done
  · cases Option.some.inj done
    exact ⟨.refl plan, .refl plan⟩
  · split at done
    · cases Option.some.inj done
      exact ⟨.refl plan, .refl plan⟩
    · split at done
      · obtain ⟨last, loop, rfl⟩ := Option.map_eq_some_iff.mp done
        obtain ⟨advanced, completed⟩ := completes_countDown connects _ _ last
          (List.cons_subset.mpr ⟨isIn, within⟩) loop
        constructor
        · exact ⟨advanced.table, rfl,
            List.Subset.trans advanced.bound (List.subset_append_left _ _)⟩
        · intro other isOther
          apply (completed other isOther).imp_right
          exact fun bound initialised => List.mem_append_left _ (bound initialised)
      · cases done

/-- After its late bindings a class is bound. -/
theorem bound_of_planBinding {candidate : ClassId}
    {plan after : Prepared ClassId (Progress ClassId)}
    (outside : candidate ∉ plan.statics.opening) (initialised : creator.initialised candidate)
    (done : planBinding creator connect candidate plan = some after) :
    candidate ∈ after.statics.bound := by
  obtain ⟨current, found⟩ := Option.isSome_iff_exists.mp initialised.2
  unfold planBinding at done
  simp only [found] at done
  split at done
  · next early =>
    cases Option.some.inj done
    exact early.resolve_left outside
  · split at done
    · obtain ⟨last, _, rfl⟩ := Option.map_eq_some_iff.mp done
      exact List.mem_append_right _ (List.mem_singleton_self candidate)
    · cases done

variable {create : ClassId → Bool → Prepared ClassId (Progress ClassId) →
    Option (Prepared ClassId (Progress ClassId))}
  (creates : ∀ candidate, DoesComplete creator (create candidate true))
include creates

theorem completes_connectObject (candidate : ClassId) :
    DoesComplete creator (connectObject (orderBinding creator) create candidate) := by
  apply (creates candidate).bind
  intro plan after _ done
  obtain ⟨progress, planned, rfl⟩ := Option.map_eq_some_iff.mp done
  cases eq_of_planObject planned
  exact ⟨.refl plan, .refl plan⟩

theorem completes_prepareClosures :
    DoesComplete creator
      (prepareClosures creator (orderBinding creator) create) := by
  apply DoesComplete.foldlM
  intro function plan after within done
  dsimp only at done
  unfold prepareFunction at done
  split at done
  · cases Option.some.inj done
    exact ⟨.refl plan, .refl plan⟩
  · obtain ⟨middle, connected, last⟩ := Option.map_eq_some_iff.mp done
    obtain ⟨advanced, completed⟩ :=
      DoesComplete.foldlM (completes_connectObject creates) _ plan middle within connected
    rw [← last]
    split
    · exact ⟨advanced, completed⟩
    · exact ⟨⟨advanced.table, advanced.opening, advanced.bound⟩, completed⟩

/-- A class is inserted, and after what then comes it is bound. -/
theorem completes_insert {candidate : ClassId}
    {plan middle after : Prepared ClassId (Progress ClassId)}
    (within : plan.statics.opening ⊆ plan.table) (absent : candidate ∉ plan.table)
    (advanced : Advances { plan with table := insertKey plan.table candidate } middle)
    (completed : Completes creator { plan with table := insertKey plan.table candidate } middle)
    (late : planBinding creator
      (connectObject (orderBinding creator) create) candidate middle =
        some after) : Advances plan after ∧ Completes creator plan after := by
  have inserted : candidate ∈ insertKey plan.table candidate := mem_insertKey _ _
  have outside : candidate ∉ middle.statics.opening := by
    rw [advanced.opening]
    exact fun isIn => absent (within isIn)
  have withinMiddle : middle.statics.opening ⊆ middle.table :=
    advanced.within (List.Subset.trans within (subset_insertKey _ _))
  obtain ⟨later, completes⟩ := completes_planBinding (completes_connectObject creates)
    withinMiddle (advanced.table inserted) late
  have entering : Advances plan { plan with table := insertKey plan.table candidate } :=
    ⟨subset_insertKey _ _, rfl, List.Subset.refl _⟩
  refine ⟨entering.trans (advanced.trans later), ?_⟩
  intro other isIn
  rcases completed.trans completes later other isIn with before | bound
  · by_cases same : other = candidate
    · rw [same]
      exact Or.inr fun initialised => bound_of_planBinding outside initialised late
    · left
      unfold insertKey at before
      simpa [absent, same] using before
  · exact Or.inr bound

theorem completes_createEntryBody (candidate : ClassId) :
    DoesComplete creator
      (createEntryBody creator (orderBinding creator) create candidate true) := by
  intro plan after within done
  have unchanged : some plan = some after → Advances plan after ∧ Completes creator plan after := by
    rintro ⟨⟩
    exact ⟨.refl plan, .refl plan⟩
  unfold createEntryBody at done
  cases origin : (creator.entry candidate).origin with
  | internal =>
    simp only [origin] at done
    exact unchanged done
  | preloaded =>
    simp only [origin] at done
    exact unchanged done
  | immutable =>
    simp only [origin] at done
    split at done
    · exact unchanged done
    · next absent =>
      obtain ⟨middle, others, late⟩ := Option.bind_eq_some_iff.mp done
      obtain ⟨advanced, completed⟩ :=
        DoesComplete.foldlM creates (creator.entry candidate).dependencies
          { plan with table := insertKey plan.table candidate } middle
          (List.Subset.trans within (subset_insertKey _ _)) others
      exact completes_insert creates within absent advanced completed late
  | user =>
    simp only [origin] at done
    split at done
    · exact unchanged done
    · have before : DoesComplete creator fun plan =>
          (createEach create true (creator.entry candidate).required plan).bind
            (connectEach (connectObject (orderBinding creator) create)
              (creator.methodObjects candidate)) :=
        (DoesComplete.foldlM creates _).bind
          (DoesComplete.foldlM (completes_connectObject creates) _)
      obtain ⟨above, others, done⟩ := Option.bind_eq_some_iff.mp done
      obtain ⟨copied, methods, done⟩ := Option.bind_eq_some_iff.mp done
      obtain ⟨advanced, completed⟩ := before plan copied within
        (Option.bind_eq_some_iff.mpr ⟨above, others, methods⟩)
      unfold enterCopy at done
      split at done
      · cases done
      · next absent =>
        obtain ⟨bound, late, last⟩ := Option.bind_eq_some_iff.mp done
        have withinCopied := advanced.within within
        obtain ⟨entered, inserted⟩ := completes_insert creates withinCopied absent (.refl _)
          (.refl _) late
        obtain ⟨later, closures⟩ := completes_prepareClosures creates bound after
          (entered.within withinCopied) last
        refine ⟨advanced.trans (entered.trans later), ?_⟩
        exact completed.trans (inserted.trans closures later) (entered.trans later)

omit creates in
theorem completes_createEntry (fuel : Nat) (candidate : ClassId) :
    DoesComplete creator
      (createEntry creator (orderBinding creator) fuel candidate true) := by
  induction fuel generalizing candidate with
  | zero => exact fun _ _ _ done => by cases done
  | succ fuel ih => exact completes_createEntryBody ih candidate

/-- The last pass over the class table leaves no class unbound. -/
theorem bound_of_contextLateBindings {plan after : Prepared ClassId (Progress ClassId)}
    (none : plan.statics.opening = [])
    (done : contextLateBindings creator (orderBinding creator) create plan =
      some after) :
    ∀ candidate ∈ after.table, creator.initialised candidate →
      candidate ∈ after.statics.bound := by
  have start : Passed creator plan [] plan :=
    ⟨.refl plan, .refl plan, fun _ isIn => absurd isIn List.not_mem_nil⟩
  have passed : Passed creator plan plan.table after := by
    refine PartialFolds.foldlM_prefix ?_ done start
    intro visited candidate others whole later middle passed moved
    have isIn : candidate ∈ later.table := by
      apply passed.advances.table
      rw [← whole]
      exact List.mem_append_right _ List.mem_cons_self
    have noneLater : later.statics.opening = [] := passed.advances.opening.trans none
    split at moved
    · cases moved
    · split at moved
      · next internal =>
        cases Option.some.inj moved
        exact passed.step (.refl later) (.refl later) fun initialised =>
          absurd internal initialised.1
      · obtain ⟨advances, completes⟩ := completes_planBinding (completes_connectObject creates)
          (by rw [noneLater]; exact List.nil_subset _) isIn moved
        apply passed.step advances completes
        intro initialised
        apply bound_of_planBinding _ initialised moved
        rw [noneLater]
        exact List.not_mem_nil
  intro candidate isIn initialised
  rcases passed.completes candidate isIn with before | bound
  · exact passed.bound candidate before initialised
  · exact bound initialised

omit creates in
/-- When a thread has started, all classes that it has are bound, and none is half
initialised. -/
theorem bound_of_plannedStartup {fuel threadOptions : Nat} {threadClass : ClassId}
    {after : Prepared ClassId (Progress ClassId)}
    (done : plannedStartup creator fuel threadOptions threadClass = some after) :
    after.statics.opening = [] ∧ ∀ candidate ∈ after.table, creator.initialised candidate →
      candidate ∈ after.statics.bound := by
  have keeps : Keeps (orderBinding creator) Advances :=
    keeps_advances creator
  have creates : ∀ candidate late, Does Advances
      (createEntry creator (orderBinding creator) fuel candidate late) :=
    keeps.createEntry creator fuel
  have completes : ∀ candidate, DoesComplete creator
      (createEntry creator (orderBinding creator) fuel candidate true) :=
    completes_createEntry fuel
  obtain ⟨constants, first, done⟩ := Option.bind_eq_some_iff.mp done
  obtain ⟨functions, second, done⟩ := Option.bind_eq_some_iff.mp done
  obtain ⟨classes, third, last⟩ := Option.bind_eq_some_iff.mp done
  have before : Advances _ classes :=
    ((keeps.startupConstants creates creator threadOptions _ constants first).trans
      (keeps.startupFunctions creates creator threadOptions _ functions second)).trans
      (keeps.startupClasses creates creator threadOptions threadClass _ classes third)
  have context : Advances classes after :=
    keeps.contextLateBindings creates creator classes after last
  refine ⟨context.opening.trans before.opening, ?_⟩
  exact bound_of_contextLateBindings completes before.opening last

end Completion

end Pthreads.ClassPreparation
