import Pthreads.EntryCreation

/-!
# The scopes of transferred closures

A closure that is read from a member is created with class entries that
`pthreads_create_entry` has brought into the receiving thread, its scope and its called
scope.  A closure that `pthreads_copy_zval` meets, in a static property, in an array or
among the variables that another closure has bound, gets the class entries of the source.
Values are trees here, as copying a cycle does not end; literals and constant expressions
have no closures in them.
-/

namespace Pthreads.ClosureScopes

open EntryCreation

/-- A `zval`, with class entries of one kind as the scopes of closures.  What is plain are
scalars, strings and constant expressions. -/
inductive Value (Plain Name Scope : Type)
  | null
  | plain (content : Plain)
  | threaded (object : Nat)
  /-- A resource, or an object of another kind. -/
  | other
  | reference (target : Value Plain Name Scope)
  | indirect (slot : Value Plain Name Scope)
  | array (elements : List (Name × Value Plain Name Scope))
  | closure (scope calledScope : Option Scope)
      (staticVariables : List (Name × Value Plain Name Scope))

/-- A class entry as the scope of a closure of the receiving thread. -/
inductive ScopeEntry (ClassId Key : Type)
  /-- The entry that the class table of the thread has. -/
  | prepared (name : Key)
  /-- An entry of the source. -/
  | source (candidate : ClassId)

section Copying

variable {Plain Name ClassId : Type} (Key : Type)

mutual

/-- `pthreads_copy_zval`, without a result where it returns `FAILURE`. -/
def copyZval : Value Plain Name ClassId → Option (Value Plain Name (ScopeEntry ClassId Key))
  | .null => some .null
  | .plain content => some (.plain content)
  | .threaded object => some (.threaded object)
  | .other => none
  | .reference target => copyZval target
  | .indirect slot => copyZval slot
  | .array elements => some (.array (copyHash elements))
  | .closure scope calledScope staticVariables =>
    some (.closure (scope.map .source) (calledScope.map .source) (copyStatics staticVariables))

/-- `pthreads_copy_hash`, which skips what it cannot copy. -/
def copyHash : List (Name × Value Plain Name ClassId) →
    List (Name × Value Plain Name (ScopeEntry ClassId Key))
  | [] => []
  | (name, value) :: elements =>
    match copyZval value with
    | some copied => (name, copied) :: copyHash elements
    | none => copyHash elements

/-- `pthreads_copy_statics` of the function of a closure. -/
def copyStatics : List (Name × Value Plain Name ClassId) →
    List (Name × Value Plain Name (ScopeEntry ClassId Key))
  | [] => []
  | (name, value) :: staticVariables =>
    (name, (copyZval value).getD .null) :: copyStatics staticVariables

end

variable {Scope : Type}

mutual

/-- The scopes and the called scopes of all closures in a value. -/
def Value.scopes : Value Plain Name Scope → List (Option Scope)
  | .null | .plain _ | .threaded _ | .other => []
  | .reference target => target.scopes
  | .indirect slot => slot.scopes
  | .array elements => scopesIn elements
  | .closure scope calledScope staticVariables =>
    scope :: calledScope :: scopesIn staticVariables

def scopesIn : List (Name × Value Plain Name Scope) → List (Option Scope)
  | [] => []
  | (_, value) :: values => value.scopes ++ scopesIn values

end

omit Key in
theorem scopesIn_cons (name : Name) (value : Value Plain Name Scope)
    (values : List (Name × Value Plain Name Scope)) :
    scopesIn ((name, value) :: values) = value.scopes ++ scopesIn values := rfl

mutual

/-- Copied closures have the class entries of the source. -/
theorem copyZval_scopes : ∀ value : Value Plain Name ClassId,
    ((copyZval Key value).elim [] Value.scopes) =
      value.scopes.map (Option.map .source)
  | .null | .plain _ | .threaded _ | .other => rfl
  | .reference target => copyZval_scopes target
  | .indirect slot => copyZval_scopes slot
  | .array elements => copyHash_scopes elements
  | .closure _ _ staticVariables =>
    congrArg (_ :: _ :: ·) (copyStatics_scopes staticVariables)

theorem copyHash_scopes : ∀ elements : List (Name × Value Plain Name ClassId),
    scopesIn (copyHash Key elements) = (scopesIn elements).map (Option.map .source)
  | [] => rfl
  | (name, value) :: elements => by
    have first := copyZval_scopes value
    unfold copyHash
    rw [scopesIn_cons, List.map_append, ← first, ← copyHash_scopes elements]
    cases copyZval Key value <;> rfl

theorem copyStatics_scopes : ∀ staticVariables : List (Name × Value Plain Name ClassId),
    scopesIn (copyStatics Key staticVariables) =
      (scopesIn staticVariables).map (Option.map .source)
  | [] => rfl
  | (name, value) :: staticVariables => by
    have first := copyZval_scopes value
    unfold copyStatics
    rw [scopesIn_cons name value, List.map_append, ← first, ← copyStatics_scopes staticVariables]
    cases copyZval Key value <;> rfl

end

end Copying

/-- A value that is brought into the thread. -/
inductive Transfer (Plain Name ClassId : Type)
  /-- A closure in a member of a Threaded object. -/
  | member (scope calledScope : Option ClassId)
      (staticVariables : List (Name × Value Plain Name ClassId))
  /-- A value that `pthreads_copy_zval` copies. -/
  | zval (value : Value Plain Name ClassId)

section Transfers

variable {Plain Name ClassId Key Label : Type}
variable [DecidableEq ClassId] [DecidableEq Key] [DecidableEq Label]
variable (creator : Creator ClassId Key Label) (fuel : Nat)

/-- `pthreads_prepare_single_class` -/
def prepareSingleClass (scope : Option ClassId) (table : Table Key Label) :
    Option (Table Key Label × Option (ScopeEntry ClassId Key)) :=
  match scope with
  | none => some (table, none)
  | some candidate =>
    (createEntry creator fuel (candidate, true) table).map fun after =>
      (after, some (.prepared (creator.name candidate)))

/-- The case of closures in `pthreads_store_convert`. -/
def storeConvert (scope calledScope : Option ClassId)
    (staticVariables : List (Name × Value Plain Name ClassId)) (table : Table Key Label) :
    Option (Table Key Label × Value Plain Name (ScopeEntry ClassId Key)) := do
  let copied := copyStatics Key staticVariables
  let (table, scope) ← prepareSingleClass creator fuel scope table
  let (table, calledScope) ← prepareSingleClass creator fuel calledScope table
  some (table, .closure scope calledScope copied)

/-- What arrives, if the copy does not fail. -/
def transfer : Transfer Plain Name ClassId → Table Key Label →
    Option (Table Key Label × Option (Value Plain Name (ScopeEntry ClassId Key)))
  | .member scope calledScope staticVariables, table =>
    (storeConvert creator fuel scope calledScope staticVariables table).map fun done =>
      (done.1, some done.2)
  | .zval value, table => some (table, copyZval Key value)

end Transfers

section Scopes

variable {Plain Name ClassId Key Label : Type}

/-- The entry is in the table of the thread, or all threads share it. -/
def Resolved [DecidableEq Key] (creator : Creator ClassId Key Label) (table : Table Key Label) :
    ScopeEntry ClassId Key → Prop
  | .prepared name => (table.find name).isSome
  | .source candidate => (creator.entry candidate).origin ≠ .user

/-- The scopes of the closures that `pthreads_copy_zval` copies in a transfer. -/
def Transfer.copied : Transfer Plain Name ClassId → List (Option ClassId)
  | .member _ _ staticVariables => scopesIn staticVariables
  | .zval value => value.scopes

/-- A class entry that is not there, or that all threads share. -/
def Shared (creator : Creator ClassId Key Label) (scope : Option ClassId) : Prop :=
  ∀ candidate, scope = some candidate → (creator.entry candidate).origin ≠ .user

/-- A scope that is null, or is resolved. -/
def ScopeResolved [DecidableEq Key] (creator : Creator ClassId Key Label)
    (table : Table Key Label) (scope : Option (ScopeEntry ClassId Key)) : Prop :=
  ∀ entry, scope = some entry → Resolved creator table entry

variable [DecidableEq Key] {creator : Creator ClassId Key Label} {table after : Table Key Label}

theorem scopeResolved_source (scope : Option ClassId) :
    ScopeResolved creator table (scope.map .source) ↔ Shared creator scope := by
  cases scope with
  | none => exact ⟨fun _ => nofun, fun _ => nofun⟩
  | some candidate =>
    constructor
    · rintro resolved _ ⟨⟩
      exact resolved _ rfl
    · rintro shared _ ⟨⟩
      exact shared _ rfl

theorem ScopeResolved.evolve {scope : Option (ScopeEntry ClassId Key)}
    (resolved : ScopeResolved creator table scope) (evolves : Evolves creator table after) :
    ScopeResolved creator after scope := by
  intro entry isEntry
  have before := resolved entry isEntry
  cases entry with
  | prepared name => exact evolves.isSome before
  | source candidate => exact before

/-- Copied closures are resolved when their scopes are shared. -/
theorem copied_resolved_iff (scopes : List (Option ClassId)) :
    (∀ scope ∈ scopes.map (Option.map .source), ScopeResolved creator table scope) ↔
      ∀ scope ∈ scopes, Shared creator scope := by
  rw [List.forall_mem_map]
  exact forall₂_congr fun scope _ => scopeResolved_source scope

end Scopes

section Results

variable {Plain Name ClassId Key Label : Type} [Fintype ClassId]
variable [DecidableEq ClassId] [DecidableEq Key] [DecidableEq Label]
variable {creator : Creator ClassId Key Label} {fuel : Nat} {table : Table Key Label}

/-- A bound for the depth of every call that starts with the table. -/
def depth (creator : Creator ClassId Key Label) (table : Table Key Label) : Nat :=
  creator.missing table * (creator.height + 1) + creator.height

theorem prepareSingleClass_resolves (scope : Option ClassId) (ready : Ready creator table)
    (enough : depth creator table < fuel) :
    ∃ after prepared, prepareSingleClass creator fuel scope table = some (after, prepared) ∧
      Evolves creator table after ∧ ScopeResolved creator after prepared := by
  cases scope with
  | none => exact ⟨table, none, rfl, Evolves.refl table, nofun⟩
  | some candidate =>
    have within : creator.measure (candidate, true) table < fuel :=
      Nat.lt_of_le_of_lt (Nat.add_le_add_left (rank_le_height candidate) _) enough
    obtain ⟨after, creates, created⟩ := createEntry_within ready within
    refine ⟨after, some (.prepared (creator.name candidate)), ?_, created.evolves, ?_⟩
    · unfold prepareSingleClass
      dsimp only
      rw [creates]
      rfl
    · rintro _ ⟨⟩
      exact created.present

omit [DecidableEq ClassId] [DecidableEq Label] in
theorem depth_le {after : Table Key Label} (evolves : Evolves creator table after) :
    depth creator after ≤ depth creator table := by
  have fewer : creator.missing after ≤ creator.missing table :=
    Finset.sum_le_sum fun key _ => evolves.weight key
  exact Nat.add_le_add_right (Nat.mul_le_mul_right _ fewer) _

/-- The scopes of a closure in a member are resolved; those of the closures that it has
bound are those of the source. -/
theorem storeConvert_resolves (scope calledScope : Option ClassId)
    (staticVariables : List (Name × Value Plain Name ClassId)) (ready : Ready creator table)
    (enough : depth creator table < fuel) :
    ∃ after prepared preparedCalled,
      storeConvert creator fuel scope calledScope staticVariables table =
        some (after, .closure prepared preparedCalled (copyStatics Key staticVariables)) ∧
      ScopeResolved creator after prepared ∧ ScopeResolved creator after preparedCalled := by
  obtain ⟨middle, prepared, first, evolves, resolved⟩ :=
    prepareSingleClass_resolves scope ready enough
  obtain ⟨after, preparedCalled, second, evolvesAfter, resolvedCalled⟩ :=
    prepareSingleClass_resolves calledScope (ready.evolve evolves)
      (Nat.lt_of_le_of_lt (depth_le evolves) enough)
  refine ⟨after, prepared, preparedCalled, ?_, resolved.evolve evolvesAfter, resolvedCalled⟩
  unfold storeConvert
  rw [first, Option.bind_eq_bind, Option.bind_some]
  dsimp only
  rw [second]
  rfl

/-- A transfer ends, and all scopes are resolved in the thread if and only if closures that
`pthreads_copy_zval` copies have shared scopes only. -/
theorem transfer_resolves_iff (given : Transfer Plain Name ClassId) (ready : Ready creator table)
    (enough : depth creator table < fuel) :
    ∃ after created, transfer creator fuel given table = some (after, created) ∧
      ((∀ scope ∈ created.elim [] Value.scopes, ScopeResolved creator after scope) ↔
        ∀ scope ∈ given.copied, Shared creator scope) := by
  cases given with
  | member scope calledScope staticVariables =>
    obtain ⟨after, prepared, preparedCalled, converts, resolved, resolvedCalled⟩ :=
      storeConvert_resolves scope calledScope staticVariables ready enough
    refine ⟨after, some (.closure prepared preparedCalled (copyStatics Key staticVariables)),
      ?_, ?_⟩
    · unfold transfer
      dsimp only
      rw [converts]
      rfl
    · have copied : (∀ scope ∈ scopesIn (copyStatics Key staticVariables),
          ScopeResolved creator after scope) ↔
          ∀ scope ∈ scopesIn staticVariables, Shared creator scope := by
        rw [copyStatics_scopes]
        exact copied_resolved_iff _
      refine Iff.trans ?_ copied
      show (∀ scope ∈ prepared :: preparedCalled :: scopesIn (copyStatics Key staticVariables),
        ScopeResolved creator after scope) ↔ _
      rw [List.forall_mem_cons, List.forall_mem_cons]
      exact ⟨fun all => all.2.2, fun others => ⟨resolved, resolvedCalled, others⟩⟩
  | zval value =>
    refine ⟨table, copyZval Key value, rfl, ?_⟩
    rw [copyZval_scopes]
    exact copied_resolved_iff value.scopes

end Results

section Example

/-- A closure in a member that has bound an array with another one, of a class. -/
def binding (scope : Family) : Transfer Unit String Family :=
  .member (some .boundTask) (some .boundTask)
    [("tasks", .array [("first", .closure (some scope) none [])])]

theorem familyStart_depth : depth family familyStart < 40 := by decide

/-- The class of the inner closure is immutable. -/
theorem transfer_resolves_iff_tree : ∃ after created,
    transfer family 40 (binding .tree) familyStart = some (after, created) ∧
      ∀ scope ∈ created.elim [] Value.scopes, ScopeResolved family after scope := by
  obtain ⟨after, created, transfers, resolves⟩ :=
    transfer_resolves_iff (binding .tree) familyStart_ready familyStart_depth
  refine ⟨after, created, transfers, resolves.mpr ?_⟩
  show ∀ scope ∈ [some Family.tree, none], Shared family scope
  rw [List.forall_mem_cons, List.forall_mem_singleton]
  exact ⟨by rintro _ ⟨⟩; decide, nofun⟩

/-- The class of the inner closure is one that each thread has for itself. -/
theorem transfer_leaves_boundTask : ¬∀ given : Transfer Unit String Family, ∀ after created,
    transfer family 40 given familyStart = some (after, created) →
      ∀ scope ∈ created.elim [] Value.scopes, ScopeResolved family after scope := by
  intro resolves
  obtain ⟨after, prepared, preparedCalled, converts, -⟩ :=
    storeConvert_resolves (some .boundTask) (some .boundTask)
      [("tasks", Value.array [("first", Value.closure (some Family.boundTask) none [])])]
      familyStart_ready familyStart_depth
  have transfers : transfer family 40 (binding .boundTask) familyStart =
      some (after, some (.closure prepared preparedCalled
        [("tasks", .array [("first", .closure (some (.source .boundTask)) none [])])])) := by
    unfold transfer binding
    dsimp only
    rw [converts]
    rfl
  exact resolves _ after _ transfers (some (.source .boundTask))
    (List.mem_cons_of_mem _ (List.mem_cons_of_mem _ List.mem_cons_self)) _ rfl rfl

end Example

end Pthreads.ClosureScopes
