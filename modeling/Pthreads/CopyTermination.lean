import Mathlib.Data.Finite.Prod
import Pthreads.ValueCopies

/-!
# When copying ends

Copying a value ends exactly when its calls lead to no cycle in the memory of the
source.  The table `resolve` does not help: a function is put into it after what it
refers to has been copied, and arrays and closures are never remembered.
-/

namespace Pthreads.ValueCopies

open RecursiveCalls Relation

variable {Address : Type} {heap : Heap Address} {receiver : Receiver}

section Fuel

variable {call more : Memo Address → (task : Task Address) → Option (Memo Address × task.Result)}

section Parts

variable (implied : ∀ memo task outcome, call memo task = some outcome →
  more memo task = some outcome)
include implied

theorem copyConstant_mono {memo : Memo Address} {content : Constant Address}
    {outcome : Memo Address × Copied Address}
    (done : copyConstant receiver call memo content = some outcome) :
    copyConstant receiver more memo content = some outcome := by
  cases content with
  | scalar content => exact done
  | string text => exact done
  | array address refcounted => exact implied memo (.array address) outcome done
  | ast address refcounted => exact map_mono (implied memo (.ast address)) done

theorem copyZval_mono {memo : Memo Address} {slot : Slot Address}
    {outcome : Memo Address × Option (Copied Address)}
    (done : copyZval receiver call memo slot = some outcome) :
    copyZval receiver more memo slot = some outcome := by
  cases slot with
  | undef => exact done
  | constant content =>
      exact map_mono (fun _ first => copyConstant_mono implied first) done
  | reference target => exact implied memo (.referent target) outcome done
  | indirect target => exact implied memo (.referent target) outcome done
  | threaded object => exact done
  | closure function => exact map_mono (implied memo (.function function)) done
  | other => exact done

theorem copyHash_mono {memo : Memo Address} {elements : List (Key × Slot Address)}
    {outcome : Memo Address × Copied Address}
    (done : copyHash receiver call memo elements = some outcome) :
    copyHash receiver more memo elements = some outcome := by
  refine map_mono (fun _ first => traverse_mono ?_ first) done
  intro memo element outcome copied
  exact map_mono (fun _ first => copyZval_mono implied first) copied

theorem copyAttribute_mono {memo : Memo Address} {attr : Attribute (Constant Address)}
    {outcome : Memo Address × Attribute (Copied Address)}
    (done : copyAttribute receiver call memo attr = some outcome) :
    copyAttribute receiver more memo attr = some outcome := by
  refine map_mono (fun _ first => traverse_mono ?_ first) done
  intro memo argument outcome copied
  exact map_mono (fun _ first => copyConstant_mono implied first) copied

theorem copyCode_mono {memo : Memo Address}
    {code : Code (Slot Address) (Constant Address) Address}
    {outcome : Memo Address × Code (Copied Address) (Copied Address) (Copied Address)}
    (done : copyCode receiver call memo code = some outcome) :
    copyCode receiver more memo code = some outcome := by
  obtain ⟨literals, first, done⟩ := Option.bind_eq_some_iff.mp done
  obtain ⟨attributes, second, done⟩ := Option.bind_eq_some_iff.mp done
  refine Option.bind_eq_some_iff.mpr ⟨literals, ?_,
    Option.bind_eq_some_iff.mpr ⟨attributes, ?_, ?_⟩⟩
  · refine traverse_mono ?_ first
    intro memo literal outcome copied
    exact map_mono (fun _ first => copyZval_mono implied first) copied
  · exact traverse_mono (fun _ _ _ copied => copyAttribute_mono implied copied) second
  · exact map_mono
      (fun _ third => traverse_mono (fun memo function => implied memo (.function function)) third)
      done

theorem copyUserFunction_mono {memo : Memo Address} {source : SourceFunction Address}
    {outcome : Memo Address × Copied Address}
    (done : copyUserFunction receiver call memo source = some outcome) :
    copyUserFunction receiver more memo source = some outcome := by
  obtain ⟨code, first, done⟩ := Option.bind_eq_some_iff.mp done
  refine Option.bind_eq_some_iff.mpr ⟨code, ?_, ?_⟩
  · split at first
    · next refcounted => exact (if_pos refcounted).trans (copyCode_mono implied first)
    · next inPlace => exact (if_neg inPlace).trans first
  · refine map_mono (fun _ second => traverse_mono ?_ second) done
    intro memo static outcome copied
    exact map_mono (fun _ first => copyZval_mono implied first) copied

theorem copyUnresolved_mono {memo : Memo Address} {address : Address}
    {outcome : Memo Address × Copied Address}
    (done : copyUnresolved heap receiver call memo address = some outcome) :
    copyUnresolved heap receiver more memo address = some outcome := by
  unfold copyUnresolved at done ⊢
  split
  · next internal => rwa [if_pos internal] at done
  · next user =>
    rw [if_neg user] at done
    exact copyUserFunction_mono implied done

theorem copyAstTree_mono {memo : Memo Address} {node : AstNode Address}
    {outcome : Memo Address × Copied Address}
    (done : copyAstTree receiver call memo node = some outcome) :
    copyAstTree receiver more memo node = some outcome := by
  cases node with
  | zval attr content => exact map_mono (fun _ first => copyZval_mono implied first) done
  | constant attr name => exact done
  | tree kind attr children =>
      refine map_mono (fun _ first => traverse_mono ?_ first) done
      intro memo child outcome copied
      cases child with
      | none => exact copied
      | some address => exact map_mono (implied memo (.ast address)) copied

variable [DecidableEq Address]

theorem copyFunction_mono {memo : Memo Address} {address : Address}
    {outcome : Memo Address × Copied Address}
    (done : copyFunction heap receiver call memo address = some outcome) :
    copyFunction heap receiver more memo address = some outcome := by
  unfold copyFunction at done ⊢
  split
  · next immutable => rwa [if_pos immutable] at done
  · next notImmutable =>
    rw [if_neg notImmutable] at done
    split
    · next closure =>
      rw [if_pos closure] at done
      exact copyUnresolved_mono implied done
    · next named =>
      rw [if_neg named] at done
      cases found : memo.resolve.find address with
      | some copied => rwa [found] at done
      | none =>
          rw [found] at done
          exact map_mono (fun _ first => copyUnresolved_mono implied first) done

theorem copyTask_mono {memo : Memo Address} {task : Task Address}
    {outcome : Memo Address × task.Result}
    (done : copyTask heap receiver call memo task = some outcome) :
    copyTask heap receiver more memo task = some outcome := by
  cases task with
  | referent address => exact copyZval_mono implied done
  | array address => exact copyHash_mono implied done
  | ast address => exact copyAstTree_mono implied done
  | function address => exact copyFunction_mono implied done

end Parts

variable [DecidableEq Address]

/-- More fuel does not change what is copied. -/
theorem copy_succ {fuel : Nat} {memo : Memo Address} {task : Task Address}
    {outcome : Memo Address × task.Result}
    (done : copy heap receiver fuel memo task = some outcome) :
    copy heap receiver (fuel + 1) memo task = some outcome := by
  induction fuel generalizing memo task with
  | zero => exact absurd done nofun
  | succ fuel ih => exact copyTask_mono (fun _ _ _ => ih) done

theorem copy_le {fuel larger : Nat} (enough : fuel ≤ larger) {memo : Memo Address}
    {task : Task Address} {outcome : Memo Address × task.Result}
    (done : copy heap receiver fuel memo task = some outcome) :
    copy heap receiver larger memo task = some outcome := by
  induction enough with
  | refl => exact done
  | step _ ih => exact copy_succ ih

end Fuel

section Totality

variable {call : Memo Address → (task : Task Address) → Option (Memo Address × task.Result)}
variable {Invariant : Memo Address → Prop}

theorem copyConstant_succeeds {content : Constant Address}
    (calls : ∀ task ∈ content.tasks, Succeeds Invariant (call · task)) :
    Succeeds Invariant (copyConstant receiver call · content) := by
  cases content with
  | scalar content => exact succeeds_done _
  | string text => exact succeeds_done _
  | array address refcounted => exact calls _ (List.mem_singleton_self _)
  | ast address refcounted =>
      apply (calls (.ast address) (List.mem_singleton_self _)).map
      exact fun _ holds => holds

theorem copyZval_succeeds {slot : Slot Address}
    (calls : ∀ task ∈ slot.tasks, Succeeds Invariant (call · task)) :
    Succeeds Invariant (copyZval receiver call · slot) := by
  cases slot with
  | undef => exact succeeds_done _
  | constant content =>
      apply (copyConstant_succeeds calls).map
      exact fun _ holds => holds
  | reference target => exact calls _ (List.mem_singleton_self _)
  | indirect target => exact calls _ (List.mem_singleton_self _)
  | threaded object => exact succeeds_done _
  | closure function =>
      apply (calls (.function function) (List.mem_singleton_self _)).map
      exact fun _ holds => holds
  | other => exact succeeds_done _

theorem copyHash_succeeds {elements : List (Key × Slot Address)}
    (calls : ∀ task ∈ elements.flatMap fun element => element.2.tasks,
      Succeeds Invariant (call · task)) :
    Succeeds Invariant (copyHash receiver call · elements) := by
  refine (traverse_succeeds ?_).map fun _ holds => holds
  intro element isIn
  refine (copyZval_succeeds ?_).map fun _ holds => holds
  intro task isTask
  exact calls task (List.mem_flatMap.mpr ⟨element, isIn, isTask⟩)

theorem copyAttribute_succeeds {attr : Attribute (Constant Address)}
    (calls : ∀ task ∈ attr.arguments.flatMap fun argument => argument.2.tasks,
      Succeeds Invariant (call · task)) :
    Succeeds Invariant (copyAttribute receiver call · attr) := by
  refine (traverse_succeeds ?_).map fun _ holds => holds
  intro argument isIn
  refine (copyConstant_succeeds ?_).map fun _ holds => holds
  intro task isTask
  exact calls task (List.mem_flatMap.mpr ⟨argument, isIn, isTask⟩)

theorem copyCode_succeeds {code : Code (Slot Address) (Constant Address) Address}
    (calls : ∀ task ∈ code.tasks, Succeeds Invariant (call · task)) :
    Succeeds Invariant (copyCode receiver call · code) := by
  have literals : Succeeds Invariant (traverse (copyLiteral receiver call) · code.literals) := by
    apply traverse_succeeds
    intro literal isIn
    refine (copyZval_succeeds ?_).map fun _ holds => holds
    intro task isTask
    exact calls task (List.mem_append_left _ (List.mem_append_left _
      (List.mem_flatMap.mpr ⟨literal, isIn, isTask⟩)))
  have attributes : Succeeds Invariant (copyAttributes receiver call · code.attributes) := by
    apply traverse_succeeds
    intro attr isIn
    apply copyAttribute_succeeds
    intro task isTask
    exact calls task (List.mem_append_left _ (List.mem_append_right _
      (List.mem_flatMap.mpr ⟨attr, isIn, isTask⟩)))
  have functions : Succeeds Invariant
      (traverse (fun memo function => call memo (.function function)) · code.dynamicFuncDefs) := by
    apply traverse_succeeds
    intro function isIn
    exact calls _ (List.mem_append_right _ (List.mem_map_of_mem isIn))
  refine literals.bind fun done holds => ?_
  refine attributes.bind ?_ done.1 holds
  intro more holds
  refine functions.map ?_ more.1 holds
  exact fun _ holds => holds

theorem copyAstTree_succeeds {node : AstNode Address}
    (calls : ∀ task ∈ node.tasks, Succeeds Invariant (call · task)) :
    Succeeds Invariant (copyAstTree receiver call · node) := by
  cases node with
  | zval attr content =>
      apply (copyZval_succeeds calls).map
      exact fun _ holds => holds
  | constant attr name => exact succeeds_done _
  | tree kind attr children =>
      refine (traverse_succeeds ?_).map fun _ holds => holds
      intro child isIn
      cases child with
      | none => exact succeeds_done _
      | some address =>
          have isTask : Task.ast address ∈ (AstNode.tree kind attr children).tasks :=
            List.mem_flatMap.mpr ⟨some address, isIn, List.mem_singleton_self _⟩
          apply (calls _ isTask).map
          exact fun _ holds => holds

variable (filed : ∀ memo filename, Invariant memo →
  Invariant (copyFilename receiver memo filename).1)
include filed

theorem copyUserFunction_succeeds {source : SourceFunction Address}
    (calls : ∀ task ∈ source.tasks, Succeeds Invariant (call · task)) :
    Succeeds Invariant (copyUserFunction receiver call · source) := by
  have code : Succeeds Invariant fun memo =>
      if source.refcounted then copyCode receiver call memo source.parts.code
      else some (memo, source.parts.code.inPlace) := by
    unfold SourceFunction.tasks at calls
    split
    · next refcounted =>
      apply copyCode_succeeds
      intro task isTask
      exact calls task (List.mem_append_left _ (by rwa [if_pos refcounted]))
    · exact succeeds_done _
  have statics : Succeeds Invariant
      (traverse (copyStatic receiver call) · source.parts.staticVariables) := by
    apply traverse_succeeds
    intro static isIn
    refine (copyZval_succeeds ?_).map fun _ holds => holds
    intro task isTask
    exact calls task (List.mem_append_right _ (List.mem_flatMap.mpr ⟨static, isIn, isTask⟩))
  intro memo holds
  refine code.bind ?_ (copyFilename receiver memo source.parts.filename).1
    (filed memo source.parts.filename holds)
  intro done holds
  refine statics.map ?_ done.1 holds
  exact fun _ holds => holds

end Totality

section Visits

variable {call : Memo Address → (task : Task Address) → Option (Memo Address × task.Result)}
variable {Invariant : Memo Address → Prop} {Visited : Task Address → Prop}

/-- A loop visits what its items refer to. -/
theorem traverse_visits {Item Result : Type} (tasks : Item → List (Task Address))
    {visit : Memo Address → Item → Option (Memo Address × Result)} {items : List Item}
    (visits : ∀ item, Ensures Invariant (visit · item) fun _ => ∀ task ∈ tasks item, Visited task) :
    Ensures Invariant (traverse visit · items)
      fun _ => ∀ task ∈ items.flatMap tasks, Visited task := by
  apply (traverse_ensures fun item _ => visits item).weaken
  intro results visited
  induction visited with
  | nil => exact nofun
  | cons first _ ih =>
      intro task isIn
      rw [List.flatMap_cons, List.mem_append] at isIn
      exact isIn.elim (first task) (ih task)

variable (calls : ∀ task, Ensures Invariant (call · task) fun _ => Visited task)
include calls

theorem copyConstant_visits (content : Constant Address) :
    Ensures Invariant (copyConstant receiver call · content)
      fun _ => ∀ task ∈ content.tasks, Visited task := by
  cases content with
  | scalar content => exact ensures_done nofun
  | string text => exact ensures_done nofun
  | array address refcounted =>
      exact (calls (.array address)).weaken fun _ visited => List.forall_mem_singleton.mpr visited
  | ast address refcounted =>
      apply (calls (.ast address)).map
      exact fun _ holds visited => ⟨holds, List.forall_mem_singleton.mpr visited⟩

theorem copyZval_visits (slot : Slot Address) :
    Ensures Invariant (copyZval receiver call · slot)
      fun _ => ∀ task ∈ slot.tasks, Visited task := by
  cases slot with
  | undef => exact ensures_done nofun
  | constant content =>
      exact (copyConstant_visits calls content).map_fact fun _ holds => holds
  | reference target =>
      exact (calls (.referent target)).weaken fun _ visited => List.forall_mem_singleton.mpr visited
  | indirect target =>
      exact (calls (.referent target)).weaken fun _ visited => List.forall_mem_singleton.mpr visited
  | threaded object => exact ensures_done nofun
  | closure function =>
      apply (calls (.function function)).map
      exact fun _ holds visited => ⟨holds, List.forall_mem_singleton.mpr visited⟩
  | other => exact ensures_done nofun

theorem copyHash_visits (elements : List (Key × Slot Address)) :
    Ensures Invariant (copyHash receiver call · elements)
      fun _ => ∀ task ∈ elements.flatMap fun element => element.2.tasks, Visited task := by
  refine (traverse_visits _ fun element => ?_).map_fact fun _ holds => holds
  exact (copyZval_visits calls element.2).map_fact fun _ holds => holds

theorem copyAttribute_visits (attr : Attribute (Constant Address)) :
    Ensures Invariant (copyAttribute receiver call · attr)
      fun _ => ∀ task ∈ attr.arguments.flatMap fun argument => argument.2.tasks, Visited task := by
  refine (traverse_visits _ fun argument => ?_).map_fact fun _ holds => holds
  exact (copyConstant_visits calls argument.2).map_fact fun _ holds => holds

theorem copyCode_visits (code : Code (Slot Address) (Constant Address) Address) :
    Ensures Invariant (copyCode receiver call · code)
      fun _ => ∀ task ∈ code.tasks, Visited task := by
  have literals : Ensures Invariant (traverse (copyLiteral receiver call) · code.literals)
      fun _ => ∀ task ∈ code.literals.flatMap Slot.tasks, Visited task := by
    refine traverse_visits Slot.tasks fun literal => ?_
    exact (copyZval_visits calls literal).map_fact fun _ holds => holds
  have attributes : Ensures Invariant (copyAttributes receiver call · code.attributes)
      fun _ => ∀ task ∈ code.attributes.flatMap
        (fun attr => attr.arguments.flatMap fun argument => argument.2.tasks), Visited task :=
    traverse_visits _ (copyAttribute_visits calls)
  have functions : Ensures Invariant
      (traverse (fun memo function => call memo (.function function)) · code.dynamicFuncDefs)
      fun _ => ∀ task ∈ code.dynamicFuncDefs.flatMap fun function => [Task.function function],
        Visited task := by
    refine traverse_visits (fun function => [.function function]) fun function => ?_
    exact (calls (.function function)).weaken fun _ visited => List.forall_mem_singleton.mpr visited
  intro memo after copied holds done
  obtain ⟨first, copiedLiterals, done⟩ := Option.bind_eq_some_iff.mp done
  obtain ⟨second, copiedAttributes, done⟩ := Option.bind_eq_some_iff.mp done
  obtain ⟨third, copiedFunctions, isAfter⟩ := Option.map_eq_some_iff.mp done
  obtain ⟨holds, visitedLiterals⟩ := literals memo first.1 first.2 holds copiedLiterals
  obtain ⟨holds, visitedAttributes⟩ := attributes first.1 second.1 second.2 holds copiedAttributes
  obtain ⟨holds, visitedFunctions⟩ := functions second.1 third.1 third.2 holds copiedFunctions
  cases isAfter
  refine ⟨holds, ?_⟩
  intro task isTask
  rw [Code.tasks, List.mem_append, List.mem_append] at isTask
  rcases isTask with (isLiteral | isAttribute) | isFunction
  · exact visitedLiterals task isLiteral
  · exact visitedAttributes task isAttribute
  · exact visitedFunctions task (List.map_eq_flatMap ▸ isFunction)

theorem copyAstTree_visits (node : AstNode Address) :
    Ensures Invariant (copyAstTree receiver call · node)
      fun _ => ∀ task ∈ node.tasks, Visited task := by
  cases node with
  | zval attr content => exact (copyZval_visits calls content).map_fact fun _ holds => holds
  | constant attr name => exact ensures_done nofun
  | tree kind attr children =>
      refine Ensures.map_fact ?_ fun _ holds => holds
      refine traverse_visits _ fun child => ?_
      cases child with
      | none => exact ensures_done nofun
      | some address =>
          apply (calls (.ast address)).map
          exact fun _ holds visited => ⟨holds, List.forall_mem_singleton.mpr visited⟩

theorem copyUserFunction_visits
    (filed : ∀ memo filename, Invariant memo → Invariant (copyFilename receiver memo filename).1)
    (source : SourceFunction Address) :
    Ensures Invariant (copyUserFunction receiver call · source)
      fun _ => ∀ task ∈ source.tasks, Visited task := by
  have code : Ensures Invariant
      (fun memo => if source.refcounted then copyCode receiver call memo source.parts.code
        else some (memo, source.parts.code.inPlace))
      fun _ => ∀ task ∈ if source.refcounted then source.parts.code.tasks else [],
        Visited task := by
    split
    · exact copyCode_visits calls source.parts.code
    · exact ensures_done nofun
  have statics : Ensures Invariant
      (traverse (copyStatic receiver call) · source.parts.staticVariables)
      fun _ => ∀ task ∈ source.parts.staticVariables.flatMap fun static => static.2.tasks,
        Visited task := by
    refine traverse_visits _ fun static => ?_
    exact (copyZval_visits calls static.2).map_fact fun _ holds => holds
  intro memo after copied holds done
  obtain ⟨first, copiedCode, done⟩ := Option.bind_eq_some_iff.mp done
  obtain ⟨second, copiedStatics, isAfter⟩ := Option.map_eq_some_iff.mp done
  obtain ⟨holds, visitedCode⟩ :=
    code _ first.1 first.2 (filed memo source.parts.filename holds) copiedCode
  obtain ⟨holds, visitedStatics⟩ := statics first.1 second.1 second.2 holds copiedStatics
  cases isAfter
  refine ⟨holds, ?_⟩
  intro task isTask
  rcases List.mem_append.mp isTask with isCode | isStatic
  · exact visitedCode task isCode
  · exact visitedStatics task isStatic

end Visits

section Order

variable [DecidableEq Address]

/-- What is resolved stays resolved. -/
def Memo.Within (memo after : Memo Address) : Prop :=
  ∀ address, (memo.resolve.find address).isSome → (after.resolve.find address).isSome

theorem Memo.Within.refl (memo : Memo Address) : memo.Within memo :=
  fun _ isThere => isThere

omit [DecidableEq Address] in
theorem resolve_copyFilename (memo : Memo Address) (filename : ZString) :
    (copyFilename receiver memo filename).1.resolve = memo.resolve := by
  unfold copyFilename
  split
  · rfl
  · rfl

theorem Memo.Within.copyFilename {memo after : Memo Address} (within : memo.Within after)
    (filename : ZString) : memo.Within (copyFilename receiver after filename).1 := by
  intro address isThere
  rw [resolve_copyFilename]
  exact within address isThere

theorem isSome_find_update {table : OrderedTable Address (Copied Address)}
    {address other : Address} {copied : Copied Address} :
    ((table.update address copied).find other).isSome ↔
      other = address ∨ (table.find other).isSome := by
  by_cases same : other = address
  · subst same
    simp
  · simp [OrderedTable.find_update_other _ _ same, same]

theorem Memo.Within.resolve {memo after : Memo Address} (within : memo.Within after)
    (address : Address) (copied : Copied Address) :
    memo.Within { after with resolve := after.resolve.update address copied } :=
  fun other isThere => isSome_find_update.mpr (Or.inr (within other isThere))

theorem Heap.Settled.within {memo after : Memo Address} (within : memo.Within after)
    {address : Address} (settled : heap.Settled memo address) : heap.Settled after address :=
  settled.imp_right (Or.imp_right (And.imp_right (within address)))

end Order

section Ending

variable [DecidableEq Address]

/-- A function that is not settled is copied with what it refers to. -/
theorem copyFunction_of_not_settled
    {call : Memo Address → (task : Task Address) → Option (Memo Address × task.Result)}
    {memo : Memo Address} {address : Address} (notSettled : ¬ heap.Settled memo address) :
    copyFunction heap receiver call memo address =
      if (heap.function address).closure then
        copyUserFunction receiver call memo (heap.function address)
      else
        (copyUserFunction receiver call memo (heap.function address)).map fun done =>
          ({ done.1 with resolve := done.1.resolve.update address done.2 }, done.2) := by
  obtain ⟨notImmutable, notSettled⟩ := not_or.mp notSettled
  obtain ⟨notInternal, unresolved⟩ := not_or.mp notSettled
  unfold copyFunction copyUnresolved
  rw [if_neg notImmutable, if_neg notInternal]
  split
  · rfl
  · next named =>
    have absent : memo.resolve.find address = none :=
      Option.not_isSome_iff_eq_none.mp fun resolved => unresolved ⟨named, resolved⟩
    rw [absent]

theorem copyFunction_of_settled (receiver : Receiver)
    (call : Memo Address → (task : Task Address) → Option (Memo Address × task.Result))
    {memo : Memo Address} {address : Address} (settled : heap.Settled memo address) :
    ∃ after result, copyFunction heap receiver call memo address = some (after, result) ∧
      (after = memo ∨ after = { memo with
        resolve := memo.resolve.update address (.functionInPlace address) }) := by
  unfold copyFunction copyUnresolved
  split
  · exact ⟨memo, _, rfl, Or.inl rfl⟩
  · next notImmutable =>
    have settled := settled.resolve_left notImmutable
    split
    · next closure =>
      have internal := settled.resolve_right fun resolved => resolved.1 closure
      rw [if_pos internal]
      exact ⟨memo, _, rfl, Or.inl rfl⟩
    · cases found : memo.resolve.find address with
      | some copied => exact ⟨memo, copied, rfl, Or.inl rfl⟩
      | none =>
          have internal := settled.resolve_right fun resolved => by simp [found] at resolved
          rw [if_pos internal]
          exact ⟨_, _, rfl, Or.inr rfl⟩

/-- A task ends with some fuel, however much has been resolved since. -/
def Heap.Copies (heap : Heap Address) (receiver : Receiver) (memo : Memo Address) (fuel : Nat)
    (task : Task Address) : Prop :=
  Succeeds memo.Within (copy heap receiver fuel · task)

theorem Heap.Copies.mono {memo : Memo Address} {fuel larger : Nat} {task : Task Address}
    (copies : heap.Copies receiver memo fuel task) (enough : fuel ≤ larger) :
    heap.Copies receiver memo larger task := by
  intro state within
  obtain ⟨after, result, done, kept⟩ := copies state within
  exact ⟨after, result, copy_le enough done, kept⟩

theorem exists_common_fuel {memo : Memo Address} {tasks : List (Task Address)}
    (copies : ∀ task ∈ tasks, ∃ fuel, heap.Copies receiver memo fuel task) :
    ∃ fuel, ∀ task ∈ tasks, heap.Copies receiver memo fuel task := by
  induction tasks with
  | nil => exact ⟨0, nofun⟩
  | cons task tasks ih =>
      obtain ⟨first, copiesFirst⟩ := copies task List.mem_cons_self
      obtain ⟨others, copiesOthers⟩ :=
        ih fun other isIn => copies other (List.mem_cons_of_mem _ isIn)
      refine ⟨max first others, ?_⟩
      intro other isIn
      rcases List.mem_cons.mp isIn with rfl | isLater
      · exact copiesFirst.mono (le_max_left _ _)
      · exact (copiesOthers other isLater).mono (le_max_right _ _)

/-- When the calls of a task end, the task does. -/
theorem copies_succ {memo : Memo Address} {fuel : Nat} {task : Task Address}
    (calls : ∀ other ∈ heap.tasks memo task, heap.Copies receiver memo fuel other) :
    heap.Copies receiver memo (fuel + 1) task := by
  cases task with
  | referent address => exact copyZval_succeeds calls
  | array address => exact copyHash_succeeds calls
  | ast address => exact copyAstTree_succeeds calls
  | function address =>
      intro state within
      show ∃ after result, copyFunction heap receiver (copy heap receiver fuel) state address =
        some (after, result) ∧ memo.Within after
      by_cases settled : heap.Settled state address
      · obtain ⟨after, result, done, isAfter⟩ :=
          copyFunction_of_settled receiver (copy heap receiver fuel) settled
        refine ⟨after, result, done, ?_⟩
        rcases isAfter with rfl | rfl
        · exact within
        · exact within.resolve _ _
      · have notSettled : ¬ heap.Settled memo address := mt (Heap.Settled.within within) settled
        rw [Heap.tasks, if_neg notSettled] at calls
        have copied : Succeeds memo.Within
            (copyUserFunction receiver (copy heap receiver fuel) · (heap.function address)) :=
          copyUserFunction_succeeds (fun _ filename within => within.copyFilename filename) calls
        rw [copyFunction_of_not_settled settled]
        split
        · exact copied state within
        · exact copied.map (fun done within => within.resolve address done.2) state within

theorem copies_of_ends (receiver : Receiver) {memo : Memo Address} {task : Task Address}
    (ends : Ends (heap.Calls memo) task) : ∃ fuel, heap.Copies receiver memo fuel task := by
  induction ends with
  | intro task _ ih =>
      obtain ⟨fuel, copies⟩ := exists_common_fuel ih
      exact ⟨fuel + 1, copies_succ copies⟩

/-- Compared with the beginning, only functions whose copying ends have been resolved. -/
structure Memo.Since (heap : Heap Address) (memo state : Memo Address) : Prop where
  within : memo.Within state
  ends : ∀ address, (state.resolve.find address).isSome →
    (memo.resolve.find address).isSome ∨ Ends (heap.Calls memo) (.function address)

theorem Memo.Since.refl (memo : Memo Address) : memo.Since heap memo where
  within := Memo.Within.refl memo
  ends := fun _ isThere => Or.inl isThere

theorem Memo.Since.copyFilename {memo state : Memo Address} (since : memo.Since heap state)
    (filename : ZString) : memo.Since heap (copyFilename receiver state filename).1 where
  within := since.within.copyFilename filename
  ends := by
    intro address isThere
    rw [resolve_copyFilename] at isThere
    exact since.ends address isThere

theorem Memo.Since.resolve {memo state : Memo Address} (since : memo.Since heap state)
    {address : Address} (ends : Ends (heap.Calls memo) (.function address))
    (copied : Copied Address) :
    memo.Since heap { state with resolve := state.resolve.update address copied } where
  within := since.within.resolve address copied
  ends := by
    intro other isThere
    rcases isSome_find_update.mp isThere with rfl | earlier
    · exact Or.inr ends
    · exact since.ends other earlier

theorem ends_of_calls {memo : Memo Address} {task : Task Address}
    (calls : ∀ other ∈ heap.tasks memo task, Ends (heap.Calls memo) other) :
    Ends (heap.Calls memo) task :=
  Acc.intro task calls

theorem ends_of_settled {memo state : Memo Address} (since : memo.Since heap state)
    {address : Address} (settled : heap.Settled state address) :
    Ends (heap.Calls memo) (.function address) := by
  by_cases before : heap.Settled memo address
  · apply ends_of_calls
    rw [Heap.tasks, if_pos before]
    exact nofun
  · obtain ⟨notImmutable, before⟩ := not_or.mp before
    obtain ⟨notInternal, before⟩ := not_or.mp before
    have resolved := (settled.resolve_left notImmutable).resolve_left notInternal
    exact (since.ends address resolved.2).resolve_left fun earlier => before ⟨resolved.1, earlier⟩

/-- What has been copied leads to no endless recursion. -/
theorem ensures_ends {memo : Memo Address} (fuel : Nat) (task : Task Address) :
    Ensures (memo.Since heap) (copy heap receiver fuel · task)
      fun _ => Ends (heap.Calls memo) task := by
  induction fuel generalizing task with
  | zero =>
      intro state after result _ done
      cases done
  | succ fuel ih =>
      cases task with
      | referent address =>
          exact (copyZval_visits ih (heap.referent address)).weaken
            fun _ visited => ends_of_calls visited
      | array address =>
          exact (copyHash_visits ih (heap.array address)).weaken
            fun _ visited => ends_of_calls visited
      | ast address =>
          exact (copyAstTree_visits ih (heap.ast address)).weaken
            fun _ visited => ends_of_calls visited
      | function address =>
          intro state after result since done
          replace done : copyFunction heap receiver (copy heap receiver fuel) state address =
            some (after, result) := done
          by_cases settled : heap.Settled state address
          · have ends := ends_of_settled since settled
            obtain ⟨_, _, settles, isAfter⟩ := copyFunction_of_settled receiver
              (copy heap receiver fuel) settled
            rw [settles] at done
            cases done
            rcases isAfter with rfl | rfl
            · exact ⟨since, ends⟩
            · exact ⟨since.resolve ends _, ends⟩
          · have notSettled : ¬ heap.Settled memo address :=
              mt (Heap.Settled.within since.within) settled
            have visits : Ensures (memo.Since heap)
                (copyUserFunction receiver (copy heap receiver fuel) · (heap.function address))
                fun _ => ∀ task ∈ (heap.function address).tasks, Ends (heap.Calls memo) task :=
              copyUserFunction_visits ih (fun _ filename since => since.copyFilename filename) _
            rw [copyFunction_of_not_settled settled] at done
            split at done
            · obtain ⟨since, visited⟩ := visits state after result since done
              refine ⟨since, ends_of_calls ?_⟩
              rw [Heap.tasks, if_neg notSettled]
              exact visited
            · obtain ⟨first, copied, isAfter⟩ := Option.map_eq_some_iff.mp done
              obtain ⟨since, visited⟩ := visits state first.1 first.2 since copied
              cases isAfter
              have ends : Ends (heap.Calls memo) (.function address) := by
                apply ends_of_calls
                rw [Heap.tasks, if_neg notSettled]
                exact visited
              exact ⟨since.resolve ends first.2, ends⟩

/-- Copying ends exactly when the recursion does. -/
theorem copied_iff_ends {memo : Memo Address} {task : Task Address} :
    (∃ fuel after result, copy heap receiver fuel memo task = some (after, result)) ↔
      Ends (heap.Calls memo) task := by
  constructor
  · rintro ⟨fuel, after, result, done⟩
    exact (ensures_ends fuel task memo after result (Memo.Since.refl memo) done).2
  · intro ends
    obtain ⟨fuel, copies⟩ := copies_of_ends receiver ends
    obtain ⟨after, result, done, -⟩ := copies memo (Memo.Within.refl memo)
    exact ⟨fuel, after, result, done⟩

theorem not_copied_of_cycle {memo : Memo Address} {task : Task Address}
    (cycle : TransGen (heap.Calls memo) task task) (fuel : Nat) :
    copy heap receiver fuel memo task = none := by
  by_contra isCopied
  obtain ⟨outcome, done⟩ := Option.ne_none_iff_exists'.mp isCopied
  exact (copied_iff_ends.mp ⟨fuel, outcome.1, outcome.2, done⟩).not_cycle cycle

end Ending

instance [Finite Address] : Finite (Task Address) := by
  let code : Task Address → Address × Fin 4 := fun task =>
    match task with
    | .referent address => (address, 0)
    | .array address => (address, 1)
    | .ast address => (address, 2)
    | .function address => (address, 3)
  apply Finite.of_injective code
  intro task other same
  cases task <;> cases other <;> simp_all [code]

/-- Nothing has been copied yet. -/
def freshMemo : Memo Address := ⟨OrderedTable.empty, OrderedTable.empty⟩

/-- A function that has nothing but static variables. -/
def functionWith (closure : Bool) (staticVariables : List (ZString × Slot Address)) :
    SourceFunction Address where
  internal := false
  immutable := false
  closure := closure
  refcounted := true
  parts :=
    { functionName := ⟨[102], .counted 0⟩
      docComment := none
      filename := ⟨[47], .counted 0⟩
      code := ⟨[], [], [], [], []⟩
      staticVariables := staticVariables }

/-- `function f() { static $x = [[1]]; }`, where the inner array is behind a reference. -/
def nestedHeap : Heap (Fin 2) where
  referent := fun _ => .constant (.array 1 true)
  array := fun address =>
    if address = 0 then [(.index 0, .reference 0)] else [(.index 0, .constant (.scalar (.long 1)))]
  ast := fun _ => .constant 0 ⟨[110], .permanent⟩
  function := fun _ => functionWith false [(⟨[120], .counted 0⟩, .constant (.array 0 true))]

/-- `$a = [&$a]` and `$f = function() use (&$f) {}`. -/
def cyclicHeap : Heap (Fin 2) where
  referent := fun address => if address = 0 then .constant (.array 0 true) else .closure 0
  array := fun _ => [(.index 0, .reference 0)]
  ast := fun _ => .constant 0 ⟨[110], .permanent⟩
  function := fun _ => functionWith true [(⟨[102], .counted 0⟩, .reference 1)]

def otherThread : Receiver := ⟨1, fun _ => false⟩

def nestedRank : Task (Fin 2) → Nat
  | .function _ => 3
  | .array address => if address = 0 then 2 else 0
  | .referent _ => 1
  | .ast _ => 0

theorem nestedRank_lt {task other : Task (Fin 2)} (called : nestedHeap.Calls freshMemo task other) :
    nestedRank other < nestedRank task := by
  unfold Heap.Calls at called
  cases task with
  | referent address =>
      cases List.mem_singleton.mp called
      exact Nat.zero_lt_one
  | array address =>
      by_cases outer : address = 0
      · subst outer
        cases List.mem_singleton.mp called
        decide
      · simp [Heap.tasks, nestedHeap, outer, Slot.tasks, Constant.tasks] at called
  | ast address => cases called
  | function address =>
      cases List.mem_singleton.mp called
      exact Nat.lt_succ_self 2

end Pthreads.ValueCopies
