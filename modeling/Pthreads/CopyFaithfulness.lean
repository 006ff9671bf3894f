import Pthreads.CopyTermination
import Mathlib.Data.List.ReduceOption

/-!
# What the copy of a value is

`pthreads_copy_zval` copies a value with everything in it.  References and indirections
are followed, elements that cannot be copied are left out of arrays, and variables bound
to a closure that cannot be copied become null.  Here such a copy is a relation between
the values of the source and what the receiving thread has, and copying is shown to
establish it.
-/

namespace Pthreads.ValueCopies

open RecursiveCalls Relation

section Relations

variable {Address : Type}

/-- Null, a bool, an int, a float, a string, an array, a constant expression, a
`Threaded` object or a closure. -/
def Slot.copyable : Slot Address → Bool
  | .constant _ | .threaded _ | .closure _ => true
  | _ => false

/-- The value that is reached through references and indirections. -/
inductive Heap.Leads (heap : Heap Address) : Slot Address → Slot Address → Prop
  | value {slot : Slot Address} (copyable : slot.copyable = true) : heap.Leads slot slot
  | reference {target : Address} {value : Slot Address}
      (leads : heap.Leads (heap.referent target) value) : heap.Leads (.reference target) value
  | indirect {target : Address} {value : Slot Address}
      (leads : heap.Leads (heap.referent target) value) : heap.Leads (.indirect target) value

/-- References and indirections lead to a value that can be copied. -/
def Heap.Copyable (heap : Heap Address) (slot : Slot Address) : Prop :=
  ∃ value, heap.Leads slot value

section Copies

variable [DecidableEq Address] (heap : Heap Address) (receiver : Receiver) (memo : Memo Address)

mutual

/-- A copy of a value, at every depth. -/
inductive DeepCopy : Slot Address → Copied Address → Prop
  | scalar (content : Scalar) : DeepCopy (.constant (.scalar content)) (.scalar content)
  | string (text : ZString) :
      DeepCopy (.constant (.string text)) (.string (copyString receiver text))
  | array {address : Address} {refcounted : Bool} {copies : List (Key × Copied Address)}
      (elements : DeepElements (heap.array address) copies) :
      DeepCopy (.constant (.array address refcounted)) (.array copies)
  | ast {address : Address} {refcounted : Bool} {tree : Copied Address}
      (copy : DeepAst (heap.ast address) tree) :
      DeepCopy (.constant (.ast address refcounted)) (.ast tree)
  | reference {target : Address} {copied : Copied Address}
      (copy : DeepCopy (heap.referent target) copied) : DeepCopy (.reference target) copied
  | indirect {target : Address} {copied : Copied Address}
      (copy : DeepCopy (heap.referent target) copied) : DeepCopy (.indirect target) copied
  | threaded (object : Nat) : DeepCopy (.threaded object) (.threaded object)
  | closure {function : Address} {copied : Copied Address} (copy : DeepFunction function copied) :
      DeepCopy (.closure function) (.closure copied)

/-- The elements whose values can be copied, in their order and under the same keys. -/
inductive DeepElements : List (Key × Slot Address) → List (Key × Copied Address) → Prop
  | nil : DeepElements [] []
  | copied {key : Key} {slot : Slot Address} {value : Copied Address}
      {elements : List (Key × Slot Address)} {copies : List (Key × Copied Address)}
      (copy : DeepCopy slot value) (others : DeepElements elements copies) :
      DeepElements ((key, slot) :: elements) ((copyKey receiver key, value) :: copies)
  | dropped {key : Key} {slot : Slot Address} {elements : List (Key × Slot Address)}
      {copies : List (Key × Copied Address)} (uncopyable : ¬ heap.Copyable slot)
      (others : DeepElements elements copies) : DeepElements ((key, slot) :: elements) copies

/-- The same tree with copied leaves.  A leaf that cannot be copied is not initialised. -/
inductive DeepAst : AstNode Address → Copied Address → Prop
  | zval {attr : Nat} {content : Slot Address} {value : Copied Address}
      (copy : DeepCopy content value) : DeepAst (.zval attr content) (.astZval attr (some value))
  | uninitialised {attr : Nat} {content : Slot Address} (uncopyable : ¬ heap.Copyable content) :
      DeepAst (.zval attr content) (.astZval attr none)
  | constant (attr : Nat) (name : ZString) :
      DeepAst (.constant attr name) (.astConstant attr (copyString receiver name))
  | tree {kind attr : Nat} {children : List (Option Address)}
      {copies : List (Option (Copied Address))} (each : DeepChildren children copies) :
      DeepAst (.tree kind attr children) (.astTree kind attr copies)

/-- The children of a node; some may be missing. -/
inductive DeepChildren : List (Option Address) → List (Option (Copied Address)) → Prop
  | nil : DeepChildren [] []
  | missing {children : List (Option Address)} {copies : List (Option (Copied Address))}
      (others : DeepChildren children copies) : DeepChildren (none :: children) (none :: copies)
  | child {address : Address} {copied : Copied Address} {children : List (Option Address)}
      {copies : List (Option (Copied Address))} (copy : DeepAst (heap.ast address) copied)
      (others : DeepChildren children copies) :
      DeepChildren (some address :: children) (some copied :: copies)

/-- The function of a closure: used in place, found in the table of the thread, or copied
with its bound variables. -/
inductive DeepFunction : Address → Copied Address → Prop
  | inPlace {address : Address}
      (shared :
        (heap.function address).immutable = true ∨ (heap.function address).internal = true) :
      DeepFunction address (.functionInPlace address)
  | resolved {address : Address} {copied : Copied Address}
      (named : (heap.function address).closure = false)
      (found : memo.resolve.find address = some copied) : DeepFunction address copied
  | copied {address : Address}
      {parts : FunctionParts (Copied Address) (Copied Address) (Copied Address)}
      (statics : DeepBound (heap.function address).parts.staticVariables parts.staticVariables) :
      DeepFunction address (.function parts)

/-- The static and the bound variables of a function. -/
inductive DeepBound : List (ZString × Slot Address) → List (ZString × Copied Address) → Prop
  | nil : DeepBound [] []
  | copied {name : ZString} {slot : Slot Address} {value : Copied Address}
      {statics : List (ZString × Slot Address)} {copies : List (ZString × Copied Address)}
      (copy : DeepCopy slot value) (others : DeepBound statics copies) :
      DeepBound ((name, slot) :: statics) ((copyString receiver name, value) :: copies)
  | null {name : ZString} {slot : Slot Address} {statics : List (ZString × Slot Address)}
      {copies : List (ZString × Copied Address)} (uncopyable : ¬ heap.Copyable slot)
      (others : DeepBound statics copies) :
      DeepBound ((name, slot) :: statics) ((copyString receiver name, .scalar .null) :: copies)

end

/-- What `pthreads_copy_zval` has made of a value. -/
def CopiedAs (slot : Slot Address) : Option (Copied Address) → Prop
  | none => ¬ heap.Copyable slot
  | some copied => DeepCopy heap receiver memo slot copied

end Copies

/-- What is in an array or a constant expression, at every depth, and the copy itself. -/
inductive Copied.Contains : Copied Address → Copied Address → Prop
  | itself (copied : Copied Address) : copied.Contains copied
  | element {elements : List (Key × Copied Address)} {element : Key × Copied Address}
      {inner : Copied Address} (isIn : element ∈ elements) (contains : element.2.Contains inner) :
      (Copied.array elements).Contains inner
  | expression {tree inner : Copied Address} (contains : tree.Contains inner) :
      (Copied.ast tree).Contains inner
  | leaf {attr : Nat} {content inner : Copied Address} (contains : content.Contains inner) :
      (Copied.astZval attr (some content)).Contains inner
  | child {kind attr : Nat} {children : List (Option (Copied Address))}
      {child inner : Copied Address}
      (isIn : some child ∈ children) (contains : child.Contains inner) :
      (Copied.astTree kind attr children).Contains inner

/-- Nothing that the copying comes to from a value leads back to itself. -/
def Heap.Acyclic [DecidableEq Address] (heap : Heap Address) (memo : Memo Address)
    (slot : Slot Address) : Prop :=
  ∀ task ∈ slot.tasks, ∀ other, ReflTransGen (heap.Calls memo) task other →
    ¬ TransGen (heap.Calls memo) other other

end Relations

section Copyable

variable {Address : Type} {heap : Heap Address}

theorem copyable_reference {target : Address} :
    heap.Copyable (.reference target) ↔ heap.Copyable (heap.referent target) := by
  constructor
  · rintro ⟨value, leads⟩
    cases leads with
    | value copyable => cases copyable
    | reference leads => exact ⟨value, leads⟩
  · rintro ⟨value, leads⟩
    exact ⟨value, leads.reference⟩

theorem copyable_indirect {target : Address} :
    heap.Copyable (.indirect target) ↔ heap.Copyable (heap.referent target) := by
  constructor
  · rintro ⟨value, leads⟩
    cases leads with
    | value copyable => cases copyable
    | indirect leads => exact ⟨value, leads⟩
  · rintro ⟨value, leads⟩
    exact ⟨value, leads.indirect⟩

theorem not_copyable_undef : ¬ heap.Copyable .undef := by
  rintro ⟨value, leads⟩
  cases leads with
  | value copyable => cases copyable

theorem not_copyable_other : ¬ heap.Copyable .other := by
  rintro ⟨value, leads⟩
  cases leads with
  | value copyable => cases copyable

variable [DecidableEq Address] {receiver : Receiver} {memo : Memo Address}

theorem copyable_of_deepCopy : ∀ {slot : Slot Address} {copied : Copied Address},
    DeepCopy heap receiver memo slot copied → heap.Copyable slot
  | _, _, .scalar _ | _, _, .string _ | _, _, .array _ | _, _, .ast _
  | _, _, .threaded _ | _, _, .closure _ => ⟨_, .value rfl⟩
  | _, _, .reference copy => copyable_reference.mpr (copyable_of_deepCopy copy)
  | _, _, .indirect copy => copyable_indirect.mpr (copyable_of_deepCopy copy)

theorem CopiedAs.isSome_iff {slot : Slot Address} {result : Option (Copied Address)}
    (copiedAs : CopiedAs heap receiver memo slot result) :
    result.isSome = true ↔ heap.Copyable slot := by
  cases result with
  | none => exact iff_of_false (Bool.false_ne_true) copiedAs
  | some copied => simpa using copyable_of_deepCopy copiedAs

end Copyable

section Copying

variable {Address : Type} [DecidableEq Address] {heap : Heap Address} {receiver : Receiver}
variable {memo : Memo Address}

/-- What has been resolved since was copied in the same way. -/
def Memo.Faithful (heap : Heap Address) (receiver : Receiver) (memo state : Memo Address) : Prop :=
  ∀ address copied, state.resolve.find address = some copied →
    memo.resolve.find address = some copied ∨ DeepFunction heap receiver memo address copied

theorem Memo.Faithful.refl (memo : Memo Address) : memo.Faithful heap receiver memo :=
  fun _ _ found => Or.inl found

theorem Memo.Faithful.copyFilename {state : Memo Address}
    (faithful : memo.Faithful heap receiver state) (filename : ZString) :
    memo.Faithful heap receiver (copyFilename receiver state filename).1 := by
  intro address copied found
  rw [resolve_copyFilename] at found
  exact faithful address copied found

theorem Memo.Faithful.resolve {state : Memo Address} (faithful : memo.Faithful heap receiver state)
    {address : Address} {copied : Copied Address}
    (copy : DeepFunction heap receiver memo address copied) :
    memo.Faithful heap receiver
      { state with resolve := state.resolve.update address copied } := by
  intro other earlier found
  rcases OrderedTable.find_update_cases found with ⟨rfl, rfl⟩ | ⟨-, found⟩
  · exact Or.inr copy
  · exact faithful other earlier found

/-- The result of a task is a copy of what the task is about. -/
def Task.Deep (heap : Heap Address) (receiver : Receiver) (memo : Memo Address) :
    (task : Task Address) → task.Result → Prop
  | .referent address, result => CopiedAs heap receiver memo (heap.referent address) result
  | .array address, copied => ∃ copies : List (Key × Copied Address),
      copied = Copied.array copies ∧ DeepElements heap receiver memo (heap.array address) copies
  | .ast address, tree => DeepAst heap receiver memo (heap.ast address) tree
  | .function address, copied => DeepFunction heap receiver memo address copied

theorem deepElements_of_results {elements : List (Key × Slot Address)}
    {results : List (Option (Key × Copied Address))}
    (each : List.Forall₂ (fun element result => ∃ value,
      CopiedAs heap receiver memo element.2 value ∧
        result = value.map fun value => (copyKey receiver element.1, value)) elements results) :
    DeepElements heap receiver memo elements results.reduceOption := by
  induction each with
  | nil => exact .nil
  | cons first others ih =>
      obtain ⟨value, copiedAs, rfl⟩ := first
      cases value with
      | none =>
          rw [Option.map_none, List.reduceOption_cons_of_none]
          exact .dropped copiedAs ih
      | some value =>
          rw [Option.map_some, List.reduceOption_cons_of_some]
          exact .copied copiedAs ih

theorem deepBound_of_results {statics : List (ZString × Slot Address)}
    {results : List (ZString × Copied Address)}
    (each : List.Forall₂ (fun static result => ∃ value,
      CopiedAs heap receiver memo static.2 value ∧
        result = (copyString receiver static.1, value.getD (.scalar .null))) statics results) :
    DeepBound heap receiver memo statics results := by
  induction each with
  | nil => exact .nil
  | cons first others ih =>
      obtain ⟨value, copiedAs, rfl⟩ := first
      cases value with
      | none => exact .null copiedAs ih
      | some value => exact .copied copiedAs ih

/-- A child that is missing, or its copy. -/
def DeepChild (heap : Heap Address) (receiver : Receiver) (memo : Memo Address) :
    Option Address → Option (Copied Address) → Prop
  | none, result => result = none
  | some address, result => ∃ tree, result = some tree ∧
      DeepAst heap receiver memo (heap.ast address) tree

theorem deepChildren_of_results {children : List (Option Address)}
    {results : List (Option (Copied Address))}
    (each : List.Forall₂ (DeepChild heap receiver memo) children results) :
    DeepChildren heap receiver memo children results := by
  induction each with
  | nil => exact .nil
  | @cons child result _ _ first others ih =>
      cases child with
      | none =>
          cases first
          exact .missing ih
      | some address =>
          obtain ⟨tree, rfl, copy⟩ := first
          exact .child copy ih

variable {call : Memo Address → (task : Task Address) → Option (Memo Address × task.Result)}
variable (calls : ∀ task, Ensures (memo.Faithful heap receiver) (call · task)
  (task.Deep heap receiver memo))
include calls

theorem copyConstant_deep (content : Constant Address) :
    Ensures (memo.Faithful heap receiver) (copyConstant receiver call · content)
      (DeepCopy heap receiver memo (.constant content)) := by
  cases content with
  | scalar content => exact ensures_done (.scalar content)
  | string text => exact ensures_done (.string text)
  | array address refcounted =>
      apply (calls (.array address)).weaken
      rintro _ ⟨copies, rfl, elements⟩
      exact .array elements
  | ast address refcounted =>
      apply (calls (.ast address)).map
      intro done holds copy
      exact ⟨holds, .ast copy⟩

theorem copyZval_deep (slot : Slot Address) :
    Ensures (memo.Faithful heap receiver) (copyZval receiver call · slot)
      (CopiedAs heap receiver memo slot) := by
  cases slot with
  | undef => exact ensures_done not_copyable_undef
  | constant content =>
      apply (copyConstant_deep calls content).map
      intro done holds copy
      exact ⟨holds, copy⟩
  | reference target =>
      apply (calls (.referent target)).weaken
      intro result copiedAs
      cases result with
      | none => exact mt copyable_reference.mp copiedAs
      | some copied => exact .reference copiedAs
  | indirect target =>
      apply (calls (.referent target)).weaken
      intro result copiedAs
      cases result with
      | none => exact mt copyable_indirect.mp copiedAs
      | some copied => exact .indirect copiedAs
  | threaded object => exact ensures_done (.threaded object)
  | closure function =>
      apply (calls (.function function)).map
      intro done holds copy
      exact ⟨holds, .closure copy⟩
  | other => exact ensures_done not_copyable_other

theorem copyHash_deep (elements : List (Key × Slot Address)) :
    Ensures (memo.Faithful heap receiver) (copyHash receiver call · elements)
      fun copied => ∃ copies, copied = .array copies ∧
        DeepElements heap receiver memo elements copies := by
  have each : ∀ element ∈ elements, Ensures (memo.Faithful heap receiver)
      (copyElement receiver call · element) fun result => ∃ value,
        CopiedAs heap receiver memo element.2 value ∧
          result = value.map fun value => (copyKey receiver element.1, value) := by
    intro element _
    apply (copyZval_deep calls element.2).map
    intro done holds copiedAs
    exact ⟨holds, done.2, copiedAs, rfl⟩
  apply (traverse_ensures each).map
  intro done holds results
  exact ⟨holds, _, rfl, deepElements_of_results results⟩

theorem copyAstTree_deep (node : AstNode Address) :
    Ensures (memo.Faithful heap receiver) (copyAstTree receiver call · node)
      (DeepAst heap receiver memo node) := by
  cases node with
  | zval attr content =>
      apply (copyZval_deep calls content).map
      rintro ⟨state, result⟩ holds copiedAs
      refine ⟨holds, ?_⟩
      cases result with
      | none => exact .uninitialised copiedAs
      | some value => exact .zval copiedAs
  | constant attr name => exact ensures_done (.constant attr name)
  | tree kind attr children =>
      have each : ∀ child ∈ children, Ensures (memo.Faithful heap receiver)
          (copyChild call · child) (DeepChild heap receiver memo child) := by
        intro child _
        cases child with
        | none => exact ensures_done rfl
        | some address =>
            apply (calls (.ast address)).map
            intro done holds copy
            exact ⟨holds, done.2, rfl, copy⟩
      apply (traverse_ensures each).map
      intro done holds results
      exact ⟨holds, .tree (deepChildren_of_results results)⟩

theorem copyUserFunction_deep (address : Address) :
    Ensures (memo.Faithful heap receiver)
      (copyUserFunction receiver call · (heap.function address))
      (DeepFunction heap receiver memo address) := by
  have code : Ensures (memo.Faithful heap receiver)
      (fun state => if (heap.function address).refcounted then
          copyCode receiver call state (heap.function address).parts.code
        else some (state, (heap.function address).parts.code.inPlace))
      fun _ => True := by
    split
    · have kept : Ensures (memo.Faithful heap receiver)
          (copyCode receiver call · (heap.function address).parts.code)
          fun _ => ∀ task ∈ (heap.function address).parts.code.tasks, True :=
        copyCode_visits (fun task => (calls task).weaken fun _ _ => trivial) _
      exact kept.weaken fun _ _ => trivial
    · exact ensures_done trivial
  have statics : Ensures (memo.Faithful heap receiver)
      (traverse (copyStatic receiver call) · (heap.function address).parts.staticVariables)
      (DeepBound heap receiver memo (heap.function address).parts.staticVariables) := by
    have each : ∀ static ∈ (heap.function address).parts.staticVariables,
        Ensures (memo.Faithful heap receiver) (copyStatic receiver call · static)
          fun result => ∃ value, CopiedAs heap receiver memo static.2 value ∧
            result = (copyString receiver static.1, value.getD (.scalar .null)) := by
      intro static _
      apply (copyZval_deep calls static.2).map
      intro done holds copiedAs
      exact ⟨holds, done.2, copiedAs, rfl⟩
    exact (traverse_ensures each).weaken fun results bound => deepBound_of_results bound
  intro state after copied holds done
  obtain ⟨first, copiedCode, done⟩ := Option.bind_eq_some_iff.mp done
  obtain ⟨second, copiedStatics, isAfter⟩ := Option.map_eq_some_iff.mp done
  obtain ⟨holds, -⟩ := code _ first.1 first.2
    (holds.copyFilename (heap.function address).parts.filename) copiedCode
  obtain ⟨holds, bound⟩ := statics first.1 second.1 second.2 holds copiedStatics
  cases isAfter
  exact ⟨holds, .copied bound⟩

theorem copyFunction_deep (address : Address) :
    Ensures (memo.Faithful heap receiver) (copyFunction heap receiver call · address)
      (DeepFunction heap receiver memo address) := by
  have unresolved : Ensures (memo.Faithful heap receiver)
      (copyUnresolved heap receiver call · address) (DeepFunction heap receiver memo address) := by
    unfold copyUnresolved
    split
    · next internal => exact ensures_done (.inPlace (Or.inr internal))
    · exact copyUserFunction_deep calls address
  unfold copyFunction
  split
  · next immutable => exact ensures_done (.inPlace (Or.inl immutable))
  · split
    · exact unresolved
    · next named =>
      intro state after copied holds done
      cases found : state.resolve.find address with
      | some copy =>
          simp only [found] at done
          cases done
          refine ⟨holds, ?_⟩
          rcases holds address copied found with earlier | copy
          · exact .resolved (Bool.eq_false_iff.mpr named) earlier
          · exact copy
      | none =>
          simp only [found] at done
          obtain ⟨first, copies, isAfter⟩ := Option.map_eq_some_iff.mp done
          obtain ⟨holds, copy⟩ := unresolved state first.1 first.2 holds copies
          cases isAfter
          exact ⟨holds.resolve copy, copy⟩

end Copying

section Result

variable {Address : Type} [DecidableEq Address] {heap : Heap Address} {receiver : Receiver}
variable {memo : Memo Address}

theorem copy_deep (fuel : Nat) (task : Task Address) :
    Ensures (memo.Faithful heap receiver) (copy heap receiver fuel · task)
      (task.Deep heap receiver memo) := by
  induction fuel generalizing task with
  | zero =>
      intro state after result _ done
      cases done
  | succ fuel ih =>
      cases task with
      | referent address => exact copyZval_deep ih (heap.referent address)
      | array address => exact copyHash_deep ih (heap.array address)
      | ast address => exact copyAstTree_deep ih (heap.ast address)
      | function address => exact copyFunction_deep ih address

/-- What the copy of a value, with the references to it followed, is made of. -/
theorem DeepCopy.parts : ∀ {slot : Slot Address} {copied : Copied Address},
    DeepCopy heap receiver memo slot copied →
      match copied with
      | .scalar _ | .string _ | .threaded _ | .closure _ => True
      | .array copies => ∃ elements, DeepElements heap receiver memo elements copies
      | .ast tree => ∃ node, DeepAst heap receiver memo node tree
      | _ => False
  | _, _, .scalar _ | _, _, .string _ | _, _, .threaded _ | _, _, .closure _ => trivial
  | _, _, .array elements => ⟨_, elements⟩
  | _, _, .ast copy => ⟨_, copy⟩
  | _, _, .reference copy | _, _, .indirect copy => copy.parts

theorem DeepElements.element {elements : List (Key × Slot Address)}
    {copies : List (Key × Copied Address)} {element : Key × Copied Address}
    (each : DeepElements heap receiver memo elements copies) (isIn : element ∈ copies) :
    ∃ slot, DeepCopy heap receiver memo slot element.2 := by
  induction elements generalizing copies with
  | nil =>
      cases each
      cases isIn
  | cons first elements ih =>
      cases each with
      | copied copy others =>
          rcases List.mem_cons.mp isIn with rfl | isIn
          · exact ⟨_, copy⟩
          · exact ih others isIn
      | dropped _ others => exact ih others isIn

theorem DeepChildren.tree {children : List (Option Address)}
    {copies : List (Option (Copied Address))} {tree : Copied Address}
    (each : DeepChildren heap receiver memo children copies) (isIn : some tree ∈ copies) :
    ∃ node, DeepAst heap receiver memo node tree := by
  induction children generalizing copies with
  | nil =>
      cases each
      cases isIn
  | cons first children ih =>
      cases each with
      | missing others =>
          rcases List.mem_cons.mp isIn with same | isIn
          · cases same
          · exact ih others isIn
      | child copy others =>
          rcases List.mem_cons.mp isIn with same | isIn
          · cases same
            exact ⟨_, copy⟩
          · exact ih others isIn

/-- Nothing in a copy is a value of the source in place, so that no reference is left. -/
theorem Copied.Contains.owned {copied inner : Copied Address} (contains : copied.Contains inner)
    (isCopy : (∃ slot, DeepCopy heap receiver memo slot copied) ∨
      ∃ node, DeepAst heap receiver memo node copied) (source : Slot Address) :
    inner ≠ .slotInPlace source := by
  induction contains with
  | itself copied =>
      rintro rfl
      rcases isCopy with ⟨slot, copy⟩ | ⟨node, copy⟩
      · exact copy.parts
      · cases copy
  | element isIn _ ih =>
      rcases isCopy with ⟨slot, copy⟩ | ⟨node, copy⟩
      · obtain ⟨elements, each⟩ := copy.parts
        exact ih (Or.inl (each.element isIn))
      · cases copy
  | expression _ ih =>
      rcases isCopy with ⟨slot, copy⟩ | ⟨node, copy⟩
      · exact ih (Or.inr copy.parts)
      · cases copy
  | leaf _ ih =>
      rcases isCopy with ⟨slot, copy⟩ | ⟨node, copy⟩
      · exact copy.parts.elim
      · cases copy with
        | zval copy => exact ih (Or.inl ⟨_, copy⟩)
  | child isIn _ ih =>
      rcases isCopy with ⟨slot, copy⟩ | ⟨node, copy⟩
      · exact copy.parts.elim
      · cases copy with
        | tree each => exact ih (Or.inr (each.tree isIn))

theorem copyZval_ends [Finite Address] (receiver : Receiver) {slot : Slot Address}
    (acyclic : heap.Acyclic memo slot) :
    ∃ enough, ∀ fuel, enough ≤ fuel → ∃ after result,
      copyZval receiver (copy heap receiver fuel) memo slot = some (after, result) := by
  have calls : ∀ task ∈ slot.tasks, ∃ fuel, heap.Copies receiver memo fuel task :=
    fun task isTask =>
    copies_of_ends receiver ((ends_iff task).mpr (acyclic task isTask))
  obtain ⟨enough, copies⟩ := exists_common_fuel calls
  refine ⟨enough, ?_⟩
  intro fuel isEnough
  obtain ⟨after, result, done, -⟩ := copyZval_succeeds
    (fun task isTask => (copies task isTask).mono isEnough) memo (Memo.Within.refl memo)
  exact ⟨after, result, done⟩

end Result

/-- `[1 => $object, 'x' => [&$one]]`, of which the object cannot be copied. -/
def mixedHeap : Heap Bool where
  referent := fun _ => .constant (.scalar (.long 1))
  array
    | true => [(.index 1, .other), (.name ⟨[120], .counted 0⟩, .constant (.array false true))]
    | false => [(.index 0, .reference false)]
  ast := fun _ => .constant 0 ⟨[110], .permanent⟩
  function := fun _ => functionWith false []

def mixedRank : Task Bool → Nat
  | .array true => 2
  | .array false => 1
  | _ => 0

theorem mixedHeap_acyclic : mixedHeap.Acyclic freshMemo (.constant (.array true true)) := by
  intro _ _ other _
  apply not_cycle_of_rank mixedRank
  intro task other called
  cases task with
  | referent address => cases called
  | ast address => cases called
  | function address => cases called
  | array address =>
      cases address <;> cases List.mem_singleton.mp called <;> decide

end Pthreads.ValueCopies
