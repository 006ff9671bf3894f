import Mathlib.Data.List.ReduceOption
import Pthreads.ValueCopies

/-!
# The strings of copies

A string that is not permanent belongs to the thread that has made it, and is gone
when that thread ends.  This file says which strings can be reached from a copy, and
shows that copying a value or a function leaves none of the source's behind, except
what lies in shared memory and is permanent.
-/

namespace Pthreads.ValueCopies

open RecursiveCalls

variable {Address : Type}

/-- The receiving thread may keep the string: it is permanent or its own. -/
def ZString.Local (receiver : Receiver) (text : ZString) : Prop :=
  text.residence = .permanent ∨ text.residence = .interned receiver.thread ∨
    text.residence = .counted receiver.thread

instance (receiver : Receiver) (text : ZString) : Decidable (text.Local receiver) :=
  inferInstanceAs (Decidable (_ ∨ _ ∨ _))

section Strings

def Key.strings : Key → List ZString
  | .index _ => []
  | .name text => [text]

def Constant.strings : Constant Address → List ZString
  | .string text => [text]
  | _ => []

def Slot.strings : Slot Address → List ZString
  | .constant content => content.strings
  | _ => []

def AstNode.strings : AstNode Address → List ZString
  | .zval _ content => content.strings
  | .constant _ name => [name]
  | .tree _ _ _ => []

def ArgInfo.strings (info : ArgInfo) : List ZString :=
  info.name.toList ++ info.type.names

/-- The strings of an attribute besides those in the values of its arguments. -/
def Attribute.strings {Content : Type} (attr : Attribute Content) : List ZString :=
  attr.name :: attr.lcname :: attr.arguments.filterMap Prod.fst

/-- The strings of code besides those in its values and functions. -/
def Code.strings {Value Content Function : Type} (code : Code Value Content Function) :
    List ZString :=
  code.argInfo.flatMap ArgInfo.strings ++ code.vars ++ code.attributes.flatMap Attribute.strings

/-- The strings of a function besides those in its values and functions. -/
def FunctionParts.strings {Value Content Function : Type}
    (parts : FunctionParts Value Content Function) : List ZString :=
  parts.functionName :: parts.filename :: (parts.docComment.toList ++ parts.code.strings ++
    parts.staticVariables.map Prod.fst)

/-- The strings that are values in code of the source. -/
def Code.slotStrings (code : Code (Slot Address) (Constant Address) Address) : List ZString :=
  code.literals.flatMap Slot.strings ++
    code.attributes.flatMap fun attr => attr.arguments.flatMap fun argument => argument.2.strings

/-- The strings of what a task stands for, without following addresses. -/
def Heap.strings (heap : Heap Address) : Task Address → List ZString
  | .referent address => (heap.referent address).strings
  | .array address =>
      (heap.array address).flatMap fun element => element.1.strings ++ element.2.strings
  | .ast address => (heap.ast address).strings
  | .function address =>
      (heap.function address).parts.strings ++ (heap.function address).parts.code.slotStrings ++
        (heap.function address).parts.staticVariables.flatMap fun static => static.2.strings

/-- What a task refers to by address. -/
def Heap.parts (heap : Heap Address) : Task Address → List (Task Address)
  | .referent address => (heap.referent address).tasks
  | .array address => (heap.array address).flatMap fun element => element.2.tasks
  | .ast address => (heap.ast address).tasks
  | .function address =>
      (heap.function address).parts.code.tasks ++
        (heap.function address).parts.staticVariables.flatMap fun static => static.2.tasks

/-- A string that can be reached in the memory of the source. -/
inductive Heap.Has (heap : Heap Address) : Task Address → ZString → Prop
  | here {task : Task Address} {text : ZString} (isIn : text ∈ heap.strings task) :
      Has heap task text
  | within {task part : Task Address} {text : ZString} (isPart : part ∈ heap.parts task)
      (has : Has heap part text) : Has heap task text

/-- A string that can be reached from a `zval` of the source. -/
def Heap.SlotHas (heap : Heap Address) (slot : Slot Address) (text : ZString) : Prop :=
  text ∈ slot.strings ∨ ∃ task ∈ slot.tasks, heap.Has task text

/-- A string that can be reached from code of the source. -/
def Heap.CodeHas (heap : Heap Address) (code : Code (Slot Address) (Constant Address) Address)
    (text : ZString) : Prop :=
  text ∈ code.strings ∨ text ∈ code.slotStrings ∨ ∃ task ∈ code.tasks, heap.Has task text

/-- The values and functions that code of the receiving thread has. -/
def Code.values (code : Code (Copied Address) (Copied Address) (Copied Address)) :
    List (Copied Address) :=
  code.literals ++ (code.attributes.flatMap fun attr => attr.arguments.map Prod.snd) ++
    code.dynamicFuncDefs

/-- The strings of a copy besides those of its parts. -/
def Copied.strings : Copied Address → List ZString
  | .string text => [text]
  | .array elements => elements.flatMap fun element => element.1.strings
  | .astConstant _ name => [name]
  | .function parts => parts.strings
  | _ => []

/-- The copies that a copy is made of. -/
def Copied.parts : Copied Address → List (Copied Address)
  | .array elements => elements.map Prod.snd
  | .closure body => [body]
  | .ast tree => [tree]
  | .astZval _ content => content.toList
  | .astTree _ _ children => children.reduceOption
  | .function parts => parts.code.values ++ parts.staticVariables.map Prod.snd
  | _ => []

/-- The strings of what is used in place. -/
def Copied.InPlace (heap : Heap Address) : Copied Address → ZString → Prop
  | .slotInPlace slot, text => heap.SlotHas slot text
  | .functionInPlace address, text => heap.Has (.function address) text
  | _, _ => False

/-- A string that can be reached from what the receiving thread has. -/
inductive Copied.Has (heap : Heap Address) : Copied Address → ZString → Prop
  | here {copied : Copied Address} {text : ZString} (isIn : text ∈ copied.strings) :
      Has heap copied text
  | within {copied part : Copied Address} {text : ZString} (isPart : part ∈ copied.parts)
      (has : Has heap part text) : Has heap copied text
  | inPlace {copied : Copied Address} {text : ZString} (has : copied.InPlace heap text) :
      Has heap copied text

/-- No string of another thread can be reached. -/
def Copied.Isolated (heap : Heap Address) (receiver : Receiver) (copied : Copied Address) : Prop :=
  ∀ text, copied.Has heap text → text.Local receiver

/-- What opcache has put into shared memory, and what is internal, has permanent strings
only. -/
structure SharedMemory (heap : Heap Address) : Prop where
  function : ∀ address,
    (heap.function address).immutable = true ∨ (heap.function address).internal = true →
      ∀ text, heap.Has (.function address) text → text.residence = .permanent
  code : ∀ address, (heap.function address).refcounted = false →
    ∀ text, heap.CodeHas (heap.function address).parts.code text → text.residence = .permanent

end Strings

section Isolation

variable {heap : Heap Address} {receiver : Receiver}

theorem isolated_iff {copied : Copied Address} :
    copied.Isolated heap receiver ↔
      (∀ text ∈ copied.strings, text.Local receiver) ∧
        (∀ part ∈ copied.parts, part.Isolated heap receiver) ∧
          ∀ text, copied.InPlace heap text → text.Local receiver := by
  constructor
  · intro isolated
    refine ⟨?_, ?_, ?_⟩
    · exact fun text isIn => isolated text (.here isIn)
    · exact fun part isPart text has => isolated text (.within isPart has)
    · exact fun text has => isolated text (.inPlace has)
  · rintro ⟨strings, parts, inPlace⟩ text has
    cases has with
    | here isIn => exact strings text isIn
    | within isPart has => exact parts _ isPart text has
    | inPlace has => exact inPlace text has

theorem local_of_permanent {text : ZString} (permanent : text.residence = .permanent) :
    text.Local receiver :=
  Or.inl permanent

theorem local_intern (bytes : Bytes) : (receiver.intern bytes).Local receiver := by
  unfold Receiver.intern ZString.Local
  split
  · exact Or.inl rfl
  · exact Or.inr (Or.inl rfl)

theorem local_copyString (text : ZString) : (copyString receiver text).Local receiver := by
  unfold copyString
  split
  · next permanent => exact local_of_permanent permanent
  · exact local_intern text.bytes
  · exact Or.inr (Or.inr rfl)

theorem bytes_copyString (text : ZString) : (copyString receiver text).bytes = text.bytes := by
  unfold copyString Receiver.intern
  split
  · rfl
  · rfl
  · rfl

theorem local_lowerString {text : ZString} (isLocal : text.Local receiver) :
    (lowerString receiver text).Local receiver := by
  unfold lowerString
  split
  · exact isLocal
  · exact Or.inr (Or.inr rfl)

theorem local_copyKey (key : Key) :
    ∀ text ∈ (copyKey receiver key).strings, text.Local receiver := by
  cases key with
  | index value => exact nofun
  | name text => exact List.forall_mem_singleton.mpr (local_copyString text)

theorem local_map_copyString (texts : List ZString) :
    ∀ text ∈ texts.map (copyString receiver), text.Local receiver :=
  List.forall_mem_map.mpr fun text _ => local_copyString text

theorem local_toList_copyString (text : Option ZString) :
    ∀ copied ∈ (text.map (copyString receiver)).toList, copied.Local receiver := by
  cases text with
  | none => exact nofun
  | some text => exact List.forall_mem_singleton.mpr (local_copyString text)

theorem local_copyArgInfo (info : ArgInfo) :
    ∀ text ∈ (copyArgInfo receiver info).strings, text.Local receiver :=
  List.forall_mem_append.mpr
    ⟨local_toList_copyString info.name, local_map_copyString info.type.names⟩

theorem isolated_scalar (content : Scalar) :
    (Copied.scalar content : Copied Address).Isolated heap receiver :=
  isolated_iff.mpr ⟨nofun, nofun, nofun⟩

theorem isolated_string {text : ZString} (isLocal : text.Local receiver) :
    (Copied.string text : Copied Address).Isolated heap receiver :=
  isolated_iff.mpr ⟨List.forall_mem_singleton.mpr isLocal, nofun, nofun⟩

theorem isolated_getD {result : Option (Copied Address)}
    (isolated : ∀ copied, result = some copied → copied.Isolated heap receiver) :
    (result.getD (.scalar .null)).Isolated heap receiver := by
  cases result with
  | none => exact isolated_scalar .null
  | some copied => exact isolated copied rfl

/-- An attribute whose strings, those of its arguments included, are isolated. -/
def Attribute.Isolated (heap : Heap Address) (receiver : Receiver)
    (attr : Attribute (Copied Address)) : Prop :=
  (∀ text ∈ attr.strings, text.Local receiver) ∧
    ∀ argument ∈ attr.arguments, argument.2.Isolated heap receiver

/-- Code whose strings, those of its values and functions included, are isolated. -/
def Code.Isolated (heap : Heap Address) (receiver : Receiver)
    (code : Code (Copied Address) (Copied Address) (Copied Address)) : Prop :=
  (∀ text ∈ code.strings, text.Local receiver) ∧
    ∀ value ∈ code.values, value.Isolated heap receiver

theorem strings_inPlace (code : Code (Slot Address) (Constant Address) Address) :
    code.inPlace.strings = code.strings := by
  have same : ∀ attr : Attribute (Constant Address),
      (Attribute.mk attr.name attr.lcname (attr.arguments.map fun argument =>
        (argument.1, Copied.slotInPlace (.constant argument.2)))).strings = attr.strings := by
    intro attr
    simp only [Attribute.strings, List.filterMap_map]
    rfl
  simp only [Code.strings, Code.inPlace, List.flatMap_map, same]

theorem codeHas_literal {code : Code (Slot Address) (Constant Address) Address}
    {literal : Slot Address} (isIn : literal ∈ code.literals) {text : ZString}
    (has : heap.SlotHas literal text) : heap.CodeHas code text := by
  rcases has with isText | ⟨task, isTask, has⟩
  · exact Or.inr (Or.inl (List.mem_append_left _ (List.mem_flatMap.mpr ⟨literal, isIn, isText⟩)))
  · exact Or.inr (Or.inr ⟨task, List.mem_append_left _ (List.mem_append_left _
      (List.mem_flatMap.mpr ⟨literal, isIn, isTask⟩)), has⟩)

theorem codeHas_argument {code : Code (Slot Address) (Constant Address) Address}
    {attr : Attribute (Constant Address)} (isAttribute : attr ∈ code.attributes)
    {argument : Option ZString × Constant Address} (isIn : argument ∈ attr.arguments)
    {text : ZString} (has : heap.SlotHas (.constant argument.2) text) :
    heap.CodeHas code text := by
  rcases has with isText | ⟨task, isTask, has⟩
  · exact Or.inr (Or.inl (List.mem_append_right _ (List.mem_flatMap.mpr ⟨attr, isAttribute,
      List.mem_flatMap.mpr ⟨argument, isIn, isText⟩⟩)))
  · exact Or.inr (Or.inr ⟨task, List.mem_append_left _ (List.mem_append_right _
      (List.mem_flatMap.mpr ⟨attr, isAttribute, List.mem_flatMap.mpr ⟨argument, isIn, isTask⟩⟩)),
      has⟩)

/-- Code in shared memory may be used in place. -/
theorem isolated_code_inPlace {code : Code (Slot Address) (Constant Address) Address}
    (permanent : ∀ text, heap.CodeHas code text → text.residence = .permanent) :
    code.inPlace.Isolated heap receiver := by
  constructor
  · intro text isIn
    rw [strings_inPlace] at isIn
    exact local_of_permanent (permanent text (Or.inl isIn))
  · intro value isValue
    apply isolated_iff.mpr
    rcases (List.mem_append.mp isValue).imp_left List.mem_append.mp with
        (isLiteral | isArgument) | isFunction
    · obtain ⟨literal, isIn, rfl⟩ := List.mem_map.mp isLiteral
      exact ⟨nofun, nofun, fun text has =>
        local_of_permanent (permanent text (codeHas_literal isIn has))⟩
    · obtain ⟨_, isCopy, isArgument⟩ := List.mem_flatMap.mp isArgument
      obtain ⟨attr, isAttribute, rfl⟩ := List.mem_map.mp isCopy
      obtain ⟨_, isPair, rfl⟩ := List.mem_map.mp isArgument
      obtain ⟨argument, isIn, rfl⟩ := List.mem_map.mp isPair
      exact ⟨nofun, nofun, fun text has =>
        local_of_permanent (permanent text (codeHas_argument isAttribute isIn has))⟩
    · obtain ⟨address, isIn, rfl⟩ := List.mem_map.mp isFunction
      have isTask : Task.function address ∈ code.tasks :=
        List.mem_append_right _ (List.mem_map_of_mem isIn)
      exact ⟨nofun, nofun, fun text has =>
        local_of_permanent (permanent text (Or.inr (Or.inr ⟨_, isTask, has⟩)))⟩

/-- What the receiving thread remembers is isolated. -/
structure Memo.Isolated [DecidableEq Address] (heap : Heap Address) (receiver : Receiver)
    (memo : Memo Address) : Prop where
  resolve : ∀ address copied, memo.resolve.find address = some copied →
    copied.Isolated heap receiver
  filenames : ∀ bytes filename, memo.filenames.find bytes = some filename →
    filename.Local receiver

variable [DecidableEq Address]

theorem Memo.Isolated.copyFilename {memo : Memo Address} (isolated : memo.Isolated heap receiver)
    (filename : ZString) :
    (copyFilename receiver memo filename).1.Isolated heap receiver ∧
      (copyFilename receiver memo filename).2.Local receiver := by
  unfold ValueCopies.copyFilename
  split
  · next copy found => exact ⟨isolated, isolated.filenames _ copy found⟩
  · refine ⟨⟨isolated.resolve, ?_⟩, local_copyString filename⟩
    intro bytes other found
    rcases OrderedTable.find_update_cases found with ⟨-, rfl⟩ | ⟨-, earlier⟩
    · exact local_copyString filename
    · exact isolated.filenames bytes other earlier

theorem Memo.Isolated.resolved {memo : Memo Address} (isolated : memo.Isolated heap receiver)
    (address : Address) {copied : Copied Address} (isIsolated : copied.Isolated heap receiver) :
    Memo.Isolated heap receiver
      { memo with resolve := memo.resolve.update address copied } where
  resolve := by
    intro other found isThere
    rcases OrderedTable.find_update_cases isThere with ⟨-, rfl⟩ | ⟨-, earlier⟩
    · exact isIsolated
    · exact isolated.resolve other found earlier
  filenames := isolated.filenames

/-- The result of a task is isolated. -/
def Task.Isolated (heap : Heap Address) (receiver : Receiver) :
    (task : Task Address) → task.Result → Prop
  | .referent _, result => ∀ copied : Copied Address, result = some copied →
      copied.Isolated heap receiver
  | .array _, copied => Copied.Isolated heap receiver copied
  | .ast _, copied => Copied.Isolated heap receiver copied
  | .function _, copied => Copied.Isolated heap receiver copied

section Copying

variable {call : Memo Address → (task : Task Address) → Option (Memo Address × task.Result)}
variable (calls : ∀ task, Ensures (Memo.Isolated heap receiver) (call · task)
  (task.Isolated heap receiver))
include calls

theorem copyConstant_isolated (content : Constant Address) :
    Ensures (Memo.Isolated heap receiver) (copyConstant receiver call · content)
      (Copied.Isolated heap receiver) := by
  cases content with
  | scalar content => exact ensures_done (isolated_scalar content)
  | string text => exact ensures_done (isolated_string (local_copyString text))
  | array address refcounted => exact calls (.array address)
  | ast address refcounted =>
      apply (calls (.ast address)).map
      intro done holds isolated
      exact ⟨holds, isolated_iff.mpr ⟨nofun, List.forall_mem_singleton.mpr isolated, nofun⟩⟩

theorem copyZval_isolated (slot : Slot Address) :
    Ensures (Memo.Isolated heap receiver) (copyZval receiver call · slot)
      fun result => ∀ copied, result = some copied → copied.Isolated heap receiver := by
  cases slot with
  | undef => exact ensures_done nofun
  | constant content =>
      apply (copyConstant_isolated calls content).map
      intro done holds isolated
      refine ⟨holds, ?_⟩
      rintro _ ⟨⟩
      exact isolated
  | reference target => exact calls (.referent target)
  | indirect target => exact calls (.referent target)
  | threaded object =>
      apply ensures_done
      rintro _ ⟨⟩
      exact isolated_iff.mpr ⟨nofun, nofun, nofun⟩
  | closure function =>
      apply (calls (.function function)).map
      intro done holds isolated
      refine ⟨holds, ?_⟩
      rintro _ ⟨⟩
      exact isolated_iff.mpr ⟨nofun, List.forall_mem_singleton.mpr isolated, nofun⟩
  | other => exact ensures_done nofun

theorem copyElement_isolated (element : Key × Slot Address) :
    Ensures (Memo.Isolated heap receiver) (copyElement receiver call · element)
      fun result => ∀ copied, result = some copied →
        (∀ text ∈ copied.1.strings, text.Local receiver) ∧ copied.2.Isolated heap receiver := by
  apply (copyZval_isolated calls element.2).map
  intro done holds isolated
  refine ⟨holds, ?_⟩
  intro copied isCopied
  obtain ⟨value, isValue, rfl⟩ := Option.map_eq_some_iff.mp isCopied
  exact ⟨local_copyKey element.1, isolated value isValue⟩

theorem copyHash_isolated (elements : List (Key × Slot Address)) :
    Ensures (Memo.Isolated heap receiver) (copyHash receiver call · elements)
      (Copied.Isolated heap receiver) := by
  apply (traverse_ensures_all _ fun element _ => copyElement_isolated calls element).map
  intro done holds isolated
  have each : ∀ element ∈ done.2.reduceOption,
      (∀ text ∈ element.1.strings, text.Local receiver) ∧ element.2.Isolated heap receiver :=
    fun element isIn => isolated _ (List.reduceOption_mem_iff.mp isIn) element rfl
  refine ⟨holds, isolated_iff.mpr ⟨?_, ?_, nofun⟩⟩
  · intro text isIn
    obtain ⟨element, isElement, isKey⟩ := List.mem_flatMap.mp isIn
    exact (each element isElement).1 text isKey
  · exact List.forall_mem_map.mpr fun element isElement => (each element isElement).2

theorem copyAttribute_isolated (attr : Attribute (Constant Address)) :
    Ensures (Memo.Isolated heap receiver) (copyAttribute receiver call · attr)
      (Attribute.Isolated heap receiver) := by
  have arguments : Ensures (Memo.Isolated heap receiver)
      (traverse (copyArgument receiver call) · attr.arguments)
      fun results => ∀ argument ∈ results, (∀ text ∈ argument.1, text.Local receiver) ∧
        argument.2.Isolated heap receiver := by
    refine traverse_ensures_all _ fun argument _ => ?_
    refine (copyConstant_isolated calls argument.2).map ?_
    intro done holds isolated
    refine ⟨holds, ?_, isolated⟩
    intro text isText
    obtain ⟨name, -, rfl⟩ := Option.mem_map.mp isText
    exact local_copyString name
  apply arguments.map
  intro done holds isolated
  refine ⟨holds, ?_, fun argument isIn => (isolated argument isIn).2⟩
  refine List.forall_mem_cons.mpr ⟨local_copyString attr.name, List.forall_mem_cons.mpr
    ⟨local_lowerString (local_copyString attr.name), ?_⟩⟩
  intro text isName
  obtain ⟨argument, isArgument, isText⟩ := List.mem_filterMap.mp isName
  exact (isolated argument isArgument).1 text isText

theorem copyAttributes_isolated (attributes : List (Attribute (Constant Address))) :
    Ensures (Memo.Isolated heap receiver) (copyAttributes receiver call · attributes)
      fun copied => ∀ attr ∈ copied, attr.Isolated heap receiver :=
  traverse_ensures_all _ fun attr _ => copyAttribute_isolated calls attr

theorem copyLiteral_isolated (literal : Slot Address) :
    Ensures (Memo.Isolated heap receiver) (copyLiteral receiver call · literal)
      (Copied.Isolated heap receiver) := by
  apply (copyZval_isolated calls literal).map
  exact fun _ holds isolated => ⟨holds, isolated_getD isolated⟩

theorem copyCode_isolated (code : Code (Slot Address) (Constant Address) Address) :
    Ensures (Memo.Isolated heap receiver) (copyCode receiver call · code)
      (Code.Isolated heap receiver) := by
  have literals : Ensures (Memo.Isolated heap receiver)
      (traverse (copyLiteral receiver call) · code.literals)
      fun results => ∀ literal ∈ results, literal.Isolated heap receiver :=
    traverse_ensures_all _ fun literal _ => copyLiteral_isolated calls literal
  have functions : Ensures (Memo.Isolated heap receiver)
      (traverse (fun memo function => call memo (.function function)) · code.dynamicFuncDefs)
      fun results => ∀ function ∈ results, Copied.Isolated heap receiver function :=
    traverse_ensures_all _ fun function _ => calls (.function function)
  intro memo after copied holds done
  obtain ⟨first, copiedLiterals, done⟩ := Option.bind_eq_some_iff.mp done
  obtain ⟨second, copiedAttributes, done⟩ := Option.bind_eq_some_iff.mp done
  obtain ⟨third, copiedFunctions, isAfter⟩ := Option.map_eq_some_iff.mp done
  obtain ⟨holds, isolatedLiterals⟩ := literals memo first.1 first.2 holds copiedLiterals
  obtain ⟨holds, isolatedAttributes⟩ :=
    copyAttributes_isolated calls code.attributes first.1 second.1 second.2 holds copiedAttributes
  obtain ⟨holds, isolatedFunctions⟩ := functions second.1 third.1 third.2 holds copiedFunctions
  cases isAfter
  refine ⟨holds, ?_, ?_⟩
  · refine List.forall_mem_append.mpr ⟨List.forall_mem_append.mpr ⟨?_, local_map_copyString _⟩, ?_⟩
    · intro text isIn
      obtain ⟨_, isInfo, isText⟩ := List.mem_flatMap.mp isIn
      obtain ⟨info, -, rfl⟩ := List.mem_map.mp isInfo
      exact local_copyArgInfo info text isText
    · intro text isIn
      obtain ⟨attr, isAttribute, isText⟩ := List.mem_flatMap.mp isIn
      exact (isolatedAttributes attr isAttribute).1 text isText
  · refine List.forall_mem_append.mpr ⟨List.forall_mem_append.mpr ⟨isolatedLiterals, ?_⟩,
      isolatedFunctions⟩
    intro value isIn
    obtain ⟨attr, isAttribute, isArgument⟩ := List.mem_flatMap.mp isIn
    obtain ⟨argument, isThere, rfl⟩ := List.mem_map.mp isArgument
    exact (isolatedAttributes attr isAttribute).2 argument isThere

theorem copyAstTree_isolated (node : AstNode Address) :
    Ensures (Memo.Isolated heap receiver) (copyAstTree receiver call · node)
      (Copied.Isolated heap receiver) := by
  cases node with
  | zval attr content =>
      refine (copyZval_isolated calls content).map ?_
      intro done holds isolated
      refine ⟨holds, isolated_iff.mpr ⟨nofun, ?_, nofun⟩⟩
      exact fun value isValue => isolated value (Option.mem_toList.mp isValue)
  | constant attr name =>
      exact ensures_done (isolated_iff.mpr
        ⟨List.forall_mem_singleton.mpr (local_copyString name), nofun, nofun⟩)
  | tree kind attr children =>
      have loop : Ensures (Memo.Isolated heap receiver)
          (traverse (copyChild call) · children)
          fun results => ∀ result ∈ results, ∀ copied, result = some copied →
            Copied.Isolated heap receiver copied := by
        refine traverse_ensures_all _ fun child _ => ?_
        cases child with
        | none => exact ensures_done nofun
        | some address =>
            apply (calls (.ast address)).map
            intro done holds isolated
            refine ⟨holds, ?_⟩
            rintro _ ⟨⟩
            exact isolated
      apply loop.map
      intro done holds isolated
      refine ⟨holds, isolated_iff.mpr ⟨nofun, ?_, nofun⟩⟩
      exact fun value isValue => isolated _ (List.reduceOption_mem_iff.mp isValue) value rfl

variable (shared : SharedMemory heap)
include shared

theorem copyUserFunction_isolated (address : Address) :
    Ensures (Memo.Isolated heap receiver)
      (copyUserFunction receiver call · (heap.function address))
      (Copied.Isolated heap receiver) := by
  have code : Ensures (Memo.Isolated heap receiver)
      (fun memo => if (heap.function address).refcounted then
          copyCode receiver call memo (heap.function address).parts.code
        else some (memo, (heap.function address).parts.code.inPlace))
      (Code.Isolated heap receiver) := by
    split
    · exact copyCode_isolated calls _
    · next inPlace =>
      exact ensures_done (isolated_code_inPlace (shared.code address (by simpa using inPlace)))
  have statics : Ensures (Memo.Isolated heap receiver)
      (traverse (copyStatic receiver call) · (heap.function address).parts.staticVariables)
      fun results => ∀ static ∈ results, static.1.Local receiver ∧
        static.2.Isolated heap receiver := by
    refine traverse_ensures_all _ fun static _ => ?_
    refine (copyZval_isolated calls static.2).map ?_
    exact fun _ holds isolated => ⟨holds, local_copyString static.1, isolated_getD isolated⟩
  intro memo after copied holds done
  obtain ⟨first, copiedCode, done⟩ := Option.bind_eq_some_iff.mp done
  obtain ⟨second, copiedStatics, isAfter⟩ := Option.map_eq_some_iff.mp done
  obtain ⟨holds, filename⟩ := holds.copyFilename (heap.function address).parts.filename
  obtain ⟨holds, isolatedCode⟩ := code _ first.1 first.2 holds copiedCode
  obtain ⟨holds, isolatedStatics⟩ := statics first.1 second.1 second.2 holds copiedStatics
  cases isAfter
  refine ⟨holds, isolated_iff.mpr ⟨?_, ?_, nofun⟩⟩
  · refine List.forall_mem_cons.mpr ⟨local_copyString _, List.forall_mem_cons.mpr ⟨filename, ?_⟩⟩
    refine List.forall_mem_append.mpr ⟨List.forall_mem_append.mpr
      ⟨local_toList_copyString _, isolatedCode.1⟩, ?_⟩
    exact List.forall_mem_map.mpr fun static isIn => (isolatedStatics static isIn).1
  · refine List.forall_mem_append.mpr ⟨isolatedCode.2, ?_⟩
    exact List.forall_mem_map.mpr fun static isIn => (isolatedStatics static isIn).2

theorem copyUnresolved_isolated (address : Address) :
    Ensures (Memo.Isolated heap receiver) (copyUnresolved heap receiver call · address)
      (Copied.Isolated heap receiver) := by
  unfold copyUnresolved
  split
  · next internal =>
    refine ensures_done (isolated_iff.mpr ⟨nofun, nofun, ?_⟩)
    exact fun text has => local_of_permanent (shared.function address (Or.inr internal) text has)
  · exact copyUserFunction_isolated calls shared address

theorem copyFunction_isolated (address : Address) :
    Ensures (Memo.Isolated heap receiver) (copyFunction heap receiver call · address)
      (Copied.Isolated heap receiver) := by
  unfold copyFunction
  split
  · next immutable =>
    refine ensures_done (isolated_iff.mpr ⟨nofun, nofun, ?_⟩)
    exact fun text has => local_of_permanent (shared.function address (Or.inl immutable) text has)
  · split
    · exact copyUnresolved_isolated calls shared address
    · intro memo after copied holds done
      cases found : memo.resolve.find address with
      | some copy =>
          simp only [found] at done
          cases done
          exact ⟨holds, holds.resolve address _ found⟩
      | none =>
          simp only [found] at done
          obtain ⟨first, copies, isAfter⟩ := Option.map_eq_some_iff.mp done
          obtain ⟨holds, isolated⟩ :=
            copyUnresolved_isolated calls shared address memo first.1 first.2 holds copies
          cases isAfter
          exact ⟨holds.resolved address isolated, isolated⟩

end Copying

/-- Everything that is copied is isolated. -/
theorem copy_isolated (shared : SharedMemory heap) (fuel : Nat) (task : Task Address) :
    Ensures (Memo.Isolated heap receiver) (copy heap receiver fuel · task)
      (task.Isolated heap receiver) := by
  induction fuel generalizing task with
  | zero =>
      intro memo after result _ done
      cases done
  | succ fuel ih =>
      cases task with
      | referent address => exact copyZval_isolated ih (heap.referent address)
      | array address => exact copyHash_isolated ih (heap.array address)
      | ast address => exact copyAstTree_isolated ih (heap.ast address)
      | function address => exact copyFunction_isolated ih shared address

end Isolation

end Pthreads.ValueCopies
