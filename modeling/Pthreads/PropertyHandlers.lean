import Pthreads.StoreIsset
import Mathlib.Data.Finset.Card
import Mathlib.Data.Finset.Prod

/-!
# Magic methods of Threaded objects

The property handlers of `src/handlers.c` call a magic method of the class unless the
guard of the member says that it is being called already, and go to the store otherwise.
The magic methods are user code, which makes further accesses.  Here user code is a tree
of accesses, and what the engine says of a property in some scope is a parameter, as are
the functions of the store.
-/

namespace Pthreads.PropertyHandlers

open Store (AccessType HasSetExists)

/-- The magic methods, each with its bit of the guard. -/
inductive Magic where
  | get
  | set
  | unset
  | isset
deriving DecidableEq, Repr

/-- What `zend_get_property_info` returns. -/
inductive PropertyInfo (Value : Type*) where
  /-- `ZEND_WRONG_PROPERTY_INFO`, with what is thrown unless the call is silent. -/
  | wrong (message : String)
  | none
  /-- A declared property, with its mangled name, the class that declares it and the
  check of a value, which may convert it. -/
  | declared (isStatic : Bool) (name declaring : String) (verify : Value → Except String Value)

/-- What `pthreads_store_read` leaves in its last argument. -/
inductive StoreRead (Value : Type*) where
  | value (value : Value)
  | undefined
  /-- It throws, and leaves nothing. -/
  | indirectModification

/-- The functions of the store on the members of any object. -/
structure PropertyStore (Memory Object Value : Type*) where
  read : Memory → Object → String → AccessType → Memory × StoreRead Value
  write : Memory → Object → String → Value → Memory × Bool
  isset : Memory → Object → String → HasSetExists → Memory × Bool
  delete : Memory → Object → String → Memory

inductive Access (Object Value : Type*) where
  | read (object : Object) (member : String) (type : AccessType)
  | write (object : Object) (member : String) (value : Value)
  | has (object : Object) (member : String) (hasSetExists : HasSetExists)
  | unset (object : Object) (member : String)

/-- What user code sees of an access. -/
inductive Outcome (Value : Type*) where
  | value (value : Value)
  /-- `EG(uninitialized_zval)` -/
  | uninitialized
  /-- The result of `pthreads_has_property`, unless it was not assigned. -/
  | isset (result : Option Bool)
  | void
  /-- An exception, with its message unless user code has thrown it. -/
  | exception (message : Option String)
deriving DecidableEq

/-- User code: what it does next depends on what it has seen. -/
inductive Script (Object Value : Type*) where
  | returns (result : Value)
  | throws
  | access (access : Access Object Value) (next : Outcome Value → Script Object Value)

/-- The classes of a program and its engine. -/
structure Program (Memory Object Class Value : Type*) where
  classOf : Object → Class
  className : Class → String
  /-- `zend_get_type_by_const` -/
  typeName : Value → String
  /-- `zend_is_true` -/
  isTrue : Value → Bool
  /-- `zend_get_property_info` in a scope. -/
  propertyInfo : Option Class → Class → String → PropertyInfo Value
  /-- A magic method, with the class that declares it.  Its body takes the object, the
  member and, for `__set`, the value. -/
  magic : Class → Magic → Option (Class × (Object → String → Option Value → Script Object Value))
  store : PropertyStore Memory Object Value

structure State (Memory Object : Type*) where
  memory : Memory
  /-- The warnings so far. -/
  warnings : List String
  /-- `zend_get_property_guard` -/
  guards : Object → String → Magic → Bool

section Handlers

variable {Memory Object Class Value : Type*} [DecidableEq Object]

/-- Set or clear a bit of a guard. -/
def State.setGuard (state : State Memory Object) (object : Object) (member : String)
    (magic : Magic) (isSet : Bool) : State Memory Object :=
  { state with guards := fun other otherMember otherMagic =>
      if other = object ∧ otherMember = member ∧ otherMagic = magic then isSet
      else state.guards other otherMember otherMagic }

variable (program : Program Memory Object Class Value)
  -- how the body of a magic method is run, with the value that it returns
  (call : Option Class → Script Object Value → State Memory Object →
    Option (State Memory Object × Option Value))
  (scope : Option Class)

/-- A handler: the magic method if there is one that is not being called, the store
otherwise. -/
def withMagic (magic : Magic) (object : Object) (member : String) (argument : Option Value)
    (convert : Option Value → Outcome Value)
    (direct : State Memory Object → State Memory Object × Outcome Value)
    (state : State Memory Object) : Option (State Memory Object × Outcome Value) :=
  match program.magic (program.classOf object) magic with
  | some (declaring, body) =>
      if state.guards object member magic then some (direct state)
      else
        (call (some declaring) (body object member argument)
            (state.setGuard object member magic true)).map
          fun (after, returned) => (after.setGuard object member magic false, convert returned)
  | none => some (direct state)

/-- `pthreads_store_read` has left nothing. -/
def missing (object : Object) : StoreRead Value → Outcome Value
  | .indirectModification => .exception (some
      ("Indirect modification of non-Threaded members of " ++
        program.className (program.classOf object) ++ " is not supported"))
  | .undefined | .value _ => .uninitialized

/-- `pthreads_read_property` without `__get`. -/
def readDirect (object : Object) (member : String) (type : AccessType)
    (state : State Memory Object) : State Memory Object × Outcome Value :=
  match program.propertyInfo scope (program.classOf object) member with
  | .wrong message => (state, .exception (some message))
  | .declared false name declaring _ =>
      let (memory, read) := program.store.read state.memory object name type
      ({ state with memory := memory }, match read with
        | .value value => .value value
        | _ =>
            if type ≠ .isset then
              .exception (some ("Typed property " ++ declaring ++ "::$" ++ member ++
                " must not be accessed before initialization"))
            else missing program object read)
  | .none | .declared true _ _ _ =>
      let (memory, read) := program.store.read state.memory object member type
      match read with
      | .value value => ({ state with memory := memory }, .value value)
      | _ =>
          ({ state with
              memory := memory
              warnings := state.warnings ++ (if type ≠ .isset then
                ["Undefined property: " ++ program.className (program.classOf object) ++ "::$" ++
                  member] else []) }, missing program object read)

/-- The call of `pthreads_store_write` in `pthreads_write_property`. -/
def writeStore (object : Object) (member name : String) (value : Value)
    (state : State Memory Object) : State Memory Object × Outcome Value :=
  let (memory, isStored) := program.store.write state.memory object name value
  ({ state with memory := memory },
    if isStored then .value value
    else .exception (some ("Cannot assign non-thread-safe value of type " ++
      program.typeName value ++ " to Threaded class property " ++
      program.className (program.classOf object) ++ "::$" ++ member)))

/-- `pthreads_write_property` without `__set`. -/
def writeDirect (object : Object) (member : String) (value : Value)
    (state : State Memory Object) : State Memory Object × Outcome Value :=
  match program.propertyInfo scope (program.classOf object) member with
  | .wrong message => (state, .exception (some message))
  | .declared false name _ verify =>
      match verify value with
      | .error message => (state, .exception (some message))
      | .ok verified => writeStore program object member name verified state
  | .none | .declared true _ _ _ => writeStore program object member member value state

/-- The name under which the store has a member, if it may be accessed. -/
def storeName (object : Object) (member : String) : Except String String :=
  match program.propertyInfo scope (program.classOf object) member with
  | .wrong message => .error message
  | .declared false name _ _ => .ok name
  | .none | .declared true _ _ _ => .ok member

/-- `pthreads_has_property` without `__isset`. -/
def hasDirect (object : Object) (member : String) (hasSetExists : HasSetExists)
    (state : State Memory Object) : State Memory Object × Outcome Value :=
  match storeName program scope object member with
  | .error _ => (state, .isset (some false))
  | .ok name =>
      let (memory, isSet) := program.store.isset state.memory object name hasSetExists
      ({ state with memory := memory }, .isset (some isSet))

/-- `pthreads_unset_property` without `__unset`. -/
def unsetDirect (object : Object) (member : String) (state : State Memory Object) :
    State Memory Object × Outcome Value :=
  match storeName program scope object member with
  | .error message => (state, .exception (some message))
  | .ok name => ({ state with memory := program.store.delete state.memory object name }, .void)

/-- What comes out of a magic method that has returned or thrown. -/
def returned (outcome : Value → Outcome Value) : Option Value → Outcome Value
  | some value => outcome value
  | none => .exception none

/-- `pthreads_read_property`. -/
def readProperty (object : Object) (member : String) (type : AccessType) :
    State Memory Object → Option (State Memory Object × Outcome Value) :=
  withMagic program call .get object member none (returned .value)
    (readDirect program scope object member type)

/-- `pthreads_write_property`. -/
def writeProperty (object : Object) (member : String) (value : Value) :
    State Memory Object → Option (State Memory Object × Outcome Value) :=
  withMagic program call .set object member (some value) (returned fun _ => .value value)
    (writeDirect program scope object member value)

/-- `pthreads_has_property`. -/
def hasProperty (object : Object) (member : String) (hasSetExists : HasSetExists) :
    State Memory Object → Option (State Memory Object × Outcome Value) :=
  withMagic program call .isset object member none
    (fun result => .isset (result.map program.isTrue))
    (hasDirect program scope object member hasSetExists)

/-- `pthreads_unset_property`. -/
def unsetProperty (object : Object) (member : String) :
    State Memory Object → Option (State Memory Object × Outcome Value) :=
  withMagic program call .unset object member none (returned fun _ => .void)
    (unsetDirect program scope object member)

def handle : Access Object Value → State Memory Object →
    Option (State Memory Object × Outcome Value)
  | .read object member type => readProperty program call scope object member type
  | .write object member value => writeProperty program call scope object member value
  | .has object member hasSetExists => hasProperty program call scope object member hasSetExists
  | .unset object member => unsetProperty program call scope object member

/-- User code in a scope, with the value that it returns unless it throws. -/
def runScript : Script Object Value → State Memory Object →
    Option (State Memory Object × Option Value)
  | .returns result, state => some (state, some result)
  | .throws, state => some (state, none)
  | .access access next, state =>
      (handle program call scope access state).bind fun (after, outcome) =>
        runScript (next outcome) after

end Handlers

/-- User code in which calls of magic methods nest up to a depth. -/
def evaluate {Memory Object Class Value : Type*} [DecidableEq Object]
    (program : Program Memory Object Class Value) :
    Nat → Option Class → Script Object Value → State Memory Object →
      Option (State Memory Object × Option Value)
  | 0, _, _, _ => none
  | depth + 1, scope, script, state =>
      runScript program (evaluate program depth) scope script state

/-- The member that an access is about. -/
def Access.place {Object Value : Type*} : Access Object Value → Object × String
  | .read object member _ | .write object member _ | .has object member _
  | .unset object member => (object, member)

/-- User code all of whose accesses are about some members. -/
inductive Script.Within {Object Value : Type*} (places : Finset (Object × String)) :
    Script Object Value → Prop where
  | returns (result : Value) : Within places (.returns result)
  | throws : Within places .throws
  | access (access : Access Object Value) (next : Outcome Value → Script Object Value) :
      access.place ∈ places → (∀ outcome, Within places (next outcome)) →
        Within places (.access access next)

/-- Magic methods that keep to some members when they are called for one of these. -/
def Program.Within {Memory Object Class Value : Type*}
    (program : Program Memory Object Class Value) (places : Finset (Object × String)) : Prop :=
  ∀ object member magic declaring body argument,
    program.magic (program.classOf object) magic = some (declaring, body) →
      (object, member) ∈ places → (body object member argument).Within places

/-- The bits of a guard. -/
def guardBits : Finset Magic := {.get, .set, .unset, .isset}

/-- The bits that are not set in the guards of some members. -/
def unguarded {Memory Object : Type*} (places : Finset (Object × String))
    (state : State Memory Object) : Finset ((Object × String) × Magic) :=
  (places ×ˢ guardBits).filter fun bit => state.guards bit.1.1 bit.1.2 bit.2 = false

section Direct

variable {Memory Object Class Value : Type*} (program : Program Memory Object Class Value)
  (scope : Option Class)

theorem readDirect_guards (object : Object) (member : String) (type : Store.AccessType)
    (state : State Memory Object) :
    (readDirect program scope object member type state).1.guards = state.guards := by
  unfold readDirect
  split
  · rfl
  · rfl
  all_goals
    dsimp only
    split <;> rfl

theorem writeDirect_guards (object : Object) (member : String) (value : Value)
    (state : State Memory Object) :
    (writeDirect program scope object member value state).1.guards = state.guards := by
  unfold writeDirect
  split
  · rfl
  · split <;> rfl
  · rfl
  · rfl

theorem hasDirect_guards (object : Object) (member : String)
    (hasSetExists : Store.HasSetExists) (state : State Memory Object) :
    (hasDirect program scope object member hasSetExists state).1.guards = state.guards := by
  unfold hasDirect
  split <;> rfl

theorem unsetDirect_guards (object : Object) (member : String) (state : State Memory Object) :
    (unsetDirect program scope object member state).1.guards = state.guards := by
  unfold unsetDirect
  split <;> rfl

end Direct

section Calls

variable {Memory Object Class Value : Type*} [DecidableEq Object]
  {places : Finset (Object × String)}

omit [DecidableEq Object] in
theorem unguarded_card_le (state : State Memory Object) :
    (unguarded places state).card ≤ 4 * places.card := by
  have bound : (unguarded places state).card ≤ (places ×ˢ guardBits).card :=
    Finset.card_filter_le _ _
  have bits : guardBits.card = 4 := rfl
  rw [Finset.card_product, bits] at bound
  omega

/-- A call of a magic method uses up one bit. -/
theorem unguarded_setGuard (state : State Memory Object) (object : Object) (member : String)
    (magic : Magic) (isPlace : (object, member) ∈ places)
    (isFree : state.guards object member magic = false) :
    (unguarded places (state.setGuard object member magic true)).card <
      (unguarded places state).card := by
  have isBit : magic ∈ guardBits := by cases magic <;> decide
  have isUnguarded : ((object, member), magic) ∈ unguarded places state := by
    simp [unguarded, isPlace, isBit, isFree]
  apply Finset.card_lt_card
  apply Finset.ssubset_iff_subset_ne.mpr
  constructor
  · intro bit isMember
    have isClear := (Finset.mem_filter.mp isMember).2
    apply Finset.mem_filter.mpr
    constructor
    · exact (Finset.mem_filter.mp isMember).1
    · simp only [State.setGuard] at isClear
      split at isClear
      · cases isClear
      · exact isClear
  · intro same
    rw [← same] at isUnguarded
    simp [unguarded, State.setGuard] at isUnguarded

/-- Clearing the bit that a call has set leaves the guards as they were. -/
theorem setGuard_restored (state after : State Memory Object) (object : Object) (member : String)
    (magic : Magic) (isFree : state.guards object member magic = false)
    (kept : after.guards = (state.setGuard object member magic true).guards) :
    (after.setGuard object member magic false).guards = state.guards := by
  funext other otherMember otherMagic
  simp only [State.setGuard, kept]
  split
  · rename_i same
    obtain ⟨rfl, rfl, rfl⟩ := same
    exact isFree.symm
  · rfl

/-- User code that is run this way ends with the guards as they were, if few enough bits are
left. -/
def Ends (places : Finset (Object × String)) (bound : Nat)
    (call : Option Class → Script Object Value → State Memory Object →
      Option (State Memory Object × Option Value)) : Prop :=
  ∀ scope script state, script.Within places → (unguarded places state).card < bound →
    ∃ after result, call scope script state = some (after, result) ∧ after.guards = state.guards

variable {program : Program Memory Object Class Value} {scope : Option Class} {bound : Nat}
  {call : Option Class → Script Object Value → State Memory Object →
    Option (State Memory Object × Option Value)}

theorem withMagic_ends (ends : Ends places bound call) (within : program.Within places)
    (magic : Magic) (object : Object) (member : String) (argument : Option Value)
    (convert : Option Value → Outcome Value)
    (direct : State Memory Object → State Memory Object × Outcome Value)
    (keeps : ∀ state, (direct state).1.guards = state.guards)
    (isPlace : (object, member) ∈ places) (state : State Memory Object)
    (isFew : (unguarded places state).card < bound + 1) :
    ∃ after outcome,
      withMagic program call magic object member argument convert direct state =
        some (after, outcome) ∧ after.guards = state.guards := by
  unfold withMagic
  cases method : program.magic (program.classOf object) magic with
  | none => exact ⟨_, _, rfl, keeps state⟩
  | some method' =>
      cases isFree : state.guards object member magic with
      | true => exact ⟨_, _, by simp only [if_true]; rfl, keeps state⟩
      | false =>
          have fewer := unguarded_setGuard state object member magic isPlace isFree
          have isBody := within object member magic method'.1 method'.2 argument method isPlace
          obtain ⟨after, result, runs, kept⟩ :=
            ends (some method'.1) _ (state.setGuard object member magic true) isBody (by omega)
          have restored := setGuard_restored state after object member magic isFree kept
          exact ⟨_, _, by simp only [Bool.false_eq_true, if_false, runs]; rfl, restored⟩

theorem handle_ends (scope : Option Class) (ends : Ends places bound call)
    (within : program.Within places) (access : Access Object Value)
    (isPlace : access.place ∈ places) (state : State Memory Object)
    (isFew : (unguarded places state).card < bound + 1) :
    ∃ after outcome, handle program call scope access state = some (after, outcome) ∧
      after.guards = state.guards := by
  cases access with
  | read object member type =>
      exact withMagic_ends ends within .get object member none _ _
        (readDirect_guards program scope object member type) isPlace state isFew
  | write object member value =>
      exact withMagic_ends ends within .set object member (some value) _ _
        (writeDirect_guards program scope object member value) isPlace state isFew
  | has object member hasSetExists =>
      exact withMagic_ends ends within .isset object member none
        (fun result => .isset (result.map program.isTrue)) _
        (hasDirect_guards program scope object member hasSetExists) isPlace state isFew
  | unset object member =>
      exact withMagic_ends ends within .unset object member none _ _
        (unsetDirect_guards program scope object member) isPlace state isFew

theorem runScript_ends (ends : Ends places bound call) (within : program.Within places) :
    Ends places (bound + 1) (runScript program call) := by
  intro scope script state isWithin isFew
  induction isWithin generalizing state with
  | returns result => exact ⟨state, some result, rfl, rfl⟩
  | throws => exact ⟨state, none, rfl, rfl⟩
  | access access next isPlace _ ih =>
      obtain ⟨after, outcome, handled, kept⟩ :=
        handle_ends scope ends within access isPlace state isFew
      have sameBits : unguarded places after = unguarded places state := by
        simp only [unguarded, kept]
      obtain ⟨final, result, runs, stillKept⟩ := ih outcome after (by rwa [sameBits])
      exact ⟨final, result, by simp only [runScript, handled, Option.bind_some, runs],
        stillKept.trans kept⟩

/-- Each level of nested calls has one bit less to use. -/
theorem evaluate_ends (within : program.Within places) (depth : Nat) :
    Ends places depth (evaluate program depth) := by
  induction depth with
  | zero =>
      intro scope script state isWithin isFew
      omega
  | succ depth ih => exact runScript_ends ih within

/-- Whatever is run to an end one way is run to the same end another way. -/
def Deeper (call further : Option Class → Script Object Value → State Memory Object →
    Option (State Memory Object × Option Value)) : Prop :=
  ∀ scope script state after,
    call scope script state = some after → further scope script state = some after

variable {further : Option Class → Script Object Value → State Memory Object →
    Option (State Memory Object × Option Value)}

theorem withMagic_deeper (deeper : Deeper call further) (magic : Magic) (object : Object)
    (member : String) (argument : Option Value) (convert : Option Value → Outcome Value)
    (direct : State Memory Object → State Memory Object × Outcome Value)
    (state : State Memory Object) (after : State Memory Object × Outcome Value)
    (ends : withMagic program call magic object member argument convert direct state =
      some after) :
    withMagic program further magic object member argument convert direct state = some after := by
  unfold withMagic at ends ⊢
  cases method : program.magic (program.classOf object) magic with
  | none => rwa [method] at ends
  | some method' =>
      rw [method] at ends
      cases isGuarded : state.guards object member magic with
      | true =>
          simp only [isGuarded, if_true] at ends ⊢
          exact ends
      | false =>
          simp only [isGuarded, Bool.false_eq_true, if_false] at ends ⊢
          obtain ⟨called, runs, rfl⟩ := Option.map_eq_some_iff.mp ends
          rw [deeper _ _ _ _ runs, Option.map_some]

theorem handle_deeper (deeper : Deeper call further) (access : Access Object Value)
    (state : State Memory Object) (after : State Memory Object × Outcome Value)
    (ends : handle program call scope access state = some after) :
    handle program further scope access state = some after := by
  cases access with
  | read | write | unset => exact withMagic_deeper deeper _ _ _ _ _ _ _ _ ends
  | has =>
      exact withMagic_deeper deeper _ _ _ _ (fun result => .isset (result.map program.isTrue)) _ _
        _ ends

theorem runScript_deeper (deeper : Deeper call further) :
    Deeper (runScript program call) (runScript program further) := by
  intro scope script state after ends
  induction script generalizing state with
  | returns result => exact ends
  | throws => exact ends
  | access access next ih =>
      simp only [runScript] at ends ⊢
      obtain ⟨handled, handles, rest⟩ := Option.bind_eq_some_iff.mp ends
      rw [handle_deeper deeper access state handled handles, Option.bind_some]
      exact ih _ _ rest

theorem evaluate_deeper (depth : Nat) :
    Deeper (evaluate program depth) (evaluate program (depth + 1)) := by
  induction depth with
  | zero =>
      intro scope script state after ends
      cases ends
  | succ depth ih => exact runScript_deeper ih

theorem evaluate_mono {depth greater : Nat} (isAtMost : depth ≤ greater) :
    Deeper (evaluate program depth) (evaluate program greater) := by
  induction greater, isAtMost using Nat.le_induction with
  | base =>
      intro scope script state after ends
      exact ends
  | succ greater _ ih =>
      intro scope script state after ends
      exact evaluate_deeper greater scope script state after (ih scope script state after ends)

/-- However magic methods make each other's accesses, the guards bound how deep their calls
nest, and are left as they were. -/
theorem magic_calls_end (program : Program Memory Object Class Value)
    (places : Finset (Object × String)) (within : program.Within places) (scope : Option Class)
    (script : Script Object Value) (isWithin : script.Within places)
    (state : State Memory Object) :
    ∃ after result,
      (∀ depth, 4 * places.card < depth →
        evaluate program depth scope script state = some (after, result)) ∧
      after.guards = state.guards := by
  have bound : (unguarded places state).card ≤ 4 * places.card := unguarded_card_le state
  obtain ⟨after, result, runs, kept⟩ :=
    evaluate_ends within (4 * places.card + 1) scope script state isWithin (by omega)
  apply Exists.intro after
  apply Exists.intro result
  constructor
  · intro depth isDeep
    exact evaluate_mono isDeep scope script state (after, result) runs
  · exact kept

end Calls

/-- `__get` of either member reads the other one. -/
def eachOther : Program Unit Unit Unit Nat where
  classOf _ := ()
  className _ := "Twin"
  typeName _ := "int"
  isTrue value := value ≠ 0
  propertyInfo _ _ _ := .none
  magic _ magic :=
    if magic = .get then
      some ((), fun _ member _ =>
        .access (.read () (if member = "left" then "right" else "left") .read) fun outcome =>
          match outcome with
          | .value value => .returns (value + 1)
          | _ => .returns 0)
    else none
  store := {
    read := fun memory _ _ _ => (memory, .undefined)
    write := fun memory _ _ _ => (memory, true)
    isset := fun memory _ _ _ => (memory, false)
    delete := fun memory _ _ => memory }

/-- Both methods are called once, and the third read goes to the store. -/
theorem magic_calls_end_eachOther :
    let places : Finset (Unit × String) := {((), "left"), ((), "right")}
    let script : Script Unit Nat := .access (.read () "left" .read) fun outcome =>
      match outcome with
      | .value value => .returns value
      | _ => .throws
    ∃ after result,
      (∀ depth, 4 * places.card < depth →
        evaluate eachOther depth none script ⟨(), [], fun _ _ _ => false⟩ =
          some (after, result)) ∧
      after.guards = (fun _ _ _ => false) := by
  apply magic_calls_end
  · intro object member magic declaring body argument method isPlace
    simp only [eachOther] at method
    split at method
    · cases method
      apply Script.Within.access
      · simp only [Access.place]
        split <;> decide
      · intro outcome
        split
        · exact .returns _
        · exact .returns _
    · cases method
  · apply Script.Within.access
    · decide
    · intro outcome
      split
      · exact .returns _
      · exact .throws

example :
    (evaluate eachOther 3 none (.access (.read () "left" .read) fun outcome =>
        match outcome with
        | .value value => .returns value
        | _ => .throws) ⟨(), [], fun _ _ _ => false⟩).map
      (fun (after, result) => (after.warnings, result)) =
        some (["Undefined property: Twin::$left"], some 1) := by
  rfl

end Pthreads.PropertyHandlers
