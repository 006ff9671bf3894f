import Pthreads.RelativePointers
import Mathlib.Data.List.Basic

/-!
# Copying the code of a function

`pthreads_copy_user_function` copies the literals of a function first, and then its
oplines, whose operands refer to literals and to other oplines.  The two layouts of
operands that PHP knows are both modelled: distances on 64-bit platforms, addresses on
32-bit platforms.
-/

namespace Pthreads.OpcodeRelocation

open RelativePointers

inductive OperandType
  | unused
  | const
  | tmpVar
  | var
  | cv
deriving DecidableEq, Repr

inductive Opcode
  | zendJmp
  | zendFastCall
  | zendJmpznz
  | zendJmpz
  | zendJmpnz
  | zendJmpzEx
  | zendJmpnzEx
  | zendJmpSet
  | zendCoalesce
  | zendFeResetR
  | zendFeResetRw
  | zendAssertCheck
  | zendJmpNull
  | zendCatch
  | zendFeFetchR
  | zendFeFetchRw
  | zendSwitchLong
  | zendSwitchString
  | zendMatch
  | zendSendVal
  | zendSendValEx
  | zendQmAssign
  | other (code : Nat)
deriving DecidableEq, Repr

/-- The operands that can be literals or jump targets. -/
inductive Place
  | op1
  | op2
deriving DecidableEq, Repr

structure ZendOp (Handler : Type) where
  handler : Handler
  op1 : BitVec 32
  op2 : BitVec 32
  result : BitVec 32
  extendedValue : BitVec 32
  opcode : Opcode
  op1Type : OperandType
  op2Type : OperandType
  resultType : OperandType
deriving DecidableEq, Repr

namespace ZendOp

variable {Handler : Type}

def operand (op : ZendOp Handler) : Place → BitVec 32
  | .op1 => op.op1
  | .op2 => op.op2

def operandType (op : ZendOp Handler) : Place → OperandType
  | .op1 => op.op1Type
  | .op2 => op.op2Type

def setOperand (op : ZendOp Handler) (place : Place) (field : BitVec 32) : ZendOp Handler :=
  match place with
  | .op1 => { op with op1 := field }
  | .op2 => { op with op2 := field }

end ZendOp

structure Literals (Value : Type) where
  address : Int
  table : List Value
deriving DecidableEq, Repr

/-- The parts of a `zend_op_array` that code consists of.  Without a reference count
they lie in shared memory. -/
structure OpArray (Handler Value : Type) where
  opcodes : Int
  code : List (ZendOp Handler)
  literals : Option (Literals Value)
  donePassTwo : Bool
  refcount : Option Nat
deriving DecidableEq, Repr

namespace OpArray

variable {Handler Value : Type}

def last (opArray : OpArray Handler Value) : Nat := opArray.code.length

/-- The pointer to the literals, null if there are none. -/
def literalsAddress (opArray : OpArray Handler Value) : Int :=
  (opArray.literals.map Literals.address).getD 0

def table (opArray : OpArray Handler Value) : List Value :=
  (opArray.literals.map Literals.table).getD []

def lastLiteral (opArray : OpArray Handler Value) : Nat := opArray.table.length

end OpArray

/-- What depends on the platform and the version of PHP. -/
structure Platform where
  sizeofSizeT : Nat
  sizeofOp : Nat
  sizeofOp_pos : 0 < sizeofOp
  phpVersionId : Nat

/-- `ZEND_USE_ABS_CONST_ADDR` and `ZEND_USE_ABS_JMP_ADDR` -/
def Platform.useAbsConstAddr (platform : Platform) : Bool := platform.sizeofSizeT == 4
def Platform.useAbsJmpAddr (platform : Platform) : Bool := platform.sizeofSizeT == 4

def sizeofZval : Nat := 16

/-- `ZEND_LAST_CATCH` -/
def zendLastCatch : BitVec 32 := 1

section Copying

variable {State Handler Value : Type} (platform : Platform)

/-- The distance or address of the literal in the copy. -/
def relocateConstant (opcodes opArrayLiterals literals copy : Int) (index : Nat)
    (operand : BitVec 32) : BitVec 32 :=
  if platform.useAbsConstAddr then operand + pointer (opArrayLiterals - literals)
  else
    let literal := target (element opcodes platform.sizeofOp index) operand
    distance (element copy platform.sizeofOp index)
      (element opArrayLiterals sizeofZval (indexOf literals sizeofZval literal))

/-- The opcodes whose handlers do not count references of constants. -/
def eliminatesRefcountedCheck : Opcode → Bool
  | .zendSendVal | .zendSendValEx | .zendQmAssign => true
  | _ => false

/-- The operand that holds the target of a jump. -/
def jumpPlace (op : ZendOp Handler) : Option Place :=
  match op.opcode with
  | .zendJmp | .zendFastCall => some .op1
  | .zendJmpznz => if platform.phpVersionId < 80200 then some .op2 else none
  | .zendJmpz | .zendJmpnz | .zendJmpzEx | .zendJmpnzEx | .zendJmpSet | .zendCoalesce
  | .zendFeResetR | .zendFeResetRw | .zendAssertCheck | .zendJmpNull => some .op2
  | .zendCatch => if op.extendedValue &&& zendLastCatch = 0 then some .op2 else none
  | _ => none

/-- The target of a jump in the copy. -/
def relocateJump (opcodes copy : Int) (operand : BitVec 32) : BitVec 32 :=
  pointer (element copy platform.sizeofOp
    (indexOf opcodes platform.sizeofOp (addressOf operand)))

-- `zend_vm_set_opcode_handler_ex` chooses the handler by what is known of the type of
-- the first operand, `Z_TYPE_P` is the type of the value at an address
variable (setOpcodeHandlerEx : ZendOp Handler → Nat → Handler) (zType : BitVec 32 → Nat)

def relocateOp1 (opcodes opArrayLiterals literals copy : Int) (index : Nat)
    (op : ZendOp Handler) : ZendOp Handler :=
  if op.op1Type = .const then
    let relocated := { op with
      op1 := relocateConstant platform opcodes opArrayLiterals literals copy index op.op1 }
    if eliminatesRefcountedCheck op.opcode then
      let info := if platform.useAbsConstAddr then 1 <<< zType relocated.op1 else 0
      { relocated with handler := setOpcodeHandlerEx relocated info }
    else relocated
  else op

def relocateOp2 (opcodes opArrayLiterals literals copy : Int) (index : Nat)
    (op : ZendOp Handler) : ZendOp Handler :=
  if op.op2Type = .const then
    { op with
      op2 := relocateConstant platform opcodes opArrayLiterals literals copy index op.op2 }
  else op

def fixJump (donePassTwo : Bool) (opcodes copy : Int) (op : ZendOp Handler) : ZendOp Handler :=
  if platform.useAbsJmpAddr && donePassTwo then
    match jumpPlace platform op with
    | some place =>
      op.setOperand place (relocateJump platform opcodes copy (op.operand place))
    | none => op
  else op

/-- One round of the loop.  The literals of the array are the copied ones already, its
oplines and the other pointer to literals are still those of the source. -/
def copyOpline (opArray : OpArray Handler Value) (literals copy : Int) (index : Nat)
    (op : ZendOp Handler) : ZendOp Handler :=
  fixJump platform opArray.donePassTwo opArray.opcodes copy
    (relocateOp2 platform opArray.opcodes opArray.literalsAddress literals copy index
      (relocateOp1 platform setOpcodeHandlerEx zType opArray.opcodes opArray.literalsAddress
        literals copy index op))

/-- `pthreads_copy_opcodes` -/
def copyOpcodes (opArray : OpArray Handler Value) (literals copy : Int) :
    List (ZendOp Handler) :=
  opArray.code.mapIdx fun index op =>
    copyOpline platform setOpcodeHandlerEx zType opArray literals copy index op

-- `pthreads_copy_zval` can fail
variable (copyZval : Value → State → State × Option Value) (null : Value)

/-- `pthreads_copy_literals` -/
def copyLiterals : List Value → State → State × List Value
  | [], state => (state, [])
  | old :: olds, state =>
    let (afterLiteral, literal) := copyZval old state
    let (afterAll, literals) := copyLiterals olds afterLiteral
    (afterAll, literal.getD null :: literals)

/-- The size of the block for the oplines and the literals after them. -/
def blockSize (opArray : OpArray Handler Value) : Nat :=
  alignedSize (platform.sizeofOp * opArray.last) 16 + sizeofZval * opArray.lastLiteral

variable (emalloc : Nat → State → State × Int)

/-- The memory for the oplines and for the literals. -/
def allocate (opArray : OpArray Handler Value) (state : State) : State × Int × Int :=
  if !platform.useAbsConstAddr && opArray.donePassTwo then
    let (allocated, memory) := emalloc (blockSize platform opArray) state
    (allocated, memory, memory + alignedSize (platform.sizeofOp * opArray.last) 16)
  else
    let (allocated, opcodesMemory) := emalloc (opArray.last * platform.sizeofOp) state
    match opArray.literals with
    | none => (allocated, opcodesMemory, 0)
    | some _ =>
      let (allocatedBoth, literalsMemory) := emalloc (opArray.lastLiteral * sizeofZval) allocated
      (allocatedBoth, opcodesMemory, literalsMemory)

/-- The part of `pthreads_copy_user_function` that copies the code. -/
def copyUserFunction (opArray : OpArray Handler Value) (state : State) :
    State × OpArray Handler Value :=
  if opArray.refcount.isSome then
    let (allocated, opcodesMemory, literalsMemory) := allocate platform emalloc opArray state
    let copiedTable := copyLiterals copyZval null opArray.table allocated
    let withLiterals : OpArray Handler Value := { opArray with
      refcount := some 1
      literals := opArray.literals.map fun _ => ⟨literalsMemory, copiedTable.2⟩ }
    let code := copyOpcodes platform setOpcodeHandlerEx zType withLiterals
      opArray.literalsAddress opcodesMemory
    (copiedTable.1, { withLiterals with code := code, opcodes := opcodesMemory })
  else (state, opArray)

end Copying

section Addresses

variable {Handler Value : Type} (platform : Platform)

/-- The address of an opline and of a literal. -/
def OpArray.opline (opArray : OpArray Handler Value) (index : Nat) : Int :=
  element opArray.opcodes platform.sizeofOp index

def OpArray.literal (opArray : OpArray Handler Value) (index : Nat) : Int :=
  element opArray.literalsAddress sizeofZval index

/-- The oplines lie in memory with addresses of 32 bits. -/
def OpArray.InAddressSpace (opArray : OpArray Handler Value) : Prop :=
  0 ≤ opArray.opcodes ∧
    opArray.opcodes + (platform.sizeofOp * opArray.last : Nat) ≤ 2 ^ 32

/-- The fields that are not relocated are the same. -/
def SameRest (op copiedOp : ZendOp Handler) : Prop :=
  { copiedOp with handler := op.handler, op1 := op.op1, op2 := op.op2 } = op

/-- What the copy of an opline has to do with the opline. -/
structure Relocated (opArray copied : OpArray Handler Value) (index : Nat)
    (op copiedOp : ZendOp Handler) : Prop where
  constant : platform.useAbsConstAddr = false → blockSize platform opArray < 2 ^ 31 →
    ∀ place literal, op.operandType place = .const → literal < opArray.lastLiteral →
      target (opArray.opline platform index) (op.operand place) = opArray.literal literal →
      target (copied.opline platform index) (copiedOp.operand place) = copied.literal literal
  constantAddress : platform.useAbsConstAddr = true →
    ∀ place literal, op.operandType place = .const → jumpPlace platform op ≠ some place →
      op.operand place = pointer (opArray.literal literal) →
      copiedOp.operand place = pointer (copied.literal literal)
  jump : platform.useAbsJmpAddr = true → opArray.InAddressSpace platform →
    ∀ place jumped, jumpPlace platform op = some place → op.operandType place ≠ .const →
      jumped < opArray.last → op.operand place = pointer (opArray.opline platform jumped) →
      copiedOp.operand place = pointer (copied.opline platform jumped)
  other : ∀ place, op.operandType place ≠ .const →
    platform.useAbsJmpAddr = false ∨ jumpPlace platform op ≠ some place →
    copiedOp.operand place = op.operand place
  rest : SameRest op copiedOp

end Addresses

section Oplines

variable {Handler Value : Type} (platform : Platform)

@[simp]
theorem operand_setOperand (op : ZendOp Handler) (place : Place) (field : BitVec 32) :
    (op.setOperand place field).operand place = field := by
  cases place <;> rfl

theorem operand_setOperand_ne (op : ZendOp Handler) {place other : Place} (field : BitVec 32)
    (ne : place ≠ other) : (op.setOperand place field).operand other = op.operand other := by
  cases place <;> cases other
  · exact absurd rfl ne
  · rfl
  · rfl
  · exact absurd rfl ne

theorem SameRest.trans {op between copiedOp : ZendOp Handler} (first : SameRest op between)
    (second : SameRest between copiedOp) : SameRest op copiedOp := by
  unfold SameRest at *
  rw [← first, ← second]

theorem sameRest_setOperand (op : ZendOp Handler) (place : Place) (field : BitVec 32) :
    SameRest op (op.setOperand place field) := by
  cases place <;> rfl

theorem SameRest.operandType {op copiedOp : ZendOp Handler} (same : SameRest op copiedOp)
    (place : Place) : copiedOp.operandType place = op.operandType place := by
  rw [← same]
  cases place <;> rfl

theorem SameRest.jumpPlace {op copiedOp : ZendOp Handler} (same : SameRest op copiedOp) :
    jumpPlace platform copiedOp = jumpPlace platform op := by
  rw [← same]
  rfl

variable (setOpcodeHandlerEx : ZendOp Handler → Nat → Handler) (zType : BitVec 32 → Nat)
variable (opcodes opArrayLiterals literals copy : Int) (index : Nat) (op : ZendOp Handler)

theorem sameRest_relocateOp1 : SameRest op (relocateOp1 platform setOpcodeHandlerEx zType opcodes
    opArrayLiterals literals copy index op) := by
  unfold relocateOp1
  split
  · dsimp only
    split <;> rfl
  · rfl

theorem sameRest_relocateOp2 : SameRest op (relocateOp2 platform opcodes opArrayLiterals
    literals copy index op) := by
  unfold relocateOp2
  split <;> rfl

/-- The oplines after both constants have been relocated. -/
def relocateConstants : ZendOp Handler :=
  relocateOp2 platform opcodes opArrayLiterals literals copy index
    (relocateOp1 platform setOpcodeHandlerEx zType opcodes opArrayLiterals literals copy index op)

theorem sameRest_relocateConstants : SameRest op (relocateConstants platform setOpcodeHandlerEx
    zType opcodes opArrayLiterals literals copy index op) :=
  (sameRest_relocateOp1 ..).trans (sameRest_relocateOp2 ..)

theorem operand_relocateConstants (place : Place) :
    (relocateConstants platform setOpcodeHandlerEx zType opcodes opArrayLiterals literals copy
      index op).operand place =
      if op.operandType place = .const then
        relocateConstant platform opcodes opArrayLiterals literals copy index (op.operand place)
      else op.operand place := by
  cases place with
  | op1 =>
    have kept : ∀ between : ZendOp Handler,
        (relocateOp2 platform opcodes opArrayLiterals literals copy index between).op1 =
          between.op1 := by
      intro between
      unfold relocateOp2
      split <;> rfl
    show (relocateOp2 ..).op1 = _
    rw [kept]
    unfold relocateOp1
    by_cases isConst : op.op1Type = .const
    · rw [if_pos isConst, if_pos (show op.operandType .op1 = .const from isConst)]
      dsimp only
      split <;> rfl
    · rw [if_neg isConst, if_neg (show ¬op.operandType .op1 = .const from isConst)]
      rfl
  | op2 =>
    have kept : (relocateOp1 platform setOpcodeHandlerEx zType opcodes opArrayLiterals literals
          copy index op).op2 = op.op2 ∧
        (relocateOp1 platform setOpcodeHandlerEx zType opcodes opArrayLiterals literals copy
          index op).op2Type = op.op2Type := by
      unfold relocateOp1
      split
      · dsimp only
        split <;> exact ⟨rfl, rfl⟩
      · exact ⟨rfl, rfl⟩
    show (relocateOp2 ..).op2 = _
    unfold relocateOp2
    rw [kept.2]
    by_cases isConst : op.op2Type = .const
    · rw [if_pos isConst, if_pos (show op.operandType .op2 = .const from isConst), kept.1]
      rfl
    · rw [if_neg isConst, if_neg (show ¬op.operandType .op2 = .const from isConst), kept.1]
      rfl

theorem sameRest_fixJump (donePassTwo : Bool) :
    SameRest op (fixJump platform donePassTwo opcodes copy op) := by
  unfold fixJump
  split
  · split
    · exact sameRest_setOperand op _ _
    · rfl
  · rfl

theorem operand_fixJump_of_ne {donePassTwo : Bool} {place : Place}
    (noJump : platform.useAbsJmpAddr = false ∨ jumpPlace platform op ≠ some place) :
    (fixJump platform donePassTwo opcodes copy op).operand place = op.operand place := by
  unfold fixJump
  split
  · rename_i absolute
    split
    · rename_i jumped isJump
      apply operand_setOperand_ne
      rintro rfl
      rcases noJump with relative | notPlace
      · rw [relative] at absolute
        cases absolute
      · exact notPlace isJump
    · rfl
  · rfl

theorem operand_fixJump {place : Place} (absolute : platform.useAbsJmpAddr = true)
    (isJump : jumpPlace platform op = some place) :
    (fixJump platform true opcodes copy op).operand place =
      relocateJump platform opcodes copy (op.operand place) := by
  unfold fixJump
  rw [absolute, isJump]
  exact operand_setOperand ..

end Oplines

section Relocating

variable {State Handler Value : Type} (platform : Platform)

/-- The distance to a literal after the oplines fits into 32 bits. -/
theorem target_relocateConstant {opcodes literals copy : Int} {operand : BitVec 32}
    {index last literal table : Nat} (relative : platform.useAbsConstAddr = false)
    (isOpline : index < last)
    (isLiteral : literal < table)
    (small : alignedSize (platform.sizeofOp * last) 16 + sizeofZval * table < 2 ^ 31)
    (points : target (element opcodes platform.sizeofOp index) operand =
      element literals sizeofZval literal) :
    target (element copy platform.sizeofOp index)
        (relocateConstant platform opcodes
          (copy + alignedSize (platform.sizeofOp * last) 16) literals copy index operand) =
      element (copy + alignedSize (platform.sizeofOp * last) 16) sizeofZval literal := by
  have block := le_alignedSize (platform.sizeofOp * last) (by decide : 0 < 16)
  have opline : element copy platform.sizeofOp index ≤ copy + (platform.sizeofOp * last : Nat) :=
    element_le (Nat.le_of_lt isOpline)
  have inTable : element (copy + alignedSize (platform.sizeofOp * last) 16) sizeofZval literal ≤
      copy + alignedSize (platform.sizeofOp * last) 16 + (sizeofZval * table : Nat) :=
    element_le (Nat.le_of_lt isLiteral)
  have opline_low := le_element copy platform.sizeofOp index
  have literal_low := le_element (copy + alignedSize (platform.sizeofOp * last) 16)
    sizeofZval literal
  unfold relocateConstant
  rw [relative, if_neg Bool.false_ne_true, points]
  dsimp only
  rw [indexOf_element literals (by decide : 0 < sizeofZval)]
  apply target_distance
  · omega
  · omega

theorem relocateConstant_pointer {opcodes opArrayLiterals literals copy : Int} {index : Nat}
    {literal : Int} (absolute : platform.useAbsConstAddr = true) :
    relocateConstant platform opcodes opArrayLiterals literals copy index
        (pointer (element literals sizeofZval literal)) =
      pointer (element opArrayLiterals sizeofZval literal) := by
  unfold relocateConstant
  rw [absolute, if_pos rfl, pointer_add]
  congr 1
  unfold element
  omega

theorem relocateJump_pointer {opcodes copy : Int} {jumped last : Nat} (low : 0 ≤ opcodes)
    (high : opcodes + (platform.sizeofOp * last : Nat) ≤ 2 ^ 32) (isOpline : jumped < last) :
    relocateJump platform opcodes copy (pointer (element opcodes platform.sizeofOp jumped)) =
      pointer (element copy platform.sizeofOp jumped) := by
  have next : element opcodes platform.sizeofOp (jumped + 1 : Nat) ≤
      opcodes + (platform.sizeofOp * last : Nat) := element_le isOpline
  have below : element opcodes platform.sizeofOp jumped <
      element opcodes platform.sizeofOp (jumped + 1 : Nat) := by
    have positive := platform.sizeofOp_pos
    unfold element
    push_cast
    rw [Int.mul_add]
    omega
  have opline_low := le_element opcodes platform.sizeofOp jumped
  unfold relocateJump
  rw [addressOf_pointer (by omega) (by omega), indexOf_element _ platform.sizeofOp_pos]

variable (copyZval : Value → State → State × Option Value) (null : Value)

/-- What copying a literal in some state gives. -/
def IsCopy (old copied : Value) : Prop :=
  ∃ state, (copyZval old state).2.getD null = copied

theorem copyLiterals_copies (olds : List Value) (state : State) :
    List.Forall₂ (IsCopy copyZval null) olds (copyLiterals copyZval null olds state).2 := by
  induction olds generalizing state with
  | nil => exact .nil
  | cons old olds ih => exact .cons ⟨state, rfl⟩ (ih _)

variable (setOpcodeHandlerEx : ZendOp Handler → Nat → Handler) (zType : BitVec 32 → Nat)

/-- `withLiterals` is the array at the time when its oplines are copied. -/
theorem relocated_copyOpline {opArray withLiterals copied : OpArray Handler Value} {index : Nat}
    (isOpline : index < opArray.last) (op : ZendOp Handler)
    (passTwo : withLiterals.donePassTwo = true) (opcodes : withLiterals.opcodes = opArray.opcodes)
    (literals : withLiterals.literalsAddress = copied.literalsAddress)
    (oneBlock : platform.useAbsConstAddr = false → 0 < opArray.lastLiteral →
      copied.literalsAddress =
        copied.opcodes + alignedSize (platform.sizeofOp * opArray.last) 16) :
    Relocated platform opArray copied index op (copyOpline platform setOpcodeHandlerEx zType
      withLiterals opArray.literalsAddress copied.opcodes index op) := by
  have sameRest := sameRest_relocateConstants platform setOpcodeHandlerEx zType
    opArray.opcodes copied.literalsAddress opArray.literalsAddress copied.opcodes index op
  have operand := operand_relocateConstants platform setOpcodeHandlerEx zType
    opArray.opcodes copied.literalsAddress opArray.literalsAddress copied.opcodes index op
  -- outside of jumps only constants change
  have noJump : ∀ place,
      platform.useAbsJmpAddr = false ∨ jumpPlace platform op ≠ some place →
      (copyOpline platform setOpcodeHandlerEx zType withLiterals opArray.literalsAddress
        copied.opcodes index op).operand place =
        (relocateConstants platform setOpcodeHandlerEx zType opArray.opcodes
          copied.literalsAddress opArray.literalsAddress copied.opcodes index op).operand
            place := by
    intro place noJump
    unfold copyOpline
    rw [opcodes, literals]
    apply operand_fixJump_of_ne
    exact (sameRest.jumpPlace platform).symm ▸ noJump
  refine ⟨?_, ?_, ?_, ?_, ?_⟩
  · intro relative small place literal isConst isLiteral points
    rw [noJump place (Or.inl relative), operand place, if_pos isConst]
    unfold OpArray.literal OpArray.opline
    rw [oneBlock relative (Nat.zero_lt_of_lt isLiteral)]
    exact target_relocateConstant platform relative isOpline isLiteral small points
  · intro absolute place literal isConst notJump isPointer
    rw [noJump place (Or.inr notJump), operand place, if_pos isConst, isPointer]
    exact relocateConstant_pointer platform absolute
  · intro absolute inAddressSpace place jumped isJump notConst isTarget isPointer
    unfold copyOpline
    rw [opcodes, literals, passTwo]
    refine (operand_fixJump platform _ _ _ absolute
      ((sameRest.jumpPlace platform).trans isJump)).trans ?_
    refine (congrArg _ ((operand place).trans (if_neg notConst))).trans ?_
    rw [isPointer]
    exact relocateJump_pointer platform inAddressSpace.1 inAddressSpace.2 isTarget
  · intro place notConst notJump
    rw [noJump place notJump, operand place, if_neg notConst]
  · unfold copyOpline
    rw [opcodes, literals]
    exact sameRest.trans (sameRest_fixJump ..)

variable (emalloc : Nat → State → State × Int)

/-- Where the literals of a function after pass two are placed. -/
theorem allocate_oneBlock {opArray : OpArray Handler Value} (state : State)
    (relative : platform.useAbsConstAddr = false) (passTwo : opArray.donePassTwo = true) :
    (allocate platform emalloc opArray state).2.2 =
      (allocate platform emalloc opArray state).2.1 +
        alignedSize (platform.sizeofOp * opArray.last) 16 := by
  unfold allocate
  rw [relative, passTwo]
  rfl

/-- The copy of a function after pass two, whose parts are not in shared memory: it has
copies of the literals and of all oplines, constants mean the literals with the same
index, jumps go to the oplines with the same index, and other operands are the same. -/
theorem copyUserFunction_relocates (opArray : OpArray Handler Value) (state : State)
    (passTwo : opArray.donePassTwo = true) (own : opArray.refcount.isSome) :
    let copied := (copyUserFunction platform setOpcodeHandlerEx zType copyZval null emalloc
      opArray state).2
    List.Forall₂ (IsCopy copyZval null) opArray.table copied.table ∧
      copied.last = opArray.last ∧
      ∀ index op copiedOp, opArray.code[index]? = some op →
        copied.code[index]? = some copiedOp →
        Relocated platform opArray copied index op copiedOp := by
  intro copied
  have unfolded : copied = (copyUserFunction platform setOpcodeHandlerEx zType copyZval null
    emalloc opArray state).2 := rfl
  unfold copyUserFunction at unfolded
  rw [if_pos own] at unfolded
  dsimp only at unfolded
  refine ⟨?_, ?_, ?_⟩
  · have copies := copyLiterals_copies copyZval null opArray.table
      (allocate platform emalloc opArray state).1
    rw [unfolded]
    cases hasLiterals : opArray.literals with
    | none =>
      have empty : opArray.table = [] := by
        rw [OpArray.table, hasLiterals]
        rfl
      rw [empty]
      exact .nil
    | some literals => exact copies
  · rw [unfolded]
    exact List.length_mapIdx
  · intro index op copiedOp isOp isCopied
    have isOpline : index < opArray.last := (List.getElem?_eq_some_iff.mp isOp).1
    have round : copiedOp = copyOpline platform setOpcodeHandlerEx zType
        { opArray with
          refcount := some 1
          literals := opArray.literals.map fun _ =>
            ⟨(allocate platform emalloc opArray state).2.2, (copyLiterals copyZval null
              opArray.table (allocate platform emalloc opArray state).1).2⟩ }
        opArray.literalsAddress copied.opcodes index op := by
      rw [unfolded] at isCopied ⊢
      unfold copyOpcodes at isCopied
      rw [List.getElem?_mapIdx, isOp] at isCopied
      exact (Option.some.inj isCopied).symm
    rw [round]
    apply relocated_copyOpline
    · exact isOpline
    · exact passTwo
    · rfl
    · rw [unfolded]
      rfl
    · intro relative hasLiteral
      cases hasLiterals : opArray.literals with
      | none =>
        unfold OpArray.lastLiteral OpArray.table at hasLiteral
        rw [hasLiterals] at hasLiteral
        cases hasLiteral
      | some literals =>
        rw [unfolded]
        unfold OpArray.literalsAddress
        dsimp only
        rw [hasLiterals]
        exact allocate_oneBlock platform emalloc state relative passTwo

end Relocating

/-- An assignment of the second literal and a return of the first one. -/
def twoOplines : OpArray Unit Nat :=
  ⟨4096,
    [⟨(), BitVec.ofNat 32 80, 0, 96, 0, .zendQmAssign, .const, .unused, .cv⟩,
      ⟨(), BitVec.ofNat 32 32, 0, 0, 0, .other 62, .const, .unused, .unused⟩],
    some ⟨4160, [7, 8]⟩, true, some 1⟩

/-- A platform with pointers of 64 bits. -/
def platform64 : Platform := ⟨8, 32, by decide, 80100⟩

def copiedOplines : OpArray Unit Nat :=
  (copyUserFunction platform64 (fun _ _ => ()) (fun _ => 4) (fun value state => (state, some value))
    0 (fun size state => (state + size, (state : Int))) twoOplines 65536).2

theorem copyUserFunction_relocates_twoOplines :
    copiedOplines.opcodes ≠ twoOplines.opcodes ∧
      ∀ copiedOp, copiedOplines.code[0]? = some copiedOp →
        target (copiedOplines.opline platform64 0) copiedOp.op1 = copiedOplines.literal 1 := by
  refine ⟨by decide, fun copiedOp isCopied => ?_⟩
  have relocated := (copyUserFunction_relocates platform64
    (fun (value state : Nat) => (state, some value)) 0 (fun _ _ => ()) (fun _ => 4)
    (fun size state => (state + size, (state : Int))) twoOplines 65536 rfl rfl).2.2
    0 _ copiedOp rfl isCopied
  exact relocated.constant rfl (by decide) .op1 1 rfl (by decide) (by decide)

end Pthreads.OpcodeRelocation
