import Pthreads.FieldMemories
import Mathlib.Algebra.Group.Nat.Defs
import Mathlib.Data.List.Basic

/-!
# Constant expressions in one buffer

`pthreads_copy_ast` computes the size of a constant expression in one recursion, and
copies the expression into a buffer of that size in another one.  This file models the
nodes as they lie in memory on a 64-bit platform, and shows that the two recursions agree
and that the copy can be read back from the buffer.
-/

namespace Pthreads.AstBuffers

open FieldMemories

/-- A constant expression.  Lists have a bit of their own in the kind of a node, the
number of children of any other node is a part of its kind. -/
inductive Ast (Value Name : Type)
  | zval (attr : Nat) (value : Value)
  | constant (attr : Nat) (name : Name)
  | list (identity : Fin 64) (attr : Nat) (children : List (Option (Ast Value Name)))
  | node (identity : Fin 64) (attr : Nat) (children : List (Option (Ast Value Name)))

/-- `ZEND_AST_ZVAL` and `ZEND_AST_CONSTANT` -/
def zendAstZval : Nat := 64
def zendAstConstant : Nat := 65

def listKind (identity : Fin 64) : Nat := 2 ^ 7 + identity

def nodeKind (identity : Fin 64) (children : Nat) : Nat := children * 2 ^ 8 + identity

/-- `zend_ast_is_list` -/
def zendAstIsList (kind : Nat) : Bool := kind / 2 ^ 7 % 2 = 1

/-- `zend_ast_get_num_children` -/
def zendAstGetNumChildren (kind : Nat) : Nat := kind / 2 ^ 8

/-- The fields of `zend_ast`, `zend_ast_list`, `zend_ast_zval` and `zend_ast_ref`. -/
inductive Field (Content : Type)
  | kind (value : Nat)
  | attr (value : Nat)
  | children (count : Nat)
  | child (address : Option Nat)
  | val (content : Content)
  | refcount (count : Nat)
  | typeInfo

instance {Content : Type} : Sized (Field Content) where
  size
    | .kind _ | .attr _ => 2
    | .children _ | .refcount _ | .typeInfo => 4
    | .child _ => 8
    | .val _ => 16

def sizeofZendAst : Nat := 16
def sizeofZendAstList : Nat := 24
def sizeofZendAstZval : Nat := 24
def sizeofZendAstRef : Nat := 8
def sizeofPointer : Nat := 8

/-- `zend_ast_size` -/
def zendAstSize (children : Nat) : Nat :=
  sizeofZendAst - sizeofPointer + sizeofPointer * children

/-- `zend_ast_list_size` -/
def zendAstListSize (children : Nat) : Nat :=
  sizeofZendAstList - sizeofPointer + sizeofPointer * children

section Sizes

variable {Value Name : Type}

mutual

/-- `zend_ast_tree_size` -/
def zendAstTreeSize : Ast Value Name → Nat
  | .zval _ _ | .constant _ _ => sizeofZendAstZval
  | .list _ _ children => zendAstListSize children.length + childrenSize children
  | .node _ _ children => zendAstSize children.length + childrenSize children

def childrenSize : List (Option (Ast Value Name)) → Nat
  | [] => 0
  | none :: children => childrenSize children
  | some child :: children => zendAstTreeSize child + childrenSize children

end

end Sizes

/-- What copying changes: the state of the thread, the memory and the position in the
buffer. -/
structure Copying (State Content : Type) where
  state : State
  memory : Memory (Field Content)
  buf : Nat

/-- The `kind` and the `attr` with which every node begins. -/
def writeHead {Content : Type} (memory : Memory (Field Content)) (new kind attr : Nat) :
    Memory (Field Content) :=
  write (write memory new (.kind kind)) (new + 2) (.attr attr)

section Operations

variable {State Value Name Content : Type}
variable (copyZval : State → Value → State × Content) (copyString : Name → Content)

mutual

/-- `pthreads_copy_ast_tree` -/
def copyAstTree : Ast Value Name → Copying State Content → Copying State Content
  | .zval attr value, copying =>
      let copied := copyZval copying.state value
      { state := copied.1
        memory := write (writeHead copying.memory copying.buf zendAstZval attr)
          (copying.buf + 8) (.val copied.2)
        buf := copying.buf + sizeofZendAstZval }
  | .constant attr name, copying =>
      { copying with
        memory := write (writeHead copying.memory copying.buf zendAstConstant attr)
          (copying.buf + 8) (.val (copyString name))
        buf := copying.buf + sizeofZendAstZval }
  | .list identity attr children, copying =>
      copyChildren children (copying.buf + 16)
        { copying with
          memory := write (writeHead copying.memory copying.buf (listKind identity) attr)
            (copying.buf + 8) (.children children.length)
          buf := copying.buf + zendAstListSize children.length }
  | .node identity attr children, copying =>
      copyChildren children (copying.buf + 8)
        { copying with
          memory := writeHead copying.memory copying.buf (nodeKind identity children.length) attr
          buf := copying.buf + zendAstSize children.length }

/-- The loop over the children, which stores their addresses from `slot` on. -/
def copyChildren : List (Option (Ast Value Name)) → Nat → Copying State Content →
    Copying State Content
  | [], _, copying => copying
  | none :: children, slot, copying =>
      copyChildren children (slot + sizeofPointer)
        { copying with memory := write copying.memory slot (.child none) }
  | some child :: children, slot, copying =>
      copyChildren children (slot + sizeofPointer)
        (copyAstTree child
          { copying with memory := write copying.memory slot (.child (some copying.buf)) })

end

/-- The bytes that `pthreads_copy_ast` allocates. -/
def allocated (ast : Ast Value Name) : Nat := zendAstTreeSize ast + sizeofZendAstRef

/-- `pthreads_copy_ast` into the memory that `emalloc` returns. -/
def copyAst (ast : Ast Value Name) (state : State) (memory : Memory (Field Content)) (ref : Nat) :
    Copying State Content :=
  let copied := copyAstTree copyZval copyString ast ⟨state, memory, ref + sizeofZendAstRef⟩
  { copied with memory := write (write copied.memory ref (.refcount 1)) (ref + 4) .typeInfo }

mutual

/-- The same tree with the leaves copied one after the other. -/
def copyLeaves : Ast Value Name → State → State × Ast Content Content
  | .zval attr value, state => ((copyZval state value).1, .zval attr (copyZval state value).2)
  | .constant attr name, state => (state, .constant attr (copyString name))
  | .list identity attr children, state =>
      ((copyEachLeaves children state).1, .list identity attr (copyEachLeaves children state).2)
  | .node identity attr children, state =>
      ((copyEachLeaves children state).1, .node identity attr (copyEachLeaves children state).2)

def copyEachLeaves : List (Option (Ast Value Name)) → State →
    State × List (Option (Ast Content Content))
  | [], state => (state, [])
  | none :: children, state =>
      ((copyEachLeaves children state).1, none :: (copyEachLeaves children state).2)
  | some child :: children, state =>
      let first := copyLeaves child state
      ((copyEachLeaves children first.1).1, some first.2 :: (copyEachLeaves children first.1).2)

end

end Operations

section Representation

variable {Content : Type} (memory : Memory (Field Content))

/-- A node begins here. -/
structure Head (address kind attr : Nat) : Prop where
  kind : Holds memory address (.kind kind)
  attr : Holds memory (address + 2) (.attr attr)

mutual

/-- The tree that can be read from an address on, with the regions of its nodes. -/
def Represents : Ast Content Content → Nat → List Region → Prop
  | .zval attr value, address, regions => regions = [⟨address, sizeofZendAstZval⟩] ∧
      Head memory address zendAstZval attr ∧ Holds memory (address + 8) (.val value)
  | .constant attr name, address, regions => regions = [⟨address, sizeofZendAstZval⟩] ∧
      Head memory address zendAstConstant attr ∧ Holds memory (address + 8) (.val name)
  | .list identity attr children, address, regions => ∃ below,
      regions = ⟨address, zendAstListSize children.length⟩ :: below ∧
        Head memory address (listKind identity) attr ∧
        Holds memory (address + 8) (.children children.length) ∧
        RepresentsEach children (address + 16) below
  | .node identity attr children, address, regions => ∃ below,
      regions = ⟨address, zendAstSize children.length⟩ :: below ∧
        Head memory address (nodeKind identity children.length) attr ∧
        RepresentsEach children (address + 8) below

/-- The children whose addresses stand from `slot` on. -/
def RepresentsEach : List (Option (Ast Content Content)) → Nat → List Region → Prop
  | [], _, regions => regions = []
  | none :: children, slot, regions => Holds memory slot (.child none) ∧
      RepresentsEach children (slot + sizeofPointer) regions
  | some child :: children, slot, regions => ∃ address first others,
      regions = first ++ others ∧ Holds memory slot (.child (some address)) ∧
        Represents child address first ∧ RepresentsEach children (slot + sizeofPointer) others

end

/-- The regions are apart from each other and inside another one. -/
structure Placed (regions : List Region) (outer : Region) : Prop where
  apart : regions.Pairwise Region.Apart
  within : ∀ region ∈ regions, region.Within outer

end Representation

section Kinds

/-- Each constructor is the branch that the tests of the kind lead to. -/
theorem zendAstIsList_listKind (identity : Fin 64) : zendAstIsList (listKind identity) = true := by
  unfold zendAstIsList listKind
  simp only [decide_eq_true_eq]
  omega

theorem zendAstIsList_nodeKind (identity : Fin 64) (children : Nat) :
    zendAstIsList (nodeKind identity children) = false := by
  unfold zendAstIsList nodeKind
  simp only [decide_eq_false_iff_not]
  omega

theorem zendAstGetNumChildren_nodeKind (identity : Fin 64) (children : Nat) :
    zendAstGetNumChildren (nodeKind identity children) = children := by
  unfold zendAstGetNumChildren nodeKind
  omega

theorem kinds_ne_leaf (identity : Fin 64) (children : Nat) :
    (listKind identity ≠ zendAstZval ∧ listKind identity ≠ zendAstConstant) ∧
      nodeKind identity children ≠ zendAstZval ∧ nodeKind identity children ≠ zendAstConstant := by
  unfold listKind nodeKind zendAstZval zendAstConstant
  omega

end Kinds

section Sizes

theorem zendAstSize_eq (children : Nat) : zendAstSize children = 8 + 8 * children := rfl

theorem zendAstListSize_eq (children : Nat) : zendAstListSize children = 16 + 8 * children := rfl

end Sizes

section Frames

variable {Content : Type} {memory later : Memory (Field Content)}

theorem Head.kept {address kind attr length : Nat} (head : Head memory address kind attr)
    (keeps : Keeps memory later ⟨address, length⟩) (contains : 4 ≤ length) :
    Head later address kind attr where
  kind := head.kind.kept (keeps.within (within_mk (Nat.le_refl _) (by show _ + 2 ≤ _; omega)))
  attr := head.attr.kept (keeps.within (within_mk (by omega) (by show _ + 2 ≤ _; omega)))

theorem leaf_kept {address kind attr : Nat} {content : Content}
    (head : Head memory address kind attr) (holds : Holds memory (address + 8) (.val content))
    (keeps : Keeps memory later ⟨address, sizeofZendAstZval⟩) :
    Head later address kind attr ∧ Holds later (address + 8) (.val content) := by
  refine ⟨head.kept keeps (by decide), holds.kept (keeps.within (within_mk ?_ ?_))⟩
  · exact Nat.le_add_right _ _
  · exact Nat.le_refl _

/-- The slot of the first child and those of the others. -/
theorem keeps_slots {slot : Nat} {child : Option (Ast Content Content)}
    {children : List (Option (Ast Content Content))}
    (keeps : Keeps memory later ⟨slot, sizeofPointer * (child :: children).length⟩) :
    Keeps memory later ⟨slot, sizeofPointer⟩ ∧
      Keeps memory later ⟨slot + sizeofPointer, sizeofPointer * children.length⟩ := by
  rw [List.length_cons, Nat.mul_succ] at keeps
  constructor
  · exact keeps.within (within_mk (Nat.le_refl _) (by omega))
  · exact keeps.within (within_mk (Nat.le_add_right _ _) (by omega))

mutual

theorem Represents.kept : ∀ (tree : Ast Content Content) {address : Nat} {regions : List Region},
    Represents memory tree address regions → (∀ region ∈ regions, Keeps memory later region) →
      Represents later tree address regions
  | .zval attr value, address, _, ⟨rfl, head, holds⟩, keeps =>
      ⟨rfl, leaf_kept head holds (keeps _ (List.mem_singleton_self _))⟩
  | .constant attr name, address, _, ⟨rfl, head, holds⟩, keeps =>
      ⟨rfl, leaf_kept head holds (keeps _ (List.mem_singleton_self _))⟩
  | .list identity attr children, address, _, ⟨below, rfl, head, holds, each⟩, keeps => by
      obtain ⟨keeps, keepsBelow⟩ := List.forall_mem_cons.mp keeps
      rw [zendAstListSize_eq] at keeps
      refine ⟨below, rfl, head.kept keeps (by omega), holds.kept (keeps.within (within_mk ?_ ?_)),
        RepresentsEach.kept children each (keeps.within (within_mk ?_ ?_)) keepsBelow⟩
      · exact Nat.le_add_right _ _
      · show _ + 4 ≤ _
        omega
      · exact Nat.le_add_right _ _
      · unfold sizeofPointer
        omega
  | .node identity attr children, address, _, ⟨below, rfl, head, each⟩, keeps => by
      obtain ⟨keeps, keepsBelow⟩ := List.forall_mem_cons.mp keeps
      rw [zendAstSize_eq] at keeps
      refine ⟨below, rfl, head.kept keeps (by omega),
        RepresentsEach.kept children each (keeps.within (within_mk ?_ ?_)) keepsBelow⟩
      · exact Nat.le_add_right _ _
      · unfold sizeofPointer
        omega

theorem RepresentsEach.kept : ∀ (children : List (Option (Ast Content Content))) {slot : Nat}
    {regions : List Region}, RepresentsEach memory children slot regions →
      Keeps memory later ⟨slot, sizeofPointer * children.length⟩ →
      (∀ region ∈ regions, Keeps memory later region) →
      RepresentsEach later children slot regions
  | [], _, _, represents, _, _ => represents
  | none :: children, slot, _, ⟨holds, each⟩, keeps, keepsBelow => by
      obtain ⟨keepsFirst, keepsOthers⟩ := keeps_slots keeps
      exact ⟨holds.kept keepsFirst, RepresentsEach.kept children each keepsOthers keepsBelow⟩
  | some child :: children, slot, _, ⟨address, first, others, rfl, holds, represents, each⟩,
      keeps, keepsBelow => by
      obtain ⟨keepsFirst, keepsOthers⟩ := keeps_slots keeps
      obtain ⟨keepsChild, keepsRest⟩ := List.forall_mem_append.mp keepsBelow
      exact ⟨address, first, others, rfl, holds.kept keepsFirst,
        Represents.kept child represents keepsChild,
        RepresentsEach.kept children each keepsOthers keepsRest⟩

end

end Frames

section Fitting

variable {State Value Name Content : Type}

/-- Copying has used the given length of the buffer and written nowhere else, and the
tree can be read from where it began. -/
structure Fits (before after : Copying State Content) (length : Nat)
    (tree : Ast Content Content) : Prop where
  buf : after.buf = before.buf + length
  keeps : ∀ region : Region, region.Apart ⟨before.buf, length⟩ →
    Keeps before.memory after.memory region
  tree : ∃ regions, Represents after.memory tree before.buf regions ∧
    Placed regions ⟨before.buf, length⟩

/-- The same for children, whose slots lie before the buffer. -/
structure EachFits (before after : Copying State Content) (slot length : Nat)
    (children : List (Option (Ast Content Content))) : Prop where
  buf : after.buf = before.buf + length
  keeps : ∀ region : Region, region.Apart ⟨slot, sizeofPointer * children.length⟩ →
    region.Apart ⟨before.buf, length⟩ → Keeps before.memory after.memory region
  children : ∃ regions, RepresentsEach after.memory children slot regions ∧
    Placed regions ⟨before.buf, length⟩

theorem Placed.singleton (region : Region) : Placed [region] region where
  apart := List.pairwise_singleton _ _
  within := List.forall_mem_singleton.mpr ⟨Nat.le_refl _, Nat.le_refl _⟩

/-- Regions inside two intervals that follow each other. -/
theorem Placed.append {first others : List Region} {start length rest : Nat}
    (placed : Placed first ⟨start, length⟩) (later : Placed others ⟨start + length, rest⟩) :
    Placed (first ++ others) ⟨start, length + rest⟩ where
  apart := by
    refine List.pairwise_append.mpr ⟨placed.apart, later.apart, ?_⟩
    intro region isFirst other isOther
    exact Or.inl (Nat.le_trans (placed.within region isFirst).2 (later.within other isOther).1)
  within := by
    intro region isIn
    rcases List.mem_append.mp isIn with isFirst | isOther
    · obtain ⟨after, before⟩ := placed.within region isFirst
      exact ⟨after, Nat.le_trans before (Nat.add_le_add_left (Nat.le_add_right _ _) _)⟩
    · obtain ⟨after, before⟩ := later.within region isOther
      exact ⟨Nat.le_trans (Nat.le_add_right _ _) after,
        Nat.le_trans before (Nat.le_of_eq (Nat.add_assoc _ _ _))⟩

theorem head_writeHead (memory : Memory (Field Content)) (new kind attr : Nat) :
    Head (writeHead memory new kind attr) new kind attr where
  kind := (holds_write memory new (.kind kind)).write (Or.inl (Nat.le_refl _))
  attr := holds_write _ _ _

theorem keeps_writeHead (memory : Memory (Field Content)) {new kind attr length : Nat}
    {region : Region} (apart : region.Apart ⟨new, length⟩) (contains : 4 ≤ length) :
    Keeps memory (writeHead memory new kind attr) region := by
  refine (keeps_write memory (apart.within (within_mk (Nat.le_refl _) ?_))).trans
    (keeps_write _ (apart.within (within_mk (Nat.le_add_right _ _) ?_)))
  · show _ + 2 ≤ _
    omega
  · show _ + 2 + 2 ≤ _
    omega

/-- A field behind the head of a node. -/
theorem Head.write {memory : Memory (Field Content)} {address kind attr place : Nat}
    {field : Field Content} (head : Head memory address kind attr) (behind : address + 4 ≤ place) :
    Head (write memory place field) address kind attr := by
  have keeps : Keeps memory (FieldMemories.write memory place field) ⟨address, 4⟩ :=
    keeps_write memory (Or.inl behind)
  exact head.kept keeps (Nat.le_refl _)

variable {copyZval : State → Value → State × Content} {copyString : Name → Content}

theorem leaf_fits (copying : Copying State Content) (state : State) (kind attr : Nat)
    (content : Content) {tree : Ast Content Content}
    (isTree : ∀ memory : Memory (Field Content), Head memory copying.buf kind attr →
      Holds memory (copying.buf + 8) (.val content) →
      Represents memory tree copying.buf [⟨copying.buf, sizeofZendAstZval⟩]) :
    Fits copying
      { state := state
        memory := write (writeHead copying.memory copying.buf kind attr) (copying.buf + 8)
          (.val content)
        buf := copying.buf + sizeofZendAstZval } sizeofZendAstZval tree where
  buf := rfl
  keeps := by
    intro region apart
    refine (keeps_writeHead copying.memory apart (by decide)).trans
      (keeps_write _ (apart.within (within_mk (Nat.le_add_right _ _) ?_)))
    exact Nat.le_refl _
  tree := by
    refine ⟨_, isTree _ ?_ (holds_write _ _ _), Placed.singleton _⟩
    exact (head_writeHead copying.memory copying.buf kind attr).write (by omega)

theorem length_copyEachLeaves : ∀ (children : List (Option (Ast Value Name))) (state : State),
    (copyEachLeaves copyZval copyString children state).2.length = children.length
  | [], _ => rfl
  | none :: children, state => congrArg (· + 1) (length_copyEachLeaves children state)
  | some child :: children, state =>
      congrArg (· + 1)
        (length_copyEachLeaves children (copyLeaves copyZval copyString child state).1)

/-- The children of a node fit behind it, whatever stands before their slots. -/
theorem EachFits.node {before opened after : Copying State Content} {size below slot : Nat}
    {children : List (Option (Ast Content Content))}
    (fits : EachFits opened after slot below children) (tree : Ast Content Content)
    (next : opened.buf = before.buf + size)
    (slots : slot + sizeofPointer * children.length = before.buf + size)
    (behind : before.buf ≤ slot)
    (opens : ∀ region : Region, region.Apart ⟨before.buf, size⟩ →
      Keeps before.memory opened.memory region)
    (isTree : ∀ regions, Keeps opened.memory after.memory ⟨before.buf, slot - before.buf⟩ →
      RepresentsEach after.memory children slot regions →
        Represents after.memory tree before.buf (⟨before.buf, size⟩ :: regions)) :
    Fits before after (size + below) tree where
  buf := by rw [fits.buf, next, Nat.add_assoc]
  keeps := by
    intro region apart
    refine (opens region (apart.within (within_mk (Nat.le_refl _) (by omega)))).trans
      (fits.keeps region (apart.within (within_mk (by omega) (by omega))) (apart.within ?_))
    exact within_mk (by omega) (by omega)
  tree := by
    obtain ⟨regions, each, placed⟩ := fits.children
    have keeps : Keeps opened.memory after.memory ⟨before.buf, slot - before.buf⟩ := by
      have stops : before.buf + (slot - before.buf) = slot := Nat.add_sub_cancel' behind
      refine fits.keeps _ (Or.inl (Nat.le_of_eq stops)) (Or.inl ?_)
      show before.buf + (slot - before.buf) ≤ opened.buf
      omega
    refine ⟨⟨before.buf, size⟩ :: regions, isTree regions keeps each, ?_⟩
    rw [next] at placed
    exact (Placed.singleton ⟨before.buf, size⟩).append placed

theorem EachFits.missing {before after : Copying State Content} {slot length : Nat}
    {children : List (Option (Ast Content Content))}
    (fits : EachFits { before with memory := write before.memory slot (.child none) } after
      (slot + sizeofPointer) length children)
    (slots : slot + sizeofPointer * (children.length + 1) ≤ before.buf) :
    EachFits before after slot length (none :: children) where
  buf := fits.buf
  keeps := by
    intro region apartSlots apart
    rw [List.length_cons, Nat.mul_succ] at apartSlots
    refine (keeps_write before.memory (apartSlots.within ?_)).trans
      (fits.keeps region (apartSlots.within ?_) apart)
    · exact within_mk (Nat.le_refl _) (by show _ + 8 ≤ _; unfold sizeofPointer; omega)
    · exact within_mk (Nat.le_add_right _ _) (by omega)
  children := by
    obtain ⟨regions, each, placed⟩ := fits.children
    refine ⟨regions, ⟨?_, each⟩, placed⟩
    apply (holds_write before.memory slot (.child none)).kept
    apply fits.keeps
    · exact Or.inl (Nat.le_refl _)
    · exact Or.inl (Nat.le_trans (by show slot + 8 ≤ _; unfold sizeofPointer; omega) slots)

theorem EachFits.child {before middle after : Copying State Content} {slot first rest : Nat}
    {tree : Ast Content Content} {children : List (Option (Ast Content Content))}
    (treeFits : Fits { before with memory := write before.memory slot (.child (some before.buf)) }
      middle first tree)
    (fits : EachFits middle after (slot + sizeofPointer) rest children)
    (slots : slot + sizeofPointer * (children.length + 1) ≤ before.buf) :
    EachFits before after slot (first + rest) (some tree :: children) where
  buf := by rw [fits.buf, treeFits.buf, Nat.add_assoc]
  keeps := by
    intro region apartSlots apart
    rw [List.length_cons, Nat.mul_succ] at apartSlots
    have middleBuf : middle.buf = before.buf + first := treeFits.buf
    refine ((keeps_write before.memory (apartSlots.within ?_)).trans
      (treeFits.keeps region (apart.within ?_))).trans
      (fits.keeps region (apartSlots.within ?_) (apart.within ?_))
    · exact within_mk (Nat.le_refl _) (by show _ + 8 ≤ _; unfold sizeofPointer; omega)
    · exact within_mk (Nat.le_refl _) (by show before.buf + _ ≤ _; omega)
    · exact within_mk (Nat.le_add_right _ _) (by omega)
    · exact within_mk (by omega) (by omega)
  children := by
    have middleBuf : middle.buf = before.buf + first := treeFits.buf
    obtain ⟨treeRegions, represents, treePlaced⟩ := treeFits.tree
    obtain ⟨regions, each, placed⟩ := fits.children
    rw [middleBuf] at placed
    refine ⟨treeRegions ++ regions, ⟨before.buf, treeRegions, regions, rfl, ?_, ?_, each⟩,
      treePlaced.append placed⟩
    · have slotEnd : slot + 8 ≤ before.buf :=
        Nat.le_trans (by unfold sizeofPointer; omega) slots
      apply ((holds_write before.memory slot (.child (some before.buf))).kept _).kept
      · exact fits.keeps _ (Or.inl (Nat.le_refl _)) (Or.inl (by show slot + 8 ≤ middle.buf; omega))
      · exact treeFits.keeps _ (Or.inl slotEnd)
    · apply Represents.kept tree represents
      intro region isIn
      obtain ⟨after, before⟩ := treePlaced.within region isIn
      have starts : slot + sizeofPointer + sizeofPointer * children.length ≤ region.start :=
        Nat.le_trans (Nat.le_trans (by rw [Nat.mul_succ]; omega) slots) after
      exact fits.keeps region (Or.inr starts) (Or.inl (middleBuf ▸ before))

mutual

theorem copyAstTree_fits : ∀ (ast : Ast Value Name) (copying : Copying State Content),
    (copyAstTree copyZval copyString ast copying).state =
        (copyLeaves copyZval copyString ast copying.state).1 ∧
      Fits copying (copyAstTree copyZval copyString ast copying) (zendAstTreeSize ast)
        (copyLeaves copyZval copyString ast copying.state).2
  | .zval attr value, copying =>
      ⟨rfl, leaf_fits copying _ zendAstZval attr _ fun _ head holds => ⟨rfl, head, holds⟩⟩
  | .constant attr name, copying =>
      ⟨rfl, leaf_fits copying _ zendAstConstant attr _ fun _ head holds => ⟨rfl, head, holds⟩⟩
  | .list identity attr children, copying => by
      obtain ⟨sameState, fits⟩ := copyChildren_fits children (copying.buf + 16)
        { copying with
          memory := write (writeHead copying.memory copying.buf (listKind identity) attr)
            (copying.buf + 8) (.children children.length)
          buf := copying.buf + zendAstListSize children.length }
        (Nat.le_of_eq (Nat.add_assoc _ _ _))
      refine ⟨sameState, fits.node _ rfl ?_ (Nat.le_add_right _ _) ?_ ?_⟩
      · rw [length_copyEachLeaves]
        exact Nat.add_assoc _ _ _
      · intro region apart
        rw [zendAstListSize_eq] at apart
        refine (keeps_writeHead copying.memory apart (by omega)).trans
          (keeps_write _ (apart.within (within_mk (Nat.le_add_right _ _) ?_)))
        show _ + 4 ≤ _
        omega
      · intro regions keeps each
        rw [Nat.add_sub_cancel_left] at keeps
        have head : Head (write (writeHead copying.memory copying.buf (listKind identity) attr)
            (copying.buf + 8) (.children children.length)) copying.buf (listKind identity) attr :=
          (head_writeHead _ _ _ _).write (by omega)
        refine ⟨regions, ?_, head.kept keeps (by decide), ?_, each⟩
        · rw [length_copyEachLeaves]
        · rw [length_copyEachLeaves]
          exact (holds_write _ _ _).kept
            (keeps.within (within_mk (Nat.le_add_right _ _) (by show _ + 4 ≤ _; omega)))
  | .node identity attr children, copying => by
      obtain ⟨sameState, fits⟩ := copyChildren_fits children (copying.buf + 8)
        { copying with
          memory := writeHead copying.memory copying.buf (nodeKind identity children.length) attr
          buf := copying.buf + zendAstSize children.length }
        (Nat.le_of_eq (Nat.add_assoc _ _ _))
      refine ⟨sameState, fits.node _ rfl ?_ (Nat.le_add_right _ _) ?_ ?_⟩
      · rw [length_copyEachLeaves]
        exact Nat.add_assoc _ _ _
      · intro region apart
        rw [zendAstSize_eq] at apart
        exact keeps_writeHead copying.memory apart (by omega)
      · intro regions keeps each
        rw [Nat.add_sub_cancel_left] at keeps
        have head := head_writeHead copying.memory copying.buf (nodeKind identity children.length)
          attr
        refine ⟨regions, ?_, ?_, each⟩
        · rw [length_copyEachLeaves]
        · rw [length_copyEachLeaves]
          exact head.kept keeps (by decide)

theorem copyChildren_fits : ∀ (children : List (Option (Ast Value Name))) (slot : Nat)
    (copying : Copying State Content), slot + sizeofPointer * children.length ≤ copying.buf →
      (copyChildren copyZval copyString children slot copying).state =
          (copyEachLeaves copyZval copyString children copying.state).1 ∧
        EachFits copying (copyChildren copyZval copyString children slot copying) slot
          (childrenSize children) (copyEachLeaves copyZval copyString children copying.state).2
  | [], slot, copying, _ => by
      refine ⟨rfl, rfl, fun _ _ _ _ _ => rfl, [], rfl, List.Pairwise.nil, nofun⟩
  | none :: children, slot, copying, before => by
      rw [List.length_cons, Nat.mul_succ] at before
      obtain ⟨sameState, fits⟩ := copyChildren_fits children (slot + sizeofPointer)
        { copying with memory := write copying.memory slot (.child none) }
        (Nat.le_trans (by omega) before)
      refine ⟨sameState, fits.missing ?_⟩
      rw [length_copyEachLeaves, Nat.mul_succ]
      exact before
  | some child :: children, slot, copying, before => by
      rw [List.length_cons, Nat.mul_succ] at before
      obtain ⟨treeState, treeFits⟩ := copyAstTree_fits child
        { copying with memory := write copying.memory slot (.child (some copying.buf)) }
      obtain ⟨sameState, fits⟩ := copyChildren_fits children (slot + sizeofPointer)
        (copyAstTree copyZval copyString child
          { copying with memory := write copying.memory slot (.child (some copying.buf)) })
        (by rw [treeFits.buf]; show _ ≤ copying.buf + _; omega)
      rw [treeState] at sameState fits
      refine ⟨sameState, EachFits.child treeFits fits ?_⟩
      rw [length_copyEachLeaves, Nat.mul_succ]
      exact before

end

end Fitting

section Shapes

variable {State Value Name Content : Type}

mutual

/-- The tree without what is in its leaves. -/
def Ast.shape : Ast Value Name → Ast Unit Unit
  | .zval attr _ => .zval attr ()
  | .constant attr _ => .constant attr ()
  | .list identity attr children => .list identity attr (shapes children)
  | .node identity attr children => .node identity attr (shapes children)

def shapes : List (Option (Ast Value Name)) → List (Option (Ast Unit Unit))
  | [] => []
  | none :: children => none :: shapes children
  | some child :: children => some child.shape :: shapes children

end

variable {copyZval : State → Value → State × Content} {copyString : Name → Content}

mutual

theorem shape_copyLeaves : ∀ (ast : Ast Value Name) (state : State),
    (copyLeaves copyZval copyString ast state).2.shape = ast.shape
  | .zval _ _, _ | .constant _ _, _ => rfl
  | .list identity attr children, state =>
      congrArg (Ast.list identity attr) (shapes_copyEachLeaves children state)
  | .node identity attr children, state =>
      congrArg (Ast.node identity attr) (shapes_copyEachLeaves children state)

theorem shapes_copyEachLeaves : ∀ (children : List (Option (Ast Value Name))) (state : State),
    shapes (copyEachLeaves copyZval copyString children state).2 = shapes children
  | [], _ => rfl
  | none :: children, state => congrArg (none :: ·) (shapes_copyEachLeaves children state)
  | some child :: children, state =>
      congrArg₂ (fun first others => some first :: others) (shape_copyLeaves child state)
        (shapes_copyEachLeaves children (copyLeaves copyZval copyString child state).1)

end

end Shapes

/-- The reference count and the type lie before the buffer. -/
theorem keeps_writeRef {Content : Type} (copied : Memory (Field Content)) {ref : Nat}
    {region : Region} (apart : region.Apart ⟨ref, sizeofZendAstRef⟩) :
    Keeps copied (write (write copied ref (.refcount 1)) (ref + 4) .typeInfo) region :=
  (keeps_write copied (apart.within (within_mk (Nat.le_refl _)
    (Nat.add_le_add_left (by decide : 4 ≤ 8) _)))).trans
    (keeps_write _ (apart.within (within_mk (Nat.le_add_right _ _) (Nat.le_refl _))))

/-- The buffer holds the tree with copied leaves. -/
theorem copyAst_represents {State Value Name Content : Type}
    (copyZval : State → Value → State × Content) (copyString : Name → Content)
    (ast : Ast Value Name) (state : State) (memory : Memory (Field Content)) (ref : Nat) :
    (copyAst copyZval copyString ast state memory ref).state =
        (copyLeaves copyZval copyString ast state).1 ∧
      ∃ regions,
        Represents (copyAst copyZval copyString ast state memory ref).memory
          (copyLeaves copyZval copyString ast state).2 (ref + sizeofZendAstRef) regions ∧
        Placed regions ⟨ref + sizeofZendAstRef, zendAstTreeSize ast⟩ := by
  obtain ⟨sameState, fits⟩ := copyAstTree_fits ast
    (⟨state, memory, ref + sizeofZendAstRef⟩ : Copying State Content)
  obtain ⟨regions, represents, placed⟩ := fits.tree
  refine ⟨sameState, regions, Represents.kept _ represents ?_, placed⟩
  intro region isIn
  exact keeps_writeRef _ (Or.inr (placed.within region isIn).1)

/-- Copying a constant expression uses exactly the size that was computed for it, and
writes nowhere but in the memory that was allocated.  From the buffer the same tree can
be read back, with copied leaves, in regions apart from each other: each child begins
where the pointer to it says. -/
theorem copyAst_fits {State Value Name Content : Type}
    (copyZval : State → Value → State × Content) (copyString : Name → Content)
    (ast : Ast Value Name) (state : State) (memory : Memory (Field Content)) (ref : Nat) :
    (copyAst copyZval copyString ast state memory ref).buf =
        ref + sizeofZendAstRef + zendAstTreeSize ast ∧
      (∀ region : Region, region.Apart ⟨ref, allocated ast⟩ →
        Keeps memory (copyAst copyZval copyString ast state memory ref).memory region) ∧
      (∃ regions,
        Represents (copyAst copyZval copyString ast state memory ref).memory
          (copyLeaves copyZval copyString ast state).2 (ref + sizeofZendAstRef) regions ∧
        Placed regions ⟨ref + sizeofZendAstRef, zendAstTreeSize ast⟩) ∧
      (copyLeaves copyZval copyString ast state).2.shape = ast.shape := by
  have fits : Fits ⟨state, memory, ref + sizeofZendAstRef⟩
      (copyAstTree copyZval copyString ast ⟨state, memory, ref + sizeofZendAstRef⟩)
      (zendAstTreeSize ast) (copyLeaves copyZval copyString ast state).2 :=
    (copyAstTree_fits ast _).2
  refine ⟨fits.buf, ?_, (copyAst_represents copyZval copyString ast state memory ref).2,
    shape_copyLeaves ast state⟩
  intro region apart
  refine (fits.keeps region (apart.within (within_mk ?_ ?_))).trans
    (keeps_writeRef _ (apart.within (within_mk (Nat.le_refl _) ?_)))
  · exact Nat.le_add_right _ _
  · show ref + sizeofZendAstRef + zendAstTreeSize ast ≤ ref + allocated ast
    apply Nat.le_of_eq
    rw [allocated, Nat.add_assoc, Nat.add_comm (zendAstTreeSize ast)]
  · exact Nat.add_le_add_left (Nat.le_add_left _ _) _

end Pthreads.AstBuffers
