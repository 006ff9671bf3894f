import Pthreads.AstBuffers
import Pthreads.CopyTermination

/-!
# Constant expressions in a heap and in a buffer

The recursion over the source heap follows a constant expression from address to
address, and the one that fills a buffer goes through a tree.  For a tree that stands
in the heap the two copy the same leaves one after the other, so that the buffer shows
the copy which the recursion over the heap returns.
-/

namespace Pthreads.ValueCopies

open RecursiveCalls
open AstBuffers (Ast listKind nodeKind copyLeaves copyEachLeaves length_copyEachLeaves)

variable {Address : Type}

/-- What a leaf of the copy holds. -/
inductive Leaf (Address : Type)
  | value (content : Option (Copied Address))
  | name (text : ZString)

section Standing

variable (heap : Heap Address)

mutual

/-- The tree that is met from an address on. -/
def StandsAt : Ast (Slot Address) ZString → Address → Prop
  | .zval attr content, address => heap.ast address = .zval attr content
  | .constant attr name, address => heap.ast address = .constant attr name
  | .list identity attr children, address => ∃ addresses,
      heap.ast address = .tree (listKind identity) attr addresses ∧
        StandsEach children addresses
  | .node identity attr children, address => ∃ addresses,
      heap.ast address = .tree (nodeKind identity children.length) attr addresses ∧
        StandsEach children addresses

def StandsEach : List (Option (Ast (Slot Address) ZString)) → List (Option Address) → Prop
  | [], addresses => addresses = []
  | none :: children, addresses => ∃ others,
      addresses = none :: others ∧ StandsEach children others
  | some child :: children, addresses => ∃ first others,
      addresses = some first :: others ∧ StandsAt child first ∧ StandsEach children others

end

end Standing

mutual

/-- The tree of the buffer is the copy. -/
def Shows : Ast (Leaf Address) (Leaf Address) → Copied Address → Prop
  | .zval attr leaf, copy => ∃ content, leaf = .value content ∧ copy = .astZval attr content
  | .constant attr leaf, copy => ∃ name, leaf = .name name ∧ copy = .astConstant attr name
  | .list identity attr children, copy => ∃ copies,
      copy = .astTree (listKind identity) attr copies ∧ ShowsEach children copies
  | .node identity attr children, copy => ∃ copies,
      copy = .astTree (nodeKind identity children.length) attr copies ∧ ShowsEach children copies

def ShowsEach : List (Option (Ast (Leaf Address) (Leaf Address))) →
    List (Option (Copied Address)) → Prop
  | [], copies => copies = []
  | none :: children, copies => ∃ others, copies = none :: others ∧ ShowsEach children others
  | some child :: children, copies => ∃ first others,
      copies = some first :: others ∧ Shows child first ∧ ShowsEach children others

end

variable [DecidableEq Address] (heap : Heap Address) (receiver : Receiver) (fuel : Nat)

/-- `pthreads_copy_zval` on a leaf, with this much fuel. -/
def copyLeaf (memo : Memo Address) (content : Slot Address) : Memo Address × Leaf Address :=
  ((copyZval receiver (copy heap receiver fuel) memo content).map fun done =>
    (done.1, .value done.2)).getD (memo, .value none)

/-- `pthreads_copy_string` on the name of a constant. -/
def copyName (name : ZString) : Leaf Address := .name (copyString receiver name)

variable {heap receiver fuel}

theorem copyLeaf_eq {smaller : Nat} (enough : smaller ≤ fuel) {memo : Memo Address}
    {content : Slot Address} {done : Memo Address × Option (Copied Address)}
    (copied : copyZval receiver (copy heap receiver smaller) memo content = some done) :
    copyLeaf heap receiver fuel memo content = (done.1, .value done.2) := by
  have more := copyZval_mono (fun _ _ _ => copy_le enough) copied
  rw [copyLeaf, more]
  rfl

/-- A copy of an expression is a copy of its first node, with less fuel for the rest. -/
theorem copyAstTree_of_copy {memo : Memo Address} {address : Address}
    {outcome : Memo Address × Copied Address}
    (done : copy heap receiver fuel memo (.ast address) = some outcome) :
    ∃ smaller, smaller ≤ fuel ∧
      copyAstTree receiver (copy heap receiver smaller) memo (heap.ast address) =
        some outcome := by
  cases fuel with
  | zero => cases done
  | succ fuel => exact ⟨fuel, Nat.le_succ fuel, done⟩

mutual

theorem copyLeaves_agrees : ∀ (ast : Ast (Slot Address) ZString) {smaller : Nat}
    {memo after : Memo Address} {address : Address} {tree : Copied Address}, smaller ≤ fuel →
    StandsAt heap ast address →
    copy heap receiver smaller memo (.ast address) = some (after, tree) →
    (copyLeaves (copyLeaf heap receiver fuel) (copyName receiver) ast memo).1 = after ∧
      Shows (copyLeaves (copyLeaf heap receiver fuel) (copyName receiver) ast memo).2 tree
  | .zval attr content, _, memo, after, address, tree, enough, stands, done => by
      obtain ⟨fewer, less, copied⟩ := copyAstTree_of_copy done
      rw [show heap.ast address = .zval attr content from stands] at copied
      obtain ⟨⟨_, value⟩, one, ⟨⟩⟩ := Option.map_eq_some_iff.mp copied
      have leaf := copyLeaf_eq (Nat.le_trans less enough) one
      rw [copyLeaves, leaf]
      exact ⟨rfl, value, rfl, rfl⟩
  | .constant attr name, _, memo, after, address, tree, _, stands, done => by
      obtain ⟨fewer, -, copied⟩ := copyAstTree_of_copy done
      rw [show heap.ast address = .constant attr name from stands] at copied
      cases copied
      exact ⟨rfl, copyString receiver name, rfl, rfl⟩
  | .list identity attr children, _, memo, after, address, tree, enough, stands, done => by
      obtain ⟨fewer, less, copied⟩ := copyAstTree_of_copy done
      obtain ⟨addresses, found, standsEach⟩ := stands
      rw [found] at copied
      obtain ⟨⟨_, copies⟩, each, ⟨⟩⟩ := Option.map_eq_some_iff.mp copied
      obtain ⟨sameMemo, shows⟩ :=
        copyEachLeaves_agrees children (Nat.le_trans less enough) standsEach each
      exact ⟨sameMemo, copies, rfl, shows⟩
  | .node identity attr children, _, memo, after, address, tree, enough, stands, done => by
      obtain ⟨fewer, less, copied⟩ := copyAstTree_of_copy done
      obtain ⟨addresses, found, standsEach⟩ := stands
      rw [found] at copied
      obtain ⟨⟨_, copies⟩, each, ⟨⟩⟩ := Option.map_eq_some_iff.mp copied
      obtain ⟨sameMemo, shows⟩ :=
        copyEachLeaves_agrees children (Nat.le_trans less enough) standsEach each
      refine ⟨sameMemo, copies, ?_, shows⟩
      rw [length_copyEachLeaves]

theorem copyEachLeaves_agrees : ∀ (children : List (Option (Ast (Slot Address) ZString)))
    {smaller : Nat} {memo after : Memo Address} {addresses : List (Option Address)}
    {copies : List (Option (Copied Address))}, smaller ≤ fuel →
    StandsEach heap children addresses →
    traverse (copyChild (copy heap receiver smaller)) memo addresses = some (after, copies) →
    (copyEachLeaves (copyLeaf heap receiver fuel) (copyName receiver) children memo).1 = after ∧
      ShowsEach (copyEachLeaves (copyLeaf heap receiver fuel) (copyName receiver) children memo).2
        copies
  | [], _, memo, after, addresses, copies, _, stands, done => by
      cases stands
      cases done
      exact ⟨rfl, rfl⟩
  | none :: children, _, memo, after, addresses, copies, enough, stands, done => by
      obtain ⟨others, rfl, standsOthers⟩ := stands
      obtain ⟨middle, first, rest, one, each, rfl⟩ := traverse_cons_eq_some.mp done
      cases one
      obtain ⟨sameMemo, shows⟩ := copyEachLeaves_agrees children enough standsOthers each
      exact ⟨sameMemo, rest, rfl, shows⟩
  | some child :: children, _, memo, after, addresses, copies, enough, stands, done => by
      obtain ⟨address, others, rfl, standsChild, standsOthers⟩ := stands
      obtain ⟨middle, first, rest, one, each, rfl⟩ := traverse_cons_eq_some.mp done
      obtain ⟨⟨_, tree⟩, copied, ⟨⟩⟩ := Option.map_eq_some_iff.mp one
      obtain ⟨childMemo, showsChild⟩ := copyLeaves_agrees child enough standsChild copied
      obtain ⟨sameMemo, shows⟩ := copyEachLeaves_agrees children enough standsOthers each
      rw [← childMemo] at sameMemo shows
      exact ⟨sameMemo, tree, rest, rfl, showsChild, shows⟩

end

/-- The kinds of the nodes are those that the tests of a kind tell apart. -/
def Heap.WellKinded (heap : Heap Address) : Prop :=
  ∀ address kind attr children, heap.ast address = .tree kind attr children →
    ∃ identity, kind = listKind identity ∨ kind = nodeKind identity children.length

theorem exists_standsEach
    (each : ∀ memo address outcome, copy heap receiver fuel memo (.ast address) = some outcome →
      ∃ ast, StandsAt heap ast address) {addresses : List (Option Address)}
    {memo after : Memo Address} {copies : List (Option (Copied Address))}
    (done : traverse (copyChild (copy heap receiver fuel)) memo addresses =
      some (after, copies)) :
    ∃ children, children.length = addresses.length ∧ StandsEach heap children addresses := by
  induction addresses generalizing memo copies with
  | nil => exact ⟨[], rfl, rfl⟩
  | cons address addresses ih =>
      obtain ⟨middle, first, rest, one, others, rfl⟩ := traverse_cons_eq_some.mp done
      obtain ⟨children, length, stands⟩ := ih others
      cases address with
      | none => exact ⟨none :: children, congrArg (· + 1) length, addresses, rfl, stands⟩
      | some address =>
          obtain ⟨outcome, copied, -⟩ := Option.map_eq_some_iff.mp one
          obtain ⟨child, standsChild⟩ := each memo address outcome copied
          exact ⟨some child :: children, congrArg (· + 1) length, address, addresses, rfl,
            standsChild, stands⟩

/-- Whatever expression the recursion comes to the end of is a tree. -/
theorem exists_standsAt (kinds : heap.WellKinded) {memo : Memo Address} {address : Address}
    {outcome : Memo Address × Copied Address}
    (done : copy heap receiver fuel memo (.ast address) = some outcome) :
    ∃ ast, StandsAt heap ast address := by
  induction fuel generalizing memo address outcome with
  | zero => cases done
  | succ fuel ih =>
      replace done : copyAstTree receiver (copy heap receiver fuel) memo (heap.ast address) =
        some outcome := done
      cases found : heap.ast address with
      | zval attr content => exact ⟨.zval attr content, found⟩
      | constant attr name => exact ⟨.constant attr name, found⟩
      | tree kind attr addresses =>
          rw [found] at done
          obtain ⟨⟨_, copies⟩, each, -⟩ := Option.map_eq_some_iff.mp done
          obtain ⟨children, length, stands⟩ :=
            exists_standsEach (fun _ _ _ copied => ih copied) each
          obtain ⟨identity, rfl | rfl⟩ := kinds address kind attr addresses found
          · exact ⟨.list identity attr children, addresses, found, stands⟩
          · refine ⟨.node identity attr children, addresses, ?_, stands⟩
            rw [found, length]

/-- What `pthreads_copy_ast` leaves in its buffer is the copy that the recursion over
the heap returns. -/
theorem copyAst_shows (kinds : heap.WellKinded) {memo after : Memo Address} {address : Address}
    {tree : Copied Address}
    (done : copy heap receiver fuel memo (.ast address) = some (after, tree)) :
    ∃ ast, StandsAt heap ast address ∧
      ∀ (memory : FieldMemories.Memory (AstBuffers.Field (Leaf Address))) (ref : Nat),
        let buffer := AstBuffers.copyAst (copyLeaf heap receiver fuel) (copyName receiver) ast
          memo memory ref
        buffer.state = after ∧ ∃ copied regions, Shows copied tree ∧
          AstBuffers.Represents buffer.memory copied (ref + AstBuffers.sizeofZendAstRef)
            regions := by
  obtain ⟨ast, stands⟩ := exists_standsAt kinds done
  refine ⟨ast, stands, ?_⟩
  intro memory ref
  obtain ⟨sameMemo, shows⟩ := copyLeaves_agrees ast (Nat.le_refl fuel) stands done
  obtain ⟨sameState, regions, represents, -⟩ := AstBuffers.copyAst_represents
    (copyLeaf heap receiver fuel) (copyName receiver) ast memo memory ref
  exact ⟨sameState.trans sameMemo, _, regions, shows, represents⟩

end Pthreads.ValueCopies
