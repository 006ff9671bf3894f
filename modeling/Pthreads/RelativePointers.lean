import Mathlib.Algebra.Group.Nat.Defs
import Mathlib.Algebra.Ring.Int.Defs

/-!
# Pointers in fields of 32 bits

A field of 32 bits keeps a pointer either as the distance from the place where it is kept,
or as the address itself where addresses have 32 bits.  Arrays are a base address and the
size of an element.
-/

namespace Pthreads.RelativePointers

/-- The size rounded up to a multiple of the alignment. -/
def alignedSize (size alignment : Nat) : Nat := (size + (alignment - 1)) / alignment * alignment

theorem le_alignedSize (size : Nat) {alignment : Nat} (positive : 0 < alignment) :
    size ≤ alignedSize size alignment := by
  have rounded : (size + (alignment - 1)) % alignment < alignment := Nat.mod_lt _ positive
  have whole := Nat.div_add_mod' (size + (alignment - 1)) alignment
  unfold alignedSize
  omega

/-- The address of an element of an array. -/
def element (base : Int) (size : Nat) (index : Int) : Int := base + size * index

/-- The difference between two pointers to elements. -/
def indexOf (base : Int) (size : Nat) (address : Int) : Int := (address - base) / size

theorem indexOf_element (base : Int) {size : Nat} (positive : 0 < size) (index : Int) :
    indexOf base size (element base size index) = index := by
  have nonzero : (size : Int) ≠ 0 := by omega
  unfold indexOf element
  rw [add_sub_cancel_left, Int.mul_ediv_cancel_left index nonzero]

theorem element_le {base : Int} {size : Nat} {index bound : Nat} (le : index ≤ bound) :
    element base size index ≤ base + (size * bound : Nat) := by
  have product : size * index ≤ size * bound := Nat.mul_le_mul_left size le
  unfold element
  push_cast at product ⊢
  omega

theorem le_element (base : Int) (size index : Nat) : base ≤ element base size index := by
  unfold element
  have product : (0 : Int) ≤ (size : Int) * index :=
    Int.mul_nonneg (Int.natCast_nonneg size) (Int.natCast_nonneg index)
  omega

/-- What is kept at an address for a pointer, and where it points. -/
def distance (place pointed : Int) : BitVec 32 := BitVec.ofInt 32 (pointed - place)

def target (place : Int) (field : BitVec 32) : Int := place + field.toInt

theorem target_distance {place pointed : Int} (low : -2 ^ 31 ≤ pointed - place)
    (high : pointed - place < 2 ^ 31) : target place (distance place pointed) = pointed := by
  have exact_distance : (distance place pointed).toInt = pointed - place := by
    unfold distance
    rw [BitVec.toInt_ofInt]
    apply Int.bmod_eq_of_le
    · omega
    · omega
  unfold target
  omega

/-- A pointer of 32 bits and its address. -/
def pointer (address : Int) : BitVec 32 := BitVec.ofInt 32 address

def addressOf (field : BitVec 32) : Int := field.toNat

theorem addressOf_pointer {address : Int} (low : 0 ≤ address) (high : address < 2 ^ 32) :
    addressOf (pointer address) = address := by
  unfold addressOf pointer
  rw [BitVec.toNat_ofInt]
  omega

theorem pointer_add (first second : Int) :
    pointer first + pointer second = pointer (first + second) :=
  (BitVec.ofInt_add first second).symm

end Pthreads.RelativePointers
