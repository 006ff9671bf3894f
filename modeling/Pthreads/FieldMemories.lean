import Mathlib.Data.List.Pairwise
import Mathlib.Order.Basic

/-!
# Memory that is written field by field

Each byte of such a memory knows the field that was written there and its place in it,
so that a field can be read back only if no byte of it has been overwritten.  Regions of
the memory are intervals of addresses.
-/

namespace Pthreads.FieldMemories

/-- The sizes of the fields in bytes. -/
class Sized (Field : Type) where
  size : Field → Nat

/-- For each address the field that is there, and which byte of it. -/
abbrev Memory (Field : Type) := Nat → Option (Field × Nat)

structure Region where
  start : Nat
  length : Nat
deriving DecidableEq, Repr

def Region.stop (region : Region) : Nat := region.start + region.length

def Region.Has (region : Region) (address : Nat) : Prop :=
  region.start ≤ address ∧ address < region.stop

def Region.Within (region outer : Region) : Prop :=
  outer.start ≤ region.start ∧ region.stop ≤ outer.stop

def Region.Apart (first second : Region) : Prop :=
  first.stop ≤ second.start ∨ second.stop ≤ first.start

theorem within_mk {start length outerStart outerLength : Nat} (after : outerStart ≤ start)
    (before : start + length ≤ outerStart + outerLength) :
    (⟨start, length⟩ : Region).Within ⟨outerStart, outerLength⟩ :=
  ⟨after, before⟩

theorem Region.Within.has {region outer : Region} (within : region.Within outer) {address : Nat}
    (has : region.Has address) : outer.Has address :=
  ⟨Nat.le_trans within.1 has.1, Nat.lt_of_lt_of_le has.2 within.2⟩

theorem Region.Apart.symm {first second : Region} (apart : first.Apart second) :
    second.Apart first :=
  Or.symm apart

theorem Region.Apart.within {first second inner : Region} (apart : first.Apart second)
    (within : inner.Within second) : first.Apart inner := by
  unfold Region.Apart Region.Within Region.stop at *
  omega

section Writing

variable {Field : Type} [Sized Field] {memory later : Memory Field}

/-- The bytes of a field at an address. -/
def fieldRegion (address : Nat) (field : Field) : Region := ⟨address, Sized.size field⟩

instance (region : Region) (address : Nat) : Decidable (region.Has address) :=
  inferInstanceAs (Decidable (_ ∧ _))

def write (memory : Memory Field) (address : Nat) (field : Field) : Memory Field := fun place =>
  if (fieldRegion address field).Has place then some (field, place - address) else memory place

/-- The field can be read at the address. -/
def Holds (memory : Memory Field) (address : Nat) (field : Field) : Prop :=
  ∀ offset < Sized.size field, memory (address + offset) = some (field, offset)

/-- Nothing has changed in a region. -/
def Keeps (memory later : Memory Field) (region : Region) : Prop :=
  ∀ address, region.Has address → later address = memory address

omit [Sized Field] in
theorem Keeps.within {region inner : Region} (keeps : Keeps memory later region)
    (within : inner.Within region) : Keeps memory later inner :=
  fun address has => keeps address (within.has has)

omit [Sized Field] in
theorem Keeps.trans {last : Memory Field} {region : Region} (first : Keeps memory later region)
    (second : Keeps later last region) : Keeps memory last region :=
  fun address has => (second address has).trans (first address has)

theorem holds_write (memory : Memory Field) (address : Nat) (field : Field) :
    Holds (write memory address field) address field := by
  intro offset inside
  have has : (fieldRegion address field).Has (address + offset) :=
    ⟨Nat.le_add_right _ _, Nat.add_lt_add_left inside _⟩
  rw [write, if_pos has, Nat.add_sub_cancel_left]

theorem Holds.kept {address : Nat} {field : Field} (holds : Holds memory address field)
    (keeps : Keeps memory later (fieldRegion address field)) : Holds later address field := by
  intro offset inside
  rw [keeps (address + offset) ⟨Nat.le_add_right _ _, Nat.add_lt_add_left inside _⟩]
  exact holds offset inside

theorem keeps_write {region : Region} (memory : Memory Field) {address : Nat} {field : Field}
    (apart : region.Apart (fieldRegion address field)) :
    Keeps memory (write memory address field) region := by
  intro place has
  apply if_neg
  intro written
  unfold Region.Apart Region.Has Region.stop at *
  omega

/-- A field that is apart from the one that is written stays. -/
theorem Holds.write {address other : Nat} {field written : Field}
    (holds : Holds memory address field)
    (apart : (fieldRegion address field).Apart (fieldRegion other written)) :
    Holds (write memory other written) address field :=
  holds.kept (keeps_write memory apart)

end Writing

end Pthreads.FieldMemories
