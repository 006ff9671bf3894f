import Pthreads.OrderedTable

/-!
# Tables in buckets

A hash table keeps its elements in an array of buckets, in the order of insertion.
A removed element leaves a hole, a new one goes behind the last bucket, and now and
then the holes are squeezed out, which renumbers the buckets.  A position is the
index of a bucket; where the bucket is a hole, it stands for the next one that is
in use.
-/

namespace Pthreads.BucketTables

variable {K V : Type*}

/-- The used part of the array. -/
abbrev Slots (K V : Type*) := List (Option (K × V))

/-- The elements, in the order of the buckets. -/
def live (slots : Slots K V) : List (K × V) := slots.filterMap id

/-- The elements at or behind a position. -/
def rest (slots : Slots K V) (position : Nat) : List (K × V) := live (slots.drop position)

/-- The first bucket in use at or behind a position, or the end. -/
def validPos : Slots K V → Nat → Nat
  | [], position => position
  | none :: slots, 0 => validPos slots 0 + 1
  | some _ :: _, 0 => 0
  | _ :: slots, position + 1 => validPos slots position + 1

/-- The element that a position stands for. -/
def current (slots : Slots K V) (position : Nat) : Option (K × V) :=
  (slots[validPos slots position]?).join

/-- The position of the next element; at the end it stays. -/
def moveForward (slots : Slots K V) (position : Nat) : Nat :=
  if validPos slots position < slots.length then validPos slots (validPos slots position + 1)
  else position

/-- Give up the holes at the end. -/
def trim : Slots K V → Slots K V
  | [] => []
  | none :: slots => if trim slots = [] then [] else none :: trim slots
  | some entry :: slots => some entry :: trim slots

/-- Squeeze the holes out. -/
def compact (slots : Slots K V) : Slots K V := (live slots).map some

/-- There is no hole before a position. -/
def NoHoleBefore (slots : Slots K V) (position : Nat) : Prop :=
  ∀ slot ∈ slots.take position, slot ≠ none

section Positions

variable {slots : Slots K V}

@[simp] theorem live_nil : live ([] : Slots K V) = [] := rfl

@[simp] theorem live_none (slots : Slots K V) : live (none :: slots) = live slots := rfl

@[simp] theorem live_some (entry : K × V) (slots : Slots K V) :
    live (some entry :: slots) = entry :: live slots := rfl

@[simp] theorem live_append (first second : Slots K V) :
    live (first ++ second) = live first ++ live second :=
  List.filterMap_append

@[simp] theorem live_replicate_none (number : Nat) :
    live (List.replicate number (none : Option (K × V))) = [] := by
  induction number with
  | zero => rfl
  | succ number ih => simpa [List.replicate_succ] using ih

@[simp] theorem rest_zero (slots : Slots K V) : rest slots 0 = live slots := rfl

@[simp] theorem rest_nil (position : Nat) : rest ([] : Slots K V) position = [] := by
  simp [rest]

@[simp] theorem rest_cons (slot : Option (K × V)) (slots : Slots K V) (position : Nat) :
    rest (slot :: slots) (position + 1) = rest slots position := rfl

@[simp] theorem validPos_cons (slot : Option (K × V)) (slots : Slots K V) (position : Nat) :
    validPos (slot :: slots) (position + 1) = validPos slots position + 1 := by
  cases slot <;> rfl

/-- What stands before a position and what stands behind it make up the table. -/
theorem live_eq (slots : Slots K V) (position : Nat) :
    live slots = live (slots.take position) ++ rest slots position := by
  rw [rest, ← live_append, List.take_append_drop]

theorem rest_sublist (slots : Slots K V) (position : Nat) :
    (rest slots position).Sublist (live slots) := by
  rw [live_eq slots position]
  exact List.sublist_append_right _ _

/-- A position stands for the first element at or behind it. -/
theorem current_eq (slots : Slots K V) (position : Nat) :
    current slots position = (rest slots position).head? := by
  induction slots generalizing position with
  | nil => simp [current]
  | cons slot slots ih =>
      cases position with
      | zero =>
          cases slot with
          | none => simpa [current, validPos] using ih 0
          | some entry => simp [current, validPos]
      | succ position =>
          rw [rest_cons, ← ih position]
          simp [current]

theorem rest_validPos (slots : Slots K V) (position : Nat) :
    rest slots (validPos slots position) = rest slots position := by
  induction slots generalizing position with
  | nil => simp
  | cons slot slots ih =>
      cases position with
      | zero =>
          cases slot with
          | none => simpa [validPos] using ih 0
          | some entry => simp [validPos]
      | succ position => rw [validPos_cons, rest_cons, rest_cons, ih position]

theorem rest_succ_validPos (slots : Slots K V) (position : Nat) :
    rest slots (validPos slots position + 1) = (rest slots position).tail := by
  induction slots generalizing position with
  | nil => simp
  | cons slot slots ih =>
      cases position with
      | zero =>
          cases slot with
          | none => simpa [validPos] using ih 0
          | some entry => simp [validPos]
      | succ position => rw [validPos_cons, rest_cons, rest_cons, ih position]

theorem rest_eq_nil_of_length_le {position : Nat} (beyond : slots.length ≤ position) :
    rest slots position = [] := by
  rw [rest, List.drop_eq_nil_of_le beyond, live_nil]

/-- Moving forward leaves the current element behind. -/
theorem rest_moveForward (slots : Slots K V) (position : Nat) :
    rest slots (moveForward slots position) = (rest slots position).tail := by
  unfold moveForward
  split
  · rw [rest_validPos, rest_succ_validPos]
  · next atEnd =>
    have empty : rest slots position = [] := by
      rw [← rest_validPos]
      exact rest_eq_nil_of_length_le (Nat.not_lt.mp atEnd)
    rw [empty, List.tail_nil]

end Positions

section Changes

variable {slots : Slots K V} {position : Nat}

@[simp] theorem live_trim (slots : Slots K V) : live (trim slots) = live slots := by
  induction slots with
  | nil => rfl
  | cons slot slots ih =>
      cases slot with
      | none =>
          simp only [trim, live_none]
          split
          · next isEmpty =>
            rw [← ih, isEmpty]
          · exact ih
      | some entry => simp only [trim, live_some, ih]

@[simp] theorem rest_trim (slots : Slots K V) (position : Nat) :
    rest (trim slots) position = rest slots position := by
  induction slots generalizing position with
  | nil => rfl
  | cons slot slots ih =>
      cases position with
      | zero => simp only [rest_zero, live_trim]
      | succ position =>
          cases slot with
          | none =>
              simp only [trim, rest_cons]
              split
              · next isEmpty =>
                rw [← ih, isEmpty, rest_nil, rest_nil]
              · exact ih position
          | some entry => exact ih position

/-- A bucket that is changed in place. -/
theorem live_map (change : Option (K × V) → Option (K × V)) (keepsHoles : change none = none)
    (slots : Slots K V) :
    live (slots.map change) = (live slots).filterMap fun entry => change (some entry) := by
  induction slots with
  | nil => rfl
  | cons slot slots ih =>
      cases slot with
      | none => simpa [keepsHoles] using ih
      | some entry =>
          cases changed : change (some entry) with
          | none => simpa [changed] using ih
          | some result => simpa [changed] using ih

theorem rest_map (change : Option (K × V) → Option (K × V)) (keepsHoles : change none = none)
    (slots : Slots K V) (position : Nat) :
    rest (slots.map change) position =
      (rest slots position).filterMap fun entry => change (some entry) := by
  rw [rest, ← List.map_drop, live_map change keepsHoles, rest]

/-- A new element comes last. -/
theorem rest_append_some (slots : Slots K V) (entry : K × V) (position : Nat) :
    rest (slots ++ [some entry]) position = rest slots position ++ [entry] ∨
      rest slots position = [] ∧ rest (slots ++ [some entry]) position = [] := by
  by_cases inside : position ≤ slots.length
  · left
    rw [rest, List.drop_append_of_le_length inside, live_append]
    rfl
  · right
    refine ⟨rest_eq_nil_of_length_le (by omega), rest_eq_nil_of_length_le ?_⟩
    rw [List.length_append, List.length_singleton]
    omega

@[simp] theorem live_compact (slots : Slots K V) : live (compact slots) = live slots := by
  simp [live, compact, List.filterMap_map]

theorem rest_compact (slots : Slots K V) (position : Nat) :
    rest (compact slots) position = (live slots).drop position := by
  have all : ∀ entries : List (K × V), live (entries.map some) = entries := by
    intro entries
    simp [live, List.filterMap_map]
  rw [rest, compact, ← List.map_drop, all]

theorem length_live_le (slots : Slots K V) : (live slots).length ≤ slots.length :=
  List.length_filterMap_le _ _

theorem length_live_of_noHole (full : ∀ slot ∈ slots, slot ≠ none) :
    (live slots).length = slots.length := by
  induction slots with
  | nil => rfl
  | cons slot slots ih =>
      cases slot with
      | none => cases full none List.mem_cons_self rfl
      | some entry =>
          have later := ih fun other isIn => full other (List.mem_cons_of_mem _ isIn)
          simp [later]

/-- Squeezing out no hole before a position leaves what stands behind it. -/
theorem rest_compact_of_noHoleBefore (full : NoHoleBefore slots position) :
    rest (compact slots) position = rest slots position := by
  rw [rest_compact, live_eq slots position]
  have length := length_live_of_noHole full
  rw [List.length_take] at length
  by_cases inside : position ≤ slots.length
  · rw [Nat.min_eq_left inside] at length
    exact List.drop_left' length
  · have empty : rest slots position = [] := rest_eq_nil_of_length_le (by omega)
    rw [empty, List.append_nil]
    apply List.drop_eq_nil_of_le
    omega

/-- Squeezing out holes never brings elements back. -/
theorem rest_compact_suffix (slots : Slots K V) (position : Nat) :
    ∃ skipped, rest slots position = skipped ++ rest (compact slots) position := by
  rw [rest_compact, live_eq slots position]
  have length := length_live_le (slots.take position)
  rw [List.length_take] at length
  refine ⟨(rest slots position).take (position - (live (slots.take position)).length), ?_⟩
  rw [List.drop_append, List.drop_eq_nil_of_le (by omega), List.nil_append, List.take_append_drop]

end Changes

end Pthreads.BucketTables
