import Pthreads.OrderedTable
import Mathlib.Algebra.Ring.Int.Defs

/-!
# Arrays with a next free index

An ordered table with integers and names as keys remembers one more than the largest
integer that was ever a key, saturated at the largest integer there is.  An append takes
this index.  Removing elements does not lower it, so that it depends on the history of
an array and not on its elements alone.
-/

namespace Pthreads.ZendArrays

/-- `ZEND_LONG_MIN` and `ZEND_LONG_MAX`. -/
def zendLongMin : Int := -2 ^ 63
def zendLongMax : Int := 2 ^ 63 - 1

inductive ArrayKey (Name : Type)
  | index (value : Int)
  | name (text : Name)
deriving DecidableEq, Repr

/-- Integer keys are of the type `zend_long`. -/
def ArrayKey.InRange {Name : Type} : ArrayKey Name → Prop
  | .index value => zendLongMin ≤ value ∧ value ≤ zendLongMax
  | .name _ => True

def ArrayKey.index? {Name : Type} : ArrayKey Name → Option Int
  | .index value => some value
  | .name _ => none

structure ZendArray (Name Value : Type) where
  table : OrderedTable (ArrayKey Name) Value
  nextFreeElement : Int

inductive Action (Name Value : Type)
  | insert (key : ArrayKey Name) (value : Value)
  | append (value : Value)
  | remove (key : ArrayKey Name)

def Action.InRange {Name Value : Type} : Action Name Value → Prop
  | .insert key _ => key.InRange
  | _ => True

/-- The next free element once an integer has become a key. -/
def indexAfter (value : Int) : Int :=
  if value < zendLongMax then value + 1 else zendLongMax

section Operations

variable {Name Value : Type}

/-- `zend_hash_init` -/
def ZendArray.empty : ZendArray Name Value := ⟨OrderedTable.empty, zendLongMin⟩

variable [DecidableEq Name]

/-- `zend_hash_update` and `zend_hash_index_update` -/
def ZendArray.update (array : ZendArray Name Value) (key : ArrayKey Name) (value : Value) :
    ZendArray Name Value where
  table := array.table.update key value
  nextFreeElement :=
    match key with
    | .index index =>
        if array.nextFreeElement ≤ index then indexAfter index else array.nextFreeElement
    | .name _ => array.nextFreeElement

/-- `zend_hash_index_del` and `zend_hash_del` -/
def ZendArray.delete (array : ZendArray Name Value) (key : ArrayKey Name) :
    ZendArray Name Value :=
  { array with table := array.table.delete key }

/-- The key of the next append, which fails if the largest integer is in use. -/
def ZendArray.appendIndex (array : ZendArray Name Value) : Option Int :=
  let index := if array.nextFreeElement = zendLongMin then 0 else array.nextFreeElement
  if .index index ∈ array.table.keys then none else some index

/-- `zend_hash_next_index_insert` for an append, which may leave everything as it is. -/
def ZendArray.append (array : ZendArray Name Value) (value : Value) : ZendArray Name Value :=
  match array.appendIndex with
  | some index => array.update (.index index) value
  | none => array

def ZendArray.step (array : ZendArray Name Value) : Action Name Value → ZendArray Name Value
  | .insert key value => array.update key value
  | .append value => array.append value
  | .remove key => array.delete key

/-- An array after some operations. -/
def ZendArray.run (array : ZendArray Name Value) (actions : List (Action Name Value)) :
    ZendArray Name Value :=
  actions.foldl ZendArray.step array

/-- An array that is built by inserting elements one by one. -/
def ZendArray.build (elements : List (ArrayKey Name × Value)) : ZendArray Name Value :=
  elements.foldl (fun array element => array.update element.1 element.2) .empty

/-- The integer that an operation makes a key. -/
def ZendArray.inserted (array : ZendArray Name Value) : Action Name Value → Option Int
  | .insert key _ => key.index?
  | .append _ => array.appendIndex
  | .remove _ => none

/-- The larger of two integers that may be missing. -/
def largest : Option Int → Option Int → Option Int
  | some first, some second => some (max first second)
  | none, second => second
  | first, none => first

/-- The largest integer that was ever a key of an array, from what it was before. -/
def ZendArray.peak (array : ZendArray Name Value) (before : Option Int) :
    List (Action Name Value) → Option Int
  | [] => before
  | action :: actions =>
      (array.step action).peak (largest before (array.inserted action)) actions

/-- Where the next append goes when the given integer was the largest key ever. -/
def placeAfter : Option Int → Int
  | none => 0
  | some index => indexAfter index

/-- The largest integer key ever is still there, or its loss makes no difference to the
place of the next append: it was `-1` and no integer key is left, or it was the largest
integer and the one before that is there. -/
def ZendArray.KeepsPlace (array : ZendArray Name Value) : Option Int → Prop
  | none => True
  | some peak => .index peak ∈ array.table.keys ∨
      (peak = -1 ∧ ∀ index, .index index ∉ array.table.keys) ∨
      (peak = zendLongMax ∧ .index (zendLongMax - 1) ∈ array.table.keys)

end Operations

section Counting

variable {Name Value : Type} [DecidableEq Name] {array : ZendArray Name Value}
variable {peak : Option Int}

/-- The given integer is the largest that was ever a key. -/
structure Counted (array : ZendArray Name Value) (peak : Option Int) : Prop where
  next : array.nextFreeElement = peak.elim zendLongMin indexAfter
  inRange : ∀ index, peak = some index → zendLongMin ≤ index ∧ index ≤ zendLongMax
  below : ∀ index, .index index ∈ array.table.keys →
    zendLongMin ≤ index ∧ ∃ highest, peak = some highest ∧ index ≤ highest

omit [DecidableEq Name] in
theorem counted_empty : Counted (ZendArray.empty : ZendArray Name Value) none where
  next := rfl
  inRange := nofun
  below := fun _ isIn => nomatch isIn

@[simp] theorem largest_none_right (first : Option Int) : largest first none = first := by
  cases first <;> rfl

theorem indexAfter_max {first second : Int} (firstInRange : first ≤ zendLongMax)
    (secondInRange : second ≤ zendLongMax) :
    indexAfter (max first second) =
      if indexAfter first ≤ second then indexAfter second else indexAfter first := by
  unfold indexAfter
  omega

theorem keys_update (key : ArrayKey Name) (value : Value) {other : ArrayKey Name} :
    other ∈ (array.update key value).table.keys ↔ other = key ∨ other ∈ array.table.keys :=
  OrderedTable.mem_map_place

theorem Counted.update (counted : Counted array peak) {key : ArrayKey Name}
    (inRange : key.InRange) (value : Value) :
    Counted (array.update key value) (largest peak key.index?) := by
  obtain ⟨next, within, below⟩ := counted
  cases key with
  | name text =>
      rw [ArrayKey.index?, largest_none_right]
      refine ⟨next, within, ?_⟩
      intro index isIn
      rcases (keys_update (.name text) value).mp isIn with isNew | old
      · cases isNew
      · exact below index old
  | index number =>
      cases peak with
      | none =>
          have lowest : array.nextFreeElement ≤ number := next ▸ inRange.1
          refine ⟨if_pos lowest, ?_, ?_⟩
          · rintro _ ⟨⟩
            exact inRange
          · intro index isIn
            rcases (keys_update (.index number) value).mp isIn with isNew | old
            · cases isNew
              exact ⟨inRange.1, number, rfl, Int.le_refl _⟩
            · obtain ⟨-, _, ⟨⟩, -⟩ := below index old
      | some highest =>
          obtain ⟨least, most⟩ := within highest rfl
          refine ⟨?_, ?_, ?_⟩
          · show (if array.nextFreeElement ≤ number then _ else array.nextFreeElement) =
              indexAfter (max highest number)
            rw [indexAfter_max most inRange.2, next]
            rfl
          · rintro _ ⟨⟩
            exact ⟨Int.le_trans least (Int.le_max_left _ _), Int.max_le.mpr ⟨most, inRange.2⟩⟩
          · intro index isIn
            rcases (keys_update (.index number) value).mp isIn with isNew | old
            · cases isNew
              exact ⟨inRange.1, _, rfl, Int.le_max_right _ _⟩
            · obtain ⟨low, _, ⟨⟩, atMost⟩ := below index old
              exact ⟨low, _, rfl, Int.le_trans atMost (Int.le_max_left _ _)⟩

theorem Counted.delete (counted : Counted array peak) (key : ArrayKey Name) :
    Counted (array.delete key) peak := by
  refine ⟨counted.next, counted.inRange, ?_⟩
  intro index isIn
  obtain ⟨entry, kept, isKey⟩ := List.mem_map.mp isIn
  exact counted.below index (List.mem_map.mpr ⟨entry, (List.mem_filter.mp kept).1, isKey⟩)

theorem indexAfter_inRange {index : Int} (least : zendLongMin ≤ index) :
    zendLongMin < indexAfter index ∧ indexAfter index ≤ zendLongMax := by
  unfold indexAfter zendLongMax
  unfold zendLongMin at *
  omega

/-- The place of the next append follows from the largest integer key ever. -/
theorem Counted.appendIndex (counted : Counted array peak) :
    array.appendIndex =
      if .index (placeAfter peak) ∈ array.table.keys then none else some (placeAfter peak) := by
  have place : (if array.nextFreeElement = zendLongMin then 0 else array.nextFreeElement) =
      placeAfter peak := by
    rw [counted.next]
    cases peak with
    | none => rfl
    | some highest =>
        obtain ⟨least, -⟩ := counted.inRange highest rfl
        exact if_neg (Int.ne_of_gt (indexAfter_inRange least).1)
  rw [ZendArray.appendIndex, place]

omit [DecidableEq Name] in
theorem placeAfter_inRange (counted : Counted array peak) :
    zendLongMin ≤ placeAfter peak ∧ placeAfter peak ≤ zendLongMax := by
  cases peak with
  | none => exact ⟨by decide, by decide⟩
  | some highest =>
      obtain ⟨least, -⟩ := counted.inRange highest rfl
      exact ⟨Int.le_of_lt (indexAfter_inRange least).1, (indexAfter_inRange least).2⟩

theorem Counted.step (counted : Counted array peak) {action : Action Name Value}
    (inRange : action.InRange) :
    Counted (array.step action) (largest peak (array.inserted action)) := by
  cases action with
  | insert key value => exact counted.update inRange value
  | remove key =>
      rw [ZendArray.inserted, largest_none_right]
      exact counted.delete key
  | append value =>
      show Counted (array.append value) (largest peak array.appendIndex)
      unfold ZendArray.append
      cases place : array.appendIndex with
      | none =>
          rw [largest_none_right]
          exact counted
      | some index =>
          obtain ⟨-, isPlace⟩ := (Option.ite_none_left_eq_some.mp
            (counted.appendIndex.symm.trans place))
          have inRange : ArrayKey.InRange (.index (placeAfter peak) : ArrayKey Name) :=
            placeAfter_inRange counted
          rw [← isPlace]
          exact counted.update inRange value

theorem Counted.run (counted : Counted array peak) {actions : List (Action Name Value)}
    (inRange : ∀ action ∈ actions, action.InRange) :
    Counted (array.run actions) (array.peak peak actions) := by
  induction actions generalizing array peak with
  | nil => exact counted
  | cons action actions ih =>
      exact ih (counted.step (inRange action List.mem_cons_self))
        fun other isIn => inRange other (List.mem_cons_of_mem _ isIn)

omit [DecidableEq Name] in
theorem Counted.key_inRange (counted : Counted array peak) {key : ArrayKey Name}
    (isIn : key ∈ array.table.keys) : key.InRange := by
  cases key with
  | name text => trivial
  | index index =>
      obtain ⟨least, highest, isPeak, atMost⟩ := counted.below index isIn
      exact ⟨least, Int.le_trans atMost (counted.inRange highest isPeak).2⟩

end Counting

section Building

variable {Name Value : Type} [DecidableEq Name] {array : ZendArray Name Value}
variable {elements : List (ArrayKey Name × Value)} {peak : Option Int}

/-- An array in which the largest integer key ever still is. -/
structure Attained (array : ZendArray Name Value) (peak : Option Int) : Prop where
  counted : Counted array peak
  isIn : ∀ highest, peak = some highest → .index highest ∈ array.table.keys

theorem Attained.update (attained : Attained array peak) {key : ArrayKey Name}
    (inRange : key.InRange) (value : Value) :
    Attained (array.update key value) (largest peak key.index?) := by
  refine ⟨attained.counted.update inRange value, ?_⟩
  intro highest isLargest
  apply (keys_update key value).mpr
  cases key with
  | name text =>
      rw [ArrayKey.index?, largest_none_right] at isLargest
      exact Or.inr (attained.isIn highest isLargest)
  | index number =>
      cases peak with
      | none =>
          cases isLargest
          exact Or.inl rfl
      | some before =>
          cases isLargest
          rcases Int.le_total before number with later | earlier
          · exact Or.inl (congrArg ArrayKey.index (Int.max_eq_right later))
          · rw [Int.max_eq_left earlier]
            exact Or.inr (attained.isIn before rfl)

theorem attained_foldl (attained : Attained array peak)
    (inRange : ∀ element ∈ elements, element.1.InRange) :
    ∃ last, Attained (elements.foldl (fun array element => array.update element.1 element.2) array)
      last := by
  induction elements generalizing array peak with
  | nil => exact ⟨peak, attained⟩
  | cons element elements ih =>
      exact ih (attained.update (inRange element List.mem_cons_self) element.2)
        fun other isIn => inRange other (List.mem_cons_of_mem _ isIn)

theorem keys_foldl {key : ArrayKey Name} :
    key ∈ (elements.foldl (fun array element => array.update element.1 element.2)
        array).table.keys ↔ key ∈ array.table.keys ∨ key ∈ elements.map Prod.fst := by
  induction elements generalizing array with
  | nil => simp
  | cons element elements ih =>
      rw [List.foldl_cons, ih, keys_update, List.map_cons, List.mem_cons]
      tauto

theorem build_attained (inRange : ∀ element ∈ elements, element.1.InRange) :
    ∃ last, Attained (ZendArray.build elements) last :=
  attained_foldl ⟨counted_empty, nofun⟩ inRange

theorem keys_build {key : ArrayKey Name} :
    key ∈ (ZendArray.build elements).table.keys ↔ key ∈ elements.map Prod.fst := by
  rw [ZendArray.build, keys_foldl]
  exact or_iff_right fun isIn => nomatch isIn

end Building

section Comparison

variable {Name Value Other : Type} {array : ZendArray Name Value}
variable {built : ZendArray Name Other} {peak last : Option Int}

/-- Nothing is left of the integer keys: the appends start again at zero. -/
theorem startsAgain_iff {before : Int} (absent : ∀ index, .index index ∉ array.table.keys)
    (inRange : before ≤ zendLongMax) :
    0 = indexAfter before ↔ array.KeepsPlace (some before) := by
  constructor
  · intro equal
    refine Or.inr (Or.inl ⟨?_, absent⟩)
    unfold indexAfter zendLongMax at equal
    omega
  · rintro (isIn | ⟨rfl, -⟩ | ⟨-, isIn⟩)
    · exact (absent _ isIn).elim
    · rfl
    · exact (absent _ isIn).elim

/-- The largest integer key that is left is not the largest ever. -/
theorem fallsBack_iff {before highest : Int} (isIn : .index highest ∈ array.table.keys)
    (atMost : ∀ index, .index index ∈ array.table.keys → index ≤ highest)
    (lower : highest < before) (inRange : before ≤ zendLongMax) :
    indexAfter highest = indexAfter before ↔ array.KeepsPlace (some before) := by
  constructor
  · intro equal
    have isLast : before = zendLongMax ∧ highest = zendLongMax - 1 := by
      unfold indexAfter at equal
      omega
    exact Or.inr (Or.inr ⟨isLast.1, isLast.2 ▸ isIn⟩)
  · rintro (isBefore | ⟨-, absent⟩ | ⟨isLast, isPrevious⟩)
    · have := atMost before isBefore
      omega
    · exact (absent highest isIn).elim
    · have := atMost _ isPrevious
      unfold indexAfter
      omega

variable [DecidableEq Name]

/-- An array with the same keys, in which the largest integer key ever still is, has the
same place for the next append exactly when the first array has kept its place. -/
theorem appendIndex_eq_iff (counted : Counted array peak) (attained : Attained built last)
    (same : ∀ key, key ∈ built.table.keys ↔ key ∈ array.table.keys) :
    built.appendIndex = array.appendIndex ↔ array.KeepsPlace peak := by
  rw [attained.counted.appendIndex, counted.appendIndex]
  cases last with
  | none =>
      have absent : ∀ index, .index index ∉ array.table.keys := by
        intro index isIn
        obtain ⟨-, _, ⟨⟩, -⟩ := attained.counted.below index ((same _).mpr isIn)
      rw [if_neg (mt (same _).mp (absent _)), if_neg (absent _), Option.some_inj]
      cases peak with
      | none => exact iff_of_true rfl trivial
      | some before => exact startsAgain_iff absent (counted.inRange before rfl).2
  | some highest =>
      have isIn : .index highest ∈ array.table.keys := (same _).mp (attained.isIn highest rfl)
      have atMost : ∀ index, .index index ∈ array.table.keys → index ≤ highest := by
        intro index isIndex
        obtain ⟨-, _, ⟨⟩, below⟩ := attained.counted.below index ((same _).mpr isIndex)
        exact below
      obtain ⟨-, before, rfl, below⟩ := counted.below highest isIn
      have inRange := (counted.inRange before rfl).2
      rcases Int.lt_or_eq_of_le below with lower | rfl
      · have unused : ∀ index, highest < index → .index index ∉ array.table.keys :=
          fun index higher isIndex => Int.not_lt.mpr (atMost index isIndex) higher
        have nextHigher : highest < indexAfter highest ∧ highest < indexAfter before := by
          unfold indexAfter
          omega
        rw [placeAfter, placeAfter, if_neg (mt (same _).mp (unused _ nextHigher.1)),
          if_neg (unused _ nextHigher.2), Option.some_inj]
        exact fallsBack_iff isIn atMost lower inRange
      · exact iff_of_true (by simp only [same]) (Or.inl isIn)

end Comparison

end Pthreads.ZendArrays
