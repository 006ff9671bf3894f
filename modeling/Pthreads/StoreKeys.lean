import Mathlib.Data.List.Induction
import Mathlib.Data.Nat.Digits.Lemmas
import Pthreads.StoreHashes
import Pthreads.StoreIsset

/-!
# The keys of the property store

A string key that is the decimal form of an integer stands for that integer, so
that a table with both would have two elements where user code sees one.  This
file describes the decimal forms that `ZEND_HANDLE_NUMERIC` recognises, and the
operations that keep them out of the tables.
-/

namespace Pthreads.Store

open GuardedRuns

/-- The decimal digits of a number; `'0'` is 48. -/
def naturalForm (number : Nat) : Bytes :=
  if number = 0 then [48]
  else (Nat.digits 10 number).reverse.map fun digit => UInt8.ofNat (48 + digit)

/-- The canonical decimal form of an integer, which is how it prints; `'-'` is 45. -/
def decimalForm (value : Int) : Bytes :=
  if value < 0 then 45 :: naturalForm value.natAbs else naturalForm value.natAbs

section Digits

theorem toNat_digit {digit : Nat} (isDigit : digit < 10) :
    (UInt8.ofNat (48 + digit)).toNat = 48 + digit := by
  rw [UInt8.toNat_ofNat']
  omega

theorem isDigit_iff (byte : UInt8) : isDigit byte = true ↔ 48 ≤ byte.toNat ∧ byte.toNat ≤ 57 := by
  simp only [isDigit, decide_eq_true_eq, UInt8.le_iff_toNat_le]
  rfl

theorem decimalValue_eq_ofDigits (digits : Bytes) :
    decimalValue digits =
      Nat.ofDigits 10 (digits.reverse.map fun digit => digit.toNat - 48) := by
  induction digits using List.reverseRec with
  | nil => rfl
  | append_singleton digits digit ih =>
      rw [decimalValue] at ih ⊢
      rw [List.foldl_concat, ih, List.reverse_concat, List.map_cons, Nat.ofDigits_cons]
      ring

theorem naturalForm_value (number : Nat) : decimalValue (naturalForm number) = number := by
  unfold naturalForm
  split
  · next isZero =>
    subst isZero
    rfl
  · rw [decimalValue_eq_ofDigits, ← List.map_reverse, List.reverse_reverse, List.map_map]
    have same : (Nat.digits 10 number).map
        ((fun digit : UInt8 => digit.toNat - 48) ∘ fun digit => UInt8.ofNat (48 + digit)) =
          Nat.digits 10 number := by
      refine (List.map_congr_left fun digit isIn => ?_).trans (List.map_id _)
      have isDigit := Nat.digits_lt_base (by decide) isIn
      simp only [Function.comp_apply, toNat_digit isDigit, id]
      omega
    rw [same, Nat.ofDigits_digits]

theorem naturalForm_digits (number : Nat) : (naturalForm number).all isDigit = true := by
  rw [List.all_eq_true]
  intro byte isIn
  unfold naturalForm at isIn
  split at isIn
  · rw [List.mem_singleton] at isIn
    subst isIn
    rfl
  · obtain ⟨digit, isDigit, rfl⟩ := List.mem_map.mp isIn
    have small := Nat.digits_lt_base (by decide) (List.mem_reverse.mp isDigit)
    rw [isDigit_iff, toNat_digit small]
    omega

theorem naturalForm_ne_nil (number : Nat) : naturalForm number ≠ [] := by
  unfold naturalForm
  split
  · simp
  · next notZero => simpa using Nat.digits_ne_nil_iff_ne_zero.mpr notZero

theorem naturalForm_head {number : Nat} (notZero : number ≠ 0) :
    (naturalForm number).head? ≠ some 48 := by
  have nonempty := Nat.digits_ne_nil_iff_ne_zero (b := 10).mpr notZero
  have last := Nat.getLast_digit_ne_zero 10 notZero
  have small := Nat.digits_lt_base (by decide) (List.getLast_mem nonempty)
  simp only [naturalForm, notZero, if_false, List.head?_map, List.head?_reverse,
    List.getLast?_eq_some_getLast nonempty, Option.map_some, ne_eq, Option.some.injEq]
  intro isZero
  have value := congrArg UInt8.toNat isZero
  rw [toNat_digit small] at value
  change 48 + _ = 48 at value
  omega

theorem naturalForm_length {number : Nat} (small : number < 10 ^ 19) :
    (naturalForm number).length ≤ 19 := by
  unfold naturalForm
  split
  · decide
  · rw [List.length_map, List.length_reverse, Nat.digits_length_le_iff (by decide)]
    exact small

/-- Digits without a leading zero are the form of their value. -/
theorem naturalForm_decimalValue {digits : Bytes} (nonempty : digits ≠ [])
    (areDigits : digits.all isDigit = true) (leading : digits.head? = some 48 → digits = [48]) :
    naturalForm (decimalValue digits) = digits := by
  by_cases isZero : digits = [48]
  · rw [isZero]
    rfl
  · have small : ∀ digit ∈ digits, digit.toNat - 48 < 10 ∧
        UInt8.ofNat (48 + (digit.toNat - 48)) = digit := by
      intro digit isIn
      have bounds := (isDigit_iff digit).mp (List.all_eq_true.mp areDigits digit isIn)
      refine ⟨by omega, ?_⟩
      rw [Nat.add_sub_cancel' bounds.1, UInt8.ofNat_toNat]
    have numbers : Nat.digits 10 (decimalValue digits) =
        digits.reverse.map fun digit => digit.toNat - 48 := by
      rw [decimalValue_eq_ofDigits]
      apply Nat.digits_ofDigits 10 (by decide)
      · intro number isIn
        obtain ⟨digit, isDigit, rfl⟩ := List.mem_map.mp isIn
        exact (small digit (List.mem_reverse.mp isDigit)).1
      · intro notNil
        rw [List.getLast_map, List.getLast_reverse]
        intro headZero
        have isIn := List.head_mem nonempty
        have bounds := (isDigit_iff _).mp (List.all_eq_true.mp areDigits _ isIn)
        have isFortyEight : digits.head nonempty = 48 :=
          UInt8.toNat_inj.mp (by change _ = 48; omega)
        exact isZero (leading (by rw [List.head?_eq_some_head nonempty, isFortyEight]))
    have notZero : decimalValue digits ≠ 0 := by
      intro isNull
      rw [isNull, Nat.digits_zero] at numbers
      simp [nonempty] at numbers
    rw [naturalForm, if_neg notZero, numbers, ← List.map_reverse, List.reverse_reverse,
      List.map_map]
    refine (List.map_congr_left fun digit isIn => ?_).trans (List.map_id _)
    exact (small digit isIn).2

end Digits

/-- The range of `zend_long`. -/
def IsLong (value : Int) : Prop := zendLongMin ≤ value ∧ value ≤ zendLongMax

theorem naturalForm_head_ne_minus (number : Nat) : (naturalForm number).head? ≠ some 45 := by
  intro isMinus
  have isDigit := List.all_eq_true.mp (naturalForm_digits number) _ (List.mem_of_head? isMinus)
  exact absurd isDigit (by decide)

theorem handleNumeric_decimalForm {value : Int} (isLong : IsLong value) :
    handleNumeric (decimalForm value) = some value := by
  obtain ⟨above, below⟩ := isLong
  simp only [zendLongMin, zendLongMax] at above below
  have short := naturalForm_length (show value.natAbs < 10 ^ 19 by omega)
  have notNil := naturalForm_ne_nil value.natAbs
  have areDigits := naturalForm_digits value.natAbs
  unfold decimalForm
  split
  · next negative =>
    have leading := naturalForm_head (show value.natAbs ≠ 0 by omega)
    simp only [handleNumeric, List.head?_cons, if_true, List.tail_cons, notNil, leading, false_and,
      Nat.not_lt.mpr short, areDigits, not_true, or_false, if_false, naturalForm_value]
    rw [if_pos (by omega)]
    simp only [Option.some.injEq]
    omega
  · next notNegative =>
    have notMinus := naturalForm_head_ne_minus value.natAbs
    have leading : ¬ ((naturalForm value.natAbs).head? = some 48 ∧
        1 < (naturalForm value.natAbs).length) := by
      rintro ⟨isZero, long⟩
      by_cases zero : value.natAbs = 0
      · rw [zero] at long
        exact absurd long (by decide)
      · exact naturalForm_head zero isZero
    simp only [handleNumeric, notMinus, if_false, notNil, leading, Nat.not_lt.mpr short, areDigits,
      not_true, or_false, naturalForm_value, zendLongMax]
    rw [if_pos (by omega)]
    simp only [Option.some.injEq]
    omega

theorem decimalForm_of_handleNumeric {bytes : Bytes} {value : Int}
    (numeric : handleNumeric bytes = some value) : bytes = decimalForm value ∧ IsLong value := by
  by_cases negative : bytes.head? = some 45
  · simp only [handleNumeric, negative, if_true, Option.ite_none_left_eq_some,
      Option.ite_none_right_eq_some, Option.some.injEq, not_or, not_and, Nat.not_lt,
      Decidable.not_not] at numeric
    obtain ⟨⟨notNil, leading, -, areDigits⟩, inRange, rfl⟩ := numeric
    have isCons : bytes = 45 :: bytes.tail := (List.cons_head?_tail negative).symm
    have long : 1 < bytes.length := by
      rw [isCons, List.length_cons]
      have nonempty := List.length_pos_iff.mpr notNil
      omega
    have form := naturalForm_decimalValue notNil areDigits
      fun isZero => absurd (leading isZero) (by omega)
    have notZero : decimalValue bytes.tail ≠ 0 := by
      intro isZero
      rw [isZero] at form
      have isSingle : bytes.tail.head? = some 48 := by
        rw [← form]
        rfl
      exact absurd (leading isSingle) (by omega)
    refine ⟨?_, ?_, ?_⟩
    · rw [decimalForm, if_pos (by omega), Int.natAbs_neg, Int.natAbs_natCast, form]
      exact isCons
    · simp only [zendLongMin]
      omega
    · simp only [zendLongMax]
      omega
  · simp only [handleNumeric, negative, if_false, Option.ite_none_left_eq_some,
      Option.ite_none_right_eq_some, Option.some.injEq, not_or, not_and, Nat.not_lt,
      Decidable.not_not] at numeric
    obtain ⟨⟨notNil, leading, -, areDigits⟩, inRange, rfl⟩ := numeric
    have single : bytes.head? = some 48 → bytes = [48] := by
      intro isZero
      have short := leading isZero
      have isCons : bytes = 48 :: bytes.tail := (List.cons_head?_tail isZero).symm
      rw [isCons, List.length_cons] at short
      rw [isCons, List.length_eq_zero_iff.mp (by omega : bytes.tail.length = 0)]
    have form := naturalForm_decimalValue notNil areDigits single
    refine ⟨?_, ?_, inRange⟩
    · rw [decimalForm, if_neg (by omega), Int.natAbs_natCast, form]
    · simp only [zendLongMin]
      omega

/-- The strings that `ZEND_HANDLE_NUMERIC` takes for an integer are the decimal
forms of the integers. -/
theorem handleNumeric_eq_some_iff {bytes : Bytes} {value : Int} :
    handleNumeric bytes = some value ↔ bytes = decimalForm value ∧ IsLong value := by
  constructor
  · exact decimalForm_of_handleNumeric
  · rintro ⟨rfl, isLong⟩
    exact handleNumeric_decimalForm isLong

/-- No string key of the table is the decimal form of an integer. -/
def CanonicalKeys (hash : HashTable) : Prop :=
  ∀ value, IsLong value → .string (decimalForm value) ∉ hash.table.keys

/-- A key that coercion leaves as it is. -/
def Key.Canonical (key : Key) : Prop := coerce key.toZval = key

theorem canonical_string_iff (bytes : Bytes) :
    (Key.string bytes).Canonical ↔ handleNumeric bytes = none := by
  simp only [Key.Canonical, Key.toZval, coerce]
  cases handleNumeric bytes <;> simp

theorem canonicalKeys_of_forall {hash : HashTable}
    (canonical : ∀ key ∈ hash.table.keys, key.Canonical) : CanonicalKeys hash := by
  intro value isLong isIn
  have notNumeric := (canonical_string_iff _).mp (canonical _ isIn)
  rw [handleNumeric_decimalForm isLong] at notNumeric
  cases notNumeric

/-- A bool, a float, null or an object is no decimal form of an integer when it is
converted to a string. -/
def KeyZval.Plain : KeyZval → Prop
  | .other stringForm => ∀ value, IsLong value → stringForm ≠ decimalForm value
  | _ => True

theorem coerce_canonical {key : KeyZval} (plain : key.Plain) : (coerce key).Canonical := by
  cases key with
  | long value => rfl
  | string bytes => exact coerce_coerce (.string bytes)
  | other stringForm =>
      apply (canonical_string_iff stringForm).mpr
      cases numeric : handleNumeric stringForm with
      | none => rfl
      | some value =>
          obtain ⟨isForm, isLong⟩ := handleNumeric_eq_some_iff.mp numeric
          exact absurd isForm (plain value isLong)

/-- The action writes under an allowed key and does not copy from another table. -/
def Action.writesAllowed (allowed : KeyZval → Prop) : Action → Prop
  | .write _ (some key) _ _ _ => allowed key
  | .mergeThreaded _ _ _ _ => False
  | _ => True

/-- The stores that arise from operations with allowed keys, among them merges
from stores that arise in the same way. -/
inductive Produced (allowed : KeyZval → Prop) : State → Prop
  | initial (declared : List Key) : Produced allowed (initial declared)
  | step {state after : State} (action : Action) (produced : Produced allowed state)
      (isAllowed : action.writesAllowed allowed) (stepped : step state action = some after) :
      Produced allowed after
  | merge {state source after : State} {connection : Nat} {overwrite : Bool}
      {pointers : Key → Nat} (produced : Produced allowed state)
      (sourceProduced : Produced allowed source)
      (stepped : Store.step state (.mergeThreaded connection source.props.hash.table.entries
        overwrite pointers) = some after) :
      Produced allowed after

theorem TableSteps.canonical {before after : HashTable}
    (steps : TableSteps Key.Canonical before after)
    (canonical : ∀ key ∈ before.table.keys, key.Canonical) :
    ∀ key ∈ after.table.keys, key.Canonical := by
  induction steps with
  | refl => exact canonical
  | update _ isAllowed storage ih =>
      intro key isIn
      rcases OrderedTable.mem_map_place.mp isIn with rfl | old
      · exact isAllowed
      · exact ih key old
  | delete _ removed ih =>
      intro key isIn
      obtain ⟨entry, kept, isKey⟩ := List.mem_map.mp isIn
      exact ih key (List.mem_map.mpr ⟨entry, (List.mem_filter.mp kept).1, isKey⟩)
  | persist _ thread pointers ih =>
      intro key isIn
      rw [mapValues_keys] at isIn
      exact ih key isIn
  | emptied => exact fun _ isIn => nomatch isIn

theorem writtenKeys_canonical {state : State} {action : Action}
    (plain : action.writesAllowed KeyZval.Plain) :
    ∀ key ∈ state.writtenKeys action, key.Canonical := by
  intro key isIn
  cases action with
  | construct connection owner defaults fresh =>
      obtain ⟨element, -, rfl⟩ := List.mem_map.mp isIn
      exact coerce_coerce element.1
  | write connection given value coerceArrays fresh =>
      rw [State.writtenKeys, List.mem_singleton] at isIn
      subst isIn
      cases given with
      | none => rfl
      | some given => exact coerce_canonical plain
  | mergeThreaded connection source overwrite pointers => exact plain.elim
  | mergeArray connection source overwrite coerceArrays fresh =>
      obtain ⟨element, -, rfl⟩ := List.mem_map.mp isIn
      exact coerce_coerce element.1
  | _ => exact nomatch isIn

theorem Produced.canonical {state : State} (produced : Produced KeyZval.Plain state) :
    ∀ key ∈ state.props.hash.table.keys, key.Canonical := by
  induction produced with
  | initial declared => exact fun _ isIn => nomatch isIn
  | step action _ isAllowed stepped ih =>
      exact (step_table (writtenKeys_canonical isAllowed) stepped).canonical ih
  | merge _ _ stepped ih sourceCanonical =>
      have steps := step_table (by exact sourceCanonical) stepped
      exact steps.canonical ih

/-- What a key is converted to where a string is needed. -/
def KeyZval.stringForm : KeyZval → Bytes
  | .long value => decimalForm value
  | .string bytes => bytes
  | .other stringForm => stringForm

/-- An integer key is a `zend_long`. -/
def KeyZval.InRange : KeyZval → Prop
  | .long value => IsLong value
  | _ => True

/-- The keys designate the same element, whatever the operation. -/
structure Interchangeable (first second : KeyZval) : Prop where
  write : ∀ registry props connection value coerceArrays fresh,
    storeWrite registry props connection (some first) value coerceArrays fresh =
      storeWrite registry props connection (some second) value coerceArrays fresh
  read : ∀ enumCases registry props connection type fresh,
    storeRead enumCases registry props connection first type fresh =
      storeRead enumCases registry props connection second type fresh
  isset : ∀ props hasSetExists,
    storeIsset props first hasSetExists = storeIsset props second hasSetExists
  delete : ∀ props connection,
    storeDelete props connection first = storeDelete props connection second

theorem interchangeable_of_coerce {first second : KeyZval} (same : coerce first = coerce second) :
    Interchangeable first second := by
  refine ⟨?_, ?_, ?_, ?_⟩ <;> intros
  · simp only [storeWrite, Option.map_some, same]
  · simp only [storeRead, same]
  · simp only [storeIsset, same]
  · simp only [storeDelete, same]

/-- A plain key is coerced as its string form is. -/
theorem coerce_eq_stringForm {key : KeyZval} (plain : key.Plain) (inRange : key.InRange) :
    coerce key = coerce (.string key.stringForm) := by
  cases key with
  | long value =>
      have numeric := handleNumeric_decimalForm inRange
      simp only [coerce, KeyZval.stringForm, numeric]
  | string bytes => rfl
  | other stringForm => exact (coerce_canonical plain).symm

/-- In every store that arises from operations whose keys of other types are
plain, no string key is the decimal form of an integer, and plain keys with the
same string form designate the same element. -/
theorem keys_stay_canonical {state : State} (produced : Produced KeyZval.Plain state) :
    CanonicalKeys state.props.hash ∧
      ∀ first second : KeyZval, first.Plain → second.Plain → first.InRange → second.InRange →
        first.stringForm = second.stringForm → Interchangeable first second := by
  refine ⟨canonicalKeys_of_forall produced.canonical, ?_⟩
  intro first second firstPlain secondPlain firstInRange secondInRange same
  apply interchangeable_of_coerce
  rw [coerce_eq_stringForm firstPlain firstInRange,
    coerce_eq_stringForm secondPlain secondInRange, same]

/-- An element is written under a key. -/
def writesKey (key : KeyZval) : Action := .write 1 (some key) (.long 5) false ⟨0, 0, 0⟩

/-- The store of a new object. -/
def newStore : State :=
  (step (initial []) (.construct 1 1 [] fun _ => ⟨0, 0, 0⟩)).getD (initial [])

theorem produced_newStore (allowed : KeyZval → Prop) : Produced allowed newStore :=
  .step (.construct 1 1 [] fun _ => ⟨0, 0, 0⟩) (.initial []) trivial rfl

/-- The string `"1"` is written under the integer. -/
theorem keys_stay_canonical_writesString :
    ∃ after, step newStore (writesKey (.string [49])) = some after ∧
      after.props.hash.table.keys = [.long 1] ∧ CanonicalKeys after.props.hash := by
  refine ⟨_, rfl, rfl, ?_⟩
  exact (keys_stay_canonical
    (.step (writesKey (.string [49])) (produced_newStore KeyZval.Plain) trivial rfl)).1

/-- `true` is written under the string `"1"`, where neither the string nor the
integer finds it. -/
theorem keys_not_canonical_writesTrue :
    ∃ after, Produced (fun _ => True) after ∧
      step newStore (writesKey (.other [49])) = some after ∧
      decimalForm 1 = [49] ∧ after.props.hash.table.keys = [.string [49]] ∧
      storeIsset after.props (.other [49]) .exists = true ∧
      storeIsset after.props (.string [49]) .exists = false ∧
      storeIsset after.props (.long 1) .exists = false ∧ ¬ CanonicalKeys after.props.hash := by
  have form : decimalForm 1 = [49] := by simp [decimalForm, naturalForm]
  refine ⟨_, .step (writesKey (.other [49])) (produced_newStore _) trivial rfl, rfl, form, rfl, rfl,
    rfl, rfl, ?_⟩
  intro canonical
  apply canonical 1 ⟨by decide, by decide⟩
  rw [form]
  exact List.mem_cons_self

end Pthreads.Store
