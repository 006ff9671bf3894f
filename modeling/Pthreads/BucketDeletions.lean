import Pthreads.BucketTables

/-!
# Deleting buckets during an iteration

Deleting an element turns its bucket into a hole.  When it was the last bucket in
use, the end of the table moves back over the holes before it, but an iteration
that has already fixed its own end goes on and finds only holes there.  An
iteration that deletes what fails a test, looking each element up again by its
key, leaves what a filter leaves.
-/

namespace Pthreads.BucketTables

variable {K V : Type*}

/-- Delete the bucket at an index. -/
def deleteBucket (slots : Slots K V) (index : Nat) : Slots K V :=
  if index + 1 = slots.length then trim (slots.set index none) else slots.set index none

/-- Delete the element with the key, if there is one. -/
def deleteKey [DecidableEq K] (slots : Slots K V) (key : K) : Slots K V :=
  match slots.findIdx? fun slot => slot.any fun entry => entry.1 = key with
  | none => slots
  | some index => deleteBucket slots index

/-- Go through this many buckets from a position on, and delete the elements that
fail the test. -/
def retain [DecidableEq K] (keeps : K → V → Bool) : Nat → Nat → Slots K V → Slots K V
  | 0, _, slots => slots
  | count + 1, position, slots =>
      match slots[position]? with
      | some (some (key, value)) =>
          if keeps key value then retain keeps count (position + 1) slots
          else retain keeps count (position + 1) (deleteKey slots key)
      | _ => retain keeps count (position + 1) slots

section Deletion

variable {slots : Slots K V} {position : Nat}

theorem length_trim_le (slots : Slots K V) : (trim slots).length ≤ slots.length := by
  induction slots with
  | nil => exact Nat.le_refl _
  | cons slot slots ih =>
      cases slot with
      | none =>
          simp only [trim]
          split
          · simp
          · simpa using ih
      | some entry => simpa [trim] using ih

/-- Trimming leaves what stands before a position. -/
theorem live_take_trim (slots : Slots K V) (position : Nat) :
    live ((trim slots).take position) = live (slots.take position) := by
  have whole := live_eq (trim slots) position
  rw [live_trim, rest_trim, live_eq slots position] at whole
  exact (List.append_cancel_right whole).symm

theorem length_deleteBucket_le (slots : Slots K V) (index : Nat) :
    (deleteBucket slots index).length ≤ slots.length := by
  unfold deleteBucket
  split
  · have trimmed := length_trim_le (slots.set index none)
    rwa [List.length_set] at trimmed
  · exact Nat.le_of_eq List.length_set

theorem live_take_succ_of_some {entry : K × V} (isThere : slots[position]? = some (some entry)) :
    live (slots.take (position + 1)) = live (slots.take position) ++ [entry] := by
  rw [List.take_add_one, isThere, live_append]
  rfl

theorem live_take_succ_of_hole (hole : slots[position]? = some none) :
    live (slots.take (position + 1)) = live (slots.take position) := by
  rw [List.take_add_one, hole, live_append]
  exact List.append_nil _

theorem drop_eq_cons {slot : Option (K × V)} (isThere : slots[position]? = some slot) :
    slots.drop position = slot :: slots.drop (position + 1) := by
  obtain ⟨inside, rfl⟩ := List.getElem?_eq_some_iff.mp isThere
  exact List.drop_eq_getElem_cons inside

theorem rest_of_some {entry : K × V} (isThere : slots[position]? = some (some entry)) :
    rest slots position = entry :: rest slots (position + 1) := by
  rw [rest, drop_eq_cons isThere, live_some]
  rfl

theorem rest_of_hole (hole : slots[position]? = some none) :
    rest slots position = rest slots (position + 1) := by
  rw [rest, drop_eq_cons hole, live_none]
  rfl

/-- Deleting a bucket leaves what stands before it and what stands behind it. -/
theorem deleteBucket_around (inside : position < slots.length) :
    live ((deleteBucket slots position).take (position + 1)) = live (slots.take position) ∧
      rest (deleteBucket slots position) (position + 1) = rest slots (position + 1) := by
  have hole : (slots.set position none)[position]? = some none := by
    simp [inside]
  have before : live ((slots.set position none).take (position + 1)) =
      live (slots.take position) := by
    rw [live_take_succ_of_hole hole, List.take_set_of_le (Nat.le_refl _)]
  have behind : rest (slots.set position none) (position + 1) = rest slots (position + 1) := by
    rw [rest, List.drop_set_of_lt (Nat.lt_succ_self position), rest]
  unfold deleteBucket
  split
  · exact ⟨(live_take_trim _ _).trans before, (rest_trim _ _).trans behind⟩
  · exact ⟨before, behind⟩

variable [DecidableEq K]

/-- In a table with distinct keys the element is found where it stands. -/
theorem findIdx_key (distinct : ((live slots).map Prod.fst).Nodup) {entry : K × V}
    (isThere : slots[position]? = some (some entry)) :
    slots.findIdx? (fun slot => slot.any fun other => other.1 = entry.1) = some position := by
  obtain ⟨inside, isEntry⟩ := List.getElem?_eq_some_iff.mp isThere
  rw [List.findIdx?_eq_some_iff_getElem]
  refine ⟨inside, by simp [isEntry], ?_⟩
  intro earlier before
  cases isOther : slots[earlier] with
  | none => simp
  | some other =>
      rw [live_eq slots position, rest_of_some isThere, List.map_append, List.map_cons] at distinct
      have isIn : other ∈ live (slots.take position) := by
        rw [live, List.mem_filterMap]
        refine ⟨some other, ?_, rfl⟩
        rw [List.mem_take_iff_getElem]
        exact ⟨earlier, by omega, isOther⟩
      have apart := (List.nodup_append.mp distinct).2.2 other.1 (List.mem_map_of_mem isIn) entry.1
        List.mem_cons_self
      simpa using apart

theorem deleteKey_eq (distinct : ((live slots).map Prod.fst).Nodup) {entry : K × V}
    (isThere : slots[position]? = some (some entry)) :
    deleteKey slots entry.1 = deleteBucket slots position := by
  rw [deleteKey, findIdx_key distinct isThere]

/-- The iteration leaves what it has passed and filters what is ahead of it. -/
theorem live_retain (keeps : K → V → Bool) {count : Nat}
    (distinct : ((live slots).map Prod.fst).Nodup) (enough : slots.length ≤ position + count) :
    live (retain keeps count position slots) = live (slots.take position) ++
      (rest slots position).filter fun entry => keeps entry.1 entry.2 := by
  induction count generalizing position slots with
  | zero =>
      have atEnd : slots.length ≤ position := by omega
      rw [retain, rest_eq_nil_of_length_le atEnd, List.take_of_length_le atEnd, List.filter_nil,
        List.append_nil]
  | succ count ih =>
      have enoughLater : slots.length ≤ position + 1 + count := by omega
      cases isThere : slots[position]? with
      | none =>
          have atEnd := List.getElem?_eq_none_iff.mp isThere
          simp only [retain, isThere]
          rw [ih distinct enoughLater, rest_eq_nil_of_length_le atEnd,
            rest_eq_nil_of_length_le (Nat.le_succ_of_le atEnd), List.take_of_length_le atEnd,
            List.take_of_length_le (Nat.le_succ_of_le atEnd)]
      | some slot =>
          cases slot with
          | none =>
              simp only [retain, isThere]
              rw [ih distinct enoughLater, live_take_succ_of_hole isThere, rest_of_hole isThere]
          | some entry =>
              by_cases kept : keeps entry.1 entry.2 = true
              · simp only [retain, isThere, kept, if_true]
                rw [ih distinct enoughLater, live_take_succ_of_some isThere,
                  rest_of_some isThere, List.filter_cons, if_pos kept, List.append_assoc,
                  List.singleton_append]
              · obtain ⟨inside, -⟩ := List.getElem?_eq_some_iff.mp isThere
                obtain ⟨before, behind⟩ := deleteBucket_around inside
                have left : (live (deleteBucket slots position)).Sublist (live slots) := by
                  rw [live_eq _ (position + 1), live_eq slots position, before, behind,
                    rest_of_some isThere]
                  exact (List.sublist_cons_self _ _).append_left _
                have enoughLeft := Nat.le_trans (length_deleteBucket_le slots position) enoughLater
                simp only [retain, isThere]
                rw [if_neg kept, deleteKey_eq distinct isThere,
                  ih (distinct.sublist (left.map _)) enoughLeft, before, behind,
                  rest_of_some isThere, List.filter_cons, if_neg kept]

/-- Going through the whole table filters it. -/
theorem live_retain_all (keeps : K → V → Bool) (distinct : ((live slots).map Prod.fst).Nodup) :
    live (retain keeps slots.length 0 slots) =
      (live slots).filter fun entry => keeps entry.1 entry.2 := by
  rw [live_retain keeps distinct (Nat.le_add_left _ _), List.take_zero, live_nil, rest_zero,
    List.nil_append]

end Deletion

end Pthreads.BucketTables
