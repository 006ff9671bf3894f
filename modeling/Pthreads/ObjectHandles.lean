import Pthreads.ObjectLifetimes
import Mathlib.Data.List.TakeWhile

/-!
# Saved handles to shared objects

A storage of type `STORE_TYPE_PTHREADS` and the serialized form of a Threaded
object both hold the address of a zend object: the original behind the one that
was saved.  Restoring either looks the address up in `PTHREADS_G(objects)` and
connects to what stands there.  This file models `pthreads_threaded_serialize`,
`pthreads_threaded_unserialize` and the Threaded case of
`pthreads_store_convert`, and settles when a handle leads back to its object.
-/

namespace Pthreads.ObjectRegistry

open GuardedRuns

/-- The causes of a `ThreadedConnectionException`. -/
inductive ConnectionException where
  | corrupted
  | invalid
  | destroyed
deriving DecidableEq, Repr

def ConnectionException.message : ConnectionException → String
  | .corrupted => "pthreads detected an attempt to connect to a corrupted object"
  | .invalid => "pthreads detected an attempt to connect to an invalid object"
  | .destroyed =>
      "pthreads detected an attempt to connect to an object which has already been destroyed"

/-- The text `":%" PRIuPTR ":"` prints for an address. -/
def printAddress (address : Nat) : List Char :=
  ':' :: (Nat.toDigits 10 address ++ [':'])

/-- `pthreads_threaded_serialize`. -/
def threadedSerialize (zobj : ZendObject) (address : Nat) : List Char :=
  printAddress (savedAddress zobj address)

/-- What `sscanf` returns for one conversion: end of input before it, a mismatch,
or the value stored. -/
inductive Scanned where
  | endOfInput
  | mismatch
  | converted (value : Nat)
deriving DecidableEq, Repr

/-- `isspace` in the C locale. -/
def isSpace (char : Char) : Bool :=
  char = ' ' ∨ ('\t' ≤ char ∧ char ≤ '\r')

/-- The digits of an unsigned conversion, which saturates and wraps as `strtoul`
does. -/
def scanDigits (negative : Bool) (text : List Char) : Scanned :=
  let digits := text.takeWhile Char.isDigit
  if digits = [] then .mismatch
  else
    let value := Nat.ofDigitChars 10 digits 0
    if addressLimit ≤ value then .converted (addressLimit - 1)
    else if negative then .converted ((addressLimit - value) % addressLimit)
    else .converted value

/-- `sscanf` with the format `":%" PRIuPTR ":"`.  What follows the number does not
change the result. -/
def scanAddress : List Char → Scanned
  | [] => .endOfInput
  | ':' :: rest =>
      match rest.dropWhile isSpace with
      | [] => .endOfInput
      | '-' :: digits => scanDigits true digits
      | '+' :: digits => scanDigits false digits
      | digits => scanDigits false digits
  | _ => .mismatch

/-- The Threaded case of `pthreads_store_convert`: the object, or the exception. -/
def storeConvert (registry : Registry) (thread address newAddress newTs : Nat) :
    Option (Registry × Except ConnectionException Nat) :=
  (globalsObjectConnect registry thread address newAddress newTs).map fun
    | (after, some object) => (after, .ok object)
    | (after, none) => (after, .error .destroyed)

/-- `pthreads_threaded_unserialize`.  Only a failed match counts as corrupted: at
the end of the input `address` keeps its initial null. -/
def threadedUnserialize (registry : Registry) (thread : Nat) (text : List Char)
    (newAddress newTs : Nat) : Option (Registry × Except ConnectionException Nat) :=
  match scanAddress text with
  | .mismatch => some (registry, .error .corrupted)
  | .endOfInput => some (registry, .error .invalid)
  | .converted 0 => some (registry, .error .invalid)
  | .converted address => storeConvert registry thread address newAddress newTs

/-- What a new connection looks like. -/
theorem Creates.placed {registry allocated constructed connected after : Registry}
    {thread address newAddress newTs shared : Nat} {zobj : ZendObject}
    (creates : Creates registry thread address newAddress newTs allocated constructed connected
      after shared) (found : registry.zobjs address = some zobj) :
    after.zobjs newAddress =
        some ⟨some shared, some thread, some (zobj.originalZobj.getD address), false⟩ ∧
      zobj.tsObj = some shared := by
  have different := creates.different (by simp [found])
  have isFresh := creates.found
  obtain ⟨original, isNew⟩ := creates.points
  obtain ⟨-, ⟨⟩⟩ := Option.ite_none_right_eq_some.mp creates.alloc
  obtain ⟨-, -, rfl⟩ := baseCtor_zobjs creates.construct
  obtain ⟨target, origin, same, targetFound, originFound, points, zobjs, -⟩ :=
    connectNolock_zobjs creates.connect
  simp only [Function.update_of_ne different, found, Option.some.injEq] at originFound
  subst originFound
  cases Option.some.inj (targetFound.symm.trans isFresh)
  simp only [zobjs, Function.update_self, Option.some.injEq, ZendObject.mk.injEq] at isNew
  rw [creates.result]
  simp only [zobjs, Function.update_self, isNew.1]
  exact ⟨trivial, points.trans (congrArg some isNew.1)⟩

theorem isSpace_of_isDigit {char : Char} (isDigit : char.isDigit = true) :
    isSpace char = false := by
  simp only [Char.isDigit, Bool.and_eq_true, decide_eq_true_eq, ge_iff_le,
    UInt32.le_iff_toNat_le] at isDigit
  have zero : ('0' : Char).val.toNat = 48 := rfl
  have notBlank : char ≠ ' ' := by
    rintro rfl
    exact absurd isDigit.1 (by decide)
  simp only [isSpace, notBlank, false_or, decide_eq_false_iff_not, not_and, Char.le_def,
    UInt32.le_iff_toNat_le]
  have carriageReturn : ('\r' : Char).val.toNat = 13 := rfl
  omega

theorem scanDigits_toDigits {address : Nat} (inRange : address < addressLimit)
    (rest : List Char) :
    scanDigits false (Nat.toDigits 10 address ++ ':' :: rest) = .converted address := by
  have allDigits : ∀ char ∈ Nat.toDigits 10 address, char.isDigit = true := by
    intro char isIn
    exact Nat.isDigit_of_mem_toDigits (by decide) (by decide) isIn
  have taken : (Nat.toDigits 10 address ++ ':' :: rest).takeWhile Char.isDigit =
      Nat.toDigits 10 address := by
    rw [List.takeWhile_append_of_pos allDigits, List.takeWhile_cons_of_neg (by decide),
      List.append_nil]
  simp only [scanDigits, taken, Nat.toDigits_ne_nil, if_false, Nat.ofDigitChars_ten_toDigits,
    if_neg (Nat.not_le.mpr inRange), Bool.false_eq_true]

/-- What was printed is read back. -/
theorem scanAddress_printAddress {address : Nat} (inRange : address < addressLimit) :
    scanAddress (printAddress address) = .converted address := by
  have allDigits : ∀ char ∈ Nat.toDigits 10 address, char.isDigit = true := by
    intro char isIn
    exact Nat.isDigit_of_mem_toDigits (by decide) (by decide) isIn
  have read := scanDigits_toDigits inRange []
  obtain ⟨first, rest, split⟩ := List.exists_cons_of_ne_nil (Nat.toDigits_ne_nil (n := address)
    (b := 10))
  have isDigit : first.isDigit = true := allDigits first (by simp [split])
  rw [split, List.cons_append] at read
  simp only [printAddress, scanAddress, split, List.cons_append]
  have notSpace := isSpace_of_isDigit isDigit
  rw [List.dropWhile_cons_of_neg (by simp [notSpace])]
  split
  · next empty => simp at empty
  · next digits minus =>
    cases minus
    simp at isDigit
  · next digits plus =>
    cases plus
    simp at isDigit
  · exact read

/-- Where an object may be placed: the addresses the allocators return are not
in use. -/
structure Available (registry : Registry) (newAddress newTs : Nat) : Prop where
  address : registry.zobjs newAddress = none
  inRange : 0 < newAddress ∧ newAddress < addressLimit
  tsObj : registry.tsObjs newTs = none

/-- A thread without a connection gets one, attached to what the source is
attached to. -/
theorem createConnection_succeeds {registry : Registry} (sound : Sound registry) (thread : Nat)
    {address newAddress newTs tsObj : Nat} {zobj : ZendObject}
    (available : Available registry newAddress newTs)
    (found : registry.zobjs address = some zobj) (points : zobj.tsObj = some tsObj) :
    ∃ after, createConnection registry thread address newAddress newTs = some after := by
  obtain ⟨shared, isLive⟩ := sound.tsObj_live found points
  have different : address ≠ newAddress := by
    rintro rfl
    simp [available.address] at found
  have differentTs : tsObj ≠ newTs := by
    rintro rfl
    simp [available.tsObj] at isLive
  have alloc : globalsObjectAlloc registry newAddress = some { registry with
      zobjs := Function.update registry.zobjs newAddress (some ⟨none, none, none, true⟩)
      objects := insert newAddress registry.objects } :=
    if_pos ⟨available.address, available.inRange⟩
  simp [createConnection, alloc, baseCtor, available.tsObj, connectNolock, different, found,
    releaseOwn, tsObjectRelease, points, tsObjectAddref, differentTs, isLive]

theorem globalsObjectConnect_succeeds {registry : Registry} (sound : Sound registry)
    (thread : Nat) {address newAddress newTs tsObj : Nat} {zobj : ZendObject}
    (available : Available registry newAddress newTs)
    (found : registry.zobjs address = some zobj) (points : zobj.tsObj = some tsObj) :
    ∃ after object, globalsObjectConnect registry thread address newAddress newTs =
      some (after, some object) := by
  have nonzero := (sound.ne_null found).symm
  have valid : globalsObjectValid registry address = true := by
    simp [globalsObjectValid, nonzero, sound.table, found]
  simp only [globalsObjectConnect, valid, if_true, found, points, Option.bind_eq_bind,
    Option.bind_some]
  split
  · exact ⟨_, _, rfl⟩
  · split
    · exact ⟨_, _, rfl⟩
    · obtain ⟨after, created⟩ := createConnection_succeeds sound thread available found points
      exact ⟨after, newAddress, by simp [created]⟩

/-- Connecting leaves no shared object behind. -/
theorem globalsObjectConnect_tsObjs {registry after : Registry} (sound : Sound registry)
    {thread address newAddress newTs tsObj : Nat} {result : Option Nat}
    (connected : globalsObjectConnect registry thread address newAddress newTs =
      some (after, result)) (unused : registry.tsObjs tsObj = none) :
    after.tsObjs tsObj = none := by
  have unattached : ∀ {other : Nat} {zobj : ZendObject}, registry.zobjs other = some zobj →
      zobj.tsObj ≠ some tsObj := by
    intro other zobj found points
    obtain ⟨shared, isLive⟩ := sound.tsObj_live found points
    rw [unused] at isLive
    cases isLive
  rcases globalsObjectConnect_cases connected with ⟨-, rfl, -⟩ | ⟨source, -, found, rest⟩
  · exact unused
  · rcases rest with ⟨-, rfl, -⟩ | ⟨shared, -, ⟨connection, -, rfl, -⟩ | ⟨created, -⟩⟩
    · exact unused
    · exact unused
    · obtain ⟨allocated, constructed, joined, target, creates⟩ := createConnection_creates created
      have soundAfter := creates.sound sound (by simp [found])
      by_contra present
      have isLive := (soundAfter.live tsObj).mp (Option.isSome_iff_ne_none.mpr present)
      obtain ⟨other, isAttached⟩ := isLive
      obtain ⟨zobj, isThere, points⟩ := Option.bind_eq_some_iff.mp (mem_attached.mp isAttached).2
      by_cases same : other = newAddress
      · subst same
        obtain ⟨placed, sameTs⟩ := creates.placed found
        rw [isThere, Option.some.injEq] at placed
        subst placed
        exact unattached found (sameTs.trans points)
      · rw [creates.keeps same] at isThere
        exact unattached isThere points

/-- A restored object is attached to what stands at the address. -/
theorem globalsObjectConnect_attached {registry after : Registry} (sound : Sound registry)
    {thread address newAddress newTs object tsObj : Nat} {zobj : ZendObject}
    (found : registry.zobjs address = some zobj) (points : zobj.tsObj = some tsObj)
    (connected : globalsObjectConnect registry thread address newAddress newTs =
      some (after, some object)) :
    ∃ restored, after.zobjs object = some restored ∧ restored.tsObj = some tsObj := by
  rcases globalsObjectConnect_cases connected with ⟨-, -, ⟨⟩⟩ | ⟨same, -, isThere, rest⟩
  cases Option.some.inj (isThere.symm.trans found)
  rcases rest with ⟨-, rfl, ⟨⟩⟩ | ⟨shared, target, rest⟩
  · exact ⟨zobj, found, points⟩
  · cases Option.some.inj (target.symm.trans points)
    rcases rest with ⟨connection, present, rfl, ⟨⟩⟩ | ⟨created, ⟨⟩⟩
    · obtain ⟨resolved, isResolved, sameTs, -⟩ := sound.resolved thread _ object present
      exact ⟨resolved, isResolved, sameTs⟩
    · obtain ⟨allocated, constructed, joined, reached, creates⟩ :=
        createConnection_creates created
      obtain ⟨placed, sameTs⟩ := creates.placed found
      exact ⟨_, placed, sameTs.symm.trans points⟩

/-- The cases of a restore as a step. -/
theorem restore_cases {registry after : Registry} {thread address newAddress newTs : Nat}
    (stepped : step registry (.restore thread address newAddress newTs) = some after) :
    after = registry ∨ ∃ allocated constructed connected shared zobj,
      registry.zobjs address = some zobj ∧
      Creates registry thread address newAddress newTs allocated constructed connected after
        shared := by
  obtain ⟨⟨result, outcome⟩, connected, rfl⟩ := Option.map_eq_some_iff.mp stepped
  rcases globalsObjectConnect_cases connected with ⟨-, rfl, -⟩ | ⟨source, -, found, rest⟩
  · exact Or.inl rfl
  · rcases rest with ⟨-, rfl, -⟩ | ⟨shared, -, ⟨connection, -, rfl, -⟩ | ⟨created, -⟩⟩
    · exact Or.inl rfl
    · exact Or.inl rfl
    · obtain ⟨allocated, constructed, joined, target, creates⟩ := createConnection_creates created
      exact Or.inr ⟨allocated, constructed, joined, target, source, found, creates⟩

/-- Where the object that a step leaves at an address comes from. -/
inductive Origin (registry : Registry) (action : Action) (address : Nat) (zobj : ZendObject) : Prop
  /-- It was there, with the same original and shared object. -/
  | kept (earlier : ZendObject) (found : registry.zobjs address = some earlier)
      (original : zobj.originalZobj = earlier.originalZobj) (tsObj : zobj.tsObj = earlier.tsObj)
  /-- It was there and has just been connected to a visible object. -/
  | connected (source : Nat) (origin : ZendObject) (isConnect : action = .connect source address)
      (existed : (registry.zobjs address).isSome) (found : registry.zobjs source = some origin)
      (visible : origin.fresh = false) (constructed : origin.tsObj.isSome)
      (original : zobj.originalZobj = some (origin.originalZobj.getD source))
      (tsObj : zobj.tsObj = origin.tsObj)
  /-- It is a new connection. -/
  | restored (thread source newTs : Nat) (origin : ZendObject)
      (isRestore : action = .restore thread source address newTs)
      (inRange : 0 < address ∧ address < addressLimit)
      (found : registry.zobjs source = some origin) (constructed : origin.tsObj.isSome)
      (original : zobj.originalZobj = some (origin.originalZobj.getD source))
      (tsObj : zobj.tsObj = origin.tsObj)
  /-- It is an object under construction. -/
  | building (original : zobj.originalZobj = none)
      (placed : (∃ earlier, registry.zobjs address = some earlier ∧ earlier.fresh = true) ∨
        action = .alloc address ∧ 0 < address ∧ address < addressLimit)

theorem step_origin {registry after : Registry} {action : Action} {address : Nat}
    {zobj : ZendObject} (stepped : step registry action = some after)
    (found : after.zobjs address = some zobj) : Origin registry action address zobj := by
  cases action with
  | alloc other =>
      obtain ⟨⟨-, inRange⟩, ⟨⟩⟩ := Option.ite_none_right_eq_some.mp stepped
      rcases update_eq_some_cases found with ⟨rfl, ⟨⟩⟩ | ⟨-, before⟩
      · exact .building rfl (Or.inr ⟨rfl, inRange⟩)
      · exact .kept zobj before rfl rfl
  | construct thread other tsObj =>
      obtain ⟨blank, -, rfl⟩ := baseCtor_zobjs stepped
      rcases update_eq_some_cases found with ⟨rfl, ⟨⟩⟩ | ⟨-, before⟩
      · exact .building rfl (Or.inl ⟨_, blank, rfl⟩)
      · exact .kept zobj before rfl rfl
  | publish other =>
      obtain ⟨published, isThere, rfl⟩ := publish_eq stepped
      rcases update_eq_some_cases found with ⟨rfl, ⟨⟩⟩ | ⟨-, before⟩
      · exact .kept published isThere rfl rfl
      · exact .kept zobj before rfl rfl
  | connect source destination =>
      obtain ⟨-, origin, target, own, originFound, targetFound, -, -, visible, connected⟩ :=
        connect_eq stepped
      obtain ⟨_, _, shared, -, isOrigin, points, zobjs, -⟩ := connectNolock_zobjs connected
      cases Option.some.inj (isOrigin.symm.trans originFound)
      rw [zobjs] at found
      rcases update_eq_some_cases found with ⟨rfl, ⟨⟩⟩ | ⟨-, before⟩
      · exact .connected source origin rfl (by simp [targetFound]) originFound visible
          (by simp [points]) rfl points.symm
      · exact .kept zobj before rfl rfl
  | restore thread source newAddress newTs =>
      rcases restore_cases stepped with rfl | ⟨_, _, _, shared, origin, originFound, creates⟩
      · exact .kept zobj found rfl rfl
      · by_cases same : address = newAddress
        · subst same
          obtain ⟨placed, points⟩ := creates.placed originFound
          cases Option.some.inj (found.symm.trans placed)
          have inRange := (Option.ite_none_right_eq_some.mp creates.alloc).1.2
          exact .restored thread source newTs origin rfl inRange originFound (by simp [points]) rfl
            points.symm
        · rw [creates.keeps same] at found
          exact .kept zobj found rfl rfl
  | free thread other =>
      obtain ⟨_, _, _, -, -, -, -, rfl⟩ := baseFree_eq stepped
      rcases update_eq_some_cases found with ⟨-, ⟨⟩⟩ | ⟨-, before⟩
      exact .kept zobj before rfl rfl
  | save other =>
      obtain ⟨saved, tsObj, shared, -, -, -, -, rfl⟩ := save_eq stepped
      exact .kept zobj found rfl rfl

/-- What an object after a step is attached to, something was attached to before under
the same saved address, or it has just been constructed. -/
theorem step_tsObj {registry after : Registry} {action : Action} {address tsObj : Nat}
    {zobj : ZendObject} (stepped : step registry action = some after)
    (found : after.zobjs address = some zobj) (points : zobj.tsObj = some tsObj) :
    (∃ source origin, registry.zobjs source = some origin ∧ origin.tsObj = some tsObj ∧
      savedAddress zobj address = savedAddress origin source) ∨
      ∃ thread, action = .construct thread address tsObj ∧ registry.tsObjs tsObj = none ∧
        savedAddress zobj address = address := by
  have asBefore {earlier : ZendObject} (isThere : registry.zobjs address = some earlier)
      (sameTs : earlier.tsObj = zobj.tsObj)
      (sameOriginal : earlier.originalZobj = zobj.originalZobj) :
      ∃ source origin, registry.zobjs source = some origin ∧ origin.tsObj = some tsObj ∧
        savedAddress zobj address = savedAddress origin source :=
    ⟨address, earlier, isThere, sameTs.trans points, by simp [savedAddress, sameOriginal]⟩
  cases action with
  | alloc other =>
      obtain ⟨-, ⟨⟩⟩ := Option.ite_none_right_eq_some.mp stepped
      rcases update_eq_some_cases found with ⟨rfl, ⟨⟩⟩ | ⟨-, before⟩
      · cases points
      · exact Or.inl (asBefore before rfl rfl)
  | construct thread other newTs =>
      obtain ⟨-, unused, rfl⟩ := baseCtor_zobjs stepped
      rcases update_eq_some_cases found with ⟨rfl, ⟨⟩⟩ | ⟨-, before⟩
      · cases points
        exact Or.inr ⟨thread, rfl, unused, rfl⟩
      · exact Or.inl (asBefore before rfl rfl)
  | publish other =>
      obtain ⟨published, isThere, rfl⟩ := publish_eq stepped
      rcases update_eq_some_cases found with ⟨rfl, ⟨⟩⟩ | ⟨-, before⟩
      · exact Or.inl (asBefore isThere rfl rfl)
      · exact Or.inl (asBefore before rfl rfl)
  | connect source destination =>
      obtain ⟨-, _, _, _, -, -, -, -, -, connected⟩ := connect_eq stepped
      obtain ⟨_, origin, shared, -, originFound, isShared, zobjs, -⟩ :=
        connectNolock_zobjs connected
      rw [zobjs] at found
      rcases update_eq_some_cases found with ⟨rfl, ⟨⟩⟩ | ⟨-, before⟩
      · cases points
        exact Or.inl ⟨source, origin, originFound, isShared, rfl⟩
      · exact Or.inl (asBefore before rfl rfl)
  | restore thread source newAddress newTs =>
      rcases restore_cases stepped with rfl | ⟨_, _, _, shared, origin, originFound, creates⟩
      · exact Or.inl (asBefore found rfl rfl)
      · by_cases same : address = newAddress
        · subst same
          obtain ⟨placed, isShared⟩ := creates.placed originFound
          cases Option.some.inj (found.symm.trans placed)
          cases points
          exact Or.inl ⟨source, origin, originFound, isShared, rfl⟩
        · rw [creates.keeps same] at found
          exact Or.inl (asBefore found rfl rfl)
  | free thread other =>
      obtain ⟨_, _, _, -, -, -, -, rfl⟩ := baseFree_eq stepped
      rcases update_eq_some_cases found with ⟨-, ⟨⟩⟩ | ⟨-, before⟩
      exact Or.inl (asBefore before rfl rfl)
  | save other =>
      obtain ⟨_, _, _, -, -, -, -, rfl⟩ := save_eq stepped
      exact Or.inl (asBefore found rfl rfl)

/-- Every address that is in use or recorded as an original is a nonzero
`uintptr_t`. -/
def AddressesInRange (registry : Registry) : Prop :=
  ∀ address zobj, registry.zobjs address = some zobj →
    (0 < address ∧ address < addressLimit) ∧
      ∀ original, zobj.originalZobj = some original → 0 < original ∧ original < addressLimit

theorem AddressesInRange.savedAddress {registry : Registry} (ranges : AddressesInRange registry)
    {address : Nat} {zobj : ZendObject} (found : registry.zobjs address = some zobj) :
    0 < savedAddress zobj address ∧ savedAddress zobj address < addressLimit := by
  obtain ⟨own, recorded⟩ := ranges address zobj found
  cases original : zobj.originalZobj with
  | none => simpa [ObjectRegistry.savedAddress, original] using own
  | some other => simpa [ObjectRegistry.savedAddress, original] using recorded other original

theorem step_addressesInRange {registry after : Registry} {action : Action}
    (ranges : AddressesInRange registry) (stepped : step registry action = some after) :
    AddressesInRange after := by
  intro address zobj found
  cases step_origin stepped found with
  | kept earlier isThere original tsObj =>
      rw [original]
      exact ranges address earlier isThere
  | connected source origin isConnect existed isThere visible constructed original tsObj =>
      obtain ⟨earlier, present⟩ := Option.isSome_iff_exists.mp existed
      refine ⟨(ranges address earlier present).1, ?_⟩
      rw [original]
      rintro _ ⟨⟩
      exact ranges.savedAddress isThere
  | restored thread source newTs origin isRestore inRange isThere constructed original tsObj =>
      refine ⟨inRange, ?_⟩
      rw [original]
      rintro _ ⟨⟩
      exact ranges.savedAddress isThere
  | building original placed =>
      refine ⟨?_, by simp [original]⟩
      rcases placed with ⟨earlier, present, -⟩ | ⟨-, inRange⟩
      · exact (ranges address earlier present).1
      · exact inRange

theorem addressesInRange_of_reaches {allowed : Registry → Action → Prop} {registry : Registry}
    (reached : Reaches step allowed initial registry) : AddressesInRange registry :=
  reached.preserves (fun _ _ _ ranges _ stepped => step_addressesInRange ranges stepped)
    (by simp [AddressesInRange, initial])

/-- The outcome is an object attached to the shared object. -/
def Yields (outcome : Option (Registry × Except ConnectionException Nat)) (tsObj : Nat) : Prop :=
  ∃ after object zobj, outcome = some (after, .ok object) ∧ after.zobjs object = some zobj ∧
    zobj.tsObj = some tsObj

/-- Restoring an address leads to a shared object exactly when an object attached
to it stands there. -/
theorem storeConvert_yields {registry : Registry} (sound : Sound registry) (thread : Nat)
    {address newAddress newTs : Nat} (available : Available registry newAddress newTs)
    (tsObj : Nat) :
    Yields (storeConvert registry thread address newAddress newTs) tsObj ↔
      ∃ zobj, registry.zobjs address = some zobj ∧ zobj.tsObj = some tsObj := by
  constructor
  · rintro ⟨after, object, restored, converted, isThere, points⟩
    obtain ⟨⟨_, result⟩, connected, outcome⟩ := Option.map_eq_some_iff.mp converted
    cases result with
    | none => simp at outcome
    | some target =>
        cases outcome
        rcases globalsObjectConnect_cases connected with ⟨-, -, ⟨⟩⟩ | ⟨zobj, -, found, rest⟩
        refine ⟨zobj, found, ?_⟩
        rcases rest with ⟨-, rfl, ⟨⟩⟩ | ⟨shared, target, -⟩
        · cases Option.some.inj (isThere.symm.trans found)
          exact points
        · obtain ⟨same, isSame, sameTs⟩ :=
            globalsObjectConnect_attached sound found target connected
          cases Option.some.inj (isSame.symm.trans isThere)
          exact target.trans (sameTs.symm.trans points)
  · rintro ⟨zobj, found, points⟩
    obtain ⟨after, object, connected⟩ :=
      globalsObjectConnect_succeeds sound thread available found points
    obtain ⟨restored, isThere, sameTs⟩ := globalsObjectConnect_attached sound found points connected
    exact ⟨after, object, restored, by simp [storeConvert, connected], isThere, sameTs⟩

/-- A successful restore is a step. -/
theorem storeConvert_step {registry after : Registry} {thread address newAddress newTs object : Nat}
    (converted : storeConvert registry thread address newAddress newTs =
      some (after, .ok object)) :
    step registry (.restore thread address newAddress newTs) = some after := by
  obtain ⟨⟨_, result⟩, connected, outcome⟩ := Option.map_eq_some_iff.mp converted
  cases result with
  | none => simp at outcome
  | some target =>
      cases outcome
      simp [step, connected]

/-- Unserializing what was serialized restores the address that was printed. -/
theorem threadedUnserialize_printAddress (registry : Registry) (thread newAddress newTs : Nat)
    {address : Nat} (inRange : 0 < address ∧ address < addressLimit) :
    threadedUnserialize registry thread (printAddress address) newAddress newTs =
      storeConvert registry thread address newAddress newTs := by
  rw [threadedUnserialize, scanAddress_printAddress inRange.2]
  cases address with
  | zero => exact absurd inRange.1 (Nat.lt_irrefl 0)
  | succ predecessor => rfl

/-- Only objects that nothing refers to yet are connected. -/
theorem step_not_connect {registry after : Registry} {action : Action} {address : Nat}
    {zobj : ZendObject} (stepped : step registry action = some after)
    (found : registry.zobjs address = some zobj) (visible : zobj.fresh = false) (source : Nat) :
    action ≠ .connect source address := by
  rintro rfl
  obtain ⟨-, origin, target, own, -, targetFound, isFresh, -⟩ := connect_eq stepped
  cases Option.some.inj (targetFound.symm.trans found)
  simp [visible] at isFresh

/-- A visible object stays as it is while it is not freed. -/
theorem kept_of_reaches {address tsObj : Nat} {zobj : ZendObject} {registry later : Registry}
    (found : registry.zobjs address = some zobj) (points : zobj.tsObj = some tsObj)
    (visible : zobj.fresh = false)
    (continued : Reaches step (fun _ action => ∀ thread, action ≠ .free thread address)
      registry later) : later.zobjs address = some zobj := by
  have keeps : ∀ before action after, before.zobjs address = some zobj →
      (∀ thread, action ≠ .free thread address) → step before action = some after →
        after.zobjs address = some zobj := by
    intro before action after isThere notFreed stepped
    have notConnected := step_not_connect stepped isThere visible
    rcases step_keeps stepped isThere points notFreed notConnected with same | shown
    · exact same
    · rw [shown, ← visible]
  exact Reaches.preserves keeps continued found

/-- Thread 1 creates an object and thread 2 connects to it. -/
def originalAlive : List Action :=
  [.alloc 8, .construct 1 8 100, .publish 8, .restore 2 8 16 101]

end Pthreads.ObjectRegistry
