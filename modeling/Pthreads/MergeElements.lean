import Pthreads.MergePaths

/-!
# One element on the two ways

A storage of the source, the value that the plain array has in its place, and
the storage that this value is saved as.  All objects attached to one shared
object name the same original, so a handle comes back as it was.
-/

namespace Pthreads.ObjectRegistry

open GuardedRuns

/-- The objects attached to a shared object are saved under one address. -/
def OriginalOf (registry : Registry) (original : Nat → Nat) : Prop :=
  ∀ address zobj tsObj, registry.zobjs address = some zobj → zobj.tsObj = some tsObj →
    savedAddress zobj address = original tsObj

theorem globalsObjectConnect_originalOf {registry after : Registry} {original : Nat → Nat}
    {result : Option Nat} {thread address newAddress newTs : Nat}
    (named : OriginalOf registry original)
    (connected : globalsObjectConnect registry thread address newAddress newTs =
      some (after, result)) : OriginalOf after original := by
  rcases globalsObjectConnect_cases connected with ⟨-, rfl, -⟩ | ⟨zobj, -, found, rest⟩
  · exact named
  · rcases rest with ⟨-, rfl, -⟩ | ⟨shared, -, ⟨connection, -, rfl, -⟩ | ⟨created, -⟩⟩
    · exact named
    · exact named
    · obtain ⟨_, _, _, target, creates⟩ := createConnection_creates created
      intro other there tsObj isThere points
      by_cases same : other = newAddress
      · subst same
        obtain ⟨placed, isShared⟩ := creates.placed found
        cases Option.some.inj (isThere.symm.trans placed)
        cases points
        exact named address zobj target found isShared
      · rw [creates.keeps same] at isThere
        exact named other there tsObj isThere points

theorem step_originalOf {registry after : Registry} {action : Action} {original : Nat → Nat}
    (sound : Sound registry) (named : OriginalOf registry original)
    (stepped : step registry action = some after) : ∃ later, OriginalOf after later := by
  -- Only a construction makes a shared object that the old assignment does not know.
  have kept {address tsObj : Nat} {zobj : ZendObject} (found : after.zobjs address = some zobj)
      (points : zobj.tsObj = some tsObj) :
      (savedAddress zobj address = original tsObj ∧ (registry.tsObjs tsObj).isSome) ∨
        ∃ thread, action = .construct thread address tsObj ∧ registry.tsObjs tsObj = none ∧
          savedAddress zobj address = address := by
    rcases step_tsObj stepped found points with ⟨source, origin, isThere, pointed, same⟩ | built
    · obtain ⟨shared, isLive⟩ := sound.tsObj_live isThere pointed
      exact Or.inl ⟨same.trans (named source origin tsObj isThere pointed), by simp [isLive]⟩
    · exact Or.inr built
  by_cases constructs : ∃ thread address tsObj, action = .construct thread address tsObj
  · obtain ⟨thread, newAddress, newTs, rfl⟩ := constructs
    obtain ⟨-, unused, -⟩ := baseCtor_zobjs stepped
    refine ⟨Function.update original newTs newAddress, ?_⟩
    intro address zobj tsObj found points
    rcases kept found points with ⟨same, isLive⟩ | ⟨_, isBuilt, _, own⟩
    · have different : tsObj ≠ newTs := by
        rintro rfl
        simp [unused] at isLive
      rw [Function.update_of_ne different]
      exact same
    · cases isBuilt
      rw [Function.update_self]
      exact own
  · refine ⟨original, ?_⟩
    intro address zobj tsObj found points
    rcases kept found points with ⟨same, _⟩ | ⟨thread, isBuilt, _⟩
    · exact same
    · exact absurd ⟨thread, address, tsObj, isBuilt⟩ constructs

theorem originalOf_of_reaches {registry : Registry}
    (reached : Reaches step anyAction initial registry) :
    ∃ original, OriginalOf registry original := by
  have keeps : ∀ before action after, (Sound before ∧ ∃ original, OriginalOf before original) →
      anyAction before action → step before action = some after →
        Sound after ∧ ∃ original, OriginalOf after original := by
    rintro before action after ⟨sound, original, named⟩ - stepped
    exact ⟨step_sound sound stepped, step_originalOf sound named stepped⟩
  exact (reached.preserves keeps ⟨sound_initial, id, by simp [OriginalOf, initial]⟩).2

end Pthreads.ObjectRegistry

namespace Pthreads.Store

open ObjectRegistry GuardedRuns

/-- The value is what the array has in place of the storage. -/
structure Stands (registry : Registry) (storage : Storage) (value : Zval) : Prop where
  meaning : value.meaning registry = some ((storage.meaning registry).getD .null)
  settled : SettledValue registry value
  isPlain : plain value = true

theorem Stands.extends {placed : Nat → Prop} {registry after : Registry} {storage : Storage}
    {value : Zval} (stands : Stands registry storage value)
    (extended : Extends placed registry after) (sturdy : SturdyStorage placed registry storage) :
    Stands after storage value := by
  refine ⟨?_, extended.settledValue stands.settled, stands.isPlain⟩
  rw [extended.value_meaning stands.settled, extended.storage_meaning sturdy]
  exact stands.meaning

theorem restoreZval_stands {enumCases : EnumCases} {registry after : Registry}
    (sound : Sound registry) {thread : Nat} {fresh : Fresh} {storage : Storage} {value : Zval}
    (settled : ∀ address, storage = .pthreads address → SettledAt registry address)
    (restored : restoreZval enumCases registry thread fresh storage = some (after, value)) :
    Stands after storage value := by
  have facts := restoreZval_restores sound settled restored
  obtain ⟨_, ⟨⟩, agrees⟩ := facts.agrees
  cases storage with
  | pthreads address =>
      obtain ⟨⟨_, result⟩, connected, outcome⟩ := Option.map_eq_some_iff.mp restored
      cases result with
      | none =>
          cases outcome
          rcases agrees with absent | same
          · exact ⟨by simp [Zval.meaning, absent], facts.settled, rfl⟩
          · exact ⟨by simp [← same, Zval.meaning], facts.settled, rfl⟩
      | some object =>
          cases outcome
          obtain ⟨zobj, found, -, constructed⟩ :=
            facts.settled object (by simp [refersTo])
          obtain ⟨tsObj, points⟩ := Option.isSome_iff_exists.mp constructed
          have valueMeaning : (Zval.threaded object).meaning after = some (.threaded tsObj) := by
            simp [Zval.meaning, tsObjAt, found, points]
          rcases agrees with absent | same
          · -- an object came back, so something stands at the address
            rcases globalsObjectConnect_cases connected with ⟨-, -, ⟨⟩⟩ | ⟨source, -, isSource, -⟩
            obtain ⟨visible, built⟩ := settled address rfl source isSource
            have kept := facts.extended.kept address source isSource visible built
            obtain ⟨shared, isShared⟩ := Option.isSome_iff_exists.mp built
            simp [Storage.meaning, tsObjAt, kept, isShared] at absent
          · exact ⟨by rw [← same, valueMeaning]; rfl, facts.settled, rfl⟩
  | stringPtr string owner =>
      simp only [restoreZval] at restored
      split at restored
      · cases restored
        exact ⟨rfl, facts.settled, rfl⟩
      · cases restored
        exact ⟨by simp [Zval.meaning, Storage.meaning, restoreString_bytes], facts.settled, rfl⟩
  | string string =>
      cases restored
      exact ⟨by simp [Zval.meaning, Storage.meaning, restoreString_bytes], facts.settled, rfl⟩
  | enumCase className memberName =>
      obtain ⟨-, ⟨⟩⟩ := Option.ite_none_right_eq_some.mp restored
      exact ⟨rfl, facts.settled, rfl⟩
  | _ =>
      cases restored
      exact ⟨rfl, facts.settled, rfl⟩

theorem restoreZval_originalOf {enumCases : EnumCases} {registry after : Registry}
    {original : Nat → Nat} {thread : Nat} {fresh : Fresh} {storage : Storage} {value : Zval}
    (named : OriginalOf registry original)
    (restored : restoreZval enumCases registry thread fresh storage = some (after, value)) :
    OriginalOf after original := by
  cases storage with
  | pthreads address =>
      obtain ⟨⟨_, result⟩, connected, outcome⟩ := Option.map_eq_some_iff.mp restored
      cases result with
      | none =>
          cases outcome
          exact globalsObjectConnect_originalOf named connected
      | some object =>
          cases outcome
          exact globalsObjectConnect_originalOf named connected
  | stringPtr string owner =>
      simp only [restoreZval] at restored
      split at restored
      · cases restored
        exact named
      · cases restored
        exact named
  | enumCase className memberName =>
      obtain ⟨-, ⟨⟩⟩ := Option.ite_none_right_eq_some.mp restored
      exact named
  | _ =>
      cases restored
      exact named

/-- What a thread that can restore the storage gets; a destroyed object comes back
as null. -/
def Storage.restored (enumCases : EnumCases) (registry : Registry) (thread : Nat) :
    Storage → Option Meaning
  | .enumCase className memberName =>
      if enumCases thread className memberName then some (.enumCase className memberName) else none
  | storage => some ((storage.meaning registry).getD .null)

/-- The storage that the value is saved as, and what it has in common with the
storage that the value was restored from. -/
structure SavedAs (registry : Registry) (thread : Nat) (storage : Storage) (value : Zval)
    (saved : Storage) : Prop where
  isSaved : saveZval registry thread value = some saved
  /-- Both are restored alike where the handle leads to the same object. -/
  restored : ∀ (enumCases : EnumCases) (reader pointer : Nat) (first second : Registry),
    (∀ address, storage = .pthreads address → first.zobjs address = registry.zobjs address ∧
      second.zobjs address = registry.zobjs address) →
        (hardCopyStorage pointer storage).restored enumCases first reader =
          saved.restored enumCases second reader
  /-- A value that the local table keeps stands for what the storage is restored
  to. -/
  kept : retainInLocalCache value = true → ∀ (enumCases : EnumCases) (reader : Nat)
    (later : Registry), (∀ address, storage = .pthreads address →
      later.zobjs address = registry.zobjs address) → (∀ address, refersTo address value = true →
        later.zobjs address = registry.zobjs address) →
          ∃ meaning, saved.restored enumCases later reader = some meaning ∧
            value.meaning later = some meaning
  handle : ∀ address, saved = .pthreads address → storage = .pthreads address
  closure : ∀ closure owner, saved = .closure closure owner → value = .closure closure
  inert : retainInLocalCache value = false → storageIsCacheable saved = false
  retained : retainInLocalCache value = storageRetained registry storage

theorem Stands.saves_string {registry : Registry} {storage : Storage} {string : ZString}
    (thread : Nat) (isString : storage.meaning registry = some (.string string.bytes)) :
    ∃ saved, SavedAs registry thread storage (.string string) saved := by
  have isText : ∃ text, (storage = .string text ∨ ∃ owner, storage = .stringPtr text owner) ∧
      text.bytes = string.bytes := by
    cases storage with
    | string text => exact ⟨text, Or.inl rfl, by simpa [Storage.meaning] using isString⟩
    | stringPtr text owner =>
        exact ⟨text, Or.inr ⟨owner, rfl⟩, by simpa [Storage.meaning] using isString⟩
    | pthreads address => simp [Storage.meaning] at isString
    | _ => simp [Storage.meaning] at isString
  obtain ⟨text, shape, bytes⟩ := isText
  have restored (pointer : Nat) (enumCases : EnumCases) (first : Registry) (reader : Nat) :
      (hardCopyStorage pointer storage).restored enumCases first reader =
        some (.string string.bytes) := by
    rcases shape with rfl | ⟨owner, rfl⟩ <;>
      simp [Storage.restored, hardCopyStorage, Storage.meaning, saveString_bytes, bytes]
  have retained : storageRetained registry storage = true := by
    rcases shape with rfl | ⟨owner, rfl⟩ <;> rfl
  by_cases permanent : string.permanent = true
  · exact ⟨.string string, by simp [saveZval, permanent],
      fun enumCases reader pointer first _ _ => restored pointer enumCases first reader,
      fun _ _ _ _ _ _ => ⟨.string string.bytes, rfl, rfl⟩, by simp, by simp,
      by simp [retainInLocalCache], retained.symm⟩
  · exact ⟨.stringPtr string thread, by simp [saveZval, permanent, storeCreate],
      fun enumCases reader pointer first _ _ => restored pointer enumCases first reader,
      fun _ _ _ _ _ _ => ⟨.string string.bytes, rfl, rfl⟩, by simp, by simp,
      by simp [retainInLocalCache], retained.symm⟩

theorem Stands.saves_threaded {registry : Registry} {original : Nat → Nat} {address object : Nat}
    (thread : Nat) (named : OriginalOf registry original)
    (isOriginal : ∀ zobj, registry.zobjs address = some zobj → zobj.originalZobj = none)
    (settled : SettledValue registry (.threaded object))
    (same : tsObjAt registry object = tsObjAt registry address) :
    ∃ saved, SavedAs registry thread (.pthreads address) (.threaded object) saved := by
  obtain ⟨zobj, found, -, constructed⟩ := settled object (by simp [refersTo])
  obtain ⟨tsObj, points⟩ := Option.isSome_iff_exists.mp constructed
  have atAddress : tsObjAt registry address = some tsObj := by
    rw [← same, tsObjAt, found, Option.bind_some, points]
  obtain ⟨target, isTarget, targetPoints⟩ := Option.bind_eq_some_iff.mp atAddress
  have isAddress : savedAddress zobj object = address := by
    rw [named object zobj tsObj found points,
      ← named address target tsObj isTarget targetPoints, savedAddress,
      isOriginal target isTarget, Option.getD_none]
  refine ⟨.pthreads address, by simp [saveZval, storeCreate, found, isAddress], ?_, ?_, by simp,
    by simp, by simp [retainInLocalCache], by simp [retainInLocalCache, storageRetained, atAddress]⟩
  · intro enumCases reader pointer first second alike
    obtain ⟨isFirst, isSecond⟩ := alike address rfl
    simp [Storage.restored, hardCopyStorage, Storage.meaning, tsObjAt, isFirst, isSecond]
  · intro _ enumCases reader later handle value
    have atHandle : tsObjAt later address = some tsObj := by
      rw [tsObjAt, handle address rfl]
      exact atAddress
    have atObject : tsObjAt later object = some tsObj := by
      rw [tsObjAt, value object (by simp [refersTo])]
      exact same.trans atAddress
    exact ⟨.threaded tsObj, by simp [Storage.restored, Storage.meaning, atHandle],
      by simp [Zval.meaning, atObject]⟩

/-- A value that the local table does not take is saved as the storage it came
from. -/
theorem savedAs_inert {registry : Registry} {thread : Nat} {storage saved : Storage} {value : Zval}
    (isSaved : saveZval registry thread value = some saved)
    (notRetained : retainInLocalCache value = false)
    (inert : storageIsCacheable saved = false)
    (retained : storageRetained registry storage = false)
    (restored : ∀ (enumCases : EnumCases) (reader pointer : Nat) (first second : Registry),
      (∀ address, storage = .pthreads address → first.zobjs address = registry.zobjs address) →
        (hardCopyStorage pointer storage).restored enumCases first reader =
          saved.restored enumCases second reader) :
    SavedAs registry thread storage value saved := by
  refine ⟨isSaved, ?_, ?_, ?_, ?_, fun _ => inert, notRetained.trans retained.symm⟩
  · intro enumCases reader pointer first second alike
    exact restored enumCases reader pointer first second fun address isHandle =>
      (alike address isHandle).1
  · intro isRetained
    rw [notRetained] at isRetained
    cases isRetained
  · rintro address rfl
    simp [storageIsCacheable] at inert
  · rintro closure owner rfl
    simp [storageIsCacheable] at inert

theorem meaning_eq_of_getD {meaning : Option Meaning} {target : Meaning}
    (same : some target = some (meaning.getD .null)) (notNull : target ≠ .null) :
    meaning = some target := by
  cases meaning with
  | none => simp [notNull] at same
  | some found => simp_all

theorem Stands.saves {registry : Registry} {original : Nat → Nat} {storage : Storage}
    {value : Zval} (thread : Nat) (named : OriginalOf registry original)
    (isOriginal : ∀ address zobj, storage = .pthreads address →
      registry.zobjs address = some zobj → zobj.originalZobj = none)
    (stands : Stands registry storage value) :
    ∃ saved, SavedAs registry thread storage value saved := by
  have same := stands.meaning
  cases value with
  | undef | array _ | object _ => simp [Zval.meaning] at same
  | reference _ | indirect _ => exact absurd stands.isPlain (by simp [plain])
  | null =>
      -- null itself, or what stands in for a destroyed object
      refine ⟨.null, ?_⟩
      cases storage with
      | null => exact savedAs_inert rfl rfl rfl rfl fun _ _ _ _ _ _ => rfl
      | pthreads address =>
          have absent : tsObjAt registry address = none := by
            cases leads : tsObjAt registry address with
            | none => rfl
            | some tsObj => simp [Zval.meaning, Storage.meaning, leads] at same
          apply savedAs_inert rfl rfl rfl (by simp [storageRetained, absent])
          intro enumCases reader pointer first second alike
          have still : tsObjAt first address = none := by
            rw [tsObjAt, alike address rfl]
            exact absent
          simp [Storage.restored, hardCopyStorage, Storage.meaning, still]
      | _ => simp [Zval.meaning, Storage.meaning] at same
  | bool value =>
      have isBool := meaning_eq_of_getD same (by simp)
      cases storage <;> simp [Storage.meaning] at isBool
      subst isBool
      exact ⟨_, savedAs_inert rfl rfl rfl rfl fun _ _ _ _ _ _ => rfl⟩
  | long value =>
      have isLong := meaning_eq_of_getD same (by simp)
      cases storage <;> simp [Storage.meaning] at isLong
      subst isLong
      exact ⟨_, savedAs_inert rfl rfl rfl rfl fun _ _ _ _ _ _ => rfl⟩
  | double bits =>
      have isDouble := meaning_eq_of_getD same (by simp)
      cases storage <;> simp [Storage.meaning] at isDouble
      subst isDouble
      exact ⟨_, savedAs_inert rfl rfl rfl rfl fun _ _ _ _ _ _ => rfl⟩
  | resource pointer =>
      have isResource := meaning_eq_of_getD same (by simp)
      cases storage <;> simp [Storage.meaning] at isResource
      subst isResource
      exact ⟨_, savedAs_inert rfl rfl rfl rfl fun _ _ _ _ _ _ => rfl⟩
  | enumCase className memberName =>
      have isCase := meaning_eq_of_getD same (by simp)
      cases storage <;> simp [Storage.meaning] at isCase
      obtain ⟨rfl, rfl⟩ := isCase
      exact ⟨_, savedAs_inert rfl rfl rfl rfl fun _ _ _ _ _ _ => rfl⟩
  | string string =>
      exact Stands.saves_string thread (meaning_eq_of_getD same (by simp))
  | closure made =>
      have isClosure := meaning_eq_of_getD same (by simp)
      cases storage <;> simp [Storage.meaning] at isClosure
      refine ⟨.closure made thread, rfl, ?_, fun _ _ _ _ _ _ => ⟨.closure made.source, rfl, rfl⟩,
        by simp, by simp, by simp [retainInLocalCache], rfl⟩
      intro enumCases reader pointer first second _
      simp [Storage.restored, hardCopyStorage, Storage.meaning, isClosure]
  | socket opened hasStream =>
      cases hasStream with
      | true => exact absurd stands.isPlain (by simp [plain])
      | false =>
          have isSocket := meaning_eq_of_getD same (by simp)
          cases storage <;> simp [Storage.meaning] at isSocket
          refine ⟨.socket opened, rfl, ?_,
            fun _ _ _ _ _ _ => ⟨.socket opened.bsdSocket, rfl, rfl⟩, by simp, by simp,
            by simp [retainInLocalCache], rfl⟩
          intro enumCases reader pointer first second _
          simp [Storage.restored, hardCopyStorage, Storage.meaning, isSocket]
  | threaded object =>
      obtain ⟨zobj, found, -, constructed⟩ := stands.settled object (by simp [refersTo])
      obtain ⟨tsObj, points⟩ := Option.isSome_iff_exists.mp constructed
      have atObject : tsObjAt registry object = some tsObj := by
        rw [tsObjAt, found, Option.bind_some, points]
      rw [Zval.meaning, atObject, Option.map_some] at same
      have isThreaded := meaning_eq_of_getD same (by simp)
      cases storage <;> simp [Storage.meaning] at isThreaded
      exact Stands.saves_threaded thread named (fun zobj isThere => isOriginal _ zobj rfl isThere)
        stands.settled (atObject.trans isThreaded.symm)

/-- The array has an element for each storage, in the same order. -/
def Mirrors (wanted : Key → Prop) (registry : Registry) : List (Key × Storage) →
    List (Key × Zval) → Prop :=
  List.Forall₂ fun entry element => element.1 = entry.1 ∧
    (wanted entry.1 → Stands registry entry.2 element.2)

theorem copyElement_stands {wanted : Prop} {placed : Nat → Prop} {enumCases : EnumCases}
    {thread : Nat} {own : OrderedTable Key Zval} {fresh : Key → Fresh} {original : Nat → Nat}
    {entry : Key × Storage} {copied next : Copied} (sound : Sound copied.registry)
    (named : OriginalOf copied.registry original)
    (sturdy : SturdyStorage placed copied.registry entry.2)
    (isPlaced : placed (fresh entry.1).newAddress)
    (cached : wanted → ∀ value, (own.find entry.1).filter validLocalCacheItem = some value →
      Stands copied.registry entry.2 value)
    (isNext : copyElement enumCases thread (some own) fresh copied entry = some next) :
    ∃ value, next.table = copied.table.update entry.1 value ∧
      Extends placed copied.registry next.registry ∧ OriginalOf next.registry original ∧
      (wanted → Stands next.registry entry.2 value) := by
  simp only [copyElement, Option.getD_some] at isNext
  split at isNext
  · next value isCached =>
    cases isNext
    exact ⟨value, rfl, Extends.refl _ _, named, fun isWanted => cached isWanted value isCached⟩
  · obtain ⟨⟨registry, value⟩, restored, ⟨⟩⟩ := Option.map_eq_some_iff.mp isNext
    have settled : ∀ address, entry.2 = .pthreads address →
        SettledAt copied.registry address := fun address isHandle => (sturdy address isHandle).1
    have extended := (restoreZval_restores sound settled restored).extended
    refine ⟨value, rfl, extended.mono ?_, ?_, fun _ => restoreZval_stands sound settled restored⟩
    · rintro address rfl
      exact isPlaced
    · exact restoreZval_originalOf named restored

/-- What `plainArray` leaves: an element for each storage. -/
theorem foldlM_copyElement_mirrors (wanted : Key → Prop) (placed : Nat → Prop)
    {enumCases : EnumCases} {thread : Nat} {own : OrderedTable Key Zval} {fresh : Key → Fresh}
    {original : Nat → Nat} {entries : List (Key × Storage)} {copied result : Copied}
    (sound : Sound copied.registry) (named : OriginalOf copied.registry original)
    (sturdy : ∀ entry ∈ entries, SturdyStorage placed copied.registry entry.2)
    (isPlaced : ∀ entry ∈ entries, placed (fresh entry.1).newAddress)
    (cached : ∀ entry ∈ entries, wanted entry.1 → ∀ value,
      (own.find entry.1).filter validLocalCacheItem = some value →
        Stands copied.registry entry.2 value)
    (distinct : (copied.table.keys ++ entries.map Prod.fst).Nodup)
    (filled : entries.foldlM (copyElement enumCases thread (some own) fresh) copied =
      some result) :
    ∃ elements, result.table.entries = copied.table.entries ++ elements ∧
      Mirrors wanted result.registry entries elements ∧
      Extends placed copied.registry result.registry ∧ OriginalOf result.registry original := by
  induction entries generalizing copied with
  | nil =>
      cases filled
      exact ⟨[], by simp, List.Forall₂.nil, Extends.refl _ _, named⟩
  | cons entry entries ih =>
      rw [List.foldlM_cons, Option.bind_eq_bind, Option.bind_eq_some_iff] at filled
      obtain ⟨next, isNext, rest⟩ := filled
      have notIn : entry.1 ∉ copied.table.keys := by
        intro isIn
        exact (List.nodup_append.mp distinct).2.2 _ isIn _ List.mem_cons_self rfl
      obtain ⟨value, isTable, extended, namedNext, stands⟩ := copyElement_stands sound named
        (sturdy entry List.mem_cons_self) (isPlaced entry List.mem_cons_self)
        (cached entry List.mem_cons_self) isNext
      have isEntries := OrderedTable.entries_update_of_notMem value notIn
      rw [← isTable] at isEntries
      have sturdyNext : ∀ other ∈ entries, SturdyStorage placed next.registry other.2 := by
        intro other isIn
        exact extended.sturdyStorage (sturdy other (List.mem_cons_of_mem _ isIn))
      have cachedNext : ∀ other ∈ entries, wanted other.1 → ∀ value,
          (own.find other.1).filter validLocalCacheItem = some value →
            Stands next.registry other.2 value := by
        intro other isIn isWanted found isCached
        exact (cached other (List.mem_cons_of_mem _ isIn) isWanted found isCached).extends extended
          (sturdy other (List.mem_cons_of_mem _ isIn))
      have distinctNext : (next.table.keys ++ entries.map Prod.fst).Nodup := by
        simpa [OrderedTable.keys, isEntries] using distinct
      obtain ⟨elements, isResult, mirrors, extendedRest, namedResult⟩ :=
        ih (extended.sound sound) namedNext sturdyNext
          (fun other isIn => isPlaced other (List.mem_cons_of_mem _ isIn)) cachedNext distinctNext
          rest
      refine ⟨(entry.1, value) :: elements, ?_, ?_, extended.trans extendedRest, namedResult⟩
      · rw [isResult, isEntries, List.append_assoc]
        rfl
      · refine List.Forall₂.cons ⟨rfl, ?_⟩ mirrors
        intro isWanted
        exact (stands isWanted).extends extendedRest
          (extended.sturdyStorage (sturdy entry List.mem_cons_self))

/-- Where the array path may place new connections. -/
def Setting.Places (setting : Setting) (fresh : Key → Fresh) (address : Nat) : Prop :=
  ∃ key ∈ setting.source.hash.table.keys, address = (fresh key).newAddress

section Setting

variable {setting : Setting} {fresh : Key → Fresh}

theorem Setting.Consistent.sturdy (consistent : setting.Consistent)
    (regular : setting.Regular fresh) {storage : Storage} (stores : setting.Stores storage) :
    SturdyStorage (setting.Places fresh) setting.registry storage := by
  rintro address rfl
  refine ⟨consistent.stored address stores, ?_⟩
  rintro absent ⟨key, isKey, same⟩
  exact regular.unreplaced address stores absent key isKey same.symm

theorem Setting.Consistent.sourceTable_settled (consistent : setting.Consistent) {key : Key}
    {value : Zval} (cached : setting.sourceTable.cached key = some value) :
    SettledValue setting.registry value := by
  have synced := syncLocalProperties_synced setting.registry setting.source
    (prepared [] setting.sourceConnection)
  rcases prepared_keeps (synced.keeps value (Connection.keeps_of_cached cached)) with rfl | keeps
  · exact settledValue_slot setting.registry
  · exact consistent.sourceHeld value keeps

theorem plainArray_mirrors (consistent : setting.Consistent)
    (regular : setting.Regular fresh) {registry : Registry} {table : OrderedTable Key Zval}
    (obtained : setting.plainArray fresh = some (registry, table)) :
    ∃ original, Mirrors setting.Writes registry setting.source.hash.table.entries table.entries ∧
      Extends (setting.Places fresh) setting.registry registry ∧
      OriginalOf registry original := by
  obtain ⟨original, named⟩ := originalOf_of_reaches consistent.reached
  obtain ⟨⟨_, _, _⟩, copy, ⟨⟩⟩ := Option.map_eq_some_iff.mp obtained
  obtain ⟨copied, rfl, done, rfl, rfl⟩ := storeToHash_eq copy
  have isOwn := synced_properties [] setting.registry setting.source setting.sourceConnection
  rw [isOwn] at done
  have stored : ∀ entry ∈ setting.source.hash.table.entries,
      setting.source.hash.find entry.1 = some entry.2 := by
    intro entry isIn
    exact OrderedTable.find_eq_some_iff.mpr isIn
  have isCached : ∀ entry ∈ setting.source.hash.table.entries, setting.Writes entry.1 →
      ∀ value, ((initLocalProperties [] setting.sourceTable).find entry.1).filter
        validLocalCacheItem = some value → Stands setting.registry entry.2 value := by
    intro entry isIn isWritten value found
    rw [initLocalProperties_cached] at found
    obtain ⟨exists_, same, isPlain⟩ :=
      regular.current entry.1 entry.2 value isWritten (stored entry isIn) found
    obtain ⟨meaning, isMeaning⟩ := Option.isSome_iff_exists.mp exists_
    refine ⟨?_, consistent.sourceTable_settled found, isPlain⟩
    rw [same, isMeaning]
    rfl
  obtain ⟨elements, isResult, mirrors, extended, namedResult⟩ :=
    foldlM_copyElement_mirrors setting.Writes (setting.Places fresh)
      (sound_of_reaches consistent.reached) named
      (fun entry isIn => consistent.sturdy regular (Or.inr ⟨entry.1, stored entry isIn⟩))
      (fun entry isIn => ⟨entry.1, List.mem_map_of_mem isIn, rfl⟩) isCached
      (by simpa [OrderedTable.keys, OrderedTable.empty] using setting.source.hash.table.distinct)
      done
  refine ⟨original, ?_, extended, namedResult⟩
  have isTable : copied.table.entries = elements := isResult
  simpa [isTable] using mirrors

end Setting

end Pthreads.Store
