import Pthreads.StoreDictionary
import Pthreads.StoreGuarantees
import Pthreads.StoreHashes

/-!
# The store refines the dictionary

Every operation of the store does to the dictionary what it is asked to do, one after the
other in the order in which the threads hold the monitor, and what `shift`, `pop` and
`chunk` hand out is what the dictionary gives back.  This needs nothing of the caches.
-/

namespace Pthreads.Store

open ObjectRegistry GuardedRuns

section Operations

variable {declared : List Key} {placed : Nat → Prop} {enumCases : EnumCases}
  {registry : Registry} {props : Props} {connection : Connection} {dictionary : Dictionary}

theorem storeWrite_represents {key : Option KeyZval} {value : Zval} {coerceArrays : Bool}
    {fresh : Fresh} {result : Written} (ready : Ready placed registry props connection)
    (writable : Writable placed registry value) (isPlaced : placed fresh.newAddress)
    (represents : Represents registry props.hash dictionary)
    (wrote : storeWrite registry props connection key value coerceArrays fresh =
      some (some result)) :
    Represents result.registry result.props.hash
      (dictionary.perform
        (.put (key.map coerce) (writtenMeaning registry coerceArrays fresh value))) := by
  obtain ⟨storage, written, saved, member, after, _⟩ := storeWrite_eq wrote
  obtain ⟨extended, isWritable⟩ := writtenValue_writable ready.sound writable isPlaced written
  have stands := saveZval_standsFor isWritable saved
  rw [writtenValue_meaning written] at stands
  rw [after, bumpModcount_hash, member, represents.appendKey]
  exact (represents.extends extended ready.sturdy).update _ stands

theorem storeDelete_represents (key : KeyZval)
    (represents : Represents registry props.hash dictionary) :
    Represents registry (storeDelete props connection key).1.hash
      (dictionary.perform (.erase (coerce key))) := by
  have deleted := represents.delete (coerce key)
  rcases storeDelete_cases props connection key with ⟨absent, same⟩ | ⟨storage, _, _, rfl, same⟩
  · have unchanged : props.hash.delete (coerce key) = props.hash := by
      unfold HashTable.delete
      rw [OrderedTable.delete_of_absent (OrderedTable.find_eq_none_iff.mp absent)]
    rw [same]
    rwa [unchanged] at deleted
  · rw [same, bumpModcount_hash]
    exact deleted

/-- A value that is handed out has the meaning, or is null in the place of an object that
is gone. -/
def Delivers (registry : Registry) (value : Zval) (meaning : Option Meaning) : Prop :=
  value.meaning registry = meaning ∨
    (value = .null ∧ ∀ stood, meaning = some stood → ∃ object, stood = .threaded object)

/-- What a removal hands out on the thread; nothing is written for an enum case that the
thread has not loaded. -/
def DeliversTo (enumCases : EnumCases) (thread : Nat) (registry : Registry) (value : Option Zval)
    (meaning : Option Meaning) : Prop :=
  match value with
  | some written => Delivers registry written meaning
  | none => ∃ className memberName, meaning = some (.enumCase className memberName) ∧
      enumCases thread className memberName = false

/-- The shared table without the elements that the dictionary gives back. -/
structure HandsOut (enumCases : EnumCases) (thread : Nat) (removed : Removed)
    (dictionary : Dictionary) (operation : Operation) : Prop where
  represents : Represents removed.registry removed.props.hash (dictionary.perform operation)
  delivers : List.Forall₂
    (OrderedTable.RelatedEntry (DeliversTo enumCases thread removed.registry)) removed.values
    (dictionary.result operation)
  settled : ∀ element ∈ removed.values, ∀ value, element.2 = some value →
    SettledValue removed.registry value

theorem HandsOut.bump {thread : Nat} {removed : Removed} {operation : Operation}
    (handsOut : HandsOut enumCases thread removed dictionary operation) :
    HandsOut enumCases thread removed.bump dictionary operation := by
  constructor
  · rw [Removed.bump_hash]
    exact handsOut.represents
  · exact handsOut.delivers
  · exact handsOut.settled

/-- Null is restored in the place of an object that is gone. -/
theorem restoreZval_gone {thread : Nat} {fresh : Fresh} {storage : Storage} {value : Zval}
    {after : Registry} (settled : ∀ address, storage = .pthreads address →
      SettledAt registry address)
    (gone : storage.meaning registry = none)
    (restored : restoreZval enumCases registry thread fresh storage = some (after, value)) :
    value = .null := by
  obtain ⟨address, isHandle, absent⟩ := meaning_eq_none gone
  subst isHandle
  obtain ⟨⟨_, result⟩, connected, outcome⟩ := Option.map_eq_some_iff.mp restored
  rcases globalsObjectConnect_cases connected with ⟨_, rfl, rfl⟩ | ⟨source, _, found, _⟩
  · cases outcome
    rfl
  · have constructed := (settled address rfl source found).2
    have noObject : source.tsObj = none := by
      unfold tsObjAt at absent
      rwa [found] at absent
    rw [noObject] at constructed
    cases constructed

/-- An object that is there stays there while a value is restored. -/
theorem Restores.meaning_kept {after : Registry} {newAddress : Nat} {storage : Storage}
    {value : Zval} {meaning : Meaning} (restores : Restores registry after newAddress storage value)
    (settled : ∀ address, storage = .pthreads address → SettledAt registry address)
    (stood : storage.meaning registry = some meaning) :
    storage.meaning after = some meaning := by
  cases storage with
  | pthreads address =>
      obtain ⟨object, isObject, rfl⟩ := Option.map_eq_some_iff.mp stood
      obtain ⟨source, found, _⟩ := Option.bind_eq_some_iff.mp isObject
      obtain ⟨visible, constructed⟩ := settled address rfl source found
      have kept := restores.extended.kept address source found visible constructed
      rw [← stood]
      simp only [Storage.meaning, tsObjAt, kept, found]
  | _ => exact stood

theorem restoreZval_delivers {thread : Nat} {fresh : Fresh} {storage : Storage} {value : Zval}
    {after : Registry} {meaning : Option Meaning} (sound : Sound registry)
    (settled : ∀ address, storage = .pthreads address → SettledAt registry address)
    (stands : StandsFor registry storage meaning)
    (restored : restoreZval enumCases registry thread fresh storage = some (after, value)) :
    Delivers after value meaning := by
  cases stood : storage.meaning registry with
  | none =>
      have isNull := restoreZval_gone settled stood restored
      apply Or.inr
      apply And.intro isNull
      intro expected isMeaning
      rcases stands with same | ⟨_, object, isObject⟩
      · rw [stood, isMeaning] at same
        cases same
      · rw [isObject] at isMeaning
        exact ⟨object, (Option.some.inj isMeaning).symm⟩
  | some expected =>
      have restores := restoreZval_restores sound settled restored
      have kept := restores.meaning_kept settled stood
      have isMeaning : meaning = some expected := by
        rcases stands with same | ⟨nothing, _⟩
        · rw [← same, stood]
        · rw [stood] at nothing
          cases nothing
      obtain ⟨stored, isStored, gone | agrees⟩ := restores.agrees
      · cases isStored
        rw [kept] at gone
        cases gone
      · cases isStored
        rw [kept, ← isMeaning] at agrees
        exact Or.inl agrees

theorem restoreElement_delivers {thread : Nat} {fresh : Fresh} {storage : Storage}
    {value : Option Zval} {after : Registry} {meaning : Option Meaning} (sound : Sound registry)
    (settled : ∀ address, storage = .pthreads address → SettledAt registry address)
    (stands : StandsFor registry storage meaning)
    (restored : restoreElement enumCases registry thread fresh storage = some (after, value)) :
    DeliversTo enumCases thread after value meaning := by
  rcases restoreElement_cases restored with ⟨written, rfl, -, isRestored⟩ | ⟨rfl, rfl, cannot⟩
  · exact restoreZval_delivers sound settled stands isRestored
  · cases storage with
    | enumCase className memberName =>
        have missing : enumCases thread className memberName = false := by
          simpa [unloadable] using cannot
        rcases stands with same | ⟨nothing, _⟩
        · exact ⟨className, memberName, same.symm, missing⟩
        · cases nothing
    | _ => cases cannot

/-- One element is restored and removed. -/
theorem takeElement_handsOut {fresh : Key → Fresh} {entry : Key × Storage} {removed : Removed}
    {meaning : Option Meaning} (ready : Ready placed registry props connection)
    (isPlaced : placed (fresh entry.1).newAddress) (isIn : entry ∈ props.hash.table.entries)
    (represents : Represents registry props.hash dictionary)
    (stands : StandsFor registry entry.2 meaning)
    (taken : takeElement enumCases registry props connection fresh entry = some removed) :
    Represents removed.registry removed.props.hash (dictionary.perform (.erase entry.1)) ∧
      List.Forall₂ (OrderedTable.RelatedEntry
        (DeliversTo enumCases connection.owner removed.registry)) removed.values
        [(entry.1, meaning)] ∧
      ∀ element ∈ removed.values, ∀ value, element.2 = some value →
        SettledValue removed.registry value := by
  have touches := (takeElement_takes ready isPlaced isIn taken).touches
  have settled : ∀ address, entry.2 = .pthreads address → SettledAt registry address := by
    intro address isHandle
    have isStored := OrderedTable.find_eq_some_iff.mpr isIn
    exact (ready.sturdy entry.1 entry.2 isStored address isHandle).1
  obtain ⟨⟨restored, value⟩, isRestored, rfl⟩ := Option.map_eq_some_iff.mp taken
  have delivers := restoreElement_delivers ready.sound settled stands isRestored
  have restores := (restoreElement_restores ready.sound settled isRestored).2
  constructor
  · exact (represents.extends touches.extended ready.sturdy).delete entry.1
  · constructor
    · exact List.Forall₂.cons ⟨rfl, delivers⟩ List.Forall₂.nil
    · intro element isElement
      cases List.mem_singleton.mp isElement
      exact fun written isWritten => (restores written isWritten).settled

theorem Dictionary.takeFront_vacant (count : Nat) (vacant : dictionary.table.entries = []) :
    dictionary.perform (.takeFront count) = dictionary ∧
      dictionary.result (.takeFront count) = [] := by
  have same : dictionary.table.drop count = dictionary.table := by
    apply OrderedTable.eq_of_entries
    simp only [OrderedTable.drop, vacant, List.drop_nil]
  constructor
  · simp only [Dictionary.perform, same]
  · simp only [Dictionary.result, vacant, List.take_nil]

theorem Dictionary.takeFront_succ (count : Nat) :
    dictionary.perform (.takeFront (count + 1)) =
      (dictionary.perform (.takeFront 1)).perform (.takeFront count) := by
  have same : dictionary.table.drop (count + 1) = (dictionary.table.drop 1).drop count := by
    apply OrderedTable.eq_of_entries
    simp only [OrderedTable.drop, List.drop_drop]
    rw [Nat.add_comm]
  simp only [Dictionary.perform, same]

theorem deliversTo_extends {thread : Nat} {after : Registry} {value : Option Zval}
    {meaning : Option Meaning} (extended : Extends placed registry after)
    (delivers : DeliversTo enumCases thread registry value meaning)
    (settled : ∀ written, value = some written → SettledValue registry written) :
    DeliversTo enumCases thread after value meaning := by
  cases value with
  | none => exact delivers
  | some written =>
      have sameMeaning := extended.value_meaning (settled written rfl)
      have here : Delivers registry written meaning := delivers
      unfold Delivers at here
      rwa [← sameMeaning] at here

/-- What was delivered keeps its meaning while the next values are restored. -/
theorem delivers_extends {thread : Nat} {after : Registry}
    (extended : Extends placed registry after) {values : List (Key × Option Zval)}
    {meanings : List (Key × Option Meaning)}
    (delivers : List.Forall₂ (OrderedTable.RelatedEntry (DeliversTo enumCases thread registry))
      values meanings)
    (settled : ∀ element ∈ values, ∀ value, element.2 = some value →
      SettledValue registry value) :
    List.Forall₂ (OrderedTable.RelatedEntry (DeliversTo enumCases thread after)) values
      meanings := by
  induction delivers with
  | nil => exact List.Forall₂.nil
  | cons first _ ih =>
      have here := (deliversTo_extends extended first.2 (settled _ List.mem_cons_self))
      apply List.Forall₂.cons ⟨first.1, here⟩
      apply ih
      intro element isIn
      exact settled element (List.mem_cons_of_mem _ isIn)

theorem takeFront_handsOut {fresh : Key → Fresh} {count : Nat} {removed : Removed}
    (ready : Ready placed registry props connection)
    (isPlaced : ∀ key ∈ props.hash.table.keys, placed (fresh key).newAddress)
    (represents : Represents registry props.hash dictionary)
    (taken : takeFront enumCases registry props connection fresh count = some removed) :
    HandsOut enumCases connection.owner removed dictionary (.takeFront count) := by
  induction count generalizing registry props connection dictionary removed with
  | zero =>
      cases taken
      exact ⟨represents, List.Forall₂.nil, List.forall_mem_nil _⟩
  | succ count ih =>
      have table := represents.table
      unfold OrderedTable.Related at table
      rcases takeFront_succ_cases taken with ⟨vacant, rfl⟩ |
        ⟨entry, others, first, rest, entries, takenFirst, takenRest, rfl⟩
      · rw [vacant] at table
        have alsoVacant := (List.forall₂_nil_left_iff.mp table)
        obtain ⟨unchanged, nothing⟩ := Dictionary.takeFront_vacant (count + 1) alsoVacant
        constructor
        · rwa [unchanged]
        · rw [nothing]
          exact List.Forall₂.nil
        · exact List.forall_mem_nil _
      · have isIn : entry ∈ props.hash.table.entries := by
          rw [entries]
          exact List.mem_cons_self
        have placedFirst := isPlaced entry.1 (List.mem_map_of_mem isIn)
        rw [entries] at table
        obtain ⟨found, listed, isFirst, _, isEntries⟩ := List.forall₂_cons_left_iff.mp table
        obtain ⟨erased, delivered, settled⟩ :=
          takeElement_handsOut ready placedFirst isIn represents isFirst.2 takenFirst
        have sameStep : dictionary.perform (.erase entry.1) =
            dictionary.perform (.takeFront 1) := by
          simp only [Dictionary.perform, isFirst.1, OrderedTable.delete_head isEntries]
        rw [sameStep] at erased
        have takes := takeElement_takes ready placedFirst isIn takenFirst
        have readyRest := takes.touches.ready ready
        have placedRest : ∀ key ∈ first.props.hash.table.keys, placed (fresh key).newAddress := by
          obtain ⟨_, _, rfl⟩ := Option.map_eq_some_iff.mp takenFirst
          intro key isKey
          apply isPlaced key
          have isOther : key ∈ others.map Prod.fst := by
            rwa [OrderedTable.keys, delete_head entries] at isKey
          rw [OrderedTable.keys, entries]
          exact List.mem_cons_of_mem _ isOther
        have handsOut := ih readyRest placedRest erased takenRest
        have extended := (takeFront_takes readyRest placedRest takenRest).touches.extended
        constructor
        · rw [Dictionary.takeFront_succ]
          exact handsOut.represents
        · have isResult : dictionary.result (.takeFront (count + 1)) =
              [(entry.1, found.2)] ++ (dictionary.perform (.takeFront 1)).result
                (.takeFront count) := by
            simp only [Dictionary.result, Dictionary.perform, OrderedTable.drop, isEntries,
              isFirst.1, List.take_succ_cons, List.drop_succ_cons, List.drop_zero,
              List.singleton_append]
          have sameOwner := (takeElement_left takenFirst).2
          rw [isResult, ← sameOwner]
          rw [← sameOwner] at delivered
          exact List.rel_append (delivers_extends extended delivered settled) handsOut.delivers
        · intro element isElement
          rcases List.mem_append.mp isElement with isFirst | isLater
          · intro value isValue
            exact extended.settledValue (settled element isFirst value isValue)
          · exact handsOut.settled element isLater

theorem storeShift_handsOut {fresh : Key → Fresh} {removed : Removed}
    (ready : Ready placed registry props connection)
    (isPlaced : ∀ key ∈ props.hash.table.keys, placed (fresh key).newAddress)
    (represents : Represents registry props.hash dictionary)
    (shifted : storeShift enumCases registry props connection fresh = some removed) :
    HandsOut enumCases connection.owner removed dictionary (.takeFront 1) := by
  have table := represents.table
  unfold OrderedTable.Related at table
  rcases storeShift_cases shifted with ⟨vacant, rfl⟩ | ⟨entry, taken, isFirst, took, rfl⟩
  · rw [List.head?_eq_none_iff.mp vacant] at table
    obtain ⟨unchanged, nothing⟩ :=
      Dictionary.takeFront_vacant 1 (List.forall₂_nil_left_iff.mp table)
    constructor
    · rwa [unchanged]
    · rw [nothing]
      exact List.Forall₂.nil
    · exact List.forall_mem_nil _
  · obtain ⟨others, entries⟩ := List.head?_eq_some_iff.mp isFirst
    have isIn := List.mem_of_head? isFirst
    rw [entries] at table
    obtain ⟨found, listed, isFound, _, isEntries⟩ := List.forall₂_cons_left_iff.mp table
    obtain ⟨erased, delivered, settled⟩ := takeElement_handsOut ready
      (isPlaced entry.1 (List.mem_map_of_mem isIn)) isIn represents isFound.2 took
    apply HandsOut.bump
    constructor
    · simp only [Dictionary.perform, isFound.1, OrderedTable.delete_head isEntries] at erased
      exact erased
    · rw [isFound.1] at delivered
      simp only [Dictionary.result, isEntries, List.take_succ_cons, List.take_zero]
      exact delivered
    · exact settled

theorem storePop_handsOut {fresh : Key → Fresh} {removed : Removed}
    (ready : Ready placed registry props connection)
    (isPlaced : ∀ key ∈ props.hash.table.keys, placed (fresh key).newAddress)
    (represents : Represents registry props.hash dictionary)
    (popped : storePop enumCases registry props connection fresh = some removed) :
    HandsOut enumCases connection.owner removed dictionary .takeBack := by
  have table := represents.table
  unfold OrderedTable.Related at table
  rcases storePop_cases popped with ⟨vacant, rfl⟩ | ⟨entry, taken, isLast, took, rfl⟩
  · rw [List.getLast?_eq_none_iff.mp vacant] at table
    have alsoVacant := List.forall₂_nil_left_iff.mp table
    have same : dictionary.table.dropLast = dictionary.table := by
      apply OrderedTable.eq_of_entries
      simp only [OrderedTable.dropLast, alsoVacant, List.dropLast_nil]
    constructor
    · simp only [Dictionary.perform, same]
      exact represents
    · simp only [Dictionary.result, alsoVacant, List.getLast?_nil, Option.toList_none]
      exact List.Forall₂.nil
    · exact List.forall_mem_nil _
  · obtain ⟨front, entries⟩ := List.getLast?_eq_some_iff.mp isLast
    have isIn := List.mem_of_getLast? isLast
    rw [entries] at table
    obtain ⟨back, found, isEntries, isFound⟩ := OrderedTable.related_concat table
    obtain ⟨erased, delivered, settled⟩ := takeElement_handsOut ready
      (isPlaced entry.1 (List.mem_map_of_mem isIn)) isIn represents isFound.2 took
    apply HandsOut.bump
    constructor
    · simp only [Dictionary.perform, isFound.1, OrderedTable.delete_last isEntries] at erased
      exact erased
    · rw [isFound.1] at delivered
      simp only [Dictionary.result, isEntries, List.getLast?_concat, Option.toList_some]
      exact delivered
    · exact settled

theorem storeChunk_handsOut {fresh : Key → Fresh} {size : Int} {removed : Removed}
    (ready : Ready placed registry props connection)
    (isPlaced : ∀ key ∈ props.hash.table.keys, placed (fresh key).newAddress)
    (represents : Represents registry props.hash dictionary)
    (chunked : storeChunk enumCases registry props connection fresh size = some removed) :
    HandsOut enumCases connection.owner removed dictionary (.takeFront size.toNat) := by
  obtain ⟨taken, took, rfl⟩ := Option.map_eq_some_iff.mp chunked
  exact (takeFront_handsOut ready isPlaced represents took).bump

/-- A copied storage stands for what the original stands for. -/
theorem hardCopyStorage_meaning (pointer : Nat) (storage : Storage) :
    (hardCopyStorage pointer storage).meaning registry = storage.meaning registry := by
  cases storage with
  | string text =>
      simp only [hardCopyStorage, saveString, Storage.meaning]
      split <;> rfl
  | stringPtr text owner =>
      simp only [hardCopyStorage, saveString, Storage.meaning]
      split <;> rfl
  | _ => rfl

theorem mergeStorage_represents (overwrite : Bool) (pointers : Key → Nat) (merged : Merged)
    (entry : Key × Storage) (represents : Represents registry merged.props.hash dictionary) :
    Represents registry (mergeStorage overwrite pointers merged entry).props.hash
      (dictionary.perform
        (.merge overwrite entry.1 entry.1 (entry.2.meaning registry))) := by
  have samePresence : (merged.props.hash.find entry.1).isSome =
      (dictionary.table.find entry.1).isSome := represents.table.find entry.1
  simp only [mergeStorage, Dictionary.perform, samePresence]
  split
  · exact represents
  · apply represents.update
    exact Or.inl (hardCopyStorage_meaning _ _)

theorem storeMergeThreaded_represents (source : List (Key × Storage)) (overwrite : Bool)
    (pointers : Key → Nat) (represents : Represents registry props.hash dictionary) :
    Represents registry (storeMergeThreaded props connection source overwrite pointers).props.hash
      ((source.map fun entry => Operation.merge overwrite entry.1 entry.1
        (entry.2.meaning registry)).foldl Dictionary.perform dictionary) := by
  have folded : ∀ (merged : Merged) (dictionary : Dictionary),
      Represents registry merged.props.hash dictionary →
      Represents registry (source.foldl (mergeStorage overwrite pointers) merged).props.hash
        ((source.map fun entry => Operation.merge overwrite entry.1 entry.1
          (entry.2.meaning registry)).foldl Dictionary.perform dictionary) := by
    induction source with
    | nil => exact fun _ _ represents => represents
    | cons entry source ih =>
        intro merged dictionary represents
        apply ih
        exact mergeStorage_represents overwrite pointers merged entry represents
  simp only [storeMergeThreaded, bumpModcount_hash]
  exact folded ⟨props, connection, false, []⟩ dictionary represents

theorem writeAndFinish_represents {state result : WrittenAll} {key : KeyZval} {value : Zval}
    {coerceArrays : Bool} {fresh : Fresh}
    (ready : Ready placed state.registry state.props state.connection)
    (writable : Writable placed state.registry value) (isPlaced : placed fresh.newAddress)
    (represents : Represents state.registry state.props.hash dictionary)
    (wrote : writeAndFinish declared state key value coerceArrays fresh = some (some result)) :
    Represents result.registry result.props.hash
      (dictionary.put (coerce key) (writtenMeaning state.registry coerceArrays fresh value)) := by
  obtain ⟨outcome, written, isResult⟩ := Option.map_eq_some_iff.mp wrote
  cases outcome with
  | none => cases isResult
  | some written' =>
      cases isResult
      exact storeWrite_represents ready writable isPlaced represents written

/-- The elements that can be stored are merged one after the other. -/
theorem storeMergeArray_represents {overwrite coerceArrays : Bool} {fresh : Key → Fresh}
    {source : List (Key × Zval)} {state result : WrittenAll} (accepted : Key × Zval → Bool)
    (meaningOf : Key × Zval → Option Meaning)
    (ready : Ready placed state.registry state.props state.connection)
    (writable : WritableSource placed state.registry fresh source)
    (isAccepted : ∀ element ∈ source,
      accepts state.registry coerceArrays element.2 = accepted element)
    (isMeaning : ∀ element ∈ source,
      writtenMeaning state.registry coerceArrays (fresh element.1) element.2 = meaningOf element)
    (represents : Represents state.registry state.props.hash dictionary)
    (merged : storeMergeArray declared overwrite coerceArrays fresh source state = some result) :
    Represents result.registry result.props.hash
      (((source.filter accepted).map fun element => Operation.merge overwrite element.1
        (coerce element.1.toZval) (meaningOf element)).foldl Dictionary.perform dictionary) := by
  induction source generalizing state dictionary with
  | nil =>
      cases merged
      exact represents
  | cons element source ih =>
      obtain ⟨writableHead, writableRest⟩ := List.forall_mem_cons.mp writable
      obtain ⟨acceptedHead, acceptedRest⟩ := List.forall_mem_cons.mp isAccepted
      obtain ⟨meaningHead, meaningRest⟩ := List.forall_mem_cons.mp isMeaning
      have samePresence : (state.props.hash.find element.1).isSome =
          (dictionary.table.find element.1).isSome := represents.table.find element.1
      simp only [storeMergeArray] at merged
      split at merged
      · rename_i skipped
        have unchanged : dictionary.perform (.merge overwrite element.1 (coerce element.1.toZval)
            (meaningOf element)) = dictionary := by
          rw [samePresence] at skipped
          exact if_pos skipped
        have rest := ih ready writableRest acceptedRest meaningRest represents merged
        rw [List.filter_cons]
        split
        · rw [List.map_cons, List.foldl_cons, unchanged]
          exact rest
        · exact rest
      · rename_i written
        simp only [Option.bind_eq_bind, Option.bind_eq_some_iff] at merged
        obtain ⟨outcome, wrote, merged⟩ := merged
        rw [writeAndFinish_accepts wrote] at acceptedHead
        cases outcome with
        | none =>
            rw [List.filter_cons_of_neg (by rw [← acceptedHead]; exact Bool.false_ne_true)]
            exact ih ready writableRest acceptedRest meaningRest represents merged
        | some one =>
            have writes : WritesEffect declared placed (fun _ => True) state one :=
              writeAndFinish_writes ready writableHead.1 writableHead.2 wrote
                fun _ _ _ => trivial
            have put := writeAndFinish_represents ready writableHead.1 writableHead.2 represents
              wrote
            have performed : dictionary.perform (.merge overwrite element.1
                (coerce element.1.toZval) (meaningOf element)) =
                  dictionary.put (coerce element.1.toZval) (meaningOf element) := by
              rw [samePresence] at written
              exact if_neg written
            obtain ⟨_, _, _, effect⟩ := writes.effect
            rw [List.filter_cons_of_pos acceptedHead.symm, List.map_cons, List.foldl_cons,
              performed]
            rw [meaningHead] at put
            apply ih (writes.ready ready) (writes.writableSource writableRest) _ _ put merged
            · intro other isIn
              rw [accepts_extends effect.extended coerceArrays (writableRest other isIn).1.settled]
              exact acceptedRest other isIn
            · intro other isIn
              rw [writtenMeaning_extends effect.extended coerceArrays _
                (writableRest other isIn).1.settled]
              exact meaningRest other isIn

/-- The defaults that can be stored are put. -/
theorem baseInit_represents {fresh : Key → Fresh} {defaults : List (Key × Zval)}
    {state result : WrittenAll} (accepted : Key × Zval → Bool)
    (meaningOf : Key × Zval → Option Meaning)
    (ready : Ready placed state.registry state.props state.connection)
    (writable : WritableSource placed state.registry fresh defaults)
    (isAccepted : ∀ element ∈ defaults,
      accepts state.registry false element.2 = accepted element)
    (isMeaning : ∀ element ∈ defaults,
      writtenMeaning state.registry false (fresh element.1) element.2 = meaningOf element)
    (represents : Represents state.registry state.props.hash dictionary)
    (built : baseInit declared fresh defaults state = some result) :
    Represents result.registry result.props.hash
      (((defaults.filter accepted).map fun element =>
        Operation.put (some (coerce element.1.toZval)) (meaningOf element)).foldl
          Dictionary.perform dictionary) := by
  induction defaults generalizing state dictionary with
  | nil =>
      cases built
      exact represents
  | cons element defaults ih =>
      obtain ⟨writableHead, writableRest⟩ := List.forall_mem_cons.mp writable
      obtain ⟨acceptedHead, acceptedRest⟩ := List.forall_mem_cons.mp isAccepted
      obtain ⟨meaningHead, meaningRest⟩ := List.forall_mem_cons.mp isMeaning
      simp only [baseInit, Option.bind_eq_bind, Option.bind_eq_some_iff] at built
      obtain ⟨outcome, wrote, built⟩ := built
      rw [writeAndFinish_accepts wrote] at acceptedHead
      cases outcome with
      | none =>
          rw [List.filter_cons_of_neg (by rw [← acceptedHead]; exact Bool.false_ne_true)]
          exact ih ready writableRest acceptedRest meaningRest represents built
      | some one =>
          have writes : WritesEffect declared placed (fun _ => True) state one :=
            writeAndFinish_writes ready writableHead.1 writableHead.2 wrote fun _ _ _ => trivial
          have put := writeAndFinish_represents ready writableHead.1 writableHead.2 represents
            wrote
          obtain ⟨_, _, _, effect⟩ := writes.effect
          rw [List.filter_cons_of_pos acceptedHead.symm, List.map_cons, List.foldl_cons]
          rw [meaningHead] at put
          apply ih (writes.ready ready) (writes.writableSource writableRest) _ _ put built
          · intro other isIn
            rw [accepts_extends effect.extended false (writableRest other isIn).1.settled]
            exact acceptedRest other isIn
          · intro other isIn
            rw [writtenMeaning_extends effect.extended false _
              (writableRest other isIn).1.settled]
            exact meaningRest other isIn

end Operations

/-- The action leaves no outdated handle behind. -/
def KeepsHandles (state : State) (action : Action) : Prop :=
  state.handlesKept action = true

instance (state : State) (action : Action) : Decidable (KeepsHandles state action) :=
  inferInstanceAs (Decidable (_ = _))

section Steps

variable {state after : State} {action : Action} {dictionary : Dictionary}

theorem write_grounded {connection : Nat} {key : Option KeyZval} {value : Zval}
    {coerceArrays : Bool} {fresh : Fresh} (grounded : Grounded state)
    (kept : KeepsHandles state (.write connection key value coerceArrays fresh))
    (stepped : step state (.write connection key value coerceArrays fresh) = some after) :
    Grounded after := by
  obtain ⟨found, idle, isUsable, ⟨_, rfl⟩ | ⟨written, wrote, rfl⟩⟩ := write_eq stepped
  · exact grounded
  · have isPlaced : state.placed (.write connection key value coerceArrays fresh)
        fresh.newAddress := by simp [State.placed, State.placements]
    have effect : Effect state.declared _ (fun _ => True) state.registry state.props found
        written.registry written.props written.connection _ :=
      storeWrite_effect (grounded.ready kept idle)
        (writable_of_kept kept (by simp [Action.values]) isUsable) isPlaced wrote
        fun _ _ _ => trivial
    exact effect.grounded grounded effect.counts

/-- The elements of the source may be written. -/
theorem writableSource_of_kept {defaults : List (Key × Zval)} {fresh : Key → Fresh} {thread : Nat}
    (kept : KeepsHandles state action) (values : action.values = defaults.map Prod.snd)
    (placements : state.placements action =
      defaults.map fun element => (fresh element.1).newAddress)
    (isUsable : ∀ element ∈ defaults, usable state.registry thread element.2 = true) :
    WritableSource (state.placed action) state.registry fresh defaults := by
  intro element isIn
  constructor
  · apply writable_of_kept kept _ (isUsable element isIn)
    rw [values]
    exact List.mem_map_of_mem isIn
  · unfold State.placed
    rw [placements]
    exact List.mem_map_of_mem isIn

theorem mergeArray_grounded {connection : Nat} {source : List (Key × Zval)}
    {overwrite coerceArrays : Bool} {fresh : Key → Fresh} (grounded : Grounded state)
    (kept : KeepsHandles state (.mergeArray connection source overwrite coerceArrays fresh))
    (stepped : step state (.mergeArray connection source overwrite coerceArrays fresh) =
      some after) : Grounded after := by
  obtain ⟨found, merged, idle, isUsable, isMerged, rfl⟩ := mergeArray_eq stepped
  have tidy : Tidy (fun _ => True) coerceArrays found source := fun _ _ _ => Or.inl trivial
  have writes := storeMergeArray_writes (grounded.ready kept idle)
    (writableSource_of_kept kept rfl rfl isUsable) tidy isMerged
  obtain ⟨added, isAdded, _, effect⟩ := writes.effect
  cases isAdded
  exact effect.grounded grounded effect.counts

/-- What the dictionary needs of the state holds after every step that keeps the handles,
whatever becomes of the caches. -/
theorem step_grounded (grounded : Grounded state) (kept : KeepsHandles state action)
    (stepped : step state action = some after) : Grounded after := by
  have otherwise : state.writerNotMisled action = true → Grounded after := by
    intro notMisled
    have trusted : state.trustworthy true action = true :=
      Bool.and_eq_true_iff.mpr ⟨kept, notMisled⟩
    exact (step_outcome grounded trusted stepped).grounded grounded kept
  cases action with
  | write => exact write_grounded grounded kept stepped
  | mergeArray => exact mergeArray_grounded grounded kept stepped
  | _ => exact otherwise rfl

/-- An operation that only reads may connect to other objects. -/
theorem Represents.ofReading (declared : List Key) {placed : Nat → Prop}
    {registry after : Registry} {props : Props} {connection updated : Connection}
    (represents : Represents registry props.hash dictionary)
    (ready : Ready placed registry props connection)
    (effect : Effect declared placed (fun _ => True) registry props connection after props updated
      []) : Represents after props.hash dictionary :=
  represents.extends effect.extended ready.sturdy

/-- Every step does to the dictionary what its action asks for. -/
theorem step_represents (grounded : Grounded state) (kept : KeepsHandles state action)
    (represents : Represents state.registry state.props.hash dictionary)
    (stepped : step state action = some after) :
    Represents after.registry after.props.hash
      ((state.operations action).foldl Dictionary.perform dictionary) := by
  have allPlaced : ∀ fresh : Key → Fresh, state.placements action =
      (state.props.hash.table.keys.map fun key => (fresh key).newAddress) →
      ∀ key ∈ state.props.hash.table.keys, state.placed action (fresh key).newAddress := by
    intro fresh places key isKey
    rw [State.placed, places]
    exact List.mem_map_of_mem isKey
  cases action with
  | construct connection owner defaults fresh =>
      obtain ⟨isVacant, isUsable, built, isBuilt, rfl⟩ := construct_eq stepped
      have ready : Ready (state.placed (.construct connection owner defaults fresh)) state.registry
          state.props ⟨owner, none, 0, none⟩ := by
        constructor
        · exact grounded.sound
        · exact grounded.sturdy kept
        · rintro value (⟨table, key, ⟨⟩, _⟩ | ⟨key, ⟨⟩⟩)
        · simp [grounded.vacant isVacant, storeInit]
        · rfl
      exact baseInit_represents (fun element => accepts state.registry false element.2)
        (fun element => writtenMeaning state.registry false (fresh element.1) element.2)
        ready (writableSource_of_kept kept rfl rfl isUsable)
        (fun _ _ => rfl) (fun _ _ => rfl) represents isBuilt
  | connect connection owner hasTable =>
      obtain ⟨_, _, rfl⟩ := connect_eq stepped
      exact represents
  | disconnect connection pointers =>
      obtain ⟨found, _, rfl⟩ := Option.map_eq_some_iff.mp stepped
      simp only [State.operations, State.disconnect]
      split
      · exact represents_empty state.registry
      · exact represents.persist found.owner pointers
  | read connection key type fresh =>
      obtain ⟨found, registry, updated, outcome, idle, read, rfl⟩ := read_eq stepped
      have isPlaced : state.placed (.read connection key type fresh) fresh.newAddress := by
        simp [State.placed, State.placements]
      exact represents.ofReading state.declared (grounded.ready kept idle)
        (storeRead_effect (grounded.ready kept idle) isPlaced read).1
  | write connection key value coerceArrays fresh =>
      obtain ⟨found, idle, isUsable, wrote⟩ := write_eq stepped
      have isPlaced : state.placed (.write connection key value coerceArrays fresh)
        fresh.newAddress := by simp [State.placed, State.placements]
      rcases wrote with ⟨refused, rfl⟩ | ⟨written, wrote, rfl⟩
      · have notAccepted := storeWrite_accepts refused
        simp only [State.operations, notAccepted, Option.isSome_none, Bool.false_eq_true,
          if_false]
        exact represents
      · have isAccepted := storeWrite_accepts wrote
        simp only [State.operations, isAccepted, Option.isSome_some, if_true]
        exact storeWrite_represents (grounded.ready kept idle)
          (writable_of_kept kept (by simp [Action.values]) isUsable) isPlaced represents wrote
  | delete connection key =>
      obtain ⟨found, _, rfl⟩ := delete_eq stepped
      exact storeDelete_represents key represents
  | shift connection fresh =>
      obtain ⟨found, removed, idle, isRemoved, rfl⟩ := remove_eq stepped
      exact (storeShift_handsOut (grounded.ready kept idle) (allPlaced fresh rfl) represents
        isRemoved).represents
  | pop connection fresh =>
      obtain ⟨found, removed, idle, isRemoved, rfl⟩ := remove_eq stepped
      exact (storePop_handsOut (grounded.ready kept idle) (allPlaced fresh rfl) represents
        isRemoved).represents
  | chunk connection size fresh =>
      obtain ⟨found, removed, idle, isRemoved, rfl⟩ := remove_eq stepped
      exact (storeChunk_handsOut (grounded.ready kept idle) (allPlaced fresh rfl) represents
        isRemoved).represents
  | mergeThreaded connection source overwrite pointers =>
      obtain ⟨found, merged, _, rfl, rfl⟩ := mergeThreaded_eq stepped
      exact storeMergeThreaded_represents source overwrite pointers represents
  | mergeArray connection source overwrite coerceArrays fresh =>
      obtain ⟨found, merged, idle, isUsable, isMerged, rfl⟩ := mergeArray_eq stepped
      exact storeMergeArray_represents
        (fun element => accepts state.registry coerceArrays element.2)
        (fun element => writtenMeaning state.registry coerceArrays (fresh element.1) element.2)
        (grounded.ready kept idle) (writableSource_of_kept kept rfl rfl isUsable)
        (fun _ _ => rfl) (fun _ _ => rfl) represents isMerged
  | toHash connection hash fresh =>
      obtain ⟨found, registry, updated, table, idle, copy, rfl⟩ := toHash_eq stepped
      have ready := grounded.ready kept idle
      exact represents.ofReading state.declared ready
        (storeToHash_effect ready (allPlaced fresh rfl) copy).1
  | toOwnHash connection fresh =>
      obtain ⟨found, registry, updated, idle, copy, rfl⟩ := toOwnHash_eq stepped
      have ready := grounded.ready kept idle
      exact represents.ofReading state.declared ready
        (storeToOwnHash_effect ready (allPlaced fresh rfl) copy).1
  | fullSync connection fresh =>
      obtain ⟨found, registry, updated, idle, synced, rfl⟩ := fullSync_eq stepped
      have ready := grounded.ready kept idle
      exact represents.ofReading state.declared ready
        (fullSyncLocalProperties_effect ready (allPlaced fresh rfl) synced)
  | persist connection pointers =>
      obtain ⟨found, _, rfl⟩ := Option.map_eq_some_iff.mp stepped
      exact represents.persist found.owner pointers
  | finish connection =>
      obtain ⟨found, _, rfl⟩ := Option.map_eq_some_iff.mp stepped
      exact represents
  | registry other =>
      obtain ⟨_, stepped⟩ := Option.ite_none_right_eq_some.mp stepped
      obtain ⟨registry, moved, rfl⟩ := Option.map_eq_some_iff.mp stepped
      apply represents.later
      intro key storage isStored
      exact storage_meaning_of_sturdy moved (grounded.sturdy kept key storage isStored)
  | loadEnum thread className memberName =>
      cases stepped
      exact represents

end Steps

/-- What the actions of a run ask of the dictionary, in the order in which they take effect. -/
def performed : State → List Action → List Operation
  | _, [] => []
  | state, action :: actions =>
      state.operations action ++
        match step state action with
        | none => []
        | some after => performed after actions

section Runs

variable {declared : List Key} {actions : List Action} {state : State}

theorem run_represents {first : State} {dictionary : Dictionary}
    (admitted : Admits step KeepsHandles first actions)
    (executed : execute step first actions = some state) (grounded : Grounded first)
    (represents : Represents first.registry first.props.hash dictionary) :
    Grounded state ∧ Represents state.registry state.props.hash
      ((performed first actions).foldl Dictionary.perform dictionary) := by
  induction actions generalizing first dictionary with
  | nil =>
      cases executed
      exact ⟨grounded, represents⟩
  | cons action actions ih =>
      obtain ⟨kept, later⟩ := admitted
      simp only [execute] at executed
      cases stepped : step first action with
      | none =>
          rw [stepped] at executed
          cases executed
      | some next =>
          rw [stepped] at executed later
          have nextGrounded := step_grounded grounded kept stepped
          have nextRepresents := step_represents grounded kept represents stepped
          have rest := ih later executed nextGrounded nextRepresents
          simpa only [performed, stepped, List.foldl_append] using rest

theorem grounded_initial (declared : List Key) : Grounded (initial declared) :=
  (trusted_initial true declared).grounded

/-- Whatever the threads do through their connections, the shared table of a Threaded object
represents the dictionary on which their operations have taken effect in the order in which
they held the monitor. -/
theorem store_refines_dictionary (admitted : Admits step KeepsHandles (initial declared) actions)
    (executed : execute step (initial declared) actions = some state) :
    Represents state.registry state.props.hash
      ((performed (initial declared) actions).foldl Dictionary.perform Dictionary.empty) :=
  (run_represents admitted executed (grounded_initial declared)
    (represents_empty ObjectRegistry.initial)).2

/-- Through every connection, `shift`, `pop` and `chunk` hand out what the dictionary gives
back, which is the same for all of them, except for the enum cases that the thread has not
loaded. -/
theorem removals_hand_out (admitted : Admits step KeepsHandles (initial declared) actions)
    (executed : execute step (initial declared) actions = some state) {connection : Nat}
    {found : Connection} (idle : state.idle connection = some found) {fresh : Key → Fresh}
    (kept : KeepsHandles state (.shift connection fresh)) (removed : Removed) (size : Int) :
    let dictionary :=
      (performed (initial declared) actions).foldl Dictionary.perform Dictionary.empty
    (storeShift state.enumCases state.registry state.props found fresh = some removed →
      HandsOut state.enumCases found.owner removed dictionary (.takeFront 1)) ∧
    (storePop state.enumCases state.registry state.props found fresh = some removed →
      HandsOut state.enumCases found.owner removed dictionary .takeBack) ∧
    (storeChunk state.enumCases state.registry state.props found fresh size = some removed →
      HandsOut state.enumCases found.owner removed dictionary (.takeFront size.toNat)) := by
  obtain ⟨grounded, represents⟩ := run_represents admitted executed (grounded_initial declared)
    (represents_empty ObjectRegistry.initial)
  have ready := grounded.ready kept idle
  have isPlaced : ∀ key ∈ state.props.hash.table.keys,
      state.placed (.shift connection fresh) (fresh key).newAddress := by
    intro key isKey
    exact List.mem_map_of_mem isKey
  exact ⟨storeShift_handsOut ready isPlaced represents, storePop_handsOut ready isPlaced represents,
    storeChunk_handsOut ready isPlaced represents⟩

/-- Two threads append, one overwrites what the other has cached, and one shifts. -/
def appendAndShift : List Action :=
  [.construct 1 1 [] (fun _ => noFresh), .connect 2 2 false,
    .write 1 none (.long 7) false noFresh, .finish 1,
    .write 2 none (.string ⟨1, [97], true⟩) false noFresh, .finish 2,
    .read 1 (.long 1) .read noFresh, .finish 1,
    .write 2 (some (.string [49])) (.string ⟨2, [98], true⟩) false noFresh, .finish 2,
    .shift 1 (fun _ => noFresh)]

/-- The element that is left is what the second thread has written over its own. -/
theorem store_refines_dictionary_appendAndShift :
    ∃ state, execute step (initial []) appendAndShift = some state ∧
      performed (initial []) appendAndShift =
        [.put none (some (.long 7)), .put none (some (.string [97])),
          .put (some (.long 1)) (some (.string [98])), .takeFront 1] ∧
      Represents state.registry state.props.hash
        ((performed (initial []) appendAndShift).foldl Dictionary.perform Dictionary.empty) := by
  have admitted : Admits step KeepsHandles (initial []) appendAndShift := by decide
  exact ⟨_, rfl, rfl, store_refines_dictionary admitted rfl⟩

/-- The other thread may take the last element too. -/
theorem removals_hand_out_appendAndShift :
    ∃ state found removed, execute step (initial []) appendAndShift = some state ∧
      state.idle 2 = some found ∧
      storePop state.enumCases state.registry state.props found (fun _ => noFresh) =
        some removed ∧
      removed.values = [(.long 1, some (.string ⟨2, [98], true⟩))] ∧
      HandsOut state.enumCases found.owner removed
        ((performed (initial []) appendAndShift).foldl Dictionary.perform Dictionary.empty)
        .takeBack := by
  have admitted : Admits step KeepsHandles (initial []) appendAndShift := by decide
  have run : ∃ state found removed, execute step (initial []) appendAndShift = some state ∧
      state.idle 2 = some found ∧
      storePop state.enumCases state.registry state.props found (fun _ => noFresh) =
        some removed ∧
      removed.values = [(.long 1, some (.string ⟨2, [98], true⟩))] ∧
      KeepsHandles state (.shift 2 fun _ => noFresh) := ⟨_, _, _, rfl, rfl, rfl, rfl, rfl⟩
  obtain ⟨state, found, removed, executed, idle, popped, values, kept⟩ := run
  have handsOut := removals_hand_out admitted executed idle kept removed 0
  exact ⟨state, found, removed, executed, idle, popped, values, handsOut.2.1 popped⟩

end Runs

end Pthreads.Store
