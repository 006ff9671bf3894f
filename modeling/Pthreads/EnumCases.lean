import Pthreads.ClassIsolation

/-!
# The cases of inherited enums

`pthreads_copy_entry` copies the table of the cases by their backing values, and
`prepare_class_constants` replaces an element for each case that the source has resolved.
This file shows that the enum of the receiving thread has the same cases as that of the
source, in the same order and under the same backing values.
-/

namespace Pthreads.ClassStrings

open ValueCopies PartialFolds GuardedRuns

/-- The name of the case that `from` finds for a backing value. -/
def caseOf (table : List (Key × ZString)) (content : Int ⊕ Bytes) : Option Bytes :=
  (table.find? fun bucket => keyContent bucket.1 = content).map fun bucket => bucket.2.bytes

/-- The table has each resolved case under its backing value. -/
def ClassSource.Coherent {Address : Type} (candidate : ClassSource Address) : Prop :=
  ∀ bucket ∈ candidate.constants, ∀ backing,
    bucket.2.value = .resolvedCase (some backing) →
      ∃ table, candidate.backedEnumTable = some table ∧
        caseOf table backing.content = some bucket.1.bytes

/-- The expression from which the engine makes an enum case. -/
def MakesCase {Address : Type} (value : Copied Address) (className caseName : Bytes)
    (content : Option (Int ⊕ Bytes)) : Prop :=
  ∃ copiedClass copiedName backing, value = createEnumCaseAst copiedClass copiedName backing ∧
    copiedClass.bytes = className ∧ copiedName.bytes = caseName ∧
    backing.map Backing.content = content

/-- A constant of the receiving thread has the name of the source's, and is the same case
if that is a case. -/
def ConstantKept {Address : Type} (className : Bytes)
    (original : ZString × ClassConstant (ConstantValue Address) (Constant Address))
    (copied : ZString × ClassConstant (Copied Address) (Copied Address)) : Prop :=
  copied.1.bytes = original.1.bytes ∧
    ∀ backing, original.2.value = .resolvedCase backing →
      MakesCase copied.2.value className original.1.bytes (backing.map Backing.content)

section Tables

variable {receiver : Receiver}

theorem keyContent_key (backing : Backing) : keyContent backing.key = backing.content := by
  cases backing <;> rfl

theorem caseOf_prepareBackedEnumTable (table : List (Key × ZString)) :
    caseOf (prepareBackedEnumTable receiver table) = caseOf table := by
  funext content
  unfold caseOf prepareBackedEnumTable
  rw [List.find?_map, Option.map_map]
  apply congrArg (fun name => Option.map name _)
  funext bucket
  exact bytes_copyString bucket.2

/-- Replacing a case changes what is found for its own backing value only. -/
theorem caseOf_replaceCase (name : ZString) (backing : Backing) (table : List (Key × ZString))
    (content : Int ⊕ Bytes) :
    caseOf (replaceCase name backing table) content =
      if content = backing.content then some name.bytes else caseOf table content := by
  unfold caseOf replaceCase
  rw [List.find?_append]
  split
  · rename_i isOwn
    subst isOwn
    have removed : (table.filter fun bucket => keyContent bucket.1 ≠ backing.content).find?
        (fun bucket => keyContent bucket.1 = backing.content) = none := by
      apply List.find?_eq_none.mpr
      intro bucket isKept
      have other := (List.mem_filter.mp isKept).2
      simpa using other
    rw [removed, Option.none_or, List.find?_cons_of_pos (by simp [keyContent_key])]
    rfl
  · rename_i other
    have notAdded : [(backing.key, name)].find?
        (fun bucket : Key × ZString => keyContent bucket.1 = content) = none := by
      apply List.find?_eq_none.mpr
      intro bucket isAdded
      rw [List.mem_singleton.mp isAdded, keyContent_key]
      simpa using fun same => other same.symm
    have sameTest : ∀ bucket : Key × ZString,
        (decide (keyContent bucket.1 ≠ backing.content) && decide (keyContent bucket.1 = content)) =
          decide (keyContent bucket.1 = content) := by
      intro bucket
      by_cases isContent : keyContent bucket.1 = content
      · simp [isContent, other]
      · simp [isContent]
    rw [notAdded, Option.or_none, List.find?_filter]
    simp only [Bool.decide_eq_true, Bool.decide_and, sameTest]

end Tables

section Steps

variable {Address : Type} {receiver : Receiver} {candidate : ClassSource Address}

/-- What holds of a prepared class when some constants have been added. -/
structure CasesKept (candidate : ClassSource Address)
    (visited : List (ZString × ClassConstant (ConstantValue Address) (Constant Address)))
    (prepared : PreparedClass Address) : Prop where
  name : prepared.name.bytes = candidate.name.bytes
  table : prepared.backedEnumTable.map caseOf = candidate.backedEnumTable.map caseOf
  constants : List.Forall₂ (ConstantKept candidate.name.bytes) visited prepared.constants

theorem names_of_constantKept {className : Bytes}
    {originals : List (ZString × ClassConstant (ConstantValue Address) (Constant Address))}
    {constants : List (ZString × ClassConstant (Copied Address) (Copied Address))}
    (kept : List.Forall₂ (ConstantKept className) originals constants) :
    (constants.map fun bucket => bucket.1.bytes) =
      originals.map fun bucket => bucket.1.bytes := by
  induction kept with
  | nil => rfl
  | cons isKept _ ih => rw [List.map_cons, List.map_cons, ih, isKept.1]

theorem CasesKept.names
    {visited : List (ZString × ClassConstant (ConstantValue Address) (Constant Address))}
    {prepared : PreparedClass Address} (kept : CasesKept candidate visited prepared) :
    (prepared.constants.map fun bucket => bucket.1.bytes) =
      visited.map fun bucket => bucket.1.bytes :=
  names_of_constantKept kept.constants

theorem CasesKept.present
    {visited : List (ZString × ClassConstant (ConstantValue Address) (Constant Address))}
    {prepared : PreparedClass Address} (kept : CasesKept candidate visited prepared)
    {constant : ZString × ClassConstant (ConstantValue Address) (Constant Address)}
    (isVisited : constant ∈ visited) : Present prepared constant.1.bytes := by
  have isName : constant.1.bytes ∈ prepared.constants.map fun bucket => bucket.1.bytes := by
    rw [kept.names]
    exact List.mem_map_of_mem isVisited
  obtain ⟨bucket, isBucket, sameName⟩ := List.mem_map.mp isName
  exact ⟨bucket, isBucket, sameName⟩

theorem caseOf_caseTable (coherent : candidate.Coherent)
    {constant : ZString × ClassConstant (ConstantValue Address) (Constant Address)}
    (isConstant : constant ∈ candidate.constants) {table : Option (List (Key × ZString))}
    (same : table.map caseOf = candidate.backedEnumTable.map caseOf) :
    (caseTable receiver (copyString receiver constant.1) constant.2.value table).map caseOf =
      candidate.backedEnumTable.map caseOf := by
  unfold caseTable
  split
  · rename_i backing isCase
    obtain ⟨cases, hasTable, isFound⟩ := coherent constant isConstant backing isCase
    rw [hasTable] at same ⊢
    obtain ⟨preparedCases, hasPrepared, sameCases⟩ := Option.map_eq_some_iff.mp same
    rw [hasPrepared, Option.map_some, Option.map_some, Option.map_some]
    apply congrArg some
    funext content
    rw [caseOf_replaceCase, content_copyBacking, bytes_copyString, sameCases]
    split
    · rename_i isOwn
      rw [isOwn, isFound]
    · rfl
  · exact same

variable {call : Memo Address → (task : ValueCopies.Task Address) →
  Option (Memo Address × task.Result)}

theorem copyEntry_kept {comments : Bool} {memo after : Memo Address}
    {prepared : PreparedClass Address}
    (done : copyEntry receiver comments call memo candidate = some (after, prepared)) :
    CasesKept candidate [] prepared := by
  obtain ⟨attributes, _, isAfter⟩ := Option.map_eq_some_iff.mp done
  cases isAfter
  constructor
  · exact bytes_copyString candidate.name
  · have sameCases : (fun table => caseOf (prepareBackedEnumTable receiver table)) = caseOf := by
      funext table
      exact caseOf_prepareBackedEnumTable table
    rw [Option.map_map]
    exact congrArg (fun read => Option.map read candidate.backedEnumTable) sameCases
  · exact List.Forall₂.nil

theorem copyConstantValue_kept {memo after : Memo Address} {className name : ZString}
    {value : ConstantValue Address} {copied : Copied Address}
    (done : copyConstantValue receiver call memo className name value = some (after, copied))
    {backing : Option Backing} (isCase : value = .resolvedCase backing) :
    MakesCase copied className.bytes name.bytes (backing.map Backing.content) := by
  subst isCase
  cases done
  apply Exists.intro className
  apply Exists.intro name
  apply Exists.intro (backing.map (copyBacking receiver))
  have sameContent : (backing.map (copyBacking receiver)).map Backing.content =
      backing.map Backing.content := by
    cases backing with
    | none => rfl
    | some backing => exact congrArg some (content_copyBacking backing)
  exact ⟨rfl, rfl, rfl, sameContent⟩

theorem prepareConstant_kept (coherent : candidate.Coherent)
    {visited others : List (ZString × ClassConstant (ConstantValue Address) (Constant Address))}
    {constant : ZString × ClassConstant (ConstantValue Address) (Constant Address)}
    (whole : visited ++ constant :: others = candidate.constants)
    {state after : Memo Address × PreparedClass Address}
    (kept : CasesKept candidate visited state.2)
    (done : prepareConstant receiver call state constant = some after) :
    CasesKept candidate (visited ++ [constant]) after.2 := by
  have isConstant : constant ∈ candidate.constants := by
    rw [← whole]
    exact List.mem_append_right _ List.mem_cons_self
  rcases prepareConstant_cases done with ⟨isThere, _⟩ | ⟨value, attributes, copies, _, rfl⟩
  · -- the names of the source are distinct, so that this one has not been added yet
    have distinct := candidate.distinct
    rw [← whole, List.map_append, List.map_cons] at distinct
    obtain ⟨bucket, isBucket, sameName⟩ := isThere
    have isVisited : constant.1.bytes ∈ visited.map fun bucket => bucket.1.bytes := by
      rw [← kept.names, ← sameName]
      exact List.mem_map_of_mem isBucket
    exact absurd List.mem_cons_self ((List.nodup_append.mp distinct).2.2 _ isVisited _ · rfl)
  · constructor
    · exact kept.name
    · exact caseOf_caseTable coherent isConstant kept.table
    · apply List.rel_append kept.constants
      apply List.Forall₂.cons _ List.Forall₂.nil
      constructor
      · exact bytes_copyString constant.1
      · intro backing isCase
        have makes := copyConstantValue_kept copies isCase
        rwa [kept.name, bytes_copyString] at makes

theorem prepareConstant_there
    {constant : ZString × ClassConstant (ConstantValue Address) (Constant Address)}
    {state : Memo Address × PreparedClass Address}
    (isThere : Present state.2 constant.1.bytes) :
    prepareConstant receiver call state constant = some state := by
  obtain ⟨bucket, isBucket, sameName⟩ := isThere
  unfold prepareConstant
  apply if_pos
  apply List.any_eq_true.mpr
  exact ⟨bucket, isBucket, decide_eq_true sameName⟩

theorem initClassStatics_kept {memo after : Memo Address} {prepared bound : PreparedClass Address}
    (kept : CasesKept candidate candidate.constants prepared)
    (done : initClassStatics receiver call memo candidate prepared = some (after, bound)) :
    CasesKept candidate candidate.constants bound := by
  unfold initClassStatics at done
  split at done
  · obtain ⟨first, _, isAfter⟩ := Option.map_eq_some_iff.mp done
    cases isAfter
    exact ⟨kept.name, kept.table, kept.constants⟩
  · cases done
    exact kept

/-- The late bindings add all constants, or none if they are there. -/
theorem lateBindings_kept (coherent : candidate.Coherent) {comments : Bool}
    {memo after : Memo Address} {prepared bound : PreparedClass Address}
    (kept : CasesKept candidate [] prepared ∨ CasesKept candidate candidate.constants prepared)
    (done : lateBindings receiver comments call memo candidate prepared = some (after, bound)) :
    CasesKept candidate candidate.constants bound := by
  obtain ⟨properties, _, done⟩ := Option.bind_eq_some_iff.mp done
  obtain ⟨defaults, _, done⟩ := Option.bind_eq_some_iff.mp done
  obtain ⟨statics, _, done⟩ := Option.bind_eq_some_iff.mp done
  obtain ⟨constants, loop, done⟩ := Option.bind_eq_some_iff.mp done
  apply initClassStatics_kept _ done
  rcases kept with fresh | full
  · have keeps : ∀ visited constant others, visited ++ constant :: others = candidate.constants →
        ∀ state next, CasesKept candidate visited state.2 →
          prepareConstant receiver call state constant = some next →
            CasesKept candidate (visited ++ [constant]) next.2 := by
      intro visited constant others whole state next isKept moved
      exact prepareConstant_kept coherent whole isKept moved
    exact foldlM_prefix keeps loop ⟨fresh.name, fresh.table, fresh.constants⟩
  · have keeps : ∀ state next, CasesKept candidate candidate.constants state.2 →
        ∀ constant ∈ candidate.constants,
          prepareConstant receiver call state constant = some next →
            CasesKept candidate candidate.constants next.2 := by
      intro state next isKept constant isConstant moved
      rw [prepareConstant_there (isKept.present isConstant)] at moved
      cases moved
      exact isKept
    exact foldlM_keeps keeps loop ⟨full.name, full.table, full.constants⟩

end Steps

section Runs

variable {ClassId Address : Type} [DecidableEq ClassId] [DecidableEq Address]
  {heap : Heap Address} {receiver : Receiver} {source : ClassId → ClassSource Address}

/-- A prepared enum has no constants before the late bindings, and all of them after. -/
structure EnumKept (candidate : ClassSource Address) (entry : Entry Address) : Prop where
  kept : CasesKept candidate [] entry.prepared ∨
    CasesKept candidate candidate.constants entry.prepared
  bound : entry.bound = true → CasesKept candidate candidate.constants entry.prepared

omit [DecidableEq Address] in
/-- What becomes of a class that the step is about, and of the others. -/
theorem settle_cases {thread : Thread ClassId Address} {candidate other : ClassId} {bound : Bool}
    {done : Memo Address × PreparedClass Address} {entry : Entry Address}
    (isEntry : (thread.settle candidate bound done).classes other = some entry) :
    (other = candidate ∧ entry = ⟨done.2, bound⟩) ∨ thread.classes other = some entry := by
  by_cases same : other = candidate
  · subst same
    simp only [Thread.settle, Function.update_self] at isEntry
    exact Or.inl ⟨rfl, (Option.some.inj isEntry).symm⟩
  · simp only [Thread.settle, Function.update_of_ne same] at isEntry
    exact Or.inr isEntry

theorem step_enumKept {comments : Bool} {thread after : Thread ClassId Address}
    {action : Action ClassId Address} {candidate : ClassId} (coherent : (source candidate).Coherent)
    (before : ∀ entry, thread.classes candidate = some entry → EnumKept (source candidate) entry)
    (stepped : step heap receiver comments source thread action = some after) :
    ∀ entry, after.classes candidate = some entry → EnumKept (source candidate) entry := by
  intro entry isEntry
  cases action with
  | copyEntry fuel copied =>
      simp only [step] at stepped
      split at stepped
      · cases stepped
      · obtain ⟨done, copies, rfl⟩ := Option.map_eq_some_iff.mp stepped
        rcases settle_cases isEntry with ⟨rfl, rfl⟩ | isOther
        · constructor
          · exact Or.inl (copyEntry_kept copies)
          · intro isBound
            cases isBound
        · exact before entry isOther
  | completeEntry fuel completed =>
      obtain ⟨old, isOld, stepped⟩ := Option.bind_eq_some_iff.mp stepped
      obtain ⟨done, completes, rfl⟩ := Option.map_eq_some_iff.mp stepped
      rcases settle_cases isEntry with ⟨rfl, rfl⟩ | isOther
      · obtain ⟨functions, _, rfl⟩ := Option.map_eq_some_iff.mp completes
        have isKept := before old isOld
        constructor
        · rcases isKept.kept with fresh | full
          · exact Or.inl ⟨fresh.name, fresh.table, fresh.constants⟩
          · exact Or.inr ⟨full.name, full.table, full.constants⟩
        · intro isBound
          have full := isKept.bound isBound
          exact ⟨full.name, full.table, full.constants⟩
      · exact before entry isOther
  | lateBindings fuel boundClass =>
      obtain ⟨old, isOld, stepped⟩ := Option.bind_eq_some_iff.mp stepped
      obtain ⟨done, bindings, rfl⟩ := Option.map_eq_some_iff.mp stepped
      rcases settle_cases isEntry with ⟨rfl, rfl⟩ | isOther
      · have full := lateBindings_kept coherent (before old isOld).kept bindings
        exact ⟨Or.inr full, fun _ => full⟩
      · exact before entry isOther
  | copy fuel task =>
      obtain ⟨done, _, rfl⟩ := Option.map_eq_some_iff.mp stepped
      exact before entry isEntry

/-- In every run of the preparation an enum whose late bindings have been done has the
constants of the source in the same order, makes the same cases of those that are resolved,
and finds the same case for every backing value. -/
theorem enum_cases_inherited {comments : Bool} {start thread : Thread ClassId Address}
    (starting : ∀ candidate, start.classes candidate = none)
    (reached : Reaches (step heap receiver comments source) anyAction start thread)
    {candidate : ClassId} (coherent : (source candidate).Coherent) {entry : Entry Address}
    (isEntry : thread.classes candidate = some entry) (bound : entry.bound = true) :
    entry.prepared.backedEnumTable.map caseOf = (source candidate).backedEnumTable.map caseOf ∧
      List.Forall₂ (ConstantKept (source candidate).name.bytes) (source candidate).constants
        entry.prepared.constants := by
  have isKept : ∀ entry, thread.classes candidate = some entry →
      EnumKept (source candidate) entry := by
    have keeps : ∀ before action after,
        (∀ entry, before.classes candidate = some entry → EnumKept (source candidate) entry) →
          anyAction before action → step heap receiver comments source before action = some after →
            ∀ entry, after.classes candidate = some entry → EnumKept (source candidate) entry := by
      intro before action after holds _ stepped
      exact step_enumKept coherent holds stepped
    apply reached.preserves keeps
    intro entry isThere
    rw [starting candidate] at isThere
    cases isThere
  have full := (isKept entry isEntry).bound bound
  exact ⟨full.table, full.constants⟩

end Runs

/-- `enum S: string { case H = 'h'; case T = 't'; }`, where the first case is resolved. -/
def suits : ClassSource Unit where
  name := ⟨[83], .interned 0⟩
  linked := true
  filename := none
  docComment := none
  attributes := []
  backedEnumTable := some [(.name ⟨[104], .interned 0⟩, ⟨[72], .interned 0⟩),
    (.name ⟨[116], .interned 0⟩, ⟨[84], .interned 0⟩)]
  parentName := none
  interfaceNames := []
  traitNames := []
  traitAliases := []
  traitPrecedences := []
  functionTable := []
  propertiesInfo := []
  defaultProperties := []
  defaultStatics := []
  staticMembers := none
  constants := [
    (⟨[72], .interned 0⟩, ⟨.resolvedCase (some (.string ⟨[104], .interned 0⟩)), none, []⟩),
    (⟨[84], .interned 0⟩, ⟨.plain (.constant (.ast () true)), none, []⟩)]
  distinct := by decide

/-- The resolved case has moved to the end of the table. -/
theorem enum_cases_inherited_suits :
    ∃ thread entry,
      Reaches (step plainHeap receivingThread true fun _ : Unit => suits) anyAction
        ⟨⟨OrderedTable.empty, OrderedTable.empty⟩, fun _ => none⟩ thread ∧
      thread.classes () = some entry ∧
      entry.prepared.backedEnumTable = some [(.name ⟨[116], .interned 0⟩, ⟨[84], .interned 1⟩),
        (.name ⟨[104], .interned 1⟩, ⟨[72], .interned 1⟩)] ∧
      entry.prepared.backedEnumTable.map caseOf = suits.backedEnumTable.map caseOf ∧
      List.Forall₂ (ConstantKept suits.name.bytes) suits.constants entry.prepared.constants := by
  have run : ∃ thread,
      execute (step plainHeap receivingThread true fun _ : Unit => suits)
        ⟨⟨OrderedTable.empty, OrderedTable.empty⟩, fun _ => none⟩
        [.copyEntry 3 (), .completeEntry 3 (), .lateBindings 3 ()] = some thread ∧
      ∃ entry, thread.classes () = some entry ∧ entry.bound = true ∧
        entry.prepared.backedEnumTable = some [(.name ⟨[116], .interned 0⟩, ⟨[84], .interned 1⟩),
          (.name ⟨[104], .interned 1⟩, ⟨[72], .interned 1⟩)] :=
    ⟨_, rfl, _, rfl, rfl, rfl⟩
  obtain ⟨thread, executed, entry, isEntry, bound, table⟩ := run
  have coherent : suits.Coherent := by
    intro bucket isBucket backing isCase
    cases isBucket with
    | head =>
        cases isCase
        exact ⟨_, rfl, by decide⟩
    | tail _ isBucket =>
        cases List.mem_singleton.mp isBucket
        cases isCase
  have reached := reaches_of_execute (admits_anyAction _ _ _) executed
  exact ⟨thread, entry, reached, isEntry, table,
    enum_cases_inherited (fun _ => rfl) reached coherent isEntry bound⟩

end Pthreads.ClassStrings
