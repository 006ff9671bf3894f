import Pthreads.ClassStrings

/-!
# The isolation of prepared classes

All strings of a prepared class are copied, with two exceptions: the default values of
its properties that are not counted are taken over by `memcpy`, and the table of the
cases of an enum keeps the keys of the source, until a resolved case replaces its own.
This file shows that in every order of the steps nothing else is left of the source.
-/

namespace Pthreads.ClassStrings

open ValueCopies RecursiveCalls PartialFolds GuardedRuns

variable {ClassId Address : Type} {heap : Heap Address} {receiver : Receiver}

/-- A constant whose strings are isolated. -/
structure ConstantIsolated (heap : Heap Address) (receiver : Receiver)
    (bucket : ZString × ClassConstant (Copied Address) (Copied Address)) : Prop where
  name : bucket.1.Local receiver
  value : bucket.2.value.Isolated heap receiver
  docComment : ∀ text ∈ bucket.2.docComment.toList, text.Local receiver
  attributes : ∀ attr ∈ bucket.2.attributes, attr.Isolated heap receiver

/-- A property whose strings are isolated. -/
structure PropertyIsolated (heap : Heap Address) (receiver : Receiver)
    (bucket : ZString × PropertyInfo (Copied Address)) : Prop where
  strings : ∀ text ∈ bucket.1 :: bucket.2.strings, text.Local receiver
  attributes : ∀ attr ∈ bucket.2.attributes, attr.Isolated heap receiver

/-- A class entry that is isolated up to its default values and the keys of the cases. -/
structure Guarded (heap : Heap Address) (receiver : Receiver)
    (prepared : PreparedClass Address) : Prop where
  name : prepared.name.Local receiver
  filename : ∀ text ∈ prepared.filename.toList, text.Local receiver
  docComment : ∀ text ∈ prepared.docComment.toList, text.Local receiver
  attributes : ∀ attr ∈ prepared.attributes, attr.Isolated heap receiver
  caseNames : ∀ bucket ∈ prepared.backedCases, bucket.2.Local receiver
  parentName : ∀ text ∈ prepared.parentName.toList, text.Local receiver
  interfaceNames : ∀ text ∈ prepared.interfaceNames.flatMap ClassName.strings, text.Local receiver
  traitNames : ∀ text ∈ prepared.traitNames.flatMap ClassName.strings, text.Local receiver
  traitAliases : ∀ text ∈ prepared.traitAliases.flatMap TraitAlias.strings, text.Local receiver
  traitPrecedences : ∀ text ∈ prepared.traitPrecedences.flatMap TraitPrecedence.strings,
    text.Local receiver
  functionTable : ∀ bucket ∈ prepared.functionTable,
    bucket.1.Local receiver ∧ bucket.2.Isolated heap receiver
  propertiesInfo : ∀ bucket ∈ prepared.propertiesInfo, PropertyIsolated heap receiver bucket
  defaultStatics : ∀ value ∈ prepared.defaultStatics, value.Isolated heap receiver
  staticMembers : ∀ value ∈ prepared.staticMembers.getD [], value.Isolated heap receiver
  constants : ∀ bucket ∈ prepared.constants, ConstantIsolated heap receiver bucket

section Exceptions

variable {prepared : PreparedClass Address}

theorem Guarded.allAttributes (guarded : Guarded heap receiver prepared) :
    ∀ attr ∈ prepared.allAttributes, attr.Isolated heap receiver := by
  intro attr isIn
  rcases (List.mem_append.mp isIn).imp_left List.mem_append.mp with
      (isClass | isProperty) | isConstant
  · exact guarded.attributes attr isClass
  · obtain ⟨bucket, isBucket, isAttribute⟩ := List.mem_flatMap.mp isProperty
    exact (guarded.propertiesInfo bucket isBucket).attributes attr isAttribute
  · obtain ⟨bucket, isBucket, isAttribute⟩ := List.mem_flatMap.mp isConstant
    exact (guarded.constants bucket isBucket).attributes attr isAttribute

theorem Guarded.strings (guarded : Guarded heap receiver prepared)
    (keys : ∀ bucket ∈ prepared.backedCases, ∀ text ∈ bucket.1.strings, text.Local receiver) :
    ∀ text ∈ prepared.strings, text.Local receiver := by
  refine List.forall_mem_cons.mpr ⟨guarded.name, ?_⟩
  simp only [List.forall_mem_append]
  refine ⟨⟨⟨⟨⟨⟨⟨⟨⟨⟨⟨⟨guarded.filename, guarded.docComment⟩, guarded.parentName⟩,
    guarded.interfaceNames⟩, guarded.traitNames⟩, guarded.traitAliases⟩,
    guarded.traitPrecedences⟩, ?functions⟩, ?properties⟩, ?constants⟩, ?attributes⟩, ?cases⟩, ?keys⟩
  case functions =>
    exact List.forall_mem_map.mpr fun bucket isIn => (guarded.functionTable bucket isIn).1
  case properties =>
    intro text isIn
    obtain ⟨bucket, isBucket, isText⟩ := List.mem_flatMap.mp isIn
    exact (guarded.propertiesInfo bucket isBucket).strings text isText
  case constants =>
    intro text isIn
    obtain ⟨bucket, isBucket, isText⟩ := List.mem_flatMap.mp isIn
    have isolated := guarded.constants bucket isBucket
    exact List.forall_mem_cons.mpr ⟨isolated.name, isolated.docComment⟩ text isText
  case attributes =>
    intro text isIn
    obtain ⟨attr, isAttribute, isText⟩ := List.mem_flatMap.mp isIn
    exact (guarded.allAttributes attr isAttribute).1 text isText
  case cases => exact List.forall_mem_map.mpr guarded.caseNames
  case keys =>
    intro text isIn
    obtain ⟨bucket, isBucket, isText⟩ := List.mem_flatMap.mp isIn
    exact keys bucket isBucket text isText

theorem Guarded.values (guarded : Guarded heap receiver prepared)
    (defaults : ∀ value ∈ prepared.defaultProperties, value.Isolated heap receiver) :
    ∀ value ∈ prepared.values, value.Isolated heap receiver := by
  unfold PreparedClass.values
  simp only [List.forall_mem_append]
  refine ⟨⟨⟨⟨⟨?functions, defaults⟩, guarded.defaultStatics⟩, guarded.staticMembers⟩, ?constants⟩,
    ?attributes⟩
  case functions =>
    exact List.forall_mem_map.mpr fun bucket isIn => (guarded.functionTable bucket isIn).2
  case constants =>
    exact List.forall_mem_map.mpr fun bucket isIn => (guarded.constants bucket isIn).value
  case attributes =>
    intro value isIn
    obtain ⟨attr, isAttribute, isArgument⟩ := List.mem_flatMap.mp isIn
    obtain ⟨argument, isThere, rfl⟩ := List.mem_map.mp isArgument
    exact (guarded.allAttributes attr isAttribute).2 argument isThere

/-- Only the keys of the cases and the default values remain to be looked at. -/
theorem Guarded.isolated_iff (guarded : Guarded heap receiver prepared) :
    prepared.Isolated heap receiver ↔
      (∀ bucket ∈ prepared.backedCases, ∀ text ∈ bucket.1.strings, text.Local receiver) ∧
        ∀ value ∈ prepared.defaultProperties, value.Isolated heap receiver := by
  constructor
  · intro isolated
    constructor
    · intro bucket isBucket text isText
      refine isolated text (Or.inl (List.mem_cons_of_mem _ (List.mem_append_right _ ?_)))
      exact List.mem_flatMap.mpr ⟨bucket, isBucket, isText⟩
    · intro value isValue text has
      refine isolated text (Or.inr ⟨value, ?_, has⟩)
      simp only [PreparedClass.values, List.mem_append, isValue, true_or, or_true]
  · rintro ⟨keys, defaults⟩ text (isIn | ⟨value, isValue, has⟩)
    · exact guarded.strings keys text isIn
    · exact guarded.values defaults value isValue text has

end Exceptions

section Names

theorem local_copyClassName (names : List ClassName) :
    ∀ text ∈ (names.map (copyClassName receiver)).flatMap ClassName.strings,
      text.Local receiver := by
  intro text isIn
  obtain ⟨_, isName, isText⟩ := List.mem_flatMap.mp isIn
  obtain ⟨name, -, rfl⟩ := List.mem_map.mp isName
  exact List.forall_mem_cons.mpr
    ⟨local_copyString _, List.forall_mem_singleton.mpr (local_copyString _)⟩ text isText

theorem local_copyMethodReference (reference : MethodReference) :
    ∀ text ∈ (copyMethodReference receiver reference).strings, text.Local receiver :=
  List.forall_mem_append.mpr ⟨local_toList_copyString _, local_toList_copyString _⟩

theorem local_copyTraitAlias (aliases : List TraitAlias) :
    ∀ text ∈ (aliases.map (copyTraitAlias receiver)).flatMap TraitAlias.strings,
      text.Local receiver := by
  intro text isIn
  obtain ⟨_, isAlias, isText⟩ := List.mem_flatMap.mp isIn
  obtain ⟨original, -, rfl⟩ := List.mem_map.mp isAlias
  exact List.forall_mem_append.mpr
    ⟨local_copyMethodReference _, local_toList_copyString _⟩ text isText

theorem local_copyTraitPrecedence (precedences : List TraitPrecedence) :
    ∀ text ∈ (precedences.map (copyTraitPrecedence receiver)).flatMap TraitPrecedence.strings,
      text.Local receiver := by
  intro text isIn
  obtain ⟨_, isPrecedence, isText⟩ := List.mem_flatMap.mp isIn
  obtain ⟨original, -, rfl⟩ := List.mem_map.mp isPrecedence
  exact List.forall_mem_append.mpr
    ⟨local_copyMethodReference _, local_map_copyString _⟩ text isText

theorem local_optional {condition : Bool} (text : Option ZString) :
    ∀ copied ∈ (if condition then text.map (copyString receiver) else none).toList,
      copied.Local receiver := by
  cases condition with
  | false => exact nofun
  | true => exact local_toList_copyString text

end Names

section Steps

variable [DecidableEq Address]
variable {call : Memo Address → (task : ValueCopies.Task Address) →
  Option (Memo Address × task.Result)}
variable (calls : ∀ task, Ensures (Memo.Isolated heap receiver) (call · task)
  (task.Isolated heap receiver))
include calls

theorem copyEntry_guarded {comments : Bool} {memo after : Memo Address}
    {candidate : ClassSource Address} {prepared : PreparedClass Address}
    (isolated : memo.Isolated heap receiver)
    (done : copyEntry receiver comments call memo candidate = some (after, prepared)) :
    after.Isolated heap receiver ∧ Guarded heap receiver prepared ∧
      prepared.backedEnumTable = candidate.backedEnumTable.map (prepareBackedEnumTable receiver) ∧
      prepared.constants = [] := by
  obtain ⟨first, copied, isAfter⟩ := Option.map_eq_some_iff.mp done
  obtain ⟨isolated, attributes⟩ :=
    copyAttributes_isolated calls candidate.attributes memo first.1 first.2 isolated copied
  cases isAfter
  have named : (((candidate.filename.map (copyFilename receiver first.1)).map Prod.fst).getD
      first.1).Isolated heap receiver ∧
      ∀ text ∈ ((candidate.filename.map (copyFilename receiver first.1)).map Prod.snd).toList,
        text.Local receiver := by
    cases candidate.filename with
    | none => exact ⟨isolated, nofun⟩
    | some filename =>
        obtain ⟨isolated, isLocal⟩ := isolated.copyFilename filename
        exact ⟨isolated, List.forall_mem_singleton.mpr isLocal⟩
  refine ⟨named.1, ?_, rfl, rfl⟩
  exact
    { name := local_copyString _
      filename := named.2
      docComment := local_optional candidate.docComment
      attributes := attributes
      caseNames := by
        intro bucket isIn
        unfold PreparedClass.backedCases at isIn
        cases table : candidate.backedEnumTable with
        | none =>
            simp only [table, Option.map_none, Option.getD_none] at isIn
            cases isIn
        | some cases =>
            simp only [table, Option.map_some, Option.getD_some, prepareBackedEnumTable] at isIn
            obtain ⟨original, -, rfl⟩ := List.mem_map.mp isIn
            exact local_copyString _
      parentName := nofun
      interfaceNames := nofun
      traitNames := nofun
      traitAliases := nofun
      traitPrecedences := nofun
      functionTable := nofun
      propertiesInfo := nofun
      defaultStatics := nofun
      staticMembers := nofun
      constants := nofun }

theorem completeEntry_guarded {memo after : Memo Address} {candidate : ClassSource Address}
    {prepared completed : PreparedClass Address} (isolated : memo.Isolated heap receiver)
    (guarded : Guarded heap receiver prepared)
    (done : completeEntry receiver call memo candidate prepared = some (after, completed)) :
    after.Isolated heap receiver ∧ Guarded heap receiver completed ∧
      completed.backedEnumTable = prepared.backedEnumTable ∧
      completed.defaultProperties = prepared.defaultProperties ∧
      completed.constants = prepared.constants := by
  obtain ⟨last, loop, isAfter⟩ := Option.map_eq_some_iff.mp done
  have functions : last.1.Isolated heap receiver ∧ ∀ bucket ∈ last.2,
      bucket.1.Local receiver ∧ bucket.2.Isolated heap receiver := by
    have keeps : ∀ state next : Memo Address × List (ZString × Copied Address),
        (state.1.Isolated heap receiver ∧ ∀ bucket ∈ state.2,
          bucket.1.Local receiver ∧ bucket.2.Isolated heap receiver) →
        ∀ method ∈ candidate.functionTable, prepareFunction receiver call state method = some next →
          next.1.Isolated heap receiver ∧ ∀ bucket ∈ next.2,
            bucket.1.Local receiver ∧ bucket.2.Isolated heap receiver := by
      intro state next holds method _ moved
      unfold prepareFunction at moved
      split at moved
      · cases moved
        exact holds
      · obtain ⟨copied, copies, isNext⟩ := Option.map_eq_some_iff.mp moved
        obtain ⟨isolated, isIsolated⟩ :=
          calls (.function method.2) state.1 copied.1 copied.2 holds.1 copies
        cases isNext
        refine ⟨isolated, List.forall_mem_append.mpr ⟨holds.2, ?_⟩⟩
        exact List.forall_mem_singleton.mpr ⟨local_copyString _, isIsolated⟩
    exact foldlM_keeps keeps loop ⟨isolated, guarded.functionTable⟩
  cases isAfter
  refine ⟨functions.1, ?_, rfl, rfl, rfl⟩
  exact
    { guarded with
      parentName := by
        split
        · exact nofun
        · exact local_toList_copyString _
      interfaceNames := by
        split
        · exact nofun
        · exact local_copyClassName _
      traitNames := local_copyClassName _
      traitAliases := local_copyTraitAlias _
      traitPrecedences := local_copyTraitPrecedence _
      functionTable := functions.2 }

end Steps

section Constants

/-- The class has a constant of this name. -/
def Present (prepared : PreparedClass Address) (bytes : Bytes) : Prop :=
  ∃ bucket ∈ prepared.constants, bucket.1.bytes = bytes

/-- The case with this backing value has been replaced. -/
def Replaced (candidate : ClassSource Address) (prepared : PreparedClass Address)
    (content : Int ⊕ Bytes) : Prop :=
  ∃ bucket ∈ candidate.constants, Present prepared bucket.1.bytes ∧
    ∃ backing, bucket.2.value = .resolvedCase (some backing) ∧ backing.content = content

/-- The cases of a prepared enum: a key is the receiving thread's own, unless its case has
not been replaced, and the keys of cases that are not resolved are those of the source. -/
structure Enumerated (receiver : Receiver) (candidate : ClassSource Address)
    (prepared : PreparedClass Address) : Prop where
  kept : ∀ bucket ∈ prepared.backedCases, (∀ text ∈ bucket.1.strings, text.Local receiver) ∨
    (∃ original ∈ candidate.backedEnumTable.getD [], original.1 = bucket.1) ∧
      ¬ Replaced candidate prepared (keyContent bucket.1)
  unresolved : ∀ original ∈ candidate.backedEnumTable.getD [],
    ¬ candidate.Resolved (keyContent original.1) →
      ∃ name, (original.1, name) ∈ prepared.backedCases

theorem enumerated_copyEntry {candidate : ClassSource Address} {prepared : PreparedClass Address}
    (table : prepared.backedEnumTable =
      candidate.backedEnumTable.map (prepareBackedEnumTable receiver))
    (noConstants : prepared.constants = []) : Enumerated receiver candidate prepared := by
  have cases : prepared.backedCases =
      (candidate.backedEnumTable.getD []).map fun bucket =>
        (bucket.1, copyString receiver bucket.2) := by
    unfold PreparedClass.backedCases
    rw [table]
    cases candidate.backedEnumTable with
    | none => rfl
    | some cases => rfl
  constructor
  · intro bucket isIn
    rw [cases] at isIn
    obtain ⟨original, isOriginal, rfl⟩ := List.mem_map.mp isIn
    refine Or.inr ⟨⟨original, isOriginal, rfl⟩, ?_⟩
    rintro ⟨_, _, ⟨constant, isConstant, _⟩, _⟩
    rw [noConstants] at isConstant
    cases isConstant
  · intro original isOriginal _
    rw [cases]
    exact ⟨_, List.mem_map_of_mem isOriginal⟩

theorem Enumerated.of_same {candidate : ClassSource Address}
    {prepared other : PreparedClass Address} (enumerated : Enumerated receiver candidate prepared)
    (table : other.backedEnumTable = prepared.backedEnumTable)
    (constants : other.constants = prepared.constants) : Enumerated receiver candidate other := by
  have present : ∀ bytes, Present other bytes ↔ Present prepared bytes := by
    intro bytes
    unfold Present
    rw [constants]
  constructor
  · intro bucket isIn
    unfold PreparedClass.backedCases at isIn
    rw [table] at isIn
    rcases enumerated.kept bucket isIn with isLocal | ⟨original, notReplaced⟩
    · exact Or.inl isLocal
    · refine Or.inr ⟨original, ?_⟩
      rintro ⟨constant, isConstant, isPresent, replaces⟩
      exact notReplaced ⟨constant, isConstant, (present _).mp isPresent, replaces⟩
  · intro original isOriginal notResolved
    unfold PreparedClass.backedCases
    rw [table]
    exact enumerated.unresolved original isOriginal notResolved

theorem internString_eq (receiver : Receiver) (text : ZString) :
    internString receiver text = text ∨
      internString receiver text = receiver.intern text.bytes := by
  unfold internString
  split
  · exact Or.inr rfl
  · exact Or.inl rfl

theorem content_copyBacking (backing : Backing) :
    (copyBacking receiver backing).content = backing.content := by
  cases backing with
  | long value => rfl
  | string text =>
      have same : (internString receiver (copyString receiver text)).bytes = text.bytes := by
        rcases internString_eq receiver (copyString receiver text) with isText | isText
        · rw [isText, bytes_copyString]
        · rw [isText]
          exact bytes_copyString text
      exact congrArg Sum.inr same

theorem local_copyBacking (receiver : Receiver) (backing : Backing) :
    ∀ text ∈ (copyBacking receiver backing).key.strings, text.Local receiver := by
  cases backing with
  | long value => exact nofun
  | string text =>
      refine List.forall_mem_singleton.mpr ?_
      rcases internString_eq receiver (copyString receiver text) with isText | isText
      · rw [isText]
        exact local_copyString text
      · rw [isText]
        exact local_intern _

theorem isolated_copyBacking (backing : Backing) :
    ((copyBacking receiver backing).copied : Copied Address).Isolated heap receiver := by
  have isLocal := local_copyBacking receiver backing
  cases backing with
  | long value => exact isolated_scalar _
  | string text => exact isolated_string (isLocal _ (List.mem_singleton_self _))

theorem isolated_astZval {copied : Copied Address} (isolated : copied.Isolated heap receiver) :
    (Copied.astZval 0 (some copied)).Isolated heap receiver :=
  isolated_iff.mpr ⟨nofun, List.forall_mem_singleton.mpr isolated, nofun⟩

theorem isolated_createEnumCaseAst {className name : ZString}
    (localClass : className.Local receiver) (localName : name.Local receiver)
    (backing : Option Backing) :
    (createEnumCaseAst className name (backing.map (copyBacking receiver)) :
      Copied Address).Isolated heap receiver := by
  refine isolated_iff.mpr ⟨nofun, List.forall_mem_singleton.mpr ?_, nofun⟩
  refine isolated_iff.mpr ⟨nofun, ?_, nofun⟩
  have names :
      (Copied.astZval 0 (some (.string className)) : Copied Address).Isolated heap receiver ∧
      (Copied.astZval 0 (some (.string name)) : Copied Address).Isolated heap receiver :=
    ⟨isolated_astZval (isolated_string localClass), isolated_astZval (isolated_string localName)⟩
  cases backing with
  | none => exact List.forall_mem_cons.mpr ⟨names.1, List.forall_mem_singleton.mpr names.2⟩
  | some backing =>
      exact List.forall_mem_cons.mpr ⟨names.1, List.forall_mem_cons.mpr ⟨names.2,
        List.forall_mem_singleton.mpr (isolated_astZval (isolated_copyBacking backing))⟩⟩

/-- A prepared constant replaces its case, if it is one that is resolved, and leaves the
others. -/
theorem mem_caseTable {name : ZString} {value : ConstantValue Address}
    {table : Option (List (Key × ZString))} {bucket : Key × ZString}
    (isIn : bucket ∈ (caseTable receiver name value table).getD []) :
    (bucket ∈ table.getD [] ∧ ∀ backing, value = .resolvedCase (some backing) →
      keyContent bucket.1 ≠ backing.content) ∨
    (bucket.2 = name ∧ ∀ text ∈ bucket.1.strings, text.Local receiver) := by
  unfold caseTable at isIn
  split at isIn
  · next backing =>
    cases table with
    | none => cases isIn
    | some cases =>
        rcases List.mem_append.mp isIn with isKept | isNew
        · obtain ⟨isOld, different⟩ := List.mem_filter.mp isKept
          refine Or.inl ⟨isOld, ?_⟩
          rintro _ ⟨⟩
          rw [content_copyBacking] at different
          exact of_decide_eq_true different
        · cases List.mem_singleton.mp isNew
          exact Or.inr ⟨rfl, local_copyBacking receiver backing⟩
  · next notCase =>
    refine Or.inl ⟨isIn, ?_⟩
    intro backing isCase
    exact absurd isCase (notCase backing)

theorem mem_caseTable_of_other {name : ZString} {value : ConstantValue Address}
    {table : Option (List (Key × ZString))} {bucket : Key × ZString}
    (isIn : bucket ∈ table.getD [])
    (other : ∀ backing, value = .resolvedCase (some backing) →
      keyContent bucket.1 ≠ backing.content) :
    bucket ∈ (caseTable receiver name value table).getD [] := by
  unfold caseTable
  split
  · next backing =>
    cases table with
    | none => cases isIn
    | some cases =>
        refine List.mem_append_left _ (List.mem_filter.mpr ⟨isIn, ?_⟩)
        rw [content_copyBacking]
        exact decide_eq_true (other backing rfl)
  · exact isIn

section Loop

variable {call : Memo Address → (task : ValueCopies.Task Address) →
  Option (Memo Address × task.Result)}

/-- A constant that is there is skipped, another one is added. -/
theorem prepareConstant_cases {state after : Memo Address × PreparedClass Address}
    {constant : ZString × ClassConstant (ConstantValue Address) (Constant Address)}
    (done : prepareConstant receiver call state constant = some after) :
    (Present state.2 constant.1.bytes ∧ after = state) ∨
      ∃ value attributes,
        copyConstantValue receiver call state.1 state.2.name (copyString receiver constant.1)
          constant.2.value = some value ∧
        copyAttributes receiver call value.1 constant.2.attributes = some attributes ∧
        after = (attributes.1,
          { state.2 with
            backedEnumTable := caseTable receiver (copyString receiver constant.1)
              constant.2.value state.2.backedEnumTable
            constants := state.2.constants ++
              [(copyString receiver constant.1,
                { value := value.2
                  docComment := constant.2.docComment.map (copyString receiver)
                  attributes := attributes.2 })] }) := by
  unfold prepareConstant at done
  split at done
  · next isThere =>
    cases done
    obtain ⟨bucket, isBucket, same⟩ := List.any_eq_true.mp isThere
    exact Or.inl ⟨⟨bucket, isBucket, of_decide_eq_true same⟩, rfl⟩
  · obtain ⟨value, first, done⟩ := Option.bind_eq_some_iff.mp done
    obtain ⟨attributes, second, isAfter⟩ := Option.map_eq_some_iff.mp done
    exact Or.inr ⟨value, attributes, first, second, isAfter.symm⟩

theorem prepareConstant_present {state after : Memo Address × PreparedClass Address}
    {constant : ZString × ClassConstant (ConstantValue Address) (Constant Address)}
    (done : prepareConstant receiver call state constant = some after) (bytes : Bytes) :
    Present after.2 bytes ↔ Present state.2 bytes ∨ bytes = constant.1.bytes := by
  rcases prepareConstant_cases done with ⟨isThere, rfl⟩ | ⟨value, attributes, -, -, rfl⟩
  · constructor
    · exact Or.inl
    · rintro (isPresent | rfl)
      · exact isPresent
      · exact isThere
  · simp only [Present, List.mem_append, List.mem_singleton]
    constructor
    · rintro ⟨bucket, isOld | rfl, rfl⟩
      · exact Or.inl ⟨bucket, isOld, rfl⟩
      · exact Or.inr (bytes_copyString _)
    · rintro (⟨bucket, isOld, rfl⟩ | rfl)
      · exact ⟨bucket, Or.inl isOld, rfl⟩
      · exact ⟨_, Or.inr rfl, bytes_copyString _⟩

theorem eq_of_same_bytes {candidate : ClassSource Address}
    {bucket other : ZString × ClassConstant (ConstantValue Address) (Constant Address)}
    (isIn : bucket ∈ candidate.constants) (isOther : other ∈ candidate.constants)
    (same : bucket.1.bytes = other.1.bytes) : bucket = other :=
  List.inj_on_of_nodup_map candidate.distinct isIn isOther same

theorem prepareConstant_enumerated {candidate : ClassSource Address}
    {state after : Memo Address × PreparedClass Address}
    (enumerated : Enumerated receiver candidate state.2)
    {constant : ZString × ClassConstant (ConstantValue Address) (Constant Address)}
    (isConstant : constant ∈ candidate.constants)
    (done : prepareConstant receiver call state constant = some after) :
    Enumerated receiver candidate after.2 := by
  have present := prepareConstant_present done
  rcases prepareConstant_cases done with ⟨-, rfl⟩ | ⟨value, attributes, -, -, rfl⟩
  · exact enumerated
  constructor
  · intro bucket isIn
    rcases mem_caseTable isIn with ⟨isOld, other⟩ | ⟨-, isLocal⟩
    · rcases enumerated.kept bucket isOld with isLocal | ⟨original, notReplaced⟩
      · exact Or.inl isLocal
      · refine Or.inr ⟨original, ?_⟩
        -- a case that is replaced now is the constant's own, whose key is not this one
        rintro ⟨replacing, isReplacing, isPresent, backing, isCase, isContent⟩
        rcases (present _).mp isPresent with earlier | same
        · exact notReplaced ⟨replacing, isReplacing, earlier, backing, isCase, isContent⟩
        · cases eq_of_same_bytes isReplacing isConstant same
          exact other backing isCase isContent.symm
    · exact Or.inl isLocal
  · intro original isOriginal notResolved
    obtain ⟨name, isThere⟩ := enumerated.unresolved original isOriginal notResolved
    refine ⟨name, mem_caseTable_of_other isThere ?_⟩
    intro backing isCase same
    exact notResolved ⟨constant, isConstant, backing, isCase, same.symm⟩

end Loop

end Constants

section LateBindings

variable [DecidableEq Address]
variable {call : Memo Address → (task : ValueCopies.Task Address) →
  Option (Memo Address × task.Result)}

/-- A default value is copied when it is counted, and used in place when it is not. -/
def DefaultPrepared (heap : Heap Address) (receiver : Receiver) (slot : Slot Address)
    (copied : Copied Address) : Prop :=
  if refcounted slot then copied.Isolated heap receiver else copied = .slotInPlace slot

/-- What holds between two constants: the default values are left alone. -/
structure AmidConstants (heap : Heap Address) (receiver : Receiver)
    (candidate : ClassSource Address) (defaults : List (Copied Address))
    (state : Memo Address × PreparedClass Address) : Prop where
  isolated : state.1.Isolated heap receiver
  guarded : Guarded heap receiver state.2
  enumerated : Enumerated receiver candidate state.2
  defaults : state.2.defaultProperties = defaults

variable (calls : ∀ task, Ensures (Memo.Isolated heap receiver) (call · task)
  (task.Isolated heap receiver))
include calls

theorem prepareDefault_prepared (slot : Slot Address) :
    Ensures (Memo.Isolated heap receiver) (prepareDefault receiver call · slot)
      (DefaultPrepared heap receiver slot) := by
  unfold prepareDefault DefaultPrepared
  split
  · exact copyLiteral_isolated calls slot
  · exact ensures_done rfl

theorem foldlM_prepareProperty {comments : Bool}
    {properties : List (ZString × PropertyInfo (Constant Address))}
    {state after : Memo Address × List (ZString × PropertyInfo (Copied Address))}
    (done : properties.foldlM (prepareProperty receiver comments call) state = some after)
    (isolated : state.1.Isolated heap receiver)
    (guarded : ∀ bucket ∈ state.2, PropertyIsolated heap receiver bucket) :
    after.1.Isolated heap receiver ∧
      ∀ bucket ∈ after.2, PropertyIsolated heap receiver bucket := by
  have keeps : ∀ state next : Memo Address × List (ZString × PropertyInfo (Copied Address)),
      (state.1.Isolated heap receiver ∧
        ∀ bucket ∈ state.2, PropertyIsolated heap receiver bucket) →
      ∀ property ∈ properties, prepareProperty receiver comments call state property = some next →
        next.1.Isolated heap receiver ∧
          ∀ bucket ∈ next.2, PropertyIsolated heap receiver bucket := by
    intro state next holds property _ moved
    obtain ⟨first, copied, isNext⟩ := Option.map_eq_some_iff.mp moved
    obtain ⟨isolated, attributes⟩ :=
      copyAttributes_isolated calls property.2.attributes state.1 first.1 first.2 holds.1 copied
    cases isNext
    refine ⟨isolated, ?_⟩
    split
    · exact holds.2
    · refine List.forall_mem_append.mpr ⟨holds.2, List.forall_mem_singleton.mpr ⟨?_, attributes⟩⟩
      refine List.forall_mem_cons.mpr ⟨Or.inr (Or.inr rfl), List.forall_mem_cons.mpr
        ⟨local_copyString _, List.forall_mem_append.mpr ⟨?_, local_map_copyString _⟩⟩⟩
      exact local_optional property.2.docComment
  exact foldlM_keeps keeps done ⟨isolated, guarded⟩

theorem copyConstantValue_isolated {memo : Memo Address} {className name : ZString}
    (localClass : className.Local receiver) (localName : name.Local receiver)
    (isolated : memo.Isolated heap receiver) {value : ConstantValue Address}
    {done : Memo Address × Copied Address}
    (copied : copyConstantValue receiver call memo className name value = some done) :
    done.1.Isolated heap receiver ∧ done.2.Isolated heap receiver := by
  cases value with
  | plain slot =>
      obtain ⟨first, copies, isDone⟩ := Option.bind_eq_some_iff.mp copied
      obtain ⟨result, isResult, rfl⟩ := Option.map_eq_some_iff.mp isDone
      obtain ⟨isolated, isIsolated⟩ :=
        copyZval_isolated calls slot memo first.1 first.2 isolated copies
      exact ⟨isolated, isIsolated result isResult⟩
  | resolvedCase backing =>
      cases copied
      exact ⟨isolated, isolated_createEnumCaseAst localClass localName backing⟩

theorem prepareConstant_guarded {state after : Memo Address × PreparedClass Address}
    {constant : ZString × ClassConstant (ConstantValue Address) (Constant Address)}
    (isolated : state.1.Isolated heap receiver) (guarded : Guarded heap receiver state.2)
    (done : prepareConstant receiver call state constant = some after) :
    after.1.Isolated heap receiver ∧ Guarded heap receiver after.2 := by
  rcases prepareConstant_cases done with ⟨-, rfl⟩ | ⟨value, attributes, first, second, rfl⟩
  · exact ⟨isolated, guarded⟩
  · obtain ⟨isolated, isIsolated⟩ :=
      copyConstantValue_isolated calls guarded.name (local_copyString _) isolated first
    obtain ⟨isolated, isolatedAttributes⟩ := copyAttributes_isolated calls constant.2.attributes
      value.1 attributes.1 attributes.2 isolated second
    refine ⟨isolated, ?_⟩
    exact
      { guarded with
        caseNames := by
          intro bucket isIn
          rcases mem_caseTable isIn with ⟨isOld, -⟩ | ⟨isName, -⟩
          · exact guarded.caseNames bucket isOld
          · rw [isName]
            exact local_copyString _
        constants := by
          refine List.forall_mem_append.mpr ⟨guarded.constants, List.forall_mem_singleton.mpr ?_⟩
          exact ⟨local_copyString _, isIsolated, local_toList_copyString _, isolatedAttributes⟩ }

theorem prepareConstant_keeps {candidate : ClassSource Address} {defaults : List (Copied Address)}
    {state after : Memo Address × PreparedClass Address}
    (holds : AmidConstants heap receiver candidate defaults state)
    {constant : ZString × ClassConstant (ConstantValue Address) (Constant Address)}
    (isConstant : constant ∈ candidate.constants)
    (done : prepareConstant receiver call state constant = some after) :
    AmidConstants heap receiver candidate defaults after := by
  obtain ⟨isolated, guarded⟩ := prepareConstant_guarded calls holds.isolated holds.guarded done
  refine ⟨isolated, guarded, prepareConstant_enumerated holds.enumerated isConstant done, ?_⟩
  rcases prepareConstant_cases done with ⟨-, rfl⟩ | ⟨value, attributes, -, -, rfl⟩
  · exact holds.defaults
  · exact holds.defaults

theorem initClassStatics_guarded {memo after : Memo Address} {candidate : ClassSource Address}
    {prepared bound : PreparedClass Address} (isolated : memo.Isolated heap receiver)
    (guarded : Guarded heap receiver prepared)
    (done : initClassStatics receiver call memo candidate prepared = some (after, bound)) :
    after.Isolated heap receiver ∧ Guarded heap receiver bound ∧
      bound.backedEnumTable = prepared.backedEnumTable ∧
      bound.defaultProperties = prepared.defaultProperties ∧
      bound.constants = prepared.constants := by
  unfold initClassStatics at done
  split at done
  · next members _ _ =>
    obtain ⟨first, copied, isAfter⟩ := Option.map_eq_some_iff.mp done
    obtain ⟨isolated, isIsolated⟩ := traverse_ensures_all _
      (fun member _ => copyLiteral_isolated calls member) memo first.1 first.2 isolated copied
    cases isAfter
    refine ⟨isolated, ?_, rfl, rfl, rfl⟩
    exact
      { guarded with
        staticMembers := fun value isIn => isIsolated value (List.mem_reverse.mp isIn) }
  · cases done
    exact ⟨isolated, guarded, rfl, rfl, rfl⟩

/-- What the late bindings do to a class. -/
theorem lateBindings_guarded {comments : Bool} {memo after : Memo Address}
    {candidate : ClassSource Address} {prepared bound : PreparedClass Address}
    (isolated : memo.Isolated heap receiver) (guarded : Guarded heap receiver prepared)
    (enumerated : Enumerated receiver candidate prepared)
    (done : lateBindings receiver comments call memo candidate prepared = some (after, bound)) :
    after.Isolated heap receiver ∧ Guarded heap receiver bound ∧
      Enumerated receiver candidate bound ∧
      List.Forall₂ (DefaultPrepared heap receiver) candidate.defaultProperties
        bound.defaultProperties ∧
      ∀ bucket ∈ candidate.constants, Present bound bucket.1.bytes := by
  obtain ⟨properties, first, done⟩ := Option.bind_eq_some_iff.mp done
  obtain ⟨defaults, second, done⟩ := Option.bind_eq_some_iff.mp done
  obtain ⟨statics, third, done⟩ := Option.bind_eq_some_iff.mp done
  obtain ⟨constants, fourth, done⟩ := Option.bind_eq_some_iff.mp done
  obtain ⟨isolated, guardedProperties⟩ :=
    foldlM_prepareProperty calls first isolated guarded.propertiesInfo
  obtain ⟨isolated, preparedDefaults⟩ := traverse_ensures
    (fun slot _ => prepareDefault_prepared calls slot)
    properties.1 defaults.1 defaults.2 isolated second
  obtain ⟨isolated, isolatedStatics⟩ := traverse_ensures_all _
    (fun content _ => copyConstant_isolated calls content)
    defaults.1 statics.1 statics.2 isolated third
  have loop : AmidConstants heap receiver candidate defaults.2 constants := by
    refine foldlM_keeps ?_ fourth ⟨isolated, ?_, enumerated.of_same rfl rfl, rfl⟩
    · exact fun state next holds constant isConstant moved =>
        prepareConstant_keeps calls holds isConstant moved
    · exact
        { guarded with
          propertiesInfo := guardedProperties
          defaultStatics := fun value isIn => isolatedStatics value (List.mem_reverse.mp isIn) }
  have present : ∀ bucket ∈ candidate.constants, Present constants.2 bucket.1.bytes := by
    refine foldlM_does (fun bucket state => Present state.2 bucket.1.bytes) ?_ ?_ fourth
    · intro state next constant _ moved
      exact (prepareConstant_present moved _).mpr (Or.inr rfl)
    · intro state next constant other isPresent moved
      exact (prepareConstant_present moved _).mpr (Or.inl isPresent)
  obtain ⟨isolated, guarded, sameTable, sameDefaults, sameConstants⟩ :=
    initClassStatics_guarded calls loop.isolated loop.guarded done
  refine ⟨isolated, guarded, loop.enumerated.of_same sameTable sameConstants, ?_, ?_⟩
  · rw [sameDefaults, loop.defaults]
    exact preparedDefaults
  · intro bucket isIn
    unfold Present
    rw [sameConstants]
    exact present bucket isIn

end LateBindings

section Runs

/-- What holds of a class of the receiving thread. -/
structure Sound (heap : Heap Address) (receiver : Receiver) (candidate : ClassSource Address)
    (entry : Entry Address) : Prop where
  guarded : Guarded heap receiver entry.prepared
  enumerated : Enumerated receiver candidate entry.prepared
  defaults : entry.bound = true → List.Forall₂ (DefaultPrepared heap receiver)
    candidate.defaultProperties entry.prepared.defaultProperties
  constants : entry.bound = true →
    ∀ bucket ∈ candidate.constants, Present entry.prepared bucket.1.bytes

theorem isolated_slotInPlace {slot : Slot Address} :
    (Copied.slotInPlace slot).Isolated heap receiver ↔
      ∀ text, heap.SlotHas slot text → text.Local receiver := by
  rw [isolated_iff]
  exact ⟨fun isolated => isolated.2.2, fun isLocal => ⟨nofun, nofun, isLocal⟩⟩

theorem isolated_defaults_iff {slots : List (Slot Address)} {values : List (Copied Address)}
    (prepares : List.Forall₂ (DefaultPrepared heap receiver) slots values) :
    (∀ value ∈ values, value.Isolated heap receiver) ↔
      ∀ slot ∈ slots, refcounted slot = false →
        ∀ text, heap.SlotHas slot text → text.Local receiver := by
  induction prepares with
  | nil => exact ⟨fun _ => nofun, fun _ => nofun⟩
  | @cons slot value _ _ first _ ih =>
      rw [List.forall_mem_cons, List.forall_mem_cons, ih]
      refine and_congr_left fun _ => ?_
      unfold DefaultPrepared at first
      split at first
      · next counted =>
        simp [first, counted]
      · next shared =>
        rw [first, isolated_slotInPlace]
        exact ⟨fun isLocal _ => isLocal, fun isLocal => isLocal (by simpa using shared)⟩

/-- When all constants are there, the keys that remain are those of unresolved cases. -/
theorem Enumerated.local_keys_iff {candidate : ClassSource Address}
    {prepared : PreparedClass Address} (enumerated : Enumerated receiver candidate prepared)
    (present : ∀ bucket ∈ candidate.constants, Present prepared bucket.1.bytes) :
    (∀ bucket ∈ prepared.backedCases, ∀ text ∈ bucket.1.strings, text.Local receiver) ↔
      ∀ bucket ∈ candidate.backedEnumTable.getD [], ¬ candidate.Resolved (keyContent bucket.1) →
        ∀ text ∈ bucket.1.strings, text.Local receiver := by
  constructor
  · intro keys original isOriginal notResolved
    obtain ⟨name, isThere⟩ := enumerated.unresolved original isOriginal notResolved
    exact keys (original.1, name) isThere
  · intro unresolved bucket isIn
    rcases enumerated.kept bucket isIn with isLocal | ⟨⟨original, isOriginal, same⟩, notReplaced⟩
    · exact isLocal
    · rw [← same] at notReplaced ⊢
      apply unresolved original isOriginal
      rintro ⟨constant, isConstant, backing, isCase, isContent⟩
      exact notReplaced ⟨constant, isConstant, present constant isConstant, backing, isCase,
        isContent⟩

theorem Sound.isolated_iff {candidate : ClassSource Address} {entry : Entry Address}
    (sound : Sound heap receiver candidate entry) (bound : entry.bound = true) :
    entry.prepared.Isolated heap receiver ↔ candidate.Shareable heap receiver := by
  rw [sound.guarded.isolated_iff, sound.enumerated.local_keys_iff (sound.constants bound),
    isolated_defaults_iff (sound.defaults bound), and_comm]
  rfl

variable [DecidableEq Address] [DecidableEq ClassId] {source : ClassId → ClassSource Address}

/-- What holds of the receiving thread. -/
structure ThreadSound (heap : Heap Address) (receiver : Receiver)
    (source : ClassId → ClassSource Address) (thread : Thread ClassId Address) : Prop where
  memo : thread.memo.Isolated heap receiver
  classes : ∀ candidate entry, thread.classes candidate = some entry →
    Sound heap receiver (source candidate) entry

theorem ThreadSound.settle {thread : Thread ClassId Address}
    (sound : ThreadSound heap receiver source thread) {candidate : ClassId} {bound : Bool}
    {done : Memo Address × PreparedClass Address} (isolated : done.1.Isolated heap receiver)
    (isSound : Sound heap receiver (source candidate) ⟨done.2, bound⟩) :
    ThreadSound heap receiver source (thread.settle candidate bound done) where
  memo := isolated
  classes := by
    intro other entry isEntry
    by_cases same : other = candidate
    · subst same
      simp only [Thread.settle, Function.update_self] at isEntry
      cases isEntry
      exact isSound
    · simp only [Thread.settle, Function.update_of_ne same] at isEntry
      exact sound.classes other entry isEntry

/-- Every step of the preparation keeps what holds of the thread. -/
theorem step_sound (shared : SharedMemory heap) {comments : Bool}
    {thread after : Thread ClassId Address} (sound : ThreadSound heap receiver source thread)
    {action : Action ClassId Address}
    (stepped : step heap receiver comments source thread action = some after) :
    ThreadSound heap receiver source after := by
  cases action with
  | copyEntry fuel candidate =>
      simp only [step] at stepped
      split at stepped
      · cases stepped
      · obtain ⟨done, copied, rfl⟩ := Option.map_eq_some_iff.mp stepped
        obtain ⟨isolated, guarded, table, noConstants⟩ :=
          copyEntry_guarded (copy_isolated shared fuel) sound.memo copied
        exact sound.settle isolated
          ⟨guarded, enumerated_copyEntry table noConstants, nofun, nofun⟩
  | completeEntry fuel candidate =>
      obtain ⟨entry, isEntry, stepped⟩ := Option.bind_eq_some_iff.mp stepped
      obtain ⟨done, completed, rfl⟩ := Option.map_eq_some_iff.mp stepped
      have before := sound.classes candidate entry isEntry
      obtain ⟨isolated, guarded, sameTable, sameDefaults, sameConstants⟩ :=
        completeEntry_guarded (copy_isolated shared fuel) sound.memo before.guarded completed
      refine sound.settle isolated
        ⟨guarded, before.enumerated.of_same sameTable sameConstants, ?_, ?_⟩
      · intro bound
        rw [sameDefaults]
        exact before.defaults bound
      · intro bound
        unfold Present
        rw [sameConstants]
        exact before.constants bound
  | lateBindings fuel candidate =>
      obtain ⟨entry, isEntry, stepped⟩ := Option.bind_eq_some_iff.mp stepped
      obtain ⟨done, bindings, rfl⟩ := Option.map_eq_some_iff.mp stepped
      have before := sound.classes candidate entry isEntry
      obtain ⟨isolated, guarded, enumerated, defaults, constants⟩ :=
        lateBindings_guarded (copy_isolated shared fuel) sound.memo before.guarded
          before.enumerated bindings
      exact sound.settle isolated ⟨guarded, enumerated, fun _ => defaults, fun _ => constants⟩
  | copy fuel task =>
      obtain ⟨done, copied, rfl⟩ := Option.map_eq_some_iff.mp stepped
      exact ⟨(copy_isolated shared fuel task thread.memo done.1 done.2 sound.memo copied).1,
        sound.classes⟩

/-- A thread that has no class of the source yet. -/
structure Starting (heap : Heap Address) (receiver : Receiver)
    (thread : Thread ClassId Address) : Prop where
  memo : thread.memo.Isolated heap receiver
  classes : ∀ candidate, thread.classes candidate = none

/-- In every run of the preparation a class whose late bindings have been done is isolated
exactly when the strings that are used in place may be. -/
theorem prepared_isolated_iff (shared : SharedMemory heap) {comments : Bool}
    {start thread : Thread ClassId Address} (starting : Starting heap receiver start)
    (reached : Reaches (step heap receiver comments source) anyAction start thread)
    {candidate : ClassId} {entry : Entry Address}
    (isEntry : thread.classes candidate = some entry) (bound : entry.bound = true) :
    entry.prepared.Isolated heap receiver ↔ (source candidate).Shareable heap receiver := by
  have initially : ThreadSound heap receiver source start :=
    ⟨starting.memo, fun candidate entry isEntry =>
      absurd (isEntry.symm.trans (starting.classes candidate)) nofun⟩
  have sound := reached.preserves (fun _ _ _ sound _ stepped => step_sound shared sound stepped)
    initially
  exact (sound.classes candidate entry isEntry).isolated_iff bound

end Runs

section Examples

/-- A memory in which nothing is shared. -/
def plainHeap : Heap Unit where
  referent := fun _ => .undef
  array := fun _ => []
  ast := fun _ => .constant 0 ⟨[65], .counted 0⟩
  function := fun _ =>
    { internal := false
      immutable := false
      closure := false
      refcounted := true
      parts := ⟨⟨[102], .counted 0⟩, none, ⟨[47], .counted 0⟩, ⟨[], [], [], [], []⟩, []⟩ }

/-- `class C { public $x = …; const D = …; }`, or an enum with a case `D`. -/
def classWith (default : Slot Unit) (table : Option (List (Key × ZString))) : ClassSource Unit where
  name := ⟨[67], .interned 0⟩
  linked := true
  filename := some ⟨[47], .counted 0⟩
  docComment := none
  attributes := []
  backedEnumTable := table
  parentName := none
  interfaceNames := []
  traitNames := []
  traitAliases := []
  traitPrecedences := []
  functionTable := [(⟨[102], .interned 0⟩, ())]
  propertiesInfo := [(⟨[120], .interned 0⟩, ⟨⟨[120], .interned 0⟩, none, ⟨0, []⟩, []⟩)]
  defaultProperties := [default]
  defaultStatics := []
  staticMembers := none
  constants := [(⟨[68], .interned 0⟩, ⟨.plain (.constant (.ast () true)), none, []⟩)]
  distinct := List.nodup_singleton _

/-- A class whose default value is a permanent string, one where the source has interned
it, and an enum with a case that is not resolved. -/
inductive ExampleClass
  | permanent
  | interned
  | unresolved
deriving DecidableEq

def sources : ExampleClass → ClassSource Unit
  | .permanent => classWith (.constant (.string ⟨[97], .permanent⟩)) none
  | .interned => classWith (.constant (.string ⟨[97], .interned 0⟩)) none
  | .unresolved => classWith .undef (some [(.name ⟨[98], .interned 0⟩, ⟨[68], .interned 0⟩)])

def receivingThread : Receiver := ⟨1, fun _ => false⟩

def emptyThread : Thread ExampleClass Unit where
  memo := ⟨OrderedTable.empty, OrderedTable.empty⟩
  classes := fun _ => none

theorem sharedMemory_plainHeap : SharedMemory plainHeap where
  function := by simp [plainHeap]
  code := by simp [plainHeap]

theorem starting_emptyThread : Starting plainHeap receivingThread emptyThread where
  memo := ⟨nofun, nofun⟩
  classes := fun _ => rfl

/-- One class after the other is prepared. -/
def preparing : List (Action ExampleClass Unit) :=
  [.permanent, .interned, .unresolved].flatMap fun candidate =>
    [.copyEntry 3 candidate, .completeEntry 3 candidate, .lateBindings 3 candidate]

/-- The class with a permanent default value is isolated. -/
theorem prepared_isolated_permanent :
    ∃ thread entry,
      Reaches (step plainHeap receivingThread true sources) anyAction emptyThread thread ∧
      thread.classes .permanent = some entry ∧
        entry.prepared.Isolated plainHeap receivingThread := by
  have run : ∃ thread, execute (step plainHeap receivingThread true sources) emptyThread preparing =
      some thread ∧ ∃ entry, thread.classes .permanent = some entry ∧ entry.bound = true :=
    ⟨_, rfl, _, rfl, rfl⟩
  obtain ⟨thread, executed, entry, isEntry, bound⟩ := run
  have reached := reaches_of_execute (admits_anyAction _ _ _) executed
  refine ⟨thread, entry, reached, isEntry, ?_⟩
  refine (prepared_isolated_iff sharedMemory_plainHeap starting_emptyThread reached isEntry
    bound).mpr ⟨?_, nofun⟩
  intro slot isSlot _ text has
  cases List.mem_singleton.mp isSlot
  rcases has with isText | ⟨_, isTask, _⟩
  · cases List.mem_singleton.mp isText
    exact Or.inl rfl
  · cases isTask

/-- The default value that the source has interned, and the key of the unresolved case,
can be reached from the prepared classes. -/
theorem prepared_not_isolated_interned :
    SharedMemory plainHeap ∧ Starting plainHeap receivingThread emptyThread ∧
    ∃ thread plain enum,
      Reaches (step plainHeap receivingThread true sources) anyAction emptyThread thread ∧
      thread.classes .interned = some plain ∧ plain.bound = true ∧
      thread.classes .unresolved = some enum ∧ enum.bound = true ∧
      plain.prepared.Has plainHeap ⟨[97], .interned 0⟩ ∧
      enum.prepared.Has plainHeap ⟨[98], .interned 0⟩ ∧
      ¬ plain.prepared.Isolated plainHeap receivingThread ∧
      ¬ enum.prepared.Isolated plainHeap receivingThread := by
  have run : ∃ thread, execute (step plainHeap receivingThread true sources) emptyThread preparing =
      some thread ∧ ∃ plain enum, thread.classes .interned = some plain ∧ plain.bound = true ∧
        thread.classes .unresolved = some enum ∧ enum.bound = true ∧
        plain.prepared.defaultProperties =
          [.slotInPlace (.constant (.string ⟨[97], .interned 0⟩))] ∧
        enum.prepared.backedEnumTable =
          some [(.name ⟨[98], .interned 0⟩, ⟨[68], .interned 1⟩)] :=
    ⟨_, rfl, _, _, rfl, rfl, rfl, rfl, rfl, rfl⟩
  obtain ⟨thread, executed, plain, enum, isPlain, boundPlain, isEnum, boundEnum, defaults, table⟩ :=
    run
  have hasDefault : plain.prepared.Has plainHeap ⟨[97], .interned 0⟩ := by
    refine Or.inr ⟨.slotInPlace (.constant (.string ⟨[97], .interned 0⟩)), ?_, .inPlace ?_⟩
    · simp [PreparedClass.values, defaults]
    · exact Or.inl (List.mem_singleton_self _)
  have hasKey : enum.prepared.Has plainHeap ⟨[98], .interned 0⟩ := by
    refine Or.inl (List.mem_cons_of_mem _ (List.mem_append_right _ ?_))
    simp [PreparedClass.backedCases, table, Key.strings]
  refine ⟨sharedMemory_plainHeap, starting_emptyThread, thread, plain, enum,
    reaches_of_execute (admits_anyAction _ _ _) executed, isPlain, boundPlain, isEnum, boundEnum,
    hasDefault, hasKey, ?_, ?_⟩
  · intro isolated
    exact absurd (isolated _ hasDefault) (by decide)
  · intro isolated
    exact absurd (isolated _ hasKey) (by decide)

end Examples

end Pthreads.ClassStrings
