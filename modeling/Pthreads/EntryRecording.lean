import Pthreads.EntryCopying
import Pthreads.PartialFolds

namespace Pthreads.EntryCopying

open ClassPreparation (Origin)
open EntryCreation (ClassEntry Creator Prepared Table)
open PartialFolds RecordedEffects
open ValueCopies (Slot Constant Attribute Memo Heap Receiver)

section Recording

variable {ClassId Key Name Address Tables : Type}
variable {source : Source ClassId Key Name Address}
variable {copy : Tables → Effect Address → Option Tables} {initially : Tables}
variable {recorded : ClassId × Bool → Creating Key Name (List (Effect Address)) →
    Option (Creating Key Name (List (Effect Address)))}
  {call : ClassId × Bool → Creating Key Name Tables → Option (Creating Key Name Tables)}

theorem performEach_mirrors (effects : List (Effect Address))
    (state : Creating Key Name (List (Effect Address))) :
    Mirrors (Creating Key Name) copy initially (held state) (performEach record effects state)
      fun tables => performEach copy effects (replace state tables) :=
  Mirrors.foldlM mirrors_effect effects state

theorem prepareClassStatics_mirrors (candidate : ClassId)
    (state : Creating Key Name (List (Effect Address))) :
    Mirrors (Creating Key Name) copy initially (held state)
      (prepareClassStatics source record candidate state)
      fun tables => prepareClassStatics source copy candidate (replace state tables) :=
  performEach_mirrors _ state

theorem callEach_mirrors
    (calls : ∀ task state, Mirrors (Creating Key Name) copy initially (held state)
      (recorded task state)
      fun tables => call task (replace state tables))
    (late : Bool) (candidates : List ClassId)
    (state : Creating Key Name (List (Effect Address))) :
    Mirrors (Creating Key Name) copy initially (held state)
      (callEach recorded late candidates state)
      fun tables => callEach call late candidates (replace state tables) :=
  Mirrors.foldlM (fun state candidate => calls (candidate, late) state) candidates state

variable [DecidableEq Key]

theorem initClassStatics_mirrors (candidate : ClassId)
    (state : Creating Key Name (List (Effect Address))) :
    Mirrors (Creating Key Name) copy initially (held state)
      (initClassStatics source record candidate state)
      fun tables => initClassStatics source copy candidate (replace state tables) := by
  unfold initClassStatics
  dsimp only
  cases (source.contents candidate).staticMembers with
  | none => exact mirrors_some rfl fun _ => rfl
  | some members =>
    apply Mirrors.ite
    · intro _
      exact performEach_mirrors _ { state with started := _ }
    · intro _
      exact mirrors_some rfl fun _ => rfl

variable [DecidableEq Name]

omit [DecidableEq Key] in
theorem prepareMethod_mirrors (current : Creating Key Name (List (Effect Address)) × List Name)
    (method : Name × Address) :
    Mirrors (Beside (Creating Key Name) (List Name)) copy initially (held current.1)
      (prepareMethod record current method)
      fun tables => prepareMethod copy (replace current.1 tables, current.2) method := by
  have unchanged : Mirrors (Beside (Creating Key Name) (List Name)) copy initially
      (held current.1) (some current)
      fun tables => some (replace current.1 tables, current.2) :=
    mirrors_some rfl fun _ => rfl
  have changed : Mirrors (Beside (Creating Key Name) (List Name)) copy initially
      (held current.1) ((perform record current.1 (.function method.2)).map fun state =>
        (state, current.2 ++ [method.1]))
      fun tables => (perform copy (replace current.1 tables) (.function method.2)).map
        fun state => (state, current.2 ++ [method.1]) :=
    (mirrors_effect current.1 (.function method.2)).map (fun _ => rfl) fun _ _ => rfl
  exact Mirrors.ite (fun _ => unchanged) fun _ => changed

theorem prepareClassFunctionTable_mirrors (candidate : ClassId) (known : List Name)
    (state : Creating Key Name (List (Effect Address))) :
    Mirrors (Creating Key Name) copy initially (held state)
      (prepareClassFunctionTable source record candidate known state)
      fun tables => prepareClassFunctionTable source copy candidate known
        (replace state tables) := by
  have methods : Mirrors (Beside (Creating Key Name) (List Name)) copy initially (held state)
      ((source.contents candidate).functionTable.foldlM (prepareMethod record) (state, known))
      fun tables => (source.contents candidate).functionTable.foldlM (prepareMethod copy)
        (replace state tables, known) := by
    apply Mirrors.foldlM
    exact prepareMethod_mirrors
  exact methods.map (fun _ => rfl) fun _ _ => rfl

omit [DecidableEq Key] in
theorem prepareClosures_mirrors (state : Creating Key Name (List (Effect Address))) :
    Mirrors (Creating Key Name) copy initially (held state) (prepareClosures source record state)
      fun tables => prepareClosures source copy (replace state tables) := by
  refine Mirrors.foldlM ?_ source.closures state
  intro state closure
  apply Mirrors.ite
  · intro _
    exact mirrors_some rfl fun _ => rfl
  · intro _
    exact (mirrors_effect state (.function closure.2)).map (fun _ => rfl) fun _ _ => rfl

variable (calls : ∀ task state, Mirrors (Creating Key Name) copy initially (held state)
  (recorded task state)
  fun tables => call task (replace state tables))
include calls

theorem completeEntry_mirrors (candidate : ClassId)
    {stored : Prepared Key Name → Creating Key Name (List (Effect Address)) →
      Creating Key Name (List (Effect Address))}
    {store : Prepared Key Name → Creating Key Name Tables → Creating Key Name Tables}
    (stores : ∀ entry state, held (stored entry state) = held state ∧ ∀ tables,
      store entry (replace state tables) = replace (stored entry state) tables)
    (prepared : Prepared Key Name) (known : List Name)
    (state : Creating Key Name (List (Effect Address))) :
    Mirrors (Beside (Creating Key Name) (Prepared Key Name)) copy initially
      (held state) (completeEntry source record recorded candidate stored prepared known state)
      fun tables => completeEntry source copy call candidate store prepared known
        (replace state tables) := by
  have parents : ∀ (entry : Prepared Key Name) (others : List ClassId)
      (now : Creating Key Name (List (Effect Address))),
      Mirrors (Creating Key Name) copy initially (held now)
        (callEach recorded true others (stored entry now))
        fun tables => callEach call true others (store entry (replace now tables)) := by
    intro entry others now
    rw [← (stores entry now).1]
    apply (callEach_mirrors calls true others (stored entry now)).congr rfl
    intro tables
    rw [(stores entry now).2]
  have functions : ∀ (entry : Prepared Key Name)
      (now : Creating Key Name (List (Effect Address))),
      Mirrors (Creating Key Name) copy initially (held now)
        (prepareClassFunctionTable source record candidate known (stored entry now))
        fun tables => prepareClassFunctionTable source copy candidate known
          (store entry (replace now tables)) := by
    intro entry now
    rw [← (stores entry now).1]
    apply (prepareClassFunctionTable_mirrors candidate known (stored entry now)).congr rfl
    intro tables
    rw [(stores entry now).2]
  apply Mirrors.ite
  · intro _
    apply (parents _ _ state).bind
    intro state
    apply (parents _ _ state).bind
    intro state
    apply (functions _ state).bind
    intro state
    exact mirrors_some rfl fun _ => rfl
  · intro _
    exact (functions _ state).map (fun _ => rfl) fun _ _ => rfl

theorem prepareClassConstants_mirrors (key : Key)
    (constants : List (Name × ClassConstant ClassId Address)) (prepared : Prepared Key Name)
    (state : Creating Key Name (List (Effect Address))) :
    Mirrors (Creating Key Name) copy initially (held state)
      (prepareClassConstants record recorded key constants prepared state)
      fun tables => prepareClassConstants copy call key constants prepared
        (replace state tables) := by
  induction constants generalizing prepared state with
  | nil => exact mirrors_some rfl fun _ => rfl
  | cons constant others ih =>
    apply Mirrors.ite
    · intro _
      exact ih prepared state
    · intro _
      apply (performEach_mirrors _ state).bind
      intro state
      apply (calls (constant.2.ce, true) state).bind
      intro state
      apply (performEach_mirrors _ { state with table := _ }).bind
      exact ih _

variable [DecidableEq ClassId]

omit [DecidableEq Key] [DecidableEq Name] in
theorem prepareClassPropertyTable_mirrors (candidate : ClassId)
    (state : Creating Key Name (List (Effect Address))) :
    Mirrors (Creating Key Name) copy initially (held state)
      (prepareClassPropertyTable source record recorded candidate state)
      fun tables => prepareClassPropertyTable source copy call candidate
        (replace state tables) := by
  have property : ∀ (state : Creating Key Name (List (Effect Address)))
      (info : ClassId × List (Attribute (Constant Address))),
      Mirrors (Creating Key Name) copy initially (held state)
        (prepareProperty record recorded candidate state info)
        fun tables => prepareProperty copy call candidate (replace state tables) info := by
    intro state info
    apply Mirrors.ite
    · intro _
      exact (calls (info.1, true) state).bind (performEach_mirrors _)
    · intro _
      exact performEach_mirrors _ state
  exact (Mirrors.foldlM property _ state).bind (performEach_mirrors _)

theorem lateBindings_mirrors (candidate : ClassId) (prepared : Prepared Key Name)
    (state : Creating Key Name (List (Effect Address))) :
    Mirrors (Creating Key Name) copy initially (held state)
      (lateBindings source record recorded candidate prepared state)
      fun tables => lateBindings source copy call candidate prepared (replace state tables) := by
  apply Mirrors.ite
  · intro _
    exact initClassStatics_mirrors candidate state
  · intro _
    apply (prepareClassPropertyTable_mirrors calls candidate state).bind
    intro state
    apply (prepareClassStatics_mirrors candidate state).bind
    intro state
    exact (prepareClassConstants_mirrors calls _ _ _ state).bind
      (initClassStatics_mirrors candidate)

theorem insertImmutable_mirrors (candidate : ClassId) (late : Bool)
    (state : Creating Key Name (List (Effect Address))) :
    Mirrors (Creating Key Name) copy initially (held state)
      (insertImmutable source record recorded candidate late state)
      fun tables => insertImmutable source copy call candidate late (replace state tables) := by
  have dependencies : ∀ state : Creating Key Name (List (Effect Address)),
      Mirrors (Creating Key Name) copy initially (held state)
        (prepareImmutableClassDependencies source recorded candidate late state)
        fun tables => prepareImmutableClassDependencies source call candidate late
          (replace state tables) :=
    fun state => (callEach_mirrors calls late _ state).bind (callEach_mirrors calls late _)
  apply (dependencies { state with table := _ }).bind
  intro state
  apply Mirrors.ite
  · intro _
    exact lateBindings_mirrors calls candidate _ state
  · intro _
    exact mirrors_some rfl fun _ => rfl

theorem insertCopy_mirrors (candidate : ClassId) (late : Bool)
    (state : Creating Key Name (List (Effect Address))) :
    Mirrors (Creating Key Name) copy initially (held state)
      (insertCopy source record recorded candidate late state)
      fun tables => insertCopy source copy call candidate late (replace state tables) := by
  apply (performEach_mirrors _ state).bind
  intro state
  apply (performEach_mirrors _ state).bind
  intro state
  apply (completeEntry_mirrors calls candidate (fun _ _ => ⟨rfl, fun _ => rfl⟩) _ _ state).bind
  rintro ⟨state, prepared⟩
  have finish : ∀ state : Creating Key Name (List (Effect Address)),
      Mirrors (Creating Key Name) copy initially (held state)
        ((prepareClosures source record state).bind
          (callEach recorded true ((source.entry candidate).functionTable.filter (· ≠ candidate))))
        fun tables => (prepareClosures source copy (replace state tables)).bind
          (callEach call true ((source.entry candidate).functionTable.filter (· ≠ candidate))) :=
    fun state => (prepareClosures_mirrors state).bind (callEach_mirrors calls true _)
  apply Mirrors.ite
  · intro _
    exact (lateBindings_mirrors calls candidate _ { state with table := _, started := _ }).bind
      finish
  · intro _
    exact finish { state with table := _, started := _ }

theorem insertEntry_mirrors (candidate : ClassId) (late : Bool)
    (state : Creating Key Name (List (Effect Address))) :
    Mirrors (Creating Key Name) copy initially (held state)
      (insertEntry source record recorded candidate late state)
      fun tables => insertEntry source copy call candidate late (replace state tables) := by
  apply Mirrors.ite
  · intro _
    exact insertImmutable_mirrors calls candidate late state
  · intro _
    exact insertCopy_mirrors calls candidate late state

theorem createEntryBody_mirrors (task : ClassId × Bool)
    (state : Creating Key Name (List (Effect Address))) :
    Mirrors (Creating Key Name) copy initially (held state)
      (createEntryBody source record recorded task state)
      fun tables => createEntryBody source copy call task (replace state tables) := by
  apply Mirrors.ite
  · intro _
    exact mirrors_some rfl fun _ => rfl
  · intro _
    have sameTable : ∀ tables : Tables, (replace state tables).table = state.table :=
      fun _ => rfl
    simp only [sameTable]
    cases state.table.find (source.entry task.1).name with
    | none => exact insertEntry_mirrors calls task.1 task.2 state
    | some prepared =>
      apply Mirrors.ite
      · intro _
        apply Mirrors.ite
        · intro _
          exact insertEntry_mirrors calls task.1 task.2 state
        · intro _
          have stores : ∀ (entry : Prepared Key Name)
              (now : Creating Key Name (List (Effect Address))),
              held { now with table := now.table.update (source.entry task.1).name entry } =
                held now ∧ ∀ tables : Tables,
              { replace now tables with
                table := now.table.update (source.entry task.1).name entry } =
                replace { now with
                  table := now.table.update (source.entry task.1).name entry } tables :=
            fun _ _ => ⟨rfl, fun _ => rfl⟩
          apply (completeEntry_mirrors calls task.1 stores _ _ state).bind
          rintro ⟨state, completed⟩
          apply Mirrors.ite
          · intro _
            exact lateBindings_mirrors calls task.1 _ state
          · intro _
            exact mirrors_some rfl fun _ => rfl
      · intro _
        exact mirrors_some rfl fun _ => rfl

end Recording

theorem createEntry_mirrors {ClassId Key Name Address Tables : Type} [DecidableEq ClassId]
    [DecidableEq Key] [DecidableEq Name] {source : Source ClassId Key Name Address}
    {copy : Tables → Effect Address → Option Tables} {initially : Tables} (fuel : Nat)
    (task : ClassId × Bool) (state : Creating Key Name (List (Effect Address))) :
    Mirrors (Creating Key Name) copy initially (held state)
      (createEntry source record fuel task state)
      fun tables => createEntry source copy fuel task (replace state tables) := by
  induction fuel generalizing task state with
  | zero => exact mirrors_none
  | succ fuel ih => exact createEntryBody_mirrors ih task state


section Projection

variable {ClassId Key Name Address : Type}

/-- What a run that records comes to in the class table. -/
theorem map_bind_view {Full Plain FullNext PlainNext : Type} {view : Full → Plain}
    {viewNext : FullNext → PlainNext} {full : Option Full} {plain : Option Plain}
    {next : Full → Option FullNext} {nextPlain : Plain → Option PlainNext}
    (first : full.map view = plain)
    (second : ∀ state, (next state).map viewNext = nextPlain (view state)) :
    (full.bind next).map viewNext = plain.bind nextPlain := by
  rw [← first]
  cases full with
  | none => rfl
  | some state => exact second state

theorem map_foldlM_view {Full Plain Element : Type} {view : Full → Plain}
    {body : Full → Element → Option Full} {bodyPlain : Plain → Element → Option Plain}
    (elements : List Element)
    (each : ∀ state, ∀ element ∈ elements,
      (body state element).map view = bodyPlain (view state) element) (state : Full) :
    (elements.foldlM body state).map view = elements.foldlM bodyPlain (view state) := by
  induction elements generalizing state with
  | nil => rfl
  | cons element elements ih =>
    obtain ⟨first, others⟩ :=
      List.forall_mem_cons.mp fun element isIn state => each state element isIn
    exact map_bind_view (first state) (ih fun state element isIn => others element isIn state)

theorem foldlM_some {Element Plain : Type} (elements : List Element) (state : Plain) :
    elements.foldlM (fun state _ => some state) state = some state := by
  induction elements with
  | nil => rfl
  | cons _ _ ih => exact ih

/-- A part of the run that only copies. -/
theorem map_bind_silent {Next PlainNext : Type} {view : Next → PlainNext}
    {full : Option (Creating Key Name (List (Effect Address)))} {table : Table Key Name}
    {next : Creating Key Name (List (Effect Address)) → Option Next}
    {plain : Option PlainNext} (first : full.map (·.table) = some table)
    (second : ∀ state, state.table = table → (next state).map view = plain) :
    (full.bind next).map view = plain := by
  obtain ⟨state, rfl, same⟩ := Option.map_eq_some_iff.mp first
  exact second state same

theorem performEach_table (effects : List (Effect Address))
    (state : Creating Key Name (List (Effect Address))) :
    (performEach record effects state).map (·.table) = some state.table := by
  rw [← foldlM_some effects state.table]
  exact map_foldlM_view effects (fun _ _ _ => rfl) state

variable {source : Source ClassId Key Name Address}
variable {recorded : ClassId × Bool → Creating Key Name (List (Effect Address)) →
    Option (Creating Key Name (List (Effect Address)))}
  {plain : ClassId × Bool → Table Key Name → Option (Table Key Name)}

theorem callEach_table
    (calls : ∀ task state, (recorded task state).map (·.table) = plain task state.table)
    (late : Bool) (candidates : List ClassId)
    (state : Creating Key Name (List (Effect Address))) :
    (callEach recorded late candidates state).map (·.table) =
      EntryCreation.callEach plain late candidates state.table :=
  map_foldlM_view candidates (fun state candidate _ => calls (candidate, late) state) state

variable [DecidableEq Key]

theorem initClassStatics_table (candidate : ClassId)
    (state : Creating Key Name (List (Effect Address))) :
    (initClassStatics source record candidate state).map (·.table) = some state.table := by
  unfold initClassStatics
  dsimp only
  split
  · rfl
  · split
    · exact performEach_table _ _
    · rfl

variable [DecidableEq Name]

omit [DecidableEq Key] in
theorem prepareClosures_table (state : Creating Key Name (List (Effect Address))) :
    (prepareClosures source record state).map (·.table) = some state.table := by
  rw [← foldlM_some source.closures state.table]
  refine map_foldlM_view source.closures ?_ state
  intro state closure _
  unfold prepareClosure
  split <;> rfl

theorem prepareClassFunctionTable_table (candidate : ClassId) (known : List Name)
    (state : Creating Key Name (List (Effect Address))) :
    (prepareClassFunctionTable source record candidate known state).map (·.table) =
      some state.table := by
  have methods : ∀ state : Creating Key Name (List (Effect Address)) × List Name,
      ((source.contents candidate).functionTable.foldlM (prepareMethod record) state).map
        (·.1.table) = some state.1.table := by
    intro state
    rw [← foldlM_some (source.contents candidate).functionTable state.1.table]
    refine map_foldlM_view _ ?_ state
    intro state method _
    unfold prepareMethod
    split <;> rfl
  unfold prepareClassFunctionTable
  rw [Option.map_map]
  exact methods (state, known)

variable (calls : ∀ task state, (recorded task state).map (·.table) = plain task state.table)
include calls

theorem completeEntry_table (candidate : ClassId)
    {stored : Prepared Key Name → Creating Key Name (List (Effect Address)) →
      Creating Key Name (List (Effect Address))}
    {store : Prepared Key Name → Table Key Name → Table Key Name}
    (stores : ∀ entry state, (stored entry state).table = store entry state.table)
    (prepared : Prepared Key Name) (known : List Name)
    (state : Creating Key Name (List (Effect Address))) :
    (completeEntry source record recorded candidate stored prepared known state).map
        (fun done => (done.1.table, done.2)) =
      EntryCreation.completeEntry source.toCreator plain candidate store prepared
        state.table := by
  have parents : ∀ (entry : Prepared Key Name) (others : List ClassId)
      (now : Creating Key Name (List (Effect Address))),
      (callEach recorded true others (stored entry now)).map (·.table) =
        EntryCreation.callEach plain true others (store entry now.table) := by
    intro entry others now
    rw [callEach_table calls, stores]
  have functions : ∀ (entry : Prepared Key Name)
      (now : Creating Key Name (List (Effect Address))),
      ((prepareClassFunctionTable source record candidate known (stored entry now)).map
        fun state => (state, entry)).map (fun done => (done.1.table, done.2)) =
        some (store entry now.table, entry) := by
    intro entry now
    have silent : (prepareClassFunctionTable source record candidate known
        (stored entry now)).map (·.table) = some (stored entry now).table :=
      prepareClassFunctionTable_table candidate known (stored entry now)
    have done := congrArg (Option.map fun table => (table, entry)) silent
    rw [Option.map_map, stores] at done
    rw [Option.map_map]
    exact done
  unfold completeEntry EntryCreation.completeEntry
  dsimp only
  split
  · apply map_bind_view (parents _ _ state)
    intro state
    apply map_bind_view (parents _ _ state)
    intro state
    exact (congrArg (Option.map _) (Option.map_eq_bind ..).symm).trans (functions _ state)
  · exact functions _ state

theorem prepareClassConstants_table (key : Key)
    (constants : List (Name × ClassConstant ClassId Address)) (prepared : Prepared Key Name)
    (state : Creating Key Name (List (Effect Address))) :
    (prepareClassConstants record recorded key constants prepared state).map (·.table) =
      EntryCreation.prepareClassConstants plain key
        (constants.map fun constant => (constant.1, constant.2.ce)) prepared state.table := by
  induction constants generalizing prepared state with
  | nil => rfl
  | cons constant others ih =>
    rw [List.map_cons]
    unfold prepareClassConstants EntryCreation.prepareClassConstants
    split
    · exact ih prepared state
    · apply map_bind_silent (performEach_table _ state)
      intro state same
      rw [← same]
      apply map_bind_view (calls (constant.2.ce, true) state)
      intro state
      apply map_bind_silent (performEach_table _ { state with table := _ })
      intro state same
      rw [ih _ state, same]

variable [DecidableEq ClassId]

omit [DecidableEq Key] [DecidableEq Name] in
theorem prepareClassPropertyTable_table (candidate : ClassId)
    (state : Creating Key Name (List (Effect Address))) :
    (prepareClassPropertyTable source record recorded candidate state).map (·.table) =
      EntryCreation.callEach plain true
        ((source.entry candidate).propertiesInfo.filter (· ≠ candidate)) state.table := by
  have property : ∀ (state : Creating Key Name (List (Effect Address)))
      (info : ClassId × List (Attribute (Constant Address))),
      (prepareProperty record recorded candidate state info).map (·.table) =
        if info.1 ≠ candidate then plain (info.1, true) state.table else some state.table := by
    intro state info
    unfold prepareProperty
    split
    · exact (map_bind_view (calls (info.1, true) state) (performEach_table _)).trans
        (Option.bind_fun_some _)
    · exact performEach_table _ state
  have properties : ((source.contents candidate).propertiesInfo.foldlM
      (prepareProperty record recorded candidate) state).map (·.table) =
      (source.contents candidate).propertiesInfo.foldlM (fun table info =>
        if info.1 ≠ candidate then plain (info.1, true) table else some table) state.table := by
    apply map_foldlM_view
    exact fun state info _ => property state info
  have filtered : (source.contents candidate).propertiesInfo.foldlM (fun table info =>
        if info.1 ≠ candidate then plain (info.1, true) table else some table) state.table =
      EntryCreation.callEach plain true
        ((source.entry candidate).propertiesInfo.filter (· ≠ candidate)) state.table := by
    unfold EntryCreation.callEach
    rw [List.foldlM_filter, source.properties_eq, List.foldlM_map]
    simp only [decide_eq_true_eq]
    rfl
  rw [← filtered]
  exact (map_bind_view properties (performEach_table _)).trans (Option.bind_fun_some _)

theorem lateBindings_table (candidate : ClassId) (prepared : Prepared Key Name)
    (state : Creating Key Name (List (Effect Address))) :
    (lateBindings source record recorded candidate prepared state).map (·.table) =
      EntryCreation.lateBindings source.toCreator plain candidate prepared state.table := by
  unfold lateBindings EntryCreation.lateBindings
  dsimp only
  split
  · exact initClassStatics_table candidate state
  · apply map_bind_view (prepareClassPropertyTable_table calls candidate state)
    intro state
    apply map_bind_silent (performEach_table _ state)
    intro state same
    rw [← same, source.constants_eq]
    exact (map_bind_view (prepareClassConstants_table calls _ _ _ state)
      (initClassStatics_table candidate)).trans (Option.bind_fun_some _)

theorem insertImmutable_table (candidate : ClassId) (late : Bool)
    (state : Creating Key Name (List (Effect Address))) :
    (insertImmutable source record recorded candidate late state).map (·.table) =
      EntryCreation.insertImmutable source.toCreator plain candidate late state.table := by
  have dependencies : ∀ state : Creating Key Name (List (Effect Address)),
      (prepareImmutableClassDependencies source recorded candidate late state).map (·.table) =
        EntryCreation.prepareImmutableClassDependencies source.toCreator plain candidate late
          state.table :=
    fun state => map_bind_view (callEach_table calls late _ state) (callEach_table calls late _)
  apply map_bind_view (dependencies { state with table := _ })
  intro state
  split
  · exact lateBindings_table calls candidate _ state
  · rfl

theorem insertCopy_table (candidate : ClassId) (late : Bool)
    (state : Creating Key Name (List (Effect Address))) :
    (insertCopy source record recorded candidate late state).map (·.table) =
      EntryCreation.insertCopy source.toCreator plain candidate late state.table := by
  apply map_bind_silent (performEach_table _ state)
  intro state same
  apply map_bind_silent (performEach_table _ state)
  intro later same_later
  rw [← same, ← same_later]
  apply map_bind_view (completeEntry_table calls candidate (fun _ _ => rfl) _ _ later)
  rintro ⟨state, prepared⟩
  have finish : ∀ state : Creating Key Name (List (Effect Address)),
      ((prepareClosures source record state).bind (callEach recorded true
        ((source.entry candidate).functionTable.filter (· ≠ candidate)))).map (·.table) =
        EntryCreation.callEach plain true
          ((source.entry candidate).functionTable.filter (· ≠ candidate)) state.table := by
    intro state
    apply map_bind_silent (prepareClosures_table state)
    intro state same
    rw [← same]
    exact callEach_table calls true _ state
  dsimp only
  split
  · exact map_bind_view
      (lateBindings_table calls candidate _ { state with table := _, started := _ }) finish
  · exact finish { state with table := _, started := _ }

theorem insertEntry_table (candidate : ClassId) (late : Bool)
    (state : Creating Key Name (List (Effect Address))) :
    (insertEntry source record recorded candidate late state).map (·.table) =
      EntryCreation.insertEntry source.toCreator plain candidate late state.table := by
  unfold insertEntry EntryCreation.insertEntry
  split
  · exact insertImmutable_table calls candidate late state
  · exact insertCopy_table calls candidate late state

theorem createEntryBody_table (task : ClassId × Bool)
    (state : Creating Key Name (List (Effect Address))) :
    (createEntryBody source record recorded task state).map (·.table) =
      EntryCreation.createEntryBody source.toCreator plain task state.table := by
  unfold createEntryBody EntryCreation.createEntryBody
  dsimp only
  split
  · rfl
  · cases state.table.find (source.entry task.1).name with
    | none => exact insertEntry_table calls task.1 task.2 state
    | some prepared =>
      dsimp only
      split
      · split
        · exact insertEntry_table calls task.1 task.2 state
        · apply map_bind_view (completeEntry_table calls task.1 (fun _ _ => rfl) _ _ state)
          rintro ⟨state, completed⟩
          dsimp only
          split
          · exact lateBindings_table calls task.1 _ state
          · rfl
      · rfl

end Projection

section Runs

variable {ClassId Key Name Address Tables : Type} [DecidableEq ClassId] [DecidableEq Key]
  [DecidableEq Name] (source : Source ClassId Key Name Address)

theorem createEntry_table (fuel : Nat) (task : ClassId × Bool)
    (state : Creating Key Name (List (Effect Address))) :
    (createEntry source record fuel task state).map (·.table) =
      EntryCreation.createEntry source.toCreator fuel task state.table := by
  induction fuel generalizing task state with
  | zero => rfl
  | succ fuel ih => exact createEntryBody_table ih task state

end Runs

section Fuel

variable {ClassId Key Name Address Tables : Type} {source : Source ClassId Key Name Address}
  {copy : Tables → Effect Address → Option Tables}
  {call more : ClassId × Bool → Creating Key Name Tables → Option (Creating Key Name Tables)}

theorem callEach_below (calls : ∀ task state, Below (call task state) (more task state))
    (late : Bool) (candidates : List ClassId) (state : Creating Key Name Tables) :
    Below (callEach call late candidates state) (callEach more late candidates state) :=
  below_foldlM (fun state candidate => calls (candidate, late) state) candidates state

variable [DecidableEq Key] [DecidableEq Name]
variable (calls : ∀ task state, Below (call task state) (more task state))
include calls

theorem completeEntry_below (candidate : ClassId)
    (store : Prepared Key Name → Creating Key Name Tables → Creating Key Name Tables)
    (prepared : Prepared Key Name) (known : List Name) (state : Creating Key Name Tables) :
    Below (completeEntry source copy call candidate store prepared known state)
      (completeEntry source copy more candidate store prepared known state) := by
  apply Below.ite
  · apply (callEach_below calls true _ _).bind
    intro state
    apply (callEach_below calls true _ _).bind
    exact fun state => Below.refl _
  · exact Below.refl _

theorem prepareClassConstants_below (key : Key)
    (constants : List (Name × ClassConstant ClassId Address)) (prepared : Prepared Key Name)
    (state : Creating Key Name Tables) :
    Below (prepareClassConstants copy call key constants prepared state)
      (prepareClassConstants copy more key constants prepared state) := by
  induction constants generalizing prepared state with
  | nil => exact Below.refl _
  | cons constant others ih =>
    apply Below.ite
    · exact ih prepared state
    · apply (Below.refl _).bind
      intro state
      apply (calls (constant.2.ce, true) state).bind
      intro state
      exact (Below.refl _).bind (ih _)

variable [DecidableEq ClassId]

theorem lateBindings_below (candidate : ClassId) (prepared : Prepared Key Name)
    (state : Creating Key Name Tables) :
    Below (lateBindings source copy call candidate prepared state)
      (lateBindings source copy more candidate prepared state) := by
  apply Below.ite
  · exact Below.refl _
  · refine Below.bind (Below.bind (below_foldlM ?_ _ state) fun state => Below.refl _) ?_
    · intro state info
      apply Below.ite
      · exact (calls (info.1, true) state).bind fun state => Below.refl _
      · exact Below.refl _
    · intro state
      apply (Below.refl _).bind
      intro state
      exact (prepareClassConstants_below calls _ _ _ state).bind fun state => Below.refl _

theorem insertImmutable_below (candidate : ClassId) (late : Bool)
    (state : Creating Key Name Tables) :
    Below (insertImmutable source copy call candidate late state)
      (insertImmutable source copy more candidate late state) := by
  refine Below.bind (Below.bind (callEach_below calls late _ _) (callEach_below calls late _)) ?_
  intro state
  apply Below.ite
  · exact lateBindings_below calls candidate _ state
  · exact Below.refl _

theorem insertCopy_below (candidate : ClassId) (late : Bool) (state : Creating Key Name Tables) :
    Below (insertCopy source copy call candidate late state)
      (insertCopy source copy more candidate late state) := by
  apply (Below.refl _).bind
  intro state
  apply (Below.refl _).bind
  intro state
  apply (completeEntry_below calls candidate _ _ _ state).bind
  rintro ⟨state, prepared⟩
  have finish : ∀ state : Creating Key Name Tables,
      Below ((prepareClosures source copy state).bind (callEach call true
          ((source.entry candidate).functionTable.filter (· ≠ candidate))))
        ((prepareClosures source copy state).bind (callEach more true
          ((source.entry candidate).functionTable.filter (· ≠ candidate)))) :=
    fun state => (Below.refl _).bind (callEach_below calls true _)
  apply Below.ite
  · exact (lateBindings_below calls candidate _ _).bind finish
  · exact finish _

theorem insertEntry_below (candidate : ClassId) (late : Bool) (state : Creating Key Name Tables) :
    Below (insertEntry source copy call candidate late state)
      (insertEntry source copy more candidate late state) := by
  apply Below.ite
  · exact insertImmutable_below calls candidate late state
  · exact insertCopy_below calls candidate late state

theorem createEntryBody_below (task : ClassId × Bool) (state : Creating Key Name Tables) :
    Below (createEntryBody source copy call task state)
      (createEntryBody source copy more task state) := by
  unfold createEntryBody
  apply Below.ite
  · exact Below.refl _
  · cases state.table.find (source.entry task.1).name with
    | none => exact insertEntry_below calls task.1 task.2 state
    | some prepared =>
      apply Below.ite
      · apply Below.ite
        · exact insertEntry_below calls task.1 task.2 state
        · apply (completeEntry_below calls task.1 _ _ _ state).bind
          rintro ⟨state, completed⟩
          apply Below.ite
          · exact lateBindings_below calls task.1 _ state
          · exact Below.refl _
      · exact Below.refl _

omit calls in
/-- More fuel does not change what is created. -/
theorem createEntry_le {fuel larger : Nat} (enough : fuel ≤ larger) (task : ClassId × Bool)
    (state : Creating Key Name Tables) :
    Below (createEntry source copy fuel task state)
      (createEntry source copy larger task state) := by
  have once : ∀ fuel (task : ClassId × Bool) (state : Creating Key Name Tables),
      Below (createEntry source copy fuel task state)
        (createEntry source copy (fuel + 1) task state) := by
    intro fuel
    induction fuel with
    | zero => exact fun _ _ _ absent => absurd absent (Option.some_ne_none _).symm
    | succ fuel ih => exact createEntryBody_below ih
  induction enough with
  | refl => exact Below.refl _
  | step _ ih => exact ih.trans (once _ task state)

end Fuel

end Pthreads.EntryCopying
