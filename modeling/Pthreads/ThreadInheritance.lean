import Pthreads.StoreValues
import Pthreads.TableInheritance

/-!
# What a new thread inherits from its creator

`pthreads_prepared_startup` copies constants, functions, included files and INI settings
from the creator, as the options of `Thread::start` ask for.  Constants are looked up
under their name and under the name in lower case, closures are copied whatever the
options are, and the modification handler of a setting is called without a look whether
there is one.
-/

namespace Pthreads.ThreadInheritance

open OrderedTable
open Store (Bytes)

/-- The bits of the options. -/
abbrev Options := BitVec 64

def inheritIni : Options := 0x00000001
def inheritConstants : Options := 0x00000010
def inheritFunctions : Options := 0x00000100
def inheritIncludes : Options := 0x00010000
def allowHeaders : Options := 0x10000000

def asks (options flag : Options) : Bool := options &&& flag != 0

section Constants

/-- A `zend_constant`. -/
structure ZendConstant (Value : Type*) where
  name : Option Bytes
  value : Value
  /-- `CONST_PERSISTENT`. -/
  persistent : Bool
  moduleNumber : Int

/-- `zend_tolower_ascii`. -/
def lowerByte (byte : UInt8) : UInt8 := if 65 ≤ byte ∧ byte ≤ 90 then byte + 32 else byte

/-- `zend_string_tolower`. -/
def lower (name : Bytes) : Bytes := name.map lowerByte

/-- A string as far as the functions of C read it. -/
def cString (bytes : Bytes) : Bytes := bytes.takeWhile (· ≠ 0)

/-- The namespace of a constant's name in lower case, up to the last backslash that
`strrchr` finds. -/
def lowerNamespace (name : Bytes) : Bytes :=
  let shown := cString name
  let base := (shown.reverse.takeWhile (· ≠ 92)).reverse
  let length := shown.length - base.length
  lower (name.take length) ++ name.drop length

/-- The names `null`, `true` and `false`. -/
def specialNames : List Bytes :=
  [[110, 117, 108, 108], [116, 114, 117, 101], [102, 97, 108, 115, 101]]

/-- `zend_get_special_const`. -/
def isSpecial (name : Bytes) : Bool := specialNames.any fun special => lower name = special

/-- The name `__COMPILER_HALT_OFFSET__`. -/
def haltOffset : Bytes :=
  [95, 95, 67, 79, 77, 80, 73, 76, 69, 82, 95, 72, 65, 76, 84, 95, 79, 70, 70, 83, 69, 84, 95, 95]

/-- `zend_register_constant` takes the name. -/
def registers (name : Bytes) (persistent : Bool) : Bool :=
  decide (name ≠ haltOffset) && (persistent || !isSpecial name)

/-- `EG(zend_constants)`: the constants that were registered, under their names. -/
structure ConstantTable (Value : Type*) where
  table : OrderedTable Bytes (ZendConstant Value)
  normal : ∀ entry ∈ table.entries, lowerNamespace entry.1 = entry.1
  registered : ∀ entry ∈ table.entries, registers entry.1 entry.2.persistent = true

variable {Value Copied : Type*}

/-- `zend_register_constant`, which only warns of a constant that it does not take. -/
def zendRegisterConstant (table : OrderedTable Bytes (ZendConstant Copied)) (name : Bytes)
    (constant : ZendConstant Copied) : OrderedTable Bytes (ZendConstant Copied) :=
  let key := lowerNamespace name
  if registers key constant.persistent = true ∧ table.find key = none then
    table.update key constant
  else table

/-- `pthreads_constant_exists`. -/
def constantExists (table : OrderedTable Bytes (ZendConstant Copied)) (name : Bytes) : Bool :=
  (table.find name).isSome || (table.find (lower name)).isSome

/-- The copy of a constant, under the name that is the key of the original. -/
def copyConstant (copyZval : Value → Option Copied) (name : Bytes)
    (constant : ZendConstant Value) : Option (ZendConstant Copied) :=
  (copyZval constant.value).map fun copied =>
    ⟨some name, copied, constant.persistent, constant.moduleNumber⟩

variable (isResource : Value → Bool) (copyZval : Value → Option Copied)

/-- `pthreads_prepare_constants`; a value that cannot be copied is a fatal error. -/
def prepareConstants : List (Bytes × ZendConstant Value) →
    OrderedTable Bytes (ZendConstant Copied) → Option (OrderedTable Bytes (ZendConstant Copied))
  | [], table => some table
  | (name, constant) :: constants, table =>
      if constant.name = none ∨ isResource constant.value = true ∨
          constantExists table name = true then
        prepareConstants constants table
      else
        match copyConstant copyZval name constant with
        | none => none
        | some copied => prepareConstants constants (zendRegisterConstant table name copied)

/-- The constant has a name and can be copied in principle. -/
def isCopied (_ : Bytes) (constant : ZendConstant Value) : Bool :=
  constant.name.isSome && !isResource constant.value

theorem lowerByte_idempotent (byte : UInt8) : lowerByte (lowerByte byte) = lowerByte byte := by
  unfold lowerByte
  split
  · next upper =>
    have above : ¬ (65 ≤ byte + 32 ∧ byte + 32 ≤ 90) := by
      rw [UInt8.le_iff_toNat_le, UInt8.le_iff_toNat_le] at upper ⊢
      rw [UInt8.toNat_add]
      have low : (65 : UInt8).toNat = 65 := rfl
      have high : (90 : UInt8).toNat = 90 := rfl
      have shift : (32 : UInt8).toNat = 32 := rfl
      omega
    rw [if_neg above]
  · rfl

theorem lower_idempotent (name : Bytes) : lower (lower name) = lower name := by
  unfold lower
  rw [List.map_map]
  congr 1
  funext byte
  exact lowerByte_idempotent byte

/-- For constants that were registered the loop adds each that is not known yet. -/
theorem prepareConstants_eq {entries : List (Bytes × ZendConstant Value)}
    {table : OrderedTable Bytes (ZendConstant Copied)}
    (normal : ∀ entry ∈ entries, lowerNamespace entry.1 = entry.1)
    (registered : ∀ entry ∈ entries, registers entry.1 entry.2.persistent = true) :
    prepareConstants isResource copyZval entries table =
      inheritEach lower (isCopied isResource) (copyConstant copyZval) entries table := by
  induction entries generalizing table with
  | nil => rfl
  | cons entry entries ih =>
      obtain ⟨name, constant⟩ := entry
      have restNormal : ∀ other ∈ entries, lowerNamespace other.1 = other.1 :=
        fun other isIn => normal other (List.mem_cons_of_mem _ isIn)
      have restRegistered : ∀ other ∈ entries, registers other.1 other.2.persistent = true :=
        fun other isIn => registered other (List.mem_cons_of_mem _ isIn)
      rw [prepareConstants, inheritEach]
      by_cases inherits : isCopied isResource name constant = true ∧ knows lower table name = false
      · have taken : ¬ (constant.name = none ∨ isResource constant.value = true ∨
            constantExists table name = true) := by
          have isUnknown : constantExists table name = false := inherits.2
          have isNamed := inherits.1
          simp only [isCopied, Bool.and_eq_true, Bool.not_eq_true', Option.isSome_iff_ne_none]
            at isNamed
          simp [isUnknown, isNamed]
        rw [if_neg taken, if_pos inherits]
        cases copied : copyConstant copyZval name constant with
        | none => rfl
        | some made =>
            dsimp only
            rw [ih restNormal restRegistered]
            have isFree : table.find name = none := by
              have unknown := inherits.2
              simp only [knows, Bool.or_eq_false_iff, Option.isSome_eq_false_iff,
                Option.isNone_iff_eq_none] at unknown
              exact unknown.1
            have persistent : made.persistent = constant.persistent := by
              obtain ⟨value, -, rfl⟩ := Option.map_eq_some_iff.mp copied
              rfl
            have isNormal := normal _ List.mem_cons_self
            have isRegistered := registered _ List.mem_cons_self
            simp only [zendRegisterConstant, isNormal, persistent, isRegistered, isFree, and_self,
              if_true]
      · have skipped : constant.name = none ∨ isResource constant.value = true ∨
            constantExists table name = true := by
          by_contra taken
          apply inherits
          simp only [not_or, Bool.not_eq_true] at taken
          constructor
          · simp [isCopied, taken.2.1, Option.isSome_iff_ne_none, taken.1]
          · exact taken.2.2
        rw [if_pos skipped, if_neg inherits]
        exact ih restNormal restRegistered

end Constants

section Functions

variable {Function Prepared : Type*}

/-- `pthreads_prepare_functions`. -/
def prepareFunctions (isInternal : Function → Bool) (copyFunction : Function → Prepared)
    (functions : List (Bytes × Function)) (table : OrderedTable Bytes Prepared) :
    OrderedTable Bytes Prepared :=
  addEach (fun _ function => !isInternal function) (fun _ function => copyFunction function)
    functions table

/-- `pthreads_prepare_closures`. -/
def prepareClosures (isClosure : Function → Bool) (copyFunction : Function → Prepared)
    (functions : List (Bytes × Function)) (table : OrderedTable Bytes Prepared) :
    OrderedTable Bytes Prepared :=
  addEach (fun _ function => isClosure function) (fun _ function => copyFunction function)
    functions table

/-- `pthreads_prepare_includes`. -/
def prepareIncludes (files : List (Bytes × Unit)) (table : OrderedTable Bytes Unit) :
    OrderedTable Bytes Unit :=
  addEach (fun _ _ => true) (fun _ _ => ()) files table

end Functions

section Settings

/-- A `zend_ini_entry`. -/
structure IniEntry where
  value : Option Bytes
  origValue : Option Bytes
  modifiable : Nat
  origModifiable : Nat
  modified : Bool
  /-- There is an `on_modify` handler. -/
  hasHandler : Bool

/-- The settings of a thread. -/
structure Settings where
  directives : OrderedTable Bytes IniEntry
  /-- `EG(modified_ini_directives)`. -/
  modifiedDirectives : OrderedTable Bytes Unit
  /-- The calls of `on_modify`, the last one first. -/
  notified : List (Bytes × Bytes)

/-- The values of a setting in the two threads differ. -/
def differs (given : Option Bytes) (entry : IniEntry) : Option Bytes :=
  match given, entry.value with
  | some new, some old => if cString new ≠ cString old then some new else none
  | _, _ => none

/-- The setting after it was given another value. -/
def givenValue (entry : IniEntry) (new : Bytes) : IniEntry :=
  { entry with
    value := some new
    origValue := if entry.modified then entry.origValue else entry.value
    origModifiable := if entry.modified then entry.origModifiable else entry.modifiable
    modified := true }

/-- `pthreads_prepare_ini`, from the loop on; a call of a handler that is not there
crashes. -/
def inheritSettings : List (Bytes × IniEntry) → Settings → Option Settings
  | [], settings => some settings
  | (name, given) :: entries, settings =>
      match settings.directives.find name with
      | none => inheritSettings entries settings
      | some entry =>
          match differs given.value entry with
          | none => inheritSettings entries settings
          | some new =>
              if entry.hasHandler = true then
                inheritSettings entries
                  { directives := settings.directives.update name (givenValue entry new)
                    modifiedDirectives :=
                      if entry.modified then settings.modifiedDirectives
                      else settings.modifiedDirectives.update name ()
                    notified := (name, new) :: settings.notified }
              else none

/-- The string `session.cache_limiter` of the globals, which is `cache_limiter` without
the name of the extension. -/
def cacheLimiter : Bytes := [99, 97, 99, 104, 101, 95, 108, 105, 109, 105, 116, 101, 114]

/-- The string `session.use_cookies`, which is `use_cookies`. -/
def useCookies : Bytes := [117, 115, 101, 95, 99, 111, 111, 107, 105, 101, 115]

/-- `pthreads_prepare_ini`; the new values are `nocache` and `0`. -/
def prepareIni (alterIniEntry : OrderedTable Bytes IniEntry → Bytes → Bytes →
      OrderedTable Bytes IniEntry) (options : Options) (entries : List (Bytes × IniEntry))
    (settings : Settings) : Option Settings :=
  let directives :=
    if asks options allowHeaders then settings.directives
    else alterIniEntry
      (alterIniEntry settings.directives cacheLimiter [110, 111, 99, 97, 99, 104, 101]) useCookies
        [48]
  inheritSettings entries { settings with directives := directives }

/-- What a setting is after the thread has been prepared. -/
def inherited (given : Option IniEntry) (entry : IniEntry) : IniEntry :=
  match given.bind fun setting => differs setting.value entry with
  | some new => givenValue entry new
  | none => entry

/-- A setting differs and has no handler. -/
def Crashes (entries : List (Bytes × IniEntry)) (settings : Settings) : Prop :=
  ∃ name given entry, (name, given) ∈ entries ∧ settings.directives.find name = some entry ∧
    (differs given.value entry).isSome = true ∧ entry.hasHandler = false

theorem lookup_notMem {name : Bytes} {entries : List (Bytes × IniEntry)}
    (notIn : name ∉ entries.map Prod.fst) : lookup name entries = none := by
  rw [Option.eq_none_iff_forall_ne_some]
  intro entry found
  exact notIn (List.mem_map_of_mem (mem_of_lookup found))

theorem crashes_cons {name : Bytes} {given : IniEntry} {entries : List (Bytes × IniEntry)}
    {settings : Settings} (survives : ∀ entry, settings.directives.find name = some entry →
      (differs given.value entry).isSome = true → entry.hasHandler = true) :
    Crashes ((name, given) :: entries) settings ↔ Crashes entries settings := by
  constructor
  · rintro ⟨other, setting, entry, isIn, found, differ, noHandler⟩
    rcases List.mem_cons.mp isIn with same | isLater
    · obtain ⟨rfl, rfl⟩ := Prod.mk.inj same
      rw [survives entry found differ] at noHandler
      cases noHandler
    · exact ⟨other, setting, entry, isLater, found, differ, noHandler⟩
  · rintro ⟨other, setting, entry, isIn, found⟩
    exact ⟨other, setting, entry, List.mem_cons_of_mem _ isIn, found⟩

/-- A setting that is not in the list does not matter to its crashes. -/
theorem crashes_update {name : Bytes} {made : IniEntry} {entries : List (Bytes × IniEntry)}
    {settings changed : Settings} (notIn : name ∉ entries.map Prod.fst)
    (directives : changed.directives = settings.directives.update name made) :
    Crashes entries changed ↔ Crashes entries settings := by
  have same : ∀ other given, (other, given) ∈ entries →
      changed.directives.find other = settings.directives.find other := by
    intro other given isIn
    have different : other ≠ name := by
      rintro rfl
      exact notIn (List.mem_map_of_mem isIn)
    rw [directives, find_update_other _ _ different]
  constructor
  · rintro ⟨other, given, entry, isIn, found, crashes⟩
    exact ⟨other, given, entry, isIn, (same other given isIn) ▸ found, crashes⟩
  · rintro ⟨other, given, entry, isIn, found, crashes⟩
    exact ⟨other, given, entry, isIn, (same other given isIn).trans found, crashes⟩

/-- The settings are inherited unless one of them crashes. -/
theorem inheritSettings_isSome_iff {entries : List (Bytes × IniEntry)} {settings : Settings}
    (distinct : (entries.map Prod.fst).Nodup) :
    (inheritSettings entries settings).isSome = true ↔ ¬ Crashes entries settings := by
  induction entries generalizing settings with
  | nil => simp [inheritSettings, Crashes]
  | cons setting entries ih =>
      obtain ⟨name, given⟩ := setting
      obtain ⟨notIn, distinctRest⟩ := List.nodup_cons.mp distinct
      cases found : settings.directives.find name with
      | none =>
          simp only [inheritSettings, found]
          rw [ih distinctRest, crashes_cons (by simp [found])]
      | some entry =>
          cases differ : differs given.value entry with
          | none =>
              simp only [inheritSettings, found, differ]
              rw [ih distinctRest, crashes_cons]
              rintro _ isEntry isDifferent
              rw [found, Option.some.injEq] at isEntry
              subst isEntry
              rw [differ] at isDifferent
              cases isDifferent
          | some new =>
              simp only [inheritSettings, found, differ]
              by_cases handled : entry.hasHandler = true
              · rw [if_pos handled, ih distinctRest, crashes_update notIn rfl, crashes_cons]
                intro _ isEntry _
                rw [found, Option.some.injEq] at isEntry
                subst isEntry
                exact handled
              · rw [if_neg handled]
                have crashes : Crashes ((name, given) :: entries) settings :=
                  ⟨name, given, entry, List.mem_cons_self, found, by simp [differ],
                    Bool.eq_false_iff.mpr handled⟩
                simp [crashes]

/-- Every setting of the thread is what the creator's is, where both have a value. -/
theorem find_inheritSettings {entries : List (Bytes × IniEntry)} {settings after : Settings}
    (distinct : (entries.map Prod.fst).Nodup)
    (ended : inheritSettings entries settings = some after) (wanted : Bytes) :
    after.directives.find wanted =
      (settings.directives.find wanted).map (inherited (lookup wanted entries)) := by
  induction entries generalizing settings with
  | nil =>
      cases ended
      cases after.directives.find wanted <;> rfl
  | cons setting entries ih =>
      obtain ⟨name, given⟩ := setting
      obtain ⟨notIn, distinctRest⟩ := List.nodup_cons.mp distinct
      have isLookup : lookup wanted ((name, given) :: entries) =
          if name = wanted then some given else lookup wanted entries := rfl
      rw [isLookup]
      cases found : settings.directives.find name with
      | none =>
          simp only [inheritSettings, found] at ended
          rw [ih distinctRest ended]
          split
          · next same =>
            subst same
            simp [found]
          · rfl
      | some entry =>
          cases differ : differs given.value entry with
          | none =>
              simp only [inheritSettings, found, differ] at ended
              rw [ih distinctRest ended]
              split
              · next same =>
                subst same
                rw [lookup_notMem notIn]
                simp [found, inherited, differ]
              · rfl
          | some new =>
              simp only [inheritSettings, found, differ] at ended
              obtain ⟨-, rest⟩ := Option.ite_none_right_eq_some.mp ended
              rw [ih distinctRest rest]
              by_cases same : name = wanted
              · subst same
                rw [lookup_notMem notIn]
                simp [found, inherited, differ]
              · rw [if_neg same, find_update_other _ _ (Ne.symm same)]

end Settings

section Startup

variable {Value Copied Function Prepared : Type*}

/-- What the creator has. -/
structure Creator (Value Function : Type*) where
  constants : ConstantTable Value
  functions : OrderedTable Bytes Function
  includedFiles : OrderedTable Bytes Unit
  directives : OrderedTable Bytes IniEntry

/-- What the new thread has. -/
structure Thread (Copied Prepared : Type*) where
  constants : OrderedTable Bytes (ZendConstant Copied)
  functions : OrderedTable Bytes Prepared
  includedFiles : OrderedTable Bytes Unit
  settings : Settings

/-- What the preparation does with values, functions and settings. -/
structure Preparation (Value Copied Function Prepared : Type*) where
  isResource : Value → Bool
  /-- There is no result if the copying fails, nor if it does not end. -/
  copyZval : Value → Option Copied
  isInternal : Function → Bool
  /-- `ZEND_ACC_CLOSURE`. -/
  isClosure : Function → Bool
  /-- Of a function whose copying ends. -/
  copyFunction : Function → Prepared
  /-- `zend_alter_ini_entry_chars`. -/
  alterIniEntry : OrderedTable Bytes IniEntry → Bytes → Bytes → OrderedTable Bytes IniEntry
  /-- It looks a setting up first. -/
  alterMissing : ∀ table name value, table.find name = none → alterIniEntry table name value = table

variable (preparation : Preparation Value Copied Function Prepared) (options : Options)
  (creator : Creator Value Function) (thread : Thread Copied Prepared)

def startupSettings : Option Settings :=
  if asks options inheritIni then
    prepareIni preparation.alterIniEntry options creator.directives.entries thread.settings
  else some thread.settings

def startupConstants : Option (OrderedTable Bytes (ZendConstant Copied)) :=
  if asks options inheritConstants then
    prepareConstants preparation.isResource preparation.copyZval
      creator.constants.table.entries thread.constants
  else some thread.constants

def startupFunctions : OrderedTable Bytes Prepared :=
  if asks options inheritFunctions then
    prepareFunctions preparation.isInternal preparation.copyFunction creator.functions.entries
      thread.functions
  else
    prepareClosures preparation.isClosure preparation.copyFunction creator.functions.entries
      thread.functions

def startupIncludes : OrderedTable Bytes Unit :=
  if asks options inheritIncludes then
    prepareIncludes creator.includedFiles.entries thread.includedFiles
  else thread.includedFiles

/-- `pthreads_prepared_startup`, after the request has started and without the classes. -/
def preparedStartup : Option (Thread Copied Prepared) :=
  (startupSettings preparation options creator thread).bind fun settings =>
    (startupConstants preparation options creator thread).map fun constants =>
      ⟨constants, startupFunctions preparation options creator thread,
        startupIncludes options creator thread, settings⟩

variable {preparation options creator thread} {after : Thread Copied Prepared}

theorem preparedStartup_eq
    (ended : preparedStartup preparation options creator thread = some after) :
    startupSettings preparation options creator thread = some after.settings ∧
      startupConstants preparation options creator thread = some after.constants := by
  obtain ⟨settings, isSettings, rest⟩ := Option.bind_eq_some_iff.mp ended
  obtain ⟨constants, isConstants, rfl⟩ := Option.map_eq_some_iff.mp rest
  exact ⟨isSettings, isConstants⟩

/-- A constant is inherited if and only if it has a name and is no resource, the thread
has none under its name or its name in lower case, and the creator has, before it, no
constant under its name in lower case that has a name and is no resource. -/
theorem constant_inherited_iff
    (ended : preparedStartup preparation options creator thread = some after)
    (asked : asks options inheritConstants = true) (name : Bytes)
    (constant : ZendConstant Copied) :
    after.constants.find name = some constant ↔ thread.constants.find name = some constant ∨
      ∃ original, Inherits lower (isCopied preparation.isResource)
        creator.constants.table.entries thread.constants name original ∧
          copyConstant preparation.copyZval name original = some constant := by
  have constants := (preparedStartup_eq ended).2
  rw [startupConstants, if_pos asked,
    prepareConstants_eq _ _ creator.constants.normal creator.constants.registered] at constants
  exact find_inheritEach lower_idempotent creator.constants.table.distinct constants

/-- The settings that are altered are not there. -/
def NoSuchSettings (settings : Settings) : Prop :=
  settings.directives.find cacheLimiter = none ∧ settings.directives.find useCookies = none

theorem prepareIni_eq {entries : List (Bytes × IniEntry)} {settings : Settings}
    (missing : NoSuchSettings settings) :
    prepareIni preparation.alterIniEntry options entries settings =
      inheritSettings entries settings := by
  unfold prepareIni
  rw [preparation.alterMissing _ _ _ missing.1, preparation.alterMissing _ _ _ missing.2, ite_self]

theorem startupSettings_isSome_iff (missing : NoSuchSettings thread.settings) :
    (startupSettings preparation options creator thread).isSome = true ↔
      (asks options inheritIni = true →
        ¬ Crashes creator.directives.entries thread.settings) := by
  unfold startupSettings
  by_cases asked : asks options inheritIni = true
  · rw [if_pos asked, prepareIni_eq missing, inheritSettings_isSome_iff creator.directives.distinct]
    simp [asked]
  · simp [asked]

theorem startupConstants_isSome_iff :
    (startupConstants preparation options creator thread).isSome = true ↔
      (asks options inheritConstants = true → ∀ name original,
        Inherits lower (isCopied preparation.isResource) creator.constants.table.entries
          thread.constants name original →
            (preparation.copyZval original.value).isSome = true) := by
  unfold startupConstants
  by_cases asked : asks options inheritConstants = true
  · rw [if_pos asked,
      prepareConstants_eq _ _ creator.constants.normal creator.constants.registered,
      inheritEach_isSome_iff lower_idempotent creator.constants.table.distinct]
    simp [asked, copyConstant]
  · simp [asked]

/-- The preparation comes past the settings and the constants if and only if every
setting that differs has a handler and every constant that is inherited can be copied, as
far as they are asked for. -/
theorem settings_and_constants_end_iff (missing : NoSuchSettings thread.settings) :
    ((startupSettings preparation options creator thread).isSome = true ∧
      (startupConstants preparation options creator thread).isSome = true) ↔
      (asks options inheritIni = true → ¬ Crashes creator.directives.entries thread.settings) ∧
        (asks options inheritConstants = true → ∀ name original,
          Inherits lower (isCopied preparation.isResource) creator.constants.table.entries
            thread.constants name original →
              (preparation.copyZval original.value).isSome = true) :=
  and_congr (startupSettings_isSome_iff missing) startupConstants_isSome_iff

/-- Whether headers are allowed or not, a setting that has a value in both threads has
the creator's afterwards, and can be modified as before; the others are as they were. -/
theorem setting_inherited
    (ended : preparedStartup preparation options creator thread = some after)
    (asked : asks options inheritIni = true) (missing : NoSuchSettings thread.settings)
    (name : Bytes) :
    after.settings.directives.find name =
        (thread.settings.directives.find name).map (inherited (creator.directives.find name)) ∧
      ∀ given entry new old, creator.directives.find name = some given → given.value = some new →
        thread.settings.directives.find name = some entry → entry.value = some old →
          ∃ result value, after.settings.directives.find name = some result ∧
            result.value = some value ∧ cString value = cString new ∧
              result.modifiable = entry.modifiable := by
  have settings := (preparedStartup_eq ended).1
  rw [startupSettings, if_pos asked, prepareIni_eq missing] at settings
  have found := find_inheritSettings creator.directives.distinct settings name
  refine ⟨found, ?_⟩
  intro given entry new old isGiven hasNew isEntry hasOld
  have isLookup : lookup name creator.directives.entries = some given := isGiven
  rw [isEntry, isLookup] at found
  by_cases same : cString new = cString old
  · have equal : differs given.value entry = none := by simp [differs, hasNew, hasOld, same]
    refine ⟨entry, old, ?_, hasOld, same.symm, rfl⟩
    simpa [inherited, equal] using found
  · have differ : differs given.value entry = some new := by simp [differs, hasNew, hasOld, same]
    refine ⟨givenValue entry new, new, ?_, rfl, rfl, rfl⟩
    simpa [inherited, differ] using found

/-- Functions of user code are copied when they are asked for, and otherwise closures. -/
theorem function_inherited_iff
    (ended : preparedStartup preparation options creator thread = some after) (name : Bytes)
    (prepared : Prepared) :
    after.functions.find name = some prepared ↔ thread.functions.find name = some prepared ∨
      (thread.functions.find name = none ∧ ∃ function,
        creator.functions.find name = some function ∧
          (if asks options inheritFunctions then preparation.isInternal function = false
            else preparation.isClosure function = true) ∧
          preparation.copyFunction function = prepared) := by
  obtain ⟨settings, -, rest⟩ := Option.bind_eq_some_iff.mp ended
  obtain ⟨constants, -, rfl⟩ := Option.map_eq_some_iff.mp rest
  dsimp only
  unfold startupFunctions
  by_cases asked : asks options inheritFunctions = true
  · rw [if_pos asked, prepareFunctions, find_addEach creator.functions.distinct]
    simp [asked, find_eq_some_iff]
  · rw [if_neg asked, prepareClosures, find_addEach creator.functions.distinct]
    simp [asked, find_eq_some_iff]

end Startup

section Samples

/-- Values and functions are numbers; value 9 cannot be copied. -/
def plainPreparation : Preparation Nat Nat Nat Nat where
  isResource _ := false
  copyZval value := if value = 9 then none else some value
  isInternal function := function = 0
  isClosure function := function = 1
  copyFunction function := function
  alterIniEntry table _ _ := table
  alterMissing _ _ _ _ := rfl

/-- The creator has defined `foo` and then `FOO`, has a closure, and has set `bar`. -/
def fooCreator : Creator Nat Nat where
  constants :=
    { table := ⟨[([102, 111, 111], ⟨some [102, 111, 111], 1, false, 0⟩),
        ([70, 79, 79], ⟨some [70, 79, 79], 2, false, 0⟩)], by decide⟩
      normal := by decide
      registered := by decide }
  functions := ⟨[([99], 1)], by decide⟩
  includedFiles := OrderedTable.empty
  directives := ⟨[([98, 97, 114], ⟨some [49], some [48], 7, 7, true, true⟩)], by decide⟩

/-- The new thread has the setting with its default. -/
def newThread : Thread Nat Nat where
  constants := OrderedTable.empty
  functions := OrderedTable.empty
  includedFiles := OrderedTable.empty
  settings := ⟨⟨[([98, 97, 114], ⟨some [48], none, 7, 0, false, true⟩)], by decide⟩,
    OrderedTable.empty, []⟩

theorem constant_inherited_fooThenFOO :
    ∃ after, preparedStartup plainPreparation 0x11 fooCreator newThread = some after ∧
      after.constants.find [70, 79, 79] = none ∧
      (after.constants.find [102, 111, 111] = some ⟨some [102, 111, 111], 1, false, 0⟩ ↔
        newThread.constants.find [102, 111, 111] = some ⟨some [102, 111, 111], 1, false, 0⟩ ∨
          ∃ original, Inherits lower (isCopied plainPreparation.isResource)
            fooCreator.constants.table.entries newThread.constants [102, 111, 111] original ∧
              copyConstant plainPreparation.copyZval [102, 111, 111] original =
                some ⟨some [102, 111, 111], 1, false, 0⟩) :=
  ⟨_, rfl, rfl, @constant_inherited_iff _ _ _ _ plainPreparation 0x11 _ _ _ rfl (by decide) _ _⟩

theorem settings_and_constants_end_fooThenFOO :
    ((startupSettings plainPreparation 0x11 fooCreator newThread).isSome = true ∧
      (startupConstants plainPreparation 0x11 fooCreator newThread).isSome = true) ↔
      (asks 0x11 inheritIni = true →
          ¬ Crashes fooCreator.directives.entries newThread.settings) ∧
        (asks 0x11 inheritConstants = true → ∀ name original,
          Inherits lower (isCopied plainPreparation.isResource) fooCreator.constants.table.entries
            newThread.constants name original →
              (plainPreparation.copyZval original.value).isSome = true) :=
  settings_and_constants_end_iff ⟨by decide, by decide⟩

theorem setting_inherited_bar :
    ∃ after, preparedStartup plainPreparation 0x11 fooCreator newThread = some after ∧
      after.settings.directives.find [98, 97, 114] =
        (newThread.settings.directives.find [98, 97, 114]).map
          (inherited (fooCreator.directives.find [98, 97, 114])) :=
  ⟨_, rfl, (@setting_inherited _ _ _ _ plainPreparation 0x11 _ _ _ rfl (by decide)
    ⟨by decide, by decide⟩ _).1⟩

end Samples

end Pthreads.ThreadInheritance
