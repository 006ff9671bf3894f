import Mathlib.Data.List.Pairwise
import Mathlib.Logic.Function.Basic
import Pthreads.GuardedRuns
import Pthreads.StoreValues

/-!
# The strings that all threads share

`pthreads_globals_add_interned_string` looks for a string with the same bytes before it
makes a permanent copy, first among the strings that PHP has interned for the process
and then, with the global monitor, among its own.  Threads look up and add strings in
any interleaving, and every content has one string.
-/

namespace Pthreads.InternedStrings

open GuardedRuns
open Store (Bytes ZString)

/-- What `zend_interned_string_find_permanent` finds, which stays as it is while threads
run. -/
structure PermanentStrings where
  find : Bytes → Option ZString
  /-- Where the strings are. -/
  occupied : Nat → Bool
  bytes : ∀ content string, find content = some string → string.bytes = content
  permanent : ∀ content string, find content = some string → string.permanent = true
  occupies : ∀ content string, find content = some string → occupied string.pointer = true
  distinct : ∀ content other first second, find content = some first →
    find other = some second → first.pointer = second.pointer → content = other

/-- Where a thread is in one of the two functions. -/
inductive Phase where
  | idle
  /-- `pthreads_globals_find_interned_string`, before the lookup in PHP's table and before
  the locked one. -/
  | finding (string : ZString)
  | querying (string : ZString)
  /-- `pthreads_globals_add_interned_string`, before it locks; then, locked, before each of
  the lookups, before the copy is made and before it unlocks. -/
  | adding (string : ZString)
  | looking (string : ZString)
  | searching (string : ZString)
  | inserting (string : ZString)
  | unlocking (string result : ZString)
deriving DecidableEq

/-- What a call was given and what it returned. -/
structure Return where
  string : ZString
  result : Option ZString
  isAdd : Bool

structure State where
  /-- `PTHREADS_G(interned_strings)`. -/
  interned : OrderedTable Bytes ZString
  /-- The thread that has the global monitor. -/
  holder : Option Nat
  phase : Nat → Phase
  /-- The calls that have returned, the last one first. -/
  returned : List Return

def initial : State := ⟨OrderedTable.empty, none, fun _ => .idle, []⟩

inductive Action where
  | find (thread : Nat) (string : ZString)
  | add (thread : Nat) (string : ZString)
  /-- The thread goes on; a copy is placed at the fresh address. -/
  | advance (thread fresh : Nat)

def State.move (state : State) (thread : Nat) (phase : Phase) : State :=
  { state with phase := Function.update state.phase thread phase }

def State.return (state : State) (thread : Nat) (returned : Return) : State :=
  { state.move thread .idle with returned := returned :: state.returned }

/-- The permanent copy of a string. -/
def internedCopy (string : ZString) (fresh : Nat) : ZString := ⟨fresh, string.bytes, true⟩

/-- No string is at the address. -/
def isFresh (permanents : PermanentStrings) (state : State) (address : Nat) : Bool :=
  !permanents.occupied address &&
    state.interned.entries.all fun entry => decide (entry.2.pointer ≠ address)

/-- The next part of the call that a thread is in. -/
def advance (permanents : PermanentStrings) (state : State) (thread fresh : Nat) : Option State :=
  match state.phase thread with
  | .idle => none
  | .finding string =>
      match permanents.find string.bytes with
      | some result => some (state.return thread ⟨string, some result, false⟩)
      | none => some (state.move thread (.querying string))
  | .querying string =>
      if state.holder = none then
        some (state.return thread ⟨string, state.interned.find string.bytes, false⟩)
      else none
  | .adding string =>
      if state.holder = none then
        some { state.move thread (.looking string) with holder := some thread }
      else none
  | .looking string =>
      match permanents.find string.bytes with
      | some result => some (state.move thread (.unlocking string result))
      | none => some (state.move thread (.searching string))
  | .searching string =>
      match state.interned.find string.bytes with
      | some result => some (state.move thread (.unlocking string result))
      | none => some (state.move thread (.inserting string))
  | .inserting string =>
      if isFresh permanents state fresh = true then
        some { state.move thread (.unlocking string (internedCopy string fresh)) with
          interned := state.interned.update string.bytes (internedCopy string fresh) }
      else none
  | .unlocking string result =>
      some { state.return thread ⟨string, some result, true⟩ with holder := none }

def step (permanents : PermanentStrings) (state : State) : Action → Option State
  | .find thread string =>
      if state.phase thread = .idle then
        some (if string.permanent = true then state.return thread ⟨string, some string, false⟩
          else state.move thread (.finding string))
      else none
  | .add thread string =>
      if state.phase thread = .idle then
        some (if string.permanent = true then state.return thread ⟨string, some string, true⟩
          else state.move thread (.adding string))
      else none
  | .advance thread fresh => advance permanents state thread fresh

section Accounting

variable (permanents : PermanentStrings) (interned : OrderedTable Bytes ZString)

/-- The string that stands for a content. -/
def canonical (content : Bytes) : Option ZString :=
  (permanents.find content).or (interned.find content)

/-- What a thread knows where it is. -/
def Knows (holder : Option Nat) (thread : Nat) : Phase → Prop
  | .idle => True
  | .finding string => string.permanent = false
  | .querying string => string.permanent = false ∧ permanents.find string.bytes = none
  | .adding string => string.permanent = false
  | .looking string => string.permanent = false ∧ holder = some thread
  | .searching string =>
      string.permanent = false ∧ holder = some thread ∧ permanents.find string.bytes = none
  | .inserting string =>
      string.permanent = false ∧ holder = some thread ∧
        canonical permanents interned string.bytes = none
  | .unlocking string result =>
      string.permanent = false ∧ holder = some thread ∧
        canonical permanents interned string.bytes = some result

/-- What a call has returned still holds. -/
structure Accounts (returned : Return) : Prop where
  itself : returned.string.permanent = true → returned.result = some returned.string
  added : returned.isAdd = true → returned.result.isSome = true
  canonical : ∀ result, returned.string.permanent = false → returned.result = some result →
    canonical permanents interned returned.string.bytes = some result

end Accounting

/-- A call that finds nothing comes before every call that returns the content's
string. -/
def InOrder (later earlier : Return) : Prop :=
  later.result = none → earlier.string.permanent = false →
    earlier.string.bytes = later.string.bytes → earlier.result = none

structure Consistent (permanents : PermanentStrings) (state : State) : Prop where
  bytes : ∀ content string, state.interned.find content = some string → string.bytes = content
  permanent : ∀ content string, state.interned.find content = some string →
    string.permanent = true
  apart : ∀ content string, state.interned.find content = some string →
    permanents.find content = none ∧ permanents.occupied string.pointer = false
  distinct : ∀ content other first second, state.interned.find content = some first →
    state.interned.find other = some second → first.pointer = second.pointer → content = other
  knows : ∀ thread,
    Knows permanents state.interned state.holder thread (state.phase thread)
  accounts : ∀ returned ∈ state.returned, Accounts permanents state.interned returned
  inOrder : state.returned.Pairwise InOrder

section Steps

variable {permanents : PermanentStrings} {state after : State} {thread : Nat}

theorem consistent_initial (permanents : PermanentStrings) : Consistent permanents initial := by
  constructor
  · intro content string found
    cases found
  · intro content string found
    cases found
  · intro content string found
    cases found
  · intro content other first second found
    cases found
  · exact fun _ => trivial
  · intro returned isIn
    cases isIn
  · exact List.Pairwise.nil

/-- A thread moves on with what it knows then. -/
theorem Consistent.move {phase : Phase} (consistent : Consistent permanents state)
    (knows : Knows permanents state.interned state.holder thread phase) :
    Consistent permanents (state.move thread phase) where
  bytes := consistent.bytes
  permanent := consistent.permanent
  apart := consistent.apart
  distinct := consistent.distinct
  knows := by
    intro other
    by_cases same : other = thread
    · subst same
      simpa [State.move] using knows
    · simpa [State.move, same] using consistent.knows other
  accounts := consistent.accounts
  inOrder := consistent.inOrder

/-- A call returns. -/
theorem Consistent.return {returned : Return} (consistent : Consistent permanents state)
    (accounts : Accounts permanents state.interned returned)
    (missing : returned.result = none →
      canonical permanents state.interned returned.string.bytes = none) :
    Consistent permanents (state.return thread returned) := by
  have moved : Consistent permanents (state.move thread .idle) := consistent.move trivial
  constructor
  · exact moved.bytes
  · exact moved.permanent
  · exact moved.apart
  · exact moved.distinct
  · exact moved.knows
  · intro other isIn
    rcases List.mem_cons.mp isIn with rfl | before
    · exact accounts
    · exact consistent.accounts other before
  · apply List.Pairwise.cons _ consistent.inOrder
    intro earlier isIn nothing notPermanent same
    -- what was returned before would have been found now
    cases result : earlier.result with
    | none => rfl
    | some string =>
        have found := (consistent.accounts earlier isIn).canonical string notPermanent result
        rw [same, missing nothing] at found
        cases found

/-- A thread takes the free monitor, or releases it when it no longer needs it. -/
theorem Consistent.holder {holder : Option Nat} (consistent : Consistent permanents state)
    (knows : ∀ other, Knows permanents state.interned holder other (state.phase other)) :
    Consistent permanents { state with holder := holder } :=
  ⟨consistent.bytes, consistent.permanent, consistent.apart, consistent.distinct, knows,
    consistent.accounts, consistent.inOrder⟩

/-- What a thread knows with the monitor free it knows whoever takes it. -/
theorem Knows.anyHolder {interned : OrderedTable Bytes ZString} {phase : Phase}
    {holder : Option Nat} (knows : Knows permanents interned none thread phase) :
    Knows permanents interned holder thread phase := by
  cases phase with
  | idle => trivial
  | finding | querying | adding => exact knows
  | looking => cases knows.2
  | searching | inserting | unlocking => cases knows.2.1

/-- A thread that does not have the monitor knows nothing that depends on the table. -/
theorem Knows.otherTable {interned changed : OrderedTable Bytes ZString} {phase : Phase}
    {holder : Nat} (knows : Knows permanents interned (some holder) thread phase)
    (different : thread ≠ holder) : Knows permanents changed (some holder) thread phase := by
  cases phase with
  | idle => trivial
  | finding | querying | adding => exact knows
  | looking | searching => exact knows
  | inserting | unlocking =>
      have isHolder := knows.2.1
      rw [Option.some.injEq] at isHolder
      exact absurd isHolder.symm different

/-- What a thread without the monitor knows it knows when the monitor is released. -/
theorem Knows.released {interned : OrderedTable Bytes ZString} {phase : Phase} {holder : Nat}
    (knows : Knows permanents interned (some holder) thread phase) (different : thread ≠ holder) :
    Knows permanents interned none thread phase := by
  cases phase with
  | idle => trivial
  | finding | querying | adding => exact knows
  | looking =>
      have isHolder := knows.2
      rw [Option.some.injEq] at isHolder
      exact absurd isHolder.symm different
  | searching | inserting | unlocking =>
      have isHolder := knows.2.1
      rw [Option.some.injEq] at isHolder
      exact absurd isHolder.symm different

/-- A string added for a content that had none changes nothing else. -/
theorem canonical_update {interned : OrderedTable Bytes ZString} {content other : Bytes}
    {string result : ZString} (missing : canonical permanents interned content = none)
    (found : canonical permanents interned other = some result) :
    canonical permanents (interned.update content string) other = some result := by
  have different : other ≠ content := by
    rintro rfl
    rw [missing] at found
    cases found
  unfold canonical at found ⊢
  rwa [OrderedTable.find_update_other _ _ different]

theorem canonical_update_self {interned : OrderedTable Bytes ZString} {content : Bytes}
    {string : ZString} (missing : canonical permanents interned content = none) :
    canonical permanents (interned.update content string) content = some string := by
  have notPermanent := (Option.or_eq_none_iff.mp missing).1
  simp [canonical, notPermanent]

/-- The thread that has found no string for a content adds one. -/
theorem Consistent.insert {string : ZString} {fresh : Nat}
    (consistent : Consistent permanents state)
    (isPhase : state.phase thread = .inserting string)
    (isNew : isFresh permanents state fresh = true) :
    Consistent permanents
      { state.move thread (.unlocking string (internedCopy string fresh)) with
        interned := state.interned.update string.bytes (internedCopy string fresh) } := by
  have knows := consistent.knows thread
  rw [isPhase] at knows
  obtain ⟨notPermanent, isHolder, missing⟩ := knows
  obtain ⟨notThere, notInterned⟩ := Option.or_eq_none_iff.mp missing
  simp only [isFresh, Bool.and_eq_true, Bool.not_eq_true', List.all_eq_true,
    decide_eq_true_eq] at isNew
  obtain ⟨notOccupied, notUsed⟩ := isNew
  have unused : ∀ content found, state.interned.find content = some found →
      found.pointer ≠ fresh :=
    fun content found isThere => notUsed _ (OrderedTable.find_eq_some_iff.mp isThere)
  constructor
  · intro content found isThere
    rcases OrderedTable.find_update_cases isThere with ⟨rfl, rfl⟩ | ⟨-, before⟩
    · rfl
    · exact consistent.bytes content found before
  · intro content found isThere
    rcases OrderedTable.find_update_cases isThere with ⟨rfl, rfl⟩ | ⟨-, before⟩
    · rfl
    · exact consistent.permanent content found before
  · intro content found isThere
    rcases OrderedTable.find_update_cases isThere with ⟨rfl, rfl⟩ | ⟨-, before⟩
    · exact ⟨notThere, notOccupied⟩
    · exact consistent.apart content found before
  · intro content other first second isFirst isSecond same
    rcases OrderedTable.find_update_cases isFirst with ⟨rfl, rfl⟩ | ⟨-, firstBefore⟩
    · rcases OrderedTable.find_update_cases isSecond with ⟨rfl, rfl⟩ | ⟨-, secondBefore⟩
      · rfl
      · exact absurd same.symm (unused other second secondBefore)
    · rcases OrderedTable.find_update_cases isSecond with ⟨rfl, rfl⟩ | ⟨-, secondBefore⟩
      · exact absurd same (unused content first firstBefore)
      · exact consistent.distinct content other first second firstBefore secondBefore same
  · intro other
    by_cases same : other = thread
    · subst same
      simp only [State.move, Function.update_self]
      exact ⟨notPermanent, isHolder, canonical_update_self missing⟩
    · have before := consistent.knows other
      rw [isHolder] at before
      simp only [State.move, Function.update_of_ne same, isHolder]
      exact before.otherTable same
  · intro returned isIn
    have before := consistent.accounts returned isIn
    exact ⟨before.itself, before.added, fun result wasGiven isResult =>
      canonical_update missing (before.canonical result wasGiven isResult)⟩
  · exact consistent.inOrder

/-- The thread returns what it has found or added, and releases the monitor. -/
theorem Consistent.unlock {string result : ZString} (consistent : Consistent permanents state)
    (isPhase : state.phase thread = .unlocking string result) :
    Consistent permanents
      { state.return thread ⟨string, some result, true⟩ with holder := none } := by
  have knows := consistent.knows thread
  rw [isPhase] at knows
  obtain ⟨notPermanent, isHolder, found⟩ := knows
  have accounts : Accounts permanents state.interned ⟨string, some result, true⟩ := by
    constructor
    · intro isPermanent
      rw [notPermanent] at isPermanent
      cases isPermanent
    · exact fun _ => rfl
    · rintro _ _ ⟨⟩
      exact found
  apply (consistent.return accounts (by simp)).holder
  intro other
  by_cases same : other = thread
  · subst same
    simp [State.return, State.move, Knows]
  · have before := consistent.knows other
    rw [isHolder] at before
    simpa [State.return, State.move, same] using before.released same

theorem advance_consistent {fresh : Nat} (consistent : Consistent permanents state)
    (stepped : advance permanents state thread fresh = some after) :
    Consistent permanents after := by
  have knows := consistent.knows thread
  cases isPhase : state.phase thread with
  | idle => simp [advance, isPhase] at stepped
  | finding string =>
      rw [isPhase] at knows
      have notPermanent : string.permanent = false := knows
      rw [advance, isPhase] at stepped
      dsimp only at stepped
      cases lookup : permanents.find string.bytes with
      | some result =>
          simp only [lookup, Option.some.injEq] at stepped
          subst stepped
          apply consistent.return _ (by simp)
          constructor
          · simp [notPermanent]
          · simp
          · rintro _ _ ⟨⟩
            simp [canonical, lookup]
      | none =>
          simp only [lookup, Option.some.injEq] at stepped
          subst stepped
          exact consistent.move ⟨notPermanent, lookup⟩
  | querying string =>
      rw [isPhase] at knows
      obtain ⟨notPermanent, lookup⟩ := knows
      rw [advance, isPhase] at stepped
      obtain ⟨-, ⟨⟩⟩ := Option.ite_none_right_eq_some.mp stepped
      apply consistent.return
      · constructor
        · simp [notPermanent]
        · simp
        · intro result _ found
          simpa [canonical, lookup] using found
      · intro nothing
        simpa [canonical, lookup] using nothing
  | adding string =>
      rw [isPhase] at knows
      have notPermanent : string.permanent = false := knows
      rw [advance, isPhase] at stepped
      obtain ⟨isFree, ⟨⟩⟩ := Option.ite_none_right_eq_some.mp stepped
      have locked : Consistent permanents { state with holder := some thread } := by
        apply consistent.holder
        intro other
        have before := consistent.knows other
        rw [isFree] at before
        exact before.anyHolder
      exact locked.move ⟨notPermanent, rfl⟩
  | looking string =>
      rw [isPhase] at knows
      obtain ⟨notPermanent, isHolder⟩ := knows
      rw [advance, isPhase] at stepped
      dsimp only at stepped
      cases lookup : permanents.find string.bytes with
      | some result =>
          simp only [lookup, Option.some.injEq] at stepped
          subst stepped
          exact consistent.move ⟨notPermanent, isHolder, by simp [canonical, lookup]⟩
      | none =>
          simp only [lookup, Option.some.injEq] at stepped
          subst stepped
          exact consistent.move ⟨notPermanent, isHolder, lookup⟩
  | searching string =>
      rw [isPhase] at knows
      obtain ⟨notPermanent, isHolder, notThere⟩ := knows
      rw [advance, isPhase] at stepped
      dsimp only at stepped
      cases lookup : state.interned.find string.bytes with
      | some result =>
          simp only [lookup, Option.some.injEq] at stepped
          subst stepped
          exact consistent.move ⟨notPermanent, isHolder, by simp [canonical, notThere, lookup]⟩
      | none =>
          simp only [lookup, Option.some.injEq] at stepped
          subst stepped
          exact consistent.move ⟨notPermanent, isHolder, by simp [canonical, notThere, lookup]⟩
  | inserting string =>
      rw [advance, isPhase] at stepped
      obtain ⟨isNew, ⟨⟩⟩ := Option.ite_none_right_eq_some.mp stepped
      exact consistent.insert isPhase isNew
  | unlocking string result =>
      rw [advance, isPhase] at stepped
      cases stepped
      exact consistent.unlock isPhase

/-- A permanent string is returned as it is. -/
theorem Consistent.returnItself {string : ZString} {isAdd : Bool}
    (consistent : Consistent permanents state) (isPermanent : string.permanent = true) :
    Consistent permanents (state.return thread ⟨string, some string, isAdd⟩) := by
  apply consistent.return _ (by simp)
  constructor
  · exact fun _ => rfl
  · exact fun _ => rfl
  · intro result notPermanent _
    rw [isPermanent] at notPermanent
    cases notPermanent

theorem step_consistent {action : Action} (consistent : Consistent permanents state)
    (stepped : step permanents state action = some after) : Consistent permanents after := by
  cases action with
  | find thread string =>
      obtain ⟨-, ⟨⟩⟩ := Option.ite_none_right_eq_some.mp stepped
      split
      · next isPermanent => exact consistent.returnItself isPermanent
      · next notPermanent => exact consistent.move (Bool.eq_false_iff.mpr notPermanent)
  | add thread string =>
      obtain ⟨-, ⟨⟩⟩ := Option.ite_none_right_eq_some.mp stepped
      split
      · next isPermanent => exact consistent.returnItself isPermanent
      · next notPermanent => exact consistent.move (Bool.eq_false_iff.mpr notPermanent)
  | advance thread fresh => exact advance_consistent consistent stepped

end Steps

section Results

variable {permanents : PermanentStrings} {state : State}

theorem Consistent.canonical_bytes {content : Bytes} {string : ZString}
    (consistent : Consistent permanents state)
    (found : canonical permanents state.interned content = some string) :
    string.bytes = content ∧ string.permanent = true := by
  rcases Option.or_eq_some_iff.mp found with isPermanent | ⟨-, isInterned⟩
  · exact ⟨permanents.bytes content string isPermanent,
      permanents.permanent content string isPermanent⟩
  · exact ⟨consistent.bytes content string isInterned,
      consistent.permanent content string isInterned⟩

/-- No two contents share an address. -/
theorem Consistent.canonical_distinct {content other : Bytes} {first second : ZString}
    (consistent : Consistent permanents state)
    (isFirst : canonical permanents state.interned content = some first)
    (isSecond : canonical permanents state.interned other = some second)
    (same : first.pointer = second.pointer) : content = other := by
  rcases Option.or_eq_some_iff.mp isFirst with permanentFirst | ⟨-, internedFirst⟩
  · rcases Option.or_eq_some_iff.mp isSecond with permanentSecond | ⟨-, internedSecond⟩
    · exact permanents.distinct content other first second permanentFirst permanentSecond same
    · have occupied := permanents.occupies content first permanentFirst
      have apart := (consistent.apart other second internedSecond).2
      rw [same, apart] at occupied
      cases occupied
  · rcases Option.or_eq_some_iff.mp isSecond with permanentSecond | ⟨-, internedSecond⟩
    · have occupied := permanents.occupies other second permanentSecond
      have apart := (consistent.apart content first internedFirst).2
      rw [← same, apart] at occupied
      cases occupied
    · exact consistent.distinct content other first second internedFirst internedSecond same

/-- In every interleaving, adding a string returns a permanent string with its bytes; the
strings returned for two that are not permanent are at one address if and only if their
bytes are the same; and a call that finds nothing comes before all that return a string
for those bytes. -/
theorem interned_once (reached : Reaches (step permanents) anyAction initial state) :
    (∀ returned ∈ state.returned, returned.isAdd = true → ∃ result,
      returned.result = some result ∧ result.bytes = returned.string.bytes ∧
        result.permanent = true) ∧
      (∀ one ∈ state.returned, ∀ other ∈ state.returned, ∀ first second,
        one.string.permanent = false → other.string.permanent = false →
          one.result = some first → other.result = some second →
            (first.pointer = second.pointer ↔ one.string.bytes = other.string.bytes)) ∧
      state.returned.Pairwise InOrder := by
  have consistent := reached.preserves
    (fun _ _ _ consistent _ stepped => step_consistent consistent stepped)
    (consistent_initial permanents)
  refine ⟨?_, ?_, consistent.inOrder⟩
  · intro returned isIn isAdd
    have accounts := consistent.accounts returned isIn
    obtain ⟨result, isResult⟩ := Option.isSome_iff_exists.mp (accounts.added isAdd)
    refine ⟨result, isResult, ?_⟩
    by_cases isPermanent : returned.string.permanent = true
    · rw [accounts.itself isPermanent, Option.some.injEq] at isResult
      subst isResult
      exact ⟨rfl, isPermanent⟩
    · have notPermanent := Bool.eq_false_iff.mpr isPermanent
      exact consistent.canonical_bytes (accounts.canonical result notPermanent isResult)
  · intro one isOne other isOther first second oneGiven otherGiven isFirst isSecond
    have ofOne := (consistent.accounts one isOne).canonical first oneGiven isFirst
    have ofOther := (consistent.accounts other isOther).canonical second otherGiven isSecond
    constructor
    · exact consistent.canonical_distinct ofOne ofOther
    · intro same
      rw [same, ofOther, Option.some.injEq] at ofOne
      rw [ofOne]

end Results

/-- PHP has interned the string "a". -/
def onlyA : PermanentStrings where
  find content := if content = [97] then some ⟨1, [97], true⟩ else none
  occupied address := address = 1
  bytes := by
    intro content string found
    obtain ⟨rfl, ⟨⟩⟩ := Option.ite_none_right_eq_some.mp found
    rfl
  permanent := by
    intro content string found
    obtain ⟨rfl, ⟨⟩⟩ := Option.ite_none_right_eq_some.mp found
    rfl
  occupies := by
    intro content string found
    obtain ⟨rfl, ⟨⟩⟩ := Option.ite_none_right_eq_some.mp found
    rfl
  distinct := by
    intro content other first second isFirst isSecond _
    obtain ⟨rfl, -⟩ := Option.ite_none_right_eq_some.mp isFirst
    obtain ⟨rfl, -⟩ := Option.ite_none_right_eq_some.mp isSecond
    rfl

/-- Two threads add the string "b" at the same time. -/
def addTogether : List Action :=
  [.add 1 ⟨10, [98], false⟩, .add 2 ⟨20, [98], false⟩, .advance 1 0, .advance 1 0, .advance 1 0,
    .advance 1 30, .advance 1 0, .advance 2 0, .advance 2 0, .advance 2 0, .advance 2 0]

theorem interned_once_addTogether :
    ∃ state, execute (step onlyA) initial addTogether = some state ∧
      state.returned.map (fun returned => returned.result.map ZString.pointer) =
        [some 30, some 30] ∧
      ∀ one ∈ state.returned, ∀ other ∈ state.returned, ∀ first second,
        one.string.permanent = false → other.string.permanent = false →
          one.result = some first → other.result = some second →
            (first.pointer = second.pointer ↔ one.string.bytes = other.string.bytes) := by
  have reached := reaches_of_execute (admits_anyAction (step onlyA) initial addTogether) rfl
  exact ⟨_, rfl, rfl, (interned_once reached).2.1⟩

end Pthreads.InternedStrings
