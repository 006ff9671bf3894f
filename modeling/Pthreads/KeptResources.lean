import Mathlib.Data.List.Nodup
import Pthreads.GuardedRuns
import Pthreads.StoreConversions

/-!
# Resources that a thread keeps for another

A resource that is restored from a store gets a place in the list of the restoring
thread, while the thread that created it still has it in its own.  The restoring thread
marks it as kept, and a thread that pthreads has prepared does not destroy what it
keeps.  This file has the lists of all threads, with the thread that created each
resource, and shows who destroys what.
-/

namespace Pthreads.KeptResources

open GuardedRuns Store

inductive ThreadPhase where
  | absent
  | running
  /-- `pthreads_prepared_shutdown` has dropped what is kept. -/
  | cleaned
  | ended
deriving DecidableEq

structure Thread where
  /-- `EG(regular_list)`. -/
  regularList : RegularList
  /-- `PTHREADS_ZG(resources)`, with the `ls` under each address. -/
  resources : Nat → Option Nat
  /-- The list's `pDestructor` is `pthreads_prepared_resource_dtor`. -/
  prepared : Bool
  phase : ThreadPhase

/-- The thread that ran a resource's destructor, and the one that had created it. -/
structure Destruction where
  thread : Nat
  resource : Nat
  creator : Option Nat

structure State where
  threads : Nat → Thread
  /-- Who created each resource whose `zend_resource` still exists. -/
  creator : Nat → Option Nat
  /-- Those that have been closed: their destructor does not run again. -/
  closed : Nat → Bool
  destroyed : List Destruction

def initial : State where
  threads _ := ⟨⟨OrderedTable.empty, 0⟩, fun _ => none, false, .absent⟩
  creator _ := none
  closed _ := false
  destroyed := []

inductive Action where
  /-- The request of a thread starts; `pthreads_prepared_startup` prepares it. -/
  | startup (thread : Nat) (isPrepared : Bool)
  /-- `zend_register_resource`. -/
  | register (thread resource : Nat)
  /-- `pthreads_store_convert` for a stored resource. -/
  | convert (thread : Nat) (receiver : Receiver) (original owner : Nat)
  /-- `zend_list_close`, as `fclose` calls it: the destructor runs, and the resource stays
  in the lists. -/
  | listClose (thread resource : Nat)
  /-- `zend_hash_index_del` on the list. -/
  | delete (thread : Nat) (index : Int)
  /-- `pthreads_prepared_shutdown`, before `php_request_shutdown`. -/
  | cleanup (thread : Nat)
  /-- `php_request_shutdown` closes what is still in the list. -/
  | close (thread : Nat)

def State.setThread (state : State) (thread : Nat) (changed : Thread) : State :=
  { state with threads := Function.update state.threads thread changed }

/-- `zend_list_insert`. -/
def listInsert (list : RegularList) (resource : Nat) : Option RegularList :=
  let index := if list.nextFreeElement = 0 then 1 else list.nextFreeElement
  if list.nextFreeElement = zendLongMax ∨ (list.table.find index).isSome = true then none
  else some ⟨list.table.update index resource, index + 1⟩

/-- `pthreads_resources_kept`. -/
def resourcesKept (number : Nat) (thread : Thread) (resource : Nat) : Bool :=
  match thread.resources resource with
  | some ls => decide (ls ≠ number)
  | none => false

/-- `pthreads_resources_keep`. -/
def resourcesKeep (thread : Thread) (original ls : Nat) : Thread :=
  { thread with resources := Function.update thread.resources original (some ls) }

/-- `pthreads_prepared_resource_dtor` spares the resource. -/
def spares (number : Nat) (thread : Thread) (resource : Nat) : Bool :=
  thread.prepared && resourcesKept number thread resource

/-- The destructor of the resource's type runs, unless it has been closed. -/
def State.finalize (state : State) (thread resource : Nat) : State :=
  { state with
    destroyed :=
      if state.closed resource then state.destroyed
      else ⟨thread, resource, state.creator resource⟩ :: state.destroyed }

/-- `list_entry_destructor`: the `zend_resource` is freed as well. -/
def State.destroy (state : State) (thread resource : Nat) : State :=
  { state.finalize thread resource with
    creator := Function.update state.creator resource none
    closed := Function.update state.closed resource false }

/-- `zend_list_close`. -/
def State.listClose (state : State) (thread resource : Nat) : State :=
  { state.finalize thread resource with
    closed := Function.update state.closed resource true }

/-- The receiver of a conversion, with the list of the thread. -/
def receiverOf (state : State) (thread : Nat) (receiver : Receiver) : Receiver :=
  { receiver with thread := thread, regularList := (state.threads thread).regularList }

/-- The conversion adds a resource of another thread to the list. -/
def lists (receiver : Receiver) (original owner : Nat) : Bool :=
  decide (owner ≠ receiver.thread) && (receiver.findResource original).isNone &&
    (receiver.regularList.nextIndexInsert original).isSome

/-- The resource case of `pthreads_store_convert`, with `pthreads_resources_keep`. -/
def convert (state : State) (thread : Nat) (receiver : Receiver) (original owner : Nat) : State :=
  let given := receiverOf state thread receiver
  let converted := (convertResource given original owner).receiver
  let listed : Thread := { state.threads thread with regularList := converted.regularList }
  state.setThread thread (if lists given original owner then resourcesKeep listed original owner
    else listed)

/-- `zend_hash_index_del`, with the destructor of the list. -/
def delete (state : State) (thread : Nat) (index : Int) : Option State :=
  let self := state.threads thread
  match self.regularList.table.find index with
  | none => none
  | some resource =>
      let list : RegularList :=
        { self.regularList with table := self.regularList.table.delete index }
      let removed := state.setThread thread { self with regularList := list }
      some (if spares thread self resource then removed else removed.destroy thread resource)

/-- `zend_hash_apply` with `pthreads_resources_cleanup`. -/
def cleanup (number : Nat) (thread : Thread) : Thread :=
  { thread with
    regularList := { thread.regularList with
      table := thread.regularList.table.filter fun _ resource =>
        !resourcesKept number thread resource }
    phase := .cleaned }

/-- `zend_close_rsrc_list`, from the end of the list. -/
def closeList (state : State) (thread : Nat) : List Nat → State
  | [] => state
  | resource :: rest => (closeList state thread rest).destroy thread resource

def close (state : State) (thread : Nat) : State :=
  let self := state.threads thread
  let closed := closeList state thread (self.regularList.table.entries.map Prod.snd)
  closed.setThread thread
    { self with
      regularList := { self.regularList with table := OrderedTable.empty }
      phase := .ended }

/-- The thread runs code. -/
def isUp (thread : Thread) : Bool := thread.phase = .running ∨ thread.phase = .cleaned

def step (state : State) : Action → Option State
  | .startup thread isPrepared =>
      if (state.threads thread).phase = .absent then
        some (state.setThread thread
          { state.threads thread with prepared := isPrepared, phase := .running })
      else none
  | .register thread resource =>
      -- an address is not given out again while the resource there exists
      if isUp (state.threads thread) = true ∧ state.creator resource = none then
        (listInsert (state.threads thread).regularList resource).map fun list =>
          { state.setThread thread { state.threads thread with regularList := list } with
            creator := Function.update state.creator resource (some thread) }
      else none
  | .convert thread receiver original owner =>
      if isUp (state.threads thread) = true then
        some (convert state thread receiver original owner)
      else none
  | .listClose thread resource =>
      if isUp (state.threads thread) = true ∧ (state.creator resource).isSome = true then
        some (state.listClose thread resource)
      else none
  | .delete thread index =>
      if isUp (state.threads thread) = true then delete state thread index else none
  | .cleanup thread =>
      let self := state.threads thread
      if self.phase = .running ∧ self.prepared = true then
        some (state.setThread thread (cleanup thread self))
      else none
  | .close thread =>
      let self := state.threads thread
      if (self.prepared = true ∧ self.phase = .cleaned) ∨
          (self.prepared = false ∧ self.phase = .running) then
        some (close state thread)
      else none

/-- Only a prepared thread that has not begun its shutdown restores a resource that it
does not have, and a thread closes only what it created. -/
def Prudent (state : State) : Action → Prop
  | .convert thread receiver original owner =>
      lists (receiverOf state thread receiver) original owner = true →
        (state.threads thread).prepared = true ∧ (state.threads thread).phase = .running
  | .listClose thread resource => state.creator resource = some thread
  | _ => True

/-- What is left of the entry is for the thread to destroy. -/
def Answers (number : Nat) (thread : Thread) (resource : Nat) : Prop :=
  thread.phase = .cleaned ∨ spares number thread resource = false

/-- What a thread answers for is its own and in its list once, and what it created is
there unless it is kept. -/
structure Sound (creator : Nat → Option Nat) (number : Nat) (thread : Thread) : Prop where
  own : ∀ index resource, thread.regularList.table.find index = some resource →
    Answers number thread resource → creator resource = some number
  once : ∀ index other resource, thread.regularList.table.find index = some resource →
    thread.regularList.table.find other = some resource → Answers number thread resource →
      index = other
  foreign : ∀ resource ls, thread.resources resource = some ls → ls ≠ number
  held : ∀ resource, creator resource = some number →
    (∃ index, thread.regularList.table.find index = some resource) ∨
      (thread.resources resource).isSome = true
  idle : thread.phase = .absent ∨ thread.phase = .ended →
    thread.regularList.table = OrderedTable.empty
  prepared : thread.phase = .cleaned → thread.prepared = true

structure Consistent (state : State) : Prop where
  sound : ∀ number, Sound state.creator number (state.threads number)
  /-- Every resource was destroyed by the thread that had created it. -/
  destroyed : ∀ destruction ∈ state.destroyed, destruction.creator = some destruction.thread

theorem consistent_initial : Consistent initial where
  sound number := by
    constructor
    · intro index resource found
      cases found
    · intro index other resource found
      cases found
    · intro resource ls kept
      cases kept
    · intro resource created
      cases created
    · exact fun _ => rfl
    · intro cleaned
      cases cleaned
  destroyed := by simp [initial]

section Steps

variable {creator creators : Nat → Option Nat} {number other : Nat} {thread : Thread}

/-- What the other threads create and destroy does not concern a thread. -/
theorem Sound.congr (sound : Sound creator number thread)
    (same : ∀ resource, creators resource = creator resource ∨
      (creators resource ≠ some number ∧ creator resource ≠ some number)) :
    Sound creators number thread where
  own := by
    intro index resource found answers
    have created := sound.own index resource found answers
    rcases same resource with equal | ⟨-, foreign⟩
    · rw [equal, created]
    · exact absurd created foreign
  once := sound.once
  foreign := sound.foreign
  held := by
    intro resource created
    rcases same resource with equal | ⟨foreign, -⟩
    · exact sound.held resource (equal ▸ created)
    · exact absurd created foreign
  idle := sound.idle
  prepared := sound.prepared

/-- The entries after an insertion under a free index. -/
theorem find_inserted {table : OrderedTable Int Nat} {index at_ : Int} {resource found : Nat}
    (isThere : (table.update index resource).find at_ = some found) :
    (at_ = index ∧ found = resource) ∨ table.find at_ = some found := by
  by_cases same : at_ = index
  · subst same
    rw [OrderedTable.find_update_same, Option.some.injEq] at isThere
    exact Or.inl ⟨rfl, isThere.symm⟩
  · rw [OrderedTable.find_update_other _ _ same] at isThere
    exact Or.inr isThere

theorem find_kept {table : OrderedTable Int Nat} {index at_ : Int} {resource found : Nat}
    (isFree : table.find index = none) (isThere : table.find at_ = some found) :
    (table.update index resource).find at_ = some found := by
  have different : at_ ≠ index := by
    rintro rfl
    rw [isFree] at isThere
    cases isThere
  rw [OrderedTable.find_update_other _ _ different, isThere]

theorem listInsert_eq {list after : RegularList} {resource : Nat}
    (inserted : listInsert list resource = some after) :
    ∃ index, list.table.find index = none ∧ after.table = list.table.update index resource := by
  unfold listInsert at inserted
  obtain ⟨isFree, ⟨⟩⟩ := Option.ite_none_left_eq_some.mp inserted
  rw [not_or, Bool.not_eq_true, Option.isSome_eq_false_iff, Option.isNone_iff_eq_none] at isFree
  exact ⟨_, isFree.2, rfl⟩

theorem nextIndexInsert_eq {list after : RegularList} {resource : Nat}
    (inserted : list.nextIndexInsert resource = some after) :
    ∃ index, list.table.find index = none ∧ after.table = list.table.update index resource := by
  unfold RegularList.nextIndexInsert at inserted
  obtain ⟨isFree, ⟨⟩⟩ := Option.ite_none_left_eq_some.mp inserted
  rw [Bool.not_eq_true, Option.isSome_eq_false_iff, Option.isNone_iff_eq_none] at isFree
  exact ⟨_, isFree, rfl⟩

/-- The thread registers a resource at an address where none exists. -/
theorem Sound.register {list : RegularList} {resource : Nat} (sound : Sound creator number thread)
    (isUp : isUp thread = true) (fresh : creator resource = none)
    (inserted : listInsert thread.regularList resource = some list) :
    Sound (Function.update creator resource (some number)) number
      { thread with regularList := list } := by
  obtain ⟨index, isFree, table⟩ := listInsert_eq inserted
  have notIdle : ¬ (thread.phase = .absent ∨ thread.phase = .ended) := by
    rintro (isPhase | isPhase) <;> simp [KeptResources.isUp, isPhase] at isUp
  have notListed : ∀ at_, thread.regularList.table.find at_ = some resource →
      ¬ Answers number thread resource := by
    intro at_ found answers
    have created := sound.own at_ resource found answers
    rw [fresh] at created
    cases created
  constructor
  · intro at_ found isThere answers
    rw [table] at isThere
    by_cases same : found = resource
    · subst same
      simp
    · rw [Function.update_of_ne same]
      rcases find_inserted isThere with ⟨-, isNew⟩ | before
      · exact absurd isNew same
      · exact sound.own at_ found before answers
  · intro at_ later found isThere isLater answers
    rw [table] at isThere isLater
    rcases find_inserted isThere with ⟨isIndex, isNew⟩ | before
    · subst isNew
      rcases find_inserted isLater with ⟨alsoIndex, -⟩ | earlier
      · rw [isIndex, alsoIndex]
      · exact absurd answers (notListed later earlier)
    · rcases find_inserted isLater with ⟨-, isNew⟩ | earlier
      · subst isNew
        exact absurd answers (notListed at_ before)
      · exact sound.once at_ later found before earlier answers
  · exact sound.foreign
  · intro found created
    rw [table]
    by_cases same : found = resource
    · subst same
      exact Or.inl ⟨index, OrderedTable.find_update_same _ _ _⟩
    · rw [Function.update_of_ne same] at created
      rcases sound.held found created with ⟨at_, before⟩ | isKept
      · exact Or.inl ⟨at_, find_kept isFree before⟩
      · exact Or.inr isKept
  · exact fun isPhase => absurd isPhase notIdle
  · exact sound.prepared

theorem spares_of_answers {resource : Nat} (running : thread.phase = .running)
    (answers : Answers number thread resource) : spares number thread resource = false := by
  rcases answers with cleaned | spared
  · rw [running] at cleaned
    cases cleaned
  · exact spared

/-- A prepared thread that runs lists a resource of another and keeps it. -/
theorem Sound.convertListed {list : RegularList} {original ls : Nat}
    (sound : Sound creator number thread) (isPrepared : thread.prepared = true)
    (running : thread.phase = .running) (foreign : ls ≠ number)
    (inserted : thread.regularList.nextIndexInsert original = some list) :
    Sound creator number (resourcesKeep { thread with regularList := list } original ls) := by
  obtain ⟨index, isFree, table⟩ := nextIndexInsert_eq inserted
  -- a resource that is not spared now is another one and was not spared before
  have before : ∀ resource,
      Answers number (resourcesKeep { thread with regularList := list } original ls) resource →
        resource ≠ original ∧ Answers number thread resource := by
    intro resource answers
    have unspared := @spares_of_answers number
      (resourcesKeep { thread with regularList := list } original ls) resource running answers
    by_cases same : resource = original
    · subst same
      simp [spares, resourcesKept, resourcesKeep, isPrepared, foreign] at unspared
    · refine ⟨same, Or.inr ?_⟩
      simpa [spares, resourcesKept, resourcesKeep, same] using unspared
  constructor
  · intro at_ resource isThere answers
    obtain ⟨different, earlier⟩ := before resource answers
    simp only [resourcesKeep, table] at isThere
    rcases find_inserted isThere with ⟨-, isNew⟩ | found
    · exact absurd isNew different
    · exact sound.own at_ resource found earlier
  · intro at_ later resource isThere isLater answers
    obtain ⟨different, earlier⟩ := before resource answers
    simp only [resourcesKeep, table] at isThere isLater
    have first := (find_inserted isThere).resolve_left fun isNew => different isNew.2
    have second := (find_inserted isLater).resolve_left fun isNew => different isNew.2
    exact sound.once at_ later resource first second earlier
  · intro resource kept isKept
    by_cases same : resource = original
    · subst same
      simp only [resourcesKeep, Function.update_self, Option.some.injEq] at isKept
      subst isKept
      exact foreign
    · simp only [resourcesKeep, Function.update_of_ne same] at isKept
      exact sound.foreign resource kept isKept
  · intro resource created
    by_cases same : resource = original
    · subst same
      simp [resourcesKeep]
    · rcases sound.held resource created with ⟨at_, found⟩ | isKept
      · apply Or.inl
        refine ⟨at_, ?_⟩
        simp only [resourcesKeep, table]
        exact find_kept isFree found
      · apply Or.inr
        simpa [resourcesKeep, same] using isKept
  · intro isPhase
    simp [resourcesKeep, running] at isPhase
  · exact fun _ => isPrepared

/-- The entry under an index goes, and its resource unless it is spared. -/
theorem Sound.delete {index : Int} {resource : Nat} (sound : Sound creator number thread)
    (isUp : isUp thread = true) (found : thread.regularList.table.find index = some resource) :
    Sound (if spares number thread resource then creator
        else Function.update creator resource none) number
      { thread with
        regularList :=
          { thread.regularList with table := thread.regularList.table.delete index } } := by
  have notIdle : ¬ (thread.phase = .absent ∨ thread.phase = .ended) := by
    rintro (isPhase | isPhase) <;> simp [KeptResources.isUp, isPhase] at isUp
  constructor
  · intro at_ other isThere answers
    obtain ⟨different, before⟩ := OrderedTable.find_of_find_delete isThere
    have created := sound.own at_ other before answers
    split
    · exact created
    · have apart : other ≠ resource := by
        rintro rfl
        exact different (sound.once at_ index other before found answers)
      rw [Function.update_of_ne apart, created]
  · intro at_ later other isThere isLater answers
    have first := (OrderedTable.find_of_find_delete isThere).2
    have second := (OrderedTable.find_of_find_delete isLater).2
    exact sound.once at_ later other first second answers
  · exact sound.foreign
  · intro other created
    by_cases spared : spares number thread resource = true
    · rw [if_pos spared] at created
      rcases sound.held other created with ⟨at_, before⟩ | isKept
      · by_cases same : at_ = index
        · -- what is spared is kept
          subst same
          rw [found, Option.some.injEq] at before
          subst before
          apply Or.inr
          cases kept : thread.resources resource with
          | none => simp [spares, resourcesKept, kept] at spared
          | some ls => simp
        · apply Or.inl
          exact ⟨at_, (OrderedTable.find_delete_other _ same).trans before⟩
      · exact Or.inr isKept
    · rw [if_neg spared] at created
      have apart : other ≠ resource := by
        rintro rfl
        simp at created
      rw [Function.update_of_ne apart] at created
      rcases sound.held other created with ⟨at_, before⟩ | isKept
      · have different : at_ ≠ index := by
          rintro rfl
          rw [found, Option.some.injEq] at before
          exact apart before.symm
        apply Or.inl
        exact ⟨at_, (OrderedTable.find_delete_other _ different).trans before⟩
      · exact Or.inr isKept
  · exact fun isPhase => absurd isPhase notIdle
  · exact sound.prepared

/-- After the cleanup everything in the list is for the thread to destroy. -/
theorem Sound.cleanup (sound : Sound creator number thread) (isPrepared : thread.prepared = true) :
    Sound creator number (cleanup number thread) := by
  have left : ∀ index resource,
      (KeptResources.cleanup number thread).regularList.table.find index = some resource →
        thread.regularList.table.find index = some resource ∧
          spares number thread resource = false := by
    intro index resource found
    simp only [KeptResources.cleanup, OrderedTable.find_filter, Option.filter_eq_some_iff] at found
    refine ⟨found.1, ?_⟩
    have notKept : resourcesKept number thread resource = false := by simpa using found.2
    simp [spares, notKept]
  constructor
  · intro index resource found _
    obtain ⟨before, unspared⟩ := left index resource found
    exact sound.own index resource before (Or.inr unspared)
  · intro index later resource found isLater _
    obtain ⟨first, unspared⟩ := left index resource found
    exact sound.once index later resource first (left later resource isLater).1 (Or.inr unspared)
  · exact sound.foreign
  · intro resource created
    rcases sound.held resource created with ⟨index, before⟩ | isKept
    · by_cases kept : resourcesKept number thread resource = true
      · apply Or.inr
        cases marked : thread.resources resource with
        | none => simp [resourcesKept, marked] at kept
        | some ls => simp [KeptResources.cleanup, marked]
      · apply Or.inl
        refine ⟨index, ?_⟩
        simp only [KeptResources.cleanup, OrderedTable.find_filter, Option.filter_eq_some_iff]
        exact ⟨before, by simpa using kept⟩
    · exact Or.inr isKept
  · intro isPhase
    simp [KeptResources.cleanup] at isPhase
  · exact fun _ => isPrepared

end Steps

section Closing

/-- A destructor that runs for its creator. -/
theorem finalize_destroyed {state : State} {number resource : Nat}
    (created : state.creator resource = some number)
    (before : ∀ destruction ∈ state.destroyed, destruction.creator = some destruction.thread) :
    ∀ destruction ∈ (state.finalize number resource).destroyed,
      destruction.creator = some destruction.thread := by
  intro destruction isIn
  simp only [State.finalize] at isIn
  split at isIn
  · exact before destruction isIn
  · rcases List.mem_cons.mp isIn with rfl | earlier
    · exact created
    · exact before destruction earlier

/-- Closing a list of one's own resources. -/
theorem closeList_eq {state : State} {number : Nat} {resources : List Nat}
    (distinct : resources.Nodup)
    (own : ∀ resource ∈ resources, state.creator resource = some number)
    (before : ∀ destruction ∈ state.destroyed, destruction.creator = some destruction.thread) :
    (closeList state number resources).threads = state.threads ∧
      (∀ resource, (closeList state number resources).creator resource =
        if resource ∈ resources then none else state.creator resource) ∧
      ∀ destruction ∈ (closeList state number resources).destroyed,
        destruction.creator = some destruction.thread := by
  induction resources with
  | nil => exact ⟨rfl, fun _ => rfl, before⟩
  | cons resource rest ih =>
      obtain ⟨notIn, distinctRest⟩ := List.nodup_cons.mp distinct
      obtain ⟨threads, creator, destroyed⟩ :=
        ih distinctRest fun other isIn => own other (List.mem_cons_of_mem _ isIn)
      refine ⟨threads, ?_, ?_⟩
      · intro other
        by_cases same : other = resource
        · subst same
          simp [closeList, State.destroy]
        · simp [closeList, State.destroy, same, creator other]
      · have created := own resource List.mem_cons_self
        exact finalize_destroyed (by rw [creator resource, if_neg notIn, created]) destroyed

/-- The resources of a list that a thread answers for are distinct. -/
theorem Sound.nodup {creator : Nat → Option Nat} {number : Nat} {thread : Thread}
    (sound : Sound creator number thread) (answers : ∀ resource, Answers number thread resource) :
    (thread.regularList.table.entries.map Prod.snd).Nodup := by
  have distinct := thread.regularList.table.distinct
  apply List.Nodup.map_on _ (List.Nodup.of_map _ distinct)
  rintro ⟨index, resource⟩ isIn ⟨later, other⟩ isLater (rfl : resource = other)
  have first := OrderedTable.find_eq_some_iff.mpr isIn
  have second := OrderedTable.find_eq_some_iff.mpr isLater
  rw [sound.once index later resource first second (answers resource)]

end Closing

section Runs

variable {state after : State}

/-- A conversion leaves the list as it is, unless it lists the resource. -/
theorem convertResource_list (receiver : Receiver) (original owner : Nat) :
    (lists receiver original owner = false ∧
      (convertResource receiver original owner).receiver = receiver) ∨
    (lists receiver original owner = true ∧ owner ≠ receiver.thread ∧
      receiver.regularList.nextIndexInsert original =
        some (convertResource receiver original owner).receiver.regularList) := by
  unfold convertResource lists
  by_cases own : owner = receiver.thread
  · simp [own, succeeded]
  · cases search : receiver.findResource original with
    | some found => simp [own, succeeded]
    | none =>
        cases inserted : receiver.regularList.nextIndexInsert original with
        | none => simp [own, succeeded]
        | some list => simp [own, succeeded]

/-- A change of one thread that neither creates nor destroys a resource. -/
theorem Consistent.setThread {number : Nat} {changed : Thread} (consistent : Consistent state)
    (sound : Sound state.creator number changed) : Consistent (state.setThread number changed) where
  sound other := by
    by_cases same : other = number
    · subst same
      simpa [State.setThread] using sound
    · simpa [State.setThread, same] using consistent.sound other
  destroyed := consistent.destroyed

theorem startup_consistent {thread : Nat} {isPrepared : Bool} (consistent : Consistent state)
    (stepped : step state (.startup thread isPrepared) = some after) : Consistent after := by
  obtain ⟨isAbsent, ⟨⟩⟩ := Option.ite_none_right_eq_some.mp stepped
  have sound := consistent.sound thread
  have nothing := sound.idle (Or.inl isAbsent)
  apply consistent.setThread
  constructor
  · intro index resource found
    simp [nothing] at found
  · intro index other resource found
    simp [nothing] at found
  · exact sound.foreign
  · exact sound.held
  · exact fun _ => nothing
  · intro cleaned
    cases cleaned

theorem register_consistent {thread resource : Nat} (consistent : Consistent state)
    (stepped : step state (.register thread resource) = some after) : Consistent after := by
  obtain ⟨⟨isUp, fresh⟩, registered⟩ := Option.ite_none_right_eq_some.mp stepped
  obtain ⟨list, inserted, rfl⟩ := Option.map_eq_some_iff.mp registered
  constructor
  · intro other
    by_cases same : other = thread
    · subst same
      simpa [State.setThread] using (consistent.sound other).register isUp fresh inserted
    · have unchanged : Sound (Function.update state.creator resource (some thread)) other
          (state.threads other) := by
        apply (consistent.sound other).congr
        intro found
        by_cases isNew : found = resource
        · subst isNew
          simp [fresh, Ne.symm same]
        · exact Or.inl (Function.update_of_ne isNew _ _)
      simpa [State.setThread, same] using unchanged
  · exact consistent.destroyed

theorem convert_consistent {thread original owner : Nat} {receiver : Receiver}
    (consistent : Consistent state)
    (prudent : Prudent state (.convert thread receiver original owner))
    (stepped : step state (.convert thread receiver original owner) = some after) :
    Consistent after := by
  obtain ⟨-, ⟨⟩⟩ := Option.ite_none_right_eq_some.mp stepped
  apply consistent.setThread
  rcases convertResource_list (receiverOf state thread receiver) original owner with
    ⟨notListed, unchanged⟩ | ⟨listed, foreign, inserted⟩
  · rw [notListed, unchanged, if_neg (by decide)]
    exact consistent.sound thread
  · rw [listed, if_pos rfl]
    obtain ⟨isPrepared, running⟩ := prudent listed
    exact (consistent.sound thread).convertListed isPrepared running foreign inserted

theorem delete_consistent {thread : Nat} {index : Int} (consistent : Consistent state)
    (stepped : step state (.delete thread index) = some after) : Consistent after := by
  obtain ⟨isUp, deleted⟩ := Option.ite_none_right_eq_some.mp stepped
  unfold delete at deleted
  cases found : (state.threads thread).regularList.table.find index with
  | none => simp [found] at deleted
  | some resource =>
      simp only [found, Option.some.injEq] at deleted
      have sound := (consistent.sound thread).delete isUp found
      by_cases spared : spares thread (state.threads thread) resource = true
      · rw [if_pos spared] at deleted sound
        subst deleted
        exact consistent.setThread sound
      · rw [if_neg spared] at deleted sound
        subst deleted
        have answers : Answers thread (state.threads thread) resource :=
          Or.inr (Bool.not_eq_true _ ▸ spared)
        have created := (consistent.sound thread).own index resource found answers
        constructor
        · intro other
          by_cases same : other = thread
          · subst same
            simpa [State.destroy, State.finalize, State.setThread] using sound
          · have unchanged : Sound (Function.update state.creator resource none) other
                (state.threads other) := by
              apply (consistent.sound other).congr
              intro found
              by_cases isGone : found = resource
              · subst isGone
                simp [created, Ne.symm same]
              · exact Or.inl (Function.update_of_ne isGone _ _)
            simpa [State.destroy, State.finalize, State.setThread, same] using unchanged
        · exact finalize_destroyed created consistent.destroyed

theorem cleanup_consistent {thread : Nat} (consistent : Consistent state)
    (stepped : step state (.cleanup thread) = some after) : Consistent after := by
  obtain ⟨⟨-, isPrepared⟩, ⟨⟩⟩ := Option.ite_none_right_eq_some.mp stepped
  exact consistent.setThread ((consistent.sound thread).cleanup isPrepared)

/-- A thread that closes its list answers for all of it. -/
theorem close_answers {thread resource : Nat} {self : Thread}
    (closes : (self.prepared = true ∧ self.phase = .cleaned) ∨
      (self.prepared = false ∧ self.phase = .running)) : Answers thread self resource := by
  rcases closes with ⟨-, cleaned⟩ | ⟨unprepared, -⟩
  · exact Or.inl cleaned
  · exact Or.inr (by simp [spares, unprepared])

theorem close_consistent {thread : Nat} (consistent : Consistent state)
    (stepped : step state (.close thread) = some after) : Consistent after := by
  obtain ⟨closes, ⟨⟩⟩ := Option.ite_none_right_eq_some.mp stepped
  have sound := consistent.sound thread
  have distinct := sound.nodup fun _ => close_answers closes
  have own : ∀ resource ∈ (state.threads thread).regularList.table.entries.map Prod.snd,
      state.creator resource = some thread := by
    intro resource isIn
    obtain ⟨⟨index, other⟩, isEntry, rfl⟩ := List.mem_map.mp isIn
    exact sound.own index other (OrderedTable.find_eq_some_iff.mpr isEntry) (close_answers closes)
  obtain ⟨threads, creator, destroyed⟩ := closeList_eq distinct own consistent.destroyed
  constructor
  · intro other
    by_cases same : other = thread
    · subst same
      -- the list is empty, and what it held exists no more
      have left : ∀ resource, (closeList state other
          ((state.threads other).regularList.table.entries.map Prod.snd)).creator resource =
            some other → ((state.threads other).resources resource).isSome = true := by
        intro resource created
        rw [creator] at created
        split at created
        · cases created
        · next notListed =>
          rcases sound.held resource created with ⟨index, found⟩ | isKept
          · have isEntry := OrderedTable.find_eq_some_iff.mp found
            exact absurd (List.mem_map_of_mem isEntry) notListed
          · exact isKept
      simp only [close, State.setThread, Function.update_self]
      constructor
      · intro index resource found
        cases found
      · intro index later resource found
        cases found
      · exact sound.foreign
      · exact fun resource created => Or.inr (left resource created)
      · exact fun _ => rfl
      · intro cleaned
        cases cleaned
    · have unchanged : Sound (closeList state thread
          ((state.threads thread).regularList.table.entries.map Prod.snd)).creator other
            (state.threads other) := by
        apply (consistent.sound other).congr
        intro resource
        rw [creator]
        split
        · next isIn => simp [own resource isIn, Ne.symm same]
        · exact Or.inl rfl
      simpa [close, State.setThread, same, threads] using unchanged
  · exact destroyed

theorem listClose_consistent {thread resource : Nat} (consistent : Consistent state)
    (prudent : Prudent state (.listClose thread resource))
    (stepped : step state (.listClose thread resource) = some after) : Consistent after := by
  obtain ⟨-, ⟨⟩⟩ := Option.ite_none_right_eq_some.mp stepped
  constructor
  · exact consistent.sound
  · exact finalize_destroyed prudent consistent.destroyed

theorem step_consistent {action : Action} (consistent : Consistent state)
    (prudent : Prudent state action) (stepped : step state action = some after) :
    Consistent after := by
  cases action with
  | startup thread isPrepared => exact startup_consistent consistent stepped
  | register thread resource => exact register_consistent consistent stepped
  | convert thread receiver original owner => exact convert_consistent consistent prudent stepped
  | listClose thread resource => exact listClose_consistent consistent prudent stepped
  | delete thread index => exact delete_consistent consistent stepped
  | cleanup thread => exact cleanup_consistent consistent stepped
  | close thread => exact close_consistent consistent stepped

/-- In a run in which only prepared threads restore resources that they do not have, and
not after their cleanup, and no thread closes what another one created, the destructor of
every resource is run by the thread that created it and while it exists.  It outlives the
request of that thread only if the thread has kept a resource at the same address. -/
theorem destroyed_by_creator (reached : Reaches step Prudent initial state) :
    (∀ destruction ∈ state.destroyed, destruction.creator = some destruction.thread) ∧
      ∀ thread resource, (state.threads thread).phase = .ended →
        state.creator resource = some thread →
          ((state.threads thread).resources resource).isSome = true := by
  have consistent := reached.preserves
    (fun _ _ _ consistent prudent stepped => step_consistent consistent prudent stepped)
    consistent_initial
  constructor
  · exact consistent.destroyed
  · intro thread resource ended created
    have sound := consistent.sound thread
    rcases sound.held resource created with ⟨index, found⟩ | isKept
    · rw [sound.idle (Or.inr ended)] at found
      cases found
    · exact isKept

/-- Thread 1 opens two resources and closes one, thread 2 restores the other and ends,
and then thread 1 ends. -/
def shareAndEnd : List Action :=
  [.startup 1 false, .register 1 100, .register 1 101, .listClose 1 101, .startup 2 true,
    .register 2 200, .convert 2 bareReceiver 100 1, .delete 2 1, .cleanup 2, .close 2, .close 1]

theorem destroyed_by_creator_shareAndEnd :
    ∃ state, execute step initial shareAndEnd = some state ∧
      state.destroyed.map (fun gone => (gone.thread, gone.resource)) =
        [(1, 100), (2, 200), (1, 101)] ∧
      ∀ destruction ∈ state.destroyed, destruction.creator = some destruction.thread := by
  have admitted : Admits step Prudent initial shareAndEnd :=
    ⟨trivial, trivial, trivial, rfl, trivial, trivial, fun _ => ⟨rfl, rfl⟩, trivial, trivial,
      trivial, trivial, trivial⟩
  have reached := reaches_of_execute admitted rfl
  exact ⟨_, rfl, rfl, (destroyed_by_creator reached).1⟩

end Runs

end Pthreads.KeptResources
