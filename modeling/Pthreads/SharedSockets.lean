import Mathlib.Data.Finset.Insert
import Mathlib.Logic.Function.Basic
import Pthreads.GuardedRuns
import Pthreads.StoreValues

/-!
# Sockets that are shared between threads

The number of the descriptor of a socket that is stored in a Threaded object goes into
`shared_sockets`, and the destructor of a Socket object leaves a descriptor with such a
number open.  Nothing takes a number out of the table again, but the operating system gives
the number of a closed descriptor to another socket.  A run here is any sequence of what
the threads do with sockets, where storing and freeing have two steps each.  The history
is not part of the program: which socket of the system an object stands for, which of them
have been stored, and whether a number was in the table when its socket was created.
-/

namespace Pthreads.SharedSockets

open GuardedRuns
open Store (Socket)

/-- What a thread is doing with an object. -/
inductive Phase
  | idle
  | storing
  | freeing
deriving DecidableEq

/-- A Socket object. -/
structure SocketObject where
  socket : Socket
  /-- The object has a stream. -/
  zstream : Bool
  phase : Phase
  /-- The socket of the system, for the history. -/
  own : Nat
  /-- The number was in `shared_sockets` when the socket was created, for the history. -/
  recycled : Bool

/-- `pthreads_socket_storage_t`, with the socket of the system for the history. -/
structure SocketStorage where
  socket : Socket
  own : Nat

structure Process where
  /-- The sockets of the system, by the numbers of their open descriptors. -/
  descriptors : Nat → Option Nat
  objects : Nat → Option SocketObject
  /-- What has been stored in Threaded objects. -/
  storages : List SocketStorage
  sharedSockets : Finset Nat
  /-- How many sockets have been created, for the history. -/
  created : Nat
  /-- The sockets of the system that have been stored, for the history. -/
  stored : Finset Nat

def initial : Process := ⟨fun _ => none, fun _ => none, [], ∅, 0, ∅⟩

section Functions

/-- `IS_INVALID_SOCKET` -/
def isInvalidSocket (socket : Socket) : Bool := socket.bsdSocket < 0

/-- `pthreads_globals_shared_socket_track` -/
def sharedSocketTrack (socket : Int) (sharedSockets : Finset Nat) : Finset Nat :=
  if socket < 0 then sharedSockets else insert socket.toNat sharedSockets

/-- `pthreads_globals_socket_shared` -/
def socketShared (socket : Int) (sharedSockets : Finset Nat) : Bool :=
  if socket < 0 then false else socket.toNat ∈ sharedSockets

/-- `close`, of the operating system. -/
def closeDescriptor (number : Int) (descriptors : Nat → Option Nat) : Nat → Option Nat :=
  if number < 0 then descriptors else Function.update descriptors number.toNat none

/-- `pthreads_socket_free_obj_hook`, up to the original handler. -/
def socketFreeObjHook (sharedSockets : Finset Nat) (socket : Socket) : Socket :=
  if !isInvalidSocket socket then
    if socketShared socket.bsdSocket sharedSockets then { socket with bsdSocket := -1 }
    else socket
  else socket

/-- `socket_free_obj` of the sockets extension, the original handler.  A stream keeps its
descriptor. -/
def socketFreeObj (object : SocketObject) (descriptors : Nat → Option Nat) :
    Nat → Option Nat :=
  if object.zstream then descriptors
  else if isInvalidSocket object.socket then descriptors
  else closeDescriptor object.socket.bsdSocket descriptors

/-- `socket_close` of the sockets extension.  A stream closes its descriptor as well.  A
socket that is closed already is an error. -/
def socketClose (object : SocketObject) (descriptors : Nat → Option Nat) :
    (Nat → Option Nat) × SocketObject :=
  if isInvalidSocket object.socket then (descriptors, object)
  else (closeDescriptor object.socket.bsdSocket descriptors,
    { object with zstream := false, socket := { object.socket with bsdSocket := -1 } })

end Functions

/-- What the threads do.  Objects and storages are given by their places, and the operating
system chooses the number of a new socket. -/
inductive Action
  | create (place number : Nat) (type : Int)
  | track (place : Nat)
  | store (place : Nat)
  | restore (place storage : Nat)
  | close (place : Nat)
  | freeHook (place : Nat)
  | freeObj (place : Nat)

section Steps

variable (process : Process)

def Process.put (place : Nat) (object : SocketObject) : Process :=
  { process with objects := Function.update process.objects place (some object) }

/-- `socket_create` and the other functions that make a socket. -/
def create (place number : Nat) (type : Int) : Option Process :=
  match process.objects place, process.descriptors number with
  | none, none =>
    some { process.put place ⟨⟨number, type, 0, 1⟩, false, .idle, process.created,
        number ∈ process.sharedSockets⟩ with
      descriptors := Function.update process.descriptors number (some process.created)
      created := process.created + 1 }
  | _, _ => none

/-- The socket case of `pthreads_store_create`, up to the table. -/
def track (place : Nat) (object : SocketObject) : Process :=
  if object.zstream then process
  else { process.put place { object with phase := .storing } with
    sharedSockets := if !isInvalidSocket object.socket then
        sharedSocketTrack object.socket.bsdSocket process.sharedSockets
      else process.sharedSockets
    stored := insert object.own process.stored }

/-- The rest of it: the storage goes into a Threaded object. -/
def store (place : Nat) (object : SocketObject) : Process :=
  { process.put place { object with phase := .idle } with
    storages := process.storages ++ [⟨object.socket, object.own⟩] }

/-- The socket case of `pthreads_store_convert`, in any thread. -/
def restore (place index : Nat) : Option Process :=
  match process.objects place, process.storages[index]? with
  | none, some storage =>
    some (process.put place ⟨storage.socket, false, .idle, storage.own, false⟩)
  | _, _ => none

def step (process : Process) : Action → Option Process
  | .create place number type => create process place number type
  | .restore place index => restore process place index
  | .track place => do
    let object ← process.objects place
    if object.phase = .idle then some (track process place object) else none
  | .store place => do
    let object ← process.objects place
    if object.phase = .storing then some (store process place object) else none
  | .close place => do
    let object ← process.objects place
    if object.phase = .idle then
      let (descriptors, closed) := socketClose object process.descriptors
      some { process.put place closed with descriptors := descriptors }
    else none
  | .freeHook place => do
    let object ← process.objects place
    if object.phase = .idle then
      some (process.put place { object with
        phase := .freeing, socket := socketFreeObjHook process.sharedSockets object.socket })
    else none
  | .freeObj place => do
    let object ← process.objects place
    if object.phase = .freeing then
      some { process with
        descriptors := socketFreeObj object process.descriptors
        objects := Function.update process.objects place none }
    else none

end Steps

/-- What holds of an object in every run. -/
structure ObjectSound (process : Process) (object : SocketObject) : Prop where
  stream : object.zstream = false
  older : object.own < process.created
  /-- A number that is not in the table is that of the object's own socket. -/
  number : 0 ≤ object.socket.bsdSocket →
    object.socket.bsdSocket.toNat ∈ process.sharedSockets ∨
      process.descriptors object.socket.bsdSocket.toNat = some object.own ∧
        object.own ∉ process.stored ∧ object.recycled = false
  fresh : object.own ∉ process.stored → object.recycled = false →
    0 ≤ object.socket.bsdSocket → object.socket.bsdSocket.toNat ∉ process.sharedSockets
  closed : object.own ∉ process.stored → object.recycled = false →
    object.socket.bsdSocket < 0 → ∀ number, process.descriptors number ≠ some object.own
  storing : object.phase = .storing → object.own ∈ process.stored ∧
    (0 ≤ object.socket.bsdSocket →
      object.socket.bsdSocket.toNat ∈ process.sharedSockets)
  freeing : object.phase = .freeing → 0 ≤ object.socket.bsdSocket →
    object.socket.bsdSocket.toNat ∉ process.sharedSockets

/-- What holds in every run. -/
structure Sound (process : Process) : Prop where
  older : ∀ number own, process.descriptors number = some own → own < process.created
  injective : ∀ number other own, process.descriptors number = some own →
    process.descriptors other = some own → number = other
  stored : ∀ own ∈ process.stored, own < process.created
  storages : ∀ storage ∈ process.storages, storage.own ∈ process.stored ∧
    (0 ≤ storage.socket.bsdSocket →
      storage.socket.bsdSocket.toNat ∈ process.sharedSockets)
  /-- Only a socket that has been stored has two objects. -/
  unique : ∀ place other object twin, process.objects place = some object →
    process.objects other = some twin → object.own = twin.own →
      object.own ∉ process.stored → place = other
  objects : ∀ place object, process.objects place = some object → ObjectSound process object

theorem sound_initial : Sound initial where
  older _ _ := nofun
  injective _ _ _ := nofun
  stored _ := nofun
  storages _ := nofun
  unique _ _ _ _ := nofun
  objects _ _ := nofun

section Preservation

variable {process after : Process} {object : SocketObject}

/-- What a step does to the other objects. -/
theorem ObjectSound.change (sound : ObjectSound process object)
    (created : process.created ≤ after.created)
    (shared : process.sharedSockets ⊆ after.sharedSockets)
    (stored : object.own ∈ after.stored ↔ object.own ∈ process.stored)
    (number : 0 ≤ object.socket.bsdSocket →
      object.socket.bsdSocket.toNat ∉ process.sharedSockets →
        object.socket.bsdSocket.toNat ∉ after.sharedSockets ∧
          after.descriptors object.socket.bsdSocket.toNat =
            process.descriptors object.socket.bsdSocket.toNat)
    (open_before : ∀ number, after.descriptors number = some object.own →
      process.descriptors number = some object.own) : ObjectSound after object where
  stream := sound.stream
  older := Nat.lt_of_lt_of_le sound.older created
  number valid := by
    by_cases isShared : object.socket.bsdSocket.toNat ∈ process.sharedSockets
    · exact Or.inl (shared isShared)
    · obtain ⟨-, same⟩ := number valid isShared
      rw [same, stored]
      exact (sound.number valid).imp_left fun isIn => absurd isIn isShared
  fresh unstored first valid :=
    (number valid (sound.fresh (stored.not.mp unstored) first valid)).1
  closed unstored first invalid other isOpen :=
    sound.closed (stored.not.mp unstored) first invalid other (open_before other isOpen)
  storing isStoring :=
    ⟨stored.mpr (sound.storing isStoring).1, fun valid =>
      shared ((sound.storing isStoring).2 valid)⟩
  freeing isFreeing valid := (number valid (sound.freeing isFreeing valid)).1

/-- Two objects have the same number only if it is in the table. -/
theorem Sound.number_ne (sound : Sound process) {place other : Nat} {twin : SocketObject}
    (found : process.objects place = some object) (twinFound : process.objects other = some twin)
    (different : other ≠ place) (valid : 0 ≤ object.socket.bsdSocket)
    (twinValid : 0 ≤ twin.socket.bsdSocket)
    (unshared : twin.socket.bsdSocket.toNat ∉ process.sharedSockets) :
    twin.socket.bsdSocket.toNat ≠ object.socket.bsdSocket.toNat := by
  intro same
  obtain ⟨twinOpen, unstored, -⟩ :=
    ((sound.objects other twin twinFound).number twinValid).resolve_left unshared
  rw [same] at unshared twinOpen
  obtain ⟨isOpen, -, -⟩ := ((sound.objects place object found).number valid).resolve_left unshared
  have own : twin.own = object.own := Option.some.inj (twinOpen.symm.trans isOpen)
  exact different (sound.unique other place twin object twinFound found own unstored)

/-- One place changes, and what the other objects need is kept. -/
theorem Sound.update (sound : Sound process) {place : Nat} {replaced : Option SocketObject}
    (objects : after.objects = Function.update process.objects place replaced)
    (older : ∀ number own, after.descriptors number = some own → own < after.created)
    (injective : ∀ number other own, after.descriptors number = some own →
      after.descriptors other = some own → number = other)
    (storedOlder : ∀ own ∈ after.stored, own < after.created)
    (storages : ∀ storage ∈ after.storages, storage.own ∈ after.stored ∧
      (0 ≤ storage.socket.bsdSocket →
        storage.socket.bsdSocket.toNat ∈ after.sharedSockets))
    (stored : process.stored ⊆ after.stored)
    (replacement : ∀ object, replaced = some object → ObjectSound after object ∧
      ∀ other ≠ place, ∀ twin, process.objects other = some twin → twin.own = object.own →
        object.own ∈ after.stored)
    (others : ∀ other ≠ place, ∀ object, process.objects other = some object →
      ObjectSound after object) : Sound after := by
  refine ⟨older, injective, storedOlder, storages, ?_, ?_⟩
  · intro first second object twin found twinFound own unstored
    rw [objects] at found twinFound
    rw [Function.update_apply] at found twinFound
    split at found
    · next isFirst =>
      split at twinFound
      · next isSecond => exact isFirst.trans isSecond.symm
      · next different =>
        exact absurd ((replacement object found).2 second different twin twinFound own.symm)
          unstored
    · next different =>
      split at twinFound
      · rw [own] at unstored
        exact absurd ((replacement twin twinFound).2 first different object found own) unstored
      · exact sound.unique first second object twin found twinFound own fun before =>
          unstored (stored before)
  · intro other object found
    rw [objects, Function.update_apply] at found
    split at found
    · exact (replacement object found).1
    · next different => exact others other different object found

end Preservation

section Descriptors

variable {descriptors : Nat → Option Nat} {number : Int} {other own : Nat}

theorem closeDescriptor_same (valid : 0 ≤ number) :
    closeDescriptor number descriptors number.toNat = none := by
  unfold closeDescriptor
  rw [if_neg (Int.not_lt.mpr valid), Function.update_self]

theorem closeDescriptor_other (different : other ≠ number.toNat) :
    closeDescriptor number descriptors other = descriptors other := by
  unfold closeDescriptor
  split
  · rfl
  · rw [Function.update_of_ne different]

theorem open_of_closeDescriptor
    (isOpen : closeDescriptor number descriptors other = some own) :
    descriptors other = some own := by
  unfold closeDescriptor at isOpen
  split at isOpen
  · exact isOpen
  · rw [Function.update_apply] at isOpen
    split at isOpen
    · cases isOpen
    · exact isOpen

end Descriptors

section Hooks

variable {sharedSockets : Finset Nat} {socket : Socket}

/-- The hook leaves a number that is not in the table. -/
theorem socketFreeObjHook_valid
    (valid : 0 ≤ (socketFreeObjHook sharedSockets socket).bsdSocket) :
    socketFreeObjHook sharedSockets socket = socket ∧
      socket.bsdSocket.toNat ∉ sharedSockets := by
  unfold socketFreeObjHook socketShared at valid ⊢
  split at valid
  · next isValid =>
    have notNegative : ¬socket.bsdSocket < 0 := by
      unfold isInvalidSocket at isValid
      simpa using isValid
    rw [if_pos isValid, if_neg notNegative]
    rw [if_neg notNegative] at valid
    split at valid
    · cases valid
    · next unshared =>
      rw [if_neg unshared]
      exact ⟨rfl, fun isShared => unshared (decide_eq_true isShared)⟩
  · next isInvalid =>
    unfold isInvalidSocket at isInvalid
    rw [Bool.not_eq_true', decide_eq_false_iff_not, not_not] at isInvalid
    exact absurd isInvalid (Int.not_lt.mpr valid)

/-- The hook takes away only numbers that are in the table. -/
theorem socketFreeObjHook_invalid
    (invalid : (socketFreeObjHook sharedSockets socket).bsdSocket < 0) :
    socket.bsdSocket < 0 ∨ socket.bsdSocket.toNat ∈ sharedSockets := by
  unfold socketFreeObjHook socketShared at invalid
  by_cases negative : socket.bsdSocket < 0
  · exact Or.inl negative
  · right
    by_contra unshared
    rw [if_neg negative, decide_eq_false unshared] at invalid
    rw [if_neg Bool.false_ne_true, ite_self] at invalid
    exact negative invalid

end Hooks

section Transitions

variable {process after : Process} {place : Nat} {object : SocketObject}

theorem create_sound {number : Nat} {type : Int} (sound : Sound process)
    (creates : create process place number type = some after) : Sound after := by
  unfold create at creates
  split at creates
  · next noObject free =>
    cases creates
    have isNew : ∀ other, process.descriptors other ≠ some process.created := fun other isOpen =>
      Nat.lt_irrefl _ (sound.older other _ isOpen)
    apply sound.update rfl
    · intro other own isOpen
      dsimp only at isOpen ⊢
      rw [Function.update_apply] at isOpen
      split at isOpen
      · cases isOpen
        exact Nat.lt_succ_self _
      · exact Nat.lt_succ_of_lt (sound.older other own isOpen)
    · intro first second own firstOpen secondOpen
      dsimp only at firstOpen secondOpen
      rw [Function.update_apply] at firstOpen secondOpen
      split at firstOpen <;> split at secondOpen
      · next isFirst isSecond => exact isFirst.trans isSecond.symm
      · cases firstOpen
        exact absurd secondOpen (isNew second)
      · cases secondOpen
        exact absurd firstOpen (isNew first)
      · exact sound.injective first second own firstOpen secondOpen
    · exact fun own isStored => Nat.lt_succ_of_lt (sound.stored own isStored)
    · exact sound.storages
    · exact Finset.Subset.refl _
    · rintro object ⟨⟩
      refine ⟨⟨rfl, Nat.lt_succ_self _, ?_, ?_, ?_, nofun, nofun⟩, ?_⟩
      · intro _
        by_cases isShared : number ∈ process.sharedSockets
        · exact Or.inl isShared
        · refine Or.inr ⟨Function.update_self .., ?_, decide_eq_false isShared⟩
          exact fun isStored => Nat.lt_irrefl _ (sound.stored _ isStored)
      · exact fun _ first _ => of_decide_eq_false first
      · exact fun _ _ invalid => absurd invalid (Int.not_lt.mpr (Int.natCast_nonneg number))
      · intro other _ twin found own
        exact absurd own (Nat.ne_of_lt (sound.objects other twin found).older)
    · intro other different twin found
      have twinSound := sound.objects other twin found
      refine twinSound.change (Nat.le_succ _) (Finset.Subset.refl _) Iff.rfl ?_ ?_
      · intro valid unshared
        obtain ⟨isOpen, -, -⟩ := (twinSound.number valid).resolve_left unshared
        refine ⟨unshared, Function.update_of_ne ?_ ..⟩
        rintro rfl
        rw [free] at isOpen
        cases isOpen
      · intro other isOpen
        dsimp only at isOpen
        rw [Function.update_apply] at isOpen
        split at isOpen
        · exact absurd (Option.some.inj isOpen) (Nat.ne_of_gt twinSound.older)
        · exact isOpen
  · cases creates

/-- A step that leaves everything but one object as it is. -/
theorem Sound.put (sound : Sound process) {changed : SocketObject}
    (changedSound : ObjectSound process changed)
    (found : process.objects place = some object) (own : changed.own = object.own) :
    Sound (process.put place changed) := by
  refine sound.update rfl sound.older sound.injective sound.stored sound.storages
    (Finset.Subset.refl _) ?_ ?_
  · rintro _ ⟨⟩
    refine ⟨changedSound.change (Nat.le_refl _) (Finset.Subset.refl _) Iff.rfl
      (fun _ unshared => ⟨unshared, rfl⟩) fun _ isOpen => isOpen, ?_⟩
    intro other different twin twinFound same
    by_contra unstored
    rw [own] at same unstored
    exact different (sound.unique place other object twin found twinFound same.symm unstored).symm
  · intro other _ twin twinFound
    exact (sound.objects other twin twinFound).change (Nat.le_refl _) (Finset.Subset.refl _)
      Iff.rfl (fun _ unshared => ⟨unshared, rfl⟩) fun _ isOpen => isOpen

theorem store_sound (sound : Sound process) (found : process.objects place = some object)
    (isStoring : object.phase = .storing) : Sound (store process place object) := by
  have objectSound := sound.objects place object found
  have idle : ObjectSound process { object with phase := .idle } :=
    ⟨objectSound.stream, objectSound.older, objectSound.number, objectSound.fresh,
      objectSound.closed, nofun, nofun⟩
  have put := sound.put idle found rfl
  refine ⟨put.older, put.injective, put.stored, ?_, put.unique, ?_⟩
  · intro storage isIn
    rcases List.mem_append.mp isIn with before | isNew
    · exact sound.storages storage before
    · cases List.mem_singleton.mp isNew
      exact objectSound.storing isStoring
  · intro other twin twinFound
    exact (put.objects other twin twinFound).change (Nat.le_refl _) (Finset.Subset.refl _)
      Iff.rfl (fun _ unshared => ⟨unshared, rfl⟩) fun _ isOpen => isOpen

theorem restore_sound {index : Nat} (sound : Sound process)
    (restores : restore process place index = some after) : Sound after := by
  unfold restore at restores
  split at restores
  · next storage noObject isIn =>
    cases restores
    obtain ⟨stored, shared⟩ := sound.storages storage (List.mem_of_getElem? isIn)
    refine sound.update rfl sound.older sound.injective sound.stored sound.storages
      (Finset.Subset.refl _) ?_ ?_
    · rintro _ ⟨⟩
      exact ⟨⟨rfl, sound.stored _ stored, fun valid => Or.inl (shared valid),
        fun unstored => absurd stored unstored, fun unstored => absurd stored unstored, nofun,
        nofun⟩, fun _ _ _ _ _ => stored⟩
    · intro other _ twin twinFound
      exact (sound.objects other twin twinFound).change (Nat.le_refl _) (Finset.Subset.refl _)
        Iff.rfl (fun _ unshared => ⟨unshared, rfl⟩) fun _ isOpen => isOpen
  · cases restores

theorem freeHook_sound (sound : Sound process) (found : process.objects place = some object) :
    Sound (process.put place { object with
      phase := .freeing, socket := socketFreeObjHook process.sharedSockets object.socket }) := by
  have objectSound := sound.objects place object found
  refine sound.put ⟨objectSound.stream, objectSound.older, ?_, ?_, ?_, nofun, ?_⟩ found rfl
  · intro valid
    obtain ⟨same, -⟩ := socketFreeObjHook_valid valid
    dsimp only at valid ⊢
    rw [same] at valid ⊢
    exact objectSound.number valid
  · intro unstored first valid
    obtain ⟨same, unshared⟩ := socketFreeObjHook_valid valid
    dsimp only
    rwa [same]
  · intro unstored first invalid
    rcases socketFreeObjHook_invalid invalid with before | isShared
    · exact objectSound.closed unstored first before
    · by_cases valid : 0 ≤ object.socket.bsdSocket
      · exact absurd isShared (objectSound.fresh unstored first valid)
      · exact objectSound.closed unstored first (Int.not_le.mp valid)
  · intro _ valid
    obtain ⟨same, unshared⟩ := socketFreeObjHook_valid valid
    dsimp only
    rwa [same]

/-- A descriptor is closed, and only the object that has it changes. -/
theorem Sound.close (sound : Sound process) (found : process.objects place = some object)
    (valid : 0 ≤ object.socket.bsdSocket) {replaced : Option SocketObject}
    (replacement : ∀ changed, replaced = some changed → changed.own = object.own ∧
      changed.zstream = false ∧ changed.phase = .idle ∧ changed.recycled = object.recycled ∧
      changed.socket.bsdSocket < 0) :
    Sound { process with
      descriptors := closeDescriptor object.socket.bsdSocket process.descriptors
      objects := Function.update process.objects place replaced } := by
  have objectSound := sound.objects place object found
  refine sound.update rfl ?_ ?_ sound.stored sound.storages (Finset.Subset.refl _) ?_ ?_
  · exact fun number own isOpen => sound.older number own (open_of_closeDescriptor isOpen)
  · exact fun first second own firstOpen secondOpen => sound.injective first second own
      (open_of_closeDescriptor firstOpen) (open_of_closeDescriptor secondOpen)
  · intro changed isChanged
    obtain ⟨own, stream, idle, recycled, invalid⟩ := replacement changed isChanged
    have noNumber : ¬0 ≤ changed.socket.bsdSocket := Int.not_le.mpr invalid
    refine ⟨⟨stream, own ▸ objectSound.older, fun number => absurd number noNumber,
      fun _ _ number => absurd number noNumber, ?_, ?_, ?_⟩, ?_⟩
    · intro unstored first _ other isOpen
      rw [own] at unstored isOpen
      rw [recycled] at first
      have unshared := objectSound.fresh unstored first valid
      obtain ⟨ownOpen, -, -⟩ := (objectSound.number valid).resolve_left unshared
      have same := sound.injective _ _ _ (open_of_closeDescriptor isOpen) ownOpen
      rw [same] at isOpen
      cases (closeDescriptor_same valid).symm.trans isOpen
    · intro isStoring
      cases idle.symm.trans isStoring
    · intro isFreeing
      cases idle.symm.trans isFreeing
    · intro other different twin twinFound same
      by_contra unstored
      rw [own] at same unstored
      exact different (sound.unique place other object twin found twinFound same.symm
        unstored).symm
  · intro other different twin twinFound
    refine (sound.objects other twin twinFound).change (Nat.le_refl _) (Finset.Subset.refl _)
      Iff.rfl ?_ fun _ => open_of_closeDescriptor
    intro twinValid unshared
    exact ⟨unshared, closeDescriptor_other
      (sound.number_ne found twinFound different valid twinValid unshared)⟩

theorem mem_sharedSocketTrack {socket : Int} {sharedSockets : Finset Nat} {number : Nat} :
    number ∈ sharedSocketTrack socket sharedSockets ↔
      number ∈ sharedSockets ∨ 0 ≤ socket ∧ number = socket.toNat := by
  unfold sharedSocketTrack
  split
  · next negative =>
    exact ⟨Or.inl, fun cases => cases.elim id fun isNew =>
      absurd negative (Int.not_lt.mpr isNew.1)⟩
  · next valid =>
    rw [Finset.mem_insert, or_comm, and_iff_right (Int.not_lt.mp valid)]

theorem track_sound (sound : Sound process) (found : process.objects place = some object) :
    Sound (track process place object) := by
  have objectSound := sound.objects place object found
  have tracked : (if !isInvalidSocket object.socket then
      sharedSocketTrack object.socket.bsdSocket process.sharedSockets
      else process.sharedSockets) =
      sharedSocketTrack object.socket.bsdSocket process.sharedSockets := by
    unfold isInvalidSocket sharedSocketTrack
    by_cases negative : object.socket.bsdSocket < 0
    · rw [if_pos negative, ite_self]
    · rw [decide_eq_false negative, Bool.not_false, if_pos rfl]
  have subset : process.sharedSockets ⊆
      sharedSocketTrack object.socket.bsdSocket process.sharedSockets :=
    fun number isIn => mem_sharedSocketTrack.mpr (Or.inl isIn)
  unfold track
  rw [if_neg (Bool.eq_false_iff.mp objectSound.stream), tracked]
  refine sound.update rfl sound.older sound.injective ?_ ?_ (Finset.subset_insert _ _) ?_ ?_
  · exact Finset.forall_mem_insert _ _ _ |>.mpr ⟨objectSound.older, sound.stored⟩
  · intro storage isIn
    obtain ⟨stored, shared⟩ := sound.storages storage isIn
    exact ⟨Finset.mem_insert_of_mem stored, fun valid => subset (shared valid)⟩
  · rintro changed ⟨⟩
    have isStored : object.own ∈ insert object.own process.stored := Finset.mem_insert_self _ _
    have isShared : 0 ≤ object.socket.bsdSocket → object.socket.bsdSocket.toNat ∈
        sharedSocketTrack object.socket.bsdSocket process.sharedSockets :=
      fun valid => mem_sharedSocketTrack.mpr (Or.inr ⟨valid, rfl⟩)
    exact ⟨⟨objectSound.stream, objectSound.older, fun valid => Or.inl (isShared valid),
      fun unstored => absurd isStored unstored, fun unstored => absurd isStored unstored,
      fun _ => ⟨isStored, isShared⟩, nofun⟩, fun _ _ _ _ _ => isStored⟩
  · intro other different twin twinFound
    refine (sound.objects other twin twinFound).change (Nat.le_refl _) subset ?_ ?_
      fun _ isOpen => isOpen
    · refine ⟨fun isStored => ?_, Finset.mem_insert_of_mem⟩
      rcases Finset.mem_insert.mp isStored with own | before
      · by_contra unstored
        exact different (sound.unique other place twin object twinFound found own unstored)
      · exact before
    · intro twinValid unshared
      refine ⟨fun isShared => ?_, rfl⟩
      rcases mem_sharedSocketTrack.mp isShared with before | ⟨valid, same⟩
      · exact unshared before
      · exact sound.number_ne found twinFound different valid twinValid unshared same

theorem freeObj_sound (sound : Sound process) (found : process.objects place = some object) :
    Sound { process with
      descriptors := socketFreeObj object process.descriptors
      objects := Function.update process.objects place none } := by
  have objectSound := sound.objects place object found
  unfold socketFreeObj isInvalidSocket
  rw [objectSound.stream, if_neg Bool.false_ne_true]
  by_cases invalid : object.socket.bsdSocket < 0
  · rw [decide_eq_true invalid, if_pos rfl]
    refine sound.update rfl sound.older sound.injective sound.stored sound.storages
      (Finset.Subset.refl _) nofun ?_
    intro other _ twin twinFound
    exact (sound.objects other twin twinFound).change (Nat.le_refl _) (Finset.Subset.refl _)
      Iff.rfl (fun _ unshared => ⟨unshared, rfl⟩) fun _ isOpen => isOpen
  · rw [decide_eq_false invalid, if_neg Bool.false_ne_true]
    exact sound.close found (Int.not_lt.mp invalid) nofun

/-- Each step keeps the invariant. -/
theorem step_sound {action : Action} (sound : Sound process)
    (stepped : step process action = some after) : Sound after := by
  cases action with
  | create place number type => exact create_sound sound stepped
  | restore place index => exact restore_sound sound stepped
  | track place =>
    obtain ⟨object, found, stepped⟩ := Option.bind_eq_some_iff.mp stepped
    obtain ⟨-, ⟨⟩⟩ := Option.ite_none_right_eq_some.mp stepped
    exact track_sound sound found
  | store place =>
    obtain ⟨object, found, stepped⟩ := Option.bind_eq_some_iff.mp stepped
    obtain ⟨isStoring, ⟨⟩⟩ := Option.ite_none_right_eq_some.mp stepped
    exact store_sound sound found isStoring
  | close place =>
    obtain ⟨object, found, stepped⟩ := Option.bind_eq_some_iff.mp stepped
    obtain ⟨idle, stepped⟩ := Option.ite_none_right_eq_some.mp stepped
    unfold socketClose isInvalidSocket at stepped
    by_cases invalid : object.socket.bsdSocket < 0
    · rw [decide_eq_true invalid, if_pos rfl] at stepped
      cases stepped
      exact sound.put (sound.objects place object found) found rfl
    · rw [decide_eq_false invalid, if_neg Bool.false_ne_true] at stepped
      cases stepped
      apply sound.close found (Int.not_lt.mp invalid)
      rintro _ ⟨⟩
      exact ⟨rfl, rfl, idle, rfl, (by decide : (-1 : Int) < 0)⟩
  | freeHook place =>
    obtain ⟨object, found, stepped⟩ := Option.bind_eq_some_iff.mp stepped
    obtain ⟨-, ⟨⟩⟩ := Option.ite_none_right_eq_some.mp stepped
    exact freeHook_sound sound found
  | freeObj place =>
    obtain ⟨object, found, stepped⟩ := Option.bind_eq_some_iff.mp stepped
    obtain ⟨-, ⟨⟩⟩ := Option.ite_none_right_eq_some.mp stepped
    exact freeObj_sound sound found

end Transitions

section Histories

variable {process after : Process}

/-- The operating system gives no new socket the number of one that has been stored. -/
def freshNumbers (process : Process) : Action → Prop
  | .create _ number _ => number ∉ process.sharedSockets
  | _ => True

theorem socketClose_recycled (object : SocketObject) (descriptors : Nat → Option Nat) :
    (socketClose object descriptors).2.recycled = object.recycled := by
  unfold socketClose
  split <;> rfl

theorem first_update {place : Nat} {replaced : Option SocketObject}
    (first : ∀ place object, process.objects place = some object → object.recycled = false)
    (objects : after.objects = Function.update process.objects place replaced)
    (replacedFirst : ∀ object, replaced = some object → object.recycled = false) :
    ∀ other object, after.objects other = some object → object.recycled = false := by
  intro other object found
  rw [objects, Function.update_apply] at found
  split at found
  · exact replacedFirst object found
  · exact first other object found

/-- Then no object has a number that was in the table. -/
theorem first_step {action : Action}
    (first : ∀ place object, process.objects place = some object → object.recycled = false)
    (fresh : freshNumbers process action) (stepped : step process action = some after) :
    ∀ place object, after.objects place = some object → object.recycled = false := by
  cases action with
  | create place number type =>
    simp only [step, create] at stepped
    split at stepped
    · cases stepped
      refine first_update first rfl ?_
      rintro _ ⟨⟩
      exact decide_eq_false fresh
    · cases stepped
  | restore place index =>
    simp only [step, restore] at stepped
    split at stepped
    · cases stepped
      refine first_update first rfl ?_
      rintro _ ⟨⟩
      rfl
    · cases stepped
  | track place =>
    obtain ⟨object, found, stepped⟩ := Option.bind_eq_some_iff.mp stepped
    obtain ⟨-, ⟨⟩⟩ := Option.ite_none_right_eq_some.mp stepped
    unfold track
    split
    · exact first
    · refine first_update first rfl ?_
      rintro _ ⟨⟩
      exact first place object found
  | store place =>
    obtain ⟨object, found, stepped⟩ := Option.bind_eq_some_iff.mp stepped
    obtain ⟨-, ⟨⟩⟩ := Option.ite_none_right_eq_some.mp stepped
    refine first_update first rfl ?_
    rintro _ ⟨⟩
    exact first place object found
  | close place =>
    obtain ⟨object, found, stepped⟩ := Option.bind_eq_some_iff.mp stepped
    obtain ⟨-, stepped⟩ := Option.ite_none_right_eq_some.mp stepped
    have recycled := socketClose_recycled object process.descriptors
    cases closes : socketClose object process.descriptors with
    | mk descriptors closed =>
      rw [closes] at stepped recycled
      cases stepped
      refine first_update first rfl ?_
      rintro _ ⟨⟩
      exact recycled.trans (first place object found)
  | freeHook place =>
    obtain ⟨object, found, stepped⟩ := Option.bind_eq_some_iff.mp stepped
    obtain ⟨-, ⟨⟩⟩ := Option.ite_none_right_eq_some.mp stepped
    refine first_update first rfl ?_
    rintro _ ⟨⟩
    exact first place object found
  | freeObj place =>
    obtain ⟨object, found, stepped⟩ := Option.bind_eq_some_iff.mp stepped
    obtain ⟨-, ⟨⟩⟩ := Option.ite_none_right_eq_some.mp stepped
    exact first_update first rfl nofun

end Histories

section Frees

variable {process after : Process} {place : Nat} {object : SocketObject}

theorem sound_of_reaches (reached : Reaches step anyAction initial process) : Sound process :=
  reached.preserves (fun _ _ _ sound _ stepped => step_sound sound stepped) sound_initial

/-- A socket of the system has a descriptor. -/
def Open (process : Process) (own : Nat) : Prop :=
  ∃ number, process.descriptors number = some own

/-- When an object is destroyed whose own socket has not been stored, then that socket is
closed, unless its number was in the table when it was created. -/
theorem freeObj_closes_iff (reached : Reaches step anyAction initial process)
    (found : process.objects place = some object) (unstored : object.own ∉ process.stored)
    (freed : step process (.freeObj place) = some after) :
    ¬Open after object.own ↔ object.recycled = false ∨ ¬Open process object.own := by
  have objectSound := (sound_of_reaches reached).objects place object found
  obtain ⟨other, foundOther, freed⟩ := Option.bind_eq_some_iff.mp freed
  cases Option.some.inj (found.symm.trans foundOther)
  obtain ⟨isFreeing, ⟨⟩⟩ := Option.ite_none_right_eq_some.mp freed
  unfold Open socketFreeObj isInvalidSocket
  rw [if_neg (Bool.eq_false_iff.mp objectSound.stream)]
  by_cases invalid : object.socket.bsdSocket < 0
  · rw [decide_eq_true invalid, if_pos rfl]
    refine ⟨Or.inr, fun cases => cases.elim (fun first => ?_) id⟩
    rintro ⟨number, isOpen⟩
    exact objectSound.closed unstored first invalid number isOpen
  · rw [decide_eq_false invalid, if_neg Bool.false_ne_true]
    have valid := Int.not_lt.mp invalid
    have unshared := objectSound.freeing isFreeing valid
    obtain ⟨ownOpen, -, first⟩ := (objectSound.number valid).resolve_left unshared
    refine ⟨fun _ => Or.inl first, fun _ => ?_⟩
    rintro ⟨number, isOpen⟩
    have same := (sound_of_reaches reached).injective _ _ _ (open_of_closeDescriptor isOpen) ownOpen
    rw [same] at isOpen
    cases (closeDescriptor_same valid).symm.trans isOpen

/-- Then every object whose own socket has not been stored closes it. -/
theorem freeObj_closes_of_fresh (reached : Reaches step freshNumbers initial process)
    (found : process.objects place = some object) (unstored : object.own ∉ process.stored)
    (freed : step process (.freeObj place) = some after) : ¬Open after object.own := by
  have keeps : ∀ before action after, (∀ place object,
      before.objects place = some object → object.recycled = false) →
      freshNumbers before action → step before action = some after → ∀ place object,
        after.objects place = some object → object.recycled = false :=
    fun _ _ _ first fresh stepped => first_step first fresh stepped
  have first := reached.preserves keeps nofun place object found
  exact (freeObj_closes_iff (reached.weaken fun _ _ _ => trivial) found unstored freed).mpr
    (Or.inl first)

end Frees

section Example

/-- A socket is stored and closed, and two new ones get its number and another one. -/
def reusing : List Action :=
  [.create 0 5 1, .track 0, .store 0, .close 0, .create 1 5 1, .create 2 6 1, .freeHook 1,
    .freeHook 2]

def reused : Process := (execute step initial reusing).get rfl

theorem reused_reaches : Reaches step anyAction initial reused :=
  reaches_of_execute (admits_anyAction _ _ reusing) (Option.some_get _).symm

/-- The socket with the number of its own is closed. -/
theorem freeObj_closes_iff_reused : ∃ object after, reused.objects 2 = some object ∧
    step reused (.freeObj 2) = some after ∧ ¬Open after object.own := by
  have freed : step reused (.freeObj 2) = some _ := rfl
  refine ⟨_, _, rfl, freed, ?_⟩
  exact (freeObj_closes_iff reused_reaches rfl (by decide) freed).mpr (Or.inl rfl)

/-- The socket with the number of the stored one stays open. -/
theorem freeObj_leaves_reused : ¬∀ process after place object,
    Reaches step anyAction initial process → process.objects place = some object →
      object.own ∉ process.stored → step process (.freeObj place) = some after →
        ¬Open after object.own :=
  fun closes => closes reused _ 1 _ reused_reaches rfl (by decide) rfl ⟨5, rfl⟩

end Example

end Pthreads.SharedSockets
