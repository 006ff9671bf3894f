import Pthreads.ClassVisits
import Pthreads.OrderedTable
import Pthreads.StaticGuarantees
import Pthreads.ValueCopies

/-!
# The keys of the class table

A class table maps lower-cased names to class entries, and a class that has an
alias is there under two keys.  `pthreads_prepare_classes` goes through the keys
of the creator's table, but `pthreads_create_entry` inserts a class under the name
that the class has itself.  Late bindings only look up classes that have been
inserted before, so that they do not appear here.
-/

namespace Pthreads.ClassPreparation

open PartialFolds
open ValueCopies (Bytes toLower)

/-- The bytes of a class name or of a key. -/
abbrev ClassName := Bytes

/-- The test `ZSTR_VAL(name)[0] != '\0'` fails.  A NUL byte follows the last byte. -/
def startsWithNul (key : ClassName) : Bool :=
  key.headD 0 = 0

/-- A class entry of the new thread: the entry of the creator used in place, or what
`pthreads_copy_entry` and `pthreads_complete_entry` have made of it. -/
inductive Version (ClassId : Type*)
  | shared (original : ClassId)
  | copied (original : ClassId)
deriving DecidableEq, Repr

def Version.original {ClassId : Type*} : Version ClassId → ClassId
  | .shared original => original
  | .copied original => original

/-- The class table of the creator with its keys, as the engine keeps it. -/
structure KeyedCreator (ClassId Value : Type*) extends Creator ClassId Value where
  keyed : OrderedTable ClassName ClassId
  name : ClassId → ClassName
  /-- `ZEND_ACC_ANON_CLASS` -/
  anonymous : ClassId → Bool
  classTable_eq : classTable = keyed.entries.map Prod.snd
  /-- Only the key under which a class waits for its declaration is not a name of it.
  Such a key begins with a NUL byte; a class with another key has been declared. -/
  declared : ∀ key candidate, keyed.find key = some candidate → startsWithNul key = false →
    keyed.find (toLower (name candidate)) = some candidate
  /-- A class that another one needs has been declared. -/
  needed : ∀ candidate, ∀ other ∈ (entry candidate).dependencies,
    keyed.find (toLower (name other)) = some other

/-- The class table of the new thread with its keys. -/
abbrev ChildTable (ClassId : Type*) := OrderedTable ClassName (Version ClassId)

variable {ClassId Value : Type*}

namespace KeyedCreator

variable (creator : KeyedCreator ClassId Value)

/-- The key that `pthreads_create_entry` looks up and inserts. -/
def lookup (candidate : ClassId) : ClassName :=
  toLower (creator.name candidate)

/-- The prepared version of a class. -/
def version (candidate : ClassId) : Version ClassId :=
  if (creator.entry candidate).origin = .user then .copied candidate else .shared candidate

/-- An anonymous class that was unbound at the initial copy is bound now. -/
def nowBound (prepared candidate : ClassId) : Bool :=
  creator.anonymous prepared ∧ ¬ (creator.entry prepared).linked ∧
    creator.anonymous candidate ∧ (creator.entry candidate).linked

/-- The class is in the table under its own name. -/
def Declared (candidate : ClassId) : Prop :=
  creator.keyed.find (creator.lookup candidate) = some candidate

/-- `pthreads_complete_entry` prepares the parent and the interfaces of a class. -/
def completeKeyed (create : ClassId → ChildTable ClassId → Option (ChildTable ClassId))
    (candidate : ClassId) (child : ChildTable ClassId) : Option (ChildTable ClassId) :=
  ((creator.entry candidate).required.foldlM (fun child other => create other child)
    child).map fun child => child.update (creator.lookup candidate) (.copied candidate)

/-- An immutable class is inserted before its dependencies, a copied one after it has
been completed. -/
def insertKeyed (create : ClassId → ChildTable ClassId → Option (ChildTable ClassId))
    (candidate : ClassId) (child : ChildTable ClassId) : Option (ChildTable ClassId) :=
  if (creator.entry candidate).origin = .user then creator.completeKeyed create candidate child
  else
    (creator.entry candidate).dependencies.foldlM (fun child other => create other child)
      (child.update (creator.lookup candidate) (.shared candidate))

/-- `pthreads_create_entry` on the class table. -/
def createKeyed : Nat → ClassId → ChildTable ClassId → Option (ChildTable ClassId)
  | 0, _, _ => none
  | fuel + 1, candidate, child =>
      match (creator.entry candidate).origin with
      | .internal => some child
      | .preloaded => some child
      | _ =>
          match child.find (creator.lookup candidate) with
          | none => creator.insertKeyed (createKeyed fuel) candidate child
          | some prepared =>
              if creator.nowBound prepared.original candidate then
                match prepared with
                | .shared _ => creator.insertKeyed (createKeyed fuel) candidate child
                | .copied _ => creator.completeKeyed (createKeyed fuel) candidate child
              else some child

/-- One key of the loop in `pthreads_prepare_classes`. -/
def prepareKey (fuel : Nat) (child : ChildTable ClassId) (bucket : ClassName × ClassId) :
    Option (ChildTable ClassId) :=
  if child.find bucket.1 = none ∧ startsWithNul bucket.1 = false then
    creator.createKeyed fuel bucket.2 child
  else some child

/-- `pthreads_prepare_classes` -/
def prepareClasses (fuel : Nat) (child : ChildTable ClassId) : Option (ChildTable ClassId) :=
  creator.keyed.entries.foldlM (creator.prepareKey fuel) child

/-- The classes in `pthreads_prepared_startup`. -/
def prepareTable (fuel threadOptions : Nat) (threadClass : ClassId) (child : ChildTable ClassId) :
    Option (ChildTable ClassId) :=
  if threadOptions &&& inheritClasses ≠ 0 then creator.prepareClasses fuel child
  else creator.createKeyed fuel threadClass child

/-- The classes that are in the table are versions of the creator's. -/
def Follows (child : ChildTable ClassId) : Prop :=
  ∀ key prepared, child.find key = some prepared →
    creator.keyed.find key = some prepared.original ∧
      prepared = creator.version prepared.original

/-- The class table before the classes are prepared: it has the preloaded classes. -/
structure Started (child : ChildTable ClassId) : Prop where
  follows : creator.Follows child
  preloaded : ∀ candidate, creator.Declared candidate →
    (creator.entry candidate).origin = .preloaded →
      (child.find (creator.lookup candidate)).isSome

/-- Every key of a user class maps to the prepared version of the same class. -/
def Inherited (child : ChildTable ClassId) : Prop :=
  ∀ key candidate, creator.keyed.find key = some candidate → startsWithNul key = false →
    (creator.entry candidate).origin ≠ .internal →
      child.find key = some (creator.version candidate)

section Growth

variable {creator : KeyedCreator ClassId Value}

theorem Declared.eq_of_lookup {candidate other : ClassId} (declared : creator.Declared candidate)
    (alsoDeclared : creator.Declared other)
    (same : creator.lookup candidate = creator.lookup other) : candidate = other := by
  unfold Declared at declared alsoDeclared
  rw [same, alsoDeclared] at declared
  exact (Option.some.inj declared).symm

/-- What is found under the name of a class is the version of the class. -/
theorem Follows.find_lookup {child : ChildTable ClassId} (follows : creator.Follows child)
    {candidate : ClassId} (declared : creator.Declared candidate) {prepared : Version ClassId}
    (found : child.find (creator.lookup candidate) = some prepared) :
    prepared.original = candidate := by
  obtain ⟨isKey, -⟩ := follows _ _ found
  unfold Declared at declared
  rw [declared] at isKey
  exact (Option.some.inj isKey).symm

theorem nowBound_self (candidate : ClassId) : creator.nowBound candidate candidate = false := by
  unfold nowBound
  cases (creator.entry candidate).linked <;> simp

/-- No class of the creator is bound later, so that each is inserted once. -/
theorem createKeyed_succ {child : ChildTable ClassId} (follows : creator.Follows child)
    {candidate : ClassId} (declared : creator.Declared candidate) (fuel : Nat) :
    creator.createKeyed (fuel + 1) candidate child =
      if (creator.entry candidate).origin = .internal ∨
          (creator.entry candidate).origin = .preloaded ∨
          (child.find (creator.lookup candidate)).isSome then some child
      else creator.insertKeyed (creator.createKeyed fuel) candidate child := by
  have again : ∀ prepared, child.find (creator.lookup candidate) = some prepared →
      creator.nowBound prepared.original candidate = false := by
    intro prepared found
    rw [follows.find_lookup declared found]
    exact nowBound_self candidate
  rw [createKeyed]
  cases origin : (creator.entry candidate).origin with
  | internal => simp
  | preloaded => simp
  | immutable =>
      cases found : child.find (creator.lookup candidate) with
      | none => simp
      | some prepared => simp [again prepared found]
  | user =>
      cases found : child.find (creator.lookup candidate) with
      | none => simp
      | some prepared => simp [again prepared found]

variable (creator) in
/-- What preparing classes does to the table: keys stay, and a class that comes in
has its own name as its key. -/
structure Grown (child after : ChildTable ClassId) : Prop where
  follows : creator.Follows after
  stays : ∀ key, (child.find key).isSome → (after.find key).isSome
  named : ∀ key prepared, after.find key = some prepared →
    (child.find key).isSome ∨ key = creator.lookup prepared.original

theorem Grown.refl {child : ChildTable ClassId} (follows : creator.Follows child) :
    creator.Grown child child where
  follows := follows
  stays := fun _ isThere => isThere
  named := fun _ _ found => Or.inl (Option.isSome_of_eq_some found)

theorem Grown.trans {child middle after : ChildTable ClassId} (first : creator.Grown child middle)
    (second : creator.Grown middle after) : creator.Grown child after where
  follows := second.follows
  stays := fun key isThere => second.stays key (first.stays key isThere)
  named := by
    intro key prepared found
    rcases second.named key prepared found with earlier | isName
    · obtain ⟨other, before⟩ := Option.isSome_iff_exists.mp earlier
      rcases first.named key other before with inChild | isName
      · exact Or.inl inChild
      · right
        have original := (second.follows key prepared found).1
        rw [(first.follows key other before).1] at original
        rw [isName, Option.some.inj original]
    · exact Or.inr isName

theorem Grown.update {child : ChildTable ClassId} (follows : creator.Follows child)
    {candidate : ClassId} (declared : creator.Declared candidate) {prepared : Version ClassId}
    (isVersion : prepared = creator.version candidate) (original : prepared.original = candidate) :
    creator.Grown child (child.update (creator.lookup candidate) prepared) where
  follows := by
    intro key other found
    rcases OrderedTable.find_update_cases found with ⟨rfl, rfl⟩ | ⟨-, before⟩
    · rw [original]
      exact ⟨declared, isVersion⟩
    · exact follows key other before
  stays := by
    intro key isThere
    by_cases same : key = creator.lookup candidate
    · rw [same, OrderedTable.find_update_same]
      rfl
    · rw [OrderedTable.find_update_other _ _ same]
      exact isThere
  named := by
    intro key other found
    rcases OrderedTable.find_update_cases found with ⟨rfl, rfl⟩ | ⟨-, before⟩
    · right
      rw [original]
    · exact Or.inl (Option.isSome_of_eq_some before)

theorem version_user {candidate : ClassId} (isUser : (creator.entry candidate).origin = .user) :
    creator.version candidate = .copied candidate :=
  if_pos isUser

theorem version_shared {candidate : ClassId} (notUser : (creator.entry candidate).origin ≠ .user) :
    creator.version candidate = .shared candidate :=
  if_neg notUser

/-- The loop over needed classes grows the table when preparing one does. -/
theorem grown_foldlM {create : ClassId → ChildTable ClassId → Option (ChildTable ClassId)}
    (grows : ∀ other child after, creator.Declared other → creator.Follows child →
      create other child = some after → creator.Grown child after)
    {others : List ClassId} (declared : ∀ other ∈ others, creator.Declared other)
    {child after : ChildTable ClassId} (follows : creator.Follows child)
    (done : others.foldlM (fun child other => create other child) child = some after) :
    creator.Grown child after := by
  refine foldlM_keeps ?_ done (Grown.refl follows)
  intro middle last grown other isIn moved
  exact grown.trans (grows other middle last (declared other isIn) grown.follows moved)

/-- Preparing a class grows the table, and a class that is not resident is in it. -/
theorem createKeyed_grown {fuel : Nat} {candidate : ClassId} {child after : ChildTable ClassId}
    (declared : creator.Declared candidate) (follows : creator.Follows child)
    (done : creator.createKeyed fuel candidate child = some after) :
    creator.Grown child after ∧
      ((creator.entry candidate).origin ≠ .internal →
        (creator.entry candidate).origin ≠ .preloaded →
          (after.find (creator.lookup candidate)).isSome) := by
  induction fuel generalizing candidate child after with
  | zero => exact absurd done nofun
  | succ fuel ih =>
      have needed : ∀ other ∈ (creator.entry candidate).dependencies, creator.Declared other :=
        creator.needed candidate
      have grows : ∀ other child after, creator.Declared other → creator.Follows child →
          creator.createKeyed fuel other child = some after → creator.Grown child after :=
        fun other child after declared follows moved => (ih declared follows moved).1
      rw [createKeyed_succ follows declared] at done
      split at done
      · next resident =>
        cases Option.some.inj done
        refine ⟨Grown.refl follows, ?_⟩
        intro notInternal notPreloaded
        exact (resident.resolve_left notInternal).resolve_left notPreloaded
      · rw [insertKeyed] at done
        split at done
        · next isUser =>
          obtain ⟨middle, prepared, rfl⟩ := Option.map_eq_some_iff.mp done
          have grown := grown_foldlM grows
            (fun other isIn => needed other (List.mem_append_left _ isIn)) follows prepared
          refine ⟨grown.trans (Grown.update grown.follows declared (version_user isUser).symm rfl),
            ?_⟩
          intro _ _
          rw [OrderedTable.find_update_same]
          rfl
        · next notUser =>
          have inserted : creator.Grown child
              (child.update (creator.lookup candidate) (.shared candidate)) :=
            Grown.update follows declared (version_shared notUser).symm rfl
          have grown := grown_foldlM grows needed inserted.follows done
          refine ⟨inserted.trans grown, ?_⟩
          intro _ _
          apply grown.stays _
          rw [OrderedTable.find_update_same]
          rfl

end Growth

section Totality

variable {creator : KeyedCreator ClassId Value}

variable (creator) in
/-- A class table without keys stands for one with keys when it has the classes that are there
by their names. -/
def StandsFor (table : List ClassId) (child : ChildTable ClassId) : Prop :=
  ∀ candidate, creator.Declared candidate →
    (candidate ∈ table ↔ (child.find (creator.lookup candidate)).isSome)

theorem exists_standsFor (creator : KeyedCreator ClassId Value) (child : ChildTable ClassId) :
    ∃ table, creator.StandsFor table child := by
  refine ⟨creator.classTable.filter fun candidate =>
    (child.find (creator.lookup candidate)).isSome, ?_⟩
  intro candidate declared
  have listed : candidate ∈ creator.classTable := by
    rw [creator.classTable_eq]
    exact List.mem_map.mpr ⟨_, OrderedTable.find_eq_some_iff.mp declared, rfl⟩
  simp [listed]

variable [DecidableEq ClassId]

theorem StandsFor.insert {table : List ClassId} {child : ChildTable ClassId}
    (stands : creator.StandsFor table child) {candidate : ClassId}
    (declared : creator.Declared candidate) (prepared : Version ClassId) :
    creator.StandsFor (insertKey table candidate)
      (child.update (creator.lookup candidate) prepared) := by
  intro other isDeclared
  by_cases same : other = candidate
  · subst same
    simp [mem_insertKey]
  · have different : creator.lookup other ≠ creator.lookup candidate :=
      fun equal => same (isDeclared.eq_of_lookup declared equal)
    rw [OrderedTable.find_update_other _ _ different, ← stands other isDeclared]
    unfold insertKey
    split
    · rfl
    · simp [same]

/-- The loops over needed classes run side by side when preparing one class does. -/
theorem foldlM_createKeyed_of_visit {fuel : Nat}
    (one : ∀ (candidate : ClassId) (first last : List ClassId) (child : ChildTable ClassId),
      creator.Declared candidate → creator.Follows child → creator.StandsFor first child →
        visit creator.toCreator fuel candidate first = some last →
          ∃ after, creator.createKeyed fuel candidate child = some after ∧
            creator.StandsFor last after)
    {others : List ClassId} (declared : ∀ other ∈ others, creator.Declared other)
    {first last : List ClassId} {child : ChildTable ClassId} (follows : creator.Follows child)
    (stands : creator.StandsFor first child)
    (visited : others.foldlM
      (fun table other => visit creator.toCreator fuel other table) first = some last) :
    ∃ after, others.foldlM (fun child other => creator.createKeyed fuel other child) child =
      some after ∧ creator.StandsFor last after := by
  induction others generalizing first child with
  | nil =>
      cases Option.some.inj visited
      exact ⟨child, rfl, stands⟩
  | cons other others ih =>
      rw [List.foldlM_cons] at visited
      obtain ⟨middle, moved, rest⟩ := Option.bind_eq_some_iff.mp visited
      have isDeclared := declared other List.mem_cons_self
      obtain ⟨between, created, standsBetween⟩ := one other first middle child isDeclared follows
        stands moved
      have grown := (createKeyed_grown isDeclared follows created).1
      obtain ⟨after, done, standsAfter⟩ := ih
        (fun later isIn => declared later (List.mem_cons_of_mem _ isIn)) grown.follows
        standsBetween rest
      exact ⟨after, by rw [List.foldlM_cons, created]; exact done, standsAfter⟩

/-- Where the walk through classes comes back, so does the preparation with keys. -/
theorem createKeyed_of_visit {fuel : Nat} {candidate : ClassId}
    {table last : List ClassId} {child : ChildTable ClassId}
    (declared : creator.Declared candidate) (follows : creator.Follows child)
    (stands : creator.StandsFor table child)
    (visited : visit creator.toCreator fuel candidate table = some last) :
    ∃ after, creator.createKeyed fuel candidate child = some after ∧
      creator.StandsFor last after := by
  induction fuel generalizing candidate table last child with
  | zero => exact absurd visited nofun
  | succ fuel ih =>
      have needed : ∀ other ∈ (creator.entry candidate).dependencies, creator.Declared other :=
        creator.needed candidate
      have absent (notIn : candidate ∉ table) : child.find (creator.lookup candidate) = none :=
        Option.not_isSome_iff_eq_none.mp (mt (stands candidate declared).mpr notIn)
      rw [createKeyed_succ follows declared]
      rw [visit] at visited
      cases origin : (creator.entry candidate).origin with
      | internal =>
          simp only [origin] at visited
          cases Option.some.inj visited
          exact ⟨child, by simp, stands⟩
      | preloaded =>
          simp only [origin] at visited
          cases Option.some.inj visited
          exact ⟨child, by simp, stands⟩
      | immutable =>
          simp only [origin] at visited
          by_cases isThere : candidate ∈ table
          · rw [if_pos isThere] at visited
            cases Option.some.inj visited
            exact ⟨child, by simp [(stands candidate declared).mp isThere], stands⟩
          · rw [if_neg isThere] at visited
            have notUser : (creator.entry candidate).origin ≠ .user := by simp [origin]
            have inserted : creator.Grown child
                (child.update (creator.lookup candidate) (.shared candidate)) :=
              Grown.update follows declared (version_shared notUser).symm rfl
            obtain ⟨after, done, standsAfter⟩ := foldlM_createKeyed_of_visit
              (fun _ _ _ _ => ih) needed inserted.follows (stands.insert declared _) visited
            refine ⟨after, ?_, standsAfter⟩
            simpa [absent isThere, insertKeyed, origin] using done
      | user =>
          simp only [origin] at visited
          by_cases isThere : candidate ∈ table
          · rw [if_pos isThere] at visited
            cases Option.some.inj visited
            exact ⟨child, by simp [(stands candidate declared).mp isThere], stands⟩
          · rw [if_neg isThere] at visited
            obtain ⟨middle, rest, rfl⟩ := Option.map_eq_some_iff.mp visited
            obtain ⟨after, done, standsAfter⟩ := foldlM_createKeyed_of_visit
              (fun _ _ _ _ => ih) (fun other isIn => needed other (List.mem_append_left _ isIn))
              follows stands rest
            refine ⟨after.update (creator.lookup candidate) (.copied candidate), ?_,
              standsAfter.insert declared _⟩
            simp [absent isThere, insertKeyed, completeKeyed, origin, done]

/-- With enough fuel every class of the creator can be prepared. -/
theorem createKeyed_enough {fuel : Nat} (enough : creator.enough ≤ fuel) {candidate : ClassId}
    {child : ChildTable ClassId} (declared : creator.Declared candidate)
    (follows : creator.Follows child) :
    ∃ after, creator.createKeyed fuel candidate child = some after := by
  obtain ⟨table, stands⟩ := exists_standsFor creator child
  obtain ⟨last, visited⟩ := visit_enough creator.toCreator candidate table
  have later : visit creator.toCreator fuel candidate table = some last := by
    induction enough with
    | refl => exact visited
    | step _ ih => exact visit_succ ih
  obtain ⟨after, done, -⟩ := createKeyed_of_visit declared follows stands later
  exact ⟨after, done⟩

/-- The loop over keys inserts the classes whose name is their key. -/
theorem foldlM_prepareKey {fuel : Nat} (enough : creator.enough ≤ fuel)
    {buckets : List (ClassName × ClassId)}
    (listed : ∀ bucket ∈ buckets, creator.keyed.find bucket.1 = some bucket.2)
    {child : ChildTable ClassId} (follows : creator.Follows child) :
    ∃ after, buckets.foldlM (creator.prepareKey fuel) child = some after ∧
      creator.Grown child after ∧
      ∀ bucket ∈ buckets, startsWithNul bucket.1 = false → bucket.1 = creator.lookup bucket.2 →
        (creator.entry bucket.2).origin ≠ .internal →
          (creator.entry bucket.2).origin ≠ .preloaded → (after.find bucket.1).isSome := by
  induction buckets generalizing child with
  | nil => exact ⟨child, rfl, Grown.refl follows, nofun⟩
  | cons bucket buckets ih =>
      have first : ∃ middle, creator.prepareKey fuel child bucket = some middle ∧
          creator.Grown child middle ∧
          (startsWithNul bucket.1 = false → bucket.1 = creator.lookup bucket.2 →
            (creator.entry bucket.2).origin ≠ .internal →
              (creator.entry bucket.2).origin ≠ .preloaded → (middle.find bucket.1).isSome) := by
        unfold prepareKey
        by_cases wanted : child.find bucket.1 = none ∧ startsWithNul bucket.1 = false
        · have declared : creator.Declared bucket.2 :=
            creator.declared _ _ (listed bucket List.mem_cons_self) wanted.2
          obtain ⟨middle, created⟩ := createKeyed_enough enough declared follows
          obtain ⟨grown, inserted⟩ := createKeyed_grown declared follows created
          refine ⟨middle, by rw [if_pos wanted, created], grown, ?_⟩
          intro _ isName notInternal notPreloaded
          rw [isName]
          exact inserted notInternal notPreloaded
        · refine ⟨child, if_neg wanted, Grown.refl follows, ?_⟩
          intro visible _ _ _
          exact Option.isSome_iff_ne_none.mpr fun absent => wanted ⟨absent, visible⟩
      obtain ⟨middle, moved, grown, inserted⟩ := first
      obtain ⟨after, rest, grownAfter, insertedAfter⟩ := ih
        (fun later isIn => listed later (List.mem_cons_of_mem _ isIn)) grown.follows
      refine ⟨after, by rw [List.foldlM_cons, moved]; exact rest, grown.trans grownAfter, ?_⟩
      intro later isIn visible isName notInternal notPreloaded
      rcases List.mem_cons.mp isIn with rfl | isLater
      · exact grownAfter.stays _ (inserted visible isName notInternal notPreloaded)
      · exact insertedAfter later isLater visible isName notInternal notPreloaded

end Totality

/-- A thread that inherits classes has every key of a user class exactly when no such
key is an alias, except for those that it had before. -/
theorem classes_inherited_iff [DecidableEq ClassId] (creator : KeyedCreator ClassId Value)
    {child : ChildTable ClassId} (started : creator.Started child) {threadOptions : Nat}
    (inherits : threadOptions &&& inheritClasses ≠ 0) (threadClass : ClassId) {fuel : Nat}
    (enough : creator.enough ≤ fuel) :
    ∃ after, creator.prepareTable fuel threadOptions threadClass child = some after ∧
      (creator.Inherited after ↔
        ∀ key candidate, creator.keyed.find key = some candidate → startsWithNul key = false →
          (creator.entry candidate).origin ≠ .internal →
            key = toLower (creator.name candidate) ∨ (child.find key).isSome) := by
  obtain ⟨after, done, grown, inserted⟩ := foldlM_prepareKey enough
    (fun _ isIn => OrderedTable.find_eq_some_iff.mpr isIn) started.follows
  refine ⟨after, ?_, ?_⟩
  · rw [prepareTable, if_pos inherits]
    exact done
  · constructor
    · intro inherited key candidate isKey visible notInternal
      have found := inherited key candidate isKey visible notInternal
      rcases grown.named key _ found with before | isName
      · exact Or.inr before
      · left
        have original := (grown.follows key _ found).1
        rw [isKey] at original
        rw [isName, ← Option.some.inj original]
        rfl
    · intro condition key candidate isKey visible notInternal
      have isThere : (after.find key).isSome := by
        rcases condition key candidate isKey visible notInternal with isName | before
        · by_cases isPreloaded : (creator.entry candidate).origin = .preloaded
          · have declared := creator.declared key candidate isKey visible
            have resident := started.preloaded candidate declared isPreloaded
            rw [isName]
            exact grown.stays _ resident
          · exact inserted (key, candidate) (OrderedTable.find_eq_some_iff.mp isKey) visible isName
              notInternal isPreloaded
        · exact grown.stays key before
      obtain ⟨prepared, found⟩ := Option.isSome_iff_exists.mp isThere
      obtain ⟨original, isVersion⟩ := grown.follows key prepared found
      rw [isKey] at original
      rw [found, isVersion, ← Option.some.inj original]

end KeyedCreator

/-- The names `A`, `B` and `C`. -/
def lineName (candidate : Fin 3) : ClassName :=
  [65 + UInt8.ofNat candidate.val]

/-- The line of three classes in a class table that has them by their names. -/
def keyedLine (keyed : OrderedTable ClassName (Fin 3))
    (declared : ∀ candidate, keyed.find (toLower (lineName candidate)) = some candidate)
    (long : 2 ≤ keyed.entries.length) : KeyedCreator (Fin 3) Nat where
  toCreator := lineCreator .user (keyed.entries.map Prod.snd)
    (fun candidate => List.mem_map.mpr
      ⟨_, OrderedTable.find_eq_some_iff.mp (declared candidate), rfl⟩)
    (by simpa using long)
  keyed := keyed
  name := lineName
  anonymous := fun _ => false
  classTable_eq := rfl
  declared := fun _ candidate _ _ => declared candidate
  needed := fun _ other _ => declared other

/-- The script declares `A`, `B` and `C`. -/
def lineKeys : List (ClassName × Fin 3) :=
  (List.finRange 3).map fun candidate => (toLower (lineName candidate), candidate)

def withoutAlias : KeyedCreator (Fin 3) Nat :=
  keyedLine ⟨lineKeys, by decide⟩ (by decide) (by decide)

/-- The script then calls `class_alias("C", "Z")`. -/
def withAlias : KeyedCreator (Fin 3) Nat :=
  keyedLine ⟨lineKeys ++ [([122], Fin.last 2)], by decide⟩ (by decide) (by decide)

theorem started_keyedLine (keyed : OrderedTable ClassName (Fin 3)) (declared long) :
    (keyedLine keyed declared long).Started OrderedTable.empty where
  follows := nofun
  preloaded := nofun

/-- Without an alias all classes are inherited. -/
theorem classes_inherited_withoutAlias :
    ∃ after, withoutAlias.prepareTable withoutAlias.enough inheritClasses 0 OrderedTable.empty =
      some after ∧ withoutAlias.Inherited after := by
  obtain ⟨after, done, exactly⟩ := withoutAlias.classes_inherited_iff
    (started_keyedLine _ _ _) (show inheritClasses &&& inheritClasses ≠ 0 by decide) 0
    (Nat.le_refl _)
  refine ⟨after, done, exactly.mpr ?_⟩
  intro key candidate isKey _ _
  left
  have named : ∀ bucket ∈ withoutAlias.keyed.entries,
      bucket.1 = toLower (withoutAlias.name bucket.2) := by decide
  exact named _ (OrderedTable.find_eq_some_iff.mp isKey)

/-- The new thread has no class `Z`. -/
theorem alias_not_inherited :
    withAlias.Started OrderedTable.empty ∧
    ∃ after, withAlias.prepareTable withAlias.enough inheritClasses 0 OrderedTable.empty =
      some after ∧
      withAlias.keyed.find [122] = some 2 ∧ startsWithNul [122] = false ∧
      (withAlias.entry 2).origin = .user ∧ after.find [99] = some (.copied 2) ∧
      after.find [122] = none ∧ ¬ withAlias.Inherited after := by
  refine ⟨started_keyedLine _ _ _,
    ⟨[([97], .copied 0), ([98], .copied 1), ([99], .copied 2)], by decide⟩, rfl, by decide,
    by decide, by decide, by decide, by decide, ?_⟩
  intro inherited
  exact absurd (inherited [122] 2 (by decide) (by decide) (by decide)) (by decide)

end Pthreads.ClassPreparation
