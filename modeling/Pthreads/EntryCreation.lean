import Mathlib.Algebra.BigOperators.Group.Finset.Basic
import Mathlib.Algebra.Order.BigOperators.Group.Finset
import Mathlib.Data.Fintype.Basic
import Mathlib.Data.Finset.Lattice.Fold
import Mathlib.Logic.Relation
import Mathlib.Order.Lattice.Nat
import Pthreads.ClassPreparation
import Pthreads.OrderedTable
import Pthreads.PartialFolds
import Pthreads.RecursiveCalls

/-!
# Creating class entries in a thread

`pthreads_create_entry` brings a class of the creator into the class table of the
thread, with the classes that it refers to.  An immutable class is put into the table
before its dependencies are followed, a class that is copied only after its parent and
its interfaces, and an anonymous class that the thread has without its parent is
completed or replaced.  This file models the table with what the recursion depends on, as
in PHP 8.1 and later, and shows that the recursion through the classes ends.  The values
and functions that are copied on the way come in `EntryCopying`.
-/

namespace Pthreads.EntryCreation

open ClassPreparation (Origin)
open PartialFolds RecursiveCalls

/-- What the recursion reads of a `zend_class_entry` of the creator. -/
structure ClassEntry (ClassId Key Name : Type) where
  /-- The name in lower case. -/
  name : Key
  origin : Origin
  /-- `ZEND_ACC_ANON_CLASS` -/
  anonymous : Bool
  /-- `ZEND_ACC_LINKED` -/
  linked : Bool
  parent : Option ClassId
  interfaces : List ClassId
  /-- The names in the types of `properties_info`, in lower case. -/
  propertyTypes : List Key
  /-- The class that declares each property. -/
  propertiesInfo : List ClassId
  /-- The constants, with the class that declares each. -/
  constantsTable : List (Name × ClassId)
  /-- The scope of each method. -/
  functionTable : List ClassId

namespace ClassEntry

variable {ClassId Key Name : Type}

/-- `(ce_flags & (ZEND_ACC_ANON_CLASS|ZEND_ACC_LINKED)) ==
(ZEND_ACC_ANON_CLASS|ZEND_ACC_LINKED)` -/
def bound (entry : ClassEntry ClassId Key Name) : Bool :=
  entry.anonymous && entry.linked

/-- The classes above a linked class. -/
def required (entry : ClassEntry ClassId Key Name) : List ClassId :=
  if entry.linked then entry.parent.toList ++ entry.interfaces else []

/-- An anonymous class that has been linked, where the immutable class without its parents
is still there. -/
def Replaces (entry earlier : ClassEntry ClassId Key Name) : Prop :=
  entry.bound = true ∧ earlier.anonymous = true ∧ earlier.linked = false ∧
    earlier.origin = .immutable

end ClassEntry

/-- The class entries of the creator.  Parents and interfaces have been linked before. -/
structure Creator (ClassId Key Name : Type) where
  entry : ClassId → ClassEntry ClassId Key Name
  classTable : Key → Option ClassId
  rank : ClassId → Nat
  rank_above : ∀ candidate, ∀ other ∈ (entry candidate).required, rank other < rank candidate
  linked_above : ∀ candidate, ∀ other ∈ (entry candidate).required, (entry other).linked = true
  same_name : ∀ candidate other, (entry candidate).name = (entry other).name →
    candidate = other ∨ (entry candidate).Replaces (entry other) ∨
      (entry other).Replaces (entry candidate)

/-- A class entry of the thread, with its parent and its interfaces by their keys. -/
structure Prepared (Key Name : Type) where
  anonymous : Bool
  linked : Bool
  immutable : Bool
  parent : Option Key
  interfaces : List Key
  constantsTable : List Name

/-- The class table of the thread. -/
abbrev Table (Key Name : Type) := OrderedTable Key (Prepared Key Name)

section Operations

variable {ClassId Key Name : Type}

/-- `(ce_flags & (ZEND_ACC_ANON_CLASS|ZEND_ACC_LINKED)) == ZEND_ACC_ANON_CLASS` -/
def Prepared.unbound (prepared : Prepared Key Name) : Bool :=
  prepared.anonymous && !prepared.linked

/-- The classes above a linked class. -/
def Prepared.links (prepared : Prepared Key Name) : List Key :=
  if prepared.linked then prepared.parent.toList ++ prepared.interfaces else []

variable [DecidableEq ClassId] [DecidableEq Key] [DecidableEq Name]
variable (creator : Creator ClassId Key Name)

def Creator.name (candidate : ClassId) : Key := (creator.entry candidate).name

/-- An immutable class as an entry of the table. -/
def Creator.inPlace (candidate : ClassId) : Prepared Key Name :=
  let entry := creator.entry candidate
  ⟨entry.anonymous, entry.linked, true,
    if entry.linked then entry.parent.map creator.name else none,
    if entry.linked then entry.interfaces.map creator.name else [],
    entry.constantsTable.map Prod.fst⟩

variable (call : ClassId × Bool → Table Key Name → Option (Table Key Name))

/-- A loop of calls. -/
def callEach (late : Bool) (candidates : List ClassId) (table : Table Key Name) :
    Option (Table Key Name) :=
  candidates.foldlM (fun table candidate => call (candidate, late) table) table

/-- The flags of the class, without the names of parents that an unlinked entry has. -/
def Creator.flag (candidate : ClassId) (prepared : Prepared Key Name) : Prepared Key Name :=
  let entry := creator.entry candidate
  { prepared with
    anonymous := entry.anonymous, linked := entry.linked
    immutable := entry.origin = .immutable, parent := none, interfaces := [] }

def Creator.enterParent (candidate : ClassId) (prepared : Prepared Key Name) :
    Prepared Key Name :=
  { prepared with parent := (creator.entry candidate).parent.map creator.name }

def Creator.enterInterfaces (candidate : ClassId) (prepared : Prepared Key Name) :
    Prepared Key Name :=
  { prepared with interfaces := (creator.entry candidate).interfaces.map creator.name }

/-- `pthreads_complete_entry`.  The entry may be in the table already, where each change
of it is seen. -/
def completeEntry (candidate : ClassId)
    (store : Prepared Key Name → Table Key Name → Table Key Name) (prepared : Prepared Key Name)
    (table : Table Key Name) : Option (Table Key Name × Prepared Key Name) :=
  let entry := creator.entry candidate
  let flagged := creator.flag candidate prepared
  if entry.linked then do
    let table ← callEach call true entry.parent.toList (store flagged table)
    let withParent := creator.enterParent candidate flagged
    let table ← callEach call true entry.interfaces (store withParent table)
    let linked := creator.enterInterfaces candidate withParent
    some (store linked table, linked)
  else some (store flagged table, flagged)

/-- `prepare_class_constants`.  What the entry has already is left as it is. -/
def prepareClassConstants (key : Key) :
    List (Name × ClassId) → Prepared Key Name → Table Key Name → Option (Table Key Name)
  | [], _, table => some table
  | (name, declarer) :: others, prepared, table =>
    if name ∈ prepared.constantsTable then prepareClassConstants key others prepared table
    else do
      let table ← call (declarer, true) table
      let added := { prepared with constantsTable := prepared.constantsTable ++ [name] }
      prepareClassConstants key others added (table.update key added)

/-- `pthreads_prepared_entry_late_bindings`, with the declaring classes of properties and
of constants. -/
def lateBindings (candidate : ClassId) (prepared : Prepared Key Name) (table : Table Key Name) :
    Option (Table Key Name) := do
  let entry := creator.entry candidate
  if entry.origin = .immutable then some table
  else
    let table ← callEach call true (entry.propertiesInfo.filter (· ≠ candidate)) table
    prepareClassConstants call entry.name entry.constantsTable prepared table

/-- `pthreads_prepare_immutable_class_dependencies` -/
def prepareImmutableClassDependencies (candidate : ClassId) (late : Bool)
    (table : Table Key Name) : Option (Table Key Name) := do
  let entry := creator.entry candidate
  let table ← callEach call late entry.required table
  callEach call late (entry.propertyTypes.filterMap creator.classTable) table

/-- An immutable class is used in place. -/
def insertImmutable (candidate : ClassId) (late : Bool) (table : Table Key Name) :
    Option (Table Key Name) := do
  let inserted := table.update (creator.name candidate) (creator.inPlace candidate)
  let table ← prepareImmutableClassDependencies creator call candidate late inserted
  if late then lateBindings creator call candidate (creator.inPlace candidate) table
  else some table

/-- `pthreads_copy_entry` and what follows it.  At last come the scopes of the methods. -/
def insertCopy (candidate : ClassId) (late : Bool) (table : Table Key Name) :
    Option (Table Key Name) := do
  let entry := creator.entry candidate
  let (table, prepared) ← completeEntry creator call candidate (fun _ table => table)
    ⟨entry.anonymous, entry.linked, false, none, [], []⟩ table
  let inserted := table.update entry.name prepared
  let table ← if late then lateBindings creator call candidate prepared inserted
    else some inserted
  callEach call true (entry.functionTable.filter (· ≠ candidate)) table

/-- What `pthreads_create_entry` does for a class that the thread does not have. -/
def insertEntry (candidate : ClassId) (late : Bool) (table : Table Key Name) :
    Option (Table Key Name) :=
  if (creator.entry candidate).origin = .immutable then
    insertImmutable creator call candidate late table
  else insertCopy creator call candidate late table

/-- The body of `pthreads_create_entry`.  Internal and preloaded classes are looked up
only. -/
def createEntryBody (task : ClassId × Bool) (table : Table Key Name) :
    Option (Table Key Name) :=
  let candidate := task.1
  let entry := creator.entry candidate
  if entry.origin = .internal ∨ entry.origin = .preloaded then some table
  else
    match table.find entry.name with
    | none => insertEntry creator call candidate task.2 table
    | some prepared =>
      if prepared.unbound && entry.bound then
        if prepared.immutable then insertEntry creator call candidate task.2 table
        else do
          let (table, completed) ← completeEntry creator call candidate
            (fun prepared table => table.update entry.name prepared) prepared table
          if task.2 then lateBindings creator call candidate completed table else some table
      else some table

/-- `pthreads_create_entry` with a bound for the depth of the recursion. -/
def createEntry : Nat → ClassId × Bool → Table Key Name → Option (Table Key Name)
  | 0 => fun _ _ => none
  | fuel + 1 => createEntryBody creator (createEntry fuel)

end Operations

section Copies

variable {ClassId Key Name : Type}

/-- The keys of the classes above a class. -/
def Creator.links (creator : Creator ClassId Key Name) (candidate : ClassId) : List Key :=
  (creator.entry candidate).required.map creator.name

/-- An entry with the flags of a class, and with its parents or with none yet. -/
structure Describes (creator : Creator ClassId Key Name) (candidate : ClassId)
    (prepared : Prepared Key Name) : Prop where
  anonymous : prepared.anonymous = (creator.entry candidate).anonymous
  linked : prepared.linked = (creator.entry candidate).linked

/-- An entry that is linked as the class is. -/
structure Copies (creator : Creator ClassId Key Name) (candidate : ClassId)
    (prepared : Prepared Key Name) : Prop extends Describes creator candidate prepared where
  links : prepared.links = creator.links candidate

section Links

variable {creator : Creator ClassId Key Name} {candidate : ClassId} {prepared : Prepared Key Name}

theorem required_of_linked (linked : (creator.entry candidate).linked = true) :
    (creator.entry candidate).required =
      (creator.entry candidate).parent.toList ++ (creator.entry candidate).interfaces :=
  if_pos linked

theorem links_of_unlinked (unlinked : (creator.entry candidate).linked ≠ true) :
    creator.links candidate = [] := by
  unfold Creator.links ClassEntry.required
  rw [if_neg unlinked, List.map_nil]

theorem Describes.links_of_linked (describes : Describes creator candidate prepared)
    (linked : (creator.entry candidate).linked = true) :
    prepared.links = prepared.parent.toList ++ prepared.interfaces :=
  if_pos (describes.linked.trans linked)

theorem Describes.links_of_unlinked (describes : Describes creator candidate prepared)
    (unlinked : (creator.entry candidate).linked ≠ true) : prepared.links = [] :=
  if_neg (describes.linked ▸ unlinked)

end Links

/-- An entry made for a class of the creator. -/
def Made (creator : Creator ClassId Key Name) (key : Key) (prepared : Prepared Key Name) : Prop :=
  ∃ candidate, creator.name candidate = key ∧ Copies creator candidate prepared

end Copies

section Growth

variable {Key Name : Type} {prepared : Prepared Key Name}

/-- How far a class is from being in the table for good. -/
def weight : Option (Prepared Key Name) → Nat
  | none => 2
  | some prepared => if prepared.unbound then 1 else 0

theorem isSome_iff_weight (found : Option (Prepared Key Name)) :
    found.isSome ↔ weight found < 2 := by
  unfold weight
  cases found with
  | none => exact ⟨nofun, fun less => absurd less (Nat.lt_irrefl _)⟩
  | some prepared =>
    refine ⟨fun _ => ?_, fun _ => rfl⟩
    dsimp only
    split <;> decide

theorem weight_eq_zero_of_linked (linked : prepared.linked = true) :
    weight (some prepared) = 0 := by
  unfold weight Prepared.unbound
  dsimp only
  rw [linked, Bool.not_true, Bool.and_false]
  rfl

theorem unsettled_iff : 0 < weight (some prepared) ↔ prepared.unbound = true := by
  unfold weight
  dsimp only
  split
  · next unbound => exact ⟨fun _ => unbound, fun _ => Nat.one_pos⟩
  · next settled => exact ⟨fun less => absurd less (Nat.lt_irrefl 0), fun unbound =>
      absurd unbound settled⟩

variable {ClassId : Type} [DecidableEq Key] {creator : Creator ClassId Key Name}
  {start table middle after : Table Key Name} {name : Key}

/-- Except for some keys, the classes above a class in the table are there for good. -/
def Closed (except : Set Key) (table : Table Key Name) : Prop :=
  ∀ key prepared, table.find key = some prepared → key ∉ except →
    ∀ link ∈ prepared.links, weight (table.find link) = 0

theorem Closed.mono {fewer more : Set Key} (closed : Closed fewer table) (subset : fewer ⊆ more) :
    Closed more table :=
  fun key prepared found outside => closed key prepared found fun isIn => outside (subset isIn)

/-- What a call does to the table. -/
structure Evolves (creator : Creator ClassId Key Name) (table after : Table Key Name) : Prop where
  weight : ∀ key, weight (after.find key) ≤ weight (table.find key)
  frame : ∀ key prepared, table.find key = some prepared →
    EntryCreation.weight (some prepared) = 0 → after.find key = some prepared
  closed : ∀ except, Closed except table → Closed except after
  origin : ∀ key prepared, after.find key = some prepared →
    table.find key = some prepared ∨ Made creator key prepared

theorem Evolves.refl (table : Table Key Name) : Evolves creator table table :=
  ⟨fun _ => Nat.le_refl _, fun _ _ found _ => found, fun _ closed => closed,
    fun _ _ found => Or.inl found⟩

theorem Evolves.trans (first : Evolves creator table middle)
    (second : Evolves creator middle after) : Evolves creator table after where
  weight key := (second.weight key).trans (first.weight key)
  frame key prepared found settled :=
    second.frame key prepared (first.frame key prepared found settled) settled
  closed except closed := second.closed except (first.closed except closed)
  origin key prepared found :=
    (second.origin key prepared found).elim (first.origin key prepared) Or.inr

theorem Evolves.isSome (evolves : Evolves creator table after) {key : Key}
    (present : (table.find key).isSome) : (after.find key).isSome :=
  (isSome_iff_weight _).mpr
    (Nat.lt_of_le_of_lt (evolves.weight key) ((isSome_iff_weight _).mp present))

theorem Evolves.settled (evolves : Evolves creator table after) {key : Key}
    (settled : EntryCreation.weight (table.find key) = 0) :
    EntryCreation.weight (after.find key) = 0 :=
  Nat.eq_zero_of_le_zero (settled ▸ evolves.weight key)

theorem settled_update {key : Key} (lowers : weight (some prepared) ≤ weight (table.find name))
    (settled : weight (table.find key) = 0) :
    weight ((table.update name prepared).find key) = 0 := by
  by_cases same : key = name
  · subst same
    rw [OrderedTable.find_update_same]
    exact Nat.eq_zero_of_le_zero (settled ▸ lowers)
  · rwa [OrderedTable.find_update_other _ _ same]

/-- The table while a call works on a class, apart from that class. -/
structure Around (creator : Creator ClassId Key Name) (start : Table Key Name) (name : Key)
    (progress : Set Key) (now : Table Key Name) : Prop where
  weight : ∀ key ≠ name, weight (now.find key) ≤ weight (start.find key)
  frame : ∀ key ≠ name, ∀ prepared, start.find key = some prepared →
    EntryCreation.weight (some prepared) = 0 → now.find key = some prepared
  closed : ∀ except, Closed except start → Closed (except ∪ progress) now
  origin : ∀ key ∉ progress, ∀ prepared, now.find key = some prepared →
    start.find key = some prepared ∨ Made creator key prepared

variable {progress : Set Key}

theorem Evolves.around (evolves : Evolves creator start table) :
    Around creator start name progress table where
  weight key _ := evolves.weight key
  frame key _ := evolves.frame key
  closed except closed := (evolves.closed except closed).mono Set.subset_union_left
  origin key _ := evolves.origin key

theorem Around.evolve (around : Around creator start name progress table)
    (evolves : Evolves creator table after) : Around creator start name progress after where
  weight key different := (evolves.weight key).trans (around.weight key different)
  frame key different prepared found settled :=
    evolves.frame key prepared (around.frame key different prepared found settled) settled
  closed except closed := evolves.closed _ (around.closed except closed)
  origin key outside prepared found :=
    (evolves.origin key prepared found).elim (around.origin key outside prepared) Or.inr

theorem Around.update (around : Around creator start name progress table)
    (lowers : EntryCreation.weight (some prepared) ≤ EntryCreation.weight (table.find name))
    (links : name ∉ progress → ∀ link ∈ prepared.links,
      EntryCreation.weight (table.find link) = 0)
    (made : name ∉ progress → Made creator name prepared) :
    Around creator start name progress (table.update name prepared) := by
  refine ⟨?_, ?_, ?_, ?_⟩
  · intro key different
    rw [OrderedTable.find_update_other _ _ different]
    exact around.weight key different
  · intro key different other found settled
    rw [OrderedTable.find_update_other _ _ different]
    exact around.frame key different other found settled
  · intro except closed key other found outside link isLink
    apply settled_update lowers
    rcases OrderedTable.find_update_cases found with ⟨rfl, rfl⟩ | ⟨different, before⟩
    · exact links (fun isIn => outside (Or.inr isIn)) link isLink
    · exact around.closed except closed key other before outside link isLink
  · intro key outside other found
    rcases OrderedTable.find_update_cases found with ⟨rfl, rfl⟩ | ⟨different, before⟩
    · exact Or.inr (made outside)
    · exact around.origin key outside other before

end Growth

section Placing

variable {ClassId Key Name : Type} [DecidableEq Key] {creator : Creator ClassId Key Name}
  {candidate : ClassId} {start now after : Table Key Name} {progress : Set Key}

/-- The table has the classes that are not prepared, and has no anonymous class under the
name of another one. -/
structure Ready (creator : Creator ClassId Key Name) (table : Table Key Name) : Prop where
  engine : ∀ candidate, (creator.entry candidate).origin = .internal ∨
    (creator.entry candidate).origin = .preloaded →
      weight (table.find (creator.name candidate)) = 0
  anonymous : ∀ candidate prepared, table.find (creator.name candidate) = some prepared →
    prepared.unbound = true → (creator.entry candidate).anonymous = true

omit [DecidableEq Key] in
theorem Describes.anonymous_of_unbound {prepared : Prepared Key Name} {other : ClassId}
    (describes : Describes creator candidate prepared) (unbound : prepared.unbound = true)
    (same : creator.name other = creator.name candidate) :
    (creator.entry other).anonymous = true := by
  rcases creator.same_name other candidate same with rfl | replaces | replaces
  · rw [← describes.anonymous]
    exact (Bool.and_eq_true_iff.mp unbound).1
  · exact (Bool.and_eq_true_iff.mp replaces.1).1
  · exact replaces.2.1

theorem Ready.evolve (ready : Ready creator now) (evolves : Evolves creator now after) :
    Ready creator after where
  engine candidate isEngine := evolves.settled (ready.engine candidate isEngine)
  anonymous candidate prepared found unbound := by
    rcases evolves.origin _ prepared found with before | ⟨other, same, copies⟩
    · exact ready.anonymous candidate prepared before unbound
    · exact copies.anonymous_of_unbound unbound same.symm

/-- Only an immutable class without its parents is replaced later. -/
def ClassEntry.lasting (entry : ClassEntry ClassId Key Name) : Bool :=
  entry.linked || entry.origin != .immutable

omit [DecidableEq Key] in
theorem lasting_of_linked {entry : ClassEntry ClassId Key Name} (linked : entry.linked = true) :
    entry.lasting = true := by
  unfold ClassEntry.lasting
  rw [linked, Bool.true_or]

/-- The class is in the table, as the creator has it. -/
def Version (creator : Creator ClassId Key Name) (candidate : ClassId)
    (table : Table Key Name) : Prop :=
  (creator.entry candidate).lasting = true → ∃ prepared,
    table.find (creator.name candidate) = some prepared ∧ Copies creator candidate prepared

theorem Version.evolve (version : Version creator candidate now)
    (evolves : Evolves creator now after) : Version creator candidate after := by
  intro lasting
  obtain ⟨prepared, found, copies⟩ := version lasting
  cases linked : (creator.entry candidate).linked with
  | true =>
    have settled := weight_eq_zero_of_linked (copies.linked.trans linked)
    exact ⟨prepared, evolves.frame _ _ found settled, copies⟩
  | false =>
    have present : (now.find (creator.name candidate)).isSome := by rw [found]; rfl
    obtain ⟨entry, there⟩ := Option.isSome_iff_exists.mp (evolves.isSome present)
    refine ⟨entry, there, ?_⟩
    rcases evolves.origin _ entry there with before | ⟨other, same, copiesOther⟩
    · cases Option.some.inj (found.symm.trans before)
      exact copies
    · unfold ClassEntry.lasting at lasting
      rcases creator.same_name other candidate same with rfl | replaces | replaces
      · exact copiesOther
      · rw [linked, replaces.2.2.2] at lasting
        cases lasting
      · rw [(Bool.and_eq_true_iff.mp replaces.1).2] at linked
        cases linked

/-- The table once the class that a call works on is in it. -/
structure Placed (creator : Creator ClassId Key Name) (candidate : ClassId)
    (start : Table Key Name) (progress : Set Key) (now : Table Key Name) : Prop where
  around : Around creator start (creator.name candidate) progress now
  own : weight (now.find (creator.name candidate)) < weight (start.find (creator.name candidate))
  ready : Ready creator now

theorem Placed.evolve (placed : Placed creator candidate start progress now)
    (evolves : Evolves creator now after) : Placed creator candidate start progress after where
  around := placed.around.evolve evolves
  own := Nat.lt_of_le_of_lt (evolves.weight _) placed.own
  ready := placed.ready.evolve evolves

/-- Nothing is in progress any more. -/
theorem Placed.evolves (placed : Placed creator candidate start ∅ now) :
    Evolves creator start now := by
  refine ⟨?_, ?_, ?_, fun key => placed.around.origin key (Set.notMem_empty key)⟩
  · intro key
    by_cases same : key = creator.name candidate
    · rw [same]
      exact Nat.le_of_lt placed.own
    · exact placed.around.weight key same
  · intro key prepared found settled
    by_cases same : key = creator.name candidate
    · have own := placed.own
      rw [← same, found, settled] at own
      exact absurd own (Nat.not_lt_zero _)
    · exact placed.around.frame key same prepared found settled
  · intro except closed
    have afterwards := placed.around.closed except closed
    rwa [Set.union_empty] at afterwards

theorem Placed.isSome (placed : Placed creator candidate start progress now) :
    (now.find (creator.name candidate)).isSome := by
  apply (isSome_iff_weight _).mpr
  refine Nat.lt_of_lt_of_le placed.own ?_
  unfold weight
  split
  · exact Nat.le_refl _
  · split <;> decide

theorem Describes.weight_lt {prepared : Prepared Key Name}
    (describes : Describes creator candidate prepared)
    (absent : start.find (creator.name candidate) = none ∨
      (creator.entry candidate).bound = true ∧
        0 < weight (start.find (creator.name candidate))) :
    weight (some prepared) < weight (start.find (creator.name candidate)) := by
  rcases absent with missing | ⟨bound, unsettled⟩
  · rw [missing]
    exact (isSome_iff_weight (some prepared)).mp rfl
  · unfold ClassEntry.bound at bound
    rw [Bool.and_eq_true] at bound
    rw [weight_eq_zero_of_linked (describes.linked.trans bound.2)]
    exact unsettled

/-- The entry of a class is put into the table. -/
theorem placed_update {prepared : Prepared Key Name}
    (around : Around creator start (creator.name candidate) progress now)
    (ready : Ready creator now) (describes : Describes creator candidate prepared)
    (less : weight (some prepared) < weight (start.find (creator.name candidate)))
    (lowers : weight (some prepared) ≤ weight (now.find (creator.name candidate)))
    (links : creator.name candidate ∉ progress →
      ∀ link ∈ prepared.links, weight (now.find link) = 0)
    (copies : creator.name candidate ∉ progress → Copies creator candidate prepared) :
    Placed creator candidate start progress (now.update (creator.name candidate) prepared) where
  around := around.update lowers links fun outside => ⟨candidate, rfl, copies outside⟩
  own := by rwa [OrderedTable.find_update_same]
  ready := by
    refine ⟨fun other isEngine => settled_update lowers (ready.engine other isEngine), ?_⟩
    intro other entry found unbound
    rcases OrderedTable.find_update_cases found with ⟨same, rfl⟩ | ⟨-, before⟩
    · exact describes.anonymous_of_unbound unbound same
    · exact ready.anonymous other entry before unbound

theorem version_update {prepared : Prepared Key Name}
    (copies : Copies creator candidate prepared) :
    Version creator candidate (now.update (creator.name candidate) prepared) :=
  fun _ => ⟨prepared, OrderedTable.find_update_same .., copies⟩

theorem Version.lowers {prepared : Prepared Key Name} (version : Version creator candidate now)
    (lasting : (creator.entry candidate).lasting = true)
    (describes : Describes creator candidate prepared) :
    weight (some prepared) ≤ weight (now.find (creator.name candidate)) := by
  obtain ⟨entry, found, copies⟩ := version lasting
  apply Nat.le_of_eq
  rw [found]
  unfold weight Prepared.unbound
  dsimp only
  rw [describes.anonymous, describes.linked, copies.anonymous, copies.linked]

/-- The entry that a class has got in the table. -/
structure Entered (creator : Creator ClassId Key Name) (candidate : ClassId)
    (start table : Table Key Name) (prepared : Prepared Key Name) : Prop where
  placed : Placed creator candidate start ∅ table
  version : Version creator candidate table
  copies : Copies creator candidate prepared
  present : ∀ link ∈ prepared.links, weight (table.find link) = 0

theorem Entered.evolve {prepared : Prepared Key Name}
    (entered : Entered creator candidate start now prepared) (evolves : Evolves creator now after) :
    Entered creator candidate start after prepared where
  placed := entered.placed.evolve evolves
  version := entered.version.evolve evolves
  copies := entered.copies
  present link isLink := evolves.settled (entered.present link isLink)

/-- A class whose parents are there is not in progress any more. -/
theorem Placed.finish (placed : Placed creator candidate start {creator.name candidate} now)
    (version : Version creator candidate now)
    (linked : (creator.entry candidate).linked = true)
    (present : ∀ link ∈ creator.links candidate, weight (now.find link) = 0) :
    Placed creator candidate start ∅ now := by
  obtain ⟨entry, there, copies⟩ := version (lasting_of_linked linked)
  refine ⟨⟨placed.around.weight, placed.around.frame, ?_, ?_⟩, placed.own, placed.ready⟩
  · intro except closed key prepared found outside link isLink
    by_cases same : key = creator.name candidate
    · subst same
      cases Option.some.inj (found.symm.trans there)
      rw [copies.links] at isLink
      exact present link isLink
    · refine placed.around.closed except closed key prepared found ?_ link isLink
      rintro (isIn | isName)
      · exact outside (Or.inl isIn)
      · exact same isName
  · intro key _ prepared found
    by_cases same : key = creator.name candidate
    · subst same
      cases Option.some.inj (found.symm.trans there)
      exact Or.inr ⟨candidate, rfl, copies⟩
    · exact placed.around.origin key same prepared found

/-- The class is new to the table, or comes with its parents now. -/
def Renews (creator : Creator ClassId Key Name) (candidate : ClassId)
    (table : Table Key Name) : Prop :=
  table.find (creator.name candidate) = none ∨
    (creator.entry candidate).bound = true ∧ 0 < weight (table.find (creator.name candidate))

end Placing

section Calls

variable {ClassId Key Name : Type} [DecidableEq Key] {creator : Creator ClassId Key Name}
  {call : ClassId × Bool → Table Key Name → Option (Table Key Name)}

/-- What a call promises. -/
structure Created (creator : Creator ClassId Key Name) (candidate : ClassId)
    (table after : Table Key Name) : Prop where
  evolves : Evolves creator table after
  present : (after.find (creator.name candidate)).isSome
  settled : (creator.entry candidate).linked = true →
    weight (after.find (creator.name candidate)) = 0

theorem Placed.created {candidate : ClassId} {start now : Table Key Name}
    (placed : Placed creator candidate start ∅ now) (version : Version creator candidate now) :
    Created creator candidate start now where
  evolves := placed.evolves
  present := placed.isSome
  settled linked := by
    obtain ⟨prepared, found, copies⟩ := version (lasting_of_linked linked)
    rw [found]
    exact weight_eq_zero_of_linked (copies.linked.trans linked)

/-- The calls in a loop end, and so does the loop. -/
theorem callEach_ends {late : Bool} (candidates : List ClassId) {table : Table Key Name}
    (Invariant : Table Key Name → Prop)
    (calls : ∀ candidate ∈ candidates, ∀ now, Invariant now →
      ∃ after, call (candidate, late) now = some after ∧ Created creator candidate now after ∧
        Invariant after) (initially : Invariant table) :
    ∃ after, callEach call late candidates table = some after ∧ Invariant after ∧
      Evolves creator table after ∧ ∀ candidate ∈ candidates,
        (creator.entry candidate).linked = true →
          weight (after.find (creator.name candidate)) = 0 := by
  induction candidates generalizing table with
  | nil => exact ⟨table, rfl, initially, Evolves.refl table, nofun⟩
  | cons candidate candidates ih =>
    obtain ⟨middle, first, created, holds⟩ := calls candidate List.mem_cons_self table initially
    obtain ⟨after, others, last, evolves, present⟩ :=
      ih (fun other isIn => calls other (List.mem_cons_of_mem _ isIn)) holds
    refine ⟨after, ?_, last, created.evolves.trans evolves, ?_⟩
    · unfold callEach
      rw [List.foldlM_cons, first]
      exact others
    · exact List.forall_mem_cons.mpr
        ⟨fun linked => evolves.settled (created.settled linked), present⟩

/-- The parents of the class are in the table when they are entered. -/
theorem completeEntry_ends {candidate : ClassId}
    {store : Prepared Key Name → Table Key Name → Table Key Name} (prepared : Prepared Key Name)
    {table : Table Key Name} (Invariant : Table Key Name → Prop)
    (calls : ∀ other ∈ (creator.entry candidate).required, ∀ now, Invariant now →
      ∃ after, call (other, true) now = some after ∧ Created creator other now after ∧
        Invariant after)
    (kept : ∀ entry now key, Describes creator candidate entry →
      (creator.entry candidate).linked = true → weight (now.find key) = 0 →
        weight ((store entry now).find key) = 0)
    (stores : ∀ entry now, Invariant now → Describes creator candidate entry →
      (creator.entry candidate).linked = true →
        (∀ link ∈ entry.links, weight (now.find link) = 0) → Invariant (store entry now))
    (first : ∀ entry, Describes creator candidate entry → entry.links = [] →
      Invariant (store entry table)) :
    ∃ before completed, completeEntry creator call candidate store prepared table =
        some (store completed before, completed) ∧
      Invariant (store completed before) ∧ Copies creator candidate completed ∧
      ∀ link ∈ completed.links, weight (before.find link) = 0 := by
  have flagged : Describes creator candidate (creator.flag candidate prepared) := ⟨rfl, rfl⟩
  unfold completeEntry
  dsimp only
  split
  · next linked =>
    have required := required_of_linked linked
    have above := creator.linked_above candidate
    rw [required] at calls above
    obtain ⟨middle, parentCall, holds, -, parentPresent⟩ := callEach_ends _ Invariant
      (fun other isIn => calls other (List.mem_append_left _ isIn))
      (first _ flagged (flagged.links_of_linked linked))
    have parentLinks : ∀ link ∈ ((creator.entry candidate).parent.map creator.name).toList,
        weight (middle.find link) = 0 := by
      rw [Option.toList_map]
      exact List.forall_mem_map.mpr fun parent isParent =>
        parentPresent parent isParent (above parent (List.mem_append_left _ isParent))
    have withParent : Describes creator candidate (creator.enterParent candidate
        (creator.flag candidate prepared)) := ⟨rfl, rfl⟩
    obtain ⟨last, interfaceCalls, holdsLast, evolves, interfacesPresent⟩ :=
      callEach_ends _ Invariant (fun other isIn => calls other (List.mem_append_right _ isIn))
        (stores _ middle holds withParent linked (by
          rw [withParent.links_of_linked linked]
          refine List.forall_mem_append.mpr ⟨parentLinks, nofun⟩))
    have completed : Describes creator candidate (creator.enterInterfaces candidate
        (creator.enterParent candidate (creator.flag candidate prepared))) := ⟨rfl, rfl⟩
    have present : ∀ link ∈ (creator.enterInterfaces candidate (creator.enterParent candidate
        (creator.flag candidate prepared))).links, weight (last.find link) = 0 := by
      rw [completed.links_of_linked linked]
      refine List.forall_mem_append.mpr ⟨fun link isLink => ?_, ?_⟩
      · exact evolves.settled (kept _ _ _ withParent linked (parentLinks link isLink))
      · exact List.forall_mem_map.mpr fun interface isInterface =>
          interfacesPresent interface isInterface (above _ (List.mem_append_right _ isInterface))
    refine ⟨last, _, ?_, stores _ last holdsLast completed linked present, ⟨completed, ?_⟩, present⟩
    · rw [parentCall]
      show (callEach call true (creator.entry candidate).interfaces _).bind _ = _
      rw [interfaceCalls]
      rfl
    · rw [completed.links_of_linked linked]
      unfold Creator.links
      rw [required, List.map_append, ← Option.toList_map]
      rfl
  · next unlinked =>
    have noLinks := flagged.links_of_unlinked unlinked
    refine ⟨table, _, rfl, first _ flagged noLinks, ⟨flagged, ?_⟩, ?_⟩
    · rw [noLinks, links_of_unlinked unlinked]
    · rw [noLinks]
      exact nofun

end Calls

section Measure

variable {ClassId Key Name : Type} [Fintype ClassId] [DecidableEq Key]
  (creator : Creator ClassId Key Name)

def Creator.keys : Finset Key :=
  Finset.univ.image creator.name

/-- How much is still to be done to the table. -/
def Creator.missing (table : Table Key Name) : Nat :=
  ∑ key ∈ creator.keys, weight (table.find key)

def Creator.height : Nat :=
  Finset.univ.sup creator.rank

/-- The classes that are missing count before the rank of the class. -/
def Creator.measure (task : ClassId × Bool) (table : Table Key Name) : Nat :=
  creator.missing table * (creator.height + 1) + creator.rank task.1

variable {creator} {candidate other : ClassId} {late later : Bool}
  {start now : Table Key Name} {progress : Set Key}

omit [DecidableEq Key] in
theorem rank_le_height (candidate : ClassId) : creator.rank candidate ≤ creator.height :=
  Finset.le_sup (Finset.mem_univ candidate)

/-- Before the class is in the table, calls go to classes of lower rank. -/
theorem measure_lt_of_rank (evolves : Evolves creator start now)
    (lower : creator.rank other < creator.rank candidate) :
    creator.measure (other, late) now < creator.measure (candidate, later) start := by
  have fewer : creator.missing now ≤ creator.missing start :=
    Finset.sum_le_sum fun key _ => evolves.weight key
  have product := Nat.mul_le_mul_right (creator.height + 1) fewer
  unfold Creator.measure
  dsimp only
  omega

/-- Once the class is in the table, calls may go anywhere. -/
theorem measure_lt_of_placed (placed : Placed creator candidate start progress now) :
    creator.measure (other, late) now < creator.measure (candidate, later) start := by
  have fewer : creator.missing now < creator.missing start := by
    apply Finset.sum_lt_sum
    · intro key _
      by_cases same : key = creator.name candidate
      · rw [same]
        exact Nat.le_of_lt placed.own
      · exact placed.around.weight key same
    · exact ⟨creator.name candidate, Finset.mem_image_of_mem _ (Finset.mem_univ _), placed.own⟩
  have rank : creator.rank other ≤ creator.height := rank_le_height other
  have product := Nat.mul_le_mul_right (creator.height + 1) (Nat.succ_le_of_lt fewer)
  rw [Nat.succ_mul] at product
  unfold Creator.measure
  dsimp only
  omega

end Measure

section Recursion

variable {ClassId Key Name : Type} [Fintype ClassId] [DecidableEq Key]
  {creator : Creator ClassId Key Name} {candidate : ClassId} {late : Bool}
  {call : ClassId × Bool → Table Key Name → Option (Table Key Name)}
  {start table : Table Key Name} {progress : Set Key}

/-- What is assumed of the calls that work on a class makes. -/
def CallsEnd (creator : Creator ClassId Key Name)
    (call : ClassId × Bool → Table Key Name → Option (Table Key Name)) (bound : Nat) : Prop :=
  ∀ task now, Ready creator now → creator.measure task now < bound →
    ∃ after, call task now = some after ∧ Created creator task.1 now after

theorem CallsEnd.placed (ends : CallsEnd creator call (creator.measure (candidate, late) start))
    (other : ClassId) (later : Bool) (now : Table Key Name)
    (placed : Placed creator candidate start progress now) :
    ∃ after, call (other, later) now = some after ∧ Created creator other now after ∧
      Placed creator candidate start progress after := by
  obtain ⟨after, called, created⟩ :=
    ends (other, later) now placed.ready (measure_lt_of_placed placed)
  exact ⟨after, called, created, placed.evolve created.evolves⟩

theorem CallsEnd.version (ends : CallsEnd creator call (creator.measure (candidate, late) start))
    (other : ClassId) (later : Bool) (now : Table Key Name)
    (holds : Placed creator candidate start progress now ∧ Version creator candidate now) :
    ∃ after, call (other, later) now = some after ∧ Created creator other now after ∧
      Placed creator candidate start progress after ∧ Version creator candidate after := by
  obtain ⟨after, called, created, placed⟩ := ends.placed other later now holds.1
  exact ⟨after, called, created, placed, holds.2.evolve created.evolves⟩

theorem dependencies_end (ends : CallsEnd creator call (creator.measure (candidate, late) start))
    (placed : Placed creator candidate start progress table)
    (version : Version creator candidate table) :
    ∃ after, prepareImmutableClassDependencies creator call candidate late table = some after ∧
      Placed creator candidate start progress after ∧ Version creator candidate after ∧
      ∀ link ∈ creator.links candidate, weight (after.find link) = 0 := by
  have calls : ∀ other now, Placed creator candidate start progress now ∧
      Version creator candidate now → ∃ after, call (other, late) now = some after ∧
        Created creator other now after ∧ Placed creator candidate start progress after ∧
        Version creator candidate after := fun other => ends.version other late
  obtain ⟨middle, above, holds, -, present⟩ := callEach_ends
    (creator.entry candidate).required _ (fun other _ => calls other) ⟨placed, version⟩
  obtain ⟨after, types, holdsAfter, evolves, -⟩ := callEach_ends
    ((creator.entry candidate).propertyTypes.filterMap creator.classTable) _
    (fun other _ => calls other) holds
  refine ⟨after, ?_, holdsAfter.1, holdsAfter.2, ?_⟩
  · unfold prepareImmutableClassDependencies
    dsimp only
    rw [above]
    exact types
  · exact List.forall_mem_map.mpr fun other isRequired =>
      evolves.settled (present other isRequired (creator.linked_above candidate other isRequired))

variable [DecidableEq Name]

theorem prepareClassConstants_ends (renews : Renews creator candidate start)
    (lasting : (creator.entry candidate).lasting = true)
    (ends : CallsEnd creator call (creator.measure (candidate, late) start))
    {constants : List (Name × ClassId)} {prepared : Prepared Key Name}
    (entered : Entered creator candidate start table prepared) :
    ∃ after, prepareClassConstants call (creator.name candidate) constants prepared table =
        some after ∧
      Placed creator candidate start ∅ after ∧ Version creator candidate after := by
  induction constants generalizing prepared table with
  | nil => exact ⟨table, rfl, entered.placed, entered.version⟩
  | cons constant others ih =>
    unfold prepareClassConstants
    split
    · exact ih entered
    · obtain ⟨middle, called, created, -⟩ :=
        ends.version constant.2 true table ⟨entered.placed, entered.version⟩
      have between := entered.evolve created.evolves
      rw [called]
      apply ih
      have copies : Copies creator candidate { prepared with
          constantsTable := prepared.constantsTable ++ [constant.1] } :=
        ⟨⟨between.copies.anonymous, between.copies.linked⟩, between.copies.links⟩
      have lowers := between.version.lowers lasting copies.toDescribes
      refine ⟨?_, version_update copies, copies, ?_⟩
      · exact placed_update between.placed.around between.placed.ready copies.toDescribes
          (copies.weight_lt renews) lowers (fun _ => between.present) fun _ => copies
      · exact fun link isLink => settled_update lowers (between.present link isLink)

variable [DecidableEq ClassId]

theorem lateBindings_ends (renews : Renews creator candidate start)
    (ends : CallsEnd creator call (creator.measure (candidate, late) start))
    {prepared : Prepared Key Name} (entered : Entered creator candidate start table prepared) :
    ∃ after, lateBindings creator call candidate prepared table = some after ∧
      Placed creator candidate start ∅ after ∧ Version creator candidate after := by
  unfold lateBindings
  dsimp only
  split
  · exact ⟨table, rfl, entered.placed, entered.version⟩
  · next copied =>
    have lasting : (creator.entry candidate).lasting = true :=
      Bool.or_eq_true_iff.mpr (Or.inr (bne_iff_ne.mpr copied))
    obtain ⟨middle, properties, -, evolves, -⟩ := callEach_ends _
      (fun now => Placed creator candidate start ∅ now ∧ Version creator candidate now)
      (fun other _ now => ends.version other true now) ⟨entered.placed, entered.version⟩
    obtain ⟨after, constants, holds⟩ :=
      prepareClassConstants_ends renews lasting ends (entered.evolve evolves)
    refine ⟨after, ?_, holds⟩
    rw [properties]
    exact constants

theorem insertImmutable_ends (renews : Renews creator candidate start)
    (isImmutable : (creator.entry candidate).origin = .immutable) (ready : Ready creator start)
    (ends : CallsEnd creator call (creator.measure (candidate, late) start)) :
    ∃ after, insertImmutable creator call candidate late start = some after ∧
      Placed creator candidate start ∅ after ∧ Version creator candidate after := by
  have around {progress : Set Key} : Around creator start (creator.name candidate) progress start :=
    (Evolves.refl start).around
  have copies : Copies creator candidate (creator.inPlace candidate) := by
    refine ⟨⟨rfl, rfl⟩, ?_⟩
    unfold Prepared.links Creator.links ClassEntry.required Creator.inPlace
    dsimp only
    split
    · rw [List.map_append, Option.toList_map]
    · rfl
  have less := copies.weight_lt renews
  have version : Version creator candidate
      (start.update (creator.name candidate) (creator.inPlace candidate)) :=
    version_update copies
  have finishes : ∀ table : Table Key Name,
      (if late then lateBindings creator call candidate (creator.inPlace candidate) table
        else some table) = some table := by
    intro table
    unfold lateBindings
    dsimp only
    rw [if_pos isImmutable, ite_self]
  unfold insertImmutable
  dsimp only
  cases linked : (creator.entry candidate).linked with
  | false =>
    have noLinks : creator.links candidate = [] :=
      links_of_unlinked (Bool.eq_false_iff.mp linked)
    obtain ⟨after, dependencies, placed, holds, -⟩ := dependencies_end ends
      (placed_update around ready copies.toDescribes less less.le (fun _ => by
        rw [copies.links, noLinks]
        exact nofun) fun _ => copies) version
    exact ⟨after, by rw [dependencies]; exact finishes after, placed, holds⟩
  | true =>
    have inProgress : Placed creator candidate start {creator.name candidate}
        (start.update (creator.name candidate) (creator.inPlace candidate)) :=
      placed_update around ready copies.toDescribes less less.le
        (fun outside => absurd rfl outside) fun _ => copies
    obtain ⟨after, dependencies, placed, holds, present⟩ :=
      dependencies_end ends inProgress version
    exact ⟨after, by rw [dependencies]; exact finishes after,
      placed.finish holds linked present, holds⟩

theorem insertCopy_ends (renews : Renews creator candidate start) (ready : Ready creator start)
    (ends : CallsEnd creator call (creator.measure (candidate, late) start)) :
    ∃ after, insertCopy creator call candidate late start = some after ∧
      Placed creator candidate start ∅ after ∧ Version creator candidate after := by
  have calls : ∀ other ∈ (creator.entry candidate).required, ∀ now,
      Evolves creator start now ∧ Ready creator now ∧
        ((creator.entry candidate).linked = false → now = start) →
      ∃ after, call (other, true) now = some after ∧ Created creator other now after ∧
        Evolves creator start after ∧ Ready creator after ∧
        ((creator.entry candidate).linked = false → after = start) := by
    intro other isRequired now holds
    obtain ⟨after, called, created⟩ := ends (other, true) now holds.2.1
      (measure_lt_of_rank holds.1 (creator.rank_above candidate other isRequired))
    refine ⟨after, called, created, holds.1.trans created.evolves,
      holds.2.1.evolve created.evolves, fun unlinked => ?_⟩
    unfold ClassEntry.required at isRequired
    rw [unlinked] at isRequired
    cases isRequired
  obtain ⟨before, completed, completes, ⟨evolves, readyBefore, unlinked⟩, copies, present⟩ :=
    completeEntry_ends
      ⟨(creator.entry candidate).anonymous, (creator.entry candidate).linked, false, none, [], []⟩
      _ calls (fun _ _ _ _ _ settled => settled) (fun _ _ holds _ _ _ => holds)
      (fun _ _ _ => ⟨Evolves.refl start, ready, fun _ => rfl⟩)
  have less := copies.weight_lt renews
  have lowers : weight (some completed) ≤ weight (before.find (creator.name candidate)) := by
    cases linked : (creator.entry candidate).linked with
    | true =>
      rw [weight_eq_zero_of_linked (copies.linked.trans linked)]
      exact Nat.zero_le _
    | false =>
      rw [unlinked linked]
      exact less.le
  have entered : Entered creator candidate start
      (before.update (creator.name candidate) completed) completed :=
    ⟨placed_update evolves.around readyBefore copies.toDescribes less lowers (fun _ => present)
        fun _ => copies,
      version_update copies, copies, fun link isLink => settled_update lowers (present link isLink)⟩
  have scopes : ∀ middle, Placed creator candidate start ∅ middle ∧
      Version creator candidate middle → ∃ after, callEach call true
        ((creator.entry candidate).functionTable.filter (· ≠ candidate)) middle = some after ∧
        Placed creator candidate start ∅ after ∧ Version creator candidate after := by
    intro middle holds
    obtain ⟨after, called, holdsAfter, -⟩ :=
      callEach_ends _ _ (fun other _ now => ends.version other true now) holds
    exact ⟨after, called, holdsAfter⟩
  unfold insertCopy
  dsimp only
  rw [completes, Option.bind_eq_bind, Option.bind_some]
  cases late with
  | false => exact scopes _ ⟨entered.placed, entered.version⟩
  | true =>
    obtain ⟨middle, bindings, holds⟩ := lateBindings_ends renews ends entered
    dsimp only
    rw [if_pos rfl]
    obtain ⟨after, called, holdsAfter⟩ := scopes middle holds
    refine ⟨after, ?_, holdsAfter⟩
    exact (congrArg (Option.bind · _) bindings).trans called

theorem insertEntry_ends (renews : Renews creator candidate start) (ready : Ready creator start)
    (ends : CallsEnd creator call (creator.measure (candidate, late) start)) :
    ∃ after, insertEntry creator call candidate late start = some after ∧
      Placed creator candidate start ∅ after ∧ Version creator candidate after := by
  unfold insertEntry
  split
  · next isImmutable => exact insertImmutable_ends renews isImmutable ready ends
  · exact insertCopy_ends renews ready ends

/-- An entry that is in the table without its parents gets them there. -/
theorem completeInPlace_ends (renews : Renews creator candidate start)
    (linked : (creator.entry candidate).linked = true) (ready : Ready creator start)
    (ends : CallsEnd creator call (creator.measure (candidate, late) start))
    (prepared : Prepared Key Name) :
    ∃ after, (do
        let (table, completed) ← completeEntry creator call candidate
          (fun prepared table => table.update (creator.name candidate) prepared) prepared start
        if late then lateBindings creator call candidate completed table else some table) =
          some after ∧
      Placed creator candidate start ∅ after ∧ Version creator candidate after := by
  have settles : ∀ {entry : Prepared Key Name} (now : Table Key Name),
      Describes creator candidate entry →
        weight (some entry) ≤ weight (now.find (creator.name candidate)) := by
    intro entry now describes
    rw [weight_eq_zero_of_linked (describes.linked.trans linked)]
    exact Nat.zero_le _
  obtain ⟨before, completed, completes, inProgress, copies, present⟩ :=
    completeEntry_ends prepared
      (fun now => Placed creator candidate start {creator.name candidate} now)
      (fun other _ now => ends.placed other true now)
      (fun _ now _ describes _ => settled_update (settles now describes))
      (fun _ now placed describes _ present => placed_update placed.around placed.ready describes
        (describes.weight_lt renews) (settles now describes) (fun _ => present)
        fun outside => absurd rfl outside)
      (fun _ describes _ => placed_update (Evolves.refl start).around ready describes
        (describes.weight_lt renews) (settles start describes)
        (fun outside => absurd rfl outside) fun outside => absurd rfl outside)
  have version : Version creator candidate
      (before.update (creator.name candidate) completed) := version_update copies
  have there : ∀ link ∈ completed.links,
      weight ((before.update (creator.name candidate) completed).find link) = 0 :=
    fun link isLink => settled_update (settles before copies.toDescribes) (present link isLink)
  have placed := inProgress.finish version linked (copies.links ▸ there)
  rw [completes]
  cases late with
  | false => exact ⟨_, rfl, placed, version⟩
  | true => exact lateBindings_ends renews ends ⟨placed, version, copies, there⟩

/-- A call ends when the calls that it makes do. -/
theorem createEntryBody_ends {task : ClassId × Bool} (ready : Ready creator start)
    (ends : CallsEnd creator call (creator.measure task start)) :
    ∃ after, createEntryBody creator call task start = some after ∧
      Created creator task.1 start after := by
  obtain ⟨candidate, late⟩ := task
  unfold createEntryBody
  dsimp only
  split
  · next isEngine =>
    have settled := ready.engine candidate isEngine
    refine ⟨start, rfl, Evolves.refl start, ?_, fun _ => settled⟩
    exact (isSome_iff_weight _).mpr (settled ▸ Nat.two_pos)
  · split
    · next missing =>
      obtain ⟨after, inserted, placed, version⟩ := insertEntry_ends (Or.inl missing) ready ends
      exact ⟨after, inserted, placed.created version⟩
    · next prepared found =>
      have there : start.find (creator.name candidate) = some prepared := found
      split
      · next renewed =>
        rw [Bool.and_eq_true] at renewed
        have renews : Renews creator candidate start := by
          refine Or.inr ⟨renewed.2, ?_⟩
          rw [there]
          exact unsettled_iff.mpr renewed.1
        split
        · obtain ⟨after, inserted, placed, version⟩ := insertEntry_ends renews ready ends
          exact ⟨after, inserted, placed.created version⟩
        · obtain ⟨after, completes, placed, version⟩ := completeInPlace_ends renews
            (Bool.and_eq_true_iff.mp renewed.2).2 ready ends prepared
          exact ⟨after, completes, placed.created version⟩
      · next kept =>
        refine ⟨start, rfl, Evolves.refl start, ?_, fun linked => ?_⟩
        · rw [there]
          rfl
        · rw [there]
          by_contra unsettled
          have unbound := unsettled_iff.mp (Nat.pos_of_ne_zero unsettled)
          have bound : (creator.entry candidate).bound = true :=
            Bool.and_eq_true_iff.mpr ⟨ready.anonymous candidate prepared there unbound, linked⟩
          exact kept (Bool.and_eq_true_iff.mpr ⟨unbound, bound⟩)

/-- A call ends within its measure. -/
theorem createEntry_within {fuel : Nat} {task : ClassId × Bool} (ready : Ready creator start)
    (enough : creator.measure task start < fuel) :
    ∃ after, createEntry creator fuel task start = some after ∧
      Created creator task.1 start after := by
  apply run_ends (fun _ => rfl) creator.measure (fun _ now => Ready creator now)
    (fun task => Created creator task.1) _ ready enough
  intro call task now readyNow calls
  exact createEntryBody_ends readyNow fun inner => calls inner

end Recursion

section Ancestors

variable {ClassId Key Name : Type} [DecidableEq Key] {creator : Creator ClassId Key Name}
  {table after : Table Key Name}

/-- Classes that are in the table for good are those of the creator, and the classes above
them are there too. -/
structure Intact (creator : Creator ClassId Key Name) (table : Table Key Name) : Prop where
  closed : Closed ∅ table
  copies : ∀ candidate prepared, (creator.entry candidate).linked = true →
    table.find (creator.name candidate) = some prepared → weight (some prepared) = 0 →
      Copies creator candidate prepared

theorem Intact.evolve (intact : Intact creator table) (evolves : Evolves creator table after) :
    Intact creator after := by
  refine ⟨evolves.closed ∅ intact.closed, ?_⟩
  intro candidate prepared linked found settled
  rcases evolves.origin _ prepared found with before | ⟨other, same, copies⟩
  · exact intact.copies candidate prepared linked before settled
  · rcases creator.same_name other candidate same with rfl | replaces | replaces
    · exact copies
    · rw [replaces.2.2.1] at linked
      cases linked
    · have unbound : prepared.unbound = true := by
        unfold Prepared.unbound
        rw [copies.anonymous, copies.linked, replaces.2.1, replaces.2.2.1]
        rfl
      exact absurd settled (Nat.ne_of_gt (unsettled_iff.mpr unbound))

/-- A class and the classes that it inherits from. -/
def Above (creator : Creator ClassId Key Name) : ClassId → ClassId → Prop :=
  Relation.ReflTransGen fun candidate other => other ∈ (creator.entry candidate).required

/-- Above a linked class that is in the table, all classes are. -/
theorem Intact.above (intact : Intact creator table) {candidate ancestor : ClassId}
    (linked : (creator.entry candidate).linked = true)
    (settled : weight (table.find (creator.name candidate)) = 0)
    (above : Above creator candidate ancestor) :
    ∃ prepared, table.find (creator.name ancestor) = some prepared ∧
      Copies creator ancestor prepared := by
  have entered : ∀ other, (creator.entry other).linked = true →
      weight (table.find (creator.name other)) = 0 → ∃ prepared,
        table.find (creator.name other) = some prepared ∧ Copies creator other prepared := by
    intro other isLinked isSettled
    have present := (isSome_iff_weight _).mpr (isSettled ▸ Nat.two_pos)
    obtain ⟨prepared, found⟩ := Option.isSome_iff_exists.mp present
    exact ⟨prepared, found, intact.copies other prepared isLinked found (found ▸ isSettled)⟩
  induction above with
  | refl => exact entered candidate linked settled
  | @tail lower upper _ isRequired ih =>
    obtain ⟨prepared, found, copies⟩ := ih
    apply entered upper (creator.linked_above lower upper isRequired)
    apply intact.closed _ prepared found (Set.notMem_empty _)
    rw [copies.links]
    exact List.mem_map_of_mem isRequired

end Ancestors

section Example

inductive Family
  | threaded
  | node
  | tree
  | task
  | boundTask
deriving DecidableEq

inductive FamilyName
  | threaded
  | node
  | tree
  | task
deriving DecidableEq

instance : Fintype Family where
  elems := {.threaded, .node, .tree, .task, .boundTask}
  complete candidate := by cases candidate <;> decide

def familyEntry : Family → ClassEntry Family FamilyName String
  | .threaded => ⟨.threaded, .internal, false, true, none, [], [], [], [], []⟩
  | .node => ⟨.node, .immutable, false, true, some .threaded, [], [.tree], [.node], [], [.node]⟩
  | .tree => ⟨.tree, .immutable, false, true, some .node, [], [.node], [.node, .tree], [], []⟩
  | .task => ⟨.task, .immutable, true, false, none, [], [.tree], [.task], [], [.task]⟩
  | .boundTask => ⟨.task, .user, true, true, some .tree, [], [.tree], [.node, .boundTask],
    [("LIMIT", .tree)], [.node, .boundTask]⟩

/-- The types of the properties of two immutable classes name each other, and an anonymous
class has been linked to one of them. -/
def family : Creator Family FamilyName String where
  entry := familyEntry
  classTable
    | .threaded => some .threaded
    | .node => some .node
    | .tree => some .tree
    | .task => some .boundTask
  rank
    | .threaded => 0
    | .node => 1
    | .tree => 2
    | .task => 0
    | .boundTask => 3
  rank_above candidate := by cases candidate <;> decide
  linked_above candidate := by cases candidate <;> decide
  same_name candidate other same := by
    unfold ClassEntry.Replaces
    revert same
    cases candidate <;> cases other <;> decide

/-- The thread has got the anonymous class before it was linked. -/
def familyStart : Table FamilyName String :=
  (OrderedTable.empty.update .threaded (family.inPlace .threaded)).update .task
    (family.inPlace .task)

theorem familyStart_ready : Ready family familyStart where
  engine candidate isEngine := by
    revert isEngine
    cases candidate <;> decide
  anonymous candidate prepared found unbound := by
    cases candidate <;> cases found
    · cases unbound
    · rfl
    · rfl

example : (createEntry family 33 (.boundTask, true) familyStart).map OrderedTable.keys =
    some [.threaded, .task, .tree, .node] := by decide

end Example

end Pthreads.EntryCreation
