import Mathlib.Data.List.Basic

/-!
# Folds that may fail

A loop whose body may run out of fuel is a monadic fold in `Option`.  These are the
rules for such a loop: when it succeeds, that more fuel does not change its result, and
that it commutes with a map between two kinds of state.
-/

namespace Pthreads.PartialFolds

variable {State Other Item : Type*}

/-- A loop over the numbers below a bound, from the last one down. -/
def countDown (body : Nat → State → Option State) : Nat → State → Option State
  | 0, state => some state
  | slot + 1, state => (body slot state).bind (countDown body slot)

/-- A loop succeeds when its body does wherever an invariant holds. -/
theorem foldlM_total {body : State → Item → Option State} {Invariant : State → Prop}
    {items : List Item}
    (succeeds : ∀ state, Invariant state → ∀ item ∈ items,
      ∃ after, body state item = some after ∧ Invariant after)
    {state : State} (initially : Invariant state) :
    ∃ after, items.foldlM body state = some after ∧ Invariant after := by
  induction items generalizing state with
  | nil => exact ⟨state, rfl, initially⟩
  | cons item items ih =>
      obtain ⟨middle, first, kept⟩ := succeeds state initially item List.mem_cons_self
      obtain ⟨after, others, holds⟩ := ih
        (fun state holds other isIn => succeeds state holds other (List.mem_cons_of_mem _ isIn))
        kept
      exact ⟨after, by rw [List.foldlM_cons, first]; exact others, holds⟩

/-- The same with an invariant that speaks of the items that have been visited. -/
theorem foldlM_total_prefix {body : State → Item → Option State}
    {Invariant : List Item → State → Prop} {items : List Item}
    (succeeds : ∀ visited, ∀ item ∈ items, ∀ state, Invariant visited state →
      ∃ after, body state item = some after ∧ Invariant (visited ++ [item]) after)
    {state : State} (initially : Invariant [] state) :
    ∃ after, items.foldlM body state = some after ∧ Invariant items after := by
  have run : ∀ others, (∀ item ∈ others, item ∈ items) → ∀ visited state,
      Invariant visited state →
        ∃ after, others.foldlM body state = some after ∧ Invariant (visited ++ others) after := by
    intro others
    induction others with
    | nil =>
        intro _ visited state holds
        exact ⟨state, rfl, (List.append_nil visited).symm ▸ holds⟩
    | cons item others ih =>
        intro among visited state holds
        obtain ⟨isIn, rest⟩ := List.forall_mem_cons.mp among
        obtain ⟨middle, first, kept⟩ := succeeds visited item isIn state holds
        obtain ⟨after, later, kept⟩ := ih rest (visited ++ [item]) middle kept
        rw [List.append_assoc, List.singleton_append] at kept
        exact ⟨after, by rw [List.foldlM_cons, first]; exact later, kept⟩
  exact run items (fun _ isIn => isIn) [] state initially

/-- What the body keeps, the loop keeps. -/
theorem foldlM_keeps {body : State → Item → Option State} {Invariant : State → Prop}
    {items : List Item}
    (keeps : ∀ state after, Invariant state → ∀ item ∈ items,
      body state item = some after → Invariant after)
    {state after : State} (done : items.foldlM body state = some after)
    (initially : Invariant state) : Invariant after := by
  induction items generalizing state with
  | nil =>
      cases Option.some.inj done
      exact initially
  | cons item items ih =>
      rw [List.foldlM_cons] at done
      obtain ⟨middle, first, others⟩ := Option.bind_eq_some_iff.mp done
      refine ih ?_ others (keeps state middle initially item List.mem_cons_self first)
      intro state after holds other isIn
      exact keeps state after holds other (List.mem_cons_of_mem _ isIn)

/-- An invariant may speak of the items that have been visited, and its step use that they are
followed by the others. -/
theorem foldlM_prefix {body : State → Item → Option State} {Invariant : List Item → State → Prop}
    {items : List Item}
    (keeps : ∀ visited item others, visited ++ item :: others = items → ∀ state after,
      Invariant visited state → body state item = some after →
        Invariant (visited ++ [item]) after)
    {state after : State} (done : items.foldlM body state = some after)
    (initially : Invariant [] state) : Invariant items after := by
  have run : ∀ others visited state, visited ++ others = items → Invariant visited state →
      others.foldlM body state = some after → Invariant items after := by
    intro others
    induction others with
    | nil =>
        intro visited state whole holds done
        cases Option.some.inj done
        rwa [← whole, List.append_nil]
    | cons item others ih =>
        intro visited state whole holds done
        rw [List.foldlM_cons] at done
        obtain ⟨middle, first, later⟩ := Option.bind_eq_some_iff.mp done
        refine ih (visited ++ [item]) middle ?_ ?_ later
        · rw [List.append_assoc, List.singleton_append, whole]
        · exact keeps visited item others whole state middle holds first
  exact run items [] state rfl initially done

/-- The same for a loop that cannot fail. -/
theorem foldl_prefix {body : State → Item → State} {Invariant : List Item → State → Prop}
    {items : List Item}
    (keeps : ∀ visited item others, visited ++ item :: others = items → ∀ state,
      Invariant visited state → Invariant (visited ++ [item]) (body state item))
    {state : State} (initially : Invariant [] state) :
    Invariant items (items.foldl body state) := by
  have succeeds : items.foldlM (fun state item => some (body state item)) state =
      some (items.foldl body state) := List.foldlM_pure
  refine foldlM_prefix ?_ succeeds initially
  rintro visited item others whole state _ holds ⟨⟩
  exact keeps visited item others whole state holds

/-- What the body does for its item, and undoes for no other, the loop does for all. -/
theorem foldlM_does {body : State → Item → Option State} (Done : Item → State → Prop)
    {items : List Item}
    (does : ∀ state after, ∀ item ∈ items, body state item = some after → Done item after)
    (stays : ∀ state after item other, Done item state → body state other = some after →
      Done item after)
    {state after : State} (done : items.foldlM body state = some after) :
    ∀ item ∈ items, Done item after := by
  induction items generalizing state with
  | nil => exact nofun
  | cons item items ih =>
      rw [List.foldlM_cons] at done
      obtain ⟨middle, first, others⟩ := Option.bind_eq_some_iff.mp done
      have here : Done item after :=
        foldlM_keeps
          (fun state after holds other _ moved => stays state after item other holds moved)
          others (does state middle item List.mem_cons_self first)
      refine List.forall_mem_cons.mpr ⟨here, ih ?_ others⟩
      intro state after other isIn
      exact does state after other (List.mem_cons_of_mem _ isIn)

/-- A body that succeeds more often has the same result where the first succeeds. -/
theorem foldlM_mono {body more : State → Item → Option State}
    (implied : ∀ state item after, body state item = some after → more state item = some after)
    {items : List Item} {state after : State} (done : items.foldlM body state = some after) :
    items.foldlM more state = some after := by
  induction items generalizing state with
  | nil => exact done
  | cons item items ih =>
      rw [List.foldlM_cons] at done ⊢
      obtain ⟨middle, first, others⟩ := Option.bind_eq_some_iff.mp done
      rw [implied _ _ _ first]
      exact ih others

/-- A loop commutes with a map of the states when its body does. -/
theorem foldlM_map {body : State → Item → Option State} {other : Other → Item → Option Other}
    {embed : Other → State}
    (commutes : ∀ state item, body (embed state) item = (other state item).map embed)
    (items : List Item) (state : Other) :
    items.foldlM body (embed state) = (items.foldlM other state).map embed := by
  induction items generalizing state with
  | nil => rfl
  | cons item items ih =>
      rw [List.foldlM_cons, List.foldlM_cons, commutes]
      cases moved : other state item with
      | none => rfl
      | some middle => exact ih middle

section Below

variable {Result Next : Type*}

/-- Where the first has a result, the second has the same. -/
def Below (few more : Option Result) : Prop :=
  ∀ result, few = some result → more = some result

theorem Below.refl (outcome : Option Result) : Below outcome outcome :=
  fun _ done => done

theorem Below.trans {few more most : Option Result} (first : Below few more)
    (second : Below more most) : Below few most :=
  fun result done => second result (first result done)

theorem Below.bind {few more : Option Result} {next nextMore : Result → Option Next}
    (first : Below few more) (second : ∀ result, Below (next result) (nextMore result)) :
    Below (few.bind next) (more.bind nextMore) := by
  intro last done
  obtain ⟨result, isResult, isLast⟩ := Option.bind_eq_some_iff.mp done
  rw [first result isResult]
  exact second result last isLast

theorem Below.ite {condition : Prop} [Decidable condition]
    {few more other otherMore : Option Result} (holds : Below few more)
    (fails : Below other otherMore) :
    Below (if condition then few else other) (if condition then more else otherMore) := by
  split
  · exact holds
  · exact fails

theorem below_foldlM {body more : State → Item → Option State}
    (each : ∀ state item, Below (body state item) (more state item)) (items : List Item)
    (state : State) : Below (items.foldlM body state) (items.foldlM more state) :=
  fun _ done => foldlM_mono each done

theorem below_countDown {body more : Nat → State → Option State}
    (each : ∀ number state, Below (body number state) (more number state)) (number : Nat)
    (state : State) : Below (countDown body number state) (countDown more number state) := by
  induction number generalizing state with
  | zero => exact Below.refl _
  | succ number ih => exact (each number state).bind ih

end Below

end Pthreads.PartialFolds
