import Pthreads.MergeDestruction

/-!
# Merging what outlasts the source

If what is written does not go with the source, and what stands under other keys goes
with it on both ways or on neither, the two ways leave the same destination, also when
the source is destroyed right after the merge.
-/

namespace Pthreads.Store

open ObjectRegistry GuardedRuns

theorem dangling_intact (registry : Registry) (key : Key) (storage : Storage) :
    (Memory.intact registry).dangling key storage = false := by
  cases storage <;> rfl

namespace SideBySide

variable {setting : Setting} {dependents : Dependents} {fresh : Key → Fresh}
  {pointers : Key → Nat} {registry : Registry} {table : OrderedTable Key Zval}
  {state : WrittenAll} {direct array : Registry} {other : Connection} {key : Key}
  {storage : Storage}
  (both : SideBySide setting dependents fresh pointers registry table state direct array)

include both

theorem held_fits (fits : setting.Fits dependents other) {value : Zval}
    (keeps : setting.connection.Keeps value ∨ other.Keeps value) :
    SettledValue setting.registry value ∧
      ∀ address, refersTo address value = true → ¬ dependents.Object address := by
  rcases keeps with held | held
  · exact ⟨both.consistent.held value held, fun _ refers => both.apart.not_object held refers⟩
  · exact ⟨fits.held value held, fun _ refers => fits.apart.not_object held refers⟩

/-- Right after the merges everything is still there. -/
theorem outlasts_now (fits : setting.Fits dependents other) :
    Outlasts setting registry (setting.copied pointers) state other (.intact setting.registry)
      (.intact state.registry) := by
  rw [both.twin.sameRegistry]
  refine ⟨?_, ?_, fun _ _ _ _ _ _ _ => rfl, ?_, fun _ _ _ _ => rfl, ?_, ?_⟩
  · intro key _ address source
    exact ⟨(both.zobjs_eq (Or.inr ⟨key, source⟩)).symm, rfl⟩
  · intro key _ address stored
    exact (both.zobjs_eq (Or.inl ⟨key, stored⟩)).symm
  · intro value keeps address refers
    exact ⟨(both.held_zobjs (both.held_fits fits keeps).1 refers).symm, rfl⟩
  · exact fun key _ storage => ⟨fun _ => dangling_intact _ key storage,
      fun _ => dangling_intact _ key storage⟩
  · intro key _ storage _
    rw [dangling_intact, dangling_intact]

/-- A written closure is held by the local table of the array way. -/
theorem holdsClosure {saved : Storage} {closure : Closure} {owner : Nat}
    (writes : setting.Writes key) (found : state.props.hash.find key = some saved)
    (isClosure : saved = .closure closure owner) :
    state.connection.holdsClosure closure.pointer = true := by
  obtain ⟨storage, value, written, here⟩ := both.twin.written key ((both.writes key).mpr writes)
  cases Option.some.inj (found.symm.trans here.array)
  cases here.savedAs.closure closure owner isClosure
  exact Connection.holdsClosure_of_cached here.entered

/-- What is written on the direct way points to nothing that is freed. -/
theorem safe_direct (independent : setting.Independent dependents table)
    (writes : setting.Writes key) (found : (setting.copied pointers).props.hash.find key =
      some storage) :
    (Memory.afterDirect dependents setting.source (setting.mergeDirectly pointers)
      direct).dangling key storage = false := by
  obtain ⟨source, value, saved, here⟩ := both.twin.written key ((both.writes key).mpr writes)
  have same := Option.some.inj (found.symm.trans here.direct)
  cases source with
  | closure closure owner =>
      subst same
      have free := independent.closures key closure owner writes here.source
      simp [hardCopyStorage, Memory.dangling, Memory.afterDirect, free]
  | enumCase className memberName =>
      subst same
      have permanent := independent.names key className memberName writes here.source
      simp [hardCopyStorage, Memory.dangling, Memory.afterDirect, sharesNames, permanent]
  | _ =>
      subst same
      rfl

theorem safe_array (writes : setting.Writes key)
    (found : state.props.hash.find key = some storage) :
    (Memory.afterArray dependents state array).dangling key storage = false := by
  cases storage with
  | closure closure owner =>
      simp [Memory.dangling, Memory.afterArray, both.holdsClosure writes found rfl]
  | _ => rfl

/-- The closures that go with the source go on both ways. -/
theorem freedClosures_eq {pointer : Nat}
    (notEntered : dependents.closures pointer = true →
      (setting.entering table).holdsClosure pointer = false) :
    (Memory.afterDirect dependents setting.source (setting.mergeDirectly pointers)
        direct).freedClosures pointer =
      (Memory.afterArray dependents state array).freedClosures pointer := by
  simp only [Memory.afterDirect, Memory.afterArray]
  cases depends : dependents.closures pointer with
  | false => rfl
  | true =>
      have notHeld : (setting.mergeDirectly pointers).connection.holdsClosure pointer = false := by
        by_contra holds
        have free := both.directApart.closures pointer (by simpa using holds)
        rw [depends] at free
        cases free
      have notKept : state.connection.holdsClosure pointer = false := by
        by_contra holds
        have isHeld : state.connection.holdsClosure pointer = true := by simpa using holds
        obtain ⟨value, keeps, isHere⟩ := Connection.keepsAny_iff.mp isHeld
        rcases both.twin.keeps value keeps with rfl | before | entered
        · cases isHere
        · have free := both.apart.closures pointer (Connection.keepsAny_iff.mpr ⟨_, before, isHere⟩)
          rw [depends] at free
          cases free
        · have isEntered : (setting.entering table).holdsClosure pointer = true :=
            Connection.keepsAny_iff.mpr ⟨_, entered, isHere⟩
          rw [notEntered depends] at isEntered
          cases isEntered
      rw [notHeld, notKept]

/-- When the source has been destroyed, what was written is still there, and the rest is
there on both ways or on neither. -/
theorem outlasts_later (independent : setting.Independent dependents table)
    (fits : setting.Fits dependents other) :
    Outlasts setting registry (setting.copied pointers) state other
      (.afterDirect dependents setting.source (setting.mergeDirectly pointers) direct)
      (.afterArray dependents state array) := by
  have survive : ∀ address, ¬ dependents.Object address →
      registry.zobjs address = setting.registry.zobjs address →
        direct.zobjs address = registry.zobjs address ∧
          array.zobjs address = registry.zobjs address := by
    intro address outlasts same
    exact ⟨(both.direct_kept outlasts).trans same.symm, both.array_kept (Or.inl outlasts)⟩
  refine ⟨?_, ?_, ?_, ?_, ?_, ?_, ?_⟩
  · intro key isWritten address source
    exact survive address (independent.objects key address ((both.writes key).mp isWritten) source)
      (both.zobjs_eq (Or.inr ⟨key, source⟩))
  · intro key notWritten address stored
    by_cases depends : dependents.Object address
    · have notEntered := independent.notEntered key address
        (fun writes => notWritten ((both.writes key).mpr writes)) stored depends
      exact (both.direct_gone depends).2.trans (both.array_gone depends notEntered).symm
    · obtain ⟨isDirect, isArray⟩ := survive address depends (both.zobjs_eq (Or.inl ⟨key, stored⟩))
      exact isDirect.trans isArray.symm
  · intro key notWritten address stored outdated notEmpty kept
    apply both.array_kept
    refine Or.inl fun depends => kept ?_
    obtain ⟨entry, isFirst, -⟩ := both.twin.first notEmpty
    exact independent.notKept key address (fun writes => notWritten ((both.writes key).mpr writes))
      stored depends (by simp [isFirst]) outdated
  · intro value keeps address refers
    obtain ⟨settled, outlasts⟩ := both.held_fits fits keeps
    exact survive address (outlasts address refers) (both.held_zobjs settled refers)
  · exact fun value keeps address refers => both.array_held keeps refers
  · intro key isWritten storage
    have writes := (both.writes key).mp isWritten
    exact ⟨fun found => both.safe_direct independent writes found,
      fun found => both.safe_array writes found⟩
  · intro key notWritten storage stored
    cases storage with
    | closure closure owner =>
        exact both.freedClosures_eq fun depends => independent.closuresNotEntered key closure owner
          (fun writes => notWritten ((both.writes key).mpr writes)) stored depends
    | enumCase className memberName =>
        have notIn : key ∉ (setting.mergeDirectly pointers).written := notWritten
        simp [Memory.dangling, Memory.afterDirect, Memory.afterArray, sharesNames, notIn]
    | _ => rfl

theorem keys_eq : (setting.mergeDirectly pointers).props.hash.table.keys =
    state.props.hash.table.keys := by
  rw [both.bumped.hash]
  exact both.twin.keys

theorem held_direct {value : Zval}
    (keeps : (setting.mergeDirectly pointers).connection.Keeps value) :
    SettledValue setting.registry value :=
  both.consistent.held value (both.direct_keeps keeps)

/-- If nothing shows in place of what is written, and what is written does not go with
the source, the two ways agree. -/
theorem agree (tidy : setting.Tidy) (independent : setting.Independent dependents table)
    (fits : setting.Fits dependents other) :
    PathsAgree setting dependents other (setting.mergeDirectly pointers) state direct array := by
  have settled : ∀ value, setting.connection.Keeps value → SettledValue registry value :=
    fun value keeps => both.extended.settledValue (both.consistent.held value keeps)
  have otherSettled : ∀ value, other.Keeps value → SettledValue registry value :=
    fun value keeps => both.extended.settledValue (fits.held value keeps)
  have now := both.outlasts_now fits
  have later := both.outlasts_later independent fits
  have stateNow := both.readable_array fun _ keeps => both.state_settled keeps
  constructor
  · exact both.keys_eq
  · apply readsAlike_of_views (both.readable_direct fun _ keeps => both.held_direct keeps) stateNow
    exact both.twin.view_eq both.consistent both.regular both.extended tidy now stateNow settled
      setting.enumCases
  · apply readsAlike_of_views (both.readable_direct fits.held) (both.readable_array otherSettled)
    exact both.twin.view_other now fits.counts setting.enumCases
  · apply readsAlike_of_views
      (both.readable_direct_later (fun _ keeps => both.held_direct keeps) both.directApart)
      both.readable_state_later
    exact both.twin.view_eq both.consistent both.regular both.extended tidy later
      both.readable_state_later settled setting.enumCases
  · apply readsAlike_of_views (both.readable_direct_later fits.held fits.apart)
      (both.readable_other_later fits)
    exact both.twin.view_other later fits.counts setting.enumCases

end SideBySide

end Pthreads.Store
