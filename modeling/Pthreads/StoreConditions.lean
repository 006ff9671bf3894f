import Pthreads.StoreCopyEffects

/-!
# Where the cache of the property store can be trusted

The count of modifications moves only when a cacheable storage is replaced, but
strings are cached whatever their storage, and a write does not evict what it
cannot cache.  This file states, for an action in the state where it is taken,
that it stays clear of these gaps: of the first one for the other connections, of
the second one for its own.  Handles are addresses, so it also says that no new
object is placed at an address that the table still holds.
-/

namespace Pthreads.Store

open ObjectRegistry

/-- The Threaded object that a value refers to. -/
def referent : Zval → Option Nat
  | .threaded address => some address
  | .reference target => referent target
  | .indirect slot => referent slot
  | _ => none

theorem refersTo_iff (address : Nat) :
    ∀ value : Zval, refersTo address value = true ↔ referent value = some address
  | .threaded other => by simp [refersTo, referent]
  | .reference target => refersTo_iff address target
  | .indirect slot => refersTo_iff address slot
  | .undef | .null | .bool _ | .long _ | .double _ | .string _ | .array _ | .closure _
  | .socket _ _ | .enumCase _ _ | .object _ | .resource _ => by simp [refersTo, referent]

/-- The addresses at which an action may place a new object. -/
def State.placements (state : State) : Action → List Nat
  | .construct _ _ defaults fresh => defaults.map fun element => (fresh element.1).newAddress
  | .read _ _ _ fresh => [fresh.newAddress]
  | .write _ _ _ _ fresh => [fresh.newAddress]
  | .mergeArray _ source _ _ fresh => source.map fun element => (fresh element.1).newAddress
  | .shift _ fresh | .pop _ fresh | .chunk _ _ fresh | .toHash _ _ fresh | .toOwnHash _ fresh
  | .fullSync _ fresh => state.props.hash.table.keys.map fun key => (fresh key).newAddress
  | .registry (.alloc address) => [address]
  | .registry (.restore _ _ newAddress _) => [newAddress]
  | _ => []

/-- The values that an action writes. -/
def Action.values : Action → List Zval
  | .construct _ _ defaults _ => defaults.map Prod.snd
  | .write _ _ value _ _ => [value]
  | .mergeArray _ source _ _ _ => source.map Prod.snd
  | _ => []

/-- No object under construction stands at the address. -/
def settledAt (registry : Registry) (address : Nat) : Bool :=
  (registry.zobjs address).all fun zobj => zobj.fresh = false ∧ zobj.tsObj.isSome

/-- The address that a storage of the value would hold leads to the shared object
of the value, or nothing stands there or is about to. -/
def savedWell (registry : Registry) (placements : List Nat) (value : Zval) : Bool :=
  ((referent value).bind fun address =>
    (registry.zobjs address).map fun zobj => (zobj.tsObj, savedAddress zobj address)).all
      fun (tsObj, kept) => settledAt registry kept &&
        match registry.zobjs kept with
        | none => decide (kept ∉ placements)
        | some origin => decide (origin.tsObj = tsObj)

/-- The storages that an action copies from another object. -/
def Action.storages : Action → List Storage
  | .mergeThreaded _ source _ _ => source.map Prod.snd
  | _ => []

/-- No new object is placed at an address that a storage of the table holds, and
the handles that the action adds are not outdated. -/
def State.handlesKept (state : State) (action : Action) : Bool :=
  ((state.placements action).all fun address =>
    state.props.hash.table.entries.all fun entry => entry.2 ≠ .pthreads address) &&
  (action.storages.all fun
    | .pthreads address => settledAt state.registry address
    | _ => true) &&
  action.values.all (savedWell state.registry (state.placements action))

/-- The store accepts the value. -/
def accepts (registry : Registry) (coerceArrays : Bool) : Zval → Bool
  | .array _ => coerceArrays
  | value => (saveZval registry 0 value).isSome

/-- The keys that an action replaces or removes. -/
def State.targets (state : State) : Action → List Key
  | .write _ key value coerceArrays _ =>
      if accepts state.registry coerceArrays value then
        [(key.map coerce).getD (appendKey state.props)]
      else []
  | .delete _ key => [coerce key].filter fun member => (state.props.hash.find member).isSome
  | .shift _ _ => state.props.hash.table.keys.take 1
  | .pop _ _ => state.props.hash.table.keys.getLast?.toList
  | .chunk _ size _ => state.props.hash.table.keys.take size.toNat
  | .mergeThreaded _ source overwrite _ =>
      (source.map Prod.fst).filter fun key => overwrite || (state.props.hash.find key).isNone
  | .mergeArray _ source overwrite coerceArrays _ =>
      (source.filter fun element => (overwrite || (state.props.hash.find element.1).isNone) &&
        accepts state.registry coerceArrays element.2).map fun element => coerce element.1.toZval
  | _ => []

/-- The connection is in sync and has a value for the key, or will have one after
the work it still has to do. -/
def Connection.trusts (connection : Connection) (declared : List Key) (props : Props)
    (key : Key) : Bool :=
  connection.localPropsModcount = props.modcount ∧
    ((finishPending declared connection).cached key).isSome

/-- The connection that an action modifies the table through. -/
def Action.modifier : Action → Option Nat
  | .write connection _ _ _ _ | .delete connection _ | .shift connection _ | .pop connection _
  | .chunk connection _ _ | .mergeThreaded connection _ _ _ | .mergeArray connection _ _ _ _ =>
      some connection
  | _ => none

/-- The action moves the count, or no other connection trusts an entry that the
action makes outdated. -/
def State.othersNotMisled (state : State) (action : Action) : Bool :=
  (state.targets action).any (memberIsCacheable state.props) ||
    (state.targets action).all fun key => state.connections.entries.all fun entry =>
      some entry.1 = action.modifier || !entry.2.trusts state.declared state.props key

/-- A write does not leave the entry of a value behind that the local table does
not take. -/
def State.writerNotMisled (state : State) : Action → Bool
  | .write connection key value coerceArrays _ =>
      retainedWrite coerceArrays value || !accepts state.registry coerceArrays value ||
        (state.idle connection).all fun found => !found.trusts state.declared state.props
          ((key.map coerce).getD (appendKey state.props))
  | .mergeArray connection source overwrite coerceArrays fresh =>
      (state.idle connection).all fun found => source.all fun element =>
        retainedWrite coerceArrays element.2 ||
        coerce element.1.toZval ∉
          state.targets (.mergeArray connection source overwrite coerceArrays fresh) ||
        ((found.cached (coerce element.1.toZval)).isNone && source.all fun other =>
          !retainedWrite coerceArrays other.2 ||
            coerce other.1.toZval ≠ coerce element.1.toZval)
  | _ => true

/-- What an action must meet so that the caches can be trusted: by the connection
that modified a key last, or by the others. -/
def State.trustworthy (own : Bool) (state : State) (action : Action) : Bool :=
  state.handlesKept action &&
    if own then state.writerNotMisled action else state.othersNotMisled action

end Pthreads.Store
