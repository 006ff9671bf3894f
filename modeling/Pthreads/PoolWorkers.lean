import Pthreads.GuardedRuns
import Pthreads.OrderedTable
import Mathlib.Algebra.Ring.Int.Defs

/-!
# The workers of a pool

A Pool of `src/classes/pool.c` keeps its workers in a PHP array, creates them one
by one at the rotating index `last`, and removes them again in `resize` and
`shutdown`.  A worker is known by its handle; what the pool calls on it is
recorded in the order of the calls, which no method reads.  Construction and
start of a worker succeed.
-/

namespace Pthreads.PoolWorkers

/-- The methods that a pool calls on its workers. -/
inductive Call where
  | start
  | stack (task : Nat)
  | collect
  | shutdown
deriving DecidableEq, Repr

abbrev Workers := OrderedTable Int Nat

structure Pool where
  size : Int
  last : Int
  /-- `class`, unless it is not a string. -/
  className : Option String
  /-- `workers`, unless it is not an array. -/
  workers : Option Workers
  /-- The number of workers constructed so far. -/
  made : Nat
  /-- The calls on the workers. -/
  calls : List (Nat × Call)

/-- What a method returns or throws. -/
inductive Outcome where
  | void
  | value (number : Int)
  | exception (message : String)
deriving DecidableEq, Repr

/-- `Pool::__construct` with a class that extends `Worker`. -/
def construct (size : Int) (className : String) : Pool where
  size := size
  last := 0
  className := some className
  workers := none
  made := 0
  calls := []

/-- The workers, with an array if there is none. -/
def Pool.table (pool : Pool) : Workers := pool.workers.getD OrderedTable.empty

def Workers.count (workers : Workers) : Nat := workers.entries.length

/-- The loop of `Pool::resize`, with the workers it shuts down.  An iteration that
finds no worker at the last index changes nothing, and so does every later one:
the loop then never ends, and there is no result for any fuel. -/
def resizeLoop (newSize : Int) : Nat → Workers → Option (Workers × List Nat)
  | 0, _ => none
  | fuel + 1, workers =>
      let top : Int := Workers.count workers
      let shut := (workers.find (top - 1)).toList
      let left := workers.delete (top - 1)
      if (Workers.count left : Int) ≠ newSize then
        (resizeLoop newSize fuel left).map fun (last, later) => (last, shut ++ later)
      else
        some (left, shut)

/-- `Pool::resize`, if it returns. -/
def resize (pool : Pool) (newSize : Int) : Option (Pool × Outcome) :=
  match pool.workers with
  | none => some ({ pool with size := newSize }, .void)
  | some workers =>
      if newSize < Workers.count workers then
        (resizeLoop newSize (Workers.count workers) workers).map fun (left, shut) =>
          ({ pool with
              size := newSize
              workers := some left
              calls := pool.calls ++ shut.map fun worker => (worker, .shutdown) }, .void)
      else
        some ({ pool with size := newSize }, .void)

/-- `Pool::submit` on the selected worker. -/
def submitSelected (pool : Pool) (worker task : Nat) : Pool × Outcome :=
  ({ pool with last := pool.last + 1, calls := pool.calls ++ [(worker, .stack task)] },
    .value pool.last)

/-- `Pool::submit`. -/
def submit (classExists : String → Bool) (pool : Pool) (task : Nat) : Pool × Outcome :=
  let pool := { pool with
    workers := some pool.table
    last := if pool.last ≥ pool.size then 0 else pool.last }
  match pool.table.find pool.last with
  | some worker => submitSelected pool worker task
  | none =>
      match pool.className with
      | none =>
          (pool, .exception
            "this Pool has not been initialized properly, Worker class not valid")
      | some name =>
          if classExists name then
            submitSelected { pool with
              workers := some (pool.table.update pool.last pool.made)
              made := pool.made + 1
              calls := pool.calls ++ [(pool.made, .start)] } pool.made task
          else
            (pool, .exception ("this Pool has not been initialized properly, the Worker class " ++
              name ++ " could not be found"))

/-- `Pool::submitTo`. -/
def submitTo (pool : Pool) (worker : Int) (task : Nat) : Pool × Outcome :=
  let pool := { pool with workers := some pool.table }
  match pool.table.find worker with
  | some selected =>
      ({ pool with calls := pool.calls ++ [(selected, .stack task)] }, .value worker)
  | none =>
      (pool, .exception ("The selected worker (" ++ toString worker ++ ") does not exist"))

/-- `Pool::collect`; every worker answers with the number of tasks it has left. -/
def collect (pool : Pool) (sizes : Nat → Int) : Pool × Outcome :=
  match pool.workers with
  | none => (pool, .value 0)
  | some workers =>
      let asked := workers.entries.map Prod.snd
      ({ pool with calls := pool.calls ++ asked.map fun worker => (worker, .collect) },
        .value (asked.map sizes).sum)

/-- `Pool::shutdown`. -/
def shutdown (pool : Pool) : Pool × Outcome :=
  match pool.workers with
  | none => (pool, .void)
  | some workers =>
      ({ pool with
          workers := some OrderedTable.empty
          calls := pool.calls ++ workers.entries.map fun entry => (entry.2, .shutdown) }, .void)

inductive Action where
  | submit (task : Nat)
  | submitTo (worker : Int) (task : Nat)
  | collect (sizes : Nat → Int)
  | resize (newSize : Int)
  | shutdown

/-- The pool after a call that returns. -/
def step (classExists : String → Bool) (pool : Pool) : Action → Option Pool
  | .submit task => some (PoolWorkers.submit classExists pool task).1
  | .submitTo worker task => some (PoolWorkers.submitTo pool worker task).1
  | .collect sizes => some (PoolWorkers.collect pool sizes).1
  | .resize newSize => (PoolWorkers.resize pool newSize).map Prod.fst
  | .shutdown => some (PoolWorkers.shutdown pool).1

end Pthreads.PoolWorkers
