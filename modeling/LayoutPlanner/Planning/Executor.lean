import LayoutPlanner.Planning.Config

/-!
# Executors

An executor runs a batch of independent tasks.  All that matters about it is the order in which it
runs them: each task exactly once, whatever their number.
-/

namespace LayoutPlanner

structure Executor where
  name : String
  /-- The order in which `n` tasks are run, as a list of their indices. -/
  order : (n : Nat) → List Nat
  order_perm : ∀ n, (order n).Perm (List.range n)

namespace Executor

/-- One task after the other, in the order of submission. -/
def serial : Executor where
  name := "serial"
  order := List.range
  order_perm _ := .refl _

/-- One task after the other, the last one first. -/
def reversed : Executor where
  name := "reverse"
  order n := (List.range n).reverse
  order_perm _ := List.reverse_perm _

/-- The order in which a batch is run.  The batch must fit in memory. -/
def schedule? (executor : Executor) (n : Nat) : Option (List Nat) :=
  if Size.canHold n 16 then some (executor.order n) else none

end Executor

/-- A pool of worker threads.  With zero threads it is the pool that everyone shares. -/
structure WorkerPool where
  threads : Nat

namespace WorkerPool

/-- Threads that a pool really has: 65535 are the most. -/
def workers (pool : WorkerPool) : Nat :=
  min pool.threads 65535

/-- Tasks are handed out in the order of submission. -/
def executor (_ : WorkerPool) : Executor :=
  { Executor.serial with name := "rayon" }

/-- The pool as diagnostics show it. -/
def inspect (pool : WorkerPool) : String :=
  "RayonExecutor \x7b threads: " ++ toString pool.workers ++ " \x7d"

end WorkerPool

/-- The executor a configuration asks for. -/
def Config.executor (config : Config) : Executor :=
  if config.parallelBuild then (WorkerPool.mk config.buildThreads).executor else .serial

end LayoutPlanner
