import LayoutPlanner.Planning.Executor
import LayoutPlanner.Planning.Selection
import LayoutPlanner.Planning.Trace

/-!
# Runs and their reports

A planning stage turns a graph into a graph.  It leaves a trace, and ends in a report of what it
did or in an error.  The graph and the trace are there in either case.
-/

namespace LayoutPlanner

/-- What a stage did. -/
structure Report where
  changed : Bool := false
  preferencesRecorded : Nat := 0
  reordersInserted : Nat := 0
  demotions : Nat := 0
  implementationsBuilt : Nat := 0
  /-- Nodes with dynamic shapes whose implementation is left to the first run. -/
  deferred : Nat := 0
  deriving DecidableEq

namespace Report

/-- The report on two stages together. -/
def merge (first second : Report) : Report where
  changed := first.changed || second.changed
  preferencesRecorded := first.preferencesRecorded + second.preferencesRecorded
  reordersInserted := first.reordersInserted + second.reordersInserted
  demotions := first.demotions + second.demotions
  implementationsBuilt := first.implementationsBuilt + second.implementationsBuilt
  deferred := first.deferred + second.deferred

/-- The report with every count as a 64-bit word.  A count that outgrows the word starts again from
zero. -/
def asWords (report : Report) : Report where
  changed := report.changed
  preferencesRecorded := report.preferencesRecorded % Size.limit
  reordersInserted := report.reordersInserted % Size.limit
  demotions := report.demotions % Size.limit
  implementationsBuilt := report.implementationsBuilt % Size.limit
  deferred := report.deferred % Size.limit

end Report

/-- What every stage of a run works with. -/
structure Context where
  catalog : Catalog
  config : Config := {}
  executor : Executor := .serial

/-- Where a run ended. -/
structure Outcome where
  graph : Graph
  trace : Trace
  result : Except PlanningError Report

end LayoutPlanner
