import LayoutPlanner.Graph.Resolve
import LayoutPlanner.Planning.Report

/-!
# Building implementations

Every node that needs one gets its implementation.  Output layouts are settled first; after that the
builds only read the graph, so that they can run in any order.  Nothing is stored unless all of
them succeed.
-/

namespace LayoutPlanner

namespace Construction

def stageName : String :=
  "parallel_compile"

/-- What one build task comes to. -/
inductive TaskResult where
  | built (assignment : Assignment)
  /-- The shapes are not known yet, and nothing serves the node as it is. -/
  | deferred
  | failed (error : PlanningError)
  deriving DecidableEq

def TaskResult.error? : TaskResult → Option PlanningError
  | failed error => some error
  | built _ | deferred => none

/-- Failed builds are logged when they happen; the other failures are not. -/
def TaskResult.log : TaskResult → Trace
  | failed (.build node _ descriptor causes) =>
    [.message ⟨.error, s!"{descriptor} failed to build {node}: {PlanningError.chain causes}"⟩]
  | _ => []

/-- Constants need no implementation, and neither does a buffer that nothing feeds. -/
def needsImplementation (node : Node) : Bool :=
  !node.isConstant && node.implementation.isNone &&
    !(node.op == .mutableBuffer && node.deps.isEmpty)

/-- A pin to the host is kept; every other node may use any kind. -/
def buildMask (node : Node) : KindMask :=
  if node.pinned = some .host then .only .host else .any

def buildTask (catalog : Catalog) (view : NodeView) : TaskResult :=
  match catalog.choose view (buildMask view.node) with
  | .chosen assignment => .built assignment
  | .crashed message => .failed (.taskCrashed view.id message)
  | .refused (.noImplementation node op requested shape formats) =>
    if view.shapeClass.isDynamic then .deferred
    else .failed (.noImplementation node op requested shape formats)
  | .refused error => .failed error

/-- Settles the outputs of every node that is not a constant, in processing order. -/
def settleAll? (g : Graph) : Option Graph :=
  g.order.foldlM (fun g id => do
    if (← g.node? id).isConstant then return g else g.settle? id) g

/-- The nodes to build, in processing order. -/
def pending? (g : Graph) : Option (List NodeId) := do
  return (← g.order.mapM fun id => do return (id, ← g.node? id)).filterMap
    fun (id, node) => if needsImplementation node then some id else none

def install (handle : Handle) (node : Node) : Node :=
  { node with selected := some handle.kind, implementation := some handle }

/-- Stores the result of one task. -/
def store? (state : Graph × Report) (task : NodeId × TaskResult) : Option (Graph × Report) := do
  let (g, report) := state
  let (id, result) := task
  let g ← g.refresh? id
  match result with
  | .built assignment =>
    return (← g.update? id (install assignment.handle),
      { report with implementationsBuilt := report.implementationsBuilt + 1 })
  | .deferred => return (g, { report with deferred := report.deferred + 1 })
  | .failed _ => return (g, report)

/-- The results in the order in which the executor runs the tasks. -/
def inRunOrder (executor : Executor) (results : List TaskResult) : List TaskResult :=
  (executor.order results.length).filterMap (results[·]?)

def run? (cx : Context) (g : Graph) : Option Outcome := do
  let g ← settleAll? g
  let ids ← pending? g
  let results := (← ids.mapM g.view?).map (buildTask cx.catalog)
  let executor := if cx.config.parallelBuild then cx.executor else .serial
  let ran := inRunOrder executor results
  let log := ran.flatMap TaskResult.log
  match ran.findSome? TaskResult.error? with
  | some error => return { graph := g, trace := log, result := .error error }
  | none =>
    let (g, report) ← (ids.zip results).foldlM store? (g, {})
    let report := { report with changed := report.implementationsBuilt > 0 }
    return {
      graph := g
      trace := log ++ [.event (.passFinished stageName report.changed)]
      result := .ok report }

end Construction

end LayoutPlanner
