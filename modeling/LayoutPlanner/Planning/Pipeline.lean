import LayoutPlanner.Planning.Construction
import LayoutPlanner.Planning.EdgeAgreement
import LayoutPlanner.Planning.Propagation

/-!
# Pipelines

The planning stages and runs of several of them.  The usual run records preferences, makes the
edges agree, and builds the implementations.
-/

namespace LayoutPlanner

inductive Stage where
  | propagation
  | agreement
  | construction
  deriving DecidableEq

namespace Stage

def name : Stage → String
  | propagation => Propagation.stageName
  | agreement => Reconciliation.stageName
  | construction => Construction.stageName

instance : Vocabulary Stage where
  members := [propagation, agreement, construction]
  word := name

def run? : Stage → Context → Graph → Option Outcome
  | propagation => Propagation.run?
  | agreement => Reconciliation.run?
  | construction => Construction.run?

end Stage

namespace Pipeline

def standard : List Stage :=
  [.propagation, .agreement, .construction]

/-- Runs the stages one after the other, up to the first error.  `total` and `trace` are from the
stages before. -/
def runStages? (cx : Context) (g : Graph) (total : Report) (trace : Trace) :
    List Stage → Option Outcome
  | [] => some { graph := g, trace, result := .ok total }
  | stage :: rest => do
    let outcome ← stage.run? cx g
    let trace := trace ++ outcome.trace
    match outcome.result with
    | .error error => return { graph := outcome.graph, trace, result := .error error }
    | .ok report => runStages? cx outcome.graph (total.merge report) trace rest

/-- The closing words of a run that went well. -/
def summary (g : Graph) (total : Report) : LogLine where
  level := .info
  message := s!"compiled {g.size} nodes: {total.reordersInserted} reorders, " ++
    s!"{total.demotions} demotions, {total.implementationsBuilt} implementations, " ++
    s!"{total.deferred} deferred"

/-- Checks the topology and runs the stages. -/
def run? (stages : List Stage) (cx : Context) (g : Graph) : Option Outcome := do
  match ← g.checkTopology? with
  | .error error => return { graph := g, trace := [], result := .error (.topology error) }
  | .ok _ =>
    let outcome ← runStages? cx g {} [] stages
    match outcome.result with
    | .error _ => return outcome
    | .ok total =>
      return { outcome with trace := outcome.trace ++ [.message (summary outcome.graph total)] }

end Pipeline

/-- Plans a graph with the standard pipeline. -/
def plan? (cx : Context) (g : Graph) : Option Outcome :=
  Pipeline.run? Pipeline.standard cx g

/-- Plans a graph with the executor that the configuration asks for. -/
def compile? (catalog : Catalog) (config : Config) (g : Graph) : Option Outcome :=
  plan? { catalog, config, executor := config.executor } g

end LayoutPlanner
