import LayoutPlanner.Graph.Basic

/-!
# Topology

A processing order is sound when every node has outputs and reads only outputs of nodes that
come before it.
-/

namespace LayoutPlanner

inductive TopologyError where
  | useBeforeDefinition (consumer producer : NodeId)
  | missingOutput (consumer producer : NodeId) (index outputs : Nat)
  | noOutputs (node : NodeId)
  deriving DecidableEq

def TopologyError.message : TopologyError → String
  | useBeforeDefinition consumer producer =>
    s!"node {consumer} reads {producer} before it is produced"
  | missingOutput consumer producer index outputs =>
    s!"node {consumer} reads output {index} of {producer}, which has {outputs} outputs"
  | noOutputs node => s!"node {node} declares no output layouts"

namespace Graph

/-- Checks the edges of one node, in slot order, against the nodes produced so far. -/
def checkEdges? (g : Graph) (available : List NodeId) (consumer : NodeId) :
    List Edge → Option (Except TopologyError Unit)
  | [] => some (.ok ())
  | edge :: rest => do
    if available.contains edge.node then
      let outputs := (← g.node? edge.node).outputs.length
      if edge.output < outputs then g.checkEdges? available consumer rest
      else return .error (.missingOutput consumer edge.node edge.output outputs)
    else return .error (.useBeforeDefinition consumer edge.node)

/-- Checks the nodes listed, given those produced so far. -/
def checkOrder? (g : Graph) (available : List NodeId) :
    List NodeId → Option (Except TopologyError Unit)
  | [] => some (.ok ())
  | id :: rest => do
    let node ← g.node? id
    if node.outputs.isEmpty then return .error (.noOutputs node.id)
    else
      match ← g.checkEdges? available node.id node.deps with
      | .error error => return .error error
      | .ok _ => g.checkOrder? (node.id :: available) rest

/-- The first fault of the processing order, if it has one. -/
def checkTopology? (g : Graph) : Option (Except TopologyError Unit) :=
  g.checkOrder? [] g.order

end Graph

end LayoutPlanner
