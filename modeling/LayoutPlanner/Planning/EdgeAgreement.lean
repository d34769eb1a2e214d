import LayoutPlanner.Planning.LegalLayout

/-!
# Edge agreement

Makes the two ends of every edge agree on layout by inserting reorders.  Nodes are visited
in processing order: the targeted repairs come first, then the search for a legal layout, and last
every real input is reconciled with what the node wants on its slot.
-/

namespace LayoutPlanner

namespace Reconciliation

def stageName : String :=
  "reorder_insertion"

/-- Everything that is done about one node. -/
def repairNode? (s : Reconciliation) (cx : Context) (id : NodeId) : Option Reconciliation := do
  let s := s.withGraph (← s.graph.settle? id)
  let s ← s.convertState? id
  let s ← if cx.config.optimizeLayout then s.reorderOperands? id else some s
  let s ← s.unpadNormalization? id
  let s ← s.unpadVendor? id
  let s ← s.legalize? cx id
  if s.failure.isSome then return s else s.reconcile? id

/-- Visits one node.  Sources and reorders are left alone, and after a failure everything is. -/
def visit? (cx : Context) (s : Reconciliation) (id : NodeId) : Option Reconciliation := do
  let node ← s.graph.node? id
  if s.failure.isSome || node.deps.isEmpty || node.isReorder then return s
  else s.repairNode? cx id

/-- What the visits amount to. -/
def outcome (s : Reconciliation) : Outcome :=
  match s.failure with
  | some error => { graph := s.graph, trace := s.trace, result := .error error }
  | none =>
    { graph := s.graph
      trace := s.trace ++ [.event (.passFinished stageName s.report.changed)]
      result := .ok s.report }

/-- Visits the nodes that were there at the start, in processing order. -/
def run? (cx : Context) (g : Graph) : Option Outcome := do
  return (← g.order.foldlM (visit? cx) { graph := g }).outcome

end Reconciliation

end LayoutPlanner
