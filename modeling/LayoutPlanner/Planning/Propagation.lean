import LayoutPlanner.Graph.Resolve
import LayoutPlanner.Planning.Report

/-!
# Format propagation

One forward sweep that records, for every node, the formats its candidate would like to have.
Vendor routines are judged as if padding had been removed already.
-/

namespace LayoutPlanner

namespace Propagation

def stageName : String :=
  "format_propagation"

/-- The nodes visited so far have left this behind. -/
structure State where
  graph : Graph
  report : Report := {}

def State.changed (s : State) : State :=
  { s with report := { s.report with changed := true } }

/-- Takes a preference over and settles the node's outputs anew. -/
def record? (s : State) (id : NodeId) (preference : FormatPreference) : Option State := do
  let g ← s.graph.update? id fun node => { node with prefers := node.prefers.overlay preference }
  let g ← (← g.invalidate? id).settle? id
  let report := { s.report with
    preferencesRecorded := s.report.preferencesRecorded + 1
    changed := true }
  return { graph := g, report }

/-- A permute that nothing reads, with a single input, which leaves the batch and feature axes in
place. -/
def isFoldable (node : Node) : Bool :=
  match node.attrs with
  | .permute order =>
    node.op == .permute && node.users.isEmpty && node.deps.length == 1 && fixesLeadingAxes order
  | _ => false

/-- Puts a node and the permute that reads it into one format; the permute becomes eliminable. -/
def fold? (g : Graph) (id permute : NodeId) (format : Format) : Option Graph := do
  let g ← g.forceOutput? id 0 format
  let g ← g.update? permute fun node => { node with prefers := node.prefers.setInput 0 format }
  let g ← g.forceOutput? permute 0 format
  g.update? permute fun node => { node with eliminable := true }

/-- Folds a permute into the node whose only reader it is, if the node's format fits its rank. -/
def foldPermute? (s : State) (id : NodeId) : Option State := do
  let node ← s.graph.node? id
  match node.users with
  | [user] =>
    let permute ← s.graph.node? user
    if isFoldable permute then
      let format := (← node.outputs[0]?).format
      let target ← permute.outputs[0]?
      if format.fits target.rank then
        return { s with graph := ← fold? s.graph id user format }.changed
      else return s
    else return s
  | _ => return s

/-- Notes the candidate found for a node, and its preference if it has one. -/
def adopt? (s : State) (id : NodeId) (candidate : Capability) (seen : NodeView) :
    Option State := do
  let g ← s.graph.update? id fun node => { node with selected := some candidate.kind }
  let s := { s with graph := g }
  let s ← match candidate.preference seen with
    | some preference => record? s id preference
    | none => some s
  if candidate.kind = .vendor ∧ seen.op.isCompute then foldPermute? s id else return s

/-- Visits one node.  Constants and folded permutes are left alone, and so is a node without a
candidate once its outputs are settled. -/
def visit? (catalog : Catalog) (s : State) (id : NodeId) : Option State := do
  if !(← s.graph.node? id).op.isDataFlow then
    return s
  else
    let s := { s with graph := ← s.graph.settle? id }
    let node ← s.graph.node? id
    if node.eliminable then
      return s
    else
      let plain ← s.graph.view? id
      let unpadded ← s.graph.unpaddedView? id
      match catalog.candidateUnpadded? plain unpadded (.ofPin node.pinned) with
      | none => return s
      | some (candidate, seen) => adopt? s id candidate seen

/-- Visits the nodes in processing order. -/
def run? (cx : Context) (g : Graph) : Option Outcome := do
  let s ← g.order.foldlM (visit? cx.catalog) { graph := g }
  return {
    graph := s.graph
    trace := [.event (.passFinished stageName s.report.changed)]
    result := .ok s.report }

end Propagation

end LayoutPlanner
