import LayoutPlanner.Graph.Rewire
import LayoutPlanner.Planning.Report

/-!
# Placing reorders

The state of edge agreement, and the one operation that all of its repairs end in: a slot is to
be read with another layout.

A run never puts two reorders in a row on an edge.  If a reorder of this run feeds the slot
already, that reorder gets the new target, unless something else reads it too.  And two slots that
need the same layout from the same edge share one reorder.
-/

namespace LayoutPlanner

/-- What a reorder does: it reads an edge and produces a layout. -/
structure Conversion where
  source : Edge
  target : Layout
  deriving DecidableEq

structure Reconciliation where
  graph : Graph
  /-- The reorders of this run by what they do. -/
  conversions : List (Conversion × NodeId) := []
  /-- All reorders of this run. -/
  created : List NodeId := []
  report : Report := {}
  trace : Trace := []
  failure : Option PlanningError := none

namespace Reconciliation

def withGraph (s : Reconciliation) (graph : Graph) : Reconciliation :=
  { s with graph }

def tell (s : Reconciliation) (entry : TraceEntry) : Reconciliation :=
  { s with trace := s.trace ++ [entry] }

def changed (s : Reconciliation) : Reconciliation :=
  { s with report := { s.report with changed := true } }

def isCreated (s : Reconciliation) (id : NodeId) : Bool :=
  s.created.contains id

/-- The reorder of this run that does the conversion. -/
def reorderFor? (s : Reconciliation) (conversion : Conversion) : Option NodeId :=
  (s.conversions.find? (·.1 == conversion)).map (·.2)

/-- Notes that a reorder does a conversion, instead of whichever did it before. -/
def learn (s : Reconciliation) (conversion : Conversion) (reorder : NodeId) : Reconciliation :=
  { s with
    conversions := (conversion, reorder) :: s.conversions.filter (·.1 != conversion) }

/-- Forgets what a reorder does. -/
def unlearn (s : Reconciliation) (reorder : NodeId) : Reconciliation :=
  { s with conversions := s.conversions.filter (·.2 != reorder) }

/-- Whether a reorder feeds anything besides one slot of one consumer. -/
def isShared (reorder : Node) (reorderId consumerId : NodeId) (consumer : Node) (slot : Nat) :
    Bool :=
  reorder.users.any (· != consumerId) ||
    consumer.deps.zipIdx.any fun (edge, other) => other != slot && edge.node == reorderId

/-- Gives the reorder that feeds a slot a new target.  One that feeds other slots too stays as it
is; the slot is then pointed back at the reorder's source and still needs a reorder.  The answer
tells whether the slot is served. -/
def repurpose? (s : Reconciliation) (consumer : NodeId) (slot : Nat) (reorder : NodeId)
    (target : Layout) : Option (Reconciliation × Bool) := do
  let node ← s.graph.node? reorder
  let source ← node.deps[0]?
  if isShared node reorder consumer (← s.graph.node? consumer) slot then
    return (s.withGraph (← s.graph.reroute? consumer slot source), false)
  else
    let s := (s.unlearn reorder).learn ⟨source, target⟩ reorder
    return ((s.withGraph (← s.graph.setTarget? reorder target)).changed, true)

/-- Feeds a slot from a reorder of this run that does the conversion already. -/
def reuse? (s : Reconciliation) (consumer : NodeId) (slot : Nat) (reorder : NodeId) :
    Option Reconciliation := do
  return (s.withGraph (← s.graph.reroute? consumer slot ⟨reorder, 0⟩)).changed

/-- Feeds a slot from a new reorder. -/
def create? (s : Reconciliation) (consumer : NodeId) (slot : Nat) (target : Layout)
    (reason : ReorderReason) : Option Reconciliation := do
  let input ← s.graph.input? consumer slot
  let (graph, reorder) ← s.graph.interpose? consumer slot target reason
  let s := { s.learn ⟨input.edge, target⟩ reorder with
    graph
    created := reorder :: s.created
    report := { s.report with
      reordersInserted := s.report.reordersInserted + 1
      changed := true } }
  return s.tell <| .event <| .reorderInserted {
    reorder, producer := input.edge.node, consumer, slot
    source := input.layout.key, target := target.key, reason }

/-- Makes a slot read `target`. -/
def convert? (s : Reconciliation) (consumer : NodeId) (slot : Nat) (target : Layout)
    (reason : ReorderReason) : Option Reconciliation := do
  let current ← s.graph.dep? consumer slot
  let (s, served) ←
    if s.isCreated current.node then s.repurpose? consumer slot current.node target
    else some (s, false)
  if served then
    return s
  else
    let edge ← s.graph.dep? consumer slot
    match s.reorderFor? ⟨edge, target⟩ with
    | some reorder => s.reuse? consumer slot reorder
    | none => s.create? consumer slot target reason

end Reconciliation

end LayoutPlanner
