import LayoutPlanner.Graph.Resolve

/-!
# Editing edges

Reorders are put on edges, edges are moved between producers, and a reorder is given a new target.
All three keep the lists of readers in step with the edges.
-/

namespace LayoutPlanner

/-- Inserts a value in front of the first occurrence of `mark`, or at the end if there is none. -/
def insertBefore {α : Type} [DecidableEq α] (mark value : α) : List α → List α
  | [] => [value]
  | head :: rest =>
    if head = mark then value :: head :: rest else head :: insertBefore mark value rest

namespace Graph

/-- Points a slot of `consumer` at another edge. -/
def reroute? (g : Graph) (consumer : NodeId) (slot : Nat) (edge : Edge) : Option Graph := do
  let previous ← g.dep? consumer slot
  let g ← g.update? consumer fun node => { node with deps := node.deps.set slot edge }
  let node ← g.node? consumer
  let g ← if node.deps.any (·.node == previous.node) then some g
    else g.update? previous.node (Node.dropReader consumer)
  let g ← g.update? edge.node (Node.addReader consumer)
  g.update? consumer Node.stale

/-- The reorder that `input` needs in order to be read as `target`. -/
def reorderFor (g : Graph) (input : Input) (target : Layout) (reason : ReorderReason) : Node where
  id := ⟨g.size⟩
  name := s!"{input.producer.name}_{reason.tag}_reorder{g.size}"
  op := .reorder
  attrs := .reorder
    { sourceFormat := input.layout.format, sourceType := input.layout.dtype, reason }
  deps := [input.edge]
  outputs := [target]
  layoutValid := true

/-- Interposes a reorder that produces `target` on the edge feeding a slot.  It is computed right
before its consumer. -/
def interpose? (g : Graph) (consumer : NodeId) (slot : Nat) (target : Layout)
    (reason : ReorderReason) : Option (Graph × NodeId) := do
  let input ← g.input? consumer slot
  let reorder := g.reorderFor input target reason
  let id := reorder.id
  let g ← { g with nodes := g.nodes ++ [reorder] : Graph }.refresh? id
  let g ← g.update? input.edge.node fun node => { node with users := node.users ++ [id] }
  let g ← g.reroute? consumer slot ⟨id, 0⟩
  return ({ g with order := insertBefore consumer id g.order }, id)

/-- Replaces the layout that a reorder produces.  It goes on reading the same edge. -/
def setTarget? (g : Graph) (id : NodeId) (target : Layout) : Option Graph := do
  let node ← g.node? id
  let _ ← node.outputs[0]?
  let g ← g.update? id fun node => { node with outputs := node.outputs.set 0 target }
  (← g.refresh? id).markStale? node.users

end Graph

end LayoutPlanner
