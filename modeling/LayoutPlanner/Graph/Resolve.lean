import LayoutPlanner.Graph.Basic

/-!
# Settling output formats

A node's output layouts are stale after one of its edges or preferences changed.  Settling them
chooses a format for every output and marks the readers stale when a format changed.
-/

namespace LayoutPlanner

namespace Node

def stale (node : Node) : Node :=
  { node with layoutValid := false }

/-- The format of an output: the preferred one where it fits the rank, else the one chosen
before, else the first inherited one that fits, else the default of the rank. -/
def settledFormat (node : Node) (inherited : List Format) (index : Nat) (current : Layout) :
    Format :=
  let preferred := node.prefers.output index
  if preferred.fits current.rank then preferred
  else if current.format.isChosen then current.format
  else (inherited.find? (·.fits current.rank)).getD (.defaultFor current.rank)

/-- All outputs with their settled formats. -/
def settledOutputs (node : Node) (inherited : List Format) : List Layout :=
  node.outputs.mapIdx fun index current =>
    current.withFormat (node.settledFormat inherited index current)

end Node

namespace Graph

/-- Marks nodes stale. -/
def markStale? (g : Graph) (ids : List NodeId) : Option Graph :=
  g.updateAll? ids Node.stale

/-- Marks a node and its readers stale. -/
def invalidate? (g : Graph) (id : NodeId) : Option Graph := do
  let node ← g.node? id
  (← g.update? id Node.stale).markStale? node.users

/-- The formats found on the real inputs, in slot order. -/
def inheritedFormats? (g : Graph) (id : NodeId) : Option (List Format) := do
  return ((← g.inputs? id).filter Input.isReal).map (·.layout.format)

/-- Settles the outputs of a stale node and reports whether a format changed. -/
def resolve? (g : Graph) (id : NodeId) : Option (Graph × Bool) := do
  let node ← g.node? id
  if node.layoutValid then
    return (g, false)
  else
    let outputs := node.settledOutputs (← g.inheritedFormats? id)
    let changed := outputs != node.outputs
    let g ← g.update? id fun node => { node with outputs, layoutValid := true }
    let g ← g.refresh? id
    let g ← if changed then g.markStale? node.users else some g
    return (g, changed)

/-- Settles the outputs of a stale node. -/
def settle? (g : Graph) (id : NodeId) : Option Graph := do
  return (← g.resolve? id).1

/-- Puts an output into a format, with the preference to match. -/
def forceOutput? (g : Graph) (id : NodeId) (index : Nat) (format : Format) : Option Graph := do
  let node ← g.node? id
  let layout ← node.outputs[index]?
  let g ← g.update? id fun node => { node with
    outputs := node.outputs.set index (layout.withFormat format)
    prefers := node.prefers.setOutput index format
    layoutValid := true }
  (← g.markStale? node.users).refresh? id

end Graph

end LayoutPlanner
