import LayoutPlanner.Graph.Topology

/-!
# Declaring graphs

Nodes are declared one after the other, in processing order.  The result is accepted only if its
topology is sound.
-/

namespace LayoutPlanner

/-- What is declared about a node. -/
structure NodeDecl where
  name : String
  op : OpKind
  inputs : List Edge := []
  outputs : List Layout := []
  attrs : Attributes := .none
  fused : List FusedOp := []
  pinned : Option BackendKind := none

namespace Graph

/-- Appends a node and lists it as a reader of the producers that exist already. -/
def declare (g : Graph) (decl : NodeDecl) : Graph :=
  let id : NodeId := ⟨g.size⟩
  let node : Node :=
    { id, name := decl.name, op := decl.op, attrs := decl.attrs, deps := decl.inputs,
      outputs := decl.outputs, fused := decl.fused, pinned := decl.pinned }
  let nodes := decl.inputs.foldl
    (fun nodes edge => nodes.modify edge.node.index (Node.addReader id)) g.nodes
  { nodes := nodes ++ [node], order := g.order ++ [id] }

/-- The graph with the declared nodes, before any check. -/
def declareAll (decls : List NodeDecl) : Graph :=
  decls.foldl declare {}

/-- The graph with the declared nodes, if its topology is sound. -/
def build? (decls : List NodeDecl) : Option (Except TopologyError Graph) := do
  let g := declareAll decls
  match ← g.checkTopology? with
  | .error error => return .error error
  | .ok _ => return .ok (← g.order.foldlM refresh? g)

end Graph

end LayoutPlanner
