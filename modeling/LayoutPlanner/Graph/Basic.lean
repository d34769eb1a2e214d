import LayoutPlanner.Backend.Handle
import LayoutPlanner.Graph.Operation
import LayoutPlanner.Graph.Preference

/-!
# Graphs

A graph is a list of nodes, addressed by their position, and a processing order.  Nodes are never
removed, so an id stays valid while edges are edited.

Ids, slots and output indices may point at nothing.  Every access that could miss answers with an
`Option`, and `none` always means that: some reference of the graph leads nowhere.
-/

namespace LayoutPlanner

/-- Position of a node in its graph. -/
structure NodeId where
  index : Nat
  deriving DecidableEq

namespace NodeId

/-- Ids are 32-bit words. -/
def limit : Nat := 1 <<< 32

def text (id : NodeId) : String :=
  s!"#{id.index}"

instance : ToString NodeId := ⟨text⟩

instance : Document NodeId where
  toJson id := .nat id.index
  ofJson? json := (json.asNatBelow? limit).map NodeId.mk

end NodeId

/-- The producing end of a data edge: one output of a node. -/
structure Edge where
  node : NodeId
  output : Nat := 0
  deriving DecidableEq

instance : Document Edge where
  toJson edge := .object [("node", Document.toJson edge.node), ("port", .nat edge.output)]
  ofJson? json := do
    match ← json.fields? ["node", "port"] with
    | [some node, some output] => return ⟨← Document.ofJson? node, ← output.asSize?⟩
    | _ => none

/-- One operation, with everything that has been decided about it. -/
structure Node where
  id : NodeId
  name : String
  op : OpKind
  attrs : Attributes := .none
  /-- Input edges in slot order. -/
  deps : List Edge
  /-- The nodes that read an output of this one, each once. -/
  users : List NodeId := []
  outputs : List Layout
  prefers : FormatPreference := {}
  fused : List FusedOp := []
  /-- The only kind that may run the node, if its owner asked for one. -/
  pinned : Option BackendKind := none
  /-- The kind of the candidate found last. -/
  selected : Option BackendKind := none
  implementation : Option Handle := none
  /-- Shape class when it was last refreshed. -/
  shapeClass : ShapeClass := .static
  /-- Set on a permute that was folded into its producer. -/
  eliminable : Bool := false
  /-- False once an input edge or a preference changed after the outputs were resolved. -/
  layoutValid : Bool := false
  deriving DecidableEq

namespace Node

def isConstant (node : Node) : Bool :=
  node.op == .constant

def isReorder (node : Node) : Bool :=
  node.op == .reorder

/-- Lists a node as a reader, once. -/
def addReader (reader : NodeId) (node : Node) : Node :=
  if node.users.contains reader then node else { node with users := node.users ++ [reader] }

/-- Strikes a node from the readers. -/
def dropReader (reader : NodeId) (node : Node) : Node :=
  { node with users := node.users.filter (· != reader) }

/-- Whether the node exposes a surface that its consumers must take as it is. -/
def isSharedSurface (node : Node) : Bool :=
  match node.attrs with
  | .reorder info => info.sharedSurface
  | _ => false

end Node

structure Graph where
  nodes : List Node := []
  /-- The nodes in the order in which they are computed. -/
  order : List NodeId := []
  deriving DecidableEq

/-- One input of a node: the slot, the edge that feeds it, and what is found at its other end. -/
structure Input where
  slot : Nat
  edge : Edge
  producer : Node
  layout : Layout

/-- Real inputs carry data; the others are fed by constants. -/
def Input.isReal (input : Input) : Bool :=
  !input.producer.isConstant

namespace Graph

def size (g : Graph) : Nat :=
  g.nodes.length

def node? (g : Graph) (id : NodeId) : Option Node :=
  g.nodes[id.index]?

/-- Changes one node, which must exist. -/
def update? (g : Graph) (id : NodeId) (change : Node → Node) : Option Graph :=
  if id.index < g.nodes.length then some { g with nodes := g.nodes.modify id.index change }
  else none

/-- Changes several nodes one after the other. -/
def updateAll? (g : Graph) (ids : List NodeId) (change : Node → Node) : Option Graph :=
  ids.foldlM (fun g id => g.update? id change) g

/-- The first node of that name. -/
def find? (g : Graph) (name : String) : Option NodeId :=
  (g.nodes.find? (·.name == name)).map Node.id

/-- `#id (name)`, as used in messages. -/
def describe (g : Graph) (id : NodeId) : String :=
  match g.node? id with
  | some node => s!"{id} ({node.name})"
  | none => id.text

/-- The edge that feeds a slot. -/
def dep? (g : Graph) (id : NodeId) (slot : Nat) : Option Edge := do
  (← g.node? id).deps[slot]?

/-- The layout found at the producing end of an edge. -/
def layoutAt? (g : Graph) (edge : Edge) : Option Layout := do
  (← g.node? edge.node).outputs[edge.output]?

/-- The input that an edge makes when it feeds `slot`. -/
def follow? (g : Graph) (edge : Edge) (slot : Nat) : Option Input := do
  let producer ← g.node? edge.node
  let layout ← producer.outputs[edge.output]?
  return { slot, edge, producer, layout }

def input? (g : Graph) (id : NodeId) (slot : Nat) : Option Input := do
  g.follow? (← g.dep? id slot) slot

/-- All inputs of a node, in slot order. -/
def inputs? (g : Graph) (id : NodeId) : Option (List Input) := do
  let node ← g.node? id
  node.deps.zipIdx.mapM fun (edge, slot) => g.follow? edge slot

/-- The slots that real inputs feed. -/
def realSlots? (g : Graph) (id : NodeId) : Option (List Nat) := do
  return ((← g.inputs? id).filter Input.isReal).map Input.slot

/-- The class of the layouts around a node as they are now. -/
def currentClass? (g : Graph) (id : NodeId) : Option ShapeClass := do
  let node ← g.node? id
  let inputs ← g.inputs? id
  return .ofLayouts (inputs.map Input.layout ++ node.outputs)

/-- Brings the cached shape class of a node up to date. -/
def refresh? (g : Graph) (id : NodeId) : Option Graph := do
  let shapeClass ← g.currentClass? id
  g.update? id fun node => { node with shapeClass }

/-- The reorders in processing order. -/
def reorders? (g : Graph) : Option (List Node) := do
  return (← g.order.mapM g.node?).filter Node.isReorder

/-! ## What an update does to look-ups -/

theorem update?_eq_some_iff {g g' : Graph} {id : NodeId} {change : Node → Node} :
    g.update? id change = some g' ↔
      id.index < g.size ∧ g' = { g with nodes := g.nodes.modify id.index change } := by
  unfold update? size
  split <;> rename_i h <;> simp [h, eq_comm]

theorem node?_update {g g' : Graph} {id : NodeId} {change : Node → Node}
    (h : g.update? id change = some g') (other : NodeId) :
    g'.node? other = (g.node? other).map fun node => if other = id then change node else node := by
  obtain ⟨_, rfl⟩ := update?_eq_some_iff.1 h
  have hindex : id.index = other.index ↔ other = id := by
    cases id
    cases other
    simp [eq_comm]
  simp [node?, List.getElem?_modify, hindex]

theorem order_update {g g' : Graph} {id : NodeId} {change : Node → Node}
    (h : g.update? id change = some g') : g'.order = g.order := by
  obtain ⟨_, rfl⟩ := update?_eq_some_iff.1 h
  rfl

theorem size_update {g g' : Graph} {id : NodeId} {change : Node → Node}
    (h : g.update? id change = some g') : g'.size = g.size := by
  obtain ⟨_, rfl⟩ := update?_eq_some_iff.1 h
  simp [size]

end Graph

end LayoutPlanner
