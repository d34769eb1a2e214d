import LayoutPlanner.Graph.Basic
import LayoutPlanner.Text.Quoted

/-!
# Node views

What a backend is asked about: one node, with its inputs as the node will read them once the
reorders that its preferences call for exist.
-/

namespace LayoutPlanner

structure NodeView where
  graph : Graph
  node : Node
  inputs : List Input
  /-- Whether the inputs are shown without batch and spatial padding. -/
  unpadded : Bool

namespace Node

/-- The format the node wants on a slot, fitted to the rank of what is produced there. -/
def wantedFormat (node : Node) (slot : Nat) (source : Layout) : Format :=
  match node.prefers.input slot with
  | .any => source.format
  | preferred => preferred.adaptTo source.rank

/-- The element type the node wants on a slot.  Convolutions take what is produced. -/
def wantedType (node : Node) (slot : Nat) (source : Layout) : ElementType :=
  if node.op.isConvolutionLike then source.dtype
  else (node.prefers.inputType slot).getD source.dtype

/-- The layout an input is shown with: as produced, except for the format and the type that the
node prefers on the slot.  An unpadded view also drops batch and spatial padding, unless the input
is a constant or a shared surface. -/
def shownInput (node : Node) (unpadded : Bool) (input : Input) : Layout :=
  let bare := unpadded && input.isReal && !input.producer.isSharedSurface &&
    input.layout.padding.hasBatchOrSpatial
  { input.layout with
    format := (node.prefers.input input.slot).orElse input.layout.format
    dtype := node.wantedType input.slot input.layout
    padding := if bare then input.layout.padding.onlyFeature else input.layout.padding }

end Node

namespace Graph

/-- The view of a node with its padding as produced. -/
def view? (g : Graph) (id : NodeId) : Option NodeView := do
  return { graph := g, node := ← g.node? id, inputs := ← g.inputs? id, unpadded := false }

/-- The view of a node as it will read its inputs once padding has been removed for a vendor
routine. -/
def unpaddedView? (g : Graph) (id : NodeId) : Option NodeView := do
  return { ← g.view? id with unpadded := true }

end Graph

namespace NodeView

def id (view : NodeView) : NodeId :=
  view.node.id

def op (view : NodeView) : OpKind :=
  view.node.op

def outputs (view : NodeView) : List Layout :=
  view.node.outputs

/-- How an input is shown. -/
def shown (view : NodeView) (input : Input) : Layout :=
  view.node.shownInput view.unpadded input

/-- The shown layouts of all inputs, in slot order. -/
def inputLayouts (view : NodeView) : List Layout :=
  view.inputs.map view.shown

def inputLayout? (view : NodeView) (slot : Nat) : Option Layout :=
  view.inputLayouts[slot]?

def realInputs (view : NodeView) : List Input :=
  view.inputs.filter Input.isReal

/-- The shown layouts of the real inputs. -/
def realLayouts (view : NodeView) : List Layout :=
  view.realInputs.map view.shown

/-- Shape class of the layouts as they are now. -/
def shapeClass (view : NodeView) : ShapeClass :=
  .ofLayouts (view.inputs.map Input.layout ++ view.node.outputs)

def describe (view : NodeView) : String :=
  view.graph.describe view.id

/-- The keys a node was checked with, for messages. -/
def attemptedKeys (view : NodeView) : String :=
  let inputs := view.inputLayouts.mapIdx fun slot layout => s!"in{slot}={layout.key}"
  let outputs := view.outputs.mapIdx fun index layout => s!"out{index}={layout.key}"
  ", ".intercalate (inputs ++ outputs)

/-- The view as diagnostics show it. -/
def inspect (view : NodeView) : String :=
  "NodeView \x7b id: NodeId(" ++ toString view.id.index ++ "), name: " ++
    Text.quoted view.node.name ++ ", op: " ++ view.op.title ++ " \x7d"

end NodeView

end LayoutPlanner
