import LayoutPlanner.Graph.View
import LayoutPlanner.Planning.Reconciliation

/-!
# Repairs

The reasons for which an input must be read with another layout.  Each repair looks at a node and
one of its inputs and says what the slot has to become, if anything.
-/

namespace LayoutPlanner

/-- What a slot has to be read as, and why. -/
structure Demand where
  target : Layout
  reason : ReorderReason
  deriving DecidableEq

/-- A rule that may demand a conversion of an input of a node. -/
abbrev Repair := Node → Input → Option Demand

namespace Repair

/-- A state is written in the element type it was declared with. -/
def stateType : Repair := fun node input =>
  match node.attrs with
  | .stateWrite _ declared =>
    if input.layout.dtype = declared then none
    else some {
      target := (input.layout.withFormat (node.wantedFormat input.slot input.layout)).withType
        declared
      reason := .typeConversion }
  | _ => none

/-- An operand that is a single element, or one element per feature, needs no format. -/
def isBroadcast (operand output : Layout) : Bool :=
  match operand.elementCount? with
  | some count => count == 1 || output.featureCount? == some count
  | none => false

/-- A constant operand of a fused operation is stored in the format of the node's output. -/
def fusedConstant (output : Layout) : Repair := fun _ input =>
  let format := output.format.adaptTo input.layout.rank
  if input.isReal || isBroadcast input.layout output || input.layout.format = format then none
  else some { target := input.layout.withFormat format, reason := .fusedDependency }

/-- A normalization in a format that forbids spatial padding reads its inputs without it. -/
def normalizationPadding (output : Layout) : Repair := fun node input =>
  let format := ((node.prefers.input input.slot).orElse output.format).adaptTo input.layout.rank
  if input.layout.padding.hasSpatial && format.rejectsSpatialPadding then
    some {
      target := { input.layout with
        format
        dtype := node.wantedType input.slot input.layout
        padding := input.layout.padding.dropSpatial }
      reason := .stripSpatialPadding }
  else none

/-- A vendor routine reads its inputs without batch and spatial padding. -/
def vendorPadding : Repair := fun node input =>
  if !input.producer.isSharedSurface && input.layout.padding.hasBatchOrSpatial then
    some {
      target := { input.layout with
        format := node.wantedFormat input.slot input.layout
        dtype := node.wantedType input.slot input.layout
        padding := input.layout.padding.onlyFeature }
      reason := .stripPadding }
  else none

/-- Every input is read in the format and the type the node wants.  The padding of an input
survives only if a reorder of this run put it there. -/
def agreement (isCreated : NodeId → Bool) : Repair := fun node input =>
  let source := input.layout
  let format := node.wantedFormat input.slot source
  let dtype := node.wantedType input.slot source
  if input.producer.isSharedSurface || (format = source.format && dtype = source.dtype) then none
  else some {
    target := { shape := source.shape, dtype, format
                padding := if isCreated input.producer.id then source.padding else {} }
    reason := if format = source.format then .typeConversion else .formatMismatch }

end Repair

namespace Reconciliation

/-- Applies a repair to one slot, as the graph is now. -/
def repairSlot? (id : NodeId) (repair : Reconciliation → Repair) (s : Reconciliation) (slot : Nat) :
    Option Reconciliation := do
  let node ← s.graph.node? id
  let input ← s.graph.input? id slot
  match repair s node input with
  | some demand => s.convert? id slot demand.target demand.reason
  | none => return s

/-- Applies a repair to several slots, one after the other. -/
def repairSlots? (s : Reconciliation) (id : NodeId) (slots : List Nat) (repair : Repair) :
    Option Reconciliation :=
  slots.foldlM (repairSlot? id fun _ => repair) s

/-- Converts what a state write stores, and settles the node again if it had to. -/
def convertState? (s : Reconciliation) (id : NodeId) : Option Reconciliation := do
  let node ← s.graph.node? id
  match node.attrs with
  | .stateWrite .. =>
    let input ← s.graph.input? id 0
    match Repair.stateType node input with
    | some demand =>
      let s ← s.convert? id 0 demand.target demand.reason
      return s.withGraph (← (← s.graph.invalidate? id).settle? id)
    | none => return s
  | _ => return s

/-- The operand slots of the fused operations, as far as they exist. -/
def operandSlots (node : Node) : List Nat :=
  (node.fused.filterMap FusedOp.operand).filter (· < node.deps.length)

def reorderOperands? (s : Reconciliation) (id : NodeId) : Option Reconciliation := do
  let node ← s.graph.node? id
  s.repairSlots? id (operandSlots node) (.fusedConstant (← node.outputs[0]?))

def unpadNormalization? (s : Reconciliation) (id : NodeId) : Option Reconciliation := do
  let node ← s.graph.node? id
  if node.op = .normalization then
    s.repairSlots? id (← s.graph.realSlots? id) (.normalizationPadding (← node.outputs[0]?))
  else return s

/-- The kind a node is heading for: the candidate's, or else the pinned one. -/
def expectedKind (node : Node) : Option BackendKind :=
  node.selected.or node.pinned

def unpadVendor? (s : Reconciliation) (id : NodeId) : Option Reconciliation := do
  if expectedKind (← s.graph.node? id) = some .vendor then
    s.repairSlots? id (← s.graph.realSlots? id) .vendorPadding
  else return s

/-- Makes all real inputs agree with what the node wants of them. -/
def reconcile? (s : Reconciliation) (id : NodeId) : Option Reconciliation := do
  (← s.graph.realSlots? id).foldlM (repairSlot? id fun s => Repair.agreement s.isCreated) s

end Reconciliation

end LayoutPlanner
