import LayoutPlanner.Planning.Repair

/-!
# Finding a legal layout

A node that no allowed capability supports is tried in other formats: first those of its inputs,
then the plain formats of its rank.  In between, a node pinned to the vendor may be handed to the
generated kernels.  A format that does not help leaves the node as it was.
-/

namespace LayoutPlanner

/-- The formats of a node that a trial changes. -/
structure FormatSnapshot where
  outputs : List Format
  preferredInputs : List Format
  preferredOutputs : List Format
  deriving DecidableEq

namespace FormatSnapshot

def ofNode (node : Node) : FormatSnapshot where
  outputs := node.outputs.map Layout.format
  preferredInputs := node.prefers.inputs
  preferredOutputs := node.prefers.outputs

def apply (saved : FormatSnapshot) (node : Node) : Node :=
  { node with
    outputs := List.zipWith Layout.withFormat node.outputs saved.outputs ++
      node.outputs.drop saved.outputs.length
    prefers := { node.prefers with
      inputs := saved.preferredInputs, outputs := saved.preferredOutputs } }

/-- Puts the formats of a node back.  It must still have the outputs that they were taken from. -/
def putBack? (saved : FormatSnapshot) (g : Graph) (id : NodeId) : Option Graph := do
  if saved.outputs.length ≤ (← g.node? id).outputs.length then
    (← g.update? id saved.apply).refresh? id
  else none

end FormatSnapshot

namespace Graph

/-- Forces every output of a node into a format, fitted to its rank. -/
def forceOutputs? (g : Graph) (id : NodeId) (format : Format) : Option Graph := do
  let indices := List.range (← g.node? id).outputs.length
  indices.foldlM (fun g index => do
    let layout ← (← g.node? id).outputs[index]?
    g.forceOutput? id index (format.adaptTo layout.rank)) g

/-- Prefers a format on every real input whose rank it fits. -/
def preferOnInputs? (g : Graph) (id : NodeId) (format : Format) : Option Graph := do
  (← g.realSlots? id).foldlM (fun g slot => do
    let input ← g.input? id slot
    if format.fits input.layout.rank then
      g.update? id fun node => { node with prefers := node.prefers.setInput slot format }
    else return g) g

/-- Runs a node and its inputs of the same class in a format. -/
def adoptFormat? (g : Graph) (id : NodeId) (format : Format) : Option Graph := do
  (← (← g.forceOutputs? id format).preferOnInputs? id format).refresh? id

end Graph

/-- The formats of the real inputs that fit a rank, each once. -/
def NodeView.inputFormats (view : NodeView) (rank : Nat) : List Format :=
  let formats := (view.realInputs.map (·.layout.format)).filter (·.fits rank)
  formats.foldl (fun found format => if found.contains format then found else found ++ [format]) []

namespace Reconciliation

/-- Tries formats in order until a capability in the mask supports the node.  The answer tells
whether one does. -/
def search? (catalog : Catalog) (id : NodeId) (saved : FormatSnapshot) (mask : KindMask)
    (s : Reconciliation) : List Format → Option (Reconciliation × Bool)
  | [] => some (s, false)
  | format :: rest => do
    let g ← s.graph.adoptFormat? id format
    let view ← g.view? id
    if catalog.isSupported view mask view.shapeClass then
      return ((s.withGraph g).changed, true)
    else
      (s.withGraph (← saved.putBack? g id)).search? catalog id saved mask rest

def demotionReason : String :=
  "no legal vendor layout"

/-- Hands a node over from the vendor to the generated kernels. -/
def handOver? (s : Reconciliation) (id : NodeId) : Option Reconciliation := do
  let g ← s.graph.update? id fun node =>
    { node with pinned := some .generic, selected := some .generic }
  let warning := s!"demoting {g.describe id} from {BackendKind.vendor} to " ++
    s!"{BackendKind.generic}: {demotionReason}"
  let report := { s.report with demotions := s.report.demotions + 1, changed := true }
  let s := { s with graph := g, report }
  return (s.tell (.message ⟨.warn, warning⟩)).tell
    (.event (.kindDemoted id .vendor .generic demotionReason))

/-- Ends the run with an error. -/
def fail (s : Reconciliation) (error : PlanningError) : Reconciliation :=
  { s.tell (.message ⟨.error, error.message⟩) with failure := some error }

/-- The node has no legal layout; the first real input gets the blame. -/
def unresolved? (s : Reconciliation) (id : NodeId) (mask : KindMask) (attempted : List Format) :
    Option PlanningError := do
  let view ← s.graph.view? id
  let dtype := (← view.outputs[0]?).dtype
  return .layoutUnresolved (s.graph.describe id) mask
    (attempted.map fun format => ⟨format, dtype⟩)
    (view.realInputs.head?.map fun input => s.graph.describe input.edge.node)

/-- Tries the plain formats of a rank, and gives up when none is legal. -/
def fallBack? (s : Reconciliation) (catalog : Catalog) (id : NodeId) (saved : FormatSnapshot)
    (mask : KindMask) (rank : Nat) (tried : List Format) : Option Reconciliation := do
  let fallbacks := Format.fallbacksFor rank
  let (s, found) ← s.search? catalog id saved mask fallbacks
  if found then
    return s
  else
    let attempted := tried ++ fallbacks.filter (!tried.contains ·)
    return s.fail (← s.unresolved? id mask attempted)

/-- Makes sure that an allowed capability supports the node, in whatever format that takes. -/
def legalize? (s : Reconciliation) (cx : Context) (id : NodeId) : Option Reconciliation := do
  let view ← s.graph.view? id
  let node := view.node
  let mask := KindMask.ofPin node.pinned
  if cx.catalog.isSupported view mask view.shapeClass then
    return s
  else
    let saved := FormatSnapshot.ofNode node
    let rank := (← node.outputs[0]?).rank
    let tried := view.inputFormats rank
    let (s, found) ← s.search? cx.catalog id saved mask tried
    if found then
      return s
    else if view.shapeClass.isDynamic && cx.catalog.servesDynamic node.op then
      -- An implementation for the actual shapes can still be found at run time.
      return s
    else if node.pinned = some .vendor ∧ cx.config.allowVendorDemotion then
      let s ← s.handOver? id
      let generic := KindMask.only .generic
      let view ← s.graph.view? id
      if cx.catalog.isSupported view generic view.shapeClass then return s
      else s.fallBack? cx.catalog id saved generic rank tried
    else s.fallBack? cx.catalog id saved mask rank tried

end Reconciliation

end LayoutPlanner
