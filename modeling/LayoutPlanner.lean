import LayoutPlanner.Backend.Handle
import LayoutPlanner.Backend.Kind
import LayoutPlanner.Builtin.Catalog
import LayoutPlanner.Builtin.DeviceKernels
import LayoutPlanner.Builtin.HostCode
import LayoutPlanner.Builtin.LaunchPlan
import LayoutPlanner.Builtin.VendorRoutines
import LayoutPlanner.Capability.Basic
import LayoutPlanner.Capability.Catalog
import LayoutPlanner.Capability.Condition
import LayoutPlanner.Capability.Descriptor
import LayoutPlanner.Capability.KeySet
import LayoutPlanner.Graph.Basic
import LayoutPlanner.Graph.Declaration
import LayoutPlanner.Graph.Operation
import LayoutPlanner.Graph.Preference
import LayoutPlanner.Graph.Resolve
import LayoutPlanner.Graph.Rewire
import LayoutPlanner.Graph.Topology
import LayoutPlanner.Graph.View
import LayoutPlanner.Json.Basic
import LayoutPlanner.Json.Document
import LayoutPlanner.Json.Parser
import LayoutPlanner.Json.Printer
import LayoutPlanner.Planning.Config
import LayoutPlanner.Planning.Construction
import LayoutPlanner.Planning.EdgeAgreement
import LayoutPlanner.Planning.Error
import LayoutPlanner.Planning.Executor
import LayoutPlanner.Planning.LegalLayout
import LayoutPlanner.Planning.Pipeline
import LayoutPlanner.Planning.Propagation
import LayoutPlanner.Planning.Reconciliation
import LayoutPlanner.Planning.Repair
import LayoutPlanner.Planning.Report
import LayoutPlanner.Planning.Selection
import LayoutPlanner.Planning.Trace
import LayoutPlanner.Tensor.Document
import LayoutPlanner.Tensor.ElementType
import LayoutPlanner.Tensor.Format
import LayoutPlanner.Tensor.Layout
import LayoutPlanner.Tensor.Padding
import LayoutPlanner.Tensor.Shape
import LayoutPlanner.Tensor.Size
import LayoutPlanner.Text.Blank
import LayoutPlanner.Text.Hidden
import LayoutPlanner.Text.Quoted
import LayoutPlanner.Vocabulary
import LayoutPlanner.Proofs.WellFormed
import LayoutPlanner.Proofs.LocalEdits
import LayoutPlanner.Proofs.EdgeEdits
import LayoutPlanner.Proofs.BuiltGraphs
import LayoutPlanner.Proofs.Conversions
import LayoutPlanner.Proofs.LegalLayouts
import LayoutPlanner.Proofs.Repairs
import LayoutPlanner.Proofs.Visits
import LayoutPlanner.Proofs.ForwardSweep
import LayoutPlanner.Proofs.Building
import LayoutPlanner.Proofs.Contraction
import LayoutPlanner.Proofs.Pipelines
import LayoutPlanner.Proofs.EdgeAgreement
import LayoutPlanner.Proofs.CarriedLayouts
import LayoutPlanner.Proofs.FittingFormats
import LayoutPlanner.Proofs.ConsistentFormats
import LayoutPlanner.Proofs.ChosenFormats
import LayoutPlanner.Proofs.FoldedPermutes
import LayoutPlanner.Proofs.BuiltinVerdicts
import LayoutPlanner.Proofs.Buildable
import LayoutPlanner.Proofs.PlainGraphs
import LayoutPlanner.Proofs.StrandedSlots
import LayoutPlanner.Proofs.Footprints
import LayoutPlanner.Proofs.Coverage
import LayoutPlanner.Proofs.Placements
import LayoutPlanner.Proofs.ProcessingOrder
import LayoutPlanner.Proofs.Ensures
import LayoutPlanner.Proofs.Frames
import LayoutPlanner.Proofs.Unbuilt
import LayoutPlanner.Proofs.Selections
import LayoutPlanner.Proofs.TaskOrders
import LayoutPlanner.Proofs.Exhibits
import LayoutPlanner.Proofs.Assignments
import LayoutPlanner.Proofs.ShownLayouts
import LayoutPlanner.Proofs.StaleReaders
import LayoutPlanner.Proofs.AlignedGraphs
import LayoutPlanner.Proofs.NodesAtRest
import LayoutPlanner.Proofs.ShapeClasses
import LayoutPlanner.Proofs.SteadyClasses
import LayoutPlanner.Proofs.Readers
import LayoutPlanner.Proofs.RestingVisits
import LayoutPlanner.Proofs.Trials
import LayoutPlanner.Proofs.Turns
import LayoutPlanner.Proofs.UnpaddedViews
import LayoutPlanner.Proofs.StrippedPadding
import LayoutPlanner.Proofs.StoredTypes
import LayoutPlanner.Proofs.ConvolutionTypes
import LayoutPlanner.Proofs.Detours
import LayoutPlanner.Proofs.AbsorbedPermutes
import LayoutPlanner.Proofs.Idempotence
import LayoutPlanner.Proofs.FirstLegalFormats
import LayoutPlanner.Proofs.IdentityReorders
import LayoutPlanner.Proofs.SharedReorders
import LayoutPlanner.Proofs.SharedSurfaces
import LayoutPlanner.Proofs.Feeds
import LayoutPlanner.Proofs.NormalizedPadding
import LayoutPlanner.Proofs.FusedOperands
import LayoutPlanner.Proofs.RecordedRuns
import LayoutPlanner.Proofs.Consultations
import LayoutPlanner.Proofs.BuiltinLookups
import LayoutPlanner.Proofs.JsonTexts
import LayoutPlanner.Proofs.RoundTrips
import LayoutPlanner.Proofs.RestrictedCatalogs
import LayoutPlanner.Proofs.ForwardSettling
import LayoutPlanner.Proofs.InheritedFormats
import LayoutPlanner.Proofs.Rebuilding
import LayoutPlanner.Proofs.SettledFlags
import LayoutPlanner.Proofs.SilentRuns
import LayoutPlanner.Proofs.CanonicalPaddings
import LayoutPlanner.Proofs.ExactSizes
import LayoutPlanner.Proofs.UnpaddedCandidates
