import LayoutPlanner.Tensor.ElementType
import LayoutPlanner.Tensor.Format

/-!
# Operations

What a node computes: its operation kind, the attributes that go with it, and the operations that
were fused into it.
-/

namespace LayoutPlanner

inductive OpKind where
  | input
  | constant
  | mutableBuffer
  | convolution
  | deconvolution
  | fullyConnected
  | gemm
  | pooling
  | eltwise
  | activation
  | normalization
  | softmax
  | permute
  | reshape
  | concatenation
  | reorder
  | stateRead
  | stateWrite
  deriving DecidableEq

namespace OpKind

def all : List OpKind :=
  [input, constant, mutableBuffer, convolution, deconvolution, fullyConnected, gemm, pooling,
    eltwise, activation, normalization, softmax, permute, reshape, concatenation, reorder,
    stateRead, stateWrite]

/-- Constants only carry data; every other kind takes part in data flow. -/
def isDataFlow (op : OpKind) : Bool :=
  op != constant

/-- Kinds that read whatever element type their producer emits. -/
def isConvolutionLike : OpKind → Bool
  | convolution | deconvolution => true
  | _ => false

/-- Heavy kinds whose trailing permute can be folded away. -/
def isCompute : OpKind → Bool
  | convolution | deconvolution | fullyConnected | gemm => true
  | _ => false

def name : OpKind → String
  | input => "input"
  | constant => "constant"
  | mutableBuffer => "mutable_buffer"
  | convolution => "convolution"
  | deconvolution => "deconvolution"
  | fullyConnected => "fully_connected"
  | gemm => "gemm"
  | pooling => "pooling"
  | eltwise => "eltwise"
  | activation => "activation"
  | normalization => "normalization"
  | softmax => "softmax"
  | permute => "permute"
  | reshape => "reshape"
  | concatenation => "concatenation"
  | reorder => "reorder"
  | stateRead => "state_read"
  | stateWrite => "state_write"

/-- Capitalised name, used where a structure is shown field by field. -/
def title : OpKind → String
  | input => "Input"
  | constant => "Constant"
  | mutableBuffer => "MutableBuffer"
  | convolution => "Convolution"
  | deconvolution => "Deconvolution"
  | fullyConnected => "FullyConnected"
  | gemm => "Gemm"
  | pooling => "Pooling"
  | eltwise => "Eltwise"
  | activation => "Activation"
  | normalization => "Normalization"
  | softmax => "Softmax"
  | permute => "Permute"
  | reshape => "Reshape"
  | concatenation => "Concatenation"
  | reorder => "Reorder"
  | stateRead => "StateRead"
  | stateWrite => "StateWrite"

instance : Vocabulary OpKind where
  members := all
  word := name

instance : ToString OpKind := ⟨name⟩

end OpKind

/-- Why a reorder was placed on an edge. -/
inductive ReorderReason where
  | formatMismatch
  | typeConversion
  | fusedDependency
  | stripSpatialPadding
  | stripPadding
  | sharedSurface
  deriving DecidableEq

namespace ReorderReason

def name : ReorderReason → String
  | formatMismatch => "format_mismatch"
  | typeConversion => "type_conversion"
  | fusedDependency => "fused_dependency"
  | stripSpatialPadding => "strip_spatial_padding"
  | stripPadding => "strip_padding"
  | sharedSurface => "shared_surface"

def text : ReorderReason → String
  | formatMismatch => "format mismatch"
  | typeConversion => "type conversion"
  | fusedDependency => "fused dependency"
  | stripSpatialPadding => "strip spatial padding"
  | stripPadding => "strip padding"
  | sharedSurface => "shared surface"

/-- The part of an inserted reorder's name that says what it is for. -/
def tag : ReorderReason → String
  | formatMismatch => "fmt"
  | typeConversion => "cvt"
  | fusedDependency => "fused"
  | stripSpatialPadding | stripPadding => "unpad"
  | sharedSurface => "surface"

instance : Vocabulary ReorderReason where
  members := [formatMismatch, typeConversion, fusedDependency, stripSpatialPadding, stripPadding,
    sharedSurface]
  word := name

end ReorderReason

structure Convolution where
  kernel : List Nat
  strides : List Nat
  groups : Nat := 1
  deriving DecidableEq

namespace Convolution

/-- An ungrouped convolution with stride one on every kernel axis. -/
def ofKernel (kernel : List Nat) : Convolution :=
  { kernel, strides := kernel.map fun _ => 1 }

/-- There is always at least one group. -/
def withGroups (conv : Convolution) (groups : Nat) : Convolution :=
  { conv with groups := max groups 1 }

def withStrides (conv : Convolution) (strides : List Nat) : Convolution :=
  { conv with strides }

/-- The largest kernel extent; a kernel without axes has extent one. -/
def maxExtent (conv : Convolution) : Nat :=
  conv.kernel.max?.getD 1

end Convolution

/-- A permutation of axes that only moves axes past the first two. -/
def fixesLeadingAxes : List Nat → Bool
  | first :: second :: _ => first == 0 && second == 1
  | _ => false

/-- What a reorder converts from, and why.  The consumers of a shared surface take it as it is. -/
structure ReorderInfo where
  sourceFormat : Format
  sourceType : ElementType
  reason : ReorderReason
  sharedSurface : Bool := false
  deriving DecidableEq

inductive Attributes where
  | none
  | convolution (conv : Convolution)
  | permute (order : List Nat)
  | stateWrite (cell : String) (declared : ElementType)
  | normalization (acrossChannels : Bool)
  | reorder (info : ReorderInfo)
  deriving DecidableEq

/-- An operation applied to the result of the node it was fused into.  `operand` is the input slot
of that node which feeds it, if it has an operand of its own. -/
structure FusedOp where
  op : OpKind
  operand : Option Nat := none
  deriving DecidableEq

end LayoutPlanner
