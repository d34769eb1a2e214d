import LayoutPlanner.Builtin.LaunchPlan

/-!
# Generated device kernels

Generated kernels cover every operation and both shape classes.  They read the plain formats and
the formats blocked by 16 features only; reorders convert between any two formats.
-/

namespace LayoutPlanner.Builtin.DeviceKernels

def ops : List OpKind :=
  [.input, .mutableBuffer, .convolution, .deconvolution, .fullyConnected, .gemm, .pooling,
    .eltwise, .activation, .normalization, .softmax, .permute, .reshape, .concatenation,
    .stateRead, .stateWrite]

/-- The formats no kernel reads. -/
def isUnsupported : Format → Bool
  | .bFsYxFsv32 | .bsFsYxBsv32Fsv16 => true
  | _ => false

def isKernelLayout (layout : Layout) : Bool :=
  layout.fitsRank && !isUnsupported layout.format

/-- Every real input and every output passes the test. -/
def onAllLayouts (test : Layout → Bool) : Condition :=
  .all [.everyRealInput test, .everyOutput test]

def kernel (op : OpKind) (test : Layout → Bool) : Descriptor :=
  let name := s!"generic_{op}"
  { name, kind := .generic, layouts := some (onAllLayouts test), build := planned .generic name }

def descriptors : List (OpKind × Descriptor) :=
  ops.map (fun op => (op, kernel op isKernelLayout)) ++
    [(.reorder, kernel .reorder Layout.fitsRank)]

end LayoutPlanner.Builtin.DeviceKernels
