import LayoutPlanner.Builtin.LaunchPlan

/-!
# Host code

Host code reads plain, unpadded buffers of every element type but `bf16`.
-/

namespace LayoutPlanner.Builtin.HostCode

def ops : List OpKind :=
  [.input, .mutableBuffer, .gemm, .eltwise, .activation, .softmax, .permute, .reshape,
    .concatenation, .stateRead, .stateWrite, .reorder]

def keys : KeySet :=
  .product [.i1, .si8, .ui8, .si32, .si64, .f16, .f32] [.bfyx, .bfzyx, .bfwzyx]

def isUnpadded (layout : Layout) : Bool :=
  layout.padding.isZero

def unpadded : Condition :=
  .all [.everyRealInput isUnpadded, .everyOutput isUnpadded]

def routine (op : OpKind) : Descriptor :=
  let name := s!"host_{op}"
  { name, kind := .host, keys := some keys, layouts := some unpadded, build := planned .host name }

def descriptors : List (OpKind × Descriptor) :=
  ops.map fun op => (op, routine op)

end LayoutPlanner.Builtin.HostCode
