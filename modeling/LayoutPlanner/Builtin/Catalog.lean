import LayoutPlanner.Builtin.DeviceKernels
import LayoutPlanner.Builtin.HostCode
import LayoutPlanner.Builtin.VendorRoutines
import LayoutPlanner.Capability.Catalog

/-!
# The built-in catalog

Vendor routines come first, then generated kernels, then host code.
-/

namespace LayoutPlanner.Builtin

def descriptors : List (OpKind × Descriptor) :=
  VendorRoutines.descriptors ++ DeviceKernels.descriptors ++ HostCode.descriptors

def catalog : Catalog :=
  ⟨descriptors.map fun (op, descriptor) => (op, descriptor.capability)⟩

/-- The kinds that have built-in descriptors. -/
def kinds : KindMask :=
  .ofList [.vendor, .generic, .host]

end LayoutPlanner.Builtin
