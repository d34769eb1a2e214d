import LayoutPlanner.Builtin.LaunchPlan

/-!
# Vendor library routines

The library handles static shapes (gemm also dynamic ones), unpadded batch and spatial axes, and
buffers that 32-bit offsets can address.  It runs convolutions fastest in blocked formats.
-/

namespace LayoutPlanner.Builtin.VendorRoutines

def convolutionFormats : List Format :=
  [.bfyx, .bFsYxFsv16, .bFsYxFsv32, .bsFsYxBsv32Fsv16, .bfzyx, .bFsZyxFsv16]

def plainFormats : List Format :=
  [.bfyx, .bfzyx, .bfwzyx]

/-- Formats of the routines that know one blocked format. -/
def partlyBlockedFormats : List Format :=
  [.bfyx, .bFsYxFsv16, .bfzyx]

def kernelLimit : Nat := 11

def strideLimit : Nat := 4

/-- Largest buffer that 32-bit offsets can address. -/
def offsetLimit : Nat := (1 <<< 32) - 1

/-- The size of a layout is in range, or not known before run time. -/
def isWithinOffsets (layout : Layout) : Bool :=
  layout.isDynamic || layout.byteSize?.any (· ≤ offsetLimit)

def withinOffsets : Condition :=
  .all [.everyInput isWithinOffsets, .everyOutput isWithinOffsets]

def smallWindow (conv : Convolution) : Bool :=
  conv.maxExtent ≤ kernelLimit && conv.strides.all (· ≤ strideLimit)

def convolutionAttributes : Condition :=
  .all [.convolution smallWindow, withinOffsets]

/-- The first extent is known to be at least `batch`; all extents have to be known for that. -/
def hasBatchOf (layout : Layout) (batch : Nat) : Bool :=
  (layout.shape.extents?.bind List.head?).any (batch ≤ ·)

/-- The blocked format the library is fastest in for an output, if there is one. -/
def fastestFormat? (output : Layout) : Option Format :=
  match Format.axesOfRank output.rank, output.dtype with
  | 4, .si8 | 4, .ui8 => some .bFsYxFsv32
  | 4, .f16 => some (if hasBatchOf output 32 then .bsFsYxBsv32Fsv16 else .bFsYxFsv16)
  | 4, .f32 => some .bFsYxFsv16
  | 5, .f16 | 5, .f32 => some .bFsZyxFsv16
  | _, _ => none

/-- The blocked format on the first output and on every real input. -/
def convolutionPreference (view : NodeView) : Option FormatPreference := do
  let format ← fastestFormat? (← view.outputs[0]?)
  return {
    inputs := view.inputs.map fun input => if input.isReal then format else .any
    outputs := [format] }

/-- A routine for nodes of known size. -/
def routine (name : String) (keys : KeySet) (attributes : Condition) : Descriptor where
  name := name
  kind := .vendor
  keys := some keys
  layouts := some .noBatchOrSpatialPadding
  attributes := some attributes
  build := plannedStatic .vendor name

def floats : List ElementType :=
  [.f16, .f32]

def convolution : Descriptor :=
  { routine "vendor_conv" (.product [.f16, .f32, .si8, .ui8] convolutionFormats)
      convolutionAttributes with
    formats := some convolutionPreference }

def deconvolution : Descriptor :=
  routine "vendor_deconv" (.product floats partlyBlockedFormats) convolutionAttributes

def fullyConnected : Descriptor :=
  routine "vendor_fc" (.product [.f16, .f32, .si8] plainFormats) withinOffsets

def gemm : Descriptor :=
  { routine "vendor_gemm" (.product floats plainFormats) withinOffsets with
    shapes := .both
    build := planned .vendor "vendor_gemm" }

def pooling : Descriptor :=
  routine "vendor_pool" (.product floats partlyBlockedFormats) withinOffsets

def concatenation : Descriptor :=
  routine "vendor_concat" (.product floats plainFormats) withinOffsets

/-- Reorders read padding as it is. -/
def reorder : Descriptor :=
  { routine "vendor_reorder" (KeySet.withAnyFormat {} [.f16, .f32, .si8, .ui8]) withinOffsets with
    layouts := none }

def descriptors : List (OpKind × Descriptor) :=
  [(.convolution, convolution), (.deconvolution, deconvolution),
    (.fullyConnected, fullyConnected), (.gemm, gemm), (.pooling, pooling),
    (.concatenation, concatenation), (.reorder, reorder)]

end LayoutPlanner.Builtin.VendorRoutines
