import LayoutPlanner.Vocabulary
import LayoutPlanner.Tensor.Size

/-!
# Shapes

A shape is the list of a tensor's extents.  Axis 0 is batch, axis 1 is feature, and every further
axis is spatial.  An extent is known or is a symbol that gets its value at run time.
-/

namespace LayoutPlanner

inductive Dimension where
  | static (extent : Nat)
  | dynamic (symbol : String)
  deriving DecidableEq

namespace Dimension

def isDynamic : Dimension → Bool
  | static _ => false
  | dynamic _ => true

def extent? : Dimension → Option Nat
  | static extent => some extent
  | dynamic _ => none

def text : Dimension → String
  | static extent => toString extent
  | dynamic symbol => "?" ++ symbol

end Dimension

structure Shape where
  dims : List Dimension
  deriving DecidableEq

namespace Shape

/-- The shape with the given known extents. -/
def ofExtents (extents : List Nat) : Shape :=
  ⟨extents.map .static⟩

def rank (shape : Shape) : Nat :=
  shape.dims.length

def isDynamic (shape : Shape) : Bool :=
  shape.dims.any Dimension.isDynamic

/-- All extents, if all of them are known. -/
def extents? (shape : Shape) : Option (List Nat) :=
  shape.dims.mapM Dimension.extent?

/-- Number of elements, if every extent is known and the product fits a size. -/
def elementCount? (shape : Shape) : Option Nat :=
  shape.extents?.bind Size.product?

/-- Extent of the feature axis, if there is one and it is known. -/
def featureCount? (shape : Shape) : Option Nat :=
  shape.dims[1]?.bind Dimension.extent?

def text (shape : Shape) : String :=
  "x".intercalate (shape.dims.map Dimension.text)

end Shape

/-- Whether the shapes around a node are all known. -/
inductive ShapeClass where
  | static
  | dynamic
  deriving DecidableEq

namespace ShapeClass

def isDynamic : ShapeClass → Bool
  | static => false
  | dynamic => true

/-- Dynamic as soon as one of the shapes is. -/
def ofShapes (shapes : List Shape) : ShapeClass :=
  if shapes.any Shape.isDynamic then dynamic else static

def name : ShapeClass → String
  | static => "static"
  | dynamic => "dynamic"

instance : Vocabulary ShapeClass where
  members := [static, dynamic]
  word := name

instance : ToString ShapeClass := ⟨name⟩

end ShapeClass

/-- The shape classes that an implementation serves. -/
inductive ShapeSupport where
  | staticOnly
  | dynamicOnly
  | both
  deriving DecidableEq

namespace ShapeSupport

def supports : ShapeSupport → ShapeClass → Bool
  | both, _ => true
  | staticOnly, .static => true
  | staticOnly, .dynamic => false
  | dynamicOnly, .static => false
  | dynamicOnly, .dynamic => true

def name : ShapeSupport → String
  | staticOnly => "static_only"
  | dynamicOnly => "dynamic_only"
  | both => "both"

/-- Capitalised name, used where a structure is shown field by field. -/
def title : ShapeSupport → String
  | staticOnly => "StaticOnly"
  | dynamicOnly => "DynamicOnly"
  | both => "Both"

instance : Vocabulary ShapeSupport where
  members := [staticOnly, dynamicOnly, both]
  word := name

end ShapeSupport

end LayoutPlanner
