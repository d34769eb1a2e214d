import LayoutPlanner.Tensor.ElementType
import LayoutPlanner.Tensor.Format
import LayoutPlanner.Tensor.Padding
import LayoutPlanner.Tensor.Shape

/-!
# Layouts

A layout is the full physical description of one tensor slot: the shape that inference reported,
and the element type, format and padding chosen for it.
-/

namespace LayoutPlanner

/-- Format and element type of a slot, without its shape. -/
structure LayoutKey where
  format : Format
  dtype : ElementType
  deriving DecidableEq

namespace LayoutKey

def text (key : LayoutKey) : String :=
  s!"{key.dtype}:{key.format}"

instance : ToString LayoutKey := ⟨text⟩

end LayoutKey

structure Layout where
  shape : Shape
  dtype : ElementType
  format : Format
  padding : Padding := {}
  deriving DecidableEq

namespace Layout

def withFormat (layout : Layout) (format : Format) : Layout :=
  { layout with format }

def withType (layout : Layout) (dtype : ElementType) : Layout :=
  { layout with dtype }

def withPadding (layout : Layout) (padding : Padding) : Layout :=
  { layout with padding }

def rank (layout : Layout) : Nat :=
  layout.shape.rank

def isDynamic (layout : Layout) : Bool :=
  layout.shape.isDynamic

def elementCount? (layout : Layout) : Option Nat :=
  layout.shape.elementCount?

def featureCount? (layout : Layout) : Option Nat :=
  layout.shape.featureCount?

/-- Size in bytes without padding, if every extent is known and the size fits. -/
def byteSize? (layout : Layout) : Option Nat :=
  layout.elementCount?.bind (Size.mul? · layout.dtype.bytes)

def key (layout : Layout) : LayoutKey :=
  ⟨layout.format, layout.dtype⟩

/-- The format lays out exactly the axes of the layout's rank. -/
def fitsRank (layout : Layout) : Bool :=
  layout.format.fits layout.rank

def text (layout : Layout) : String :=
  let pad := if layout.padding.isZero then "" else "+pad"
  s!"{layout.dtype}:{layout.format}[{layout.shape.text}]{pad}"

end Layout

/-- Dynamic as soon as one of the layouts is. -/
def ShapeClass.ofLayouts (layouts : List Layout) : ShapeClass :=
  .ofShapes (layouts.map Layout.shape)

end LayoutPlanner
