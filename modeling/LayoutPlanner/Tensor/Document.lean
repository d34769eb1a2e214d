import LayoutPlanner.Json.Document
import LayoutPlanner.Tensor.Layout

/-!
# Written layouts

The JSON form of shapes, paddings and layouts.  A padding without any entry is left out of a
layout's record and is what a missing padding means.
-/

namespace LayoutPlanner

instance : Document Dimension where
  toJson
    | .static extent => .object [("Static", .nat extent)]
    | .dynamic symbol => .object [("Dynamic", .ofString symbol)]
  ofJson?
    | .record [(some "Static", value)] => value.asSize?.map .static
    | .record [(some "Dynamic", value)] => value.asText?.map .dynamic
    | _ => none

instance : Document Shape where
  toJson shape := .object [("dims", .list (shape.dims.map Document.toJson))]
  ofJson? json := do
    match ← json.fields? ["dims"] with
    | [some dims] => return ⟨← dims.asListOf? Document.ofJson?⟩
    | _ => none

instance : Document Padding where
  toJson padding := .object [
    ("lower", .list (padding.lower.map .nat)),
    ("upper", .list (padding.upper.map .nat))]
  ofJson? json := do
    match ← json.fields? ["lower", "upper"] with
    | [some lower, some upper] =>
      return ⟨← lower.asListOf? Json.asSize?, ← upper.asListOf? Json.asSize?⟩
    | _ => none

instance : Document LayoutKey where
  toJson key := .object [
    ("format", Document.toJson key.format),
    ("dtype", Document.toJson key.dtype)]
  ofJson? json := do
    match ← json.fields? ["format", "dtype"] with
    | [some format, some dtype] => return ⟨← Document.ofJson? format, ← Document.ofJson? dtype⟩
    | _ => none

instance : Document Layout where
  toJson layout := .object <|
    [("shape", Document.toJson layout.shape),
      ("dtype", Document.toJson layout.dtype),
      ("format", Document.toJson layout.format)] ++
    if layout.padding.isZero then [] else [("padding", Document.toJson layout.padding)]
  ofJson? json := do
    match ← json.fields? ["shape", "dtype", "format", "padding"] with
    | [some shape, some dtype, some format, padding] =>
      let padding ← match padding with
        | none => some {}
        | some written => Document.ofJson? written
      return {
        shape := ← Document.ofJson? shape
        dtype := ← Document.ofJson? dtype
        format := ← Document.ofJson? format
        padding }
    | _ => none

end LayoutPlanner
