import LayoutPlanner.Tensor.Layout

/-!
# Key sets

The pairs of format and element type that an implementation accepts.  A key with format `any`
accepts every format of its type.
-/

namespace LayoutPlanner

structure KeySet where
  keys : List LayoutKey := []
  deriving DecidableEq

namespace KeySet

def insert (set : KeySet) (key : LayoutKey) : KeySet :=
  if set.keys.contains key then set else ⟨set.keys ++ [key]⟩

/-- Adds a type in each of the formats. -/
def withFormats (set : KeySet) (dtype : ElementType) (formats : List Format) : KeySet :=
  formats.foldl (fun set format => set.insert ⟨format, dtype⟩) set

/-- Adds every format of each type. -/
def withAnyFormat (set : KeySet) (dtypes : List ElementType) : KeySet :=
  dtypes.foldl (fun set dtype => set.withFormats dtype [.any]) set

/-- The set of all pairs of a type and a format. -/
def product (dtypes : List ElementType) (formats : List Format) : KeySet :=
  dtypes.foldl (fun set dtype => set.withFormats dtype formats) {}

def accepts (set : KeySet) (layout : Layout) : Bool :=
  set.keys.any fun key =>
    key.dtype == layout.dtype && (key.format == .any || key.format == layout.format)

/-- The set as diagnostics show it. -/
def inspect (set : KeySet) : String :=
  let inspectKey (key : LayoutKey) :=
    "LayoutKey \x7b format: " ++ key.format.title ++ ", dtype: " ++ key.dtype.title ++ " \x7d"
  "KeySet \x7b keys: [" ++ ", ".intercalate (set.keys.map inspectKey) ++ "] \x7d"

end KeySet

end LayoutPlanner
