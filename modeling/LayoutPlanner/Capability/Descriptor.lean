import LayoutPlanner.Capability.Basic
import LayoutPlanner.Capability.Condition
import LayoutPlanner.Capability.KeySet

/-!
# Descriptors

A descriptor is a capability put together from independent checks.  A view passes if its shape
class is served, its real inputs and its outputs have accepted keys, and the conditions hold.
-/

namespace LayoutPlanner

/-- Vendor routines serve static shapes only, unless they say otherwise. -/
def BackendKind.usualShapes : BackendKind → ShapeSupport
  | .vendor => .staticOnly
  | .generic | .host | .accelerator => .both

structure Descriptor where
  name : String
  kind : BackendKind
  shapes : ShapeSupport := kind.usualShapes
  keys : Option KeySet := none
  /-- Condition on the layouts. -/
  layouts : Option Condition := none
  /-- Condition on the attributes, tested last. -/
  attributes : Option Condition := none
  formats : Option (NodeView → Option FormatPreference) := none
  build : NodeView → BuildResult

namespace Descriptor

/-- Every real input and every output has an accepted key. -/
def keysMatch (set : KeySet) : Condition :=
  .all [.everyRealInput set.accepts, .everyOutput set.accepts]

def accepts (descriptor : Descriptor) : Condition :=
  .all [
    fun view => descriptor.shapes.supports view.shapeClass,
    fun view => descriptor.keys.all (keysMatch · view),
    fun view => descriptor.layouts.all (· view),
    fun view => descriptor.attributes.all (· view)]

/-- The opinion of the descriptor; an opinion on nothing does not count. -/
def preference (descriptor : Descriptor) (view : NodeView) : Option FormatPreference := do
  let query ← descriptor.formats
  (query view).filter (!·.isEmpty)

def capability (descriptor : Descriptor) : Capability where
  name := descriptor.name
  kind := descriptor.kind
  shapes := descriptor.shapes
  accepts := descriptor.accepts
  preference := descriptor.preference
  build := descriptor.build

/-- The descriptor as diagnostics show it; of the conditions they say which are there. -/
def inspect (descriptor : Descriptor) : String :=
  let keys := match descriptor.keys with
    | none => "None"
    | some set => "Some(" ++ set.inspect ++ ")"
  let fields := [
    "name: " ++ Text.quoted descriptor.name,
    "kind: " ++ descriptor.kind.title,
    "shapes: " ++ descriptor.shapes.title,
    "keys: " ++ keys,
    "predicate: " ++ toString descriptor.layouts.isSome,
    "attr_check: " ++ toString descriptor.attributes.isSome,
    "formats: " ++ toString descriptor.formats.isSome]
  "Descriptor \x7b " ++ ", ".intercalate fields ++ " \x7d"

end Descriptor

end LayoutPlanner
