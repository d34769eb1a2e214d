import LayoutPlanner.Backend.Kind
import LayoutPlanner.Tensor.Document

/-!
# Built implementations

What building an implementation leaves on a node: the kind and the name of the capability it came
from and, for the built-in backends, the launch plan.
-/

namespace LayoutPlanner

/-- Which entry point runs a node, and the layouts it was specialised for.  The footprint is the
number of bytes one invocation touches, if that is known and fits a size. -/
structure LaunchPlan where
  kind : BackendKind
  descriptor : String
  entry : String
  inputs : List LayoutKey
  outputs : List LayoutKey
  footprint : Option Nat
  deriving DecidableEq

namespace LaunchPlan

def toJson (plan : LaunchPlan) : Json :=
  .object [
    ("kind", Document.toJson plan.kind),
    ("descriptor", .ofString plan.descriptor),
    ("entry", .ofString plan.entry),
    ("inputs", .list (plan.inputs.map Document.toJson)),
    ("outputs", .list (plan.outputs.map Document.toJson)),
    ("footprint", .ofNat? plan.footprint)]

end LaunchPlan

structure Handle where
  kind : BackendKind
  name : String
  plan : Option LaunchPlan := none
  deriving DecidableEq

def LaunchPlan.handle (plan : LaunchPlan) : Handle :=
  { kind := plan.kind, name := plan.descriptor, plan := some plan }

end LayoutPlanner
