import LayoutPlanner.Capability.Descriptor

/-!
# Launch plans

The built-in backends do not generate code.  Building one of their descriptors records which entry
point runs the node and the layouts it was specialised for.
-/

namespace LayoutPlanner

/-- The plan for a node as shown.  Its entry point is named after the first output. -/
def LaunchPlan.ofView (kind : BackendKind) (descriptor : String) (view : NodeView) :
    LaunchPlan where
  kind := kind
  descriptor := descriptor
  entry := match view.outputs with
    | output :: _ => s!"{descriptor}_{output.format}_{output.dtype}"
    | [] => descriptor
  inputs := view.inputLayouts.map Layout.key
  outputs := view.outputs.map Layout.key
  footprint := Size.total? ((view.inputLayouts ++ view.outputs).map Layout.byteSize?)

namespace Builtin

/-- Plans any node. -/
def planned (kind : BackendKind) (name : String) (view : NodeView) : BuildResult :=
  .built (LaunchPlan.ofView kind name view).handle

/-- Plans nodes of known size only. -/
def plannedStatic (kind : BackendKind) (name : String) (view : NodeView) : BuildResult :=
  let plan := LaunchPlan.ofView kind name view
  if plan.footprint.isSome then .built plan.handle
  else .failed [s!"{name} requires static shapes"]

end Builtin

end LayoutPlanner
