import LayoutPlanner.Graph.View

/-!
# Capabilities

A capability says whether and how one backend can execute a node, and builds its implementation.
It may look at anything the view gives access to.
-/

namespace LayoutPlanner

/-- What comes of building an implementation. -/
inductive BuildResult where
  | built (handle : Handle)
  /-- A failure with its causes, the outermost first. -/
  | failed (causes : List String)
  /-- The backend broke down instead of answering.  It may have left a message. -/
  | crashed (message : Option String)

structure Capability where
  name : String
  kind : BackendKind
  shapes : ShapeSupport
  /-- Whether the node, as shown, can be executed. -/
  accepts : NodeView → Bool
  /-- The formats it would like the node to have, if it has an opinion. -/
  preference : NodeView → Option FormatPreference
  /-- Called only on a view that was accepted. -/
  build : NodeView → BuildResult

/-- What a capability says about a node. -/
inductive Verdict where
  | shapeMismatch
  | rejected
  | accepted
  deriving DecidableEq

def Verdict.title : Verdict → String
  | shapeMismatch => "ShapeMismatch"
  | rejected => "Rejected"
  | accepted => "Accepted"

namespace Capability

def supports (capability : Capability) (shape : ShapeClass) : Bool :=
  capability.shapes.supports shape

/-- The shape class is tested first; a node of the wrong class is not looked at. -/
def judge (capability : Capability) (view : NodeView) (shape : ShapeClass) : Verdict :=
  if capability.supports shape then
    if capability.accepts view then .accepted else .rejected
  else .shapeMismatch

/-- Whether the capability serves the shape class and accepts the view. -/
def admits (capability : Capability) (view : NodeView) (shape : ShapeClass) : Bool :=
  capability.judge view shape == .accepted

@[simp]
theorem admits_eq (capability : Capability) (view : NodeView) (shape : ShapeClass) :
    capability.admits view shape = (capability.supports shape && capability.accepts view) := by
  unfold admits judge
  cases capability.supports shape <;> cases capability.accepts view <;> rfl

end Capability

end LayoutPlanner
