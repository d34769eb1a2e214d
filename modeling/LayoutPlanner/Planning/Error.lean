import LayoutPlanner.Graph.Topology

/-!
# Planning errors

The ways in which planning a graph can fail.
-/

namespace LayoutPlanner

inductive PlanningError where
  | noImplementation (node : String) (op : OpKind) (requested : KindMask) (shape : ShapeClass)
      (formats : String)
  /-- The causes come outermost first. -/
  | build (node : String) (kind : BackendKind) (descriptor : String) (causes : List String)
  | layoutUnresolved (node : String) (requested : KindMask) (attempted : List LayoutKey)
      (blamed : Option String)
  | taskCrashed (node : NodeId) (message : String)
  | topology (error : TopologyError)
  deriving DecidableEq

namespace PlanningError

/-- A chain of causes in one line. -/
def chain (causes : List String) : String :=
  ": ".intercalate causes

def message : PlanningError → String
  | noImplementation node op requested shape formats =>
    s!"no implementation for node {node} ({op}): requested {requested}, {shape} shapes, " ++
      s!"formats [{formats}]"
  | build node kind descriptor causes =>
    s!"building {descriptor} ({kind}) for node {node} failed: {chain causes}"
  | layoutUnresolved node requested attempted blamed =>
    let tried := ", ".intercalate (attempted.map LayoutKey.text)
    let dependency := blamed.getD "none"
    s!"no legal layout for node {node} ({requested}): tried [{tried}], " ++
      s!"blamed dependency {dependency}"
  | taskCrashed node message => s!"build task for node {node} panicked: {message}"
  | topology error => error.message

/-- The node the error is about, if it is about one. -/
def node? : PlanningError → Option String
  | noImplementation node .. | build node .. | layoutUnresolved node .. => some node
  | taskCrashed .. | topology _ => none

end PlanningError

end LayoutPlanner
