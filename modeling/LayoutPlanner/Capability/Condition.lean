import LayoutPlanner.Graph.View

/-!
# Conditions on views

The tests that descriptors are put together from.  A test of an input or an output that the node
does not have fails.
-/

namespace LayoutPlanner

abbrev Condition := NodeView → Bool

namespace Condition

def all (conditions : List Condition) : Condition :=
  fun view => conditions.all (· view)

def any (conditions : List Condition) : Condition :=
  fun view => conditions.any (· view)

def not (condition : Condition) : Condition :=
  fun view => !condition view

/-- Every real input, as shown, passes the test. -/
def everyRealInput (test : Layout → Bool) : Condition :=
  fun view => view.realLayouts.all test

/-- Every input, as shown, passes the test, constants included. -/
def everyInput (test : Layout → Bool) : Condition :=
  fun view => view.inputLayouts.all test

def everyOutput (test : Layout → Bool) : Condition :=
  fun view => view.outputs.all test

/-- The input on a slot, as shown, passes the test. -/
def inputAt (slot : Nat) (test : Layout → Bool) : Condition :=
  fun view => (view.inputLayout? slot).any test

def outputAt (index : Nat) (test : Layout → Bool) : Condition :=
  fun view => view.outputs[index]?.any test

/-- No real input has padding on a batch or spatial axis. -/
def noBatchOrSpatialPadding : Condition :=
  everyRealInput fun layout => !layout.padding.hasBatchOrSpatial

/-- A convolution satisfies the test; other attributes pass. -/
def convolution (test : Convolution → Bool) : Condition :=
  fun view =>
    match view.node.attrs with
    | .convolution conv => test conv
    | _ => true

end Condition

end LayoutPlanner
