import LayoutPlanner.Capability.Catalog
import LayoutPlanner.Planning.Error

/-!
# Selection

Which capability of a catalog gets a node: the first one, in order of priority, whose kind is
allowed and that admits the node.
-/

namespace LayoutPlanner

/-- A built implementation, with the kind and the name of the capability it came from. -/
structure Assignment where
  kind : BackendKind
  descriptor : String
  handle : Handle
  deriving DecidableEq

/-- What comes of choosing an implementation. -/
inductive Choice where
  | chosen (assignment : Assignment)
  | refused (error : PlanningError)
  | crashed (message : String)
  deriving DecidableEq

/-- What is reported for a breakdown that left no message. -/
def unknownCrash : String :=
  "non-string panic payload"

namespace Catalog

/-- The entries for an operation whose kind is in the mask. -/
def allowed (catalog : Catalog) (op : OpKind) (mask : KindMask) : List Capability :=
  (catalog.entries op).filter (mask.contains ·.kind)

/-- The first allowed entry that admits the node as it is. -/
def candidate? (catalog : Catalog) (view : NodeView) (mask : KindMask) : Option Capability :=
  (catalog.allowed view.op mask).find? (·.admits view view.shapeClass)

/-- Like `candidate?`, except that vendor routines are judged on the unpadded view.  The winner
comes with the view it admitted. -/
def candidateUnpadded? (catalog : Catalog) (plain unpadded : NodeView) (mask : KindMask) :
    Option (Capability × NodeView) :=
  (catalog.allowed plain.op mask).findSome? fun c =>
    let seen := if c.kind = .vendor then unpadded else plain
    if c.admits seen plain.shapeClass then some (c, seen) else none

/-- Whether an allowed entry that serves the shape class accepts the node. -/
def isSupported (catalog : Catalog) (view : NodeView) (mask : KindMask) (shape : ShapeClass) :
    Bool :=
  (catalog.allowed view.op mask).any (·.admits view shape)

/-- The kinds whose first entry for the node's shape class accepts it. -/
def availableKinds (catalog : Catalog) (view : NodeView) : KindMask :=
  .ofList <| BackendKind.all.filter fun kind =>
    ((catalog.entries view.op).find? fun c => c.kind == kind && c.supports view.shapeClass).any
      (·.accepts view)

/-- Picks the candidate and builds it.  A failed build is final: no other entry is tried. -/
def choose (catalog : Catalog) (view : NodeView) (mask : KindMask) : Choice :=
  match catalog.candidate? view mask with
  | none => .refused
      (.noImplementation view.describe view.op mask view.shapeClass view.attemptedKeys)
  | some c =>
    match c.build view with
    | .built handle => .chosen { kind := c.kind, descriptor := c.name, handle }
    | .failed causes => .refused (.build view.describe c.kind c.name causes)
    | .crashed message => .crashed (message.getD unknownCrash)

end Catalog

end LayoutPlanner
