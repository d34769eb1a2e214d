import LayoutPlanner.Tensor.Size

/-!
# Padding

Padding is a number of extra elements before (`lower`) and after (`upper`) the data on each axis.
An axis beyond the end of a list has none.  Paddings built by `of`, `spatial` and `restrict` have
no trailing zeros, so that equal paddings are equal values; a padding read from a document keeps
the lists it was written with.
-/

namespace LayoutPlanner

structure Padding where
  lower : List Nat := []
  upper : List Nat := []
  deriving DecidableEq

namespace Padding

/-- Drops the zeros at the end of a list. -/
def trimZeros : List Nat → List Nat
  | [] => []
  | amount :: rest =>
    match trimZeros rest with
    | [] => if amount = 0 then [] else [amount]
    | kept => amount :: kept

def normalize (padding : Padding) : Padding :=
  ⟨trimZeros padding.lower, trimZeros padding.upper⟩

def of (lower upper : List Nat) : Padding :=
  normalize ⟨lower, upper⟩

/-- The same amount on both sides of every spatial axis. -/
def spatial (rank amount : Nat) : Padding :=
  let amounts := (List.range rank).map fun axis => if axis < 2 then 0 else amount
  of amounts amounts

/-- The same for any rank; amounts on that many axes must fit in memory. -/
def spatial? (rank amount : Nat) : Option Padding :=
  if Size.canHold rank 8 then some (spatial rank amount) else none

def lowerAt (padding : Padding) (axis : Nat) : Nat :=
  padding.lower.getD axis 0

def upperAt (padding : Padding) (axis : Nat) : Nat :=
  padding.upper.getD axis 0

def isPaddedAt (padding : Padding) (axis : Nat) : Bool :=
  padding.lowerAt axis != 0 || padding.upperAt axis != 0

/-- Number of axes that either list says something about. -/
def axes (padding : Padding) : Nat :=
  max padding.lower.length padding.upper.length

/-- No axis is mentioned at all.  Written-out zeros count as a mention. -/
def isZero (padding : Padding) : Bool :=
  padding.lower.isEmpty && padding.upper.isEmpty

def hasBatch (padding : Padding) : Bool :=
  padding.isPaddedAt 0

def hasFeature (padding : Padding) : Bool :=
  padding.isPaddedAt 1

def hasSpatial (padding : Padding) : Bool :=
  (List.range padding.axes).any fun axis => 2 ≤ axis && padding.isPaddedAt axis

/-- The padding a vendor routine does not understand. -/
def hasBatchOrSpatial (padding : Padding) : Bool :=
  padding.hasBatch || padding.hasSpatial

/-- Clears every axis that `keep` refuses. -/
def restrict (padding : Padding) (keep : Nat → Bool) : Padding :=
  let pick (amounts : List Nat) := amounts.mapIdx fun axis amount => if keep axis then amount else 0
  of (pick padding.lower) (pick padding.upper)

def dropSpatial (padding : Padding) : Padding :=
  padding.restrict (· < 2)

def onlyFeature (padding : Padding) : Padding :=
  padding.restrict (· == 1)

end Padding

end LayoutPlanner
