import LayoutPlanner.Proofs.Paddings

/-!
# Canonical paddings

Layouts are compared as values, and reorders are shared between consumers whose layouts are equal.
So two paddings that pad the same axes by the same amounts have to be the same value.  This is so
for all paddings that are made here: none of their lists ends in a zero.  A padding that was read
from a document may have zeros at the end; what is kept of it when axes are cleared has none.

* `SameOnAxes`: two paddings have the same amounts on every axis.  Their canonical forms are then
  the same (`normalize_eq_normalize_iff`).
* `Made`: the ways to make a padding.  They give exactly the canonical forms
  (`made_iff_normalize_eq`).
* Clearing axes once is enough, the order does not matter, and `hasSpatial` tells whether it makes
  a difference.
-/

namespace LayoutPlanner

namespace Padding

/-! ## Equal on every axis -/

/-- Every axis has the same amounts before and after the data in both paddings. -/
def SameOnAxes (a b : Padding) : Prop :=
  ∀ axis, a.lowerAt axis = b.lowerAt axis ∧ a.upperAt axis = b.upperAt axis

@[simp]
theorem lowerAt_normalize (padding : Padding) (axis : Nat) :
    padding.normalize.lowerAt axis = padding.lowerAt axis :=
  getD_trimZeros padding.lower axis

@[simp]
theorem upperAt_normalize (padding : Padding) (axis : Nat) :
    padding.normalize.upperAt axis = padding.upperAt axis :=
  getD_trimZeros padding.upper axis

/-- Canonical forms tell axes apart, and nothing else. -/
theorem normalize_eq_normalize_iff {a b : Padding} :
    a.normalize = b.normalize ↔ a.SameOnAxes b := by
  constructor
  · intro h axis
    rw [← lowerAt_normalize a, ← upperAt_normalize a, h]
    simp
  · intro h
    have hlower : trimZeros a.lower = trimZeros b.lower := trimZeros_congr fun axis => (h axis).1
    have hupper : trimZeros a.upper = trimZeros b.upper := trimZeros_congr fun axis => (h axis).2
    rw [normalize, normalize, hlower, hupper]

@[simp]
theorem normalize_normalize (padding : Padding) : padding.normalize.normalize = padding.normalize :=
  normalize_eq_normalize_iff.2 fun axis => by simp

/-! ## Made paddings -/

/-- Trimming leaves a list alone if it does not end in a zero. -/
theorem trimZeros_eq_self_iff {amounts : List Nat} :
    trimZeros amounts = amounts ↔ amounts.getLast? ≠ some 0 := by
  induction amounts with
  | nil => simp [trimZeros]
  | cons amount rest ih =>
    cases rest with
    | nil => by_cases hzero : amount = 0 <;> simp [trimZeros, hzero]
    | cons next rest =>
      rw [List.getLast?_cons_cons, ← ih, trimZeros]
      split
      next hnil =>
        rw [hnil]
        by_cases hzero : amount = 0 <;> simp [hzero]
      next => simp

/-- The paddings that are made here.  Axes may be cleared from any padding, also from one that was
read from a document. -/
inductive Made : Padding → Prop
  | of (lower upper : List Nat) : Made (of lower upper)
  | spatial (rank amount : Nat) : Made (spatial rank amount)
  | dropSpatial (padding : Padding) : Made padding.dropSpatial
  | onlyFeature (padding : Padding) : Made padding.onlyFeature

variable {a b : Padding}

/-- The made paddings are the canonical forms: the last step of making one is to trim its lists. -/
theorem made_iff_normalize_eq : Made a ↔ a.normalize = a := by
  constructor
  · intro h
    cases h with
    | of | spatial | dropSpatial | onlyFeature => exact normalize_normalize _
  · intro h
    rw [← h]
    exact .of a.lower a.upper

theorem Made.normalize_eq (h : Made a) : a.normalize = a :=
  made_iff_normalize_eq.1 h

theorem Made.getLast?_ne (h : Made a) :
    a.lower.getLast? ≠ some 0 ∧ a.upper.getLast? ≠ some 0 := by
  rw [← trimZeros_eq_self_iff, ← trimZeros_eq_self_iff]
  exact ⟨congrArg lower h.normalize_eq, congrArg upper h.normalize_eq⟩

theorem Made.eq_iff (ha : Made a) (hb : Made b) : a = b ↔ a.SameOnAxes b := by
  rw [← normalize_eq_normalize_iff, ha.normalize_eq, hb.normalize_eq]

theorem made_zero : Made {} :=
  .of [] []

theorem isZero_iff : a.isZero = true ↔ a = {} := by
  cases a
  simp [isZero]

/-- For a made padding, having no lists is having nothing on any axis. -/
theorem Made.isZero_iff (h : Made a) :
    a.isZero = true ↔ ∀ axis, a.lowerAt axis = 0 ∧ a.upperAt axis = 0 := by
  rw [Padding.isZero_iff, h.eq_iff made_zero]
  rfl

/-! ## Cleared axes -/

theorem restrict_self (padding : Padding) (keep : Nat → Bool) :
    (padding.restrict keep).restrict keep = padding.restrict keep := by
  simp only [restrict_restrict, Bool.and_self]

theorem restrict_comm (padding : Padding) (keep keep' : Nat → Bool) :
    (padding.restrict keep).restrict keep' = (padding.restrict keep').restrict keep := by
  simp only [restrict_restrict, Bool.and_comm]

/-- A padding has the amounts of its spatial-free part exactly if it pads no spatial axis. -/
theorem sameOnAxes_dropSpatial_iff : a.SameOnAxes a.dropSpatial ↔ a.hasSpatial = false := by
  rw [Bool.eq_false_iff, Ne, hasSpatial_iff]
  constructor
  · rintro hsame ⟨axis, hspatial, hpadded⟩
    obtain ⟨hlower, hupper⟩ := hsame axis
    rw [dropSpatial, lowerAt_restrict, decide_eq_false (by omega)] at hlower
    rw [dropSpatial, upperAt_restrict, decide_eq_false (by omega)] at hupper
    simp [isPaddedAt, hlower, hupper] at hpadded
  · intro hnone axis
    rw [dropSpatial, lowerAt_restrict, upperAt_restrict]
    by_cases hkept : axis < 2
    · simp [hkept]
    · have hplain : ¬ a.isPaddedAt axis = true := fun hpadded => hnone ⟨axis, by omega, hpadded⟩
      simpa [isPaddedAt, hkept] using hplain

theorem Made.hasSpatial_iff (h : Made a) : a.hasSpatial = true ↔ a ≠ a.dropSpatial := by
  rw [Ne, h.eq_iff (.dropSpatial a), sameOnAxes_dropSpatial_iff, Bool.not_eq_false]

/-- No list of a made padding ends in a zero.  Made paddings are equal if they are the same on all
axes, and zero if all axes are.  Clearing axes of any padding leaves the others as they were; doing
it again changes nothing, and the order does not matter.  A made padding has spatial padding if
clearing that makes a difference. -/
theorem told_by_axes (ha : Made a) (hb : Made b) (given : Padding) :
    (a.lower.getLast? ≠ some 0 ∧ a.upper.getLast? ≠ some 0) ∧
    (a = b ↔ ∀ axis, a.lowerAt axis = b.lowerAt axis ∧ a.upperAt axis = b.upperAt axis) ∧
    (a.isZero = true ↔ ∀ axis, a.lowerAt axis = 0 ∧ a.upperAt axis = 0) ∧
    (∀ axis, given.dropSpatial.lowerAt axis = (if axis < 2 then given.lowerAt axis else 0) ∧
      given.dropSpatial.upperAt axis = if axis < 2 then given.upperAt axis else 0) ∧
    (∀ axis, given.onlyFeature.lowerAt axis = (if axis = 1 then given.lowerAt axis else 0) ∧
      given.onlyFeature.upperAt axis = if axis = 1 then given.upperAt axis else 0) ∧
    given.dropSpatial.dropSpatial = given.dropSpatial ∧
    given.onlyFeature.onlyFeature = given.onlyFeature ∧
    given.dropSpatial.onlyFeature = given.onlyFeature.dropSpatial ∧
    (a.hasSpatial = true ↔ a ≠ a.dropSpatial) := by
  refine ⟨ha.getLast?_ne, ha.eq_iff hb, ha.isZero_iff, fun axis => ?_, fun axis => ?_,
    restrict_self given _, restrict_self given _, restrict_comm given _ _, ha.hasSpatial_iff⟩
  · simp [dropSpatial, lowerAt_restrict, upperAt_restrict]
  · simp [onlyFeature, lowerAt_restrict, upperAt_restrict]

/-- A padding as a document may have it, with zeros at the end. -/
def writtenOut : Padding := ⟨[3, 2, 0, 0], [0, 2, 7]⟩

/-- What is kept of the features of `writtenOut` is the padding of two features on both sides. -/
theorem told_by_axes_writtenOut :
    ¬ Made writtenOut ∧ Made writtenOut.onlyFeature ∧ Made (of [0, 2, 0] [0, 2]) ∧
    writtenOut.onlyFeature = of [0, 2, 0] [0, 2] ∧
    (writtenOut.onlyFeature = of [0, 2, 0] [0, 2] ↔
      ∀ axis, writtenOut.onlyFeature.lowerAt axis = (of [0, 2, 0] [0, 2]).lowerAt axis ∧
        writtenOut.onlyFeature.upperAt axis = (of [0, 2, 0] [0, 2]).upperAt axis) ∧
    writtenOut.dropSpatial.onlyFeature = writtenOut.onlyFeature.dropSpatial ∧
    (writtenOut.onlyFeature.hasSpatial = true ↔
      writtenOut.onlyFeature ≠ writtenOut.onlyFeature.dropSpatial) := by
  have htold := told_by_axes (.onlyFeature writtenOut) (.of [0, 2, 0] [0, 2]) writtenOut
  obtain ⟨_, heq, _, _, _, _, _, hcomm, hspatial⟩ := htold
  refine ⟨?_, .onlyFeature writtenOut, .of _ _, by decide, heq, hcomm, hspatial⟩
  rw [made_iff_normalize_eq]
  decide

end Padding

end LayoutPlanner
