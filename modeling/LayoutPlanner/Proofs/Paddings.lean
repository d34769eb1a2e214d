import LayoutPlanner.Tensor.Padding
import Mathlib.Data.List.Basic

/-!
# Paddings

What an axis has after a padding was restricted.  Trimming the zeros at the end of a list does not
show on any axis, and lists that show the same on every axis are trimmed to the same list.  So
restrictions can be put together (`restrict_restrict`).
-/

namespace LayoutPlanner

namespace Padding

@[simp]
theorem getD_trimZeros (amounts : List Nat) (axis : Nat) :
    (trimZeros amounts).getD axis 0 = amounts.getD axis 0 := by
  induction amounts generalizing axis with
  | nil => rfl
  | cons amount rest ih =>
    have hrest := ih (axis - 1)
    unfold trimZeros
    split
    next hnil =>
      rw [hnil] at hrest
      cases axis with
      | zero => by_cases hzero : amount = 0 <;> simp [hzero]
      | succ axis =>
        have hrest : 0 = rest.getD axis 0 := hrest
        rw [List.getD_cons_succ, ← hrest]
        by_cases hzero : amount = 0 <;> simp [hzero]
    next =>
      cases axis with
      | zero => rfl
      | succ axis => simpa using hrest

theorem trimZeros_eq_nil_iff {amounts : List Nat} :
    trimZeros amounts = [] ↔ ∀ axis, amounts.getD axis 0 = 0 := by
  refine ⟨fun h axis => by rw [← getD_trimZeros, h]; rfl, fun h => ?_⟩
  induction amounts with
  | nil => rfl
  | cons amount rest ih =>
    have hrest : trimZeros rest = [] := ih fun axis => h (axis + 1)
    have hzero : amount = 0 := h 0
    simp [trimZeros, hrest, hzero]

/-- Amounts that agree on every axis are trimmed alike. -/
theorem trimZeros_congr {amounts amounts' : List Nat}
    (h : ∀ axis, amounts.getD axis 0 = amounts'.getD axis 0) :
    trimZeros amounts = trimZeros amounts' := by
  induction amounts generalizing amounts' with
  | nil => exact (trimZeros_eq_nil_iff.2 fun axis => (h axis).symm).symm
  | cons amount rest ih =>
    cases amounts' with
    | nil => exact trimZeros_eq_nil_iff.2 h
    | cons amount' rest' =>
      have hrest : trimZeros rest = trimZeros rest' := ih fun axis => h (axis + 1)
      have hamount : amount = amount' := h 0
      rw [trimZeros, trimZeros, hrest, hamount]

theorem getD_mapIdx_keep (keep : Nat → Bool) (amounts : List Nat) (axis : Nat) :
    (amounts.mapIdx fun axis amount => if keep axis then amount else 0).getD axis 0 =
      if keep axis then amounts.getD axis 0 else 0 := by
  rw [List.getD_eq_getElem?_getD, List.getElem?_mapIdx, List.getD_eq_getElem?_getD]
  cases amounts[axis]? <;> simp

theorem lowerAt_restrict (padding : Padding) (keep : Nat → Bool) (axis : Nat) :
    (padding.restrict keep).lowerAt axis = if keep axis then padding.lowerAt axis else 0 := by
  simp only [lowerAt, restrict, of, normalize, getD_trimZeros, getD_mapIdx_keep]

theorem upperAt_restrict (padding : Padding) (keep : Nat → Bool) (axis : Nat) :
    (padding.restrict keep).upperAt axis = if keep axis then padding.upperAt axis else 0 := by
  simp only [upperAt, restrict, of, normalize, getD_trimZeros, getD_mapIdx_keep]

/-- A restricted padding is padded where it was, on the axes that were kept. -/
theorem isPaddedAt_restrict (padding : Padding) (keep : Nat → Bool) (axis : Nat) :
    (padding.restrict keep).isPaddedAt axis = (keep axis && padding.isPaddedAt axis) := by
  rw [isPaddedAt, lowerAt_restrict, upperAt_restrict]
  cases keep axis <;> simp [isPaddedAt]

theorem restrict_restrict (padding : Padding) (keep keep' : Nat → Bool) :
    (padding.restrict keep').restrict keep =
      padding.restrict fun axis => keep axis && keep' axis := by
  have hamounts (amounts : List Nat) :
      trimZeros ((trimZeros (amounts.mapIdx fun axis amount =>
        if keep' axis then amount else 0)).mapIdx fun axis amount =>
        if keep axis then amount else 0) =
      trimZeros (amounts.mapIdx fun axis amount =>
        if keep axis && keep' axis then amount else 0) := by
    refine trimZeros_congr fun axis => ?_
    rw [getD_mapIdx_keep, getD_trimZeros, getD_mapIdx_keep,
      getD_mapIdx_keep fun axis => keep axis && keep' axis]
    cases keep axis <;> cases keep' axis <;> rfl
  simp only [restrict, of, normalize, hamounts]

theorem hasSpatial_iff {padding : Padding} :
    padding.hasSpatial = true ↔ ∃ axis, 2 ≤ axis ∧ padding.isPaddedAt axis = true := by
  simp only [hasSpatial, List.any_eq_true, List.mem_range, Bool.and_eq_true, decide_eq_true_eq]
  constructor
  · rintro ⟨axis, _, hle, hpadded⟩
    exact ⟨axis, hle, hpadded⟩
  · rintro ⟨axis, hle, hpadded⟩
    refine ⟨axis, ?_, hle, hpadded⟩
    by_contra hbeyond
    have hlower : padding.lower.length ≤ axis := by unfold axes at hbeyond; omega
    have hupper : padding.upper.length ≤ axis := by unfold axes at hbeyond; omega
    simp [isPaddedAt, lowerAt, upperAt, hlower, hupper] at hpadded

@[simp]
theorem hasSpatial_dropSpatial (padding : Padding) : padding.dropSpatial.hasSpatial = false := by
  rw [Bool.eq_false_iff, Ne, hasSpatial_iff]
  rintro ⟨axis, hle, hpadded⟩
  simp only [dropSpatial, isPaddedAt_restrict, Bool.and_eq_true, decide_eq_true_eq] at hpadded
  omega

@[simp]
theorem hasBatchOrSpatial_onlyFeature (padding : Padding) :
    padding.onlyFeature.hasBatchOrSpatial = false := by
  have hbatch : padding.onlyFeature.hasBatch = false := by
    simp [hasBatch, onlyFeature, isPaddedAt_restrict]
  have hspatial : padding.onlyFeature.hasSpatial = false := by
    rw [Bool.eq_false_iff, Ne, hasSpatial_iff]
    rintro ⟨axis, hle, hpadded⟩
    simp only [onlyFeature, isPaddedAt_restrict, Bool.and_eq_true, beq_iff_eq] at hpadded
    omega
  rw [hasBatchOrSpatial, hbatch, hspatial]
  rfl

@[simp]
theorem onlyFeature_dropSpatial (padding : Padding) :
    padding.dropSpatial.onlyFeature = padding.onlyFeature := by
  have hkeep : (fun axis => axis == 1 && decide (axis < 2)) = fun axis : Nat => axis == 1 := by
    funext axis
    by_cases haxis : axis = 1 <;> simp [haxis]
  rw [dropSpatial, onlyFeature, restrict_restrict, hkeep, onlyFeature]

/-- Without its spatial part a padding has nothing left of batch and space but the batch. -/
theorem hasBatchOrSpatial_of_dropSpatial {padding : Padding}
    (h : padding.dropSpatial.hasBatchOrSpatial = true) : padding.hasBatchOrSpatial = true := by
  rw [hasBatchOrSpatial, hasSpatial_dropSpatial, Bool.or_false, hasBatch, dropSpatial,
    isPaddedAt_restrict] at h
  rw [hasBatchOrSpatial, hasBatch, (Bool.and_eq_true_iff.1 h).2, Bool.true_or]

/-- Without padding of batch and space, only the features can be padded. -/
theorem isPaddedAt_eq_false {padding : Padding} (h : padding.hasBatchOrSpatial = false) {axis : Nat}
    (haxis : axis ≠ 1) : padding.isPaddedAt axis = false := by
  obtain ⟨hbatch, hspatial⟩ := Bool.or_eq_false_iff.1 h
  rcases Nat.eq_zero_or_pos axis with rfl | hpos
  · exact hbatch
  · rw [Bool.eq_false_iff, Ne, hasSpatial_iff] at hspatial
    exact Bool.eq_false_iff.2 fun hpadded => hspatial ⟨axis, by omega, hpadded⟩

end Padding

end LayoutPlanner
