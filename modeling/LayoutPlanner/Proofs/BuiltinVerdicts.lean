import LayoutPlanner.Builtin.Catalog
import LayoutPlanner.Planning.Selection
import LayoutPlanner.Proofs.WellFormed
import Mathlib.Data.List.Forall2

/-!
# Verdicts of the built-in backends

A built-in capability looks at the outputs of a node, its attributes, and how its inputs are shown.
Taking padding away from inputs never turns its verdict around.

* `NodeView.Eases`: another view of the node shows the same, except that inputs may have lost their
  padding.
* `Layout.IgnoresPadding`: a test of layouts that does not look at padding.
* `Condition.Stable`: a condition that goes on holding.  All conditions of the built-in descriptors
  are stable.
* `Catalog.Tolerates`: a catalog whose entries go on accepting.  Its verdicts are stable
  (`Tolerates.isSupported`).  The built-in catalog is one.
* What generated kernels accept, and which formats an accepted node has.
* Which formats are preferred (`of_preference`).
-/

namespace LayoutPlanner

/-- The layouts are the same, except that the second one may have no padding. -/
structure Layout.Eases (a b : Layout) : Prop where
  shape : b.shape = a.shape
  dtype : b.dtype = a.dtype
  format : b.format = a.format
  padding : b.padding = a.padding ∨ b.padding = {}

/-- The test says the same of a layout whatever its padding is. -/
def Layout.IgnoresPadding (test : Layout → Bool) : Prop :=
  ∀ (layout : Layout) (padding : Padding), test (layout.withPadding padding) = test layout

theorem Layout.IgnoresPadding.of_eases {test : Layout → Bool} (htest : IgnoresPadding test)
    {a b : Layout} (h : a.Eases b) (ha : test a = true) : test b = true := by
  have heq : b = a.withPadding b.padding := by
    rw [withPadding, ← h.shape, ← h.dtype, ← h.format]
  rw [heq, htest, ha]

namespace NodeView

/-- Inputs at the same slots are of the same sort, and the second one is shown as the first,
except that it may have no padding. -/
def InputEases (v v' : NodeView) (a b : Input) : Prop :=
  b.isReal = a.isReal ∧ (v.shown a).Eases (v'.shown b)

/-- The second view shows what the first one does, except that inputs may have no padding. -/
structure Eases (v v' : NodeView) : Prop where
  op : v'.node.op = v.node.op
  name : v'.node.name = v.node.name
  attrs : v'.node.attrs = v.node.attrs
  fused : v'.node.fused = v.node.fused
  outputs : v'.node.outputs = v.node.outputs
  inputs : List.Forall₂ (InputEases v v') v.inputs v'.inputs

variable {v v' : NodeView}

theorem Eases.inputLayouts (h : v.Eases v') :
    List.Forall₂ Layout.Eases v.inputLayouts v'.inputLayouts := by
  unfold NodeView.inputLayouts
  rw [List.forall₂_map_left_iff, List.forall₂_map_right_iff]
  exact h.inputs.imp fun _ _ hinput => hinput.2

theorem Eases.realLayouts (h : v.Eases v') :
    List.Forall₂ Layout.Eases v.realLayouts v'.realLayouts := by
  unfold NodeView.realLayouts NodeView.realInputs
  have hinputs := h.inputs
  generalize v.inputs = inputs, v'.inputs = inputs' at hinputs
  induction hinputs with
  | nil => exact .nil
  | @cons a b _ _ hinput _ ih =>
    rw [List.filter_cons, List.filter_cons, hinput.1]
    split
    · exact .cons hinput.2 ih
    · exact ih

/-- The shapes are those that are produced, so the shape class is the same. -/
theorem Eases.shapeClass (h : v.Eases v') : v'.shapeClass = v.shapeClass := by
  have hinputs : (v'.inputs.map Input.layout).map Layout.shape =
      (v.inputs.map Input.layout).map Layout.shape := by
    have hall := h.inputs
    generalize v.inputs = inputs, v'.inputs = inputs' at hall
    induction hall with
    | nil => rfl
    | @cons a b _ _ hinput _ ih =>
      have hshape : b.layout.shape = a.layout.shape := hinput.2.shape
      simp only [List.map_cons, hshape]
      rw [ih]
  unfold NodeView.shapeClass ShapeClass.ofLayouts
  rw [List.map_append, List.map_append, hinputs, h.outputs]

end NodeView

/-! ## Stable verdicts -/

/-- The entries go on accepting a node when its inputs lose their padding. -/
def Catalog.Tolerates (catalog : Catalog) : Prop :=
  ∀ {op c}, c ∈ catalog.entries op → ∀ {v v' : NodeView}, v.Eases v' → c.accepts v = true →
    c.accepts v' = true

/-- A node that is supported stays supported when its inputs lose their padding, and under every
larger mask. -/
theorem Catalog.Tolerates.isSupported {catalog : Catalog} (hcatalog : catalog.Tolerates)
    {v v' : NodeView} (h : v.Eases v') {mask mask' : KindMask}
    (hmask : ∀ kind, mask.contains kind = true → mask'.contains kind = true)
    (hsupported : catalog.isSupported v mask v.shapeClass = true) :
    catalog.isSupported v' mask' v'.shapeClass = true := by
  have hop : v'.op = v.op := h.op
  simp only [Catalog.isSupported, Catalog.allowed, List.any_eq_true, List.mem_filter,
    Capability.admits_eq, Bool.and_eq_true, hop, h.shapeClass] at hsupported ⊢
  obtain ⟨c, ⟨hmem, hkind⟩, hserves, haccepts⟩ := hsupported
  exact ⟨c, ⟨hmem, hmask _ hkind⟩, hserves, hcatalog hmem h haccepts⟩

/-! ## Stable conditions -/

namespace Condition

/-- The condition goes on holding when inputs lose their padding. -/
def Stable (condition : Condition) : Prop :=
  ∀ {v v' : NodeView}, v.Eases v' → condition v = true → condition v' = true

theorem all_of_eases {test : Layout → Bool}
    (htest : ∀ {a b : Layout}, a.Eases b → test a = true → test b = true)
    {layouts layouts' : List Layout} (h : List.Forall₂ Layout.Eases layouts layouts')
    (hall : layouts.all test = true) :
    layouts'.all test = true := by
  induction h with
  | nil => rfl
  | cons hhead _ ih =>
    rw [List.all_cons, Bool.and_eq_true] at hall ⊢
    exact ⟨htest hhead hall.1, ih hall.2⟩

theorem stable_all {conditions : List Condition} (h : ∀ c ∈ conditions, Stable c) :
    Stable (all conditions) := by
  intro v v' heases hall
  simp only [all, List.all_eq_true] at hall ⊢
  exact fun c hmem => h c hmem heases (hall c hmem)

theorem stable_everyRealInput {test : Layout → Bool}
    (htest : ∀ {a b : Layout}, a.Eases b → test a = true → test b = true) :
    Stable (everyRealInput test) :=
  fun heases => all_of_eases htest heases.realLayouts

theorem stable_everyInput {test : Layout → Bool}
    (htest : ∀ {a b : Layout}, a.Eases b → test a = true → test b = true) :
    Stable (everyInput test) :=
  fun heases => all_of_eases htest heases.inputLayouts

theorem stable_everyOutput (test : Layout → Bool) : Stable (everyOutput test) := by
  intro v v' heases hall
  unfold everyOutput NodeView.outputs at hall ⊢
  rw [heases.outputs]
  exact hall

theorem stable_convolution (test : Convolution → Bool) : Stable (convolution test) := by
  intro v v' heases hall
  unfold convolution at hall ⊢
  rw [heases.attrs]
  exact hall

theorem stable_noBatchOrSpatialPadding : Stable noBatchOrSpatialPadding := by
  refine stable_everyRealInput fun {a b} heases hnone => ?_
  rcases heases.padding with hsame | hzero
  · rw [hsame]
    exact hnone
  · rw [hzero]
    rfl

end Condition

theorem KeySet.ignoresPadding (set : KeySet) : Layout.IgnoresPadding set.accepts :=
  fun _ _ => rfl

/-- A descriptor is stable if its own conditions are: the shape class and the keys always are. -/
theorem Descriptor.stable_accepts {descriptor : Descriptor}
    (hlayouts : ∀ c ∈ descriptor.layouts, Condition.Stable c)
    (hattributes : ∀ c ∈ descriptor.attributes, Condition.Stable c) :
    Condition.Stable descriptor.accepts := by
  have hoption : ∀ {condition : Option Condition}, (∀ c ∈ condition, Condition.Stable c) →
      Condition.Stable fun view => condition.all (· view) := by
    intro condition h v v' heases hall
    cases condition with
    | none => rfl
    | some c => exact h c rfl heases hall
  refine @Condition.stable_all _ fun c hmem => ?_
  simp only [List.mem_cons, List.not_mem_nil, or_false] at hmem
  rcases hmem with rfl | rfl | rfl | rfl
  · intro v v' heases hsupports
    dsimp only at hsupports ⊢
    rw [heases.shapeClass]
    exact hsupports
  · intro v v' heases hkeys
    cases hset : descriptor.keys with
    | none => rfl
    | some set =>
      rw [hset] at hkeys
      refine Condition.stable_all (fun c hmem => ?_) heases hkeys
      simp only [List.mem_cons, List.not_mem_nil, or_false] at hmem
      rcases hmem with rfl | rfl
      · exact Condition.stable_everyRealInput set.ignoresPadding.of_eases
      · exact Condition.stable_everyOutput set.accepts
  · exact hoption hlayouts
  · exact hoption hattributes

/-! ## Key sets -/

namespace KeySet

theorem mem_keys_insert {set : KeySet} {key other : LayoutKey} :
    other ∈ (set.insert key).keys ↔ other = key ∨ other ∈ set.keys := by
  unfold insert
  split
  next hmem =>
    rw [List.contains_iff_mem] at hmem
    exact ⟨Or.inr, fun h => h.elim (· ▸ hmem) fun h => h⟩
  next => simp [or_comm]

theorem mem_keys_withFormats {set : KeySet} {dtype : ElementType} {formats : List Format}
    {key : LayoutKey} :
    key ∈ (set.withFormats dtype formats).keys ↔
      key.dtype = dtype ∧ key.format ∈ formats ∨ key ∈ set.keys := by
  unfold withFormats
  induction formats generalizing set with
  | nil => simp
  | cons format rest ih =>
    rw [List.foldl_cons, ih, mem_keys_insert, List.mem_cons]
    obtain ⟨keyFormat, keyType⟩ := key
    simp only [LayoutKey.mk.injEq]
    tauto

/-- The product holds every pair of a type and a format, and nothing else. -/
theorem mem_keys_product {dtypes : List ElementType} {formats : List Format} {key : LayoutKey} :
    key ∈ (product dtypes formats).keys ↔ key.dtype ∈ dtypes ∧ key.format ∈ formats := by
  have hfold : ∀ set : KeySet,
      key ∈ (dtypes.foldl (fun set dtype => set.withFormats dtype formats) set).keys ↔
        key.dtype ∈ dtypes ∧ key.format ∈ formats ∨ key ∈ set.keys := by
    induction dtypes with
    | nil => simp
    | cons dtype rest ih =>
      intro set
      rw [List.foldl_cons, ih, mem_keys_withFormats, List.mem_cons]
      tauto
  rw [product, hfold]
  simp

theorem accepts_product_iff {dtypes : List ElementType} {formats : List Format}
    (hany : .any ∉ formats) {layout : Layout} :
    (product dtypes formats).accepts layout = true ↔
      layout.dtype ∈ dtypes ∧ layout.format ∈ formats := by
  unfold accepts
  simp only [List.any_eq_true, mem_keys_product, Bool.and_eq_true, Bool.or_eq_true, beq_iff_eq]
  constructor
  · rintro ⟨key, ⟨hdtype, hformat⟩, heq, hchosen | hsame⟩
    · exact absurd (hchosen ▸ hformat) hany
    · exact ⟨heq ▸ hdtype, hsame ▸ hformat⟩
  · rintro ⟨hdtype, hformat⟩
    exact ⟨layout.key, ⟨hdtype, hformat⟩, rfl, Or.inr rfl⟩

end KeySet

theorem Descriptor.accepts_iff {descriptor : Descriptor} {view : NodeView} :
    descriptor.accepts view = true ↔ descriptor.shapes.supports view.shapeClass = true ∧
      (∀ set ∈ descriptor.keys, keysMatch set view = true) ∧
      (∀ c ∈ descriptor.layouts, c view = true) ∧ ∀ c ∈ descriptor.attributes, c view = true := by
  simp [accepts, Condition.all, Option.all_eq_true]

namespace Builtin

/-! ## The built-in descriptors -/

namespace VendorRoutines

theorem ignoresPadding_isWithinOffsets : Layout.IgnoresPadding isWithinOffsets :=
  fun _ _ => rfl

theorem stable_withinOffsets : Condition.Stable withinOffsets := by
  refine @Condition.stable_all _ fun c hmem => ?_
  simp only [List.mem_cons, List.not_mem_nil, or_false] at hmem
  rcases hmem with rfl | rfl
  · exact Condition.stable_everyInput ignoresPadding_isWithinOffsets.of_eases
  · exact Condition.stable_everyOutput isWithinOffsets

theorem stable_convolutionAttributes : Condition.Stable convolutionAttributes := by
  refine @Condition.stable_all _ fun c hmem => ?_
  simp only [List.mem_cons, List.not_mem_nil, or_false] at hmem
  rcases hmem with rfl | rfl
  · exact Condition.stable_convolution smallWindow
  · exact stable_withinOffsets

/-- What the routines have in common. -/
structure IsRoutine (op : OpKind) (d : Descriptor) : Prop where
  kind : d.kind = .vendor
  keys : op ≠ .reorder → ∃ dtypes formats, d.keys = some (.product dtypes formats) ∧ .any ∉ formats
  layouts : ∀ c ∈ d.layouts, c = Condition.noBatchOrSpatialPadding
  attributes : d.attributes = some convolutionAttributes ∨ d.attributes = some withinOffsets
  build : d.build = planned .vendor d.name ∨
    d.build = plannedStatic .vendor d.name ∧ d.shapes = .staticOnly
  formats : d.formats = none ∨ op = .convolution ∧ d = convolution

theorem isRoutine_of_mem {op : OpKind} {d : Descriptor} (h : (op, d) ∈ descriptors) :
    IsRoutine op d := by
  simp only [descriptors, List.mem_cons, Prod.mk.injEq, List.not_mem_nil, or_false] at h
  rcases h with ⟨rfl, rfl⟩ | ⟨rfl, rfl⟩ | ⟨rfl, rfl⟩ | ⟨rfl, rfl⟩ | ⟨rfl, rfl⟩ | ⟨rfl, rfl⟩ |
    ⟨rfl, rfl⟩
  · exact ⟨rfl, fun _ => ⟨_, _, rfl, by decide⟩, fun _ h => (Option.some.inj h).symm, Or.inl rfl,
      Or.inr ⟨rfl, rfl⟩, Or.inr ⟨rfl, rfl⟩⟩
  · exact ⟨rfl, fun _ => ⟨_, _, rfl, by decide⟩, fun _ h => (Option.some.inj h).symm, Or.inl rfl,
      Or.inr ⟨rfl, rfl⟩, Or.inl rfl⟩
  · exact ⟨rfl, fun _ => ⟨_, _, rfl, by decide⟩, fun _ h => (Option.some.inj h).symm, Or.inr rfl,
      Or.inr ⟨rfl, rfl⟩, Or.inl rfl⟩
  · exact ⟨rfl, fun _ => ⟨_, _, rfl, by decide⟩, fun _ h => (Option.some.inj h).symm, Or.inr rfl,
      Or.inl rfl, Or.inl rfl⟩
  · exact ⟨rfl, fun _ => ⟨_, _, rfl, by decide⟩, fun _ h => (Option.some.inj h).symm, Or.inr rfl,
      Or.inr ⟨rfl, rfl⟩, Or.inl rfl⟩
  · exact ⟨rfl, fun _ => ⟨_, _, rfl, by decide⟩, fun _ h => (Option.some.inj h).symm, Or.inr rfl,
      Or.inr ⟨rfl, rfl⟩, Or.inl rfl⟩
  · exact ⟨rfl, fun h => absurd rfl h, fun _ h => absurd h (Option.not_mem_none _), Or.inr rfl,
      Or.inr ⟨rfl, rfl⟩, Or.inl rfl⟩

theorem IsRoutine.stable {op : OpKind} {d : Descriptor} (h : IsRoutine op d) :
    Condition.Stable d.accepts := by
  refine Descriptor.stable_accepts (fun c hmem => ?_) fun c hmem => ?_
  · rw [h.layouts c hmem]
    exact Condition.stable_noBatchOrSpatialPadding
  · rcases h.attributes with heq | heq
    · rw [heq] at hmem
      rw [← Option.some.inj hmem]
      exact stable_convolutionAttributes
    · rw [heq] at hmem
      rw [← Option.some.inj hmem]
      exact stable_withinOffsets

end VendorRoutines

namespace DeviceKernels

/-- A kernel runs a node if all its real inputs and all its outputs pass its test. -/
theorem accepts_kernel_iff {op : OpKind} {test : Layout → Bool} {view : NodeView} :
    (kernel op test).accepts view = true ↔
      (∀ input ∈ view.inputs, input.isReal = true → test (view.shown input) = true) ∧
      ∀ layout ∈ view.outputs, test layout = true := by
  have hshapes : BackendKind.generic.usualShapes.supports view.shapeClass = true := rfl
  simp [Descriptor.accepts_iff, hshapes, kernel, onAllLayouts, Condition.all,
    Condition.everyRealInput, Condition.everyOutput, NodeView.realLayouts, NodeView.realInputs,
    or_iff_not_imp_left]

theorem stable_kernel (op : OpKind) {test : Layout → Bool} (htest : Layout.IgnoresPadding test) :
    Condition.Stable (kernel op test).accepts := by
  refine Descriptor.stable_accepts (fun c hmem => ?_)
    fun c hmem => absurd hmem (Option.not_mem_none c)
  rw [← Option.some.inj hmem]
  refine @Condition.stable_all _ fun c hmem => ?_
  simp only [List.mem_cons, List.not_mem_nil, or_false] at hmem
  rcases hmem with rfl | rfl
  · exact Condition.stable_everyRealInput htest.of_eases
  · exact Condition.stable_everyOutput test

end DeviceKernels

namespace HostCode

theorem stable_routine (op : OpKind) : Condition.Stable (routine op).accepts := by
  refine Descriptor.stable_accepts (fun c hmem => ?_)
    fun c hmem => absurd hmem (Option.not_mem_none c)
  rw [← Option.some.inj hmem]
  refine @Condition.stable_all _ fun c hmem => ?_
  simp only [List.mem_cons, List.not_mem_nil, or_false] at hmem
  rcases hmem with rfl | rfl
  · refine Condition.stable_everyRealInput fun {a b} heases hzero => ?_
    rcases heases.padding with hsame | hnone
    · unfold isUnpadded at hzero ⊢
      rw [hsame]
      exact hzero
    · rw [isUnpadded, hnone]
      rfl
  · exact Condition.stable_everyOutput isUnpadded

end HostCode

theorem cases_of_mem {op : OpKind} {d : Descriptor} (h : (op, d) ∈ descriptors) :
    VendorRoutines.IsRoutine op d ∨
      (op ∈ DeviceKernels.ops ∧ d = DeviceKernels.kernel op DeviceKernels.isKernelLayout) ∨
      (op = .reorder ∧ d = DeviceKernels.kernel .reorder Layout.fitsRank) ∨
      d = HostCode.routine op := by
  simp only [descriptors, DeviceKernels.descriptors, HostCode.descriptors, List.mem_append,
    List.mem_map, List.mem_singleton, Prod.mk.injEq] at h
  rcases h with (hvendor | ⟨_, hop, rfl, rfl⟩ | ⟨rfl, rfl⟩) | ⟨_, _, rfl, rfl⟩
  · exact Or.inl (VendorRoutines.isRoutine_of_mem hvendor)
  · exact Or.inr (Or.inl ⟨hop, rfl⟩)
  · exact Or.inr (Or.inr (Or.inl ⟨rfl, rfl⟩))
  · exact Or.inr (Or.inr (Or.inr rfl))

theorem kernel_mem {op : OpKind} (h : op ∈ DeviceKernels.ops) :
    (op, DeviceKernels.kernel op DeviceKernels.isKernelLayout) ∈ descriptors := by
  simp only [descriptors, DeviceKernels.descriptors, List.mem_append, List.mem_map]
  exact Or.inl (Or.inr (Or.inl ⟨op, h, rfl⟩))

theorem reorder_mem : (.reorder, DeviceKernels.kernel .reorder Layout.fitsRank) ∈ descriptors := by
  simp [descriptors, DeviceKernels.descriptors]

/-- The verdict of a built-in descriptor does not depend on padding that goes away. -/
theorem stable_of_mem {op : OpKind} {d : Descriptor} (h : (op, d) ∈ descriptors) :
    Condition.Stable d.accepts := by
  rcases cases_of_mem h with hroutine | ⟨_, rfl⟩ | ⟨_, rfl⟩ | rfl
  · exact hroutine.stable
  · exact DeviceKernels.stable_kernel op fun _ _ => rfl
  · exact DeviceKernels.stable_kernel .reorder fun _ _ => rfl
  · exact HostCode.stable_routine op

/-- Outside reorders, an accepted node has formats for all its outputs. -/
theorem isChosen_of_accepts {op : OpKind} {d : Descriptor} (h : (op, d) ∈ descriptors)
    (hop : op ≠ .reorder) {view : NodeView} (haccepts : d.accepts view = true) :
    ∀ layout ∈ view.outputs, layout.format.isChosen = true := by
  intro layout hmem
  have hkeys : ∀ {dtypes formats}, d.keys = some (.product dtypes formats) → .any ∉ formats →
      layout.format.isChosen = true := by
    intro dtypes formats heq hany
    obtain ⟨_, hkeys, _⟩ := Descriptor.accepts_iff.1 haccepts
    have hmatch := hkeys _ heq
    simp only [Descriptor.keysMatch, Condition.all, Condition.everyOutput, List.all_cons,
      List.all_nil, Bool.and_true, Bool.and_eq_true, List.all_eq_true] at hmatch
    have hformat := ((KeySet.accepts_product_iff hany).1 (hmatch.2 layout hmem)).2
    rw [Format.isChosen, bne_iff_ne]
    exact fun hany' => hany (hany' ▸ hformat)
  rcases cases_of_mem h with hroutine | ⟨_, rfl⟩ | ⟨rfl, _⟩ | rfl
  · obtain ⟨dtypes, formats, heq, hany⟩ := hroutine.keys hop
    exact hkeys heq hany
  · have hkernel := (DeviceKernels.accepts_kernel_iff.1 haccepts).2 layout hmem
    rw [DeviceKernels.isKernelLayout, Bool.and_eq_true] at hkernel
    rw [Format.isChosen, bne_iff_ne]
    intro hany
    simp [Layout.fitsRank, hany, Format.fits, Format.axes?] at hkernel
  · exact absurd rfl hop
  · exact hkeys rfl (by decide)

/-! ## The built-in catalog -/

theorem mem_entries_iff {op : OpKind} {c : Capability} :
    c ∈ catalog.entries op ↔ ∃ d, (op, d) ∈ descriptors ∧ d.capability = c := by
  simp only [Catalog.entries, catalog, List.mem_map, List.mem_filter, Prod.exists, beq_iff_eq]
  constructor
  · rintro ⟨op', c', ⟨⟨op'', d, hmem, heq⟩, hop⟩, rfl⟩
    obtain ⟨rfl, rfl⟩ := Prod.mk.inj heq
    exact ⟨d, hop ▸ hmem, rfl⟩
  · rintro ⟨d, hmem, rfl⟩
    exact ⟨op, d.capability, ⟨⟨op, d, hmem, rfl⟩, rfl⟩, rfl⟩

theorem isSupported_iff {view : NodeView} {mask : KindMask} :
    catalog.isSupported view mask view.shapeClass = true ↔
      ∃ d, (view.op, d) ∈ descriptors ∧ mask.contains d.kind = true ∧ d.accepts view = true := by
  simp only [Catalog.isSupported, Catalog.allowed, List.any_eq_true, List.mem_filter,
    mem_entries_iff, Capability.admits_eq, Bool.and_eq_true]
  constructor
  · rintro ⟨c, ⟨⟨d, hmem, rfl⟩, hmask⟩, _, haccepts⟩
    exact ⟨d, hmem, hmask, haccepts⟩
  · rintro ⟨d, hmem, hmask, haccepts⟩
    exact ⟨d.capability, ⟨⟨d, hmem, rfl⟩, hmask⟩, (Descriptor.accepts_iff.1 haccepts).1, haccepts⟩

/-- A generated kernel supports a node if all its real inputs and all its outputs pass the test. -/
theorem isSupported_of_kernel {view : NodeView} {mask : KindMask} {test : Layout → Bool}
    (hmem : (view.op, DeviceKernels.kernel view.op test) ∈ descriptors)
    (hmask : mask.contains .generic = true)
    (hinputs : ∀ input ∈ view.inputs, input.isReal = true → test (view.shown input) = true)
    (houtputs : ∀ layout ∈ view.outputs, test layout = true) :
    catalog.isSupported view mask view.shapeClass = true :=
  isSupported_iff.2 ⟨_, hmem, hmask, DeviceKernels.accepts_kernel_iff.2 ⟨hinputs, houtputs⟩⟩

theorem tolerates : catalog.Tolerates := by
  intro op c hmem v v' heases haccepts
  obtain ⟨d, hd, rfl⟩ := mem_entries_iff.1 hmem
  exact stable_of_mem hd heases haccepts

/-! ## Preferences -/

namespace VendorRoutines

/-- The fastest format is one that the convolution routine takes, and it fits. -/
theorem of_fastestFormat {output : Layout} {format : Format}
    (h : fastestFormat? output = some format) :
    format ∈ convolutionFormats ∧ format.fits output.rank = true := by
  have hfits : ∀ {axes}, Format.axesOfRank output.rank = axes → format.axes? = some axes →
      format.fits output.rank = true := by
    intro axes hrank haxes
    rw [Format.fits, hrank, haxes, beq_self_eq_true]
  unfold fastestFormat? at h
  split at h
  next hrank _ => cases h; exact ⟨by decide, hfits hrank rfl⟩
  next hrank _ => cases h; exact ⟨by decide, hfits hrank rfl⟩
  next hrank _ =>
    split at h <;> cases h
    · exact ⟨by decide, hfits hrank rfl⟩
    · exact ⟨by decide, hfits hrank rfl⟩
  next hrank _ => cases h; exact ⟨by decide, hfits hrank rfl⟩
  next hrank _ => cases h; exact ⟨by decide, hfits hrank rfl⟩
  next hrank _ => cases h; exact ⟨by decide, hfits hrank rfl⟩
  next => cases h

/-- The convolution routine asks for its fastest format on the first output and on real inputs. -/
theorem of_convolutionPreference {view : NodeView} {preference : FormatPreference}
    (h : convolutionPreference view = some preference) :
    ∃ output format, view.outputs[0]? = some output ∧ fastestFormat? output = some format ∧
      preference.outputs = [format] ∧
      preference.inputs = view.inputs.map fun input => if input.isReal then format else .any := by
  obtain ⟨output, houtput, h⟩ := Option.bind_eq_some_iff.1 h
  obtain ⟨format, hformat, h⟩ := Option.bind_eq_some_iff.1 h
  cases h
  exact ⟨output, format, houtput, hformat, rfl, rfl⟩

end VendorRoutines

/-- The only built-in backend with an opinion on formats is the convolution routine. -/
theorem of_preference {view : NodeView} {c : Capability} (hlisted : c ∈ catalog.entries view.op)
    {preference : FormatPreference} (h : c.preference view = some preference) :
    view.op = .convolution ∧ c = VendorRoutines.convolution.capability ∧
      VendorRoutines.convolutionPreference view = some preference := by
  obtain ⟨d, hmem, rfl⟩ := mem_entries_iff.1 hlisted
  obtain ⟨query, hquery, hfound⟩ := Option.bind_eq_some_iff.1 h
  have hformats : d.formats = none ∨ view.op = .convolution ∧ d = VendorRoutines.convolution := by
    rcases cases_of_mem hmem with hroutine | ⟨_, rfl⟩ | ⟨_, rfl⟩ | rfl
    · exact hroutine.formats
    · exact Or.inl rfl
    · exact Or.inl rfl
    · exact Or.inl rfl
  rcases hformats with hnone | ⟨hop, rfl⟩
  · rw [hnone] at hquery
    cases hquery
  · cases hquery
    exact ⟨hop, rfl, (Option.filter_eq_some_iff.1 hfound).1⟩

end Builtin

/-- Whether there is a candidate is whether the node is supported. -/
theorem Catalog.isSome_candidate? (catalog : Catalog) (view : NodeView) (mask : KindMask) :
    (catalog.candidate? view mask).isSome = catalog.isSupported view mask view.shapeClass := by
  unfold Catalog.candidate? Catalog.isSupported
  rw [Bool.eq_iff_iff, List.find?_isSome, List.any_eq_true]

end LayoutPlanner
