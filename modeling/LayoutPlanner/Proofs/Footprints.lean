import LayoutPlanner.Graph.Declaration
import LayoutPlanner.Proofs.BuiltinVerdicts
import Mathlib.Algebra.Order.BigOperators.Group.List
import Mathlib.Algebra.Order.Ring.Nat

/-!
# Footprints

Sizes are computed with a check at every step, so one that comes out is exact (`byteSize?_occupies`,
`Size.total?_map_some`).  A routine takes a node only if 32-bit offsets can address each of its
buffers.  With at most `2 ^ 32` buffers the sum of their sizes is a size, so the node has a
footprint, and a built-in backend that takes a node also builds it (`build_of_accepts`).
-/

namespace LayoutPlanner

/-! ## Exact sizes -/

namespace Size

/-- A product that comes out is the exact one. -/
theorem prod_of_product? {factors : List Nat} {n : Nat} (h : product? factors = some n) :
    factors.prod = n := by
  have hfold : ∀ start, factors.foldlM mul? start = some n → start * factors.prod = n := by
    clear h
    induction factors with
    | nil =>
      intro start h
      rw [List.prod_nil, Nat.mul_one]
      exact Option.some.inj h
    | cons factor rest ih =>
      intro start h
      rw [List.foldlM_cons] at h
      obtain ⟨next, hnext, h⟩ := Option.bind_eq_some_iff.1 h
      rw [List.prod_cons, ← Nat.mul_assoc, (mul?_eq_some_iff.1 hnext).1]
      exact ih next h
  rw [← hfold 1 h, Nat.one_mul]

/-- Known sizes have their exact sum, if that is a size. -/
theorem total?_map_some (sizes : List Nat) (h : sizes.sum < limit) :
    total? (sizes.map some) = some sizes.sum := by
  have hfold : ∀ start, start + sizes.sum < limit →
      (sizes.map some).foldlM (fun sum part => part.bind (add? sum)) start =
        some (start + sizes.sum) := by
    clear h
    induction sizes with
    | nil => exact fun start _ => rfl
    | cons size rest ih =>
      intro start h
      rw [List.sum_cons, ← Nat.add_assoc] at h ⊢
      have hadd : add? start size = some (start + size) := add?_eq_some_iff.2 ⟨rfl, by omega⟩
      rw [List.map_cons, List.foldlM_cons, Option.bind_some, hadd]
      exact ih (start + size) h
  rw [total?, hfold 0 (by omega), Nat.zero_add]

end Size

theorem Shape.eq_of_extents? {shape : Shape} {extents : List Nat}
    (h : shape.extents? = some extents) : shape = .ofExtents extents := by
  have hstatic : ∀ {dim : Dimension} {extent : Nat}, dim.extent? = some extent →
      dim = .static extent := by
    intro dim extent h
    cases dim with
    | static => rw [Option.some.inj h]
    | dynamic => cases h
  have hdims := (mapM_eq_some_iff.1 h).imp fun _ _ => hstatic
  rw [← List.forall₂_map_right_iff, List.forall₂_eq_eq_eq] at hdims
  exact congrArg Shape.mk hdims

namespace Layout

/-- The exact number of bytes of a layout of known shape, without its padding. -/
def Occupies (layout : Layout) (size : Nat) : Prop :=
  ∃ extents, layout.shape = .ofExtents extents ∧ extents.prod * layout.dtype.bytes = size

theorem byteSize?_occupies {layout : Layout} {size : Nat} (h : layout.byteSize? = some size) :
    layout.Occupies size := by
  obtain ⟨count, hcount, hsize⟩ := Option.bind_eq_some_iff.1 h
  obtain ⟨extents, hextents, hproduct⟩ := Option.bind_eq_some_iff.1 hcount
  refine ⟨extents, Shape.eq_of_extents? hextents, ?_⟩
  rw [Size.prod_of_product? hproduct, (Size.mul?_eq_some_iff.1 hsize).1]

end Layout

namespace Builtin

namespace VendorRoutines

/-! ## Buffers -/

/-- All buffers of a node that a routine takes are within its offsets. -/
theorem IsRoutine.withinOffsets {op : OpKind} {d : Descriptor} (h : IsRoutine op d)
    {view : NodeView} (haccepts : d.accepts view = true) : withinOffsets view = true := by
  obtain ⟨_, _, _, hattributes⟩ := Descriptor.accepts_iff.1 haccepts
  rcases h.attributes with heq | heq
  · have hall := hattributes _ heq
    simp only [convolutionAttributes, Condition.all, List.all_cons, List.all_nil, Bool.and_true,
      Bool.and_eq_true] at hall
    exact hall.2
  · exact hattributes _ heq

/-- Each buffer of a node of known shape within the offsets has a size below `2 ^ 32`. -/
theorem exists_byteSize {view : NodeView} (hstatic : view.shapeClass.isDynamic = false)
    (hwithin : withinOffsets view = true) {layout : Layout}
    (hmem : layout ∈ view.inputLayouts ++ view.outputs) :
    ∃ size, layout.byteSize? = some size ∧ size ≤ offsetLimit := by
  have hshapes : ∀ layout ∈ view.inputs.map Input.layout ++ view.outputs,
      layout.isDynamic = false := by
    unfold NodeView.shapeClass ShapeClass.ofLayouts ShapeClass.ofShapes at hstatic
    split at hstatic
    next => cases hstatic
    next hnone =>
      intro layout hmem
      by_contra hdynamic
      refine hnone (List.any_eq_true.2 ⟨layout.shape, List.mem_map_of_mem hmem, ?_⟩)
      simpa [Layout.isDynamic] using hdynamic
  have hknown : layout.isDynamic = false := by
    rcases List.mem_append.1 hmem with hinput | houtput
    · obtain ⟨input, hread, rfl⟩ := List.mem_map.1 hinput
      exact hshapes input.layout (List.mem_append_left _ (List.mem_map_of_mem hread))
    · exact hshapes layout (List.mem_append_right _ houtput)
  have hsize : isWithinOffsets layout = true := by
    simp only [VendorRoutines.withinOffsets, Condition.all, Condition.everyInput,
      Condition.everyOutput, List.all_cons, List.all_nil, Bool.and_true, Bool.and_eq_true,
      List.all_eq_true] at hwithin
    exact (List.mem_append.1 hmem).elim (hwithin.1 layout) (hwithin.2 layout)
  rw [isWithinOffsets, hknown, Bool.false_or, Option.any_eq_true] at hsize
  obtain ⟨size, hsize, hle⟩ := hsize
  exact ⟨size, hsize, by simpa using hle⟩

/-- A node of known shape within the offsets has the exact sum of its sizes as footprint, unless it
has very many buffers. -/
theorem exists_footprint {view : NodeView} (hstatic : view.shapeClass.isDynamic = false)
    (hwithin : withinOffsets view = true)
    (hfew : view.inputs.length + view.outputs.length ≤ 2 ^ 32) :
    ∃ sizes : List Nat, List.Forall₂ Layout.Occupies (view.inputLayouts ++ view.outputs) sizes ∧
      sizes.sum < Size.limit ∧
      Size.total? ((view.inputLayouts ++ view.outputs).map Layout.byteSize?) = some sizes.sum := by
  have hknown : ∀ layout ∈ view.inputLayouts ++ view.outputs,
      layout.byteSize? = some (layout.byteSize?.getD 0) ∧
        layout.byteSize?.getD 0 ≤ offsetLimit := by
    intro layout hmem
    obtain ⟨size, hsize, hle⟩ := exists_byteSize hstatic hwithin hmem
    rw [hsize]
    exact ⟨rfl, hle⟩
  let sizes := (view.inputLayouts ++ view.outputs).map fun layout => layout.byteSize?.getD 0
  have hoccupies : List.Forall₂ Layout.Occupies (view.inputLayouts ++ view.outputs) sizes := by
    rw [List.forall₂_map_right_iff, List.forall₂_same]
    exact fun layout hmem => Layout.byteSize?_occupies (hknown layout hmem).1
  have hbound : sizes.sum < Size.limit := by
    have hle : sizes.sum ≤ sizes.length • offsetLimit := by
      refine List.sum_le_card_nsmul sizes offsetLimit fun size hmem => ?_
      obtain ⟨layout, hlayout, rfl⟩ := List.mem_map.1 hmem
      exact (hknown layout hlayout).2
    have hlength : sizes.length = view.inputs.length + view.outputs.length := by
      rw [List.length_map, List.length_append, NodeView.inputLayouts, List.length_map]
    have hoffset : offsetLimit = 4294967295 := rfl
    have hlimit : Size.limit = 18446744073709551616 := rfl
    rw [hlength, hoffset, Nat.nsmul_eq_mul] at hle
    omega
  refine ⟨sizes, hoccupies, hbound, ?_⟩
  have hmap : (view.inputLayouts ++ view.outputs).map Layout.byteSize? = sizes.map some := by
    rw [List.map_map]
    exact List.map_congr_left fun layout hmem => (hknown layout hmem).1
  rw [hmap, Size.total?_map_some sizes hbound]

/-- A routine for nodes of known size that takes a node finds its footprint, and builds it. -/
theorem IsRoutine.exists_plan {op : OpKind} {d : Descriptor} (h : IsRoutine op d)
    (hshapes : d.shapes = .staticOnly) {view : NodeView} (haccepts : d.accepts view = true)
    (hfew : view.inputs.length + view.outputs.length ≤ 2 ^ 32) :
    ∃ sizes : List Nat, List.Forall₂ Layout.Occupies (view.inputLayouts ++ view.outputs) sizes ∧
      sizes.sum < Size.limit ∧
      (LaunchPlan.ofView .vendor d.name view).footprint = some sizes.sum ∧
      d.build view = .built (LaunchPlan.ofView .vendor d.name view).handle := by
  have hstatic : view.shapeClass.isDynamic = false := by
    have hsupports := (Descriptor.accepts_iff.1 haccepts).1
    rw [hshapes] at hsupports
    cases hclass : view.shapeClass with
    | static => rfl
    | dynamic =>
      rw [hclass] at hsupports
      cases hsupports
  obtain ⟨sizes, hoccupies, hbound, htotal⟩ :=
    exists_footprint hstatic (h.withinOffsets haccepts) hfew
  have hfootprint : (LaunchPlan.ofView .vendor d.name view).footprint = some sizes.sum := htotal
  refine ⟨sizes, hoccupies, hbound, hfootprint, ?_⟩
  rcases h.build with hbuild | ⟨hbuild, _⟩
  · rw [hbuild, planned]
  · rw [hbuild, plannedStatic]
    simp only [hfootprint, Option.isSome_some, if_true]

end VendorRoutines

/-! ## Builds -/

/-- A built-in backend that takes a node also builds it. -/
theorem build_of_accepts {op : OpKind} {d : Descriptor} (hmem : (op, d) ∈ descriptors)
    {view : NodeView} (haccepts : d.accepts view = true)
    (hfew : view.inputs.length + view.outputs.length ≤ 2 ^ 32) :
    ∃ handle, d.build view = .built handle := by
  rcases cases_of_mem hmem with hroutine | ⟨_, rfl⟩ | ⟨_, rfl⟩ | rfl
  · rcases hroutine.build with hbuild | ⟨_, hshapes⟩
    · exact ⟨_, by rw [hbuild]; rfl⟩
    · obtain ⟨_, _, _, _, hbuild⟩ := hroutine.exists_plan hshapes haccepts hfew
      exact ⟨_, hbuild⟩
  · exact ⟨_, rfl⟩
  · exact ⟨_, rfl⟩
  · exact ⟨_, rfl⟩

section Choice

variable {view : NodeView} (hfew : view.inputs.length + view.outputs.length ≤ 2 ^ 32)

include hfew

/-- The candidate is built, and is what is chosen. -/
theorem choose_of_candidate {mask : KindMask} {c : Capability}
    (hfound : catalog.candidate? view mask = some c) :
    ∃ handle, c.build view = .built handle ∧
      catalog.choose view mask = .chosen ⟨c.kind, c.name, handle⟩ := by
  have hallowed := List.mem_of_find?_eq_some hfound
  have hadmits := List.find?_some hfound
  obtain ⟨d, hmem, rfl⟩ := mem_entries_iff.1 (List.mem_filter.1 hallowed).1
  rw [Capability.admits_eq, Bool.and_eq_true] at hadmits
  obtain ⟨handle, hbuild⟩ := build_of_accepts hmem hadmits.2 hfew
  have hbuild : d.capability.build view = .built handle := hbuild
  refine ⟨handle, hbuild, ?_⟩
  simp only [Catalog.choose, hfound, hbuild]

/-- An accepted node is given to some backend, as long as the kind of the one that accepts it is
allowed. -/
theorem exists_choice_of_accepts {d : Descriptor} (hmem : (view.op, d) ∈ descriptors)
    (haccepts : d.accepts view = true) {mask : KindMask} (hmask : mask.contains d.kind = true) :
    ∃ assignment, catalog.choose view mask = .chosen assignment := by
  have hadmits : d.capability.admits view view.shapeClass = true := by
    rw [Capability.admits_eq, Bool.and_eq_true]
    exact ⟨(Descriptor.accepts_iff.1 haccepts).1, haccepts⟩
  have hallowed : d.capability ∈ catalog.allowed view.op mask :=
    List.mem_filter.2 ⟨mem_entries_iff.2 ⟨d, hmem, rfl⟩, hmask⟩
  have hsome : (catalog.candidate? view mask).isSome = true :=
    List.find?_isSome.2 ⟨d.capability, hallowed, hadmits⟩
  obtain ⟨c, hfound⟩ := Option.isSome_iff_exists.1 hsome
  obtain ⟨handle, _, hchosen⟩ := choose_of_candidate hfew hfound
  exact ⟨_, hchosen⟩

end Choice

end Builtin

/-- There is one input for each edge of a node. -/
theorem Graph.length_inputs_of_view {g : Graph} {id : NodeId} {view : NodeView}
    (h : g.view? id = some view) : view.inputs.length = view.node.deps.length := by
  obtain ⟨node, inputs, hnode, hinputs, rfl⟩ := Graph.view?_eq_some_iff.1 h
  rw [Graph.inputs?, hnode, Option.bind_eq_bind, Option.bind_some, mapM_eq_some_iff] at hinputs
  rw [← hinputs.length_eq, List.length_zipIdx]

/-- If a node has at most `2 ^ 32` inputs and outputs, a built-in backend that accepts it also
builds it.  So the candidate among those of the allowed kinds is what is chosen, and without a
candidate the error is that nothing takes the node.  A routine for static shapes that accepts the
node finds the exact sum of the sizes of all inputs and outputs, which is below the limit. -/
theorem builtin_choice_builds {g : Graph} {id : NodeId} {view : NodeView}
    (hview : g.view? id = some view)
    (hfew : view.node.deps.length + view.node.outputs.length ≤ 2 ^ 32) :
    (∀ mask c, Builtin.catalog.candidate? view mask = some c → ∃ handle,
      c.build view = .built handle ∧
        Builtin.catalog.choose view mask = .chosen ⟨c.kind, c.name, handle⟩) ∧
    (∀ mask, Builtin.catalog.candidate? view mask = none →
      Builtin.catalog.choose view mask =
        .refused
          (.noImplementation view.describe view.op mask view.shapeClass view.attemptedKeys)) ∧
    (∀ d, (view.op, d) ∈ Builtin.descriptors → d.accepts view = true →
      (∃ handle, d.build view = .built handle) ∧
        ∀ mask : KindMask, mask.contains d.kind = true →
          ∃ assignment, Builtin.catalog.choose view mask = .chosen assignment) ∧
    ∀ d, (view.op, d) ∈ Builtin.descriptors → d.kind = .vendor → d.shapes = .staticOnly →
      d.accepts view = true →
      ∃ sizes : List Nat, List.Forall₂ Layout.Occupies (view.inputLayouts ++ view.outputs) sizes ∧
        sizes.sum < 2 ^ 64 ∧
        (LaunchPlan.ofView d.kind d.name view).footprint = some sizes.sum ∧
        d.build view = .built (LaunchPlan.ofView d.kind d.name view).handle := by
  rw [← Graph.length_inputs_of_view hview] at hfew
  refine ⟨fun mask c hfound => Builtin.choose_of_candidate hfew hfound, fun mask hnone => ?_,
    fun d hmem haccepts => ⟨Builtin.build_of_accepts hmem haccepts hfew, fun mask hmask =>
      Builtin.exists_choice_of_accepts hfew hmem haccepts hmask⟩,
    fun d hmem hkind hshapes haccepts => ?_⟩
  · simp only [Catalog.choose, hnone]
  · have hroutine : Builtin.VendorRoutines.IsRoutine view.op d := by
      rcases Builtin.cases_of_mem hmem with hroutine | ⟨_, rfl⟩ | ⟨_, rfl⟩ | rfl
      · exact hroutine
      all_goals cases hkind
    rw [hkind]
    exact hroutine.exists_plan hshapes haccepts hfew

/-- A convolution of bytes whose buffers take all that 32-bit offsets can address. -/
def widestConvolution : List NodeDecl :=
  let layout : Layout := ⟨.ofExtents [1, 1, 65535, 65537], .si8, .bfyx, {}⟩
  [{ name := "image", op := .input, outputs := [layout] },
    { name := "filtered", op := .convolution, inputs := [⟨⟨0⟩, 0⟩], outputs := [layout],
      attrs := .convolution (.ofKernel [3, 3]) }]

theorem builtin_choice_widestConvolution : ∃ g view,
    Graph.build? widestConvolution = some (.ok g) ∧ g.view? ⟨1⟩ = some view ∧
    view.node.deps.length + view.node.outputs.length ≤ 2 ^ 32 ∧
    (view.op, Builtin.VendorRoutines.convolution) ∈ Builtin.descriptors ∧
    Builtin.VendorRoutines.convolution.accepts view = true ∧
    Builtin.catalog.candidate? view .any = some Builtin.VendorRoutines.convolution.capability ∧
    (∃ handle, Builtin.VendorRoutines.convolution.build view = .built handle ∧
      Builtin.catalog.choose view .any = .chosen ⟨.vendor, "vendor_conv", handle⟩) ∧
    Builtin.catalog.candidate? view .none = none ∧
    Builtin.catalog.choose view .none =
      .refused (.noImplementation view.describe view.op .none view.shapeClass view.attemptedKeys) ∧
    (∃ assignment, Builtin.catalog.choose view (.only .vendor) = .chosen assignment) ∧
    ∃ sizes : List Nat, List.Forall₂ Layout.Occupies (view.inputLayouts ++ view.outputs) sizes ∧
      sizes.sum < 2 ^ 64 ∧
      (LaunchPlan.ofView .vendor "vendor_conv" view).footprint = some sizes.sum ∧
      Builtin.VendorRoutines.convolution.build view =
        .built (LaunchPlan.ofView .vendor "vendor_conv" view).handle := by
  refine ⟨?g, ?view, ?build, ?shown, ?few, ?listed, ?accepts, ?found,
    (builtin_choice_builds ?shown ?few).1 _ _ ?found, ?missing,
    (builtin_choice_builds ?shown ?few).2.1 _ ?missing,
    ((builtin_choice_builds ?shown ?few).2.2.1 _ ?listed ?accepts).2 _ rfl,
    (builtin_choice_builds ?shown ?few).2.2.2 Builtin.VendorRoutines.convolution ?listed rfl rfl
      ?accepts⟩
  case build => rfl
  case shown => rfl
  case few => decide
  case listed => exact List.mem_append_left _ (List.mem_append_left _ List.mem_cons_self)
  case accepts => rfl
  case found => rfl
  case missing => rfl

end LayoutPlanner
