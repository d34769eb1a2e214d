import LayoutPlanner.Proofs.Footprints
import Mathlib.Algebra.BigOperators.Ring.List

/-!
# Exact sizes

Products and sums are checked at every step.  A sum only grows, so a step that does not fit means
that the sum does not fit (`Size.total?_eq_some_iff`).  A product only grows as long as no factor
is zero (`Size.product?_eq`); after a zero it is small again, but the step that did not fit has
spoilt it.

So the size of a shape, of a layout or of all that a node touches is the exact one if it is found.
Without zero extents it is missing only for dynamic shapes and for sizes that do not fit.
-/

namespace LayoutPlanner

/-! ## Checked products and sums -/

namespace Size

/-- Without a zero, a check at every factor comes to one check at the end. -/
theorem foldlM_mul? {factors : List Nat} (hzero : 0 ∉ factors) {start : Nat}
    (hstart : start < limit) :
    factors.foldlM mul? start =
      if start * factors.prod < limit then some (start * factors.prod) else none := by
  induction factors generalizing start with
  | nil => simp [hstart]
  | cons factor rest ih =>
    rw [List.mem_cons, not_or] at hzero
    rw [List.foldlM_cons, List.prod_cons, ← Nat.mul_assoc, mul?]
    split
    next hfits => exact ih hzero.2 hfits
    next hlarge =>
      have hpos : 0 < rest.prod := Nat.pos_of_ne_zero (List.prod_ne_zero hzero.2)
      have hgrows := Nat.le_mul_of_pos_right (start * factor) hpos
      rw [if_neg (by omega)]
      rfl

theorem product?_eq {factors : List Nat} (hzero : 0 ∉ factors) :
    product? factors = if factors.prod < limit then some factors.prod else none := by
  rw [product?, foldlM_mul? hzero (by decide), Nat.one_mul]

/-- With a zero or without, a product that is found fits. -/
theorem lt_limit_of_product? {factors : List Nat} {n : Nat} (h : product? factors = some n) :
    n < limit := by
  by_cases hzero : 0 ∈ factors
  · rw [← prod_of_product? h, List.prod_eq_zero hzero]
    decide
  · rw [product?_eq hzero] at h
    split at h
    next hfits => exact Option.some.inj h ▸ hfits
    next => cases h

/-- A sum is found if all its parts are known and it fits, and then it is the exact one. -/
theorem total?_eq_some_iff {parts : List (Option Nat)} {total : Nat} :
    total? parts = some total ↔
      ∃ sizes : List Nat, parts = sizes.map some ∧ sizes.sum = total ∧ total < limit := by
  constructor
  · have hfold : ∀ start, start < limit →
        parts.foldlM (fun sum part => part.bind (add? sum)) start = some total →
        ∃ sizes : List Nat, parts = sizes.map some ∧ start + sizes.sum = total ∧
          total < limit := by
      induction parts with
      | nil =>
        intro start hstart h
        cases h
        exact ⟨[], rfl, rfl, hstart⟩
      | cons part rest ih =>
        intro start _ h
        rw [List.foldlM_cons] at h
        obtain ⟨next, hnext, hrest⟩ := Option.bind_eq_some_iff.1 h
        obtain ⟨size, rfl, hadd⟩ := Option.bind_eq_some_iff.1 hnext
        obtain ⟨hsum, hfits⟩ := add?_eq_some_iff.1 hadd
        obtain ⟨sizes, rfl, htotal, hlt⟩ := ih next hfits hrest
        refine ⟨size :: sizes, rfl, ?_, hlt⟩
        rw [List.sum_cons]
        omega
    intro h
    obtain ⟨sizes, hparts, hsum, hlt⟩ := hfold 0 (by decide) h
    exact ⟨sizes, hparts, by omega, hlt⟩
  · rintro ⟨sizes, rfl, rfl, hlt⟩
    exact total?_map_some sizes hlt

end Size

/-! ## Shapes -/

namespace Shape

variable {shape : Shape} {n : Nat}

/-- The exact number of elements of a shape of known extents. -/
def Counts (shape : Shape) (count : Nat) : Prop :=
  ∃ extents, shape = .ofExtents extents ∧ extents.prod = count

theorem extents?_ofExtents (extents : List Nat) :
    (ofExtents extents).extents? = some extents := by
  rw [extents?, ofExtents, mapM_eq_some_iff, List.forall₂_map_left_iff, List.forall₂_same]
  exact fun _ _ => rfl

theorem elementCount?_ofExtents (extents : List Nat) :
    (ofExtents extents).elementCount? = Size.product? extents := by
  rw [elementCount?, extents?_ofExtents, Option.bind_some]

theorem ofExtents_injective : Function.Injective ofExtents := by
  intro extents extents' h
  have hfound := extents?_ofExtents extents
  rw [h, extents?_ofExtents] at hfound
  exact (Option.some.inj hfound).symm

theorem static_zero_mem_ofExtents {extents : List Nat} :
    .static 0 ∈ (ofExtents extents).dims ↔ 0 ∈ extents := by
  simp [ofExtents]

/-- A shape is not dynamic if it is made of known extents. -/
theorem isDynamic_eq_false_iff :
    shape.isDynamic = false ↔ ∃ extents, shape = .ofExtents extents := by
  constructor
  · intro h
    obtain ⟨dims⟩ := shape
    induction dims with
    | nil => exact ⟨[], rfl⟩
    | cons dim rest ih =>
      simp only [isDynamic, List.any_cons, Bool.or_eq_false_iff] at h ih
      obtain ⟨extents, hrest⟩ := ih h.2
      cases dim with
      | static extent => exact ⟨extent :: extents, by simp_all [ofExtents]⟩
      | dynamic symbol => cases h.1
  · rintro ⟨extents, rfl⟩
    simp [isDynamic, ofExtents, Dimension.isDynamic]

theorem Counts.isDynamic_eq (h : shape.Counts n) : shape.isDynamic = false := by
  obtain ⟨extents, hshape, _⟩ := h
  exact isDynamic_eq_false_iff.2 ⟨extents, hshape⟩

/-- A number of elements that is found is the exact one. -/
theorem counts_of_elementCount? (h : shape.elementCount? = some n) :
    shape.Counts n ∧ n < Size.limit := by
  obtain ⟨extents, hextents, hproduct⟩ := Option.bind_eq_some_iff.1 h
  exact ⟨⟨extents, eq_of_extents? hextents, Size.prod_of_product? hproduct⟩,
    Size.lt_limit_of_product? hproduct⟩

theorem elementCount?_eq_some_iff (hzero : .static 0 ∉ shape.dims) :
    shape.elementCount? = some n ↔ shape.Counts n ∧ n < Size.limit := by
  refine ⟨counts_of_elementCount?, ?_⟩
  rintro ⟨⟨extents, rfl, rfl⟩, hlt⟩
  rw [static_zero_mem_ofExtents] at hzero
  rw [elementCount?_ofExtents, Size.product?_eq hzero, if_pos hlt]

end Shape

/-! ## Layouts -/

theorem ElementType.bytes_pos (dtype : ElementType) : 0 < dtype.bytes := by
  cases dtype <;> decide

namespace Layout

variable {layout : Layout} {size : Nat}

theorem Occupies.isDynamic_eq (h : layout.Occupies size) : layout.isDynamic = false := by
  obtain ⟨extents, hshape, _⟩ := h
  exact Shape.isDynamic_eq_false_iff.2 ⟨extents, hshape⟩

theorem occupies_unique : Relator.RightUnique Occupies := by
  rintro layout size size' ⟨extents, hshape, rfl⟩ ⟨extents', hshape', rfl⟩
  rw [Shape.ofExtents_injective (hshape.symm.trans hshape')]

theorem exists_occupies (h : layout.isDynamic = false) : ∃ size, layout.Occupies size := by
  obtain ⟨extents, hshape⟩ := Shape.isDynamic_eq_false_iff.1 h
  exact ⟨_, extents, hshape, rfl⟩

theorem lt_limit_of_byteSize? (h : layout.byteSize? = some size) : size < Size.limit := by
  obtain ⟨_, _, hsize⟩ := Option.bind_eq_some_iff.1 h
  exact (Size.mul?_eq_some_iff.1 hsize).2

theorem byteSize?_eq_some_iff (hzero : .static 0 ∉ layout.shape.dims) :
    layout.byteSize? = some size ↔ layout.Occupies size ∧ size < Size.limit := by
  refine ⟨fun h => ⟨byteSize?_occupies h, lt_limit_of_byteSize? h⟩, ?_⟩
  rintro ⟨⟨extents, hshape, rfl⟩, hlt⟩
  have hle : extents.prod ≤ extents.prod * layout.dtype.bytes :=
    Nat.le_mul_of_pos_right _ layout.dtype.bytes_pos
  have hcount : layout.elementCount? = some extents.prod :=
    (Shape.elementCount?_eq_some_iff hzero).2 ⟨⟨extents, hshape, rfl⟩, by omega⟩
  rw [byteSize?, hcount, Option.bind_some, Size.mul?_eq_some_iff]
  exact ⟨rfl, hlt⟩

end Layout

/-! ## Nodes -/

namespace NodeView

variable {view : NodeView} {total : Nat}

/-- Everything that a node reads, as shown, and writes. -/
def buffers (view : NodeView) : List Layout :=
  view.inputLayouts ++ view.outputs

/-- The exact number of bytes of everything that a node reads and writes. -/
def Touches (view : NodeView) (total : Nat) : Prop :=
  ∃ sizes : List Nat, List.Forall₂ Layout.Occupies view.buffers sizes ∧ sizes.sum = total

theorem Touches.unique {total' : Nat} (h : view.Touches total) (h' : view.Touches total') :
    total = total' := by
  obtain ⟨sizes, hsizes, rfl⟩ := h
  obtain ⟨sizes', hsizes', rfl⟩ := h'
  rw [Layout.occupies_unique.forall₂ hsizes hsizes']

theorem Touches.isDynamic_eq (h : view.Touches total) :
    ∀ layout ∈ view.buffers, layout.isDynamic = false := by
  obtain ⟨sizes, hsizes, _⟩ := h
  have hknown := hsizes.imp fun _ _ hsize => And.intro hsize.isDynamic_eq hsize
  exact ((List.forall₂_and_left _ _).1 hknown).1

theorem exists_touches (h : ∀ layout ∈ view.buffers, layout.isDynamic = false) :
    ∃ total, view.Touches total := by
  have hsizes : ∃ sizes, List.Forall₂ Layout.Occupies view.buffers sizes := by
    generalize view.buffers = layouts at h
    induction layouts with
    | nil => exact ⟨[], .nil⟩
    | cons layout rest ih =>
      obtain ⟨size, hsize⟩ := Layout.exists_occupies (h layout List.mem_cons_self)
      obtain ⟨sizes, hsizes⟩ := ih fun layout hmem => h layout (List.mem_cons_of_mem _ hmem)
      exact ⟨size :: sizes, .cons hsize hsizes⟩
  obtain ⟨sizes, hsizes⟩ := hsizes
  exact ⟨sizes.sum, sizes, hsizes, rfl⟩

/-- A footprint that is found is the exact one. -/
theorem touches_of_total? (h : Size.total? (view.buffers.map Layout.byteSize?) = some total) :
    view.Touches total ∧ total < Size.limit := by
  obtain ⟨sizes, hparts, hsum, hlt⟩ := Size.total?_eq_some_iff.1 h
  refine ⟨⟨sizes, ?_, hsum⟩, hlt⟩
  rw [← List.forall₂_eq_eq_eq, List.forall₂_map_left_iff, List.forall₂_map_right_iff] at hparts
  exact hparts.imp fun _ _ => Layout.byteSize?_occupies

theorem total?_eq_some_iff (hzero : ∀ layout ∈ view.buffers, .static 0 ∉ layout.shape.dims) :
    Size.total? (view.buffers.map Layout.byteSize?) = some total ↔
      view.Touches total ∧ total < Size.limit := by
  refine ⟨touches_of_total?, ?_⟩
  rintro ⟨⟨sizes, hsizes, rfl⟩, hlt⟩
  refine Size.total?_eq_some_iff.2 ⟨sizes, ?_, rfl, hlt⟩
  rw [← List.forall₂_eq_eq_eq, List.forall₂_map_left_iff, List.forall₂_map_right_iff]
  rw [List.forall₂_iff_zip] at hsizes ⊢
  refine ⟨hsizes.1, fun {layout size} hmem => ?_⟩
  obtain ⟨hlayout, hsize⟩ := List.of_mem_zip hmem
  have hle : size ≤ sizes.sum := List.le_sum_of_mem hsize
  exact (Layout.byteSize?_eq_some_iff (hzero layout hlayout)).2 ⟨hsizes.2 hmem, by omega⟩

/-- Without zero extents, there is no footprint if a shape is dynamic or the sum does not fit. -/
theorem total?_eq_none_iff (hzero : ∀ layout ∈ view.buffers, .static 0 ∉ layout.shape.dims) :
    Size.total? (view.buffers.map Layout.byteSize?) = none ↔
      (∃ layout ∈ view.buffers, layout.isDynamic = true) ∨
        ∃ total, view.Touches total ∧ Size.limit ≤ total := by
  constructor
  · intro hnone
    by_cases hdynamic : ∃ layout ∈ view.buffers, layout.isDynamic = true
    · exact .inl hdynamic
    · have hstatic : ∀ layout ∈ view.buffers, layout.isDynamic = false := by simpa using hdynamic
      obtain ⟨total, htouches⟩ := exists_touches hstatic
      refine .inr ⟨total, htouches, Nat.le_of_not_lt fun hlt => ?_⟩
      rw [(total?_eq_some_iff hzero).2 ⟨htouches, hlt⟩] at hnone
      cases hnone
  · intro h
    rw [Option.eq_none_iff_forall_ne_some]
    intro found hfound
    obtain ⟨htouches, hlt⟩ := touches_of_total? hfound
    rcases h with ⟨layout, hmem, hdynamic⟩ | ⟨total, htotal, hle⟩
    · rw [htouches.isDynamic_eq layout hmem] at hdynamic
      cases hdynamic
    · rw [htotal.unique htouches] at hle
      omega

end NodeView

/-- A number of elements or of bytes that is found is the exact one, of known extents, and fits in
64 bits.  If no extent is zero, it is found whenever the extents are known and it fits.  The
footprint of a node is the exact sum over its inputs, as shown, and its outputs; if no extent is
zero, it is missing exactly if one of them is dynamic or the sum does not fit. -/
theorem sizes_exact_or_absent (shape : Shape) (layout : Layout) (kind : BackendKind) (name : String)
    (view : NodeView) :
    (∀ n, shape.elementCount? = some n →
      shape.isDynamic = false ∧ shape.Counts n ∧ n < 2 ^ 64) ∧
    (.static 0 ∉ shape.dims → (shape.elementCount?.isSome = true ↔
      shape.isDynamic = false ∧ ∃ n, shape.Counts n ∧ n < 2 ^ 64)) ∧
    (∀ n, layout.byteSize? = some n →
      layout.isDynamic = false ∧ layout.Occupies n ∧ n < 2 ^ 64) ∧
    (.static 0 ∉ layout.shape.dims → (layout.byteSize?.isSome = true ↔
      layout.isDynamic = false ∧ ∃ n, layout.Occupies n ∧ n < 2 ^ 64)) ∧
    (∀ total, (LaunchPlan.ofView kind name view).footprint = some total →
      view.Touches total ∧ total < 2 ^ 64) ∧
    ((∀ buffer ∈ view.buffers, .static 0 ∉ buffer.shape.dims) →
      ((LaunchPlan.ofView kind name view).footprint = none ↔
        (∃ buffer ∈ view.buffers, buffer.isDynamic = true) ∨
          ∃ total, view.Touches total ∧ 2 ^ 64 ≤ total)) := by
  refine ⟨fun n hn => ?_, fun hzero => ?_, fun n hn => ?_, fun hzero => ?_,
    fun total htotal => NodeView.touches_of_total? htotal,
    fun hzero => NodeView.total?_eq_none_iff hzero⟩
  · obtain ⟨hcounts, hlt⟩ := Shape.counts_of_elementCount? hn
    exact ⟨hcounts.isDynamic_eq, hcounts, hlt⟩
  · rw [Option.isSome_iff_exists]
    simp only [Shape.elementCount?_eq_some_iff hzero]
    constructor
    · rintro ⟨n, hcounts, hlt⟩
      exact ⟨hcounts.isDynamic_eq, n, hcounts, hlt⟩
    · exact fun h => h.2
  · have hoccupies := Layout.byteSize?_occupies hn
    exact ⟨hoccupies.isDynamic_eq, hoccupies, Layout.lt_limit_of_byteSize? hn⟩
  · rw [Option.isSome_iff_exists]
    simp only [Layout.byteSize?_eq_some_iff hzero]
    constructor
    · rintro ⟨n, hoccupies, hlt⟩
      exact ⟨hoccupies.isDynamic_eq, n, hoccupies, hlt⟩
    · exact fun h => h.2

/-- The count of elements is spoilt when a zero comes too late. -/
example : ((Shape.ofExtents [1099511627776, 1099511627776, 0]).elementCount?,
    (Shape.ofExtents [0, 1099511627776, 1099511627776]).elementCount?) = (none, some 0) := by
  decide

/-- A plane of as many elements as can be counted in rows of `2 ^ 32`. -/
def widestPlane : Layout :=
  ⟨.ofExtents [4294967295, 4294967296], .f16, .bfyx, {}⟩

/-- A sum that reads one block of `2 ^ 63` bytes twice. -/
def doubledBlock : List NodeDecl :=
  [{ name := "block", op := .input,
     outputs := [⟨.ofExtents [2147483648, 4294967296], .si8, .bfyx, {}⟩] },
    { name := "doubled", op := .eltwise, inputs := [⟨⟨0⟩, 0⟩, ⟨⟨0⟩, 0⟩],
      outputs := [⟨.ofExtents [4], .f32, .bfyx, {}⟩] }]

/-- The elements of `widestPlane` can be counted and its bytes cannot.  Nor can the bytes that
`doubledBlock` touches, although the block itself has a size. -/
theorem sizes_of_doubledBlock : ∃ g view,
    Graph.build? doubledBlock = some (.ok g) ∧ g.view? ⟨1⟩ = some view ∧
    .static 0 ∉ widestPlane.shape.dims ∧
    (widestPlane.shape.elementCount?.isSome = true ↔ widestPlane.shape.isDynamic = false ∧
      ∃ n, widestPlane.shape.Counts n ∧ n < 2 ^ 64) ∧
    widestPlane.shape.elementCount?.isSome = true ∧
    (widestPlane.byteSize?.isSome = true ↔ widestPlane.isDynamic = false ∧
      ∃ n, widestPlane.Occupies n ∧ n < 2 ^ 64) ∧
    widestPlane.byteSize?.isSome = false ∧
    (∀ buffer ∈ view.buffers, .static 0 ∉ buffer.shape.dims) ∧
    view.buffers.map Layout.byteSize? = [some (2 ^ 63), some (2 ^ 63), some 16] ∧
    ((LaunchPlan.ofView .generic "sum" view).footprint = none ↔
      (∃ buffer ∈ view.buffers, buffer.isDynamic = true) ∨
        ∃ total, view.Touches total ∧ 2 ^ 64 ≤ total) ∧
    (LaunchPlan.ofView .generic "sum" view).footprint = none := by
  have hexact := sizes_exact_or_absent widestPlane.shape widestPlane .generic "sum"
  refine ⟨?g, ?view, ?build, ?shown, ?nonzero, (hexact ?view).2.1 ?nonzero, rfl,
    (hexact ?view).2.2.2.1 ?nonzero, rfl, ?nonzeros, ?sizes, (hexact ?view).2.2.2.2.2 ?nonzeros,
    ?footprint⟩
  case build => rfl
  case shown => rfl
  case nonzero => decide
  case nonzeros => decide
  case sizes => rfl
  case footprint => rfl

end LayoutPlanner
