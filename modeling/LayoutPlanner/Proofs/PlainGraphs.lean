import LayoutPlanner.Proofs.Buildable

/-!
# Plainly declared graphs

What propagation with the built-in backends makes of a graph without pins in which every declared
format is plain.

* A format is preferred only on slots that real inputs feed, and never on those of reorders
  (`Unbiased`).
* A node without inputs suits a generated kernel or the convolution routine (`Node.Standalone`).
-/

namespace LayoutPlanner

/-! ## Reading an overlaid preference -/

/-- The entries are assigned one after the other, the first of them at `start`. -/
theorem getD_foldl_assign {α : Type} {isSet : α → Bool} {fill : α} (hfill : isSet fill = false)
    (news old : List α) (start i : Nat) : ((news.zipIdx start).foldl
      (fun acc (value, index) => if isSet value then assign fill acc index value else acc)
      old).getD i fill =
        if start ≤ i ∧ isSet (news.getD (i - start) fill) then news.getD (i - start) fill
        else old.getD i fill := by
  induction news generalizing old start with
  | nil => simp [hfill]
  | cons value rest ih =>
    rw [List.zipIdx_cons, List.foldl_cons, ih]
    have hother : i ≠ start →
        (if isSet value then assign fill old start value else old).getD i fill =
          old.getD i fill := by
      intro hne
      split
      · exact getD_assign_of_ne fill old value hne
      · rfl
    rcases Nat.lt_trichotomy i start with hlt | rfl | hgt
    · rw [hother (Nat.ne_of_lt hlt), if_neg (by omega), if_neg (by omega)]
    · rw [if_neg (by omega), Nat.sub_self, List.getD_cons_zero]
      by_cases hset : isSet value = true
      · simp only [hset, if_true, Nat.le_refl, and_self]
        exact getD_assign_self fill old i value
      · simp [hset]
    · have hstep : i - start = i - (start + 1) + 1 := by omega
      rw [hother (Nat.ne_of_gt hgt), hstep, List.getD_cons_succ]
      simp only [Nat.succ_le_of_lt hgt, Nat.le_of_lt hgt, true_and]

theorem getD_overlayEntries {α : Type} {isSet : α → Bool} {fill : α} (hfill : isSet fill = false)
    (old news : List α) (i : Nat) :
    (overlayEntries isSet fill old news).getD i fill =
      if isSet (news.getD i fill) then news.getD i fill else old.getD i fill := by
  have hzero := getD_foldl_assign hfill news old 0 i
  simp only [Nat.zero_le, true_and, Nat.sub_zero] at hzero
  exact hzero

namespace FormatPreference

theorem input_overlay (p news : FormatPreference) (slot : Nat) :
    (p.overlay news).input slot = (news.input slot).orElse (p.input slot) := by
  unfold input overlay
  rw [getD_overlayEntries rfl]
  simp [Format.isChosen, Format.orElse]

theorem output_overlay (p news : FormatPreference) (index : Nat) :
    (p.overlay news).output index = (news.output index).orElse (p.output index) := by
  unfold output overlay
  rw [getD_overlayEntries rfl]
  simp [Format.isChosen, Format.orElse]

end FormatPreference

/-! ## Nodes without inputs -/

theorem Builtin.DeviceKernels.isUnsupported_defaultFor (rank : Nat) :
    isUnsupported (.defaultFor rank) = false := by
  unfold Format.defaultFor
  split <;> rfl

namespace Builtin.VendorRoutines

/-- Without inputs, the convolution routine looks at the attributes and the outputs only. -/
theorem convolution_accepts_iff {view : NodeView} (hview : view.inputs = []) :
    convolution.accepts view = true ↔ ShapeSupport.staticOnly.supports view.shapeClass = true ∧
      Condition.convolution smallWindow view = true ∧
      ∀ layout ∈ view.outputs, layout.dtype ∈ [.f16, .f32, .si8, .ui8] ∧
        layout.format ∈ convolutionFormats ∧ isWithinOffsets layout = true := by
  have hinputs : view.inputLayouts = [] := by simp [NodeView.inputLayouts, hview]
  have hreal : view.realLayouts = [] := by simp [NodeView.realLayouts, NodeView.realInputs, hview]
  have hkeys : Descriptor.keysMatch (.product [.f16, .f32, .si8, .ui8] convolutionFormats) view =
      true ↔ ∀ layout ∈ view.outputs, layout.dtype ∈ [.f16, .f32, .si8, .ui8] ∧
        layout.format ∈ convolutionFormats := by
    simp only [Descriptor.keysMatch, Condition.all, Condition.everyRealInput,
      Condition.everyOutput, hreal, List.all_cons, List.all_nil, Bool.true_and, Bool.and_true,
      List.all_eq_true, KeySet.accepts_product_iff (show Format.any ∉ convolutionFormats by decide)]
  have hattributes : convolutionAttributes view = true ↔
      Condition.convolution smallWindow view = true ∧
        ∀ layout ∈ view.outputs, isWithinOffsets layout = true := by
    simp [convolutionAttributes, withinOffsets, Condition.all, Condition.everyInput,
      Condition.everyOutput, hinputs]
  have hpadding : Condition.noBatchOrSpatialPadding view = true := by
    simp [Condition.noBatchOrSpatialPadding, Condition.everyRealInput, hreal]
  have hall : convolution.accepts view = true ↔
      ShapeSupport.staticOnly.supports view.shapeClass = true ∧
        Descriptor.keysMatch (.product [.f16, .f32, .si8, .ui8] convolutionFormats) view = true ∧
        Condition.noBatchOrSpatialPadding view = true ∧ convolutionAttributes view = true := by
    rw [Descriptor.accepts_iff]
    simp [convolution, routine, BackendKind.usualShapes]
  rw [hall, hkeys, hattributes]
  constructor
  · rintro ⟨hshape, hkeys, _, hwindow, hwithin⟩
    exact ⟨hshape, hwindow, fun layout hmem => ⟨(hkeys layout hmem).1, (hkeys layout hmem).2,
      hwithin layout hmem⟩⟩
  · rintro ⟨hshape, hwindow, houtputs⟩
    exact ⟨hshape, fun layout hmem => ⟨(houtputs layout hmem).1, (houtputs layout hmem).2.1⟩,
      hpadding, hwindow, fun layout hmem => (houtputs layout hmem).2.2⟩

/-- Any of the formats of the routine will do. -/
theorem convolution_accepts_of_formats {v v' : NodeView} (hv : v.inputs = []) (hv' : v'.inputs = [])
    (hattrs : v'.node.attrs = v.node.attrs)
    (houtputs : v'.outputs.map (·.withFormat .any) = v.outputs.map (·.withFormat .any))
    (hformats : ∀ layout ∈ v'.outputs, layout.format ∈ convolutionFormats)
    (h : convolution.accepts v = true) : convolution.accepts v' = true := by
  obtain ⟨hshape, hwindow, hlayouts⟩ := (convolution_accepts_iff hv).1 h
  refine (convolution_accepts_iff hv').2 ⟨?_, ?_, fun layout hmem => ?_⟩
  · have hsame : v'.node.outputs.map Layout.shape = v.node.outputs.map Layout.shape :=
      Layout.shapes_of_withFormat_any houtputs
    unfold NodeView.shapeClass ShapeClass.ofLayouts at hshape ⊢
    rw [hv']
    rw [hv] at hshape
    simp only [List.map_nil, List.nil_append] at hshape ⊢
    rw [hsame]
    exact hshape
  · unfold Condition.convolution at hwindow ⊢
    rw [hattrs]
    exact hwindow
  · have hany : layout.withFormat .any ∈ v.outputs.map (·.withFormat .any) :=
      houtputs ▸ List.mem_map_of_mem hmem
    obtain ⟨old, hold, heq⟩ := List.mem_map.1 hany
    obtain ⟨hshape, hdtype, _⟩ := Layout.withFormat_any_eq_iff.1 heq
    obtain ⟨hkey, _, hwithin⟩ := hlayouts old hold
    refine ⟨hdtype ▸ hkey, hformats layout hmem, ?_⟩
    unfold isWithinOffsets Layout.isDynamic Layout.byteSize? Layout.elementCount? at hwithin ⊢
    rw [← hshape, ← hdtype]
    exact hwithin

end Builtin.VendorRoutines

namespace Node

/-- The convolution routine takes the node, which nothing feeds. -/
def Routed (node : Node) : Prop :=
  node.op = .convolution ∧ ∃ view, view.node = node ∧ view.inputs = [] ∧
    Builtin.VendorRoutines.convolution.accepts view = true

theorem Routed.formats {node : Node} (h : node.Routed) :
    ∀ layout ∈ node.outputs, layout.format ∈ Builtin.VendorRoutines.convolutionFormats := by
  obtain ⟨_, view, rfl, hview, haccepts⟩ := h
  obtain ⟨_, _, hlayouts⟩ := (Builtin.VendorRoutines.convolution_accepts_iff hview).1 haccepts
  exact fun layout hmem => (hlayouts layout hmem).2.1

theorem Routed.congr {a b : Node} (h : a.Routed) (hop : b.op = a.op) (hattrs : b.attrs = a.attrs)
    (houtputs : b.outputs = a.outputs) : b.Routed := by
  have hformats := h.formats
  obtain ⟨hconv, view, rfl, hview, haccepts⟩ := h
  refine ⟨hop.trans hconv, { view with node := b }, rfl, hview, ?_⟩
  refine Builtin.VendorRoutines.convolution_accepts_of_formats hview hview hattrs ?_ ?_ haccepts
  · exact congrArg _ houtputs
  · exact fun layout hmem => hformats layout (houtputs ▸ hmem)

/-- A kernel takes the node although nothing feeds it, or the convolution routine does. -/
def Standalone (node : Node) : Prop :=
  ((∀ layout ∈ node.outputs, Builtin.DeviceKernels.isUnsupported layout.format = false) ∧
    ∀ index, Builtin.DeviceKernels.isUnsupported (node.prefers.output index) = false) ∨
  node.Routed

theorem Standalone.of_bare {a b : Node} (h : a.Standalone) (hbare : b.bare = a.bare) :
    b.Standalone := by
  have houtputs := outputs_of_bare hbare
  have hprefers := prefers_of_bare hbare
  rcases h with hplain | hrouted
  · left
    rw [houtputs, hprefers]
    exact hplain
  · simp only [bare, mk.injEq] at hbare
    exact Or.inr (hrouted.congr hbare.2.2.1 hbare.2.2.2.1 houtputs)

/-- Settling a node that inherits nothing. -/
theorem Standalone.afterSettling {node : Node} (h : node.Standalone) (hhonours : node.Honours) :
    (node.afterSettling []).Standalone := by
  rcases h with ⟨hformats, hpreferred⟩ | hrouted
  · refine Or.inl ⟨fun layout hmem => ?_, hpreferred⟩
    unfold Node.afterSettling at hmem
    split at hmem
    next => exact hformats layout hmem
    obtain ⟨index, current, hcurrent, rfl⟩ := exists_of_mem_settledOutputs hmem
    dsimp only [settledFormat, Layout.withFormat]
    split
    next => exact hpreferred index
    split
    next => exact hformats current (List.mem_of_getElem? hcurrent)
    next => exact Builtin.DeviceKernels.isUnsupported_defaultFor current.rank
  · have hchosen : node.Chosen := fun layout hmem =>
      Format.isChosen_iff_ne.2 fun hany => absurd (hany ▸ hrouted.formats layout hmem) (by decide)
    have houtputs := (node.settlesTo_afterSettling []).outputs_eq hhonours hchosen
    exact Or.inr (hrouted.congr rfl rfl houtputs)

end Node

/-- Settling a node to which a format was recommended for its first output: all other outputs that
have formats keep them. -/
theorem Node.mem_of_settled {node base : Node} (hhonours : node.Honours)
    (hbase : base.outputs = node.outputs) {news : FormatPreference} {format : Format}
    (hprefers : base.prefers = node.prefers.overlay news) (hnews : news.outputs = [format])
    {output : Layout} (houtput : node.outputs[0]? = some output)
    (hfits : format.fits output.rank = true) {formats : List Format} (hany : .any ∉ formats)
    (hformat : format ∈ formats) (hformats : ∀ layout ∈ node.outputs, layout.format ∈ formats)
    (inherited : List Format) :
    ∀ layout ∈ base.settledOutputs inherited, layout.format ∈ formats := by
  intro layout hmem
  obtain ⟨index, current, hcurrent, rfl⟩ := Node.exists_of_mem_settledOutputs hmem
  rw [hbase] at hcurrent
  have hpreferred : base.prefers.output index =
      (news.output index).orElse (node.prefers.output index) := by
    rw [hprefers, FormatPreference.output_overlay]
  cases index with
  | zero =>
    obtain rfl := Option.some.inj (houtput.symm.trans hcurrent)
    have hne : format ≠ .any := fun h => hany (h ▸ hformat)
    have hfirst : base.prefers.output 0 = format := by
      rw [hpreferred]
      simp [FormatPreference.output, hnews, Format.orElse, hne]
    simpa [Layout.withFormat, Node.settledFormat, hfirst, hfits] using hformat
  | succ index =>
    have hmem := hformats current (List.mem_of_getElem? hcurrent)
    have hrest : base.prefers.output (index + 1) = node.prefers.output (index + 1) := by
      rw [hpreferred]
      simp [FormatPreference.output, hnews, Format.orElse]
    have hsame : base.settledFormat inherited (index + 1) current =
        node.settledFormat inherited (index + 1) current := by
      unfold Node.settledFormat
      rw [hrest]
    have hchosen : current.format.isChosen = true :=
      Format.isChosen_iff_ne.2 fun h => hany (h ▸ hmem)
    rw [hsame, hhonours.settledFormat_eq hcurrent hchosen]
    exact hmem

namespace Propagation

variable {g : Graph} {id : NodeId} {node node' : Node}

/-- A node without inputs goes on standing alone. -/
theorem Change.standalone (h : Change Builtin.catalog g id node node') (hdeps : node.deps = [])
    (hhonours : node.Honours) (hnode : node.Standalone) : node'.Standalone := by
  cases h with
  | same h => exact hnode.of_bare h
  | settled inherited hinherited h =>
    rw [hinherited hdeps] at h
    exact (hnode.afterSettling hhonours).of_bare h
  | selected kind h =>
    refine Node.Standalone.of_bare ?_ h
    exact hnode.imp (fun hplain => hplain) fun hrouted => hrouted.congr rfl rfl rfl
  | @recorded candidate seen preference hfound hcandidate hpreference inherited hinherited h =>
    obtain ⟨hseen, hinputs⟩ := hcandidate.sees.shows hfound
    have hnil : seen.inputs = [] := by simpa [Graph.inputs?, hfound, hdeps] using hinputs.symm
    obtain ⟨hop, rfl, hasked⟩ := Builtin.of_preference hcandidate.listed hpreference
    obtain ⟨output, format, houtput, hfastest, hnews, _⟩ :=
      Builtin.VendorRoutines.of_convolutionPreference hasked
    obtain ⟨hformat, hfits⟩ := Builtin.VendorRoutines.of_fastestFormat hfastest
    have haccepts : Builtin.VendorRoutines.convolution.accepts seen = true := hcandidate.accepts
    obtain ⟨_, _, hlayouts⟩ :=
      (Builtin.VendorRoutines.convolution_accepts_iff hnil).1 haccepts
    simp only [NodeView.op, NodeView.outputs, hseen] at hop houtput hlayouts
    simp only [Node.bare, Node.afterSettling, Node.mk.injEq, Bool.false_eq_true, if_false] at h
    obtain ⟨_, _, hop', hattrs', _, _, houtputs', _⟩ := h
    refine Or.inr ⟨hop'.trans hop, { seen with node := node' }, rfl, hnil, ?_⟩
    refine Builtin.VendorRoutines.convolution_accepts_of_formats hnil hnil ?_ ?_ ?_ haccepts
    · rw [hseen]
      exact hattrs'
    · simp only [NodeView.outputs, hseen]
      rw [houtputs', Node.settledOutputs_content]
    · simp only [NodeView.outputs]
      rw [houtputs']
      refine Node.mem_of_settled hhonours ?_ ?_ hnews houtput hfits (by decide) hformat
        (fun layout hmem => (hlayouts layout hmem).2.1) inherited
      · rfl
      · rfl
  | @forced output houtput _ h =>
    refine Node.Standalone.of_bare ?_ h
    rcases hnode with ⟨hformats, hpreferred⟩ | hrouted
    · refine Or.inl ⟨hformats, fun index => ?_⟩
      dsimp only
      rw [FormatPreference.output_setOutput]
      split
      next => exact hformats output (List.mem_of_getElem? houtput)
      next => exact hpreferred index
    · exact Or.inr (hrouted.congr rfl rfl rfl)
  | folded hfoldable =>
    obtain ⟨_, _, hlength⟩ := of_isFoldable hfoldable
    simp [hdeps] at hlength

/-- No change touches the inputs and the pin. -/
theorem Change.kept {catalog : Catalog} (h : Change catalog g id node node') :
    node'.deps = node.deps ∧ node'.pinned = node.pinned := by
  cases h <;>
  · rename_i h
    simp only [Node.bare, Node.afterSettling, Node.mk.injEq] at h
    simp [h]

theorem standalone_of_sweep (hg : g.Fresh)
    (hformats : ∀ {id node}, g.node? id = some node → ∀ layout ∈ node.outputs,
      Builtin.DeviceKernels.isUnsupported layout.format = false) :
    Yields (g.order.foldlM (visit? Builtin.catalog) { graph := g }) fun s =>
      Graph.SameContent g s.graph ∧
      ∀ {id node}, s.graph.node? id = some node → node.deps = [] → node.Standalone := by
  refine (run?_forall hg.toOrdered (fun node => node.Honours ∧ (node.deps = [] → node.Standalone))
    (fun hnode => ⟨hg.honours hnode, fun _ => Or.inl ⟨hformats hnode, fun index => ?_⟩⟩)
    fun hchange hnode => ⟨hchange.honours hnode.1, fun hdeps => ?_⟩).mono ?_
  · rw [(hg.undecided hnode).prefers]
    rfl
  · rw [hchange.kept.1] at hdeps
    exact hchange.standalone hdeps hnode.1 (hnode.2 hdeps)
  · exact fun s h => ⟨h.1, fun hnode => (h.2 hnode).2⟩

/-! ## Preferences on inputs -/

/-- The node is not pinned, and a format is preferred only where a real input feeds it.  Reorders
prefer none. -/
structure Unbiased (g : Graph) (id : NodeId) (node : Node) : Prop where
  pinned : node.pinned = none
  input : ∀ {slot}, node.prefers.input slot ≠ .any → node.op ≠ .reorder ∧
    ∀ {input}, g.input? id slot = some input → input.isReal = true

/-- A change prefers a format on a slot only if a backend asks for it, or if it folds a permute,
which real inputs feed. -/
theorem Change.input_cases {catalog : Catalog} (h : Change catalog g id node node')
    {other : NodeId} (hnode : g.node? other = some node) {slot : Nat}
    (hpreferred : node'.prefers.input slot ≠ .any) :
    node.prefers.input slot ≠ .any ∨
      (node.op = .permute ∧ ∀ {input}, g.input? other slot = some input → input.isReal = true) ∨
      ∃ candidate seen preference, g.node? id = some node ∧ Candidate catalog g id candidate seen ∧
        candidate.preference seen = some preference ∧ preference.input slot ≠ .any := by
  cases h with
  | same h =>
    rw [Node.prefers_of_bare h] at hpreferred
    exact Or.inl hpreferred
  | settled _ _ h =>
    rw [Node.prefers_of_bare h] at hpreferred
    exact Or.inl hpreferred
  | selected _ h =>
    rw [Node.prefers_of_bare h] at hpreferred
    exact Or.inl hpreferred
  | @recorded candidate seen preference hfound hcandidate hpreference _ _ h =>
    rw [Node.prefers_of_bare h] at hpreferred
    have hpreferred : (node.prefers.overlay preference).input slot ≠ .any := hpreferred
    rw [FormatPreference.input_overlay] at hpreferred
    by_cases hnone : preference.input slot = .any
    · rw [hnone] at hpreferred
      exact Or.inl hpreferred
    · exact Or.inr (Or.inr ⟨candidate, seen, preference, hfound, hcandidate, hpreference, hnone⟩)
  | forced _ _ h =>
    rw [Node.prefers_of_bare h] at hpreferred
    exact Or.inl hpreferred
  | folded hfoldable hsource _ _ h =>
    rw [Node.prefers_of_bare h] at hpreferred
    simp only [FormatPreference.input_setOutput, FormatPreference.input_setInput] at hpreferred
    split at hpreferred
    next hzero =>
      subst hzero
      refine Or.inr (Or.inl ⟨(of_isFoldable hfoldable).1, fun {input} hinput => ?_⟩)
      obtain ⟨_, hfound, hdep, _, hproducer, _⟩ := Graph.input?_eq_some_iff.1 hinput
      obtain rfl := Option.some.inj (hnode.symm.trans hfound)
      obtain ⟨source, hsource, hreal⟩ := hsource _ (List.mem_of_getElem? hdep)
      obtain rfl := Option.some.inj (hproducer.symm.trans hsource)
      rw [Input.isReal, hreal]
      rfl
    next => exact Or.inl hpreferred

/-- The built-in backends ask for a format only on slots that real inputs feed. -/
theorem Change.input (hg : g.WellFormed) (h : Change Builtin.catalog g id node node')
    {other : NodeId} (hnode : g.node? other = some node) {slot : Nat}
    (hpreferred : node'.prefers.input slot ≠ .any) :
    node.prefers.input slot ≠ .any ∨ node.op ≠ .reorder ∧
      ∀ {input}, g.input? other slot = some input → input.isReal = true := by
  rcases h.input_cases hnode hpreferred with hbefore | ⟨hop, hreal⟩ |
    ⟨candidate, seen, preference, hfound, hcandidate, hpreference, hasked⟩
  · exact Or.inl hbefore
  · exact Or.inr ⟨by simp [hop], hreal⟩
  · obtain rfl : other = id := (hg.id_eq hnode).symm.trans (hg.id_eq hfound)
    obtain ⟨hseen, hinputs⟩ := hcandidate.sees.shows hfound
    obtain ⟨hop, _, hroutine⟩ := Builtin.of_preference hcandidate.listed hpreference
    obtain ⟨_, format, _, _, _, hnews⟩ := Builtin.VendorRoutines.of_convolutionPreference hroutine
    rw [NodeView.op, hseen] at hop
    refine Or.inr ⟨by simp [hop], fun {input} hinput => ?_⟩
    rw [← Graph.getElem?_of_inputs? hinputs] at hinput
    by_contra hconstant
    exact hasked (by simp [FormatPreference.input, hnews, hinput, hconstant])

theorem unbiased_of_sweep (hg : g.Fresh)
    (hpinned : ∀ {id node}, g.node? id = some node → node.pinned = none) :
    Yields (g.order.foldlM (visit? Builtin.catalog) { graph := g }) fun s =>
      Graph.SameContent g s.graph ∧
      ∀ {id node}, s.graph.node? id = some node → Unbiased s.graph id node := by
  refine run?_inv hg.toOrdered
    (fun g₁ => ∀ {id node}, g₁.node? id = some node → Unbiased g₁ id node)
    (fun hnode => ⟨hpinned hnode, fun hpreferred => ?_⟩) ?_
  · rw [(hg.undecided hnode).prefers] at hpreferred
    exact absurd rfl hpreferred
  · intro id g₁ g₂ hwf hlt hunbiased hmove other node' hnode'
    obtain ⟨node, hnode, hchange⟩ := hmove.change hwf hlt hnode'
    have hcontent := hmove.content hwf hlt
    obtain ⟨_, hfound, hsame⟩ := hcontent.nodes.exists_old hnode'
    obtain rfl := Option.some.inj (hnode.symm.trans hfound)
    refine ⟨hchange.kept.2.trans (hunbiased hnode).pinned, fun {slot} hpreferred => ?_⟩
    obtain ⟨hop, hreal⟩ : node.op ≠ .reorder ∧
        ∀ {input}, g₁.input? other slot = some input → input.isReal = true :=
      (hchange.input hwf hnode hpreferred).elim (hunbiased hnode).input fun h => h
    refine ⟨Node.op_of_content hsame ▸ hop, fun {input'} hinput' => ?_⟩
    obtain ⟨input, hinput, _, hproducer, _⟩ := hcontent.symm.exists_input hinput'
    have hreal := hreal hinput
    rw [Input.isReal, Node.isConstant_congr (Node.op_of_content hproducer)] at hreal
    exact hreal

end Propagation

end LayoutPlanner
