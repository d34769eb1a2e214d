import LayoutPlanner.Proofs.Footprints
import LayoutPlanner.Proofs.StrandedSlots

/-!
# What the built-in backends cover

Planning a graph without pins, in which every declared format is plain, with the built-in backends.
Every node can be built in the end, and a candidate that takes a node also builds it
(`build_of_accepts`).  So planning ends well, unless edge agreement meets a stranded slot.
-/

namespace LayoutPlanner

/-! ## Builds -/

namespace Builtin

/-- So a task fails only if no built-in backend takes the node. -/
theorem error?_buildTask {view : NodeView}
    (hverdict : catalog.isSupported view (Construction.buildMask view.node) view.shapeClass = true ∨
      view.shapeClass.isDynamic = true)
    (hfew : view.inputs.length + view.outputs.length ≤ 2 ^ 32) :
    (Construction.buildTask catalog view).error? = none := by
  unfold Construction.buildTask
  cases hfound : catalog.candidate? view (Construction.buildMask view.node) with
  | some c =>
    obtain ⟨handle, _, hchosen⟩ := choose_of_candidate hfew hfound
    rw [hchosen]
    rfl
  | none =>
    have hcandidate := catalog.isSome_candidate? view (Construction.buildMask view.node)
    rw [hfound, Option.isSome_none] at hcandidate
    rw [← hcandidate, Bool.false_eq_true, false_or] at hverdict
    simp only [Catalog.choose, hfound, hverdict, if_true, Construction.TaskResult.error?]

end Builtin

/-! ## Plainly declared nodes -/

/-- One of `bfyx`, `yxfb`, `byxf`, `bfzyx` and `bfwzyx`. -/
def Format.isPlain (format : Format) : Bool :=
  format.isChosen && !format.isBlocked

namespace Node

/-- The node is not pinned, its outputs have plain formats that fit or, unless it is a constant,
none yet, and it does not have very many buffers.  A constant reads nothing. -/
structure PlainlyDeclared (node : Node) : Prop where
  pinned : node.pinned = none
  deps : node.isConstant = true → node.deps = []
  few : node.deps.length + node.outputs.length ≤ 2 ^ 32
  outputs : ∀ layout ∈ node.outputs, layout.rank ≤ 6 ∧
    (layout.format.isPlain = true ∧ layout.format.fits layout.rank = true ∨
      layout.format = .any ∧ node.isConstant = false)

instance (node : Node) : Decidable node.PlainlyDeclared :=
  decidable_of_iff (node.pinned = none ∧ (node.isConstant = true → node.deps = []) ∧
    node.deps.length + node.outputs.length ≤ 2 ^ 32 ∧ ∀ layout ∈ node.outputs, layout.rank ≤ 6 ∧
      (layout.format.isPlain = true ∧ layout.format.fits layout.rank = true ∨
        layout.format = .any ∧ node.isConstant = false))
    ⟨fun h => ⟨h.1, h.2.1, h.2.2.1, h.2.2.2⟩, fun h => ⟨h.pinned, h.deps, h.few, h.outputs⟩⟩

theorem PlainlyDeclared.formatsFit {node : Node} (h : node.PlainlyDeclared) : node.FormatsFit := by
  intro layout hmem
  obtain ⟨hrank, hformat⟩ := h.outputs layout hmem
  exact ⟨hrank, hformat.imp (fun hplain => hplain.2) fun hany => hany⟩

/-- Kernels know all plain formats. -/
theorem PlainlyDeclared.isUnsupported {node : Node} (h : node.PlainlyDeclared) {layout : Layout}
    (hmem : layout ∈ node.outputs) :
    Builtin.DeviceKernels.isUnsupported layout.format = false := by
  rcases (h.outputs layout hmem).2 with ⟨hplain, _⟩ | ⟨hany, _⟩
  · revert hplain
    cases layout.format <;> decide
  · rw [hany]
    rfl

end Node

/-- A node without inputs that stands alone can be built. -/
theorem Construction.buildable_of_standalone {g settled : Graph} (h : Settles g settled)
    (hg : g.WellFormed) (hhonours : g.Honours) {id : NodeId} {node : Node}
    (hnode : g.node? id = some node) (hdeps : node.deps = []) (hpinned : node.pinned = none)
    (hop : node.op ∈ Builtin.DeviceKernels.ops) (houtputs : ∀ layout ∈ node.outputs, layout.Fits)
    (hstandalone : node.Standalone) : settled.Buildable id := by
  have hnil : ∀ slot, g.input? id slot = none := by simp [Graph.input?, Graph.dep?, hnode, hdeps]
  refine buildable_of_supported h hg hhonours (fun hinput => absurd hinput (by simp [hnil])) hnode
    hpinned houtputs fun {inputs} hfound => ?_
  obtain rfl : inputs = [] := by simpa [Graph.inputs?, hnode, hdeps] using hfound.symm
  rcases hstandalone with ⟨hformats, _⟩ | hrouted
  · refine Builtin.isSupported_of_kernel (Builtin.kernel_mem hop) rfl
      (fun _ hmem => absurd hmem List.not_mem_nil) fun layout hmem => ?_
    unfold Builtin.DeviceKernels.isKernelLayout Layout.fitsRank
    rw [(houtputs layout hmem).format, hformats layout hmem]
    rfl
  · have hformats := hrouted.formats
    obtain ⟨hconv, view, rfl, hinputs, haccepts⟩ := hrouted
    refine Builtin.isSupported_iff.2 ⟨Builtin.VendorRoutines.convolution, ?_, rfl, ?_⟩
    · rw [NodeView.op, hconv]
      simp [Builtin.descriptors, Builtin.VendorRoutines.descriptors]
    · exact Builtin.VendorRoutines.convolution_accepts_of_formats hinputs rfl rfl rfl hformats
        haccepts

/-! ## Planning -/

/-- Edge agreement adds reorders only, so there is still no node with very many buffers. -/
theorem few_of_sound {g start : Graph} (hplain : ∀ node ∈ g.nodes, node.PlainlyDeclared)
    (hsame : Graph.SameContent g start) {s : Reconciliation} (hs : Reconciliation.Sound start s)
    {id : NodeId} {node : Node} (hnode : s.graph.node? id = some node) :
    node.deps.length + node.outputs.length ≤ 2 ^ 32 := by
  by_cases hlt : id.index < start.size
  · obtain ⟨old, hold⟩ := Graph.exists_node hlt
    obtain ⟨first, hfirst, hcontent⟩ := hsame.nodes.exists_old hold
    obtain ⟨hmeaning, hdeps, _⟩ := Node.content_eq_iff.1 hcontent
    obtain ⟨_, hfound, hmeaning', hlength, _⟩ := hs.kept hold
    obtain rfl := Option.some.inj (hnode.symm.trans hfound)
    rw [hlength, hdeps, Node.length_outputs_of_meaning (hmeaning'.trans hmeaning)]
    exact (hplain first (List.mem_of_getElem? hfirst)).few
  · obtain ⟨source, _, target, hdeps, _, houtputs, _⟩ :=
      (hs.inserted hnode (Nat.not_lt.1 hlt)).converts
    rw [hdeps, houtputs]
    exact (by decide : 1 + 1 ≤ 2 ^ 32)

section

variable {cx : Context} (hcatalog : cx.catalog = Builtin.catalog) {g : Graph} (hg : g.Fresh)
  (hplain : ∀ node ∈ g.nodes, node.PlainlyDeclared) {swept : Propagation.State}
  (hswept : g.order.foldlM (Propagation.visit? cx.catalog) { graph := g } = some swept)
  {agreed : Reconciliation}
  (hagreed : swept.graph.order.foldlM (Reconciliation.visit? cx) { graph := swept.graph } =
    some agreed)

include hcatalog hg hplain hswept in
/-- What propagation leaves behind. -/
theorem plain_of_sweep : Graph.SameContent g swept.graph ∧
    Reconciliation.Fitted swept.graph { graph := swept.graph } ∧
    ∀ {id node}, swept.graph.node? id = some node → Propagation.Unbiased swept.graph id node ∧
      (node.deps = [] → node.Standalone) ∧
      (¬Propagation.Spare node → ∀ layout ∈ node.outputs, layout.Fits) := by
  have hnodes : ∀ {id node}, g.node? id = some node → node.PlainlyDeclared :=
    fun hnode => hplain _ (List.mem_of_getElem? hnode)
  rw [hcatalog] at hswept
  obtain ⟨hsame, hunbiased⟩ :=
    (Propagation.unbiased_of_sweep hg fun hnode => (hnodes hnode).pinned).post_of_eq hswept
  obtain ⟨_, hstandalone⟩ := (Propagation.standalone_of_sweep hg
    fun hnode layout hmem => (hnodes hnode).isUnsupported hmem).post_of_eq hswept
  obtain ⟨_, hfitting, hread⟩ :=
    (Propagation.fitting_of_sweep hg fun hnode => (hnodes hnode).formatsFit).post_of_eq hswept
  refine ⟨hsame, Reconciliation.fitted_start (fun hnode => (hfitting hnode).1) hread, ?_⟩
  intro id node hnode
  refine ⟨hunbiased hnode, hstandalone hnode, fun hspare layout hmem => ?_⟩
  obtain ⟨hfits, hchosen⟩ := hfitting hnode
  exact hfits.fits (hchosen.resolve_right hspare) hmem

include hcatalog hg hplain hswept hagreed in
/-- If edge agreement fails, then at a stranded slot. -/
theorem stranded_of_failure {error : PlanningError} (hfailure : agreed.failure = some error) :
    ∃ id slot mask attempted blamed,
      error = .layoutUnresolved (agreed.graph.describe id) mask attempted blamed ∧
        g.Stranded agreed.graph id slot := by
  obtain ⟨hsame, hfitted, hnodes⟩ := plain_of_sweep hcatalog hg hplain hswept
  have hstart := hg.toOrdered.of_sameContent hsame
  have hconstants : ∀ {id node}, swept.graph.node? id = some node → node.isConstant = true →
      node.deps = [] ∧ ∀ layout ∈ node.outputs,
        Builtin.DeviceKernels.isKernelLayout layout = true := by
    intro id node hnode hconstant
    obtain ⟨old, hold, hcontent⟩ := hsame.nodes.exists_old hnode
    have hdeps : node.deps = [] := by
      rw [(Node.content_eq_iff.1 hcontent).2.1]
      refine (hplain old (List.mem_of_getElem? hold)).deps ?_
      rw [← Node.isConstant_congr (Node.op_of_content hcontent), hconstant]
    have hop : node.op = .constant := by simpa [Node.isConstant] using hconstant
    obtain ⟨_, hstandalone, hfits⟩ := hnodes hnode
    refine ⟨hdeps, fun layout hmem => ?_⟩
    unfold Builtin.DeviceKernels.isKernelLayout Layout.fitsRank
    rw [(hfits (fun hspare => hspare.2.2 hdeps) layout hmem).format]
    rcases hstandalone hdeps with ⟨hformats, _⟩ | ⟨hconv, _⟩
    · rw [hformats layout hmem]
      rfl
    · rw [hop] at hconv
      cases hconv
  have hfailed : agreed.failure.isSome := by rw [hfailure]; rfl
  obtain ⟨id, s, before, hstopped, hfitted'⟩ := (Reconciliation.run?_stopped hstart
    (Reconciliation.Fitted swept.graph) hfitted
    (fun hid hs h hmove => h.move hstart.wellFormed hs hid hmove)
    fun hid hs h hlegalized => h.legalized hstart.wellFormed hs hid hlegalized).post_of_eq hagreed
      hfailed
  obtain ⟨slot, mask, attempted, blamed, herror, hstranded⟩ := hstopped.stranded hstart
    (fun hnode => (hnodes hnode).1) hconstants hfitted' hcatalog hfailed
  refine ⟨id, slot, mask, attempted, blamed, ?_, hstranded.of_sameContent hsame⟩
  exact Option.some.inj (hfailure.symm.trans herror)

include hcatalog hg hplain hswept hagreed in
/-- If edge agreement ends well, then every node that needs an implementation can be built. -/
theorem buildable_of_agreed (hfine : agreed.failure = none) {settled : Graph}
    (hsettles : Construction.Settles agreed.graph settled) {id : NodeId} {node : Node}
    (hnode : agreed.graph.node? id = some node) (hconstant : node.isConstant = false) :
    settled.Buildable id := by
  obtain ⟨hsame, _, hnodes⟩ := plain_of_sweep hcatalog hg hplain hswept
  have hreconciled := Reconciliation.reconciled_of_fold hg
    (fun node hmem => (hplain node hmem).formatsFit) hswept hagreed
  have hsound := hreconciled.sound
  by_cases hkind : node.deps ≠ [] ∧ node.isReorder = false ∨ swept.graph.size ≤ id.index
  · exact hreconciled.buildable hcatalog hfine hsettles hnode hkind
  rw [not_or, not_and_or, not_not, Bool.not_eq_false, Nat.not_le] at hkind
  obtain ⟨old, hold⟩ := Graph.exists_node hkind.2
  obtain ⟨_, hfound, hmeaning, hlength, _⟩ := hsound.kept hold
  obtain rfl := Option.some.inj (hnode.symm.trans hfound)
  have hop := Node.op_of_meaning hmeaning
  have hskip : old.deps = [] ∨ old.isReorder = true := by
    rw [← List.length_eq_zero_iff, ← hlength, List.length_eq_zero_iff, ← Node.isReorder_congr hop]
    exact hkind.1
  have hpassed := (Reconciliation.run?_passed hreconciled.ordered).post_of_eq hagreed hold hskip
  rw [hnode, Option.map_some, Option.some.injEq] at hpassed
  obtain ⟨hunbiased, hstandalone, hfits⟩ := hnodes hold
  have hpinned : node.pinned = none := (Node.pinned_of_bare hpassed).trans hunbiased.pinned
  have hinputs : ∀ {slot input}, agreed.graph.input? id slot = some input → input.layout.Fits :=
    fun hinput => hreconciled.fitted.input hreconciled.ordered.wellFormed hsound hinput
  by_cases hreorder : node.op = .reorder
  · refine Construction.buildable_of_reorder hsettles hsound.wellFormed hreconciled.honours hinputs
      hnode hreorder hpinned (fun slot => ?_) ?_
    · rw [Node.prefers_of_bare hpassed]
      by_contra hpreferred
      exact (hunbiased.input hpreferred).1 (hop.symm.trans hreorder)
    · rw [Node.outputs_of_bare hpassed]
      refine hfits fun hspare => ?_
      have hpermute := hop.symm.trans hreorder
      rw [hspare.1] at hpermute
      cases hpermute
  · have hdeps : old.deps = [] := by
      refine hskip.resolve_right fun h => hreorder (hop.trans ?_)
      simpa [Node.isReorder] using h
    have hnode_deps : node.deps = [] := (Node.deps_of_bare hpassed).trans hdeps
    refine Construction.buildable_of_standalone hsettles hsound.wellFormed hreconciled.honours hnode
      hnode_deps hpinned (Builtin.DeviceKernels.mem_ops ?_ hreorder) ?_
      ((hstandalone hdeps).of_bare hpassed)
    · simpa [Node.isConstant] using hconstant
    · rw [Node.outputs_of_bare hpassed]
      exact hfits fun hspare => hspare.2.2 hdeps

include hcatalog hg hplain hswept hagreed in
/-- If edge agreement ends well, then so does construction. -/
theorem fine_of_construction (hfine : agreed.failure = none) {out : Outcome}
    (hout : Construction.run? cx agreed.graph = some out) : out.error? = none := by
  obtain ⟨hsame, _⟩ := plain_of_sweep hcatalog hg hplain hswept
  have hreconciled := Reconciliation.reconciled_of_fold hg
    (fun node hmem => (hplain node hmem).formatsFit) hswept hagreed
  have hsound := hreconciled.sound
  obtain ⟨settled, hdone⟩ :=
    (Construction.run?_spec cx hsound.wellFormed hsound.listed).post_of_eq hout
  obtain ⟨error, id, view, _, hview, hneeds, htask⟩ | hok := hdone.ending
  swap
  · exact Outcome.error?_eq_none_iff.2 hok
  obtain ⟨node, inputs, hnode, hinputs, rfl⟩ := Graph.view?_eq_some_iff.1 hview
  obtain ⟨old, hold, hcontent⟩ := hdone.settles.content.nodes.exists_old hnode
  obtain ⟨hmeaning, hdeps, _⟩ := Node.content_eq_iff.1 hcontent
  have hconstant : old.isConstant = false := by
    rw [← Node.isConstant_congr (Node.op_of_content hcontent)]
    simp only [Construction.needsImplementation, Bool.and_eq_true, Bool.not_eq_true'] at hneeds
    exact hneeds.1.1
  obtain ⟨_, hview', hverdict⟩ :=
    buildable_of_agreed hcatalog hg hplain hswept hagreed hfine hdone.settles hold hconstant
  obtain rfl := Option.some.inj (hview.symm.trans hview')
  have hfew : inputs.length + node.outputs.length ≤ 2 ^ 32 := by
    have hwf := hsound.wellFormed.of_sameWiring hdone.settles.content.wiring
    obtain ⟨_, hfound, hlength⟩ := hwf.exists_inputs hnode
    obtain rfl := Option.some.inj (hinputs.symm.trans hfound)
    rw [hlength, hdeps, Node.length_outputs_of_meaning hmeaning]
    exact few_of_sound hplain hsame hsound hold
  rw [hcatalog, Builtin.error?_buildTask hverdict hfew] at htask
  cases htask

end

/-- Planning a plainly declared graph with the built-in backends ends well, or else at a node that
would have to read an input of another class than its first output in a layout that no kernel
reads. -/
theorem plan_covers {decls : List NodeDecl} {g : Graph}
    (hbuild : Graph.build? decls = some (.ok g))
    (hplain : ∀ node ∈ g.nodes, node.PlainlyDeclared) {cx : Context}
    (hcatalog : cx.catalog = Builtin.catalog) :
    ∃ out, plan? cx g = some out ∧ ((∃ report, out.result = .ok report) ∨
      ∃ id slot mask attempted blamed,
        out.result = .error (.layoutUnresolved (out.graph.describe id) mask attempted blamed) ∧
          g.Stranded out.graph id slot) := by
  have hfresh := Graph.fresh_of_build hbuild
  obtain ⟨out, hout, hplanned⟩ := plan?_spec cx hfresh
  refine ⟨out, hout, ?_⟩
  rw [← Outcome.error?_eq_none_iff]
  simp only [← Outcome.error?_eq_some_iff]
  generalize out.graph = final, out.error? = error at hplanned
  cases hplanned with
  | blocked hswept hagreed hfailure =>
    obtain ⟨id, slot, mask, attempted, blamed, rfl, hstranded⟩ :=
      stranded_of_failure hcatalog hfresh hplain hswept hagreed hfailure
    exact Or.inr ⟨id, slot, mask, attempted, blamed, rfl, hstranded⟩
  | constructed hswept hagreed hfine hout =>
    exact Or.inl (fine_of_construction hcatalog hfresh hplain hswept hagreed hfine hout)

theorem plan_covers_byteConvolution : ∃ g, Graph.build? byteConvolution = some (.ok g) ∧
    (∀ node ∈ g.nodes, node.PlainlyDeclared) ∧
    (plan? { catalog := Builtin.catalog } g).map Outcome.error? = some none ∧
    ∃ out, plan? { catalog := Builtin.catalog } g = some out ∧
      ((∃ report, out.result = .ok report) ∨ ∃ id slot mask attempted blamed,
        out.result = .error (.layoutUnresolved (out.graph.describe id) mask attempted blamed) ∧
          g.Stranded out.graph id slot) :=
  ⟨_, rfl, by decide, rfl,
    @plan_covers byteConvolution _ rfl (by decide) { catalog := Builtin.catalog } rfl⟩

/-- The output of a convolution of bytes, split into one more axis.  The convolution is run in a
format of four axes that only vendor routines know. -/
def reshapedConvolution : List NodeDecl :=
  byteConvolution ++
    [{ name := "split", op := .reshape, inputs := [⟨⟨1⟩, 0⟩],
       outputs := [⟨.ofExtents [1, 4, 4, 8, 8], .si8, .any, {}⟩] }]

/-- The reshape has five axes, so the search tries formats of five axes only, and its input of four
axes stays in the format of the convolution. -/
theorem plan_refuses_reshapedConvolution : ∃ g out error,
    Graph.build? reshapedConvolution = some (.ok g) ∧
    (∀ node ∈ g.nodes, node.PlainlyDeclared) ∧
    plan? { catalog := Builtin.catalog } g = some out ∧ out.result = .error error :=
  ⟨_, _, _, rfl, by decide, rfl, rfl⟩

end LayoutPlanner
