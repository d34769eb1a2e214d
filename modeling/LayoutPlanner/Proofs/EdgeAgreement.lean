import LayoutPlanner.Builtin.Catalog
import LayoutPlanner.Proofs.HonouredFormats

/-!
# Edge agreement

If planning ends well, every node reads what it wants to read.

Reconciling a node makes its real inputs agree with it, shared surfaces apart (`Agreed`).  Later
visits leave the node and what it reads alone, and construction keeps every format that was chosen.
-/

namespace LayoutPlanner

/-- The input has the format and the element type that the node wants on its slot. -/
structure Node.Gets (node : Node) (input : Input) : Prop where
  format : node.wantedFormat input.slot input.layout = input.layout.format
  dtype : node.wantedType input.slot input.layout = input.layout.dtype

theorem Node.Gets.of_face {node node' : Node} {g g' : Graph} {id : NodeId}
    {slot : Nat} {input input' : Input} (h : node.Gets input) (hcore : node'.core = node.core)
    (hinput : g.input? id slot = some input) (hinput' : g'.input? id slot = some input')
    (hface : input'.face = input.face) : node'.Gets input' := by
  have hslot : input'.slot = input.slot := congrArg (·.1) hface
  have hlayout := Input.layout_of_face hinput' hinput hface
  refine ⟨?_, ?_⟩
  · rw [Node.wantedFormat_of_core hcore, hslot, hlayout, h.format]
  · rw [Node.wantedType_of_core hcore, hslot, hlayout, h.dtype]

namespace Reconciliation

variable {start : Graph} {cx : Context} {id : NodeId} {s s' : Reconciliation}

/-- An input that agreement demands nothing of is what the node wants. -/
theorem gets_of_agreement {isCreated : NodeId → Bool} {node : Node} {input : Input}
    (h : Repair.agreement isCreated node input = none)
    (hshared : input.producer.isSharedSurface = false) : node.Gets input := by
  unfold Repair.agreement at h
  dsimp only at h
  split at h
  next hfine =>
    rw [hshared, Bool.false_or, Bool.and_eq_true, decide_eq_true_eq, decide_eq_true_eq] at hfine
    exact ⟨hfine.1, hfine.2⟩
  next => cases h

/-- The node, unless it is a reorder, gets what it wants on every slot that is fed neither by a
constant nor by a shared surface. -/
def Agreed (id : NodeId) (s : Reconciliation) : Prop :=
  ∀ {node slot input}, s.graph.node? id = some node → node.isReorder = false →
    s.graph.input? id slot = some input → input.isReal →
    input.producer.isSharedSurface = false → node.Gets input

theorem Agreed.of_unmoved (h : Agreed id s) (hsame : Unmoved id s s') : Agreed id s' := by
  intro node' slot input' hnode' hreorder hinput' hreal hshared
  obtain ⟨node, hnode, hbare⟩ := exists_of_map_eq hsame.node.symm hnode'
  have hcore := Node.core_of_bare hbare
  obtain ⟨input, hinput, hface⟩ := exists_of_map_eq (hsame.inputs slot).symm hinput'
  have hgets : node.Gets input := by
    refine h hnode ?_ hinput ?_ ?_
    · rw [Node.isReorder_congr (Node.op_of_core hcore), hreorder]
    · rw [Input.isReal_of_face hface, hreal]
    · rw [Input.isSharedSurface_of_face hface, hshared]
  exact hgets.of_face hcore.symm hinput hinput' hface.symm

/-- A visit that does not fail makes the inputs of its node agree. -/
theorem Visited.agreed {before after : Reconciliation} (hid : id.index < start.size)
    (h : Visited start cx id s s' before after) (hfine : s'.failure = none) : Agreed id s' := by
  intro node' slot input' hnode' _ hinput' hreal hshared
  rcases h.ending with ⟨hfailed, rfl⟩ | ⟨_, slots, hslots, hrepaired, _⟩
  · simp [hfine] at hfailed
  have hsound := h.sound
  obtain ⟨node, hnode⟩ := Graph.exists_node (Nat.lt_of_lt_of_le hid hsound.grown)
  have hmem := hrepaired.mem_of_isReal hsound hnode hslots hinput' hreal
  have hnone := hrepaired.eq_none Repair.lawful_agreement hsound hmem hnode hnode' hinput'
  exact gets_of_agreement hnone hshared

/-- At the end of a run that does not fail, every old node gets what it wants. -/
theorem agreed_of_run (hstart : start.Ordered) :
    Yields (start.order.foldlM (visit? cx) { graph := start }) fun s =>
      s.failure = none → ∀ id : NodeId, id.index < start.size → Agreed id s := by
  refine run?_done hstart Agreed ?_ ?_ fun _ _ hsame h => h.of_unmoved hsame
  · intro id s node hs hnode hwhy node' slot input hnode' hreorder hinput
    obtain rfl := Option.some.inj (hnode.symm.trans hnode')
    obtain ⟨_, hfound, hdep, _⟩ := Graph.input?_eq_some_iff.1 hinput
    obtain rfl := Option.some.inj (hnode.symm.trans hfound)
    rcases hwhy with hdeps | hreorder'
    · simp [hdeps] at hdep
    · simp [hreorder] at hreorder'
  · intro id s s' before after hid _ hvisited hfine
    exact hvisited.agreed hid hfine

end Reconciliation

/-- What a node gets has the format it prefers, fitted to the rank. -/
theorem Node.Gets.format_eq {node : Node} {input : Input} (h : node.Gets input)
    (hprefers : node.prefers.input input.slot ≠ .any) :
    input.layout.format = (node.prefers.input input.slot).adaptTo input.layout.rank := by
  rw [← h.format, Node.wantedFormat_of_ne hprefers]

theorem Node.Gets.dtype_eq {node : Node} {input : Input} (h : node.Gets input)
    (hop : node.op.isConvolutionLike = false) {dtype : ElementType}
    (hprefers : node.prefers.inputType input.slot = some dtype) : input.layout.dtype = dtype := by
  rw [← h.dtype, Node.wantedType, hop, hprefers]
  rfl

/-- If planning ends well, then on every slot of a node that is not a reorder there is an input.
Unless a constant or a shared surface feeds the slot, it is read in the format that the node prefers
there, fitted to the rank, and, except by convolutions, in the preferred element type. -/
theorem edges_agree_of_plan {decls : List NodeDecl} {g : Graph}
    (hbuild : Graph.build? decls = some (.ok g)) {cx : Context} {out : Outcome}
    (hplan : plan? cx g = some out) {report : Report} (hok : out.result = .ok report)
    {id : NodeId} {node : Node} (hnode : out.graph.node? id = some node)
    (hreorder : node.isReorder = false) {slot : Nat} (hslot : slot < node.deps.length) :
    ∃ input, out.graph.input? id slot = some input ∧
      (input.producer.isConstant = false → input.producer.isSharedSurface = false →
        (node.prefers.input slot ≠ .any →
          input.layout.format = (node.prefers.input slot).adaptTo input.layout.rank) ∧
        (node.op.isConvolutionLike = false → ∀ dtype,
          node.prefers.inputType slot = some dtype → input.layout.dtype = dtype)) := by
  have hfresh := Graph.fresh_of_build hbuild
  have hplanned := (plan?_spec cx hfresh).post_of_eq hplan
  obtain ⟨swept, agreed, built, hswept, hagreed, hfine, hbuilt, hgraph⟩ :=
    hplanned.of_fine (Outcome.error?_eq_none_iff.2 ⟨report, hok⟩)
  rw [hgraph] at hnode ⊢
  obtain ⟨hsame, hhonours⟩ := (Propagation.honours_of_sweep hfresh).post_of_eq hswept
  have hstart := hfresh.toOrdered.of_sameContent hsame
  obtain ⟨hsound, hhonours'⟩ := (Reconciliation.honours_of_run hstart hhonours).post_of_eq hagreed
  have hagrees := (Reconciliation.agreed_of_run hstart).post_of_eq hagreed hfine
  obtain ⟨settled, hdone⟩ :=
    (Construction.run?_spec cx hsound.wellFormed hsound.listed).post_of_eq hbuilt
  have hcontent := hdone.settles.content.trans hdone.installs.content
  obtain ⟨node₁, hnode₁, hcontent₁⟩ := hcontent.nodes.exists_old hnode
  have hop := Node.op_of_content hcontent₁
  have hprefers := hdone.prefers_eq hnode₁ hnode
  have hreorder₁ : node₁.isReorder = false := by rw [← Node.isReorder_congr hop, hreorder]
  have hold : id.index < swept.graph.size := by
    by_contra hnew
    have hinserted := hsound.inserted hnode₁ (Nat.not_lt.1 hnew)
    simp [Node.isReorder, hinserted.op_eq] at hreorder₁
  have hlt : slot < node₁.deps.length := by
    rw [← (Node.content_eq_iff.1 hcontent₁).2.1]
    exact hslot
  obtain ⟨input₁, hinput₁⟩ := hsound.wellFormed.exists_input hnode₁ hlt
  obtain ⟨input₂, hinput₂, hproducer₂, hlayout₂, hchosen₂⟩ :=
    hdone.settles.exists_input hhonours' hinput₁
  obtain ⟨input, hinput, hproducer, hlayout⟩ := hdone.installs.exists_input hinput₂
  refine ⟨input, hinput, fun hconstant hshared => ?_⟩
  have hslot₁ := Graph.slot_of_input? hinput₁
  have hproducer' := hproducer.trans hproducer₂
  have hgets : node₁.Gets input₁ := by
    refine hagrees id hold hnode₁ hreorder₁ hinput₁ ?_ ?_
    · rw [Input.isReal, ← Node.isConstant_congr (Node.op_of_content hproducer'), hconstant]
      rfl
    · rw [← Node.isSharedSurface_congr (Node.attrs_of_content hproducer'), hshared]
  rw [hprefers, hop, hlayout, ← hslot₁]
  refine ⟨fun hany => ?_, fun hconv dtype hdtype => ?_⟩
  · have hformat := hgets.format_eq hany
    have hkept : input₂.layout = input₁.layout := by
      refine hchosen₂ ?_
      rw [hformat]
      simpa [Format.isChosen] using Format.adaptTo_ne_any _ _
    rw [hkept, hformat]
  · rw [(Layout.withFormat_any_eq_iff.1 hlayout₂).2.1]
    exact hgets.dtype_eq hconv hdtype

/-- The convolution reads its input in the blocked format that it prefers. -/
theorem edges_agree_byteConvolution : ∃ g out report node,
    Graph.build? byteConvolution = some (.ok g) ∧
    plan? { catalog := Builtin.catalog } g = some out ∧ out.result = .ok report ∧
    out.graph.node? ⟨1⟩ = some node ∧ node.isReorder = false ∧ 0 < node.deps.length ∧
    node.prefers.input 0 = .bFsYxFsv32 ∧
    ∃ input, out.graph.input? ⟨1⟩ 0 = some input ∧
      (input.producer.isConstant = false → input.producer.isSharedSurface = false →
        (node.prefers.input 0 ≠ .any →
          input.layout.format = (node.prefers.input 0).adaptTo input.layout.rank) ∧
        (node.op.isConvolutionLike = false → ∀ dtype,
          node.prefers.inputType 0 = some dtype → input.layout.dtype = dtype)) :=
  ⟨_, _, _, _, rfl, rfl, rfl, rfl, rfl, by decide, rfl,
    @edges_agree_of_plan byteConvolution _ rfl { catalog := Builtin.catalog } _ rfl _ rfl ⟨1⟩ _ rfl
      rfl 0 (by decide)⟩

end LayoutPlanner
