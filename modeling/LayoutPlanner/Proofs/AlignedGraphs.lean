import LayoutPlanner.Proofs.Buildable
import LayoutPlanner.Proofs.EdgeAgreement
import LayoutPlanner.Proofs.ProcessingOrder

/-!
# What edge agreement leaves behind

A run of edge agreement that ends well leaves an aligned graph: it is in order, every preference is
honoured, and of each node that had a turn we know the outcome of the last three steps.  There is no
padding to strip for a vendor routine, the node is legal or waits for its shapes, and it gets what
it wants.  Nothing like this holds of the steps before: the search for a legal layout comes after
them and may change what they looked at.
-/

namespace LayoutPlanner

/-- Edge agreement does something about the node: it has inputs and is not a reorder. -/
structure Node.HasTurn (node : Node) : Prop where
  deps : node.deps ≠ []
  notReorder : node.isReorder = false

theorem Node.HasTurn.of_bare {a b : Node} (h : a.bare = b.bare) (hb : b.HasTurn) : a.HasTurn where
  deps := by
    rw [Node.deps_of_bare h]
    exact hb.deps
  notReorder := by
    rw [Node.isReorder_congr (Node.op_of_meaning (Node.meaning_of_bare h)), hb.notReorder]

/-- What is left by a run of edge agreement that ended well. -/
structure Graph.Aligned (g : Graph) (cx : Context) : Prop where
  wellFormed : g.WellFormed
  listed : g.ListsAll
  honours : g.Honours
  produced : ∀ {before id after node edge}, g.order = before ++ id :: after →
    g.node? id = some node → edge ∈ node.deps → edge.node ∈ before
  unpadded : ∀ {id node slot input}, g.node? id = some node → node.HasTurn →
    Reconciliation.expectedKind node = some .vendor → g.input? id slot = some input →
    input.isReal → Repair.vendorPadding node input = none
  cleared : ∀ {id node}, g.node? id = some node → node.HasTurn → g.Cleared cx.catalog id
  gets : ∀ {id node slot input}, g.node? id = some node → node.HasTurn →
    g.input? id slot = some input → input.isReal → input.producer.isSharedSurface = false →
    node.Gets input

theorem Repair.vendorPadding_eq_none_iff {node : Node} {input : Input} :
    vendorPadding node input = none ↔ input.producer.isSharedSurface = true ∨
      input.layout.padding.hasBatchOrSpatial = false := by
  unfold vendorPadding
  cases input.producer.isSharedSurface <;> cases input.layout.padding.hasBatchOrSpatial <;> simp

namespace Reconciliation

variable {start : Graph} {cx : Context} {id : NodeId} {s s' : Reconciliation}

/-! ## Padding for vendor routines -/

/-- No visit makes a node one for the vendor. -/
theorem Change.vendor {node node' : Node} (h : Change node node')
    (hkind : expectedKind node' = some .vendor) : expectedKind node = some .vendor := by
  cases h with
  | same h => rw [← expectedKind_of_core h, hkind]
  | settled inherited h =>
    rw [expectedKind_of_core h] at hkind
    exact hkind
  | legalized base hbase h =>
    have hsame : expectedKind node' = expectedKind base := by
      rcases h with h | ⟨_, _, hadopts⟩
      · exact expectedKind_of_core h
      · have heq := expectedKind_of_core (Node.core_of_bare hadopts.rest)
        exact heq
    rw [hsame] at hkind
    rcases hbase with hbase | ⟨_, hbase⟩
    · rw [← expectedKind_of_core hbase, hkind]
    · rw [expectedKind_of_core hbase] at hkind
      cases hkind

theorem Unpadded.legalized (h : Unpadded id s) (hs : Sound start s) (hid : id.index < start.size)
    (hlegalized : Legalized cx id s s') : Unpadded id s' := by
  intro node' slot input' hnode' hkind hinput' hreal
  obtain ⟨node, hnode, hchange⟩ := hlegalized.change hs hid hid hnode'
  obtain ⟨input, hinput, _, hproducer, hlayout⟩ :=
    hlegalized.edit.content.symm.exists_input hinput'
  have hsame : input.isReal = input'.isReal := by
    rw [Input.isReal, Input.isReal, Node.isConstant_congr (Node.op_of_content hproducer)]
  have hclean := h node slot input hnode (hchange.vendor hkind) hinput (hsame.trans hreal)
  rw [Repair.vendorPadding_eq_none_iff] at hclean ⊢
  rw [← Node.isSharedSurface_congr (Node.attrs_of_content hproducer),
    ← (Layout.withFormat_any_eq_iff.1 hlayout).2.2]
  exact hclean

/-- Agreement brings back no padding. -/
theorem Unpadded.repaired {slots : List Nat} (h : Unpadded id s) (hs : Sound start s)
    (hid : id.index < start.size) (hslots : s.graph.realSlots? id = some slots)
    (hrepaired : Repaired start id (fun s => Repair.agreement s.isCreated) slots s s') :
    Unpadded id s' := by
  intro node' slot input' hnode' hkind hinput' hreal
  obtain ⟨node, hnode⟩ := Graph.exists_node (Nat.lt_of_lt_of_le hid hs.grown)
  obtain ⟨_, hfound, hcore, _⟩ := hrepaired.served.self hnode
  obtain rfl := Option.some.inj (hnode'.symm.trans hfound)
  have hmem := hrepaired.mem_of_isReal hs hnode hslots hinput' hreal
  obtain ⟨hlt, hinputs_real⟩ := lt_length_of_realSlots hs.wellFormed hnode hslots slot hmem
  obtain ⟨input, hinput⟩ := hs.wellFormed.exists_input hnode hlt
  have hclean := h node slot input hnode (expectedKind_of_core hcore ▸ hkind) hinput
    (hinputs_real input hinput)
  rw [Repair.vendorPadding_eq_none_iff] at hclean ⊢
  rcases hrepaired.done hmem hnode hinput with ⟨_, hface⟩ | ⟨demand, _, hdemand, hdelivered⟩
  · rw [hinput', Option.map_some] at hface
    have hface := Option.some.inj hface
    rw [Input.isSharedSurface_of_face hface, Input.layout_of_face hinput' hinput hface]
    exact hclean
  · obtain rfl := Option.some.inj (hinput'.symm.trans hdelivered.at_slot)
    right
    obtain ⟨hplain, _, htarget⟩ := Repair.of_agreement hdemand
    rw [hdelivered.layout_eq, htarget]
    dsimp only
    split
    · exact hclean.resolve_left (by simp [hplain])
    · rfl

theorem Visited.unpadded_after {before after : Reconciliation} (hid : id.index < start.size)
    (h : Visited start cx id s s' before after) (hfine : s'.failure = none) : Unpadded id s' := by
  have hunpadded := h.unpadded.legalized h.advanced.sound hid h.legalized
  rcases h.ending with ⟨hfailed, rfl⟩ | ⟨_, slots, hslots, hrepaired, _⟩
  · simp [hfine] at hfailed
  · exact hunpadded.repaired h.sound hid hslots hrepaired

theorem Unpadded.of_unmoved (h : Unpadded id s) (hsame : Unmoved id s s') : Unpadded id s' := by
  intro node' slot input' hnode' hkind hinput' hreal
  obtain ⟨node, hnode, hbare⟩ := exists_of_map_eq hsame.node.symm hnode'
  obtain ⟨input, hinput, hface⟩ := exists_of_map_eq (hsame.inputs slot).symm hinput'
  have hclean : Repair.vendorPadding node input = none := by
    refine h node slot input hnode ?_ hinput ?_
    · rw [expectedKind_of_core (Node.core_of_bare hbare), hkind]
    · rw [Input.isReal_of_face hface, hreal]
  rw [Repair.vendorPadding_eq_none_iff] at hclean ⊢
  rw [← Input.isSharedSurface_of_face hface, ← Input.layout_of_face hinput hinput' hface]
  exact hclean

/-- At the end of a run that does not fail, no padding is left to strip for a vendor routine. -/
theorem unpadded_of_run (hstart : start.Ordered) :
    Yields (start.order.foldlM (visit? cx) { graph := start }) fun s => s.failure = none →
      ∀ id : NodeId, id.index < start.size → ∀ node, s.graph.node? id = some node →
        node.HasTurn → Unpadded id s := by
  refine run?_done hstart (fun id s => ∀ node, s.graph.node? id = some node → node.HasTurn →
    Unpadded id s) ?_ ?_ ?_
  · intro id s node _ hnode hwhy node' hnode' hturn
    obtain rfl := Option.some.inj (hnode.symm.trans hnode')
    rcases hwhy with hdeps | hreorder
    · exact absurd hdeps hturn.deps
    · simp [hturn.notReorder] at hreorder
  · intro id s s' before after hid _ hvisited hfine _ _ _
    exact hvisited.unpadded_after hid hfine
  · intro id s s' _ _ hsame h node' hnode' hturn
    obtain ⟨node, hnode, hbare⟩ := exists_of_map_eq hsame.node.symm hnode'
    exact (h node hnode (hturn.of_bare hbare)).of_unmoved hsame

/-! ## Aligned graphs -/

/-- A node that has a turn was there at the start. -/
theorem Sound.lt_size_of_hasTurn (hs : Sound start s) {node : Node}
    (hnode : s.graph.node? id = some node) (hturn : node.HasTurn) : id.index < start.size := by
  by_contra hnew
  have hinserted := hs.inserted hnode (Nat.not_lt.1 hnew)
  simpa [Node.isReorder, hinserted.op_eq] using hturn.notReorder

theorem aligned_of_run (hcatalog : cx.catalog.Tolerates) (hstart : start.Ordered)
    (hhonours : start.Honours) (hrun : start.order.foldlM (visit? cx) { graph := start } = some s)
    (hfine : s.failure = none) : s.graph.Aligned cx := by
  obtain ⟨hsound, hplaced⟩ := (placed_of_run hstart).post_of_eq hrun
  obtain ⟨_, hhonours'⟩ := (honours_of_run hstart hhonours).post_of_eq hrun
  refine ⟨hsound.wellFormed, hsound.listed, hhonours', (hplaced.arranged hstart hsound).produced,
    ?_, ?_, ?_⟩
  · intro id node slot input hnode hturn
    have hold := hsound.lt_size_of_hasTurn hnode hturn
    exact (unpadded_of_run hstart).post_of_eq hrun hfine id hold node hnode hturn node slot input
      hnode
  · intro id node hnode hturn
    have hold := hsound.lt_size_of_hasTurn hnode hturn
    exact (cleared_of_run hcatalog hstart).post_of_eq hrun hfine id hold node hnode hturn.deps
      hturn.notReorder
  · intro id node slot input hnode hturn
    have hold := hsound.lt_size_of_hasTurn hnode hturn
    exact (agreed_of_run hstart).post_of_eq hrun hfine id hold hnode hturn.notReorder

end Reconciliation

end LayoutPlanner
