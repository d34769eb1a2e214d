import LayoutPlanner.Builtin.Catalog
import LayoutPlanner.Proofs.Detours
import LayoutPlanner.Proofs.RecordedRuns

/-!
# Stripped padding

What the reorders of a run do to the padding of the edges that they are on.

A reorder gets its target from one repair and may get another one from the next, and each of them
starts from what the reorder puts out.  Two things survive this.

* As long as a reorder leaves padding of batch or space, it has not touched that of the features
  (`Padding.Thinned`).
* A reorder that was inserted to strip padding for a vendor routine puts out the padding of the
  features, exactly as its source has it.

Both are kept by every move, whoever makes it (`Thins.move`), so nothing has to be known about the
visits.
-/

namespace LayoutPlanner

/-- If padding of batch or space is left, then the padding of the features is still there. -/
def Padding.Thinned (source target : Padding) : Prop :=
  target.hasBatchOrSpatial = true → target.onlyFeature = source.onlyFeature

theorem Padding.thinned_of_bare {source target : Padding}
    (h : target.hasBatchOrSpatial = false) : Thinned source target := by
  intro hpadded
  rw [h] at hpadded
  cases hpadded

/-! ## What demands do to padding -/

theorem Repair.padding_of_stateType {node : Node} {input : Input} {demand : Demand}
    (h : stateType node input = some demand) :
    demand.target.padding = input.layout.padding ∧ demand.reason = .typeConversion := by
  unfold stateType at h
  split at h
  next => split at h <;> cases h; exact ⟨rfl, rfl⟩
  next => cases h

theorem Repair.padding_of_fusedConstant {output : Layout} {node : Node} {input : Input}
    {demand : Demand} (h : fusedConstant output node input = some demand) :
    demand.target.padding = input.layout.padding ∧ demand.reason = .fusedDependency := by
  unfold fusedConstant at h
  dsimp only at h
  split at h <;> cases h
  exact ⟨rfl, rfl⟩

theorem Repair.reason_of_normalizationPadding {output : Layout} {node : Node} {input : Input}
    {demand : Demand} (h : normalizationPadding output node input = some demand) :
    demand.reason = .stripSpatialPadding := by
  unfold normalizationPadding at h
  dsimp only at h
  split at h <;> cases h
  rfl

theorem Repair.reason_of_agreement {isCreated : NodeId → Bool} {node : Node} {input : Input}
    {demand : Demand} (h : agreement isCreated node input = some demand) :
    demand.reason ≠ .stripPadding := by
  unfold agreement at h
  dsimp only at h
  split at h <;> cases h
  dsimp only
  split <;> exact ReorderReason.noConfusion

namespace Reconciliation

variable {start : Graph} {cx : Context} {id : NodeId} {slot : Nat} {s s' : Reconciliation}

section Demands

variable {node : Node} {input : Input} {demand : Demand} (h : Demands s node input demand)

include h

theorem Demands.thinned {source : Padding} (hthinned : source.Thinned input.layout.padding) :
    source.Thinned demand.target.padding := by
  cases h with
  | stateType h => rwa [(Repair.padding_of_stateType h).1]
  | fusedConstant _ h => rwa [(Repair.padding_of_fusedConstant h).1]
  | normalizationPadding _ _ _ h =>
    rw [(Repair.padding_of_normalizationPadding h).2]
    intro hpadded
    rw [Padding.onlyFeature_dropSpatial]
    exact hthinned (Padding.hasBatchOrSpatial_of_dropSpatial hpadded)
  | vendorPadding _ _ h =>
    rw [(Repair.padding_of_vendorPadding h).2.2]
    exact Padding.thinned_of_bare (Padding.hasBatchOrSpatial_onlyFeature _)
  | agreement _ h =>
    rw [(Repair.of_agreement h).2.2]
    dsimp only
    split
    · exact hthinned
    · exact Padding.thinned_of_bare rfl

/-- What a reorder of this run puts out without padding of batch and space keeps its padding. -/
theorem Demands.padding_eq (hbare : input.layout.padding.hasBatchOrSpatial = false)
    (hcreated : s.isCreated input.producer.id = true) :
    demand.target.padding = input.layout.padding := by
  cases h with
  | stateType h => exact (Repair.padding_of_stateType h).1
  | fusedConstant _ h => exact (Repair.padding_of_fusedConstant h).1
  | normalizationPadding _ _ _ h =>
    have hspatial := (Repair.padding_of_normalizationPadding h).1
    rw [Padding.hasBatchOrSpatial, hspatial, Bool.or_true] at hbare
    cases hbare
  | vendorPadding _ _ h =>
    rw [(Repair.padding_of_vendorPadding h).2.1] at hbare
    cases hbare
  | agreement _ h =>
    rw [(Repair.of_agreement h).2.2, hcreated]
    rfl

/-- Padding is stripped only where there is some, and that of the features is kept. -/
theorem Demands.strips (hreason : demand.reason = .stripPadding) :
    input.layout.padding.hasBatchOrSpatial = true ∧
      demand.target.padding = input.layout.padding.onlyFeature := by
  cases h with
  | stateType h =>
    rw [(Repair.padding_of_stateType h).2] at hreason
    cases hreason
  | fusedConstant _ h =>
    rw [(Repair.padding_of_fusedConstant h).2] at hreason
    cases hreason
  | normalizationPadding _ _ _ h =>
    rw [Repair.reason_of_normalizationPadding h] at hreason
    cases hreason
  | vendorPadding _ _ h => exact (Repair.padding_of_vendorPadding h).2
  | agreement _ h => exact absurd hreason (Repair.reason_of_agreement h)

end Demands

/-! ## What a conversion makes of the reorders -/

/-- A reorder after a conversion of a slot: it is as it was, it feeds the slot and got the new
target, or it was made for the slot. -/
inductive Renewed (start : Graph) (id : NodeId) (slot : Nat) (demand : Demand) (s : Reconciliation)
    (reorder : NodeId) (node' : Node) : Prop
  | kept {node : Node} (hnode : s.graph.node? reorder = some node) (hbare : node'.bare = node.bare)
  | retargeted {node : Node} (hnode : s.graph.node? reorder = some node)
      (hcurrent : s.graph.dep? id slot = some ⟨reorder, 0⟩) (hdeps : node'.deps = node.deps)
      (hattrs : node'.attrs = node.attrs) (houtputs : node'.outputs = [demand.target])
  | created {info : ReorderInfo} {edge : Edge} (hattrs : node'.attrs = .reorder info)
      (hreason : info.reason = demand.reason) (hedge : start.dep? id slot = some edge)
      (hdeps : node'.deps = [edge]) (houtputs : node'.outputs = [demand.target])

/-- A new reorder is marked with the reason it was made for. -/
theorem Serves.reason_of_new {target : Layout} {reason : ReorderReason} (hstart : start.WellFormed)
    (hs : Sound start s) (hid : id.index < start.size) (h : Serves id slot target reason s s')
    {reorder : NodeId} (hle : s.graph.size ≤ reorder.index) {node' : Node}
    (hnode' : s'.graph.node? reorder = some node') :
    ∃ info, node'.attrs = .reorder info ∧ info.reason = reason := by
  have hlt := Graph.lt_size_of_node? hnode'
  cases h with
  | retarget _ _ hconverter _ h =>
    have hsize := ((Graph.setTarget?_spec hs.wellFormed hconverter target).post_of_eq h).size_eq
    exact absurd (hsize ▸ hlt) (Nat.not_lt.2 hle)
  | reuse hfreed _ _ h =>
    obtain ⟨g, hg, h⟩ := Option.bind_eq_some_iff.1 h
    cases h
    obtain ⟨_, _, _, hsize⟩ := hfreed.silent
    exact absurd ((size_of_reroute? hg).trans hsize ▸ hlt) (Nat.not_lt.2 hle)
  | create hfreed _ _ h =>
    obtain ⟨_, _, _, hsize⟩ := hfreed.silent
    obtain ⟨_, _, _, hs₁, _⟩ := hfreed.spec hstart hs hid
    obtain ⟨input, hinput, h⟩ := Option.bind_eq_some_iff.1 h
    obtain ⟨⟨g, _⟩, hg, h⟩ := Option.bind_eq_some_iff.1 h
    cases h
    obtain ⟨_, _, hsize', _, new, hnew, hbare⟩ :=
      (Graph.interpose?_spec hs₁.wellFormed hinput target reason).post_of_eq hg
    have hlt' : reorder.index < g.size := hlt
    obtain ⟨index⟩ := reorder
    obtain rfl : index = _ := Nat.le_antisymm (Nat.lt_succ_iff.1 (hsize' ▸ hlt')) (hsize ▸ hle)
    obtain rfl := Option.some.inj (hnode'.symm.trans hnew)
    exact ⟨_, congrArg (·.2) (Node.origin_of_bare hbare), rfl⟩

theorem renewed_of_convert? (hstart : start.WellFormed) (hs : Sound start s)
    (hid : id.index < start.size) {demand : Demand}
    (h : s.convert? id slot demand.target demand.reason = some s') {reorder : NodeId}
    (hle : start.size ≤ reorder.index) {node' : Node}
    (hnode' : s'.graph.node? reorder = some node') :
    Renewed start id slot demand s reorder node' := by
  have hserves := serves_of_convert? h
  have hne : reorder ≠ id := by
    rintro rfl
    exact absurd hid (Nat.not_lt.2 hle)
  obtain ⟨edge, hedge, _, hfeeds⟩ := hserves.feeds hstart hs hid
  have hkept : ∀ {s₁ edge'}, TakenOff start id slot edge s s₁ →
      Graph.Rewired id slot edge' s₁.graph s'.graph → reorder.index < s₁.graph.size →
      Renewed start id slot demand s reorder node' := by
    intro s₁ edge' hoff hrewired hlt
    obtain ⟨node₁, hnode₁, hbare₁⟩ := hrewired.exists_old hnode' hlt hne
    obtain ⟨node, hnode, hbare⟩ :=
      exists_of_map_eq (hoff.bare_eq (hoff.size_eq ▸ hlt) hne).symm hnode₁
    exact .kept hnode (hbare₁.trans hbare.symm)
  cases hfeeds with
  | @retarget other converter hcurrent _ hconverter _ _ _ hretargeted =>
    by_cases hself : reorder = other
    · subst hself
      obtain ⟨_, hnew, hbare⟩ := hretargeted.changed converter hconverter
      obtain rfl := Option.some.inj (hnode'.symm.trans hnew)
      obtain ⟨_, _, target, _, _, houtputs, _⟩ := (hs.inserted hconverter hle).converts
      have hputs := Node.outputs_of_bare hbare
      have hdeps := Node.deps_of_bare hbare
      have hattrs := congrArg (·.2) (Node.origin_of_bare hbare)
      rw [houtputs] at hputs
      exact .retargeted hconverter hcurrent hdeps hattrs hputs
    · obtain ⟨node, hnode, hbare⟩ := hretargeted.exists_old hself hnode'
      exact .kept hnode hbare
  | reuse _ hoff _ _ _ hrewired _ houtputs =>
    exact hkept hoff hrewired (houtputs.size_eq ▸ Graph.lt_size_of_node? hnode')
  | @create s₁ _ new _ hoff _ _ _ hrewired hsize _ hnew hdeps houtputs =>
    by_cases hlt : reorder.index < s₁.graph.size
    · exact hkept hoff hrewired hlt
    have hbound := hsize ▸ Graph.lt_size_of_node? hnode'
    obtain ⟨index⟩ := reorder
    obtain rfl : index = s₁.graph.size :=
      Nat.le_antisymm (Nat.lt_succ_iff.1 hbound) (Nat.not_lt.1 hlt)
    obtain rfl := Option.some.inj (hnode'.symm.trans hnew)
    obtain ⟨info, hattrs, hreason⟩ :=
      hserves.reason_of_new hstart hs hid (Nat.le_of_eq hoff.size_eq.symm) hnode'
    exact .created hattrs hreason hedge hdeps houtputs

/-! ## Along a run -/

/-- What the reorders of the run do to padding. -/
structure Thins (start : Graph) (s : Reconciliation) : Prop where
  thinned : ∀ {reorder node edge source target}, start.size ≤ reorder.index →
    s.graph.node? reorder = some node → node.deps = [edge] →
    start.layoutAt? edge = some source → node.outputs = [target] →
    source.padding.Thinned target.padding
  stripped : ∀ {reorder node edge source target info}, start.size ≤ reorder.index →
    s.graph.node? reorder = some node → node.deps = [edge] →
    start.layoutAt? edge = some source → node.outputs = [target] →
    node.attrs = .reorder info → info.reason = .stripPadding →
    target.padding = source.padding.onlyFeature

theorem thins_start : Thins start { graph := start } where
  thinned hle hnode := absurd (Graph.lt_size_of_node? hnode) (Nat.not_lt.2 hle)
  stripped hle hnode := absurd (Graph.lt_size_of_node? hnode) (Nat.not_lt.2 hle)

/-- What a slot reads has been thinned on the way from its old edge. -/
theorem Thins.input (h : Thins start s) (hs : Sound start s) (hid : id.index < start.size)
    {edge : Edge} {source : Layout} {input : Input} (hedge : start.dep? id slot = some edge)
    (hsource : start.layoutAt? edge = some source) (hinput : s.graph.input? id slot = some input) :
    source.padding.Thinned input.layout.padding := by
  obtain ⟨node, hnode, hdep, _, hproducer, houtput⟩ := Graph.input?_eq_some_iff.1 hinput
  obtain ⟨_, hold, hfeeds⟩ := hs.exists_slot hid (Graph.dep?_eq_some_iff.2 ⟨node, hnode, hdep⟩)
  obtain rfl := Option.some.inj (hedge.symm.trans hold)
  rcases hfeeds with heq | ⟨reorder, converter, heq, hle, hconverter, hdeps⟩
  · obtain ⟨_, hfound, _⟩ := Graph.layoutAt?_eq_some_iff.1 hsource
    have hlayout := hs.layoutAt?_eq (Graph.lt_size_of_node? hfound)
    rw [hsource, ← heq, Graph.layoutAt?_eq_some_iff.2 ⟨_, hproducer, houtput⟩, Option.map_some,
      Option.map_some, Option.some.injEq] at hlayout
    rw [(Layout.withFormat_any_eq_iff.1 hlayout).2.2]
    exact fun _ => rfl
  · rw [heq] at hproducer houtput
    obtain rfl := Option.some.inj (hconverter.symm.trans hproducer)
    obtain ⟨_, _, target, _, _, houtputs, _⟩ := (hs.inserted hconverter hle).converts
    obtain rfl : target = input.layout := by simpa [houtputs] using houtput
    exact h.thinned hle hconverter hdeps hsource houtputs

/-- Reorders that are left alone go on thinning as they did. -/
theorem Thins.of_bare (h : Thins start s)
    (hbare : ∀ {reorder node'}, start.size ≤ reorder.index →
      s'.graph.node? reorder = some node' →
      ∃ node, s.graph.node? reorder = some node ∧ node'.bare = node.bare) : Thins start s' where
  thinned hle hnode' hdeps hsource houtputs := by
    obtain ⟨node, hnode, hsame⟩ := hbare hle hnode'
    exact h.thinned hle hnode ((Node.deps_of_bare hsame).symm.trans hdeps) hsource
      ((Node.outputs_of_bare hsame).symm.trans houtputs)
  stripped hle hnode' hdeps hsource houtputs hattrs hreason := by
    obtain ⟨node, hnode, hsame⟩ := hbare hle hnode'
    exact h.stripped hle hnode ((Node.deps_of_bare hsame).symm.trans hdeps) hsource
      ((Node.outputs_of_bare hsame).symm.trans houtputs)
      ((congrArg (·.2) (Node.origin_of_bare hsame)).symm.trans hattrs) hreason

/-- A reorder of this run that feeds a slot puts out what is read there. -/
theorem Sound.outputs_of_feeding (hs : Sound start s) {input : Input}
    (hinput : s.graph.input? id slot = some input) {reorder : NodeId} {node : Node}
    (hle : start.size ≤ reorder.index) (hnode : s.graph.node? reorder = some node)
    (hslot : s.graph.dep? id slot = some ⟨reorder, 0⟩) :
    node.outputs = [input.layout] ∧ s.isCreated input.producer.id = true := by
  obtain ⟨reader, hreader, hdep, _, hproducer, houtput⟩ := Graph.input?_eq_some_iff.1 hinput
  have hcurrent := Graph.dep?_eq_some_iff.2 ⟨reader, hreader, hdep⟩
  have hself := Option.some.inj (hcurrent.symm.trans hslot)
  rw [hself] at hproducer houtput
  obtain rfl := Option.some.inj (hnode.symm.trans hproducer)
  constructor
  · obtain ⟨_, _, target, _, _, houtputs, _⟩ := (hs.inserted hnode hle).converts
    obtain rfl : target = input.layout := by simpa [houtputs] using houtput
    exact houtputs
  · rw [hs.isCreated_producer_iff hinput, hs.wellFormed.id_eq hnode]
    exact hle

theorem Thins.convert (h : Thins start s) (hstart : start.WellFormed) (hs : Sound start s)
    (hid : id.index < start.size) {node : Node} {input : Input} {demand : Demand}
    (hinput : s.graph.input? id slot = some input) (hdemands : Demands s node input demand)
    (hconvert : s.convert? id slot demand.target demand.reason = some s') : Thins start s' := by
  constructor
  · intro reorder node' edge source target hle hnode' hdeps' hsource houtputs'
    cases renewed_of_convert? hstart hs hid hconvert hle hnode' with
    | kept hnode hbare =>
      exact h.thinned hle hnode ((Node.deps_of_bare hbare).symm.trans hdeps') hsource
        ((Node.outputs_of_bare hbare).symm.trans houtputs')
    | retargeted hnode hslot hdeps _ houtputs =>
      obtain rfl := List.singleton_inj.1 (houtputs.symm.trans houtputs')
      obtain ⟨hputs, _⟩ := hs.outputs_of_feeding hinput hle hnode hslot
      exact hdemands.thinned (h.thinned hle hnode (hdeps.symm.trans hdeps') hsource hputs)
    | created _ _ hedge hdeps houtputs =>
      obtain rfl := List.singleton_inj.1 (houtputs.symm.trans houtputs')
      obtain rfl := List.singleton_inj.1 (hdeps.symm.trans hdeps')
      exact hdemands.thinned (h.input hs hid hedge hsource hinput)
  · intro reorder node' edge source target info hle hnode' hdeps' hsource houtputs' hattrs' hreason
    cases renewed_of_convert? hstart hs hid hconvert hle hnode' with
    | kept hnode hbare =>
      exact h.stripped hle hnode ((Node.deps_of_bare hbare).symm.trans hdeps') hsource
        ((Node.outputs_of_bare hbare).symm.trans houtputs')
        ((congrArg (·.2) (Node.origin_of_bare hbare)).symm.trans hattrs') hreason
    | retargeted hnode hslot hdeps hattrs houtputs =>
      obtain rfl := List.singleton_inj.1 (houtputs.symm.trans houtputs')
      obtain ⟨hputs, hcreated⟩ := hs.outputs_of_feeding hinput hle hnode hslot
      have hpadding := h.stripped hle hnode (hdeps.symm.trans hdeps') hsource hputs
        (hattrs.symm.trans hattrs') hreason
      rw [hdemands.padding_eq ?_ hcreated, hpadding]
      rw [hpadding, Padding.hasBatchOrSpatial_onlyFeature]
    | created hattrs hmade hedge hdeps houtputs =>
      obtain rfl := List.singleton_inj.1 (houtputs.symm.trans houtputs')
      obtain rfl := List.singleton_inj.1 (hdeps.symm.trans hdeps')
      obtain rfl := Attributes.reorder.inj (hattrs.symm.trans hattrs')
      obtain ⟨hpadded, htarget⟩ := hdemands.strips (hmade.symm.trans hreason)
      rw [htarget, h.input hs hid hedge hsource hinput hpadded]

theorem Thins.move (h : Thins start s) (hstart : start.WellFormed) (hs : Sound start s)
    (hid : id.index < start.size) (hmove : Move id s s') : Thins start s' := by
  obtain ⟨node, hnode⟩ := Graph.exists_node (Nat.lt_of_lt_of_le hid hs.grown)
  cases hmove with
  | settle hsettle =>
    have hedit := ((Graph.settle?_spec hs.wellFormed hnode).post_of_eq hsettle).1
    exact h.of_bare fun hle hnode' => bare_of_localEdit hid hedit hle hnode'
  | invalidate hinvalidate =>
    have hedit := ((Graph.invalidate?_spec hs.wellFormed hnode).post_of_eq hinvalidate).1
    exact h.of_bare fun hle hnode' => bare_of_localEdit hid hedit hle hnode'
  | convert _ hinput hdemands hconvert => exact h.convert hstart hs hid hinput hdemands hconvert

theorem thins_of_run (hstart : start.Ordered) :
    Yields (start.order.foldlM (visit? cx) { graph := start }) fun s =>
      Sound start s ∧ Thins start s := by
  refine run?_inv hstart (Thins start) thins_start ?_ ?_
  · exact fun hid hs h hmove => h.move hstart.wellFormed hs hid hmove
  · exact fun hid _ h hlegalized =>
      h.of_bare fun hle hnode' => bare_of_localEdit hid hlegalized.edit hle hnode'

/-- What a reorder that strips padding makes of what it reads, in the graph as it is now. -/
theorem Thins.exists_stripped (h : Thins start s) (hs : Sound start s) {reorder : NodeId}
    {node : Node} {info : ReorderInfo} (hle : start.size ≤ reorder.index)
    (hnode : s.graph.node? reorder = some node) (hattrs : node.attrs = .reorder info)
    (hreason : info.reason = .stripPadding) :
    ∃ input target, s.graph.input? reorder 0 = some input ∧ node.deps = [input.edge] ∧
      node.outputs = [target] ∧ target.padding = input.layout.padding.onlyFeature := by
  obtain ⟨edge, source, target, hdeps, hsource, houtputs, _⟩ := (hs.inserted hnode hle).converts
  have hslot : 0 < node.deps.length := by rw [hdeps]; exact Nat.zero_lt_one
  obtain ⟨input, hinput⟩ := hs.wellFormed.exists_input hnode hslot
  obtain ⟨_, hfound, hget, _, hproducer, houtput⟩ := Graph.input?_eq_some_iff.1 hinput
  obtain rfl := Option.some.inj (hnode.symm.trans hfound)
  obtain rfl : edge = input.edge := by simpa [hdeps] using hget
  refine ⟨input, target, hinput, hdeps, houtputs, ?_⟩
  obtain ⟨_, hold, _⟩ := Graph.layoutAt?_eq_some_iff.1 hsource
  have hlayout := hs.layoutAt?_eq (Graph.lt_size_of_node? hold)
  rw [Graph.layoutAt?_eq_some_iff.2 ⟨_, hproducer, houtput⟩, hsource, Option.map_some,
    Option.map_some, Option.some.injEq] at hlayout
  rw [h.stripped hle hnode hdeps hsource houtputs hattrs hreason,
    (Layout.withFormat_any_eq_iff.1 hlayout).2.2]

/-- If propagation and edge agreement end well, what a vendor routine reads is padded on the
features at most, unless it reads a constant or a shared surface.  A reorder that strips padding
for such a routine keeps all the padding of the features. -/
theorem feature_padded_of_agreement {decls : List NodeDecl} {g : Graph}
    (hbuild : Graph.build? decls = some (.ok g)) {cx : Context} {swept agreed : Outcome}
    (hswept : Propagation.run? cx g = some swept)
    (hagreed : Reconciliation.run? cx swept.graph = some agreed) {report : Report}
    (hok : agreed.result = .ok report) :
    (∀ {id node slot}, agreed.graph.node? id = some node → node.isReorder = false →
      node.selected.or node.pinned = some .vendor → slot < node.deps.length →
      ∃ input, agreed.graph.input? id slot = some input ∧
        (input.producer.isConstant = false → input.producer.isSharedSurface = false →
          ∀ axis, axis ≠ 1 → input.layout.padding.isPaddedAt axis = false)) ∧
    ∀ {reorder node info}, g.size ≤ reorder.index → agreed.graph.node? reorder = some node →
      node.attrs = .reorder info → info.reason = .stripPadding →
      ∃ input target, agreed.graph.input? reorder 0 = some input ∧ node.deps = [input.edge] ∧
        node.outputs = [target] ∧ target.padding = input.layout.padding.onlyFeature ∧
        target.padding.lowerAt 1 = input.layout.padding.lowerAt 1 ∧
        target.padding.upperAt 1 = input.layout.padding.upperAt 1 := by
  have hfresh := Graph.fresh_of_build hbuild
  obtain ⟨_, _, _, hgraph₁, hsame⟩ :=
    (Propagation.run?_spec cx hfresh.toOrdered).post_of_eq hswept
  rw [hgraph₁] at hagreed
  have hordered := hfresh.toOrdered.of_sameContent hsame
  obtain ⟨s, hfold, hsound, hgraph, herror⟩ :=
    (Reconciliation.run?_spec cx hordered).post_of_eq hagreed
  have hfine : s.failure = none := herror ▸ Outcome.error?_eq_none_iff.2 ⟨report, hok⟩
  rw [hgraph]
  constructor
  · intro id node slot hnode hreorder hkind hslot
    have hturn : node.HasTurn := ⟨List.ne_nil_of_length_pos (Nat.zero_lt_of_lt hslot), hreorder⟩
    have hold := hsound.lt_size_of_hasTurn hnode hturn
    obtain ⟨input, hinput⟩ := hsound.wellFormed.exists_input hnode hslot
    refine ⟨input, hinput, fun hreal hplain axis haxis => ?_⟩
    have hclean := (unpadded_of_run hordered).post_of_eq hfold hfine id hold node hnode hturn node
      slot input hnode hkind hinput (by simp [Input.isReal, hreal])
    rw [Repair.vendorPadding_eq_none_iff, hplain] at hclean
    exact Padding.isPaddedAt_eq_false (hclean.resolve_left Bool.false_ne_true) haxis
  · intro reorder node info hle hnode hattrs hreason
    obtain ⟨_, hthins⟩ := (thins_of_run hordered).post_of_eq hfold
    rw [← hsame.nodes.size_eq] at hle
    obtain ⟨input, target, hinput, hdeps, houtputs, hpadding⟩ :=
      hthins.exists_stripped hsound hle hnode hattrs hreason
    refine ⟨input, target, hinput, hdeps, houtputs, hpadding, ?_, ?_⟩
    · rw [hpadding, Padding.onlyFeature, Padding.lowerAt_restrict]
      rfl
    · rw [hpadding, Padding.onlyFeature, Padding.upperAt_restrict]
      rfl

/-- A convolution of bytes that reads an image which is padded on all its axes. -/
def paddedImage : List NodeDecl :=
  [{ name := "image", op := .input,
     outputs := [⟨.ofExtents [1, 16, 8, 8], .si8, .bfyx, .of [1, 2, 1, 1] [0, 3, 1, 1]⟩] },
    { name := "filtered", op := .convolution, inputs := [⟨⟨0⟩, 0⟩],
      outputs := [⟨.ofExtents [1, 16, 8, 8], .si8, .any, {}⟩],
      attrs := .convolution (.ofKernel [3, 3]) }]

/-- The convolution reads the image through a reorder that strips it. -/
theorem feature_padded_paddedImage : ∃ g swept agreed report filtered node info,
    Graph.build? paddedImage = some (.ok g) ∧
    Propagation.run? { catalog := Builtin.catalog } g = some swept ∧
    Reconciliation.run? { catalog := Builtin.catalog } swept.graph = some agreed ∧
    agreed.result = .ok report ∧ agreed.graph.node? ⟨1⟩ = some filtered ∧
    filtered.isReorder = false ∧ filtered.selected.or filtered.pinned = some .vendor ∧
    filtered.deps = [⟨⟨2⟩, 0⟩] ∧ g.size ≤ 2 ∧ agreed.graph.node? ⟨2⟩ = some node ∧
    node.attrs = .reorder info ∧ info.reason = .stripPadding ∧
    (∃ input, agreed.graph.input? ⟨1⟩ 0 = some input ∧
      (input.producer.isConstant = false → input.producer.isSharedSurface = false →
        ∀ axis, axis ≠ 1 → input.layout.padding.isPaddedAt axis = false)) ∧
    ∃ input target, agreed.graph.input? ⟨2⟩ 0 = some input ∧ node.deps = [input.edge] ∧
      node.outputs = [target] ∧ target.padding = input.layout.padding.onlyFeature ∧
      target.padding.lowerAt 1 = input.layout.padding.lowerAt 1 ∧
      target.padding.upperAt 1 = input.layout.padding.upperAt 1 := by
  refine ⟨?g, ?swept, ?agreed, ?report, ?filtered, ?node, ?info, ?build, ?sweep, ?agree, ?ok,
    ?reader, ?plain, ?vendor, ?fed, ?new, ?reorder, ?attrs, ?reason,
    (feature_padded_of_agreement ?build ?sweep ?agree ?ok).1 ?reader ?plain ?vendor ?slot,
    (feature_padded_of_agreement ?build ?sweep ?agree ?ok).2 ?new ?reorder ?attrs ?reason⟩
  case build => rfl
  case sweep => rfl
  case agree => rfl
  case ok => rfl
  case reader => rfl
  case plain => rfl
  case vendor => rfl
  case fed => rfl
  case new => decide
  case reorder => rfl
  case attrs => rfl
  case reason => rfl
  case slot => decide

end Reconciliation

end LayoutPlanner
