import LayoutPlanner.Proofs.BuiltinVerdicts
import LayoutPlanner.Proofs.Contraction
import LayoutPlanner.Proofs.FittingFormats

/-!
# What edge agreement allows can be built

Edge agreement judges a node before its inputs are reconciled, and construction judges it again on
the finished graph.  If the backends put up with less padding, as the built-in ones do, the second
verdict follows from the first.

* How a node is shown changes in no way but that padding goes away: when its inputs are reconciled
  (`Repaired.input_eases`), when later nodes are visited, and when the outputs are settled
  (`Settles.exists_eases`).
* So a node that edge agreement passed is supported at the end, or waits for its shapes
  (`Cleared`).
* A reorder that was inserted converts between layouts that fit, which a generated kernel does.
-/

namespace LayoutPlanner

/-! ## Views of one node in two graphs -/

theorem Layout.Eases.refl (layout : Layout) : layout.Eases layout :=
  ⟨rfl, rfl, rfl, Or.inl rfl⟩

namespace Graph

/-- Views of a node in two graphs, compared slot by slot. -/
theorem exists_eases {g g' : Graph} (hg : g.WellFormed) (hg' : g'.WellFormed) {id : NodeId}
    {node node' : Node} (hnode : g.node? id = some node) (hnode' : g'.node? id = some node')
    (hmeaning : node'.meaning = node.meaning) (houtputs : node'.outputs = node.outputs)
    (hlength : node'.deps.length = node.deps.length)
    (hinputs : ∀ {slot input input'}, g.input? id slot = some input →
      g'.input? id slot = some input' → input'.isReal = input.isReal ∧
        (node.shownInput false input).Eases (node'.shownInput false input')) :
    ∃ v v', g.view? id = some v ∧ g'.view? id = some v' ∧ v.node = node ∧ v'.node = node' ∧
      v.Eases v' := by
  obtain ⟨inputs, hfound, hview⟩ := hg.exists_view hnode
  obtain ⟨inputs', hfound', hview'⟩ := hg'.exists_view hnode'
  refine ⟨_, _, hview, hview', rfl, rfl, Node.op_of_meaning hmeaning, Node.name_of_meaning hmeaning,
    Node.attrs_of_meaning hmeaning, Node.fused_of_meaning hmeaning, houtputs,
    List.forall₂_iff_get.2 ⟨?_, ?_⟩⟩
  · obtain ⟨_, hsame, hcount⟩ := hg.exists_inputs hnode
    obtain ⟨_, hsame', hcount'⟩ := hg'.exists_inputs hnode'
    obtain rfl := Option.some.inj (hfound.symm.trans hsame)
    obtain rfl := Option.some.inj (hfound'.symm.trans hsame')
    rw [hcount, hcount', hlength]
  · intro slot hlt hlt'
    have hat : g.input? id slot = some (inputs.get ⟨slot, hlt⟩) := by
      rw [← getElem?_of_inputs? hfound slot]
      exact List.getElem?_eq_getElem hlt
    have hat' : g'.input? id slot = some (inputs'.get ⟨slot, hlt'⟩) := by
      rw [← getElem?_of_inputs? hfound' slot]
      exact List.getElem?_eq_getElem hlt'
    exact hinputs hat hat'

end Graph

/-- With its padding, an input is shown in the preferred format or else in its own. -/
theorem Node.shownInput_false (node : Node) (input : Input) : node.shownInput false input =
    { input.layout with
      format := (node.prefers.input input.slot).orElse input.layout.format
      dtype := node.wantedType input.slot input.layout } := by
  simp [shownInput]

theorem Node.shownInput_congr {node node' : Node} {input input' : Input}
    (hprefers : node'.prefers = node.prefers) (hop : node'.op = node.op)
    (hslot : input'.slot = input.slot) (hlayout : input'.layout = input.layout) :
    node'.shownInput false input' = node.shownInput false input := by
  simp only [shownInput_false, wantedType, hprefers, hop, hslot, hlayout]

theorem Node.eases_of_face {node node' : Node} (hcore : node'.core = node.core) {g g' : Graph}
    {id : NodeId} {slot : Nat} {input input' : Input} (hinput : g.input? id slot = some input)
    (hinput' : g'.input? id slot = some input') (hface : input'.face = input.face) :
    input'.isReal = input.isReal ∧
      (node.shownInput false input).Eases (node'.shownInput false input') := by
  refine ⟨Input.isReal_of_face hface, ?_⟩
  rw [Node.shownInput_congr (Node.prefers_of_core hcore) (Node.op_of_core hcore)
    (congrArg (·.1) hface) (Input.layout_of_face hinput' hinput hface)]
  exact .refl _

/-- An agreement changes nothing about how an input is shown, except that padding may go away. -/
theorem Repair.eases_of_agreement {isCreated : NodeId → Bool} {node node' : Node}
    {input input' : Input} {demand : Demand}
    (h : Repair.agreement isCreated node input = some demand) (hcore : node'.core = node.core)
    (hslot : input'.slot = input.slot) (hlayout : input'.layout = demand.target) :
    (node.shownInput false input).Eases (node'.shownInput false input') := by
  rw [(Repair.of_agreement h).2.2] at hlayout
  have hasked : input'.layout.format = node.wantedFormat input.slot input.layout ∧
      input'.layout.dtype = node.wantedType input.slot input.layout := by
    rw [hlayout]
    exact ⟨rfl, rfl⟩
  have hdtype : node'.wantedType input'.slot input'.layout =
      node.wantedType input.slot input.layout := by
    rw [Node.wantedType_of_core hcore, hslot, Node.wantedType_eq_dtype hasked.2, hasked.2]
  rw [Node.shownInput_false, Node.shownInput_false]
  refine ⟨?_, hdtype, ?_, ?_⟩
  · rw [hlayout]
  · rw [Node.prefers_of_core hcore, hslot]
    unfold Format.orElse
    split
    next hany => rw [hasked.1, Node.wantedFormat, hany]
    next => rfl
  · rw [hlayout]
    dsimp only
    split
    · exact Or.inl rfl
    · exact Or.inr rfl

/-- A capability that the pin allows supports the node, or its shapes are not known yet and one may
be found when they are. -/
def Graph.Cleared (g : Graph) (catalog : Catalog) (id : NodeId) : Prop :=
  ∃ view, g.view? id = some view ∧
    (catalog.isSupported view (.ofPin view.node.pinned) view.shapeClass = true ∨
      view.shapeClass.isDynamic = true ∧ catalog.servesDynamic view.op = true)

theorem Graph.Cleared.of_eases {catalog : Catalog} (hcatalog : catalog.Tolerates) {g g' : Graph}
    {id : NodeId} (h : g.Cleared catalog id) {v v' : NodeView} (hview : g.view? id = some v)
    (hview' : g'.view? id = some v') (heases : v.Eases v')
    (hpinned : v'.node.pinned = v.node.pinned) : g'.Cleared catalog id := by
  obtain ⟨_, hfound, hcleared⟩ := h
  obtain rfl := Option.some.inj (hview.symm.trans hfound)
  refine ⟨v', hview', ?_⟩
  rcases hcleared with hsupported | hdynamic
  · refine Or.inl (hcatalog.isSupported heases (fun kind hkind => ?_) hsupported)
    rw [hpinned]
    exact hkind
  · right
    rw [heases.shapeClass, NodeView.op, heases.op]
    exact hdynamic

/-- Edits of single nodes keep the shape class. -/
theorem Graph.SameContent.shapeClass_eq {g g' : Graph} (hsame : SameContent g g') {id : NodeId}
    {v v' : NodeView} (hview : g.view? id = some v) (hview' : g'.view? id = some v') :
    v'.shapeClass = v.shapeClass := by
  obtain ⟨node, inputs, hnode, hinputs, rfl⟩ := view?_eq_some_iff.1 hview
  obtain ⟨node', inputs', hnode', hinputs', rfl⟩ := view?_eq_some_iff.1 hview'
  have hshapes : (inputs'.map Input.layout).map Layout.shape =
      (inputs.map Input.layout).map Layout.shape := by
    apply List.ext_getElem?
    intro slot
    simp only [List.getElem?_map, getElem?_of_inputs? hinputs, getElem?_of_inputs? hinputs']
    cases hinput : g.input? id slot with
    | none =>
      cases hinput' : g'.input? id slot with
      | none => rfl
      | some input' =>
        obtain ⟨_, hfound, _⟩ := hsame.symm.exists_input hinput'
        rw [hinput] at hfound
        cases hfound
    | some input =>
      obtain ⟨input', hinput', _, _, hlayout⟩ := hsame.exists_input hinput
      rw [hinput']
      simp [(Layout.withFormat_any_eq_iff.1 hlayout).1]
  have houtputs : node'.outputs.map Layout.shape = node.outputs.map Layout.shape := by
    obtain ⟨_, hfound, hcontent⟩ := hsame.nodes.exists_new hnode
    obtain rfl := Option.some.inj (hnode'.symm.trans hfound)
    have hmeaning := (Node.content_eq_iff.1 hcontent).1
    exact Layout.shapes_of_withFormat_any (Node.outputs_of_meaning hmeaning)
  unfold NodeView.shapeClass ShapeClass.ofLayouts
  simp only [List.map_append, hshapes, houtputs]

theorem Graph.SameContent.op_eq {g g' : Graph} (hsame : SameContent g g') {id : NodeId}
    {v v' : NodeView} (hview : g.view? id = some v) (hview' : g'.view? id = some v') :
    v'.op = v.op := by
  obtain ⟨node, inputs, hnode, _, rfl⟩ := view?_eq_some_iff.1 hview
  obtain ⟨node', inputs', hnode', _, rfl⟩ := view?_eq_some_iff.1 hview'
  obtain ⟨_, hfound, hcontent⟩ := hsame.nodes.exists_new hnode
  obtain rfl := Option.some.inj (hnode'.symm.trans hfound)
  exact Node.op_of_content hcontent

namespace Reconciliation

variable {start : Graph} {cx : Context} {id : NodeId} {s s' : Reconciliation}

/-- Reconciling the real inputs of a node changes nothing about how they are shown, except that
padding may go away. -/
theorem Repaired.input_eases {slots : List Nat}
    (h : Repaired start id (fun s => Repair.agreement s.isCreated) slots s s') {node node' : Node}
    (hnode : s.graph.node? id = some node) (hcore : node'.core = node.core)
    (hslots : ∀ slot ∈ slots, ∀ input, s.graph.input? id slot = some input → input.isReal = true)
    {slot : Nat} {input input' : Input} (hinput : s.graph.input? id slot = some input)
    (hinput' : s'.graph.input? id slot = some input') :
    input'.isReal = input.isReal ∧
      (node.shownInput false input).Eases (node'.shownInput false input') := by
  have hkept : (s'.graph.input? id slot).map Input.face = some input.face →
      input'.isReal = input.isReal ∧
        (node.shownInput false input).Eases (node'.shownInput false input') := by
    intro hface
    rw [hinput', Option.map_some] at hface
    exact Node.eases_of_face hcore hinput hinput' (Option.some.inj hface)
  by_cases hmem : slot ∈ slots
  · rcases h.done hmem hnode hinput with ⟨_, hface⟩ | ⟨demand, delivered, hdemand, hdelivered⟩
    · exact hkept hface
    · obtain rfl := Option.some.inj (hinput'.symm.trans hdelivered.at_slot)
      have hslot : input'.slot = input.slot := by
        rw [Graph.slot_of_input? hinput, Graph.slot_of_input? hinput']
      rw [hdelivered.isReal, hslots slot hmem input hinput]
      exact ⟨rfl, Repair.eases_of_agreement hdemand hcore hslot hdelivered.layout_eq⟩
  · refine hkept ?_
    rw [h.untouched hmem, hinput, Option.map_some]

theorem Repaired.cleared (hcatalog : cx.catalog.Tolerates) {slots : List Nat} (hs : Sound start s)
    (h : Repaired start id (fun s => Repair.agreement s.isCreated) slots s s') {node : Node}
    (hnode : s.graph.node? id = some node)
    (hslots : ∀ slot ∈ slots, ∀ input, s.graph.input? id slot = some input → input.isReal = true)
    (hcleared : s.graph.Cleared cx.catalog id) : s'.graph.Cleared cx.catalog id := by
  obtain ⟨node', hnode', hcore, hlength⟩ := h.served.self hnode
  obtain ⟨v, v', hview, hview', hv, hv', heases⟩ := Graph.exists_eases hs.wellFormed
    h.served.sound.wellFormed hnode hnode' (Node.meaning_of_core hcore) (Node.outputs_of_core hcore)
    hlength (h.input_eases hnode hcore hslots)
  refine hcleared.of_eases hcatalog hview hview' heases ?_
  rw [hv, hv', Node.pinned_of_core hcore]

/-- A node that is not moved stays cleared. -/
theorem cleared_of_unmoved (hcatalog : cx.catalog.Tolerates) (hs : Sound start s)
    (hs' : Sound start s') (h : Unmoved id s s') {node node' : Node}
    (hnode : s.graph.node? id = some node) (hbare : node'.bare = node.bare)
    (hnode' : s'.graph.node? id = some node') (hcleared : s.graph.Cleared cx.catalog id) :
    s'.graph.Cleared cx.catalog id := by
  have hcore := Node.core_of_bare hbare
  obtain ⟨v, v', hview, hview', hv, hv', heases⟩ := Graph.exists_eases hs.wellFormed hs'.wellFormed
    hnode hnode' (Node.meaning_of_core hcore) (Node.outputs_of_core hcore)
    (by rw [Node.deps_of_bare hbare]) (by
      intro slot input input' hinput hinput'
      have hface := h.inputs slot
      rw [hinput, hinput'] at hface
      exact Node.eases_of_face hcore hinput hinput' (Option.some.inj hface))
  refine hcleared.of_eases hcatalog hview hview' heases ?_
  rw [hv, hv', Node.pinned_of_core hcore]

theorem cleared_of_legal {catalog : Catalog} {g : Graph} (h : g.Legal catalog id) :
    g.Cleared catalog id := by
  obtain ⟨node, hnode, view, hview, hsupported⟩ := h
  obtain ⟨_, inputs, hfound, _, rfl⟩ := Graph.view?_eq_some_iff.1 hview
  obtain rfl := Option.some.inj (hnode.symm.trans hfound)
  exact ⟨_, hview, Or.inl hsupported⟩

/-- A visit that does not fail clears its node. -/
theorem Visited.cleared {before after : Reconciliation} (hid : id.index < start.size)
    (hcatalog : cx.catalog.Tolerates) (h : Visited start cx id s s' before after)
    (hfine : s'.failure = none) : s'.graph.Cleared cx.catalog id := by
  rcases h.ending with ⟨hfailed, rfl⟩ | ⟨hafter, slots, hslots, hrepaired, _⟩
  · simp [hfine] at hfailed
  obtain ⟨node, hnode⟩ := Graph.exists_node (Nat.lt_of_lt_of_le hid h.sound.grown)
  have hreal := lt_length_of_realSlots h.sound.wellFormed hnode hslots
  refine hrepaired.cleared hcatalog h.sound hnode (fun slot hmem => (hreal slot hmem).2) ?_
  obtain ⟨base, _, hending⟩ := h.legalized.ending
  cases hending with
  | supported _ _ hlegal => exact cleared_of_legal hlegal
  | adopted _ _ _ hlegal => exact cleared_of_legal hlegal
  | deferred _ _ hdynamic =>
    obtain ⟨view, hview, hdynamic⟩ := hdynamic
    obtain ⟨_, _, hview'⟩ := h.sound.wellFormed.exists_view hnode
    refine ⟨_, hview', Or.inr ?_⟩
    rw [h.legalized.edit.content.shapeClass_eq hview hview',
      h.legalized.edit.content.op_eq hview hview']
    exact hdynamic
  | unresolved _ hfailure =>
    obtain ⟨_, _, _, hfailure⟩ := hfailure
    rw [hafter] at hfailure
    cases hfailure

/-- At the end of a run that does not fail, every old node with inputs is cleared, except for
reorders. -/
theorem cleared_of_run (hcatalog : cx.catalog.Tolerates) (hstart : start.Ordered) :
    Yields (start.order.foldlM (visit? cx) { graph := start }) fun s => s.failure = none →
      ∀ id : NodeId, id.index < start.size → ∀ node, s.graph.node? id = some node →
        node.deps ≠ [] → node.isReorder = false → s.graph.Cleared cx.catalog id := by
  refine run?_done hstart (fun id s => ∀ node, s.graph.node? id = some node → node.deps ≠ [] →
    node.isReorder = false → s.graph.Cleared cx.catalog id) ?_ ?_ ?_
  · intro id s node _ hnode hwhy node' hnode' hdeps hreorder
    obtain rfl := Option.some.inj (hnode.symm.trans hnode')
    rcases hwhy with hnone | hreorder'
    · exact absurd hnone hdeps
    · rw [hreorder] at hreorder'
      exact Bool.noConfusion hreorder'
  · intro id s s' before after hid _ hvisited hfine _ _ _ _
    exact hvisited.cleared hid hcatalog hfine
  · intro id s s' hs hs' hsame hcleared node' hnode' hdeps hreorder
    obtain ⟨node, hnode, hbare⟩ := exists_of_map_eq hsame.node.symm hnode'
    refine cleared_of_unmoved hcatalog hs hs' hsame hnode hbare.symm hnode'
      (hcleared node hnode ?_ ?_)
    · rw [Node.deps_of_bare hbare]
      exact hdeps
    · rw [Node.isReorder_congr (Node.op_of_core (Node.core_of_bare hbare)), hreorder]

end Reconciliation

/-- Settling a node that has all its formats changes nothing. -/
theorem Node.SettlesTo.outputs_eq {node node' : Node} (h : node.SettlesTo node')
    (hhonours : node.Honours) (hchosen : node.Chosen) : node'.outputs = node.outputs := by
  apply List.ext_getElem?
  intro index
  cases hlayout : node.outputs[index]? with
  | some layout => exact h.chosen hhonours hlayout (hchosen layout (List.mem_of_getElem? hlayout))
  | none =>
    have hlength := congrArg List.length h.content
    simp only [List.length_map] at hlength
    rw [List.getElem?_eq_none_iff] at hlayout ⊢
    omega

theorem Layout.Fits.isChosen {layout : Layout} (h : layout.Fits) : layout.format.isChosen = true :=
  Format.isChosen_of_fits h.format

/-- A capability that construction may use supports the node, or its shapes are not known yet. -/
def Graph.Buildable (g : Graph) (id : NodeId) : Prop :=
  ∃ view, g.view? id = some view ∧
    (Builtin.catalog.isSupported view (Construction.buildMask view.node) view.shapeClass = true ∨
      view.shapeClass.isDynamic = true)

namespace Construction

variable {g settled : Graph} {id : NodeId} {node : Node}

/-- Construction may use every kind that a pin allows. -/
theorem contains_buildMask (node : Node) (kind : BackendKind)
    (h : (KindMask.ofPin node.pinned).contains kind = true) :
    (buildMask node).contains kind = true := by
  unfold buildMask
  split
  next hpinned =>
    rw [hpinned] at h
    exact h
  next => exact KindMask.contains_any kind

/-- An input with a format is read as before. -/
theorem Settles.input_eq (h : Settles g settled) (hhonours : g.Honours) {slot : Nat}
    {input input' : Input} (hinput : g.input? id slot = some input)
    (hinput' : settled.input? id slot = some input') (hfits : input.layout.Fits) :
    input'.isReal = input.isReal ∧ input'.slot = input.slot ∧ input'.layout = input.layout := by
  obtain ⟨_, hfound, hcontent, _, hchosen⟩ := h.exists_input hhonours hinput
  obtain rfl := Option.some.inj (hinput'.symm.trans hfound)
  refine ⟨?_, ?_, hchosen hfits.isChosen⟩
  · rw [Input.isReal, Input.isReal, Node.isConstant_congr (Node.op_of_content hcontent)]
  · rw [Graph.slot_of_input? hinput, Graph.slot_of_input? hinput']

/-- A node that has all its formats, and whose inputs have theirs, is shown as before. -/
theorem Settles.exists_eases (h : Settles g settled) (hg : g.WellFormed) (hhonours : g.Honours)
    (hnode : g.node? id = some node) (hchosen : node.Chosen)
    (hinputs : ∀ {slot input}, g.input? id slot = some input → input.layout.Fits) :
    ∃ v v', g.view? id = some v ∧ settled.view? id = some v' ∧ v.node = node ∧
      v'.node.pinned = node.pinned ∧ v'.node.prefers = node.prefers ∧ v.Eases v' := by
  obtain ⟨node', hnode', hsettles, _⟩ := h.nodes hnode
  obtain ⟨hop, _, hdeps, hprefers, hpinned⟩ := hsettles.kept
  obtain ⟨_, hfound, hcontent⟩ := h.content.nodes.exists_new hnode
  obtain rfl := Option.some.inj (hnode'.symm.trans hfound)
  obtain ⟨v, v', hview, hview', hv, hv', heases⟩ := Graph.exists_eases hg
    (hg.of_sameWiring h.content.wiring) hnode hnode' (Node.content_eq_iff.1 hcontent).1
    (hsettles.outputs_eq (hhonours hnode) hchosen) (congrArg List.length hdeps) (by
      intro slot input input' hinput hinput'
      obtain ⟨hreal, hslot, hlayout⟩ := h.input_eq hhonours hinput hinput' (hinputs hinput)
      refine ⟨hreal, ?_⟩
      rw [Node.shownInput_congr hprefers hop hslot hlayout]
      exact .refl _)
  refine ⟨v, v', hview, hview', hv, ?_, ?_, heases⟩
  · rw [hv', hpinned]
  · rw [hv', hprefers]

/-- What edge agreement passed can be built. -/
theorem buildable_of_cleared (h : Settles g settled) (hg : g.WellFormed) (hhonours : g.Honours)
    (hinputs : ∀ {slot input}, g.input? id slot = some input → input.layout.Fits)
    (hnode : g.node? id = some node) (hreorder : node.isReorder = false)
    (hcleared : g.Cleared Builtin.catalog id) : settled.Buildable id := by
  obtain ⟨view, hview, hsupported | ⟨hdynamic, _⟩⟩ := hcleared
  · obtain ⟨_, inputs, hfound, _, rfl⟩ := Graph.view?_eq_some_iff.1 hview
    obtain rfl := Option.some.inj (hnode.symm.trans hfound)
    obtain ⟨d, hmem, _, haccepts⟩ := Builtin.isSupported_iff.1 hsupported
    have hop : node.op ≠ .reorder := by simpa [Node.isReorder] using hreorder
    have hchosen : node.Chosen := Builtin.isChosen_of_accepts hmem hop haccepts
    obtain ⟨v, v', hview₁, hview', hv, hpinned, _, heases⟩ :=
      h.exists_eases hg hhonours hnode hchosen hinputs
    obtain rfl := Option.some.inj (hview.symm.trans hview₁)
    refine ⟨v', hview', Or.inl ?_⟩
    refine Builtin.tolerates.isSupported heases (fun kind hkind => ?_) hsupported
    refine contains_buildMask v'.node kind ?_
    rw [hpinned]
    exact hkind
  · obtain ⟨node', hnode', _⟩ := h.nodes hnode
    obtain ⟨_, _, hview'⟩ := (hg.of_sameWiring h.content.wiring).exists_view hnode'
    refine ⟨_, hview', Or.inr ?_⟩
    rw [h.content.shapeClass_eq hview hview']
    exact hdynamic

/-- A node that some backend takes can be built, as long as it is not pinned and all its formats are
there. -/
theorem buildable_of_supported (h : Settles g settled) (hg : g.WellFormed) (hhonours : g.Honours)
    (hinputs : ∀ {slot input}, g.input? id slot = some input → input.layout.Fits)
    (hnode : g.node? id = some node) (hpinned : node.pinned = none)
    (houtputs : ∀ layout ∈ node.outputs, layout.Fits)
    (hsupported : ∀ {inputs}, g.inputs? id = some inputs → Builtin.catalog.isSupported
      { graph := g, node, inputs, unpadded := false } .any
      (NodeView.shapeClass { graph := g, node, inputs, unpadded := false }) = true) :
    settled.Buildable id := by
  obtain ⟨v, v', hview, hview', _, hpinned', _, heases⟩ := h.exists_eases hg hhonours hnode
    (fun layout hmem => (houtputs layout hmem).isChosen) hinputs
  obtain ⟨_, inputs, hsame, hfound, rfl⟩ := Graph.view?_eq_some_iff.1 hview
  obtain rfl := Option.some.inj (hnode.symm.trans hsame)
  refine ⟨v', hview', Or.inl (Builtin.tolerates.isSupported heases (fun kind _ => ?_)
    (hsupported hfound))⟩
  refine contains_buildMask v'.node kind ?_
  rw [hpinned', hpinned]
  exact KindMask.contains_any kind

/-- A generated kernel builds every reorder between layouts that fit. -/
theorem buildable_of_reorder (h : Settles g settled) (hg : g.WellFormed) (hhonours : g.Honours)
    (hinputs : ∀ {slot input}, g.input? id slot = some input → input.layout.Fits)
    (hnode : g.node? id = some node) (hop : node.op = .reorder) (hpinned : node.pinned = none)
    (hprefers : ∀ slot, node.prefers.input slot = .any)
    (houtputs : ∀ layout ∈ node.outputs, layout.Fits) : settled.Buildable id := by
  refine buildable_of_supported h hg hhonours hinputs hnode hpinned houtputs
    fun {inputs} hfound => ?_
  have hmem : (node.op, Builtin.DeviceKernels.kernel node.op Layout.fitsRank) ∈
      Builtin.descriptors := hop ▸ Builtin.reorder_mem
  refine Builtin.isSupported_of_kernel hmem rfl (fun input hinput _ => ?_) fun layout hlayout => ?_
  · rw [NodeView.shown, Node.shownInput_false, hprefers]
    exact (hinputs ((Graph.mem_inputs?_iff hfound).1 hinput)).format
  · exact (houtputs layout hlayout).format

/-- When a build task finds no implementation. -/
theorem buildTask_noImplementation {catalog : Catalog} {view : NodeView} {text : String}
    {op : OpKind} {requested : KindMask} {shape : ShapeClass} {formats : String}
    (h : (buildTask catalog view).error? =
      some (.noImplementation text op requested shape formats)) :
    text = view.describe ∧ op = view.op ∧
      catalog.isSupported view (buildMask view.node) view.shapeClass = false ∧
      view.shapeClass.isDynamic = false := by
  have hcandidate := catalog.isSome_candidate? view (buildMask view.node)
  unfold buildTask Catalog.choose at h
  cases hfound : catalog.candidate? view (buildMask view.node) with
  | none =>
    rw [hfound] at h hcandidate
    cases hdynamic : view.shapeClass.isDynamic with
    | true => simp [hdynamic, TaskResult.error?] at h
    | false =>
      simp only [hdynamic, TaskResult.error?, Bool.false_eq_true, if_false, Option.some.injEq,
        PlanningError.noImplementation.injEq] at h
      exact ⟨h.1.symm, h.2.1.symm, hcandidate.symm, rfl⟩
  | some c =>
    rw [hfound] at h
    dsimp only at h
    cases hbuilt : c.build view <;> simp [hbuilt, TaskResult.error?] at h

end Construction

namespace Reconciliation

/-- Edge agreement ran from `start` to `s`, and every format fits. -/
structure Reconciled (cx : Context) (start : Graph) (s : Reconciliation) : Prop where
  ordered : start.Ordered
  run : start.order.foldlM (visit? cx) { graph := start } = some s
  sound : Sound start s
  fitted : Fitted start s
  honours : s.graph.Honours

theorem reconciled_of_fold {cx : Context} {g : Graph} (hg : g.Fresh)
    (hfit : ∀ node ∈ g.nodes, node.FormatsFit) {swept : Propagation.State}
    (hswept : g.order.foldlM (Propagation.visit? cx.catalog) { graph := g } = some swept)
    {s : Reconciliation}
    (hrun : swept.graph.order.foldlM (visit? cx) { graph := swept.graph } = some s) :
    Reconciled cx swept.graph s := by
  have hnodes : ∀ {id node}, g.node? id = some node → node.FormatsFit :=
    fun hnode => hfit _ (List.mem_of_getElem? hnode)
  obtain ⟨hsame, hfitting, hread⟩ := (Propagation.fitting_of_sweep hg hnodes).post_of_eq hswept
  have hstart := hg.toOrdered.of_sameContent hsame
  obtain ⟨_, hhonours⟩ := (Propagation.honours_of_sweep hg).post_of_eq hswept
  obtain ⟨_, hhonours'⟩ := (honours_of_run hstart hhonours).post_of_eq hrun
  obtain ⟨hsound, hfitted⟩ :=
    (fitted_of_run hstart (fitted_start (fun hnode => (hfitting hnode).1) hread)).post_of_eq hrun
  exact ⟨hstart, hrun, hsound, hfitted, hhonours'⟩

/-- With the built-in backends, an old node with inputs that is not a reorder can be built after
edge agreement, and so can every reorder that was inserted. -/
theorem Reconciled.buildable {cx : Context} (hcatalog : cx.catalog = Builtin.catalog)
    {start : Graph} {s : Reconciliation} (h : Reconciled cx start s) (hfine : s.failure = none)
    {settled : Graph} (hsettles : Construction.Settles s.graph settled) {id : NodeId}
    {node : Node} (hnode : s.graph.node? id = some node)
    (hkind : node.deps ≠ [] ∧ node.isReorder = false ∨ start.size ≤ id.index) :
    settled.Buildable id := by
  have hinputs : ∀ {slot input}, s.graph.input? id slot = some input → input.layout.Fits :=
    fun hinput => h.fitted.input h.ordered.wellFormed h.sound hinput
  by_cases hlt : id.index < start.size
  · obtain ⟨hdeps, hreorder⟩ := hkind.resolve_right (Nat.not_le.2 hlt)
    have hcleared := (cleared_of_run (hcatalog ▸ Builtin.tolerates) h.ordered).post_of_eq h.run
      hfine id hlt node hnode hdeps hreorder
    rw [hcatalog] at hcleared
    exact Construction.buildable_of_cleared hsettles h.sound.wellFormed h.honours hinputs hnode
      hreorder hcleared
  · have hle := Nat.not_lt.1 hlt
    have hinserted := h.sound.inserted hnode hle
    refine Construction.buildable_of_reorder hsettles h.sound.wellFormed h.honours hinputs hnode
      hinserted.op_eq hinserted.pinned (fun slot => ?_) (h.fitted.new hle hnode).1
    rw [hinserted.prefers]
    rfl

end Reconciliation

/-- Descriptions of nodes tell them apart: they start with the id. -/
theorem Graph.describe_injective {g : Graph} {a b : NodeId} {nodeA nodeB : Node}
    (ha : g.node? a = some nodeA) (hb : g.node? b = some nodeB)
    (h : g.describe a = g.describe b) : a = b := by
  have hlist : ∀ {id node}, g.node? id = some node → (g.describe id).toList =
      '#' :: (Nat.toDigits 10 id.index ++ ' ' :: '(' :: (node.name.toList ++ [')'])) := by
    intro id node hnode
    simp only [Graph.describe, hnode, toString, NodeId.text]
    simp
  have hdigits : ∀ {id node}, g.node? id = some node →
      (g.describe id).toList.tail.takeWhile Char.isDigit = Nat.toDigits 10 id.index := by
    intro id node hnode
    rw [hlist hnode, List.tail_cons, List.takeWhile_append_of_pos]
    · simp
    · exact fun c hc => Nat.isDigit_of_mem_toDigits (by decide) (by decide) hc
  have hsame : Nat.toDigits 10 a.index = Nat.toDigits 10 b.index := by
    rw [← hdigits ha, ← hdigits hb, h]
  have hindex := congrArg (fun digits => Nat.ofDigitChars 10 digits 0) hsame
  simp only [Nat.ofDigitChars_ten_toDigits] at hindex
  cases a
  cases b
  exact congrArg NodeId.mk hindex

/-- A description does not depend on the formats and the wiring. -/
theorem Graph.describe_congr {g g' : Graph} {id : NodeId} {node node' : Node}
    (hnode : g.node? id = some node) (hnode' : g'.node? id = some node')
    (hname : node'.name = node.name) : g'.describe id = g.describe id := by
  simp only [describe, hnode, hnode', hname]

/-- What edge agreement declares legal can be built.  If construction finds no implementation for a
node, then this is a node of the old graph, and it has no inputs or is a reorder. -/
theorem noImplementation_of_construction {decls : List NodeDecl} {g : Graph}
    (hbuild : Graph.build? decls = some (.ok g)) (hfit : ∀ node ∈ g.nodes, node.FormatsFit)
    {cx : Context} (hcatalog : cx.catalog = Builtin.catalog) {swept agreed : Outcome}
    (hswept : Propagation.run? cx g = some swept)
    (hagreed : Reconciliation.run? cx swept.graph = some agreed) {report : Report}
    (hok : agreed.result = .ok report) :
    ∃ out, Construction.run? cx agreed.graph = some out ∧
      ∀ text op requested shape formats,
        out.result = .error (.noImplementation text op requested shape formats) →
        ∃ id node, g.node? id = some node ∧ op = node.op ∧
          (node.deps = [] ∨ node.isReorder = true) ∧
          ∀ other, other.index < out.graph.size →
            (out.graph.describe other = text ↔ other = id) := by
  have hfresh := Graph.fresh_of_build hbuild
  obtain ⟨_, s₁, hfold₁, hgraph₁, hsame⟩ :=
    (Propagation.run?_spec cx hfresh.toOrdered).post_of_eq hswept
  rw [hgraph₁] at hagreed
  obtain ⟨s₂, hfold₂, hsound, hgraph₂, herror⟩ :=
    (Reconciliation.run?_spec cx (hfresh.toOrdered.of_sameContent hsame)).post_of_eq hagreed
  have hfine : s₂.failure = none := herror ▸ Outcome.error?_eq_none_iff.2 ⟨report, hok⟩
  have hreconciled := Reconciliation.reconciled_of_fold hfresh hfit hfold₁ hfold₂
  rw [hgraph₂]
  obtain ⟨out, hout, settled, hdone⟩ :=
    Construction.run?_spec cx hsound.wellFormed hsound.listed
  refine ⟨out, hout, fun text op requested shape formats hresult => ?_⟩
  obtain ⟨error, id, view, hresult', hview, hneeds, htask⟩ | ⟨_, hresult'⟩ := hdone.ending
  swap
  · rw [hresult'] at hresult
    cases hresult
  rw [hresult'] at hresult
  cases hresult
  obtain ⟨htext, hop, hunsupported, hstatic⟩ := Construction.buildTask_noImplementation htask
  obtain ⟨node₃, inputs, hnode₃, _, rfl⟩ := Graph.view?_eq_some_iff.1 hview
  obtain ⟨node₂, hnode₂, hcontent₃⟩ := hdone.settles.content.nodes.exists_old hnode₃
  have hbuildable : ¬ settled.Buildable id := by
    rintro ⟨view, hview', hverdict⟩
    obtain rfl := Option.some.inj (hview.symm.trans hview')
    rw [← hcatalog, hunsupported, hstatic] at hverdict
    simp at hverdict
  have hkind : ¬ (node₂.deps ≠ [] ∧ node₂.isReorder = false ∨ s₁.graph.size ≤ id.index) :=
    fun h => hbuildable (hreconciled.buildable hcatalog hfine hdone.settles hnode₂ h)
  rw [not_or, not_and_or, not_not, Bool.not_eq_false, Nat.not_le] at hkind
  have hcontracts := hsound.contracts.of_sameContent hsame (.refl _)
  obtain ⟨node, hnode⟩ := Graph.exists_node (hsame.nodes.size_eq ▸ hkind.2)
  obtain ⟨_, hfound, _, hop₂, _, _, _, hlength, _⟩ := hcontracts.kept hnode
  obtain rfl := Option.some.inj (hnode₂.symm.trans hfound)
  refine ⟨id, node, hnode, ?_, ?_, fun other hother => ?_⟩
  · rw [hop, ← hop₂, ← Node.op_of_content hcontent₃]
    rfl
  · rw [← List.length_eq_zero_iff, ← hlength, List.length_eq_zero_iff, ← Node.isReorder_congr hop₂]
    exact hkind.1
  · obtain ⟨node', hnode', hcontent'⟩ := hdone.installs.content.nodes.exists_new hnode₃
    have hname := Node.name_of_meaning (Node.content_eq_iff.1 hcontent').1
    obtain ⟨_, hnode''⟩ := Graph.exists_node hother
    have hdescribe : out.graph.describe id = text := by
      have hid := (hsound.wellFormed.of_sameWiring hdone.settles.content.wiring).id_eq hnode₃
      rw [htext, Graph.describe_congr hnode₃ hnode' hname, NodeView.describe, NodeView.id, hid]
    constructor
    · intro h
      exact Graph.describe_injective hnode'' hnode' (h.trans hdescribe.symm)
    · rintro rfl
      exact hdescribe

/-- A convolution of bytes, next to a node without inputs in a format that only vendor routines
know. -/
def blockedNoise : List NodeDecl :=
  byteConvolution ++
    [{ name := "noise", op := .activation,
       outputs := [⟨.ofExtents [1, 16, 8, 8], .si8, .bFsYxFsv32, {}⟩] }]

/-- Edge agreement inserts a reorder and ends well, and then construction finds no implementation
for the noise. -/
theorem noImplementation_blockedNoise : ∃ g swept agreed report,
    Graph.build? blockedNoise = some (.ok g) ∧ (∀ node ∈ g.nodes, node.FormatsFit) ∧
    Propagation.run? { catalog := Builtin.catalog } g = some swept ∧
    Reconciliation.run? { catalog := Builtin.catalog } swept.graph = some agreed ∧
    agreed.result = .ok report ∧ agreed.graph.size = 4 ∧
    (Construction.run? { catalog := Builtin.catalog } agreed.graph).map (·.error?.isSome) =
      some true ∧
    ∃ out, Construction.run? { catalog := Builtin.catalog } agreed.graph = some out ∧
      ∀ text op requested shape formats,
        out.result = .error (.noImplementation text op requested shape formats) →
        ∃ id node, g.node? id = some node ∧ op = node.op ∧
          (node.deps = [] ∨ node.isReorder = true) ∧
          ∀ other, other.index < out.graph.size → (out.graph.describe other = text ↔ other = id) :=
  ⟨_, _, _, _, rfl, by decide, rfl, rfl, rfl, rfl, rfl,
    @noImplementation_of_construction blockedNoise _ rfl (by decide)
      { catalog := Builtin.catalog } rfl _ _ rfl rfl _ rfl⟩

end LayoutPlanner
