import LayoutPlanner.Proofs.AlignedGraphs
import LayoutPlanner.Proofs.Exhibits
import LayoutPlanner.Proofs.StaleReaders

/-!
# Nodes at rest

A node of a finished graph is at rest if a visit finds nothing to do about it.

* `Graph.Rests` says so of a node and its inputs, one field for each step of a visit that may find
  something.  The last three steps are not among them: an aligned graph leaves nothing for them.
* Whether a node idles does not depend on bookkeeping (`Idles.of_tidied`).  Whether it is settled
  does, so that field of `Graph.Rests` speaks of the producers too.
-/

namespace LayoutPlanner

namespace Graph

/-- A visit would try other formats for the node. -/
def Searches (g : Graph) (catalog : Catalog) (id : NodeId) : Prop :=
  ∃ view output, g.view? id = some view ∧ view.node.HasTurn ∧
    view.node.outputs[0]? = some output ∧
    catalog.isSupported view (.ofPin view.node.pinned) view.shapeClass = false ∧
    view.inputFormats output.rank ≠ []

/-- No format of an input makes the node legal, if it is not legal as it is. -/
def Exhausted (g : Graph) (catalog : Catalog) (id : NodeId) : Prop :=
  ∀ view output format g', g.view? id = some view → view.node.outputs[0]? = some output →
    catalog.isSupported view (.ofPin view.node.pinned) view.shapeClass = false →
    format ∈ view.inputFormats output.rank → g.adoptFormat? id format = some g' →
    ¬g'.Legal catalog id

/-- The repairs demand nothing, and the search for a legal layout finds nothing new. -/
structure Idles (g : Graph) (cx : Context) (id : NodeId) (node : Node) : Prop where
  state : ∀ input, g.input? id 0 = some input → Repair.stateType node input = none
  operands : cx.config.optimizeLayout = true → ∀ output slot input,
    node.outputs[0]? = some output → slot ∈ Reconciliation.operandSlots node →
    g.input? id slot = some input → Repair.fusedConstant output node input = none
  padding : node.op = .normalization → ∀ output slot input, node.outputs[0]? = some output →
    g.input? id slot = some input → input.isReal →
    Repair.normalizationPadding output node input = none
  formats : g.Exhausted cx.catalog id

/-- The node is settled and stays so, and it idles.  A node with an open format is settled as long
as it is not stale; a search in vain at a producer makes it so. -/
structure Rests (g : Graph) (cx : Context) (id : NodeId) (node : Node) : Prop
    extends g.Idles cx id node where
  settled : node.Chosen ∨ node.layoutValid = true ∧
    ∀ producer, g.Reads id producer → ¬g.Searches cx.catalog producer

theorem Searches.hasTurn {catalog : Catalog} {g : Graph} {id : NodeId} {node : Node}
    (h : g.Searches catalog id) (hnode : g.node? id = some node) : node.HasTurn := by
  obtain ⟨view, _, hview, hturn, _⟩ := h
  obtain ⟨_, _, hfound, _, rfl⟩ := view?_eq_some_iff.1 hview
  obtain rfl := Option.some.inj (hnode.symm.trans hfound)
  exact hturn

section

variable {catalog : Catalog} {g : Graph} {id : NodeId} {view : NodeView} {output : Layout}
  (hview : g.view? id = some view)

include hview

theorem exhausted_of_isSupported
    (h : catalog.isSupported view (.ofPin view.node.pinned) view.shapeClass = true) :
    g.Exhausted catalog id := by
  intro found _ _ _ hfound _ hrefused
  obtain rfl := Option.some.inj (hview.symm.trans hfound)
  simp [h] at hrefused

theorem not_searches_of_isSupported
    (h : catalog.isSupported view (.ofPin view.node.pinned) view.shapeClass = true) :
    ¬g.Searches catalog id := by
  rintro ⟨found, _, hfound, _, _, hrefused, _⟩
  obtain rfl := Option.some.inj (hview.symm.trans hfound)
  simp [h] at hrefused

variable (houtput : view.node.outputs[0]? = some output)
  (hrefused : catalog.isSupported view (.ofPin view.node.pinned) view.shapeClass = false)

include houtput hrefused

theorem exhausted_iff : g.Exhausted catalog id ↔ ∀ format ∈ view.inputFormats output.rank,
    ∀ g', g.adoptFormat? id format = some g' → ¬g'.Legal catalog id := by
  refine ⟨fun h format hformat g' => h view output format g' hview houtput hrefused hformat, ?_⟩
  intro h found output' format g' hfound houtput' _ hformat
  obtain rfl := Option.some.inj (hview.symm.trans hfound)
  obtain rfl := Option.some.inj (houtput.symm.trans houtput')
  exact h format hformat g'

theorem searches_iff (hturn : view.node.HasTurn) :
    g.Searches catalog id ↔ view.inputFormats output.rank ≠ [] := by
  refine ⟨?_, fun hformats => ⟨view, output, hview, hturn, houtput, hrefused, hformats⟩⟩
  rintro ⟨found, output', hfound, _, houtput', _, hformats⟩
  obtain rfl := Option.some.inj (hview.symm.trans hfound)
  obtain rfl := Option.some.inj (houtput.symm.trans houtput')
  exact hformats

end

/-! ## What bookkeeping does not change -/

theorem Tidied.symm {g g' : Graph} (h : Tidied g g') : Tidied g' g :=
  ⟨h.content.symm, h.bare.symm⟩

variable {catalog : Catalog} {g g' : Graph} {id : NodeId} {node node' : Node}

/-- The same edges to producers with the same faces make the same inputs. -/
theorem exists_input_of_face (hface : Same Node.face g g') (hnode : g.node? id = some node)
    (hnode' : g'.node? id = some node') (hdeps : node'.deps = node.deps) {slot : Nat}
    {input' : Input} (hinput' : g'.input? id slot = some input') :
    ∃ input, g.input? id slot = some input ∧ input'.face = input.face ∧
      input'.layout = input.layout := by
  have hdep : node'.deps[slot]? = node.deps[slot]? := by rw [hdeps]
  obtain ⟨input, hinput, himage⟩ :=
    exists_of_map_eq (input?_face_eq hnode hnode' hdep fun edge _ => hface edge.node).symm hinput'
  exact ⟨input, hinput, himage.symm, Input.layout_of_face hinput' hinput himage.symm⟩

/-- An input is seen in the same way if the node wants the same of it. -/
theorem seen_congr {input input' : Input} (hop : node'.op = node.op)
    (hprefers : node'.prefers.input input.slot = node.prefers.input input.slot)
    (htypes : node'.prefers.inputTypes = node.prefers.inputTypes) (hface : input'.face = input.face)
    (hlayout : input'.layout = input.layout) : node'.seen input' = node.seen input := by
  have hslot : input'.slot = input.slot := congrArg (·.1) hface
  simp only [Node.seen, Node.shownInput_false, Node.wantedType, FormatPreference.inputType,
    Input.isReal_of_face hface, hop, hslot, hprefers, htypes, hlayout]

/-- A node that looks the same, and sees its inputs in the same way, is supported as before. -/
theorem Supports.of_seen (hcatalog : catalog.Tolerates) (hg : g.WellFormed) (hg' : g'.WellFormed)
    (hnode : g.node? id = some node) (hnode' : g'.node? id = some node')
    (hmeaning : node'.meaning = node.meaning) (houtputs : node'.outputs = node.outputs)
    (hlength : node'.deps.length = node.deps.length)
    (hseen : ∀ {slot input input'}, g.input? id slot = some input →
      g'.input? id slot = some input' → node'.seen input' = node.seen input)
    {mask : KindMask} (h : g.Supports catalog id mask) : g'.Supports catalog id mask := by
  obtain ⟨v, v', hview, hview', _, _, heases⟩ := exists_eases hg hg' hnode hnode' hmeaning houtputs
    hlength fun hinput hinput' => by
      obtain ⟨hreal, hshown⟩ := Prod.mk.inj (hseen hinput hinput')
      rw [hshown]
      exact ⟨hreal, .refl _⟩
  obtain ⟨_, hfound, hsupported⟩ := h
  obtain rfl := Option.some.inj (hview.symm.trans hfound)
  exact ⟨v', hview', hcatalog.isSupported heases (fun _ hkind => hkind) hsupported⟩

theorem Tidied.face (h : Tidied g g') : Same Node.face g g' :=
  h.bare.coarsen fun _ _ => Node.face_of_bare

theorem Tidied.exists_input (h : Tidied g g') {slot : Nat} {input' : Input}
    (hinput' : g'.input? id slot = some input') : ∃ input, g.input? id slot = some input ∧
      input'.face = input.face ∧ input'.layout = input.layout := by
  obtain ⟨node', hnode', _⟩ := input?_eq_some_iff.1 hinput'
  obtain ⟨node, hnode, hbare⟩ := h.bare.exists_old hnode'
  exact exists_input_of_face h.face hnode hnode' (Node.deps_of_bare hbare) hinput'

theorem Tidied.supports (hcatalog : catalog.Tolerates) (hg : g.WellFormed) (h : Tidied g g')
    {mask : KindMask} (hsupports : g.Supports catalog id mask) : g'.Supports catalog id mask := by
  have ⟨_, hview, _⟩ := hsupports
  obtain ⟨node, _, hnode, _⟩ := view?_eq_some_iff.1 hview
  obtain ⟨node', hnode', hbare⟩ := h.bare.exists_new hnode
  refine hsupports.of_seen hcatalog hg (hg.of_sameWiring h.content.wiring) hnode hnode'
    (Node.meaning_of_bare hbare) (Node.outputs_of_bare hbare) (by rw [Node.deps_of_bare hbare]) ?_
  intro slot input input' hinput hinput'
  obtain ⟨_, hfound, hface, hlayout⟩ := h.exists_input hinput'
  obtain rfl := Option.some.inj (hinput.symm.trans hfound)
  have hprefers := Node.prefers_of_bare hbare
  exact seen_congr (Node.op_of_meaning (Node.meaning_of_bare hbare)) (by rw [hprefers])
    (by rw [hprefers]) hface hlayout

/-- Running the node in a format comes to the same. -/
theorem Adopts.supports (hcatalog : catalog.Tolerates) {k k' : Graph} (hg : g.WellFormed)
    (h : Tidied g k) {format : Format} (hadopts : Adopts id format g g')
    (hadopts' : Adopts id format k k') {mask : KindMask} (hsupports : g'.Supports catalog id mask) :
    k'.Supports catalog id mask := by
  have hk := hg.of_sameWiring h.content.wiring
  have hg' := hadopts.edit.wellFormed hg
  have hk' := hadopts'.edit.wellFormed hk
  have hcontent := (hadopts.edit.content.symm.trans h.content).trans hadopts'.edit.content
  have ⟨_, hview, _⟩ := hsupports
  obtain ⟨node₁, _, hnode₁, _⟩ := view?_eq_some_iff.1 hview
  obtain ⟨node, hnode, _⟩ := hadopts.edit.content.nodes.exists_old hnode₁
  obtain ⟨_, hfound, hnode_adopts⟩ := hadopts.node hnode
  obtain rfl := Option.some.inj (hnode₁.symm.trans hfound)
  obtain ⟨nodeK, hnodeK, hbare⟩ := h.bare.exists_new hnode
  obtain ⟨nodeK₁, hnodeK₁, hnodeK_adopts⟩ := hadopts'.node hnodeK
  obtain ⟨_, hfound', hcontent₁⟩ := hcontent.nodes.exists_new hnode₁
  obtain rfl := Option.some.inj (hnodeK₁.symm.trans hfound')
  obtain ⟨hmeaning, hdeps, _⟩ := Node.content_eq_iff.1 hcontent₁
  have houtputs : nodeK₁.outputs = node₁.outputs := by
    rw [hnodeK_adopts.outputs, hnode_adopts.outputs, Node.outputs_of_bare hbare]
  have hface : Same Node.face g' k' := by
    intro other
    by_cases hne : other = id
    · subst hne
      rw [hnode₁, hnodeK₁, Option.map_some, Option.map_some, Node.face, Node.face,
        Node.id_of_meaning hmeaning, Node.op_of_meaning hmeaning, Node.attrs_of_meaning hmeaning,
        houtputs]
    · rw [hadopts'.edit.face_eq hne, h.face other, hadopts.edit.face_eq hne]
  have hprefers : ∀ slot, nodeK₁.prefers.input slot = node₁.prefers.input slot := by
    intro slot
    have hiff : k.Accepts id format slot ↔ g.Accepts id format slot := accepts_iff h.content
    by_cases haccepts : g.Accepts id format slot
    · rw [hnodeK_adopts.input_of_accepts (hiff.2 haccepts), hnode_adopts.input_of_accepts haccepts]
    · rw [hnodeK_adopts.input_of_not (mt hiff.1 haccepts), hnode_adopts.input_of_not haccepts,
        Node.prefers_of_bare hbare]
  refine hsupports.of_seen hcatalog hg' hk' hnode₁ hnodeK₁ hmeaning houtputs (by rw [hdeps]) ?_
  intro slot input input' hinput hinput'
  obtain ⟨_, hfound, hface, hlayout⟩ := exists_input_of_face hface hnode₁ hnodeK₁ hdeps hinput'
  obtain rfl := Option.some.inj (hinput.symm.trans hfound)
  refine seen_congr (Node.op_of_meaning hmeaning) (hprefers _) ?_ hface hlayout
  rw [hnodeK_adopts.inputTypes, hnode_adopts.inputTypes, Node.prefers_of_bare hbare]

/-- The views have the same node, except for bookkeeping, and offer the same formats. -/
theorem Tidied.exists_view (hg : g.WellFormed) (h : Tidied g g') {v : NodeView}
    (hview : g.view? id = some v) : ∃ v', g'.view? id = some v' ∧ v'.node.bare = v.node.bare ∧
      ∀ rank, v'.inputFormats rank = v.inputFormats rank := by
  obtain ⟨node, inputs, hnode, hinputs, rfl⟩ := view?_eq_some_iff.1 hview
  obtain ⟨node', hnode', hbare⟩ := h.bare.exists_new hnode
  obtain ⟨inputs', hinputs', hview'⟩ := (hg.of_sameWiring h.content.wiring).exists_view hnode'
  refine ⟨_, hview', hbare, fun rank => ?_⟩
  have hsame : inputs'.map (fun input => (input.isReal, input.layout)) =
      inputs.map fun input => (input.isReal, input.layout) := by
    apply List.ext_getElem?
    intro slot
    rw [List.getElem?_map, List.getElem?_map, getElem?_of_inputs? hinputs,
      getElem?_of_inputs? hinputs']
    cases hinput' : g'.input? id slot with
    | none =>
      cases hinput : g.input? id slot with
      | none => rfl
      | some input =>
        obtain ⟨_, hfound, _⟩ := h.symm.exists_input hinput
        rw [hinput'] at hfound
        cases hfound
    | some input' =>
      obtain ⟨input, hinput, hface, hlayout⟩ := h.exists_input hinput'
      rw [hinput, Option.map_some, Option.map_some, Input.isReal_of_face hface, hlayout]
  have hformats (items : List Input) : (items.filter Input.isReal).map (·.layout.format) =
      ((items.map fun input => (input.isReal, input.layout)).filter (·.1)).map (·.2.format) := by
    rw [List.filter_map, List.map_map]
    rfl
  simp only [NodeView.inputFormats, NodeView.realInputs, hformats, hsame]

theorem supports_iff_of_view {v : NodeView} (hview : g.view? id = some v) {mask : KindMask} :
    g.Supports catalog id mask ↔ catalog.isSupported v mask v.shapeClass = true := by
  simp [Supports, hview]

theorem Tidied.isSupported_eq (hcatalog : catalog.Tolerates) (hg : g.WellFormed)
    (h : Tidied g g') {v v' : NodeView} (hview : g.view? id = some v)
    (hview' : g'.view? id = some v') (mask : KindMask) :
    catalog.isSupported v' mask v'.shapeClass = catalog.isSupported v mask v.shapeClass := by
  rw [Bool.eq_iff_iff, ← supports_iff_of_view hview, ← supports_iff_of_view hview']
  exact ⟨h.symm.supports hcatalog (hg.of_sameWiring h.content.wiring), h.supports hcatalog hg⟩

theorem Cleared.of_tidied (hcatalog : catalog.Tolerates) (hg : g.WellFormed) (h : Tidied g g')
    (hcleared : g.Cleared catalog id) : g'.Cleared catalog id := by
  obtain ⟨v, hview, hverdict⟩ := hcleared
  obtain ⟨v', hview', hbare, _⟩ := h.exists_view hg hview
  refine ⟨v', hview', ?_⟩
  rw [h.isSupported_eq hcatalog hg hview hview', Node.pinned_of_bare hbare,
    h.content.shapeClass_eq hview hview', h.content.op_eq hview hview']
  exact hverdict

theorem Searches.of_tidied (hcatalog : catalog.Tolerates) (hg : g.WellFormed) (h : Tidied g g')
    (hsearches : g.Searches catalog id) : g'.Searches catalog id := by
  obtain ⟨v, output, hview, hturn, houtput, hrefused, hformats⟩ := hsearches
  obtain ⟨v', hview', hbare, hsame⟩ := h.exists_view hg hview
  refine ⟨v', output, hview', hturn.of_bare hbare, ?_, ?_, ?_⟩
  · rw [Node.outputs_of_bare hbare, houtput]
  · rw [h.isSupported_eq hcatalog hg hview hview', Node.pinned_of_bare hbare, hrefused]
  · rw [hsame]
    exact hformats

theorem Exhausted.of_tidied (hcatalog : catalog.Tolerates) (hg : g.WellFormed) (h : Tidied g g')
    (hexhausted : g.Exhausted catalog id) : g'.Exhausted catalog id := by
  intro v' output format k' hview' houtput hrefused hformat hk' hlegal
  have hg' := hg.of_sameWiring h.content.wiring
  obtain ⟨v, hview, hbare, hsame⟩ := h.symm.exists_view hg' hview'
  obtain ⟨node, _, hnode, _, rfl⟩ := view?_eq_some_iff.1 hview
  obtain ⟨node', _, hnode', _, rfl⟩ := view?_eq_some_iff.1 hview'
  have hadopts' := (adoptFormat?_spec hg' hnode' format).post_of_eq hk'
  obtain ⟨k, hk, hadopts⟩ := adoptFormat?_spec hg hnode format
  refine hexhausted _ output format k hview ?_ ?_ ?_ hk ?_
  · rw [Node.outputs_of_bare hbare, houtput]
  · rw [h.symm.isSupported_eq hcatalog hg' hview' hview, Node.pinned_of_bare hbare, hrefused]
  · rw [hsame]
    exact hformat
  · rw [hadopts'.legal_iff hnode'] at hlegal
    rw [hadopts.legal_iff hnode, Node.pinned_of_bare hbare]
    exact hadopts'.supports hcatalog hg' h.symm hadopts hlegal

theorem Idles.of_tidied {cx : Context} (hcatalog : cx.catalog.Tolerates) (hg : g.WellFormed)
    (h : Tidied g g') (hbare : node'.bare = node.bare) (hidles : g.Idles cx id node) :
    g'.Idles cx id node' := by
  have hcore := Node.core_of_bare hbare
  have houtputs := Node.outputs_of_bare hbare
  refine ⟨fun input' hinput' => ?_, fun hoptimize output slot input' houtput hslot hinput' => ?_,
    fun hop output slot input' houtput hinput' hreal => ?_,
    hidles.formats.of_tidied hcatalog hg h⟩
  all_goals obtain ⟨input, hinput, hface, hlayout⟩ := h.exists_input hinput'
  · rw [← hidles.state input hinput]
    exact @Repair.Lawful.congr _ Repair.lawful_stateType { graph := g } { graph := g } _ _ _ _ hcore
      hface hlayout rfl
  · have hslot : slot ∈ Reconciliation.operandSlots node := by
      simp only [Reconciliation.operandSlots, Node.deps_of_bare hbare,
        Node.fused_of_meaning (Node.meaning_of_bare hbare)] at hslot
      exact hslot
    rw [← hidles.operands hoptimize output slot input (houtputs ▸ houtput) hslot hinput]
    exact @Repair.Lawful.congr _ (Repair.lawful_fusedConstant output) { graph := g } { graph := g }
      _ _ _ _ hcore hface hlayout rfl
  · rw [← hidles.padding (Node.op_of_core hcore ▸ hop) output slot input (houtputs ▸ houtput) hinput
      (Input.isReal_of_face hface ▸ hreal)]
    exact @Repair.Lawful.congr _ (Repair.lawful_normalizationPadding output) { graph := g }
      { graph := g } _ _ _ _ hcore hface hlayout rfl

end Graph

end LayoutPlanner
