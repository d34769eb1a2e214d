import LayoutPlanner.Planning.LegalLayout
import LayoutPlanner.Proofs.Conversions

/-!
# The search for a legal layout

A trial puts all outputs of a node into one format and prefers it on the inputs of the same class
(`Graph.Adopts`).  A trial that fails is taken back, so the search ends in one of two ways: nothing
but caches changed and every format was refused, or one format was adopted and is supported
(`search?_spec`).  `legalize?_spec` lists what can become of a node.
-/

namespace LayoutPlanner

theorem Format.defaultFor_ne_any (rank : Nat) : Format.defaultFor rank ≠ .any := by
  unfold defaultFor
  split <;> simp

theorem Format.adaptTo_ne_any (format : Format) (rank : Nat) : format.adaptTo rank ≠ .any := by
  unfold adaptTo
  split
  next hfits =>
    rintro rfl
    simp [fits, axes?] at hfits
  next => exact defaultFor_ne_any rank

/-- Up to rank six, the formats to fall back to fit. -/
theorem Format.fits_of_mem_fallbacksFor {format : Format} {rank : Nat} (hrank : rank ≤ 6)
    (h : format ∈ Format.fallbacksFor rank) : format.fits rank = true := by
  have hcases : axesOfRank rank = 4 ∨ axesOfRank rank = 5 ∨ axesOfRank rank = 6 := by
    unfold axesOfRank
    omega
  unfold fallbacksFor at h
  unfold fits
  rcases hcases with haxes | haxes | haxes <;> rw [haxes] at h ⊢ <;> revert format <;> decide

/-- The formats of the inputs are tried if they fit. -/
theorem NodeView.fits_of_mem_inputFormats {view : NodeView} {rank : Nat} {format : Format}
    (h : format ∈ view.inputFormats rank) : format.fits rank = true := by
  revert format
  refine List.foldlRecOn (motive := fun found : List Format => ∀ {format}, format ∈ found →
    format.fits rank = true) _ _ (fun h => absurd h List.not_mem_nil) ?_
  intro found hfound next hnext format hformat
  split at hformat
  · exact hfound hformat
  · rcases List.mem_append.1 hformat with hold | hnew
    · exact hfound hold
    · rw [List.mem_singleton.1 hnew]
      exact (List.mem_filter.1 hnext).2

/-- A trial that is taken back leaves the formats to save. -/
theorem FormatSnapshot.ofNode_of_bare {node node' : Node} (h : node'.bare = node.bare) :
    FormatSnapshot.ofNode node = .ofNode node' := by
  simp only [FormatSnapshot.ofNode, Node.outputs_of_bare h, Node.prefers_of_bare h]

namespace Node

/-- `node'` is `node` with all outputs in a format, which is preferred on the slots given. -/
structure Adopts (format : Format) (accepts : Nat → Prop) (node node' : Node) : Prop where
  rest : { node' with outputs := node.outputs, prefers := node.prefers }.bare = node.bare
  outputs : node'.outputs = node.outputs.map fun layout =>
    layout.withFormat (format.adaptTo layout.rank)
  output : ∀ index, node'.prefers.output index =
    (node.outputs[index]?.map fun layout => format.adaptTo layout.rank).getD
      (node.prefers.output index)
  input_of_accepts : ∀ {slot}, accepts slot → node'.prefers.input slot = format
  input_of_not : ∀ {slot}, ¬accepts slot → node'.prefers.input slot = node.prefers.input slot
  inputTypes : node'.prefers.inputTypes = node.prefers.inputTypes

theorem Adopts.honours {format : Format} {accepts : Nat → Prop} {node node' : Node}
    (h : Adopts format accepts node node') : node'.Honours := by
  intro index layout hlayout _
  rw [h.outputs, List.getElem?_map] at hlayout
  obtain ⟨current, hcurrent, rfl⟩ := Option.map_eq_some_iff.1 hlayout
  simp [h.output, hcurrent, Layout.withFormat]

end Node

namespace Graph

/-- The real slots of a node whose rank a format fits. -/
def Accepts (g : Graph) (id : NodeId) (format : Format) (slot : Nat) : Prop :=
  ∃ input, g.input? id slot = some input ∧ input.isReal ∧ format.fits input.layout.rank

/-- `g'` is `g` with the node in a format. -/
structure Adopts (id : NodeId) (format : Format) (g g' : Graph) : Prop where
  edit : LocalEdit id g g'
  node : ∀ {node}, g.node? id = some node → ∃ node', g'.node? id = some node' ∧
    node.Adopts format (g.Accepts id format) node'

/-! ## One trial -/

/-- The outputs below `done` have been put into the format. -/
structure Forced (format : Format) (done : Nat) (node node' : Node) : Prop where
  rest : { node' with outputs := node.outputs, prefers := node.prefers }.bare = node.bare
  outputs : ∀ index : Nat, node'.outputs[index]? = node.outputs[index]?.map fun layout =>
    if index < done then layout.withFormat (format.adaptTo layout.rank) else layout
  output : ∀ index, node'.prefers.output index = if index < done then
    (node.outputs[index]?.map fun layout => format.adaptTo layout.rank).getD
      (node.prefers.output index) else node.prefers.output index
  input : ∀ slot, node'.prefers.input slot = node.prefers.input slot
  inputTypes : node'.prefers.inputTypes = node.prefers.inputTypes

theorem Forced.adopts {format : Format} {node node' : Node}
    (h : Forced format node.outputs.length node node') :
    node.Adopts format (fun _ => False) node' where
  rest := h.rest
  outputs := by
    apply List.ext_getElem?
    intro index
    rw [h.outputs index, List.getElem?_map]
    cases hget : node.outputs[index]? with
    | none => rfl
    | some layout => simp [(List.getElem?_eq_some_iff.1 hget).1]
  output index := by
    rw [h.output index]
    split
    next => rfl
    next hlt => rw [List.getElem?_eq_none (Nat.not_lt.1 hlt)]; rfl
  input_of_accepts := False.elim
  input_of_not _ := h.input _
  inputTypes := h.inputTypes

theorem forceOutputs?_spec {g : Graph} (hg : g.WellFormed) {id : NodeId} {node : Node}
    (hnode : g.node? id = some node) (format : Format) :
    Yields (g.forceOutputs? id format) fun g' => LocalEdit id g g' ∧ ∃ node',
      g'.node? id = some node' ∧ node.Adopts format (fun _ => False) node' := by
  refine Yields.bind_eq hnode ?_
  refine (Yields.foldlM_range (fun done (g' : Graph) => LocalEdit id g g' ∧ ∃ node',
    g'.node? id = some node' ∧ Forced format done node node') ?_ ?_).mono ?_
  · exact ⟨.refl id g, node, hnode, rfl, fun index => by simp, fun index => by simp,
      fun _ => rfl, rfl⟩
  · rintro index g₁ hlt ⟨hedit₁, node₁, hnode₁, hforced⟩
    have hget : node.outputs[index]? = some node.outputs[index] := List.getElem?_eq_getElem hlt
    have hlayout : node₁.outputs[index]? = some node.outputs[index] := by
      rw [hforced.outputs, hget]
      simp
    refine Yields.bind_eq hnode₁ (Yields.bind_eq hlayout ?_)
    refine (forceOutput?_spec (hedit₁.wellFormed hg) hnode₁ hlayout _).mono ?_
    rintro g₂ ⟨hedit₂, node₂, hnode₂, hbare⟩
    refine ⟨hedit₁.trans hedit₂, node₂, hnode₂, ?_, fun other => ?_, fun other => ?_,
      fun other => ?_, ?_⟩
    · have heq := congrArg (fun node' : Node =>
        { node' with outputs := node.outputs, prefers := node.prefers }) hbare
      exact Eq.trans heq hforced.rest
    · rw [Node.outputs_of_bare hbare, List.getElem?_set]
      split
      next heq =>
        subst heq
        have hlt₁ := (List.getElem?_eq_some_iff.1 hlayout).1
        simp [hlt₁, hget]
      next hne =>
        have hiff : other < index + 1 ↔ other < index := by omega
        rw [hforced.outputs other]
        simp only [hiff]
    · rw [Node.prefers_of_bare hbare, FormatPreference.output_setOutput]
      split
      next heq =>
        subst heq
        simp [hget]
      next hne =>
        have hiff : other < index + 1 ↔ other < index := by omega
        rw [hforced.output other]
        simp only [hiff]
    · rw [Node.prefers_of_bare hbare, FormatPreference.input_setOutput, hforced.input]
    · rw [Node.prefers_of_bare hbare]
      exact hforced.inputTypes
  · rintro g' ⟨hedit, node', hnode', hforced⟩
    exact ⟨hedit, node', hnode', hforced.adopts⟩

/-- Which slots accept a format does not depend on formats. -/
theorem accepts_iff {g g' : Graph} (h : SameContent g g') {id : NodeId} {format : Format}
    {slot : Nat} : g'.Accepts id format slot ↔ g.Accepts id format slot := by
  have himp : ∀ {g g' : Graph}, SameContent g g' → g.Accepts id format slot →
      g'.Accepts id format slot := by
    rintro g g' h ⟨input, hinput, hreal, hfits⟩
    obtain ⟨input', hinput', _, hproducer, hlayout⟩ := h.exists_input hinput
    refine ⟨input', hinput', ?_, ?_⟩
    · rwa [Input.isReal, Node.isConstant_congr (Node.op_of_content hproducer)]
    · rwa [Layout.rank_of_withFormat_any hlayout]
  exact ⟨himp h.symm, himp h⟩

theorem preferOnInputs?_spec {g : Graph} (hg : g.WellFormed) {id : NodeId} {node : Node}
    (hnode : g.node? id = some node) (format : Format) :
    Yields (g.preferOnInputs? id format) fun g' => LocalEdit id g g' ∧ ∃ node',
      g'.node? id = some node' ∧ { node' with prefers := node.prefers }.bare = node.bare ∧
        (∀ {slot}, g.Accepts id format slot → node'.prefers.input slot = format) ∧
        (∀ {slot}, ¬g.Accepts id format slot →
          node'.prefers.input slot = node.prefers.input slot) ∧
        node'.prefers.outputs = node.prefers.outputs ∧
        node'.prefers.inputTypes = node.prefers.inputTypes := by
  obtain ⟨slots, hslots, hreal⟩ := hg.exists_realSlots hnode
  refine Yields.bind_eq hslots ?_
  refine (Yields.foldlM (fun done (g' : Graph) => LocalEdit id g g' ∧ ∃ node',
    g'.node? id = some node' ∧ { node' with prefers := node.prefers }.bare = node.bare ∧
      (∀ {slot}, slot ∈ done → g.Accepts id format slot → node'.prefers.input slot = format) ∧
      (∀ {slot}, ¬g.Accepts id format slot →
        node'.prefers.input slot = node.prefers.input slot) ∧
      node'.prefers.outputs = node.prefers.outputs ∧
      node'.prefers.inputTypes = node.prefers.inputTypes) ?_ ?_).mono ?_
  · exact ⟨.refl id g, node, hnode, rfl, fun h => absurd h List.not_mem_nil, fun _ => rfl, rfl, rfl⟩
  · rintro done slot rest g₁ rfl ⟨hedit, node₁, hnode₁, hrest, hdone, hother, houtputs, htypes⟩
    obtain ⟨input, hinput, hinput_real⟩ := (hreal slot).1 (by simp)
    obtain ⟨input₁, hinput₁, _, _, hlayout⟩ := hedit.content.exists_input hinput
    have hrank := Layout.rank_of_withFormat_any hlayout
    refine Yields.bind_eq hinput₁ ?_
    split
    next hfits =>
      have haccepts : g.Accepts id format slot := ⟨input, hinput, hinput_real, hrank ▸ hfits⟩
      refine (update?_spec hnode₁).mono ?_
      rintro g₂ ⟨horder, hnew, hothers⟩
      refine ⟨hedit.trans (localEdit_of_update hnode₁ horder hnew hothers rfl), _, hnew, hrest,
        ?_, ?_, houtputs, htypes⟩
      · intro k hk hk_accepts
        rw [FormatPreference.input_setInput]
        split
        next => rfl
        next hne =>
          refine hdone ?_ hk_accepts
          simpa [hne] using hk
      · intro k hk
        have hne : k ≠ slot := fun heq => hk (heq ▸ haccepts)
        rw [FormatPreference.input_setInput, if_neg hne, hother hk]
    next hfits =>
      refine Yields.pure ⟨hedit, node₁, hnode₁, hrest, ?_, hother, houtputs, htypes⟩
      intro k hk hk_accepts
      have hne : k ≠ slot := by
        rintro rfl
        obtain ⟨found, hfound, _, hfound_fits⟩ := hk_accepts
        obtain rfl := Option.some.inj (hinput.symm.trans hfound)
        exact hfits (hrank.symm ▸ hfound_fits)
      exact hdone (by simpa [hne] using hk) hk_accepts
  · rintro g' ⟨hedit, node', hnode', hrest, hdone, hother, houtputs, htypes⟩
    refine ⟨hedit, node', hnode', hrest, ?_, hother, houtputs, htypes⟩
    rintro slot ⟨input, hinput, hinput_real, hfits⟩
    exact hdone ((hreal slot).2 ⟨input, hinput, hinput_real⟩) ⟨input, hinput, hinput_real, hfits⟩

theorem adoptFormat?_spec {g : Graph} (hg : g.WellFormed) {id : NodeId} {node : Node}
    (hnode : g.node? id = some node) (format : Format) :
    Yields (g.adoptFormat? id format) (Adopts id format g) := by
  refine Yields.bind (forceOutputs?_spec hg hnode format) ?_
  rintro g₁ ⟨hedit₁, node₁, hnode₁, hforced⟩
  have hg₁ := hedit₁.wellFormed hg
  refine Yields.bind (preferOnInputs?_spec hg₁ hnode₁ format) ?_
  rintro g₂ ⟨hedit₂, node₂, hnode₂, hrest, haccepts, hother, houtputs, htypes⟩
  refine (refresh?_spec (hedit₂.wellFormed hg₁) hnode₂).mono ?_
  rintro g₃ ⟨hedit₃, _, node₃, hnode₃, hbare, _⟩
  refine ⟨(hedit₁.trans hedit₂).trans hedit₃, fun hsame => ?_⟩
  obtain rfl := Option.some.inj (hnode.symm.trans hsame)
  have hprefers := Node.prefers_of_bare hbare
  have houtputs₂ : node₂.outputs = node₁.outputs := by
    have heq := Node.outputs_of_bare hrest
    exact heq
  refine ⟨node₃, hnode₃, ?_, ?_, ?_, ?_, ?_, ?_⟩
  · have heq₃ := congrArg (fun node' : Node =>
      { node' with outputs := node.outputs, prefers := node.prefers }) hbare
    have heq₂ := congrArg (fun node' : Node =>
      { node' with outputs := node.outputs, prefers := node.prefers }) hrest
    exact Eq.trans heq₃ (Eq.trans heq₂ hforced.rest)
  · rw [Node.outputs_of_bare hbare, houtputs₂, hforced.outputs]
  · intro index
    rw [hprefers, FormatPreference.output, houtputs]
    exact hforced.output index
  · intro slot hslot
    rw [hprefers, haccepts ((accepts_iff hedit₁.content).2 hslot)]
  · intro slot hslot
    rw [hprefers, hother (fun h => hslot ((accepts_iff hedit₁.content).1 h))]
    exact hforced.input_of_not (fun h => h)
  · rw [hprefers, htypes, hforced.inputTypes]

/-! ## Taking a trial back -/

/-- Nothing but caches changed, and those of other nodes only by marking them stale. -/
structure Restored (id : NodeId) (g g' : Graph) : Prop where
  edit : LocalEdit id g g'
  bare : Same Node.bare g g'

protected theorem Restored.refl (id : NodeId) (g : Graph) : Restored id g g :=
  ⟨.refl id g, .refl g⟩

protected theorem Restored.trans {id : NodeId} {g g' g'' : Graph} (h : Restored id g g')
    (h' : Restored id g' g'') : Restored id g g'' :=
  ⟨h.edit.trans h'.edit, h.bare.trans h'.bare⟩

theorem Adopts.of_restored {id : NodeId} {format : Format} {g g' g'' : Graph}
    (h : Restored id g g') (h' : Adopts id format g' g'') : Adopts id format g g'' := by
  refine ⟨h.edit.trans h'.edit, fun {node} hnode => ?_⟩
  obtain ⟨node', hnode', hbare⟩ := h.bare.exists_new hnode
  obtain ⟨node'', hnode'', hadopts⟩ := h'.node hnode'
  have houtputs := Node.outputs_of_bare hbare
  have hprefers := Node.prefers_of_bare hbare
  have hiff : ∀ {slot}, g'.Accepts id format slot ↔ g.Accepts id format slot :=
    accepts_iff h.edit.content
  refine ⟨node'', hnode'', ?_, ?_, ?_, ?_, ?_, ?_⟩
  · have hrest := hadopts.rest
    rw [houtputs, hprefers] at hrest
    exact hrest.trans hbare
  · rw [hadopts.outputs, houtputs]
  · intro index
    rw [hadopts.output, houtputs, hprefers]
  · exact fun hslot => hadopts.input_of_accepts (hiff.2 hslot)
  · exact fun hslot => (hadopts.input_of_not (mt hiff.1 hslot)).trans (by rw [hprefers])
  · rw [hadopts.inputTypes, hprefers]

/-- The formats saved before a trial are those it is taken back to. -/
theorem putBack?_spec {g g' : Graph} (hg : g.WellFormed) {id : NodeId} {node : Node}
    (hnode : g.node? id = some node) {format : Format} (h : Adopts id format g g') :
    Yields ((FormatSnapshot.ofNode node).putBack? g' id) (Restored id g) := by
  obtain ⟨node₁, hnode₁, hadopts⟩ := h.node hnode
  have hlength : node₁.outputs.length = node.outputs.length := by
    rw [hadopts.outputs, List.length_map]
  have hback : ((FormatSnapshot.ofNode node).apply node₁).bare = node.bare := by
    have houtputs : List.zipWith Layout.withFormat node₁.outputs (node.outputs.map Layout.format) =
        node.outputs := by
      apply List.ext_getElem?
      intro index
      rw [hadopts.outputs, List.getElem?_zipWith, List.getElem?_map, List.getElem?_map]
      cases node.outputs[index]? <;> simp [Layout.withFormat]
    have hprefers : (⟨node.prefers.inputs, node.prefers.outputs, node₁.prefers.inputTypes⟩ :
        FormatPreference) = node.prefers := by
      rw [hadopts.inputTypes]
    have hrest := hadopts.rest
    unfold FormatSnapshot.apply FormatSnapshot.ofNode
    dsimp only
    rw [houtputs, hprefers, List.length_map, ← hlength, List.drop_length, List.append_nil]
    exact hrest
  refine Yields.bind_eq hnode₁ ?_
  rw [if_pos (by simp [FormatSnapshot.ofNode, hlength])]
  refine Yields.bind (update?_spec hnode₁) ?_
  rintro g₂ ⟨horder, hnew, hothers⟩
  have hedit : LocalEdit id g' g₂ := by
    refine localEdit_of_update hnode₁ horder hnew hothers ?_
    obtain ⟨_, hfound, hcontent⟩ := h.edit.content.nodes.exists_new hnode
    obtain rfl := Option.some.inj (hnode₁.symm.trans hfound)
    rw [hcontent]
    exact Node.content_of_bare hback (Node.content_eq_iff.1 hcontent).2.2
  refine (refresh?_spec ((h.edit.trans hedit).wellFormed hg) hnew).mono ?_
  rintro g₃ ⟨hedit₃, htidied, node₃, hnode₃, hbare, _⟩
  refine ⟨(h.edit.trans hedit).trans hedit₃, fun other => ?_⟩
  by_cases hne : other = id
  · subst hne
    rw [hnode₃, hnode, Option.map_some, Option.map_some, hbare, hback]
  · rw [htidied.bare other, hedit.others other hne, h.edit.others other hne]

/-- A capability of the mask supports the node. -/
def Supports (g : Graph) (catalog : Catalog) (id : NodeId) (mask : KindMask) : Prop :=
  ∃ view, g.view? id = some view ∧ catalog.isSupported view mask view.shapeClass = true

/-- A capability that the pin of the node allows supports it. -/
def Legal (g : Graph) (catalog : Catalog) (id : NodeId) : Prop :=
  ∃ node, g.node? id = some node ∧ g.Supports catalog id (.ofPin node.pinned)

theorem Adopts.legal_iff {id : NodeId} {format : Format} {g g' : Graph}
    (h : Adopts id format g g') {node : Node} (hnode : g.node? id = some node) {catalog : Catalog} :
    g'.Legal catalog id ↔ g'.Supports catalog id (.ofPin node.pinned) := by
  obtain ⟨node', hnode', hadopts⟩ := h.node hnode
  have hpinned : node'.pinned = node.pinned := by
    have heq := Node.pinned_of_bare hadopts.rest
    exact heq
  simp [Legal, hnode', hpinned]

/-- The node was handed over from the vendor to the generated kernels. -/
structure HandedOver (id : NodeId) (g g' : Graph) : Prop where
  edit : LocalEdit id g g'
  node : ∀ {node}, g.node? id = some node → node.pinned = some .vendor ∧
    ∃ node', g'.node? id = some node' ∧
      node'.bare = { node with pinned := some .generic, selected := some .generic }.bare

theorem HandedOver.of_restored {id : NodeId} {g g' g'' : Graph} (h : Restored id g g')
    (h' : HandedOver id g' g'') : HandedOver id g g'' := by
  refine ⟨h.edit.trans h'.edit, fun {node} hnode => ?_⟩
  obtain ⟨node', hnode', hbare⟩ := h.bare.exists_new hnode
  obtain ⟨hpinned, node'', hnode'', hbare'⟩ := h'.node hnode'
  refine ⟨(Node.pinned_of_bare hbare).symm.trans hpinned, node'', hnode'', hbare'.trans ?_⟩
  have heq := congrArg (fun old : Node =>
    { old with pinned := some .generic, selected := some .generic }) hbare
  exact heq

end Graph

namespace Reconciliation

/-! ## The search -/

/-- What a search comes to. -/
structure Searched (catalog : Catalog) (id : NodeId) (mask : KindMask) (formats : List Format)
    (s : Reconciliation) (out : Reconciliation × Bool) : Prop where
  conversions_eq : out.1.conversions = s.conversions
  created_eq : out.1.created = s.created
  trace_eq : out.1.trace = s.trace
  failure_eq : out.1.failure = s.failure
  inserted_eq : out.1.report.reordersInserted = s.report.reordersInserted
  demotions_eq : out.1.report.demotions = s.report.demotions
  found : out.2 = true → ∃ format ∈ formats, s.graph.Adopts id format out.1.graph ∧
    out.1.graph.Supports catalog id mask
  missed : out.2 = false → s.graph.Restored id out.1.graph ∧ out.1.report = s.report ∧
    ∀ format ∈ formats, ∃ g, s.graph.Adopts id format g ∧ ¬g.Supports catalog id mask

theorem search?_spec {catalog : Catalog} {id : NodeId} {mask : KindMask} (formats : List Format)
    {s : Reconciliation} (hg : s.graph.WellFormed) {node : Node}
    (hnode : s.graph.node? id = some node) :
    Yields (s.search? catalog id (.ofNode node) mask formats)
      (Searched catalog id mask formats s) := by
  induction formats generalizing s node with
  | nil =>
    refine Yields.pure ⟨rfl, rfl, rfl, rfl, rfl, rfl, fun h => Bool.noConfusion h,
      fun _ => ⟨.refl id _, rfl, ?_⟩⟩
    exact fun _ h => absurd h List.not_mem_nil
  | cons format rest ih =>
    unfold search?
    refine Yields.bind (Graph.adoptFormat?_spec hg hnode format) ?_
    intro g hadopts
    obtain ⟨node₁, hnode₁, _⟩ := hadopts.node hnode
    obtain ⟨_, _, hview⟩ := (hadopts.edit.wellFormed hg).exists_view hnode₁
    refine Yields.bind_eq hview ?_
    split
    next hsupported =>
      refine Yields.pure ⟨rfl, rfl, rfl, rfl, rfl, rfl, fun _ => ?_, fun h => Bool.noConfusion h⟩
      exact ⟨format, List.mem_cons_self .., hadopts, _, hview, hsupported⟩
    next hrefused =>
      refine Yields.bind (Graph.putBack?_spec hg hnode hadopts) ?_
      intro g₂ hrestored
      obtain ⟨node₂, hnode₂, hbare⟩ := hrestored.bare.exists_new hnode
      rw [FormatSnapshot.ofNode_of_bare hbare]
      refine (ih (hrestored.edit.wellFormed hg) hnode₂).mono ?_
      rintro out ⟨hconversions, hcreated, htrace, hfailure, hinserted, hdemotions, hfound, hmissed⟩
      refine ⟨hconversions, hcreated, htrace, hfailure, hinserted, hdemotions, fun hout => ?_,
        fun hout => ?_⟩
      · obtain ⟨found, hmem, hadopts', hsupports⟩ := hfound hout
        exact ⟨found, List.mem_cons_of_mem _ hmem, hadopts'.of_restored hrestored, hsupports⟩
      · obtain ⟨hrestored', hreport, hall⟩ := hmissed hout
        refine ⟨hrestored.trans hrestored', hreport, ?_⟩
        intro other hmem
        rcases List.mem_cons.1 hmem with rfl | hmem
        · refine ⟨g, hadopts, ?_⟩
          rintro ⟨view, hview', hsupported⟩
          obtain rfl := Option.some.inj (hview.symm.trans hview')
          exact hrefused hsupported
        · obtain ⟨g', hadopts', hrefused'⟩ := hall other hmem
          exact ⟨g', hadopts'.of_restored hrestored, hrefused'⟩

/-! ## Legalizing a node -/

/-- How the search for a legal layout ends.  `base` is the graph after the node was handed over, if
it was. -/
inductive Ending (cx : Context) (id : NodeId) (s : Reconciliation) (base : Graph)
    (s' : Reconciliation) : Prop
  /-- The node is legal with the formats it has. -/
  | supported (hrestored : base.Restored id s'.graph) (hfailure : s'.failure = s.failure)
      (hlegal : s'.graph.Legal cx.catalog id)
  /-- The node waits for its shapes. -/
  | deferred (hrestored : base.Restored id s'.graph) (hfailure : s'.failure = s.failure)
      (hdynamic : ∃ view, s.graph.view? id = some view ∧ view.shapeClass.isDynamic = true ∧
        cx.catalog.servesDynamic view.op = true)
  /-- The node is legal in another format. -/
  | adopted (format : Format) (hadopts : base.Adopts id format s'.graph)
      (hfailure : s'.failure = s.failure) (hlegal : s'.graph.Legal cx.catalog id)
      (hfits : ∀ {node output}, base.node? id = some node → node.outputs[0]? = some output →
        output.rank ≤ 6 → format.fits output.rank = true)
  /-- None of the fallback formats is legal. -/
  | unresolved (hrestored : base.Restored id s'.graph)
      (hfailure : ∃ mask attempted blamed, s'.failure =
        some (.layoutUnresolved (s'.graph.describe id) mask attempted blamed))
      (hrefused : ∀ node output, base.node? id = some node → node.outputs[0]? = some output →
        ∀ format ∈ Format.fallbacksFor output.rank,
          ∃ g, base.Adopts id format g ∧ ¬g.Legal cx.catalog id)
      (hstatic : ∀ view, s.graph.view? id = some view → view.shapeClass.isDynamic →
        cx.catalog.servesDynamic view.op = false)

/-- What is put on record about the search: nothing, or that the node was handed over. -/
inductive Reported (cx : Context) (id : NodeId) (s s' : Reconciliation) : Prop
  | silent (hevents : s'.trace.events = s.trace.events)
      (hcount : s'.report.demotions = s.report.demotions)
      (hpinned : ∀ {node node'}, s.graph.node? id = some node → s'.graph.node? id = some node' →
        node'.pinned = node.pinned)
  | demoted (hallowed : cx.config.allowVendorDemotion = true)
      (hevents : s'.trace.events =
        s.trace.events ++ [.kindDemoted id .vendor .generic demotionReason])
      (hcount : s'.report.demotions = s.report.demotions + 1)
      (hpinned : ∀ {node node'}, s.graph.node? id = some node → s'.graph.node? id = some node' →
        node.pinned = some .vendor ∧ node'.pinned = some .generic)

structure Legalized (cx : Context) (id : NodeId) (s s' : Reconciliation) : Prop where
  conversions_eq : s'.conversions = s.conversions
  created_eq : s'.created = s.created
  inserted_eq : s'.report.reordersInserted = s.report.reordersInserted
  reported : Reported cx id s s'
  ending : ∃ base, (s.graph.Restored id base ∨ s.graph.HandedOver id base) ∧ Ending cx id s base s'

theorem Ending.edit {cx : Context} {id : NodeId} {s : Reconciliation} {base : Graph}
    {s' : Reconciliation} (h : Ending cx id s base s') : Graph.LocalEdit id base s'.graph := by
  cases h with
  | supported hrestored => exact hrestored.edit
  | deferred hrestored => exact hrestored.edit
  | adopted _ hadopts => exact hadopts.edit
  | unresolved hrestored => exact hrestored.edit

/-- Legalizing a node edits that node only. -/
theorem Legalized.edit {cx : Context} {id : NodeId} {s s' : Reconciliation}
    (h : Legalized cx id s s') : Graph.LocalEdit id s.graph s'.graph := by
  obtain ⟨base, hrestored | hhanded, hending⟩ := h.ending
  · exact hrestored.edit.trans hending.edit
  · exact hhanded.edit.trans hending.edit

/-- Once the node was handed over, or was not, its pin stays. -/
theorem Ending.pinned_eq {cx : Context} {id : NodeId} {s : Reconciliation} {base : Graph}
    {s' : Reconciliation} (h : Ending cx id s base s') {node node' : Node}
    (hnode : base.node? id = some node) (hnode' : s'.graph.node? id = some node') :
    node'.pinned = node.pinned := by
  have hrestored : base.Restored id s'.graph → node'.pinned = node.pinned := by
    intro hrestored
    obtain ⟨_, hfound, hbare⟩ := hrestored.bare.exists_new hnode
    obtain rfl := Option.some.inj (hnode'.symm.trans hfound)
    exact Node.pinned_of_bare hbare
  cases h with
  | supported h | deferred h | unresolved h => exact hrestored h
  | adopted _ hadopts =>
    obtain ⟨_, hfound, hadopted⟩ := hadopts.node hnode
    obtain rfl := Option.some.inj (hnode'.symm.trans hfound)
    exact (Node.pinned_of_bare hadopted.rest :)

section Reported

variable {cx : Context} {id : NodeId} {s s' : Reconciliation} {base : Graph}

theorem Ending.reported_of_restored (h : Ending cx id s base s') (hbase : s.graph.Restored id base)
    (hevents : s'.trace.events = s.trace.events)
    (hcount : s'.report.demotions = s.report.demotions) : Reported cx id s s' := by
  refine .silent hevents hcount fun hnode hnode' => ?_
  obtain ⟨node₁, hnode₁, hbare⟩ := hbase.bare.exists_new hnode
  rw [h.pinned_eq hnode₁ hnode', Node.pinned_of_bare hbare]

theorem Ending.reported_of_handedOver (h : Ending cx id s base s')
    (hbase : s.graph.HandedOver id base) (hallowed : cx.config.allowVendorDemotion = true)
    (hevents : s'.trace.events =
      s.trace.events ++ [.kindDemoted id .vendor .generic demotionReason])
    (hcount : s'.report.demotions = s.report.demotions + 1) : Reported cx id s s' := by
  refine .demoted hallowed hevents hcount fun hnode hnode' => ?_
  obtain ⟨hpinned, node₁, hnode₁, hbare⟩ := hbase.node hnode
  exact ⟨hpinned, (h.pinned_eq hnode₁ hnode').trans (Node.pinned_of_bare hbare)⟩

end Reported

theorem handOver?_spec {s : Reconciliation} {id : NodeId} {node : Node}
    (hnode : s.graph.node? id = some node) (hpinned : node.pinned = some .vendor) :
    Yields (s.handOver? id) fun s' => s'.conversions = s.conversions ∧ s'.created = s.created ∧
      s'.failure = s.failure ∧ s'.report.reordersInserted = s.report.reordersInserted ∧
      s'.trace.events = s.trace.events ++ [.kindDemoted id .vendor .generic demotionReason] ∧
      s'.report.demotions = s.report.demotions + 1 ∧ s.graph.HandedOver id s'.graph := by
  refine Yields.bind (Graph.update?_spec hnode) ?_
  rintro g ⟨horder, hnew, hothers⟩
  refine Yields.pure ⟨rfl, rfl, rfl, rfl, by simp [tell], rfl, ?_, fun hsame => ?_⟩
  · exact Graph.localEdit_of_update hnode horder hnew hothers rfl
  · obtain rfl := Option.some.inj (hnode.symm.trans hsame)
    exact ⟨hpinned, _, hnew, rfl⟩

/-- Falling back from the graph `s.graph`. -/
theorem fallBack?_spec {cx : Context} {id : NodeId} {s₀ s : Reconciliation}
    (hg : s.graph.WellFormed) {node : Node} (hnode : s.graph.node? id = some node)
    {output : Layout} (houtput : node.outputs[0]? = some output) (hfailure : s.failure = s₀.failure)
    (hstatic : ∀ view, s₀.graph.view? id = some view → view.shapeClass.isDynamic →
      cx.catalog.servesDynamic view.op = false) (tried : List Format) :
    Yields (s.fallBack? cx.catalog id (.ofNode node) (.ofPin node.pinned) output.rank tried)
      fun s' => s'.conversions = s.conversions ∧ s'.created = s.created ∧
        s'.report.reordersInserted = s.report.reordersInserted ∧
        s'.trace.events = s.trace.events ∧ s'.report.demotions = s.report.demotions ∧
        Ending cx id s₀ s.graph s' := by
  refine Yields.bind (search?_spec (Format.fallbacksFor output.rank) hg hnode) ?_
  rintro ⟨s₁, found⟩
    ⟨hconversions, hcreated, htrace, hfailure₁, hinserted, hdemotions, hfound, hmissed⟩
  have hevents : s₁.trace.events = s.trace.events := congrArg Trace.events htrace
  replace hfailure₁ := hfailure₁.trans hfailure
  cases found with
  | true =>
    obtain ⟨format, hformat, hadopts, hsupports⟩ := hfound rfl
    refine Yields.pure ⟨hconversions, hcreated, hinserted, hevents, hdemotions, .adopted format
      hadopts hfailure₁ ((hadopts.legal_iff hnode).2 hsupports) fun hnode' houtput' hrank => ?_⟩
    obtain rfl := Option.some.inj (hnode.symm.trans hnode')
    obtain rfl := Option.some.inj (houtput.symm.trans houtput')
    exact Format.fits_of_mem_fallbacksFor hrank hformat
  | false =>
    obtain ⟨hrestored, _, hrefused⟩ := hmissed rfl
    obtain ⟨node₁, hnode₁, hbare⟩ := hrestored.bare.exists_new hnode
    obtain ⟨_, _, hview⟩ := (hrestored.edit.wellFormed hg).exists_view hnode₁
    have houtput₁ : node₁.outputs[0]? = some output := by rw [Node.outputs_of_bare hbare, houtput]
    have herror : Yields (s₁.unresolved? id (.ofPin node.pinned)
        (tried ++ (Format.fallbacksFor output.rank).filter (!tried.contains ·))) fun error =>
        ∃ mask attempted blamed,
          error = .layoutUnresolved (s₁.graph.describe id) mask attempted blamed :=
      Yields.bind_eq hview (Yields.bind_eq houtput₁ (Yields.pure ⟨_, _, _, rfl⟩))
    refine Yields.bind herror ?_
    rintro error ⟨mask, attempted, blamed, rfl⟩
    refine Yields.pure ⟨hconversions, hcreated, hinserted, by simpa [fail, tell] using hevents,
      hdemotions, ?_⟩
    refine .unresolved hrestored ⟨mask, attempted, blamed, rfl⟩ ?_ hstatic
    intro node' output' hnode' houtput' format hmem
    obtain rfl := Option.some.inj (hnode.symm.trans hnode')
    obtain rfl := Option.some.inj (houtput.symm.trans houtput')
    obtain ⟨g, hadopts, hunsupported⟩ := hrefused format hmem
    exact ⟨g, hadopts, fun hlegal => hunsupported ((hadopts.legal_iff hnode).1 hlegal)⟩

/-! ## After a search without success -/

/-- The state is the one that the search began with, up to flags of the node. -/
structure Missed (id : NodeId) (s s₁ : Reconciliation) : Prop where
  restored : s.graph.Restored id s₁.graph
  conversions_eq : s₁.conversions = s.conversions
  created_eq : s₁.created = s.created
  failure_eq : s₁.failure = s.failure
  inserted_eq : s₁.report.reordersInserted = s.report.reordersInserted
  events_eq : s₁.trace.events = s.trace.events
  demotions_eq : s₁.report.demotions = s.report.demotions

theorem Searched.isMissed {catalog : Catalog} {id : NodeId} {mask : KindMask}
    {formats : List Format} {s s₁ : Reconciliation}
    (h : Searched catalog id mask formats s (s₁, false)) : Missed id s s₁ where
  restored := (h.missed rfl).1
  conversions_eq := h.conversions_eq
  created_eq := h.created_eq
  failure_eq := h.failure_eq
  inserted_eq := h.inserted_eq
  events_eq := congrArg Trace.events h.trace_eq
  demotions_eq := h.demotions_eq

section Missed

variable {cx : Context} {id : NodeId} {s s₁ : Reconciliation} {node : Node} {output : Layout}

theorem Missed.deferred (h : Missed id s s₁) {view : NodeView}
    (hview : s.graph.view? id = some view) (hdynamic : view.shapeClass.isDynamic = true)
    (hserves : cx.catalog.servesDynamic view.op = true) : Legalized cx id s s₁ := by
  have hending : Ending cx id s s₁.graph s₁ :=
    .deferred (.refl id _) h.failure_eq ⟨view, hview, hdynamic, hserves⟩
  exact ⟨h.conversions_eq, h.created_eq, h.inserted_eq,
    hending.reported_of_restored h.restored h.events_eq h.demotions_eq, s₁.graph,
    Or.inl h.restored, hending⟩

variable (hg : s₁.graph.WellFormed) (hnode : s₁.graph.node? id = some node)
  (houtput : node.outputs[0]? = some output)
  (hstatic : ∀ view, s.graph.view? id = some view → view.shapeClass.isDynamic →
    cx.catalog.servesDynamic view.op = false)

include hg hnode houtput hstatic

theorem Missed.fallBack? (h : Missed id s s₁) (tried : List Format) :
    Yields (s₁.fallBack? cx.catalog id (.ofNode node) (.ofPin node.pinned) output.rank tried)
      (Legalized cx id s) := by
  refine (fallBack?_spec hg hnode houtput h.failure_eq hstatic tried).mono ?_
  rintro s' ⟨hconversions, hcreated, hinserted, hevents, hdemotions, hending⟩
  exact ⟨hconversions.trans h.conversions_eq, hcreated.trans h.created_eq,
    hinserted.trans h.inserted_eq,
    hending.reported_of_restored h.restored (hevents.trans h.events_eq)
      (hdemotions.trans h.demotions_eq), s₁.graph, Or.inl h.restored, hending⟩

/-- A node that is handed over to generic kernels may be legal then.  Otherwise it falls back. -/
theorem Missed.handOver? (h : Missed id s s₁) (hpinned : node.pinned = some .vendor)
    (hallowed : cx.config.allowVendorDemotion = true) (tried : List Format) :
    Yields (do
      let s₂ ← s₁.handOver? id
      let view ← s₂.graph.view? id
      if cx.catalog.isSupported view (.only .generic) view.shapeClass then return s₂
      else s₂.fallBack? cx.catalog id (.ofNode node) (.only .generic) output.rank tried)
      (Legalized cx id s) := by
  refine Yields.bind (handOver?_spec hnode hpinned) ?_
  rintro s₂ ⟨hconversions, hcreated, hfailure, hinserted, hevents, hdemotions, hhanded⟩
  rw [h.events_eq] at hevents
  rw [h.demotions_eq] at hdemotions
  obtain ⟨_, node₂, hnode₂, hbare⟩ := hhanded.node hnode
  have hg₂ := hhanded.edit.wellFormed hg
  obtain ⟨_, _, hview⟩ := hg₂.exists_view hnode₂
  have hbase := hhanded.of_restored h.restored
  have hmask : KindMask.only .generic = .ofPin node₂.pinned := by
    rw [Node.pinned_of_bare hbare]
    rfl
  refine Yields.bind_eq hview ?_
  split
  next hsupported =>
    have hending : Ending cx id s s₂.graph s₂ := .supported (.refl id _)
      (hfailure.trans h.failure_eq) ⟨node₂, hnode₂, _, hview, hmask ▸ hsupported⟩
    exact Yields.pure ⟨hconversions.trans h.conversions_eq, hcreated.trans h.created_eq,
      hinserted.trans h.inserted_eq,
      hending.reported_of_handedOver hbase hallowed hevents hdemotions, s₂.graph, Or.inr hbase,
      hending⟩
  next =>
    have houtputs : node₂.outputs = node.outputs := (Node.outputs_of_bare hbare).trans rfl
    have hsaved : FormatSnapshot.ofNode node = .ofNode node₂ := by
      rw [← FormatSnapshot.ofNode_of_bare hbare]
      rfl
    rw [hsaved, hmask]
    refine (fallBack?_spec hg₂ hnode₂ (houtputs ▸ houtput) (hfailure.trans h.failure_eq) hstatic
      tried).mono ?_
    rintro s' ⟨hconversions', hcreated', hinserted', hevents', hdemotions', hending⟩
    exact ⟨(hconversions'.trans hconversions).trans h.conversions_eq,
      (hcreated'.trans hcreated).trans h.created_eq,
      (hinserted'.trans hinserted).trans h.inserted_eq,
      hending.reported_of_handedOver hbase hallowed (hevents'.trans hevents)
        (hdemotions'.trans hdemotions), s₂.graph, Or.inr hbase, hending⟩

end Missed

theorem legalize?_spec {s : Reconciliation} (cx : Context) {id : NodeId} (hg : s.graph.WellFormed)
    {node : Node} (hnode : s.graph.node? id = some node) :
    Yields (s.legalize? cx id) (Legalized cx id s) := by
  obtain ⟨inputs, _, hview⟩ := hg.exists_view hnode
  obtain ⟨output, houtput⟩ := hg.exists_output hnode
  refine Yields.bind_eq hview ?_
  dsimp only
  split
  next hsupported =>
    have hending : Ending cx id s s.graph s :=
      .supported (.refl id _) rfl ⟨node, hnode, _, hview, hsupported⟩
    exact Yields.pure ⟨rfl, rfl, rfl, hending.reported_of_restored (.refl id _) rfl rfl, s.graph,
      Or.inl (.refl id _), hending⟩
  next =>
  refine Yields.bind_eq houtput (Yields.bind (search?_spec _ hg hnode) ?_)
  rintro ⟨s₁, found⟩ hsearched
  cases found with
  | true =>
    obtain ⟨format, hformat, hadopts, hsupports⟩ := hsearched.found rfl
    have hending : Ending cx id s s.graph s₁ := by
      refine .adopted format hadopts hsearched.failure_eq ((hadopts.legal_iff hnode).2 hsupports)
        fun hnode' houtput' _ => ?_
      obtain rfl := Option.some.inj (hnode.symm.trans hnode')
      obtain rfl := Option.some.inj (houtput.symm.trans houtput')
      exact NodeView.fits_of_mem_inputFormats hformat
    exact Yields.pure ⟨hsearched.conversions_eq, hsearched.created_eq, hsearched.inserted_eq,
      hending.reported_of_restored (.refl id _) (congrArg Trace.events hsearched.trace_eq)
        hsearched.demotions_eq, s.graph, Or.inl (.refl id _), hending⟩
  | false =>
    have hmissed := hsearched.isMissed
    obtain ⟨node₁, hnode₁, hbare₁⟩ := hmissed.restored.bare.exists_new hnode
    have hg₁ := hmissed.restored.edit.wellFormed hg
    have hpin := Node.pinned_of_bare hbare₁
    have houtput₁ : node₁.outputs[0]? = some output := by rw [Node.outputs_of_bare hbare₁, houtput]
    dsimp only
    rw [if_neg Bool.false_ne_true]
    split
    next hdynamic =>
      rw [Bool.and_eq_true] at hdynamic
      exact Yields.pure (hmissed.deferred hview hdynamic.1 hdynamic.2)
    next hnotDeferred =>
    have hstatic : ∀ view, s.graph.view? id = some view → view.shapeClass.isDynamic →
        cx.catalog.servesDynamic view.op = false := by
      intro view hview' hdynamic
      obtain rfl := Option.some.inj (hview.symm.trans hview')
      simpa [hdynamic, NodeView.op] using hnotDeferred
    rw [FormatSnapshot.ofNode_of_bare hbare₁]
    split
    next hdemoted =>
      exact hmissed.handOver? hg₁ hnode₁ houtput₁ hstatic (hpin.trans hdemoted.1) hdemoted.2 _
    next =>
      rw [← hpin]
      exact hmissed.fallBack? hg₁ hnode₁ houtput₁ hstatic _

end Reconciliation

end LayoutPlanner
