import LayoutPlanner.Proofs.ForwardSettling

/-!
# Inherited formats

What the first sweep over a declared graph comes to, said without the sweep.

An output that was declared with a format has that format.  Any other takes the format of the first
real input that fits its rank, where inputs have the formats that they come to themselves, or else
the default of the rank (`finalFormat`).  The sweep gives every output of every node, constants
apart, that format (`settleAll?_eq_final`), and sweeping again, whichever nodes are stale then,
leads to the same graph (`settleAll?_outdated`).
-/

namespace LayoutPlanner

/-- A walk over a list that gives the results of another walk, each of them changed. -/
theorem mapM_eq_map {α β : Type} {f f' : α → Option β} {change : β → β} {items : List α}
    (h : ∀ a ∈ items, f' a = (f a).map change) :
    items.mapM f' = (items.mapM f).map (List.map change) := by
  induction items with
  | nil => rfl
  | cons a rest ih =>
    rw [List.mapM_cons, List.mapM_cons, h a (List.mem_cons_self ..),
      ih fun other hmem => h other (List.mem_cons_of_mem _ hmem)]
    cases f a with
    | none => rfl
    | some b => cases rest.mapM f <;> rfl

namespace Graph

/-! ## The format of an output -/

/-- The format that an output of a node comes to.  In a declared graph every edge leads to an
earlier node. -/
def finalFormat (g : Graph) (id : NodeId) (declared : Layout) : Format :=
  if declared.format.isChosen then declared.format
  else
    let inherited := (((g.inputs? id).getD []).filter Input.isReal).map fun input =>
      if input.edge.node.index < id.index then g.finalFormat input.edge.node input.layout else .any
    (inherited.find? (·.fits declared.rank)).getD (.defaultFor declared.rank)
termination_by id.index

/-- The node with all of its outputs in the formats they come to. -/
def finalNode (g : Graph) (id : NodeId) (node : Node) : Node :=
  if node.isConstant then node
  else { node with
    outputs := node.outputs.map fun layout => layout.withFormat (g.finalFormat id layout)
    layoutValid := true }

/-- The graph with every output in the format it comes to. -/
def final (g : Graph) : Graph :=
  { g with nodes := g.nodes.mapIdx fun index node => g.finalNode ⟨index⟩ node }

/-- The graph with some nodes marked stale. -/
def outdated (g : Graph) (stale : NodeId → Bool) : Graph :=
  { g with nodes := g.nodes.mapIdx fun index node => if stale ⟨index⟩ then node.stale else node }

variable {g g' : Graph} {id : NodeId} {node : Node}

theorem node?_final (id : NodeId) : g.final.node? id = (g.node? id).map (g.finalNode id) := by
  simp only [final, node?, List.getElem?_mapIdx]

theorem node?_outdated (stale : NodeId → Bool) (id : NodeId) : (g.outdated stale).node? id =
    (g.node? id).map fun node => if stale id then node.stale else node := by
  simp only [outdated, node?, List.getElem?_mapIdx]

/-- Edges lead back, so nothing is left out. -/
theorem finalFormat_eq (hg : g.Ordered) {inputs : List Input} (hinputs : g.inputs? id = some inputs)
    (declared : Layout) : g.finalFormat id declared =
      if declared.format.isChosen then declared.format
      else (((inputs.filter Input.isReal).map fun input =>
        g.finalFormat input.edge.node input.layout).find? (·.fits declared.rank)).getD
          (.defaultFor declared.rank) := by
  rw [finalFormat, hinputs, Option.getD_some]
  have hguard : (inputs.filter Input.isReal).map (fun input =>
      if input.edge.node.index < id.index then g.finalFormat input.edge.node input.layout
      else .any) = (inputs.filter Input.isReal).map fun input =>
        g.finalFormat input.edge.node input.layout := by
    refine List.map_congr_left fun input hmem => if_pos ?_
    have hinput := (mem_inputs?_iff hinputs).1 (List.mem_filter.1 hmem).1
    obtain ⟨node, hnode, hdep, _⟩ := input?_eq_some_iff.1 hinput
    exact hg.earlier hnode (List.mem_of_getElem? hdep)
  rw [hguard]

theorem isChosen_finalFormat (id : NodeId) (declared : Layout) :
    (g.finalFormat id declared).isChosen = true := by
  rw [finalFormat]
  split
  next hchosen => exact hchosen
  next =>
    dsimp only
    generalize hfound : List.find? _ _ = found
    cases found with
    | none => exact Format.isChosen_iff_ne.2 (Format.defaultFor_ne_any _)
    | some format => exact Format.isChosen_of_fits (List.find?_some hfound :)

theorem content_finalNode : (g.finalNode id node).content = node.content := by
  unfold finalNode
  split
  next => rfl
  next => simp [Node.content, Node.meaning, Layout.withFormat, Function.comp_def]

theorem outline_finalNode : (g.finalNode id node).outline = node.outline := by
  unfold finalNode
  split
  next => rfl
  next => simp [Node.outline, Layout.withFormat, Function.comp_def]

theorem isConstant_finalNode : (g.finalNode id node).isConstant = node.isConstant :=
  Node.isConstant_congr (Node.op_of_content content_finalNode)

theorem chosen_finalNode (hdata : node.isConstant = false) : (g.finalNode id node).Chosen := by
  intro layout hmem
  rw [finalNode, hdata, if_neg Bool.false_ne_true] at hmem
  obtain ⟨declared, _, rfl⟩ := List.mem_map.1 hmem
  exact isChosen_finalFormat id declared

theorem prefers_finalNode : (g.finalNode id node).prefers = node.prefers := by
  unfold finalNode
  split <;> rfl

/-! ## The first sweep -/

/-- What a sweep has made of the graph when it is past some nodes: those are final, and the others
are as they were declared. -/
structure Finalized (g : Graph) (done : List NodeId) (g' : Graph) : Prop where
  order : g'.order = g.order
  nodes : ∀ id, g'.node? id =
    (g.node? id).map fun node => if id ∈ done then g.finalNode id node else node

theorem Finalized.alike {done : List NodeId} (h : Finalized g done g') : Alike g g' := by
  have hsame : ∀ {α : Type} {proj : Node → α},
      (∀ id node, proj (g.finalNode id node) = proj node) → Same proj g g' := by
    intro α proj hproj id
    rw [h.nodes, Option.map_map]
    refine congrArg (Option.map · _) (funext fun node => ?_)
    simp only [Function.comp_apply]
    split
    · exact hproj id node
    · rfl
  exact ⟨⟨h.order, hsame fun _ _ => content_finalNode⟩, hsame fun _ _ => outline_finalNode⟩

/-- An input as it is when its producer is final. -/
def finalInput (g : Graph) (input : Input) : Input :=
  { input with
    producer := g.finalNode input.edge.node input.producer
    layout := if input.producer.isConstant then input.layout
      else input.layout.withFormat (g.finalFormat input.edge.node input.layout) }

theorem isReal_finalInput (input : Input) : (g.finalInput input).isReal = input.isReal := by
  simp only [Input.isReal, finalInput, isConstant_finalNode]

theorem Finalized.follow? {done : List NodeId} (h : Finalized g done g') {edge : Edge}
    (hread : edge.node ∈ done) (slot : Nat) :
    g'.follow? edge slot = (g.follow? edge slot).map g.finalInput := by
  unfold Graph.follow?
  rw [h.nodes]
  cases hproducer : g.node? edge.node with
  | none => rfl
  | some producer =>
    simp only [Option.map_some, hread, if_true, Option.bind_eq_bind, Option.bind_some, finalNode]
    cases hconstant : producer.isConstant <;> cases hlayout : producer.outputs[edge.output]? <;>
      simp [hlayout, finalInput, hconstant, finalNode]

/-- What a node inherits when all that it reads is final. -/
theorem Finalized.inheritedFormats? {done : List NodeId} (h : Finalized g done g')
    (hnode : g.node? id = some node) (hread : ∀ edge ∈ node.deps, edge.node ∈ done)
    {inputs : List Input} (hinputs : g.inputs? id = some inputs) :
    g'.inheritedFormats? id = some ((inputs.filter Input.isReal).map fun input =>
      g.finalFormat input.edge.node input.layout) := by
  obtain ⟨node', hnode', hdeps⟩ := h.alike.content.wiring.deps.exists_new hnode
  have hfollow : ∀ dep ∈ node.deps.zipIdx,
      g'.follow? dep.1 dep.2 = (g.follow? dep.1 dep.2).map g.finalInput :=
    fun dep hdep => h.follow? (hread dep.1 (List.fst_mem_of_mem_zipIdx hdep)) dep.2
  have hinputs' : g'.inputs? id = some (inputs.map g.finalInput) := by
    unfold inputs? at hinputs ⊢
    rw [hnode, Option.bind_eq_bind, Option.bind_some] at hinputs
    rw [hnode', Option.bind_eq_bind, Option.bind_some, hdeps, mapM_eq_map hfollow, hinputs,
      Option.map_some]
  simp only [Graph.inheritedFormats?, hinputs', Option.bind_eq_bind, Option.bind_some,
    Option.pure_def, List.filter_map, Function.comp_def, isReal_finalInput, List.map_map]
  refine congrArg some (List.map_congr_left fun input hmem => ?_)
  have hdata : input.producer.isConstant = false := by
    simpa [Input.isReal] using (List.mem_filter.1 hmem).2
  simp [finalInput, hdata, Layout.withFormat]

/-- Settling a declared node whose inputs are final makes it final. -/
theorem Fresh.resolved_eq (hg : g.Fresh) (hnode : g.node? id = some node)
    (hdata : node.isConstant = false) {inputs : List Input} (hinputs : g.inputs? id = some inputs) :
    node.resolved ((inputs.filter Input.isReal).map fun input =>
      g.finalFormat input.edge.node input.layout) = g.finalNode id node := by
  obtain ⟨hprefers, _, _, _, hstale⟩ := hg.undecided hnode
  have hnone : ∀ index rank, (node.prefers.output index).fits rank = false := by
    intro index rank
    simp [hprefers, FormatPreference.output, Format.fits, Format.axes?]
  rw [Node.resolved, hstale, if_neg Bool.false_ne_true, finalNode, hdata,
    if_neg Bool.false_ne_true]
  have houtputs : node.settledOutputs ((inputs.filter Input.isReal).map fun input =>
      g.finalFormat input.edge.node input.layout) =
      node.outputs.map fun layout => layout.withFormat (g.finalFormat id layout) := by
    apply List.ext_getElem?
    intro index
    simp only [Node.settledOutputs, List.getElem?_mapIdx, List.getElem?_map, Node.settledFormat,
      hnone, Bool.false_eq_true, if_false, finalFormat_eq hg.toOrdered hinputs]
  rw [houtputs]

end Graph

namespace Construction

variable {g : Graph}

theorem finalized_step (hg : g.Fresh) (hclass : g.Classified) {done rest : List NodeId}
    {id : NodeId} (hsplit : g.order = done ++ id :: rest) {g₁ : Graph} (h : g.Finalized done g₁) :
    Yields (do if (← g₁.node? id).isConstant then return g₁ else g₁.settle? id)
      (g.Finalized (done ++ [id])) := by
  have horder := hg.toOrdered.arranged.inOrder
  have hmem : id ∈ g.order := by simp [hsplit]
  have hnew := horder.listed.not_mem_of_split hsplit
  obtain ⟨node, hnode⟩ := Graph.exists_node (horder.listed.lt_size hmem)
  have hnode₁ : g₁.node? id = some node := by
    rw [h.nodes, hnode, Option.map_some, if_neg hnew]
  have hdone : ∀ {g₂ : Graph}, g₂.order = g₁.order → g₂.node? id = some (g.finalNode id node) →
      (∀ other, other ≠ id → g₂.node? other = g₁.node? other) →
      g.Finalized (done ++ [id]) g₂ := by
    intro g₂ horder₂ hself hothers
    refine ⟨horder₂.trans h.order, fun other => ?_⟩
    by_cases hne : other = id
    · subst hne
      rw [hself, hnode, Option.map_some, if_pos (by simp)]
    · rw [hothers other hne, h.nodes]
      simp [hne]
  refine Yields.bind_eq hnode₁ ?_
  split
  next hconstant =>
    refine Yields.pure (hdone rfl ?_ fun _ _ => rfl)
    rw [hnode₁, Graph.finalNode, if_pos hconstant]
  next hdata =>
    replace hdata : node.isConstant = false := by simpa using hdata
    have hwf := h.alike.wellFormed hg.wellFormed
    have hreaders : ∀ reader ∈ done ++ [id], reader ∉ node.users := fun reader hreader huser =>
      horder.not_reads hsplit hreader ((hg.wellFormed.users_iff reader hnode).1 huser)
    obtain ⟨inputs, hinputs, _⟩ := hg.wellFormed.exists_inputs hnode
    refine (Graph.settle?_resolves hwf (h.alike.classified hclass) hnode₁
      (hreaders id (by simp))).mono ?_
    rintro g₂ ⟨horder₂, inherited, hinherited, hself, hothers⟩
    rw [h.inheritedFormats? hnode (fun _ => horder.produced hsplit hnode) hinputs,
      Option.some.injEq] at hinherited
    rw [← hinherited, hg.resolved_eq hnode hdata hinputs] at hself
    refine hdone horder₂ hself fun other hne => ?_
    -- A reader has not been visited, so it is stale already.
    rw [hothers other hne]
    cases hother : g₁.node? other with
    | none => rfl
    | some found =>
      rw [Option.map_some]
      split
      next hmarked =>
        have hlater : other ∉ done := fun hearlier =>
          hreaders other (List.mem_append_left _ hearlier) hmarked.2
        rw [h.nodes, Option.map_eq_some_iff] at hother
        obtain ⟨declared, hdeclared, rfl⟩ := hother
        rw [if_neg hlater, Node.stale, ← (hg.undecided hdeclared).layoutValid]
      next => rfl

/-- A sweep over a declared graph gives every output the format it comes to. -/
theorem settleAll?_eq_final (hg : g.Fresh) (hclass : g.Classified) :
    settleAll? g = some g.final := by
  have hsweep : Yields (settleAll? g) (g.Finalized g.order) :=
    Yields.foldlM g.Finalized ⟨rfl, fun id => by simp⟩
      fun done id rest g₁ hsplit h => finalized_step hg hclass hsplit h
  refine Yields.eq_some (hsweep.mono fun g' h => Graph.ext_node? h.order fun id => ?_)
  rw [h.nodes, Graph.node?_final]
  cases hnode : g.node? id with
  | none => rfl
  | some node =>
    have hmem := hg.listsAll.mem_of_lt (Graph.lt_size_of_node? hnode)
    rw [Option.map_some, Option.map_some, if_pos hmem]

/-! ## Later sweeps -/

theorem alike_outdated (stale : NodeId → Bool) : g.Alike (g.final.outdated stale) := by
  have hsame : ∀ {α : Type} {proj : Node → α},
      (∀ id node, proj (g.finalNode id node) = proj node) →
      (∀ node : Node, proj node.stale = proj node) → g.Same proj (g.final.outdated stale) := by
    intro α proj hproj hflag id
    rw [Graph.node?_outdated, Graph.node?_final, Option.map_map, Option.map_map]
    refine congrArg (Option.map · _) (funext fun node => ?_)
    simp only [Function.comp_apply]
    split
    · rw [hflag, hproj]
    · rw [hproj]
  exact ⟨⟨rfl, hsame (fun _ _ => Graph.content_finalNode) fun _ => rfl⟩,
    hsame (fun _ _ => Graph.outline_finalNode) fun _ => rfl⟩

/-- Settling a node of the final graph, stale or not, takes its mark away and changes nothing
else. -/
theorem settle?_outdated (hg : g.Fresh) (hclass : g.Classified) {id : NodeId} {node : Node}
    (hnode : g.node? id = some node) (hdata : node.isConstant = false) (stale : NodeId → Bool) :
    (g.final.outdated stale).settle? id =
      some (g.final.outdated fun other => stale other && other ≠ id) := by
  have halike := alike_outdated (g := g) stale
  have hnode' : (g.final.outdated stale).node? id =
      some (if stale id then (g.finalNode id node).stale else g.finalNode id node) := by
    rw [Graph.node?_outdated, Graph.node?_final, hnode, Option.map_some, Option.map_some]
  have hvalid : (g.finalNode id node).layoutValid = true := by
    rw [Graph.finalNode, hdata, if_neg Bool.false_ne_true]
  generalize hfound : (if stale id then (g.finalNode id node).stale else g.finalNode id node) =
    found at hnode'
  have hresolved : ∀ inherited, found.resolved inherited = g.finalNode id node ∧
      found.outputs = (g.finalNode id node).outputs := by
    intro inherited
    have hhonours : (g.finalNode id node).Honours :=
      Node.honours_of_prefers (Graph.prefers_finalNode.trans (hg.undecided hnode).prefers)
    have hchosen : (g.finalNode id node).Chosen := Graph.chosen_finalNode hdata
    have hflag : { g.finalNode id node with layoutValid := true } = g.finalNode id node := by
      rw [← hvalid]
    rw [← hfound]
    split
    · have hstale : (g.finalNode id node).stale.Honours := hhonours
      exact ⟨(hstale.resolved_eq hchosen inherited).trans hflag, rfl⟩
    · exact ⟨(hhonours.resolved_eq hchosen inherited).trans hflag, rfl⟩
  have hself : id ∉ found.users :=
    (hg.toOrdered.of_sameContent halike.content).not_mem_users hnode' (Nat.le_refl _)
  refine Yields.eq_some ((Graph.settle?_resolves (halike.wellFormed hg.wellFormed)
    (halike.classified hclass) hnode' hself).mono ?_)
  rintro g₁ ⟨horder, inherited, _, hnew, hothers⟩
  obtain ⟨hfinal, houtputs⟩ := hresolved inherited
  refine Graph.ext_node? horder fun other => ?_
  by_cases hne : other = id
  · subst hne
    rw [hnew, hfinal, Graph.node?_outdated, Graph.node?_final, hnode]
    simp
  · rw [hothers other hne, Graph.node?_outdated, Graph.node?_outdated]
    simp [hfinal, houtputs, hne, Function.comp_def]

/-- Constants are never marked. -/
theorem outdated_of_constant (hg : g.Fresh) {id : NodeId} {node : Node}
    (hnode : g.node? id = some node) (hconstant : node.isConstant = true) (stale : NodeId → Bool) :
    g.final.outdated stale = g.final.outdated fun other => stale other && other ≠ id := by
  have hstale : (g.finalNode id node).stale = g.finalNode id node := by
    rw [Graph.finalNode, if_pos hconstant, Node.stale, ← (hg.undecided hnode).layoutValid]
  refine Graph.ext_node? rfl fun other => ?_
  rw [Graph.node?_outdated, Graph.node?_outdated]
  by_cases hne : other = id
  · subst hne
    simp [Graph.node?_final, hnode, hstale]
  · simp [hne]

/-- Whichever nodes of the final graph are stale, a sweep leads back to it. -/
theorem settleAll?_outdated (hg : g.Fresh) (hclass : g.Classified) (stale : NodeId → Bool) :
    settleAll? (g.final.outdated stale) = some g.final := by
  have hsweep : Yields (settleAll? (g.final.outdated stale)) fun g' =>
      g' = g.final.outdated fun id => stale id && id ∉ g.order := by
    refine Yields.foldlM (fun done g' => g' = g.final.outdated fun id => stale id && id ∉ done)
      (by simp) ?_
    rintro done id rest _ hsplit rfl
    have hmem : id ∈ g.order := by
      have horder : g.order = done ++ id :: rest := hsplit
      simp [horder]
    obtain ⟨node, hnode⟩ := Graph.exists_node (hg.listsAll.lt_size hmem)
    have hone : (fun other : NodeId => (stale other && other ∉ done) && other ≠ id) =
        fun other => stale other && other ∉ done ++ [id] := by
      funext other
      simp [Bool.and_assoc]
    obtain ⟨found, hfound, hcontent⟩ :=
      (alike_outdated fun other => stale other && other ∉ done).content.nodes.exists_new hnode
    refine Yields.bind_eq hfound ?_
    rw [Node.isConstant_congr (Node.op_of_content hcontent)]
    split
    next hconstant =>
      refine Yields.pure ?_
      rw [outdated_of_constant hg hnode hconstant, hone]
    next hdata =>
      refine .of_eq (settle?_outdated hg hclass hnode (by simpa using hdata) _) ?_
      rw [hone]
  refine Yields.eq_some (hsweep.mono fun g' h => h.trans ?_)
  refine Graph.ext_node? rfl fun id => ?_
  rw [Graph.node?_outdated]
  cases hnode : g.final.node? id with
  | none => rfl
  | some node =>
    have hmem : id ∈ g.order := by
      refine hg.listsAll.mem_of_lt ?_
      have hlt := Graph.lt_size_of_node? hnode
      simpa [Graph.final, Graph.size] using hlt
    simp [hmem]

end Construction

/-- `g'` is `g` with every output of every node, constants apart, in the format that it inherits. -/
structure Graph.Inherits (g g' : Graph) : Prop where
  /-- The format of an output: the declared one, else that of the first real input whose format fits
  the rank, else the default of the rank. -/
  rule : ∀ {id inputs declared}, g.inputs? id = some inputs → g.finalFormat id declared =
    if declared.format.isChosen then declared.format
    else (((inputs.filter Input.isReal).map fun input =>
      g.finalFormat input.edge.node input.layout).find? (·.fits declared.rank)).getD
        (.defaultFor declared.rank)
  order_eq : g'.order = g.order
  size_eq : g'.size = g.size
  constants : ∀ {id node}, g.node? id = some node → node.isConstant = true →
    g'.node? id = some node
  data : ∀ {id node}, g.node? id = some node → node.isConstant = false →
    g'.node? id = some { node with
      outputs := node.outputs.map fun layout => layout.withFormat (g.finalFormat id layout)
      layoutValid := true }

/-- A sweep over a declared graph gives every output the format that it inherits and settles every
node.  Marking nodes stale, be it all of them, and sweeping again leads to the same graph. -/
theorem inherited_formats_of_sweep {decls : List NodeDecl} {g : Graph}
    (hbuild : Graph.build? decls = some (.ok g)) :
    ∃ g', Construction.settleAll? g = some g' ∧ g.Inherits g' ∧
      ∀ stale, Construction.settleAll? (g'.outdated stale) = some g' := by
  have hg := Graph.fresh_of_build hbuild
  have hclass := Graph.classified_of_build hbuild
  refine ⟨g.final, Construction.settleAll?_eq_final hg hclass,
    ⟨fun hinputs => Graph.finalFormat_eq hg.toOrdered hinputs _, rfl, ?_,
      fun hnode hconstant => ?_, fun hnode hdata => ?_⟩,
    Construction.settleAll?_outdated hg hclass⟩
  · simp [Graph.final, Graph.size]
  · rw [Graph.node?_final, hnode, Option.map_some, Graph.finalNode, if_pos hconstant]
  · rw [Graph.node?_final, hnode, Option.map_some, Graph.finalNode, hdata,
      if_neg Bool.false_ne_true]

/-- A sum of a constant, a volume and an image.  Its own rank is that of the image; the copy of it
has the rank of the volume. -/
def unevenRanks : List NodeDecl :=
  let plane : Shape := .ofExtents [1, 8, 4, 4]
  let volume : Shape := .ofExtents [1, 8, 4, 4, 4]
  [{ name := "bias", op := .constant, outputs := [⟨plane, .f32, .byxf, {}⟩] },
    { name := "volume", op := .input, outputs := [⟨volume, .f32, .bFsZyxFsv16, {}⟩] },
    { name := "image", op := .input, outputs := [⟨plane, .f32, .yxfb, {}⟩] },
    { name := "sum", op := .eltwise, inputs := [⟨⟨0⟩, 0⟩, ⟨⟨1⟩, 0⟩, ⟨⟨2⟩, 0⟩],
      outputs := [⟨plane, .f32, .any, {}⟩] },
    { name := "clipped", op := .activation, inputs := [⟨⟨3⟩, 0⟩],
      outputs := [⟨plane, .f32, .any, {}⟩] },
    { name := "stacked", op := .reshape, inputs := [⟨⟨3⟩, 0⟩],
      outputs := [⟨volume, .f32, .any, {}⟩] }]

/-- The sum takes the format of the image, as a constant does not count and that of the volume does
not fit.  It is handed on where it fits. -/
theorem inherited_formats_unevenRanks : ∃ g, Graph.build? unevenRanks = some (.ok g) ∧
    (Construction.settleAll? g).map (·.nodes.map fun node => node.outputs.map Layout.format) =
      some [[.byxf], [.bFsZyxFsv16], [.yxfb], [.yxfb], [.yxfb], [.bfzyx]] ∧
    ∃ g', Construction.settleAll? g = some g' ∧ g.Inherits g' ∧
      ∀ stale, Construction.settleAll? (g'.outdated stale) = some g' :=
  ⟨_, rfl, rfl, @inherited_formats_of_sweep unevenRanks _ rfl⟩

end LayoutPlanner
