import LayoutPlanner.Builtin.Catalog
import LayoutPlanner.Proofs.Pipelines

/-!
# Contraction

Planning puts reorders on edges and does nothing else to what a graph computes.  Contracting the
reorders gives the old graph back: every old node means what it did, and each of its slots reads its
old edge, directly or through a single reorder.

Propagation and construction keep the content of the graph, and for edge agreement this is what
soundness of its state says.
-/

namespace LayoutPlanner

namespace Graph

/-- The node `id` was added to `g`, and is a reorder on `edge` that keeps its shape. -/
def IsReorderOn (g g' : Graph) (edge : Edge) (id : NodeId) : Prop :=
  g.size ≤ id.index ∧ ∃ node target layout, g'.node? id = some node ∧ node.op = .reorder ∧
    node.deps = [edge] ∧ node.outputs = [target] ∧ g'.layoutAt? edge = some layout ∧
    target.shape = layout.shape

/-- Contracting the added reorders turns `g'` into `g`, except for formats. -/
structure Contracts (g g' : Graph) : Prop where
  kept : ∀ {id node}, g.node? id = some node → ∃ node', g'.node? id = some node' ∧
    node'.name = node.name ∧ node'.op = node.op ∧ node'.attrs = node.attrs ∧
    node'.fused = node.fused ∧
    node'.outputs.map (·.withFormat .any) = node.outputs.map (·.withFormat .any) ∧
    node'.deps.length = node.deps.length ∧
    ∀ {slot : Nat} {edge : Edge}, node.deps[slot]? = some edge →
      node'.deps[slot]? = some edge ∨
        ∃ reorder, node'.deps[slot]? = some ⟨reorder, 0⟩ ∧ IsReorderOn g g' edge reorder
  added : ∀ {id node}, g'.node? id = some node → g.size ≤ id.index →
    ∃ edge, edge.node.index < g.size ∧ IsReorderOn g g' edge id

/-- Two layouts that agree up to format have the same shape. -/
theorem exists_layout_of_map_eq {a b : Option Layout} {layout : Layout}
    (h : a.map (·.withFormat .any) = b.map (·.withFormat .any)) (hb : b = some layout) :
    ∃ found, a = some found ∧ found.shape = layout.shape := by
  obtain ⟨found, hfound, heq⟩ := exists_of_map_eq h hb
  exact ⟨found, hfound, (Layout.withFormat_any_eq_iff.1 heq).1⟩

/-- Editing the nodes one by one afterwards does not turn a reorder into something else. -/
theorem IsReorderOn.sameContent {g g' g'' : Graph} {edge : Edge} {id : NodeId}
    (h : IsReorderOn g g' edge id) (hsame : SameContent g' g'') : IsReorderOn g g'' edge id := by
  obtain ⟨hle, node, target, layout, hnode, hop, hdeps, houtputs, hlayout, hshape⟩ := h
  obtain ⟨node', hnode', hcontent⟩ := hsame.nodes.exists_new hnode
  obtain ⟨hmeaning, hdeps', _⟩ := Node.content_eq_iff.1 hcontent
  have houtputs' := Node.outputs_of_meaning hmeaning
  rw [houtputs] at houtputs'
  obtain ⟨target', houtputs', htarget'⟩ := List.map_eq_singleton_iff.1 houtputs'
  obtain ⟨layout', hlayout', hshape'⟩ := exists_layout_of_map_eq (hsame.layoutAt?_eq edge) hlayout
  refine ⟨hle, node', target', layout', hnode', (Node.op_of_meaning hmeaning).trans hop,
    hdeps'.trans hdeps, houtputs', hlayout', ?_⟩
  rw [hshape', (Layout.withFormat_any_eq_iff.1 htarget').1, hshape]

/-- Contraction does not notice edits of single nodes, before or after. -/
theorem Contracts.of_sameContent {g g₁ g₂ g' : Graph} (hbefore : SameContent g g₁)
    (h : Contracts g₁ g₂) (hafter : SameContent g₂ g') : Contracts g g' := by
  have hsize := hbefore.nodes.size_eq
  have hreorder : ∀ {edge id}, IsReorderOn g₁ g₂ edge id → IsReorderOn g g' edge id := by
    intro edge id hon
    obtain ⟨hle, hrest⟩ := hon.sameContent hafter
    exact ⟨hsize ▸ hle, hrest⟩
  refine ⟨fun {id node} hnode => ?_, fun {id node} hnode hle => ?_⟩
  · obtain ⟨node₁, hnode₁, hcontent₁⟩ := hbefore.nodes.exists_new hnode
    obtain ⟨node₂, hnode₂, hname, hop, hattrs, hfused, houtputs, hlength, hslots⟩ := h.kept hnode₁
    obtain ⟨node', hnode', hcontent'⟩ := hafter.nodes.exists_new hnode₂
    obtain ⟨hmeaning₁, hdeps₁, _⟩ := Node.content_eq_iff.1 hcontent₁
    obtain ⟨hmeaning', hdeps', _⟩ := Node.content_eq_iff.1 hcontent'
    refine ⟨node', hnode', ?_, ?_, ?_, ?_, ?_, ?_, ?_⟩
    · rw [Node.name_of_meaning hmeaning', hname, Node.name_of_meaning hmeaning₁]
    · rw [Node.op_of_meaning hmeaning', hop, Node.op_of_meaning hmeaning₁]
    · rw [Node.attrs_of_meaning hmeaning', hattrs, Node.attrs_of_meaning hmeaning₁]
    · rw [Node.fused_of_meaning hmeaning', hfused, Node.fused_of_meaning hmeaning₁]
    · rw [Node.outputs_of_meaning hmeaning', houtputs, Node.outputs_of_meaning hmeaning₁]
    · rw [hdeps', hlength, hdeps₁]
    · intro slot edge hedge
      rw [hdeps']
      rcases hslots (by rw [hdeps₁, hedge]) with hdirect | ⟨reorder, hfed, hon⟩
      · exact Or.inl hdirect
      · exact Or.inr ⟨reorder, hfed, hreorder hon⟩
  · obtain ⟨node₂, hnode₂, _⟩ := hafter.nodes.exists_old hnode
    obtain ⟨edge, hedge, hon⟩ := h.added hnode₂ (hsize ▸ hle)
    exact ⟨edge, hsize ▸ hedge, hreorder hon⟩

/-- A node with a single input reads it directly or through one reorder. -/
theorem Contracts.deps_of_singleton {g g' : Graph} (h : Contracts g g') {id : NodeId}
    {node node' : Node} {edge : Edge} (hnode : g.node? id = some node) (hdeps : node.deps = [edge])
    (hnode' : g'.node? id = some node') : node'.deps = [edge] ∨
      ∃ reorder, node'.deps = [⟨reorder, 0⟩] ∧ IsReorderOn g g' edge reorder := by
  obtain ⟨_, hfound, _, _, _, _, _, hlength, hslots⟩ := h.kept hnode
  obtain rfl := Option.some.inj (hnode'.symm.trans hfound)
  rw [hdeps, List.length_singleton] at hlength
  obtain ⟨current, hcurrent⟩ := List.length_eq_one_iff.1 hlength
  have hslot : node.deps[0]? = some edge := by simp [hdeps]
  rcases hslots hslot with hdirect | ⟨reorder, hfed, hon⟩
  · exact .inl (by simpa [hcurrent] using hdirect)
  · exact .inr ⟨reorder, by simpa [hcurrent] using hfed, hon⟩

protected theorem Contracts.refl (g : Graph) : Contracts g g := by
  refine ⟨fun {id node} hnode => ?_, fun hnode hle => ?_⟩
  · exact ⟨node, hnode, rfl, rfl, rfl, rfl, rfl, rfl, fun hedge => Or.inl hedge⟩
  · exact absurd (lt_size_of_node? hnode) (Nat.not_lt.2 hle)

end Graph

namespace Reconciliation

/-- A sound state contracts to the graph it started from. -/
theorem Sound.contracts {start : Graph} {s : Reconciliation} (hs : Sound start s) :
    start.Contracts s.graph := by
  have hon : ∀ {id node edge}, s.graph.node? id = some node → start.size ≤ id.index →
      node.deps = [edge] → start.IsReorderOn s.graph edge id ∧ edge.node.index < start.size := by
    intro id node edge hnode hle hdeps
    have hop := (hs.inserted hnode hle).op_eq
    obtain ⟨source, layout, target, hsource, hlayout, houtputs, hshape⟩ :=
      (hs.inserted hnode hle).converts
    obtain rfl : edge = source := by simpa [hdeps] using hsource
    have hlt : edge.node.index < start.size := by
      obtain ⟨_, hproducer, _⟩ := Graph.layoutAt?_eq_some_iff.1 hlayout
      exact Graph.lt_size_of_node? hproducer
    obtain ⟨layout', hlayout', hshape'⟩ :=
      Graph.exists_layout_of_map_eq (hs.layoutAt?_eq hlt) hlayout
    exact ⟨⟨hle, node, target, layout', hnode, hop, hdeps, houtputs, hlayout',
      hshape.trans hshape'.symm⟩, hlt⟩
  refine ⟨fun {id old} hold => ?_, fun {id node} hnode hle => ?_⟩
  · obtain ⟨node, hnode, hmeaning, hlength, hslots⟩ := hs.kept hold
    refine ⟨node, hnode, Node.name_of_meaning hmeaning, Node.op_of_meaning hmeaning,
      Node.attrs_of_meaning hmeaning, Node.fused_of_meaning hmeaning,
      Node.outputs_of_meaning hmeaning, hlength, ?_⟩
    intro slot edge hedge
    have hlt : slot < node.deps.length := by
      rw [hlength]
      exact (List.getElem?_eq_some_iff.1 hedge).1
    rcases hslots hedge (List.getElem?_eq_getElem hlt) with
      hdirect | ⟨reorder, converter, hfed, hle, hconverter, hdeps⟩
    · exact Or.inl (by rw [List.getElem?_eq_getElem hlt, hdirect])
    · exact Or.inr ⟨reorder, by rw [List.getElem?_eq_getElem hlt, hfed],
        (hon hconverter hle hdeps).1⟩
  · obtain ⟨source, _, _, hsource, _⟩ := (hs.inserted hnode hle).converts
    obtain ⟨hreorder, hlt⟩ := hon hnode hle hsource
    exact ⟨source, hlt, hreorder⟩

end Reconciliation

namespace Pipeline

variable {g g' : Graph} {stages : List Stage}

/-- The end of a run that is past edge agreement. -/
theorem contracts_past_agreement (cx : Context) (hwf : g'.WellFormed) (hlisted : g'.ListsAll)
    (h : g.Contracts g') (hstages : stages <+: [.construction]) (total : Report) (trace : Trace) :
    Yields (runStages? cx g' total trace stages) fun out => g.Contracts out.graph := by
  rcases List.prefix_cons_iff.1 hstages with rfl | ⟨rest, rfl, hrest⟩
  · exact Yields.pure h
  obtain rfl := List.prefix_nil.1 hrest
  refine runStages?_cons (fun g' _ => g.Contracts g') ?_ total trace
  refine (Construction.run?_spec cx hwf hlisted).mono ?_
  rintro out ⟨settled, hdone⟩
  have hout : g.Contracts out.graph :=
    .of_sameContent (.refl g) h hdone.content
  exact ⟨fun _ _ => hout, fun _ _ _ => Yields.pure hout⟩

/-- The end of a run that is past propagation. -/
theorem contracts_past_propagation (cx : Context) (hg' : g'.Ordered) (hsame : g.SameContent g')
    (hstages : stages <+: [.agreement, .construction]) (total : Report) (trace : Trace) :
    Yields (runStages? cx g' total trace stages) fun out => g.Contracts out.graph := by
  rcases List.prefix_cons_iff.1 hstages with rfl | ⟨rest, rfl, hrest⟩
  · exact Yields.pure (.of_sameContent hsame (.refl g') (.refl g'))
  refine runStages?_cons (fun g' _ => g.Contracts g') ?_ total trace
  refine (Reconciliation.run?_spec cx hg').mono ?_
  rintro out ⟨s, _, hs, hgraph, _⟩
  rw [hgraph]
  have hout : g.Contracts s.graph := .of_sameContent hsame hs.contracts (.refl s.graph)
  exact ⟨fun _ _ => hout, fun _ => contracts_past_agreement cx hs.wellFormed hs.listed hout hrest⟩

end Pipeline

/-- However far the standard pipeline is run, and however the run ends, contracting the added
reorders gives the built graph back. -/
theorem contracts_of_run {decls : List NodeDecl} {g : Graph}
    (hbuild : Graph.build? decls = some (.ok g)) (cx : Context) {stages : List Stage}
    (hstages : stages <+: Pipeline.standard) :
    ∃ out, Pipeline.run? stages cx g = some out ∧ g.Contracts out.graph := by
  have hg := Graph.fresh_of_build hbuild
  refine Pipeline.run?_spec (fun g' _ => g.Contracts g') hg fun total trace => ?_
  rcases List.prefix_cons_iff.1 hstages with rfl | ⟨rest, rfl, hrest⟩
  · exact Yields.pure (.refl g)
  refine Pipeline.runStages?_cons (fun g' _ => g.Contracts g') ?_ total trace
  refine (Propagation.run?_spec cx hg.toOrdered).mono ?_
  rintro out ⟨_, s, _, hgraph, hsame⟩
  rw [hgraph]
  exact ⟨fun _ _ => .of_sameContent hsame (.refl s.graph) (.refl s.graph),
    fun _ => Pipeline.contracts_past_propagation cx (hg.toOrdered.of_sameContent hsame) hsame hrest⟩

/-- Planning the convolution adds the one reorder, and contraction removes it. -/
theorem contracts_byteConvolution : ∃ g, Graph.build? byteConvolution = some (.ok g) ∧
    (Pipeline.run? Pipeline.standard { catalog := Builtin.catalog } g).map (·.graph.size) = some 3 ∧
    ∃ out, Pipeline.run? Pipeline.standard { catalog := Builtin.catalog } g = some out ∧
      g.Contracts out.graph :=
  ⟨_, rfl, rfl, @contracts_of_run byteConvolution _ rfl _ _ List.prefix_rfl⟩

end LayoutPlanner
