import LayoutPlanner.Proofs.Pipelines

/-!
# Honoured formats

All through planning, a preferred output format that fits the rank is the format of the output.
Settling an output once more then changes nothing, unless no format was chosen for it.  So the
layouts that edge agreement has looked at are still there when construction is over
(`Constructed.output_eq`).  `Completed` lays out a plan that ended well, with this and what else is
known of its stages.
-/

namespace LayoutPlanner

/-- A node without preferences honours them. -/
theorem Node.honours_of_prefers {node : Node} (h : node.prefers = {}) : node.Honours := by
  intro index layout _ hfits
  rw [h] at hfits
  exact absurd hfits (by simp [FormatPreference.output, Format.fits, Format.axes?])

theorem Node.Honours.of_core {a b : Node} (h : a.core = b.core) (ha : a.Honours) : b.Honours := by
  intro index layout hlayout hfits
  rw [← Node.prefers_of_core h] at hfits ⊢
  exact ha index layout (by rw [Node.outputs_of_core h, hlayout]) hfits

/-- Every node honours its preferences. -/
def Graph.Honours (g : Graph) : Prop :=
  ∀ {id node}, g.node? id = some node → node.Honours

theorem Graph.Fresh.honours {g : Graph} (hg : g.Fresh) : g.Honours :=
  fun hnode => Node.honours_of_prefers (hg.undecided hnode).prefers

namespace Propagation

theorem Change.honours {catalog : Catalog} {g : Graph} {id : NodeId} {node node' : Node}
    (h : Change catalog g id node node') (hnode : node.Honours) : node'.Honours := by
  cases h with
  | same h => exact hnode.congr h.symm
  | settled inherited _ h =>
    exact ((node.settlesTo_afterSettling inherited).honours hnode).congr h.symm
  | selected kind h =>
    refine Node.Honours.congr h.symm ?_
    exact hnode
  | recorded _ _ _ inherited _ h => exact (Node.honours_settled _ inherited).congr h.symm
  | @forced output houtput _ h =>
    refine Node.Honours.congr h.symm fun index layout hlayout hfits => ?_
    rw [FormatPreference.output_setOutput] at hfits ⊢
    split at hfits
    next hzero =>
      subst hzero
      rw [if_pos rfl, Option.some.inj (hlayout.symm.trans houtput)]
    next hne =>
      rw [if_neg hne]
      exact hnode index layout hlayout hfits
  | @folded target format _ _ htarget _ h =>
    refine Node.Honours.congr h.symm fun index layout hlayout hfits => ?_
    rw [FormatPreference.output_setOutput] at hfits ⊢
    split at hfits
    next hzero =>
      subst hzero
      rw [if_pos rfl]
      rw [List.getElem?_set_self (List.getElem?_eq_some_iff.1 htarget).1] at hlayout
      rw [← Option.some.inj hlayout]
      rfl
    next hne =>
      rw [if_neg hne]
      rw [List.getElem?_set_ne fun heq => hne heq.symm] at hlayout
      exact hnode index layout hlayout hfits

theorem honours_of_sweep {catalog : Catalog} {g : Graph} (hg : g.Fresh) :
    Yields (g.order.foldlM (visit? catalog) { graph := g }) fun s =>
      Graph.SameContent g s.graph ∧ s.graph.Honours := by
  exact run?_forall hg.toOrdered Node.Honours hg.honours Change.honours

end Propagation

namespace Reconciliation

theorem Change.honours {node node' : Node} (h : Change node node') (hnode : node.Honours) :
    node'.Honours := by
  cases h with
  | same h => exact hnode.of_core h.symm
  | settled inherited h =>
    exact ((node.settlesTo_afterSettling inherited).honours hnode).of_core h.symm
  | legalized base hbase h =>
    have hbase_honours : base.Honours := by
      rcases hbase with hsame | ⟨_, hhanded⟩
      · exact hnode.of_core hsame.symm
      · refine Node.Honours.of_core hhanded.symm ?_
        exact hnode
    rcases h with hsame | ⟨_, _, hadopts⟩
    · exact hbase_honours.of_core hsame.symm
    · exact hadopts.honours

theorem honours_of_run {cx : Context} {start : Graph} (hstart : start.Ordered)
    (hhonours : start.Honours) :
    Yields (start.order.foldlM (visit? cx) { graph := start }) fun s =>
      Sound start s ∧ s.graph.Honours := by
  refine (run?_forall hstart Node.Honours hhonours Change.honours).mono ?_
  rintro s ⟨hs, hold⟩
  refine ⟨hs, fun {id node} hnode => ?_⟩
  by_cases hlt : id.index < start.size
  · exact hold hlt hnode
  · exact Node.honours_of_prefers (hs.inserted hnode (Nat.not_lt.1 hlt)).prefers

end Reconciliation

namespace Construction

variable {g settled g' : Graph}

/-- Settling keeps all of an input but a format that was not chosen. -/
theorem Settles.exists_input (h : Settles g settled) (hhonours : g.Honours) {id : NodeId}
    {slot : Nat} {input : Input} (hinput : g.input? id slot = some input) :
    ∃ input', settled.input? id slot = some input' ∧
      input'.producer.content = input.producer.content ∧
      input'.layout.withFormat .any = input.layout.withFormat .any ∧
      (input.layout.format.isChosen → input'.layout = input.layout) := by
  obtain ⟨input', hinput', hedge, hcontent, hlayout⟩ := h.content.exists_input hinput
  refine ⟨input', hinput', hcontent, hlayout, fun hchosen => ?_⟩
  obtain ⟨_, _, _, _, hproducer, houtput⟩ := Graph.input?_eq_some_iff.1 hinput
  obtain ⟨_, _, _, _, hproducer', houtput'⟩ := Graph.input?_eq_some_iff.1 hinput'
  obtain ⟨_, hfound, hsettles, _⟩ := h.nodes hproducer
  rw [hedge] at hproducer' houtput'
  obtain rfl := Option.some.inj (hproducer'.symm.trans hfound)
  have hkept := hsettles.chosen (hhonours hproducer) houtput hchosen
  exact Option.some.inj (houtput'.symm.trans hkept)

/-- Storing implementations keeps the inputs. -/
theorem Installs.exists_input (h : Installs settled g') {id : NodeId} {slot : Nat} {input : Input}
    (hinput : settled.input? id slot = some input) :
    ∃ input', g'.input? id slot = some input' ∧ input'.producer.content = input.producer.content ∧
      input'.layout = input.layout := by
  obtain ⟨input', hinput', hedge, hcontent, _⟩ := h.content.exists_input hinput
  refine ⟨input', hinput', hcontent, ?_⟩
  obtain ⟨_, _, _, _, hproducer, houtput⟩ := Graph.input?_eq_some_iff.1 hinput
  obtain ⟨_, _, _, _, hproducer', houtput'⟩ := Graph.input?_eq_some_iff.1 hinput'
  obtain ⟨_, hfound, hsame⟩ := h.nodes hproducer
  rw [hedge] at hproducer' houtput'
  obtain rfl := Option.some.inj (hproducer'.symm.trans hfound)
  have houtputs := Node.outputs_of_bare hsame
  dsimp only at houtputs
  rw [houtputs] at houtput'
  exact Option.some.inj (houtput'.symm.trans houtput)

/-- Construction does not change what a node prefers. -/
theorem Constructed.prefers_eq {cx : Context} {out : Outcome} (h : Constructed cx g out settled)
    {id : NodeId} {node node' : Node} (hnode : g.node? id = some node)
    (hnode' : out.graph.node? id = some node') : node'.prefers = node.prefers := by
  obtain ⟨node₁, hnode₁, hsettles, _⟩ := h.settles.nodes hnode
  obtain ⟨_, hfound, hsame⟩ := h.installs.nodes hnode₁
  obtain rfl := Option.some.inj (hnode'.symm.trans hfound)
  have hinstalled := Node.prefers_of_bare hsame
  exact Eq.trans hinstalled hsettles.kept.2.2.2.1

/-- Construction leaves a chosen format alone. -/
theorem Constructed.output_eq {cx : Context} {out : Outcome} (h : Constructed cx g out settled)
    (hhonours : g.Honours) {id : NodeId} {node node' : Node} (hnode : g.node? id = some node)
    (hnode' : out.graph.node? id = some node') {index : Nat} {layout : Layout}
    (hlayout : node.outputs[index]? = some layout) (hchosen : layout.format.isChosen = true) :
    node'.outputs[index]? = some layout := by
  obtain ⟨node₁, hnode₁, hsettles, _⟩ := h.settles.nodes hnode
  obtain ⟨_, hfound, hsame⟩ := h.installs.nodes hnode₁
  obtain rfl := Option.some.inj (hnode'.symm.trans hfound)
  have houtputs := Node.outputs_of_bare hsame
  dsimp only at houtputs
  rw [houtputs]
  exact hsettles.chosen (hhonours hnode) hlayout hchosen

end Construction

/-- A plan that ended well, stage by stage, with what later proofs know of each stage. -/
structure Completed (cx : Context) (g : Graph) (swept : Propagation.State)
    (agreed : Reconciliation) (settled : Graph) (out : Outcome) : Prop where
  sweeps : g.order.foldlM (Propagation.visit? cx.catalog) { graph := g } = some swept
  content : g.SameContent swept.graph
  ordered : swept.graph.Ordered
  agrees : swept.graph.order.foldlM (Reconciliation.visit? cx) { graph := swept.graph } =
    some agreed
  fine : agreed.failure = none
  sound : Reconciliation.Sound swept.graph agreed
  honours : agreed.graph.Honours
  builds : Construction.run? cx agreed.graph = some out
  constructed : Construction.Constructed cx agreed.graph out settled
  built : out.error? = none

theorem exists_completed {cx : Context} {g : Graph} (hg : g.Fresh) {out : Outcome}
    (hplan : plan? cx g = some out) {report : Report} (hok : out.result = .ok report) :
    ∃ swept agreed settled built, out.graph = built.graph ∧
      Completed cx g swept agreed settled built := by
  have hplanned := (plan?_spec cx hg).post_of_eq hplan
  obtain ⟨swept, agreed, built, hswept, hagreed, hfine, hbuilt, hgraph, hbuilt_fine⟩ :=
    hplanned.built_of_fine (Outcome.error?_eq_none_iff.2 ⟨report, hok⟩)
  obtain ⟨hsame, hhonours⟩ := (Propagation.honours_of_sweep hg).post_of_eq hswept
  have hstart := hg.toOrdered.of_sameContent hsame
  obtain ⟨hsound, hhonours'⟩ := (Reconciliation.honours_of_run hstart hhonours).post_of_eq hagreed
  obtain ⟨settled, hdone⟩ :=
    (Construction.run?_spec cx hsound.wellFormed hsound.listed).post_of_eq hbuilt
  exact ⟨swept, agreed, settled, built, hgraph, hswept, hsame, hstart, hagreed, hfine, hsound,
    hhonours', hbuilt, hdone, hbuilt_fine⟩

end LayoutPlanner
