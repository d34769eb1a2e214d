import LayoutPlanner.Proofs.RestingVisits

/-!
# Running edge agreement again

Edge agreement is run on a graph that it has just aligned.  If every node is at rest, the second run
changes nothing but bookkeeping; if some node is not, the second run inserts a reorder or changes
the formats of a node.

* `Quiet` holds as long as the second run has done nothing that counts.  It knows which nodes have
  been marked stale: the readers of nodes at which a search was in vain.
* The first visit that finds a node out of rest ends the quiet (`Quiet.visit`), and what it did is
  not undone later (`Disturbed.visit`).
* So a graph is stable under edge agreement if and only if all its nodes rest (`isStable_iff`).
-/

namespace LayoutPlanner

/-- What edge agreement decides about a node, and where its inputs come from. -/
def Node.arrangement (node : Node) :
    List Edge × List Layout × FormatPreference × Option BackendKind :=
  (node.deps, node.outputs, node.prefers, node.pinned)

/-- Edge agreement ends well on the graph, inserts no reorder, demotes no node and leaves the
arrangement of every node as it is. -/
def Graph.IsStable (g : Graph) (cx : Context) : Prop :=
  ∃ out report, Reconciliation.run? cx g = some out ∧ out.result = .ok report ∧
    report.reordersInserted = 0 ∧ report.demotions = 0 ∧ g.Same Node.arrangement out.graph

/-- A visit to any node would find nothing to do. -/
def Graph.AtRest (g : Graph) (cx : Context) : Prop :=
  ∀ id node, g.node? id = some node → node.HasTurn → g.Rests cx id node

namespace Reconciliation

variable {g : Graph} {cx : Context} {id : NodeId} {node : Node} {s s' : Reconciliation}

/-! ## What is done stays done -/

theorem inserted_le_of_visit (hg : g.WellFormed) (hs : Sound g s) (hid : id.index < g.size)
    {before after : Reconciliation} (h : Visited g cx id s s' before after) :
    s.report.reordersInserted ≤ s'.report.reordersInserted := by
  refine h.inv hg hs hid (fun t => s.report.reordersInserted ≤ t.report.reordersInserted) ?_ ?_
    (Nat.le_refl _)
  · exact fun _ hle hmove => Nat.le_trans hle hmove.inserted_le
  · intro t t' _ hle hlegalized
    rw [hlegalized.inserted_eq]
    exact hle

/-- Visits of other nodes do not undo what a visit did. -/
theorem Disturbed.visit {earlier : NodeId} (h : Disturbed g earlier s) (hg : g.WellFormed)
    (hs : Sound g s) (hid : id.index < g.size) (hne : earlier ≠ id) :
    Yields (visit? cx s id) fun s' => Sound g s' ∧ Disturbed g earlier s' := by
  obtain ⟨node, hnode⟩ := Graph.exists_node (Nat.lt_of_lt_of_le hid hs.grown)
  refine (visit?_spec hg hs hid hnode).mono ?_
  rintro s' (⟨rfl, _⟩ | ⟨_, before, after, hvisited⟩)
  · exact ⟨hs, h⟩
  have hframed := hvisited.framed hg hs hid
  refine ⟨hframed.sound, ?_⟩
  rcases h with hmore | ⟨old, new, hold, hnew, hchanged⟩
  · exact Or.inl (Nat.lt_of_lt_of_le hmore (inserted_le_of_visit hg hs hid hvisited))
  · have hkept := hframed.others earlier (Graph.lt_size_of_node? hold) hne
    rw [hnew, Option.map_some, Option.map_eq_some_iff] at hkept
    obtain ⟨last, hlast, hbare⟩ := hkept
    refine Or.inr ⟨old, last, hold, hlast, ?_⟩
    rw [Node.outputs_of_bare hbare, Node.prefers_of_bare hbare]
    exact hchanged

/-! ## Nothing done so far -/

/-- The nodes visited so far were at rest, and nothing has happened that counts.  The nodes ahead
have been marked stale where they read from a node that searched in vain. -/
structure Quiet (g : Graph) (cx : Context) (visited : List NodeId) (s : Reconciliation) : Prop where
  fresh : s = { graph := s.graph }
  tidied : Graph.Tidied g s.graph
  rests : ∀ {id node}, id ∈ visited → g.node? id = some node → node.HasTurn → g.Rests cx id node
  valid : ∀ {id node node'}, id ∉ visited → g.node? id = some node →
    s.graph.node? id = some node' → (node'.layoutValid = true ↔ node.layoutValid = true ∧
      ∀ producer ∈ visited, g.Reads id producer → ¬g.Searches cx.catalog producer)

theorem quiet_start : Quiet g cx [] { graph := g } where
  fresh := rfl
  tidied := .refl g
  rests := by simp
  valid := by
    intro id node node' _ hnode hnode'
    obtain rfl := Option.some.inj (hnode.symm.trans hnode')
    simp

variable {visited ahead : List NodeId}

/-- When the turn of a node comes, all of its producers have been visited, so its flag tells whether
the node is settled for good. -/
theorem Quiet.rests_iff (h : Quiet g cx visited s) (haligned : g.Aligned cx)
    (hsplit : g.order = visited ++ id :: ahead) (hnode : g.node? id = some node) {nodeS : Node}
    (hnodeS : s.graph.node? id = some nodeS) :
    g.Rests cx id node ↔ (node.Chosen ∨ nodeS.layoutValid = true) ∧ g.Idles cx id node := by
  have hnew := haligned.listed.not_mem_of_split hsplit
  have hproducers : ∀ producer, g.Reads id producer → producer ∈ visited := by
    intro producer hreads
    obtain ⟨edge, hedge, rfl⟩ := (Graph.reads_iff_of_node? hnode).1 hreads
    exact haligned.produced hsplit hnode hedge
  have hflag : nodeS.layoutValid = true ↔ node.layoutValid = true ∧
      ∀ producer, g.Reads id producer → ¬g.Searches cx.catalog producer := by
    rw [h.valid hnew hnode hnodeS]
    exact and_congr_right fun _ => ⟨fun hall producer hreads => hall producer
      (hproducers producer hreads) hreads, fun hall producer _ => hall producer⟩
  rw [hflag]
  exact ⟨fun hrests => ⟨hrests.settled, hrests.toIdles⟩, fun hrests => ⟨hrests.2, hrests.1⟩⟩

/-- Quiet goes on when a node at rest has been visited, or one that has no turn. -/
theorem Quiet.extend (h : Quiet g cx visited s) (hfresh : s' = { graph := s'.graph })
    (htidied : Graph.Tidied g s'.graph) (hnode : g.node? id = some node)
    (hrests : node.HasTurn → g.Rests cx id node) {stale : List NodeId}
    (hmarks : Graph.Marks id stale s.graph s'.graph)
    (hstale : ∀ reader, reader ∈ stale ↔ g.Searches cx.catalog id ∧ g.Reads reader id) :
    Quiet g cx (visited ++ [id]) s' where
  fresh := hfresh
  tidied := htidied
  rests := by
    intro other found hmem hfound hturn
    rcases List.mem_append.1 hmem with hmem | hmem
    · exact h.rests hmem hfound hturn
    · obtain rfl := List.mem_singleton.1 hmem
      obtain rfl := Option.some.inj (hnode.symm.trans hfound)
      exact hrests hturn
  valid := by
    intro other old new hnew hold hfound
    rw [List.mem_append, List.mem_singleton, not_or] at hnew
    obtain ⟨mid, hmid, hflag⟩ := hmarks other new hnew.2 hfound
    rw [hflag, h.valid hnew.1 hold hmid, hstale, and_assoc]
    simp only [List.mem_append, List.mem_singleton, or_imp, forall_and, forall_eq, not_and]
    exact and_congr_right fun _ => and_congr_right fun _ => ⟨fun h hr hs => h hs hr,
      fun h hs hr => h hr hs⟩

/-- One visit of the second run: quiet goes on, or it ends with a node that is not at rest. -/
theorem Quiet.visit (h : Quiet g cx visited s) (hcatalog : cx.catalog.Tolerates)
    (haligned : g.Aligned cx) (hs : Sound g s) (hsplit : g.order = visited ++ id :: ahead) :
    Yields (visit? cx s id) fun s' => Sound g s' ∧ (Quiet g cx (visited ++ [id]) s' ∨
      Disturbed g id s' ∧ ∃ node, g.node? id = some node ∧ node.HasTurn ∧
        ¬g.Rests cx id node) := by
  have hg := haligned.wellFormed
  have hid : id.index < g.size := haligned.listed.lt_size (by simp [hsplit])
  obtain ⟨node, hnode⟩ := Graph.exists_node hid
  obtain ⟨nodeS, hnodeS, hbare⟩ := h.tidied.bare.exists_new hnode
  obtain ⟨s', hvisit, hspec⟩ : Yields (visit? cx s id) _ := visit?_spec hg hs hid hnodeS
  have hfine : s.failure = none := by rw [h.fresh]
  refine ⟨s', hvisit, ?_⟩
  rcases hspec with ⟨rfl, hskip⟩ | ⟨⟨_, hdeps, hreorder⟩, before, after, hvisited⟩
  · have hpass : ¬node.HasTurn := by
      intro hturn
      have hturnS := hturn.of_bare hbare
      rcases hskip with hfailed | hdeps | hreorder
      · simp [hfine] at hfailed
      · exact hturnS.deps hdeps
      · simp [hturnS.notReorder] at hreorder
    refine ⟨hs, Or.inl (h.extend h.fresh h.tidied hnode (fun hturn => absurd hturn hpass)
      (.refl id _) fun reader => ?_)⟩
    simp only [List.not_mem_nil, false_iff, not_and]
    exact fun hsearches => absurd (hsearches.hasTurn hnode) hpass
  · have hturn : node.HasTurn := Node.HasTurn.of_bare hbare.symm ⟨hdeps, hreorder⟩
    refine ⟨(hvisited.framed hg hs hid).sound, ?_⟩
    obtain ⟨s₁, s₂, s₃, s₄, s₅, s₆, hstages⟩ :=
      exists_stages (repairNode?_of_visit hnodeS hfine hdeps hreorder hvisit)
    have hrests := h.rests_iff haligned hsplit hnode hnodeS
    rcases hstages.verdict hcatalog haligned hs h.fresh h.tidied hnode hturn hnodeS with
      ⟨hrest, hfresh, htidied, stale, hmarks, hstale⟩ | ⟨hrestless, hdisturbed⟩
    · exact Or.inl (h.extend hfresh htidied hnode (fun _ => hrests.2 hrest) hmarks hstale)
    · exact Or.inr ⟨hdisturbed, node, hnode, hturn, fun hrest => hrestless (hrests.1 hrest)⟩

/-! ## Runs -/

/-- The second run is quiet to its end, or it meets a node that is not at rest and does something
for good. -/
theorem quiet_or_disturbed (hcatalog : cx.catalog.Tolerates) (haligned : g.Aligned cx) :
    Yields (g.order.foldlM (visit? cx) { graph := g }) fun s =>
      Quiet g cx g.order s ∨ ¬g.AtRest cx ∧ ∃ id, Disturbed g id s := by
  refine (Yields.foldlM (fun visited s => Sound g s ∧ (Quiet g cx visited s ∨
    ¬g.AtRest cx ∧ ∃ id ∈ visited, Disturbed g id s)) ?_ ?_).mono ?_
  · exact ⟨sound_start haligned.wellFormed haligned.listed, Or.inl quiet_start⟩
  · rintro visited id ahead s hsplit ⟨hs, hquiet | ⟨hrestless, earlier, hmem, hdisturbed⟩⟩
    · refine (hquiet.visit hcatalog haligned hs hsplit).mono ?_
      rintro s' ⟨hs', hquiet' | ⟨hdisturbed, node, hnode, hturn, hill⟩⟩
      · exact ⟨hs', Or.inl hquiet'⟩
      · exact ⟨hs', Or.inr ⟨fun hall => hill (hall id node hnode hturn), id, by simp, hdisturbed⟩⟩
    · have hid : id.index < g.size := haligned.listed.lt_size (by simp [hsplit])
      have hne : earlier ≠ id := by
        rintro rfl
        exact haligned.listed.not_mem_of_split hsplit hmem
      refine (hdisturbed.visit haligned.wellFormed hs hid hne).mono ?_
      rintro s' ⟨hs', hdisturbed'⟩
      exact ⟨hs', Or.inr ⟨hrestless, earlier, by simp [hmem], hdisturbed'⟩⟩
  · rintro s ⟨_, hquiet | ⟨hrestless, id, _, hdisturbed⟩⟩
    · exact Or.inl hquiet
    · exact Or.inr ⟨hrestless, id, hdisturbed⟩

theorem report_of_outcome {report : Report} (h : s.outcome.result = .ok report) :
    report = s.report := by
  unfold outcome at h
  split at h
  next => cases h
  next =>
    cases h
    rfl

/-- Edge agreement leaves an aligned graph as it is if and only if its nodes are at rest. -/
theorem isStable_iff (hcatalog : cx.catalog.Tolerates) (haligned : g.Aligned cx) :
    g.IsStable cx ↔ g.AtRest cx := by
  obtain ⟨s, hfold, hverdict⟩ := quiet_or_disturbed hcatalog haligned
  have hrun : run? cx g = some s.outcome := by
    rw [run?, hfold]
    rfl
  rcases hverdict with hquiet | ⟨hrestless, id, hdisturbed⟩
  · have hrest : g.AtRest cx := fun id node hnode =>
      hquiet.rests (haligned.listed.mem_of_lt (Graph.lt_size_of_node? hnode)) hnode
    have hsame : g.Same Node.arrangement s.graph := hquiet.tidied.bare.coarsen fun a b hbare => by
      simp only [Node.arrangement, Node.deps_of_bare hbare, Node.outputs_of_bare hbare,
        Node.prefers_of_bare hbare, Node.pinned_of_bare hbare]
    rw [hquiet.fresh] at hrun
    exact iff_of_true ⟨_, {}, hrun, rfl, rfl, rfl, hsame⟩ hrest
  · refine iff_of_false ?_ hrestless
    rintro ⟨out, report, hout, hok, hnone, _, hsame⟩
    obtain rfl := Option.some.inj (hrun.symm.trans hout)
    obtain rfl := report_of_outcome hok
    rw [outcome_graph] at hsame
    rcases hdisturbed with hmore | ⟨old, new, hold, hnew, hchanged⟩
    · omega
    · obtain ⟨found, hfound, heq⟩ := hsame.exists_old hnew
      obtain rfl := Option.some.inj (hold.symm.trans hfound)
      rcases hchanged with hoff | hoff
      · exact hoff (congrArg (·.2.1) heq)
      · exact hoff (congrArg (·.2.2.1) heq)

end Reconciliation

/-! ## After the first run -/

/-- Edge agreement that ended well changes nothing when it is run again if and only if it has left
every node at rest.  The catalog may be any that tolerates the loss of padding: one that does not
look at padding, or the built-in one. -/
theorem stable_iff_atRest_of_agreement {decls : List NodeDecl} {g : Graph}
    (hbuild : Graph.build? decls = some (.ok g)) {cx : Context}
    (hcatalog : cx.catalog.Tolerates) {swept agreed : Outcome}
    (hswept : Propagation.run? cx g = some swept)
    (hagreed : Reconciliation.run? cx swept.graph = some agreed) {report : Report}
    (hok : agreed.result = .ok report) : agreed.graph.IsStable cx ↔ agreed.graph.AtRest cx := by
  have hfresh := Graph.fresh_of_build hbuild
  obtain ⟨_, s₁, hfold₁, hgraph₁, hsame⟩ :=
    (Propagation.run?_spec cx hfresh.toOrdered).post_of_eq hswept
  rw [hgraph₁] at hagreed
  have hordered := hfresh.toOrdered.of_sameContent hsame
  obtain ⟨s₂, hfold₂, _, hgraph₂, herror⟩ :=
    (Reconciliation.run?_spec cx hordered).post_of_eq hagreed
  obtain ⟨_, hhonours⟩ := (Propagation.honours_of_sweep hfresh).post_of_eq hfold₁
  have hfine : s₂.failure = none := herror ▸ Outcome.error?_eq_none_iff.2 ⟨report, hok⟩
  rw [hgraph₂]
  exact Reconciliation.isStable_iff hcatalog
    (Reconciliation.aligned_of_run hcatalog hordered hhonours hfold₂ hfine)

/-- Takes every node whose first output is in the format. -/
def emits (format : Format) : Capability where
  name := "transposed"
  kind := .generic
  shapes := .both
  accepts view := view.outputs[0]?.any (·.format = format)
  preference _ := none
  build _ := .built ⟨.generic, "transposed", none⟩

/-- Sums come out transposed. -/
def transposedSums : Catalog where
  registrations := [(.eltwise, emits .yxfb)]

theorem transposedSums_judgesBy_unpadded : transposedSums.JudgesBy Exhibit.unpadded := by
  intro op c hmem v v' hkey
  obtain ⟨entry, hentry, rfl⟩ := List.mem_map.1 hmem
  obtain rfl := List.mem_singleton.1 (List.mem_filter.1 hentry).1
  have hformats := congrArg (·.outputs.map Layout.format) hkey
  simp only [Exhibit.unpadded, NodeView.exhibit, List.map_map] at hformats
  have hfirst := congrArg (·[0]?) hformats
  simp only [List.getElem?_map] at hfirst
  have haccepts (w : NodeView) : (emits .yxfb).accepts w =
      (w.outputs[0]?.map Layout.format).any (· = .yxfb) := by
    rw [Option.any_map]
    rfl
  rw [haccepts, haccepts]
  exact congrArg _ hfirst

/-- The sum of an input and a constant. -/
def biasedSum (fused : List FusedOp) : List NodeDecl :=
  let layout : Layout := ⟨.ofExtents [1, 16, 8, 8], .f32, .bfyx, {}⟩
  [{ name := "data", op := .input, outputs := [layout] },
    { name := "bias", op := .constant, outputs := [layout] },
    { name := "sum", op := .eltwise, inputs := [⟨⟨0⟩, 0⟩, ⟨⟨1⟩, 0⟩],
      outputs := [layout.withFormat .any], fused }]

theorem Graph.same_of_map_eq {α : Type} {proj : Node → α} {g g' : Graph}
    (h : g'.nodes.map proj = g.nodes.map proj) : g.Same proj g' := by
  intro id
  rw [node?, node?, ← List.getElem?_map, ← List.getElem?_map, h]

/-- The first run turns the sum and inserts a reorder for the input, the second run has nothing to
do. -/
theorem stable_biasedSum : ∃ g swept agreed report,
    Graph.build? (biasedSum []) = some (.ok g) ∧ transposedSums.JudgesBy Exhibit.unpadded ∧
    Propagation.run? { catalog := transposedSums } g = some swept ∧
    Reconciliation.run? { catalog := transposedSums } swept.graph = some agreed ∧
    agreed.result = .ok report ∧ report.reordersInserted = 1 ∧
    agreed.graph.IsStable { catalog := transposedSums } ∧
    agreed.graph.AtRest { catalog := transposedSums } := by
  refine ⟨_, _, _, _, rfl, transposedSums_judgesBy_unpadded, rfl, rfl, rfl, rfl, ?_⟩
  have hiff := @stable_iff_atRest_of_agreement (biasedSum []) _ rfl { catalog := transposedSums }
    transposedSums_judgesBy_unpadded.tolerates _ _ rfl rfl _ rfl
  refine (and_iff_left_of_imp hiff.1).2 ?_
  exact ⟨_, _, rfl, rfl, rfl, rfl, Graph.same_of_map_eq rfl⟩

/-- If the constant is the operand of a fused operation, the first run compares it with the sum as
it was before it was turned, and the second run inserts one more reorder. -/
theorem biasedSum_not_stable : ∃ g swept agreed report out again,
    Graph.build? (biasedSum [⟨.eltwise, some 1⟩]) = some (.ok g) ∧
    transposedSums.JudgesBy Exhibit.unpadded ∧
    Propagation.run? { catalog := transposedSums } g = some swept ∧
    Reconciliation.run? { catalog := transposedSums } swept.graph = some agreed ∧
    agreed.result = .ok report ∧
    Reconciliation.run? { catalog := transposedSums } agreed.graph = some out ∧
    out.result = .ok again ∧ again.reordersInserted = 1 :=
  ⟨_, _, _, _, _, _, rfl, transposedSums_judgesBy_unpadded, rfl, rfl, rfl, rfl, rfl, rfl⟩

end LayoutPlanner
