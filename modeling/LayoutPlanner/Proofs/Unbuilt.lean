import LayoutPlanner.Planning.Pipeline
import LayoutPlanner.Proofs.Frames
import LayoutPlanner.Proofs.Placements

/-!
# Nothing is built before construction

Implementations are stored by construction and by nothing else.  This holds on every graph, well
formed or not.

* Editing a node or its edges keeps the implementation and the selected kind of every node
  (`Node.backing`).
* So a graph without implementations has none after propagation and after edge agreement, and
  neither stage counts anything as built or deferred.
-/

namespace LayoutPlanner

/-- What has been chosen to run a node. -/
def Node.backing (node : Node) : Option BackendKind × Option Handle :=
  (node.selected, node.implementation)

namespace Graph

/-! ## Edits keep the backing -/

section

variable {g : Graph} {id : NodeId}

theorem frame_backing : Frame Node.backing fun _ => True where
  factors h := congrArg (·.2.2.2) h
  keep hg _ := hg
  refresh? _ _ := Ensures.bind_all fun _ _ => update?_same fun _ => rfl

theorem update?_backing {change : Node → Node} (h : ∀ node, (change node).backing = node.backing) :
    Ensures (g.update? id change) (Same Node.backing g) :=
  update?_same h

theorem refresh?_backing : Ensures (g.refresh? id) (Same Node.backing g) :=
  frame_backing.refresh? id trivial

theorem invalidate?_backing : Ensures (g.invalidate? id) (Same Node.backing g) :=
  frame_backing.invalidate? trivial

theorem settle?_backing : Ensures (g.settle? id) (Same Node.backing g) :=
  frame_backing.settle? trivial

theorem reroute?_backing (slot : Nat) (edge : Edge) :
    Ensures (g.reroute? id slot edge) (Same Node.backing g) :=
  reroute?_same (fun _ _ => rfl) (fun _ _ => rfl) (fun _ => rfl) slot edge

end

/-! ## Graphs without implementations -/

/-- No node has an implementation. -/
def Unbuilt (g : Graph) : Prop :=
  ∀ node ∈ g.nodes, node.implementation = none

instance (g : Graph) : Decidable g.Unbuilt :=
  inferInstanceAs (Decidable (∀ node ∈ g.nodes, node.implementation = none))

variable {g g' : Graph}

theorem unbuilt_iff :
    g.Unbuilt ↔ ∀ id node, g.node? id = some node → node.implementation = none := by
  refine ⟨fun h id node hnode => h node (List.mem_of_getElem? hnode), fun h node hmem => ?_⟩
  obtain ⟨index, hindex⟩ := List.mem_iff_getElem?.1 hmem
  exact h ⟨index⟩ node hindex

theorem Unbuilt.of_same (hg : g.Unbuilt) (h : Same Node.implementation g g') : g'.Unbuilt := by
  refine unbuilt_iff.2 fun id node hnode => ?_
  obtain ⟨old, hold, heq⟩ := h.exists_old hnode
  rw [heq, unbuilt_iff.1 hg id old hold]

theorem Unbuilt.of_backing (hg : g.Unbuilt) (h : Same Node.backing g g') : g'.Unbuilt :=
  hg.of_same (h.coarsen fun _ _ heq => congrArg (·.2) heq)

/-- A reorder is inserted without an implementation. -/
theorem Unbuilt.interpose? (hg : g.Unbuilt) (consumer : NodeId) (slot : Nat)
    (target : Layout) (reason : ReorderReason) :
    Ensures (g.interpose? consumer slot target reason) fun out => out.1.Unbuilt := by
  refine Ensures.bind_all fun input _ => ?_
  have hlonger :
      ({ g with nodes := g.nodes ++ [g.reorderFor input target reason] } : Graph).Unbuilt := by
    intro node hmem
    rcases List.mem_append.1 hmem with hold | hnew
    · exact hg node hold
    · rw [List.mem_singleton.1 hnew]
      rfl
  refine Ensures.bind refresh?_backing fun g₁ h₁ => ?_
  refine Ensures.bind (update?_backing fun _ => rfl) fun g₂ h₂ => ?_
  refine Ensures.bind (reroute?_backing slot _) fun g₃ h₃ => Ensures.pure ?_
  exact hlonger.of_backing ((h₁.trans h₂).trans h₃)

end Graph

/-- Nothing is counted as built or deferred. -/
structure Report.Idle (report : Report) : Prop where
  built : report.implementationsBuilt = 0
  deferred : report.deferred = 0

/-- A stage has built nothing, and says so. -/
structure Outcome.Idle (out : Outcome) : Prop where
  unbuilt : out.graph.Unbuilt
  report : ∀ report, out.result = .ok report → report.Idle

/-! ## Propagation -/

namespace Propagation

/-- Nothing has been built so far. -/
structure State.Idle (s : State) : Prop where
  unbuilt : s.graph.Unbuilt
  report : s.report.Idle

variable {s : State} {id : NodeId}

theorem State.Idle.record? (hs : s.Idle) (preference : FormatPreference) :
    Ensures (record? s id preference) State.Idle := by
  refine Ensures.bind (Graph.update?_backing fun _ => rfl) fun g₁ h₁ => ?_
  refine Ensures.bind Graph.invalidate?_backing fun g₂ h₂ => ?_
  refine Ensures.bind Graph.settle?_backing fun g₃ h₃ => Ensures.pure ?_
  exact ⟨hs.unbuilt.of_backing ((h₁.trans h₂).trans h₃), hs.report.built, hs.report.deferred⟩

theorem fold?_backing {g : Graph} (permute : NodeId) (format : Format) :
    Ensures (fold? g id permute format) (Graph.Same Node.backing g) := by
  refine Graph.Same.bind (Graph.frame_backing.forceOutput? trivial 0 format) fun g₁ => ?_
  refine Graph.Same.bind (Graph.update?_backing fun _ => rfl) fun g₂ => ?_
  exact Graph.Same.bind (Graph.frame_backing.forceOutput? trivial 0 format) fun g₃ =>
    Graph.update?_same fun _ => rfl

theorem State.Idle.foldPermute? (hs : s.Idle) : Ensures (foldPermute? s id) State.Idle := by
  refine Ensures.bind_all fun node _ => ?_
  split
  next user _ =>
    refine Ensures.bind_all fun permute _ => ?_
    split
    next =>
      refine Ensures.bind_all fun output _ => Ensures.bind_all fun target _ => ?_
      split
      next =>
        refine Ensures.bind (fold?_backing user _) fun g h => Ensures.pure ?_
        exact ⟨hs.unbuilt.of_backing h, hs.report.built, hs.report.deferred⟩
      next => exact Ensures.pure hs
    next => exact Ensures.pure hs
  next => exact Ensures.pure hs

theorem State.Idle.adopt? (hs : s.Idle) (candidate : Capability) (seen : NodeView) :
    Ensures (adopt? s id candidate seen) State.Idle := by
  have hselect : Ensures
      (s.graph.update? id fun node => { node with selected := some candidate.kind })
      (Graph.Same Node.implementation s.graph) := Graph.update?_same fun _ => rfl
  refine Ensures.bind hselect fun g hg => ?_
  have hs₁ : State.Idle { s with graph := g } := ⟨hs.unbuilt.of_same hg, hs.report⟩
  have hgo : ∀ s₂ : State, s₂.Idle →
      Ensures (if candidate.kind = .vendor ∧ seen.op.isCompute then Propagation.foldPermute? s₂ id
        else pure s₂) State.Idle := by
    intro s₂ hs₂
    split
    next => exact hs₂.foldPermute?
    next => exact Ensures.pure hs₂
  dsimp only
  split
  next preference _ => exact Ensures.bind (hs₁.record? preference) hgo
  next => exact hgo _ hs₁

theorem State.Idle.visit? (catalog : Catalog) (hs : s.Idle) :
    Ensures (visit? catalog s id) State.Idle := by
  refine Ensures.bind_all fun node _ => ?_
  split
  next => exact Ensures.pure hs
  refine Ensures.bind Graph.settle?_backing fun g hg => Ensures.bind_all fun node _ => ?_
  have hs₁ : State.Idle { s with graph := g } := ⟨hs.unbuilt.of_backing hg, hs.report⟩
  split
  next => exact Ensures.pure hs₁
  refine Ensures.bind_all fun plain _ => Ensures.bind_all fun unpadded _ => ?_
  split
  next => exact Ensures.pure hs₁
  next candidate seen _ => exact hs₁.adopt? candidate seen

theorem idle_of_sweep (catalog : Catalog) {g : Graph} (hg : g.Unbuilt) :
    Ensures (g.order.foldlM (visit? catalog) { graph := g }) State.Idle :=
  Ensures.foldlM State.Idle ⟨hg, rfl, rfl⟩ fun _ _ hs => hs.visit? catalog

theorem run?_idle (cx : Context) {g : Graph} (hg : g.Unbuilt) :
    Ensures (run? cx g) Outcome.Idle := by
  refine Ensures.bind (idle_of_sweep cx.catalog hg) fun s hs => Ensures.pure ⟨hs.unbuilt, ?_⟩
  intro report h
  cases h
  exact hs.report

end Propagation

/-! ## Edge agreement -/

namespace Reconciliation

/-- Nothing has been built so far. -/
structure Idle (s : Reconciliation) : Prop where
  unbuilt : s.graph.Unbuilt
  report : s.report.Idle

variable {s s' : Reconciliation} {id : NodeId}

theorem Idle.withGraph (hs : Idle s) {g : Graph} (h : Graph.Same Node.backing s.graph g) :
    Idle (s.withGraph g) :=
  ⟨hs.unbuilt.of_backing h, hs.report⟩

theorem Idle.changed (hs : Idle s) : Idle s.changed :=
  ⟨hs.unbuilt, hs.report.built, hs.report.deferred⟩

theorem Freed.idle {slot : Nat} (h : Freed id slot s s') (hs : Idle s) : Idle s' := by
  cases h with
  | direct => exact hs
  | back _ _ _ _ h => exact hs.withGraph (Graph.reroute?_backing _ _ _ h)

theorem Serves.idle {slot : Nat} {target : Layout} {reason : ReorderReason}
    (h : Serves id slot target reason s s') (hs : Idle s) : Idle s' := by
  cases h with
  | retarget _ _ _ _ h =>
    have hg := Graph.frame_backing.setTarget? trivial (fun _ _ => rfl) _ h
    exact ⟨hs.unbuilt.of_backing hg, hs.report.built, hs.report.deferred⟩
  | reuse hfreed _ _ h =>
    obtain ⟨g, hg, h⟩ := Option.bind_eq_some_iff.1 h
    cases h
    exact ((hfreed.idle hs).withGraph (Graph.reroute?_backing _ _ _ hg)).changed
  | create hfreed _ _ h =>
    have hs₁ := hfreed.idle hs
    obtain ⟨input, _, h⟩ := Option.bind_eq_some_iff.1 h
    obtain ⟨⟨g, reorder⟩, hg, h⟩ := Option.bind_eq_some_iff.1 h
    cases h
    exact ⟨hs₁.unbuilt.interpose? id slot target reason _ hg, hs₁.report.built, hs₁.report.deferred⟩

theorem Idle.convert? (hs : Idle s) (slot : Nat) (target : Layout) (reason : ReorderReason) :
    Ensures (s.convert? id slot target reason) Idle :=
  fun _ h => (serves_of_convert? h).idle hs

theorem Idle.repairSlots (hs : Idle s) (slots : List Nat) (repair : Reconciliation → Repair) :
    Ensures (slots.foldlM (repairSlot? id repair) s) Idle := by
  refine Ensures.foldlM Idle hs fun slot s₁ hs₁ => ?_
  refine Ensures.bind_all fun node _ => Ensures.bind_all fun input _ => ?_
  split
  next => exact hs₁.convert? slot _ _
  next => exact Ensures.pure hs₁

theorem Idle.convertState? (hs : Idle s) : Ensures (s.convertState? id) Idle := by
  refine Ensures.bind_all fun node _ => ?_
  split
  next =>
    refine Ensures.bind_all fun input _ => ?_
    split
    next =>
      refine Ensures.bind (hs.convert? 0 _ _) fun s₁ hs₁ => ?_
      refine Ensures.bind Graph.invalidate?_backing fun g₁ h₁ => ?_
      refine Ensures.bind Graph.settle?_backing fun g₂ h₂ => Ensures.pure ?_
      exact hs₁.withGraph (h₁.trans h₂)
    next => exact Ensures.pure hs
  next => exact Ensures.pure hs

theorem Idle.handOver? (hs : Idle s) : Ensures (s.handOver? id) Idle := by
  have hpinned : Ensures (s.graph.update? id fun node =>
      { node with pinned := some .generic, selected := some .generic })
      (Graph.Same Node.implementation s.graph) := Graph.update?_same fun _ => rfl
  refine Ensures.bind hpinned fun g hg => Ensures.pure ?_
  exact ⟨hs.unbuilt.of_same hg, hs.report.built, hs.report.deferred⟩

theorem Idle.legalize? (hs : Idle s) (cx : Context) : Ensures (s.legalize? cx id) Idle := by
  refine SearchInvariant.legalize? (fun node _ => ?_) hs
  constructor
  case adopt =>
    intro s format g hs hg
    exact (hs.withGraph (Graph.frame_backing.adoptFormat? trivial format g hg)).changed
  case restore =>
    intro s format g g' hs hg hg'
    have hadopted := Graph.frame_backing.adoptFormat? trivial format g hg
    have hrestored := Graph.frame_backing.putBack? trivial (fun _ _ => rfl) g' hg'
    exact hs.withGraph (hadopted.trans hrestored)
  case handOver => exact Idle.handOver?
  case fail => exact fun _ hs => ⟨hs.unbuilt, hs.report⟩

theorem Idle.visit? (hs : Idle s) (cx : Context) : Ensures (visit? cx s id) Idle := by
  refine Ensures.bind_all fun node _ => ?_
  split
  next => exact Ensures.pure hs
  refine Ensures.bind Graph.settle?_backing fun g hg => ?_
  refine Ensures.bind (hs.withGraph hg).convertState? fun s₁ hs₁ => ?_
  have hoperands : Ensures (if cx.config.optimizeLayout then s₁.reorderOperands? id else some s₁)
      Idle := by
    split
    next =>
      exact Ensures.bind_all fun node _ => Ensures.bind_all fun output _ => hs₁.repairSlots _ _
    next => exact Ensures.pure hs₁
  refine Ensures.ite_bind hoperands fun s₂ hs₂ => ?_
  have hnormalized : Ensures (s₂.unpadNormalization? id) Idle := by
    refine Ensures.bind_all fun node _ => ?_
    split
    next =>
      exact Ensures.bind_all fun slots _ => Ensures.bind_all fun output _ => hs₂.repairSlots _ _
    next => exact Ensures.pure hs₂
  refine Ensures.bind hnormalized fun s₃ hs₃ => ?_
  have hunpadded : Ensures (s₃.unpadVendor? id) Idle := by
    refine Ensures.bind_all fun node _ => ?_
    split
    next => exact Ensures.bind_all fun slots _ => hs₃.repairSlots _ _
    next => exact Ensures.pure hs₃
  refine Ensures.bind hunpadded fun s₄ hs₄ => Ensures.bind (hs₄.legalize? cx) fun s₅ hs₅ => ?_
  split
  next => exact Ensures.pure hs₅
  next => exact Ensures.bind_all fun slots _ => hs₅.repairSlots _ _

theorem idle_of_run (cx : Context) {g : Graph} (hg : g.Unbuilt) :
    Ensures (g.order.foldlM (visit? cx) { graph := g }) Idle :=
  Ensures.foldlM Idle ⟨hg, rfl, rfl⟩ fun _ _ hs => hs.visit? cx

theorem run?_idle (cx : Context) {g : Graph} (hg : g.Unbuilt) :
    Ensures (run? cx g) Outcome.Idle := by
  refine Ensures.bind (idle_of_run cx hg) fun s hs => Ensures.pure ?_
  unfold outcome
  split
  next => exact ⟨hs.unbuilt, fun report h => nomatch h⟩
  next =>
    refine ⟨hs.unbuilt, fun report h => ?_⟩
    cases h
    exact hs.report

end Reconciliation

/-! ## Pipelines -/

namespace Pipeline

variable {cx : Context} {g : Graph} {out : Outcome}

/-- The first stage of a run, and what became of it. -/
theorem exists_stage {stage : Stage} {rest : List Stage} {total : Report} {trace : Trace}
    (h : runStages? cx g total trace (stage :: rest) = some out) :
    ∃ done, stage.run? cx g = some done ∧
      ((∃ error, done.result = .error error ∧ out.result = .error error ∧
          out.graph = done.graph) ∨
        ∃ report, done.result = .ok report ∧ ∃ trace',
          runStages? cx done.graph (total.merge report) trace' rest = some out) := by
  obtain ⟨done, hdone, h⟩ := Option.bind_eq_some_iff.1 h
  refine ⟨done, hdone, ?_⟩
  dsimp only at h
  split at h
  next error herror =>
    cases h
    exact .inl ⟨error, herror, rfl, rfl⟩
  next report hreport => exact .inr ⟨report, hreport, _, h⟩

/-- A run of stages, without the closing words. -/
theorem exists_runStages {stages : List Stage} (h : run? stages cx g = some out) :
    (∃ error, out.result = .error error ∧ out.graph = g) ∨
      ∃ done, runStages? cx g {} [] stages = some done ∧ out.graph = done.graph ∧
        out.result = done.result := by
  obtain ⟨topology, _, h⟩ := Option.bind_eq_some_iff.1 h
  split at h
  next error =>
    cases h
    exact .inl ⟨_, rfl, rfl⟩
  next =>
    obtain ⟨done, hdone, h⟩ := Option.bind_eq_some_iff.1 h
    refine .inr ⟨done, hdone, ?_⟩
    split at h
    next =>
      cases h
      exact ⟨rfl, rfl⟩
    next total htotal =>
      cases h
      exact ⟨rfl, rfl⟩

end Pipeline

/-- A plan that came to construction.  What it counts as built and deferred is what construction
counts. -/
structure Reaches (cx : Context) (g : Graph) (out swept agreed built : Outcome) : Prop where
  sweeps : Propagation.run? cx g = some swept
  agrees : Reconciliation.run? cx swept.graph = some agreed
  unbuilt : agreed.graph.Unbuilt
  builds : Construction.run? cx agreed.graph = some built
  graph : out.graph = built.graph
  result : (∃ error, built.result = .error error ∧ out.result = .error error) ∨
    ∃ report total, built.result = .ok report ∧ out.result = .ok total ∧
      total.implementationsBuilt = report.implementationsBuilt ∧ total.deferred = report.deferred

theorem Report.Idle.counts_merge {report : Report} (h : report.Idle) (next : Report) :
    (report.merge next).implementationsBuilt = next.implementationsBuilt ∧
      (report.merge next).deferred = next.deferred := by
  simp [Report.merge, h.built, h.deferred]

theorem Report.Idle.merge {report next : Report} (h : report.Idle) (hnext : next.Idle) :
    (report.merge next).Idle :=
  ⟨(h.counts_merge next).1.trans hnext.built, (h.counts_merge next).2.trans hnext.deferred⟩

theorem unbuilt_or_reaches {cx : Context} {g : Graph} {out : Outcome} (hg : g.Unbuilt)
    (h : plan? cx g = some out) :
    ((∃ error, out.result = .error error) ∧ out.graph.Unbuilt) ∨
      ∃ swept agreed built, Reaches cx g out swept agreed built := by
  rcases Pipeline.exists_runStages h with ⟨error, herror, hgraph⟩ | ⟨done, hdone, hgraph, hresult⟩
  · exact .inl ⟨⟨error, herror⟩, hgraph ▸ hg⟩
  have hstopped : ∀ {stopped : Outcome} {error : PlanningError}, stopped.Idle →
      done.result = .error error → done.graph = stopped.graph →
      (∃ error, out.result = .error error) ∧ out.graph.Unbuilt := by
    intro stopped error hidle herror heq
    rw [hgraph, heq]
    exact ⟨⟨error, hresult.trans herror⟩, hidle.unbuilt⟩
  obtain ⟨swept, hswept, hnext⟩ := Pipeline.exists_stage hdone
  have hidle := Propagation.run?_idle cx hg swept hswept
  obtain ⟨error, _, herror, heq⟩ | ⟨report₁, hreport₁, trace₁, hdone⟩ := hnext
  · exact .inl (hstopped hidle herror heq)
  obtain ⟨agreed, hagreed, hnext⟩ := Pipeline.exists_stage hdone
  have hidle' := Reconciliation.run?_idle cx hidle.unbuilt agreed hagreed
  obtain ⟨error, _, herror, heq⟩ | ⟨report₂, hreport₂, trace₂, hdone⟩ := hnext
  · exact .inl (hstopped hidle' herror heq)
  obtain ⟨built, hbuilt, hnext⟩ := Pipeline.exists_stage hdone
  have hquiet := ((⟨rfl, rfl⟩ : Report.Idle {}).merge (hidle.report _ hreport₁)).merge
    (hidle'.report _ hreport₂)
  refine .inr ⟨swept, agreed, built, hswept, hagreed, hidle'.unbuilt, hbuilt, ?_, ?_⟩
  · obtain ⟨_, _, _, heq⟩ | ⟨_, _, _, hdone⟩ := hnext
    · exact hgraph.trans heq
    · cases hdone
      exact hgraph
  · obtain ⟨error, herror, herror', _⟩ | ⟨report₃, hreport₃, _, hdone⟩ := hnext
    · exact .inl ⟨error, herror, hresult.trans herror'⟩
    · cases hdone
      exact .inr ⟨report₃, _, hreport₃, hresult, hquiet.counts_merge report₃⟩

end LayoutPlanner
