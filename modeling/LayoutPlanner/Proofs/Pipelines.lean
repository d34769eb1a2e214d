import LayoutPlanner.Planning.Pipeline
import LayoutPlanner.Proofs.Building
import LayoutPlanner.Proofs.ForwardSweep
import LayoutPlanner.Proofs.Visits

/-!
# Pipelines

What a run of several stages amounts to, given what each stage does.

* `error?`: the error that a run stopped at.  Of an outcome, later proofs look at this and at the
  graph.
* `runStages?_cons`: a run of stages, one stage at a time.
* `Planned`: the three stages of the standard pipeline, laid out.
-/

namespace LayoutPlanner

/-- The error that the run stopped at. -/
def Outcome.error? (out : Outcome) : Option PlanningError :=
  match out.result with
  | .error error => some error
  | .ok _ => none

theorem Outcome.error?_eq_none_iff {out : Outcome} :
    out.error? = none ↔ ∃ report, out.result = .ok report := by
  cases h : out.result <;> simp [error?, h]

theorem Outcome.error?_eq_some_iff {out : Outcome} {error : PlanningError} :
    out.error? = some error ↔ out.result = .error error := by
  cases h : out.result <;> simp [error?, h]

namespace Pipeline

/-- The first stage of a run either stops it or hands its graph to the others. -/
theorem runStages?_cons (post : Graph → Option PlanningError → Prop) {cx : Context} {g : Graph}
    {stage : Stage} {rest : List Stage}
    (h : Yields (stage.run? cx g) fun out =>
      (∀ error, out.error? = some error → post out.graph (some error)) ∧
      (out.error? = none → ∀ total trace,
        Yields (runStages? cx out.graph total trace rest) fun out' => post out'.graph out'.error?))
    (total : Report) (trace : Trace) :
    Yields (runStages? cx g total trace (stage :: rest)) fun out => post out.graph out.error? := by
  refine Yields.bind h fun out hout => ?_
  obtain ⟨hstop, hgo⟩ := hout
  dsimp only
  split
  next error herror =>
    exact Yields.pure (hstop error (Outcome.error?_eq_some_iff.2 herror))
  next report hreport =>
    exact hgo (Outcome.error?_eq_none_iff.2 ⟨report, hreport⟩) _ _

/-- A run on a fresh graph is a run of its stages: the topology is in order. -/
theorem run?_spec (post : Graph → Option PlanningError → Prop) {cx : Context} {g : Graph}
    (hg : g.Fresh) {stages : List Stage}
    (h : ∀ total trace, Yields (runStages? cx g total trace stages) fun out =>
      post out.graph out.error?) :
    Yields (run? stages cx g) fun out => post out.graph out.error? := by
  refine Yields.bind_eq hg.checkTopology?_ok ?_
  refine Yields.bind (h {} []) fun out hout => ?_
  split
  next => exact Yields.pure hout
  next => exact Yields.pure hout

end Pipeline

/-- Propagation ends well, with the content of the graph as it was. -/
theorem Propagation.run?_spec (cx : Context) {g : Graph} (hg : g.Ordered) :
    Yields (Propagation.run? cx g) fun out => out.error? = none ∧ ∃ s,
      g.order.foldlM (Propagation.visit? cx.catalog) { graph := g } = some s ∧
      out.graph = s.graph ∧ Graph.SameContent g s.graph := by
  have hrun := @run?_inv cx.catalog g hg (fun _ => True) trivial fun _ _ _ _ => trivial
  obtain ⟨s, hs, hsame, _⟩ := hrun
  exact Yields.bind_eq hs (Yields.pure ⟨rfl, s, hs, rfl, hsame⟩)

theorem Reconciliation.outcome_graph (s : Reconciliation) : s.outcome.graph = s.graph := by
  unfold outcome
  split <;> rfl

/-- Edge agreement ends in a sound state, well or with the failure of that state. -/
theorem Reconciliation.run?_spec (cx : Context) {g : Graph} (hg : g.Ordered) :
    Yields (Reconciliation.run? cx g) fun out => ∃ s,
      g.order.foldlM (Reconciliation.visit? cx) { graph := g } = some s ∧ Sound g s ∧
      out.graph = s.graph ∧ out.error? = s.failure := by
  obtain ⟨s, hs, hsound, _⟩ :=
    run?_inv hg (fun _ => True) trivial (fun _ _ _ _ => trivial) fun _ _ _ _ => trivial
  refine Yields.bind_eq hs (Yields.pure ⟨s, hs, hsound, s.outcome_graph, ?_⟩)
  cases h : s.failure <;> simp [outcome, h, Outcome.error?]

/-- A run of the standard pipeline: the state `swept` after propagation, the state `agreed` after
edge agreement, and then construction, unless edge agreement failed. -/
inductive Planned (cx : Context) (g : Graph) : Graph → Option PlanningError → Prop
  | blocked {swept : Propagation.State} {agreed : Reconciliation} {error : PlanningError}
      (hswept : g.order.foldlM (Propagation.visit? cx.catalog) { graph := g } = some swept)
      (hagreed : swept.graph.order.foldlM (Reconciliation.visit? cx) { graph := swept.graph } =
        some agreed)
      (hfailure : agreed.failure = some error) : Planned cx g agreed.graph (some error)
  | constructed {swept : Propagation.State} {agreed : Reconciliation} {out : Outcome}
      (hswept : g.order.foldlM (Propagation.visit? cx.catalog) { graph := g } = some swept)
      (hagreed : swept.graph.order.foldlM (Reconciliation.visit? cx) { graph := swept.graph } =
        some agreed)
      (hfine : agreed.failure = none) (hout : Construction.run? cx agreed.graph = some out) :
      Planned cx g out.graph out.error?

/-- A run that ended well got to construction, which ended well. -/
theorem Planned.built_of_fine {cx : Context} {g g' : Graph} {error : Option PlanningError}
    (h : Planned cx g g' error) (hfine : error = none) :
    ∃ (swept : Propagation.State) (agreed : Reconciliation) (out : Outcome),
      g.order.foldlM (Propagation.visit? cx.catalog) { graph := g } = some swept ∧
      swept.graph.order.foldlM (Reconciliation.visit? cx) { graph := swept.graph } = some agreed ∧
      agreed.failure = none ∧ Construction.run? cx agreed.graph = some out ∧ g' = out.graph ∧
      out.error? = none := by
  cases h with
  | blocked => cases hfine
  | constructed hswept hagreed hfailure hout =>
    exact ⟨_, _, _, hswept, hagreed, hfailure, hout, rfl, hfine⟩

theorem Planned.of_fine {cx : Context} {g g' : Graph} {error : Option PlanningError}
    (h : Planned cx g g' error) (hfine : error = none) :
    ∃ (swept : Propagation.State) (agreed : Reconciliation) (out : Outcome),
      g.order.foldlM (Propagation.visit? cx.catalog) { graph := g } = some swept ∧
      swept.graph.order.foldlM (Reconciliation.visit? cx) { graph := swept.graph } = some agreed ∧
      agreed.failure = none ∧ Construction.run? cx agreed.graph = some out ∧ g' = out.graph := by
  obtain ⟨swept, agreed, out, hswept, hagreed, hfailure, hout, hgraph, _⟩ := h.built_of_fine hfine
  exact ⟨swept, agreed, out, hswept, hagreed, hfailure, hout, hgraph⟩

theorem plan?_spec (cx : Context) {g : Graph} (hg : g.Fresh) :
    Yields (plan? cx g) fun out => Planned cx g out.graph out.error? := by
  refine Pipeline.run?_spec (Planned cx g) hg (Pipeline.runStages?_cons _ ?_)
  refine (Propagation.run?_spec cx hg.toOrdered).mono ?_
  rintro swept ⟨hfine, s, hs, hgraph, hsame⟩
  refine ⟨fun error herror => ?_, fun _ => Pipeline.runStages?_cons _ ?_⟩
  · simp [hfine] at herror
  rw [hgraph]
  refine (Reconciliation.run?_spec cx (hg.toOrdered.of_sameContent hsame)).mono ?_
  rintro agreed ⟨s', hs', hsound, hgraph', herror'⟩
  refine ⟨fun error herror => ?_, fun hfine' => Pipeline.runStages?_cons _ ?_⟩
  · rw [hgraph']
    exact .blocked hs hs' (herror'.symm.trans herror)
  rw [hgraph']
  obtain ⟨out, hout, _⟩ := Construction.run?_spec cx hsound.wellFormed hsound.listed
  have hplanned := Planned.constructed hs hs' (herror'.symm.trans hfine') hout
  refine .of_eq hout ⟨fun error herror => herror ▸ hplanned, fun herror total trace => ?_⟩
  rw [herror] at hplanned
  exact Yields.pure hplanned

/-- What holds before the first stage and after each stage holds however far the standard pipeline
is run, and however the run ends. -/
theorem Pipeline.run?_prefix (post : Graph → Prop) (cx : Context) {g : Graph} (hg : g.Fresh)
    (hbegin : post g)
    (hpropagation : Yields (g.order.foldlM (Propagation.visit? cx.catalog) { graph := g })
      fun swept => post swept.graph)
    (hagreement : ∀ {g₁ : Graph}, g.SameContent g₁ → g₁.Ordered → post g₁ →
      Yields (g₁.order.foldlM (Reconciliation.visit? cx) { graph := g₁ })
        fun agreed => post agreed.graph)
    (hconstruction : ∀ {g₁ : Graph}, g₁.WellFormed → g₁.ListsAll → post g₁ →
      Yields (Construction.run? cx g₁) fun out => post out.graph)
    {stages : List Stage} (hstages : stages <+: standard) :
    Yields (run? stages cx g) fun out => post out.graph := by
  refine run?_spec (fun g' _ => post g') hg fun total trace => ?_
  rcases List.prefix_cons_iff.1 hstages with rfl | ⟨rest, rfl, hrest⟩
  · exact Yields.pure hbegin
  refine runStages?_cons (fun g' _ => post g') ?_ total trace
  refine (Propagation.run?_spec cx hg.toOrdered).mono ?_
  rintro _ ⟨_, s, hs, hgraph, hsame⟩
  rw [hgraph]
  have hswept := hpropagation.post_of_eq hs
  have hordered := hg.toOrdered.of_sameContent hsame
  refine ⟨fun _ _ => hswept, fun _ total trace => ?_⟩
  rcases List.prefix_cons_iff.1 hrest with rfl | ⟨last, rfl, hlast⟩
  · exact Yields.pure hswept
  refine runStages?_cons (fun g' _ => post g') ?_ total trace
  refine (Reconciliation.run?_spec cx hordered).mono ?_
  rintro _ ⟨s', hs', hsound, hgraph', _⟩
  rw [hgraph']
  have hagreed := (hagreement hsame hordered hswept).post_of_eq hs'
  refine ⟨fun _ _ => hagreed, fun _ total trace => ?_⟩
  rcases List.prefix_cons_iff.1 hlast with rfl | ⟨none, rfl, hnone⟩
  · exact Yields.pure hagreed
  obtain rfl := List.prefix_nil.1 hnone
  refine runStages?_cons (fun g' _ => post g') ?_ total trace
  refine (hconstruction hsound.wellFormed hsound.listed hagreed).mono fun out hout => ?_
  exact ⟨fun _ _ => hout, fun _ _ _ => Yields.pure hout⟩

/-- An input in a plain format and a convolution of bytes that reads it.  The fastest routine wants
a blocked format, so that planning has to put a reorder between the two. -/
def byteConvolution : List NodeDecl :=
  [{ name := "image", op := .input, outputs := [⟨.ofExtents [1, 16, 8, 8], .si8, .bfyx, {}⟩] },
    { name := "filtered", op := .convolution, inputs := [⟨⟨0⟩, 0⟩],
      outputs := [⟨.ofExtents [1, 16, 8, 8], .si8, .any, {}⟩],
      attrs := .convolution (.ofKernel [3, 3]) }]

end LayoutPlanner
