import LayoutPlanner.Proofs.Assignments
import LayoutPlanner.Proofs.ForwardSettling
import LayoutPlanner.Proofs.Turns

/-!
# Building once more

Construction that ended well leaves nothing to do: another run builds nothing, defers the same nodes
and leaves the graph as it is.

* The first sweep settled every node, and storing marks none stale (`upToDate_of_run`).
* What still needs an implementation was deferred, and a catalog that goes by what is shown of a
  node defers it again (`Assigned.buildTask_eq`).
* The shape classes are right, so storing that a node is deferred changes the count and nothing else
  (`run?_of_waiting`).
-/

namespace LayoutPlanner

open scoped List

/-- What construction finds: a graph in order, with the right shape classes, of which nothing has
been built. -/
structure Graph.Ready (g : Graph) : Prop where
  wellFormed : g.WellFormed
  classified : g.Classified
  inOrder : g.InOrder
  unbuilt : g.Unbuilt

theorem Graph.Ready.steady {g : Graph} (hg : g.Ready) : g.Steady g :=
  ⟨hg.wellFormed, hg.inOrder.listed, hg.classified, .refl g,
    fun hle hnode => absurd (lt_size_of_node? hnode) (Nat.not_lt.2 hle)⟩

/-! ## Ready graphs -/

namespace Pipeline

variable {g g₀ : Graph}

/-- Edge agreement, where it is run, starts from a graph that is in its first order. -/
theorem ready_past_propagation (cx : Context) (hg : g.Ordered) (hsteady : g₀.Steady g)
    (hunbuilt : g.Unbuilt) {stages : List Stage} (hstages : stages <+ [.agreement])
    (total : Report) (trace : Trace) :
    Yields (runStages? cx g total trace stages) fun out => out.graph.Ready := by
  rcases List.sublist_singleton.1 hstages with rfl | rfl
  · exact Yields.pure ⟨hg.wellFormed, hsteady.classified, hg.arranged.inOrder, hunbuilt⟩
  refine runStages?_cons (fun g' _ => g'.Ready) ?_ total trace
  obtain ⟨out, hout, s, hs, hsound, hgraph, _⟩ := Reconciliation.run?_spec cx hg
  obtain ⟨_, hplaced⟩ := (Reconciliation.placed_of_run hg).post_of_eq hs
  have hready : out.graph.Ready := by
    refine ⟨hgraph ▸ hsound.wellFormed, ?_, ?_, ?_⟩
    · exact ((hsteady.run cx .agreement).post_of_eq hout).classified
    · exact hgraph ▸ (hplaced.arranged hg hsound).inOrder
    · exact (Reconciliation.run?_idle cx hunbuilt out hout).unbuilt
  exact .of_eq hout ⟨fun _ _ => hready, fun _ _ _ => Yields.pure hready⟩

/-- Whichever of the stages before construction are run, they leave a declared graph ready. -/
theorem ready_of_run (cx : Context) {decls : List NodeDecl}
    (hbuild : Graph.build? decls = some (.ok g)) {stages : List Stage}
    (hstages : stages <+ [.propagation, .agreement]) :
    Yields (run? stages cx g) fun out => out.graph.Ready := by
  have hg := Graph.fresh_of_build hbuild
  have hunbuilt : g.Unbuilt :=
    Graph.unbuilt_iff.2 fun _ _ hnode => (hg.undecided hnode).implementation
  obtain ⟨g₀, hsteady⟩ := (Graph.Reached.built hbuild).exists_steady
  refine run?_spec (fun g' _ => g'.Ready) hg fun total trace => ?_
  cases hstages with
  | cons _ hrest => exact ready_past_propagation cx hg.toOrdered hsteady hunbuilt hrest total trace
  | cons_cons _ hrest =>
    refine runStages?_cons (fun g' _ => g'.Ready) ?_ total trace
    obtain ⟨out, hout, hfine, s, _, hgraph, hsame⟩ := Propagation.run?_spec cx hg.toOrdered
    have hordered : out.graph.Ordered := hgraph ▸ hg.toOrdered.of_sameContent hsame
    have hunbuilt' := (Propagation.run?_idle cx hunbuilt out hout).unbuilt
    have hsteady' := (hsteady.run cx .propagation).post_of_eq hout
    refine .of_eq hout ⟨fun _ herror => ?_, fun _ => ?_⟩
    · rw [hfine] at herror
      cases herror
    · exact ready_past_propagation cx hordered hsteady' hunbuilt' hrest

end Pipeline

namespace Construction

variable {cx : Context} {g : Graph} {out : Outcome} {report : Report}

/-! ## What a run leaves -/

/-- Storing results marks nothing. -/
theorem store?_flags (state : Graph × Report) (task : NodeId × TaskResult) :
    Ensures (store? state task) fun out =>
      Graph.Same (fun node => (node.op, node.layoutValid)) state.1 out.1 := by
  obtain ⟨g, report⟩ := state
  obtain ⟨id, result⟩ := task
  have hrefresh : Ensures (g.refresh? id)
      (Graph.Same (fun node => (node.op, node.layoutValid)) g) :=
    Ensures.bind_all fun _ _ => Graph.update?_same fun _ => rfl
  refine Ensures.bind hrefresh fun g₁ h₁ => ?_
  cases result with
  | built assignment =>
    have hinstall : Ensures (g₁.update? id (install assignment.handle))
        (Graph.Same (fun node => (node.op, node.layoutValid)) g₁) :=
      Graph.update?_same fun _ => rfl
    exact Ensures.bind hinstall fun g₂ h₂ => Ensures.pure (h₁.trans h₂)
  | deferred | failed _ => exact Ensures.pure h₁

theorem upToDate_of_run (hg : g.WellFormed) (hclass : g.Classified) (horder : g.InOrder)
    (hout : run? cx g = some out) (hok : out.result = .ok report) : out.graph.UpToDate := by
  obtain ⟨settled, ids, views, hsettled, _, _, _, hstore⟩ := fine_of_run hout hok
  have hvalid := (settleAll?_upToDate hg hclass horder).post_of_eq hsettled
  obtain ⟨stored, hstored, hdone⟩ := Option.bind_eq_some_iff.1 hstore
  cases hdone
  have hflags : Graph.Same (fun node => (node.op, node.layoutValid)) settled stored.1 := by
    refine Ensures.foldlM (fun state : Graph × Report => Graph.Same _ settled state.1)
      (.refl settled) ?_ stored hstored
    exact fun task state h => (store?_flags state task).mono fun _ h' => h.trans h'
  intro id node hnode hdata
  obtain ⟨old, hold, heq⟩ := hflags.exists_old hnode
  rw [Prod.mk.injEq] at heq
  rw [heq.2]
  exact hvalid id old hold (Node.isConstant_congr heq.1 ▸ hdata)

/-- A node that still needs an implementation is deferred again. -/
theorem Assigned.buildTask_eq {catalog : Catalog} {settled : Graph} {id : NodeId} {view : NodeView}
    (hview : g.view? id = some view) (h : Assigned catalog settled g id view.node)
    (hneeds : needsImplementation view.node = true) : buildTask catalog view = .deferred := by
  have hnone := implementation_of_needs hneeds
  cases h with
  | passive hpassive _ => exact absurd hpassive ((needsImplementation_iff hnone).1 hneeds)
  | built _ _ _ _ _ _ himplementation _ =>
    rw [hnone] at himplementation
    cases himplementation
  | deferred _ hview' hclass hdynamic hpasses _ =>
    obtain rfl := Option.some.inj (hview.symm.trans hview')
    rw [hclass] at hdynamic
    simp [buildTask, Catalog.choose, Catalog.candidate?_eq_none_iff.2 hpasses, hdynamic]

/-! ## A run that finds nothing to do -/

theorem store?_deferred (hclass : g.Classified) {id : NodeId} (hid : id.index < g.size)
    (report : Report) : store? (g, report) (id, .deferred) =
      some (g, { report with deferred := report.deferred + 1 }) := by
  obtain ⟨node, hnode⟩ := Graph.exists_node hid
  simp [store?, Graph.refresh?_eq hclass hnode]

/-- Nothing but the count tells how many nodes are deferred. -/
theorem storeAll?_deferred (hclass : g.Classified) {ids : List NodeId}
    (hids : ∀ id ∈ ids, id.index < g.size) {results : List TaskResult}
    (hlength : results.length = ids.length) (hresults : ∀ result ∈ results, result = .deferred)
    (report : Report) : (ids.zip results).foldlM store? (g, report) =
      some (g, { report with deferred := report.deferred + ids.length }) := by
  induction ids generalizing results report with
  | nil => rfl
  | cons id rest ih =>
    obtain ⟨result, results, rfl⟩ := List.exists_cons_of_length_eq_add_one hlength
    obtain rfl := hresults result (List.mem_cons_self ..)
    rw [List.zip_cons_cons, List.foldlM_cons, store?_deferred hclass (hids id (by simp)),
      Option.bind_eq_bind, Option.bind_some, ih (fun other hmem => hids other (by simp [hmem]))
        (by simpa using hlength) (fun other hmem => hresults other (by simp [hmem]))]
    simp [Nat.add_assoc, Nat.add_comm 1]

/-- Where everything is settled and whatever needs an implementation has to wait, a run does
nothing. -/
theorem run?_of_waiting (cx : Context) (hg : g.WellFormed) (hlisted : g.ListsAll)
    (hclass : g.Classified) (hvalid : g.UpToDate)
    (hwaiting : ∀ id view, g.view? id = some view → needsImplementation view.node = true →
      buildTask cx.catalog view = .deferred) :
    run? cx g = some {
      graph := g
      trace := [.event (.passFinished stageName false)]
      result := .ok { deferred := g.nodes.countP needsImplementation } } := by
  obtain ⟨ids, hids, hmem⟩ := pending?_spec hlisted
  obtain ⟨views, hviews, hall⟩ := views_spec hg hmem
  have hresults : ∀ result ∈ views.map (buildTask cx.catalog), result = .deferred := by
    intro result hresult
    obtain ⟨view, hview, rfl⟩ := List.mem_map.1 hresult
    obtain ⟨i, hi, rfl⟩ := List.getElem_of_mem hview
    have hat := hall.get (hall.length_eq ▸ hi) hi
    exact hwaiting _ _ hat.1 hat.2
  have hprepared : prepare? g = some (g, ids, views) := by
    simp [prepare?, settleAll?_of_upToDate hlisted hvalid, hids, hviews]
  have hfine : ∀ result ∈ views.map (buildTask cx.catalog), result.error? = none := by
    intro result hresult
    rw [hresults result hresult]
    rfl
  have hcount : ids.length = g.nodes.countP needsImplementation := by
    rw [pending?_eq hids, ← List.countP_eq_length_filter, hlisted.countP_order]
  have hlength : (views.map (buildTask cx.catalog)).length = ids.length := by
    rw [List.length_map, hall.length_eq]
  have hids_lt : ∀ id ∈ ids, id.index < g.size := by
    intro id hid
    obtain ⟨node, hnode, _⟩ := (hmem id).1 hid
    exact Graph.lt_size_of_node? hnode
  rw [run?_eq, hprepared, Option.bind_eq_bind, Option.bind_some]
  dsimp only
  rw [finish?_of_fine _ hfine, storeAll?, storeAll?_deferred hclass hids_lt hlength hresults]
  simp [hcount]

end Construction

/-- Construction that ended well, run again, builds nothing, defers as many nodes as before, and
leaves the graph as it is, whatever the configuration and the executor.  What it starts from is a
declared graph, or what stages before construction make of one. -/
theorem rebuild_of_run {decls : List NodeDecl} {g : Graph}
    (hbuild : Graph.build? decls = some (.ok g)) {stages : List Stage}
    (hstages : stages <+ [.propagation, .agreement]) (cx₀ : Context) {cx : Context}
    (hjudges : cx.catalog.JudgesByExhibit) :
    ∃ before out, Pipeline.run? stages cx₀ g = some before ∧
      Construction.run? cx before.graph = some out ∧
      ∀ report, out.result = .ok report → ∀ cx' : Context, cx'.catalog = cx.catalog →
        ∃ again, Construction.run? cx' out.graph = some again ∧ again.graph = out.graph ∧
          again.result = .ok { deferred := report.deferred } := by
  obtain ⟨before, hbefore, hready⟩ := Pipeline.ready_of_run cx₀ hbuild hstages
  obtain ⟨out, hout, _⟩ := Construction.run?_spec cx hready.wellFormed hready.inOrder.listed
  refine ⟨before, out, hbefore, hout, fun report hok cx' hcatalog => ?_⟩
  obtain ⟨settled, _, hassigned, _, hcount⟩ := Construction.assigned_of_construction
    hready.wellFormed hready.inOrder.listed hready.unbuilt hjudges hout hok
  have hsteady := (hready.steady.run cx .construction).post_of_eq hout
  have hvalid := Construction.upToDate_of_run hready.wellFormed hready.classified hready.inOrder
    hout hok
  refine ⟨_, Construction.run?_of_waiting cx' hsteady.wellFormed hsteady.listed hsteady.classified
    hvalid fun id view hview hneeds => ?_, rfl, by rw [hcount]⟩
  obtain ⟨node, _, hnode, _, rfl⟩ := Graph.view?_eq_some_iff.1 hview
  rw [hcatalog]
  exact (hassigned hnode).buildTask_eq hview hneeds

/-- Of the six nodes three are built at first and one has to wait.  It still waits after the second
run, and the graph is the same. -/
theorem rebuild_patchwork : ∃ g, Graph.build? patchwork = some (.ok g) ∧
    [Stage.propagation, .agreement] <+ [.propagation, .agreement] ∧
    Builtin.catalog.JudgesByExhibit ∧
    (plan? { catalog := Builtin.catalog } g).map (fun out => out.result.toOption.map fun total =>
      (total.changed, total.implementationsBuilt, total.deferred)) = some (some (true, 3, 1)) ∧
    ∃ before out, Pipeline.run? [.propagation, .agreement] { catalog := Builtin.catalog } g =
        some before ∧
      Construction.run? { catalog := Builtin.catalog } before.graph = some out ∧
      ∀ report, out.result = .ok report → ∀ cx' : Context, cx'.catalog = Builtin.catalog →
        ∃ again, Construction.run? cx' out.graph = some again ∧ again.graph = out.graph ∧
          again.result = .ok { deferred := report.deferred } :=
  ⟨_, rfl, List.Sublist.refl _, Builtin.judgesByExhibit, rfl,
    @rebuild_of_run patchwork _ rfl _ (List.Sublist.refl _) _ { catalog := Builtin.catalog }
      Builtin.judgesByExhibit⟩

end LayoutPlanner
