import LayoutPlanner.Proofs.Buildable
import LayoutPlanner.Proofs.Exhibits
import LayoutPlanner.Proofs.ProcessingOrder
import LayoutPlanner.Proofs.TaskOrders

/-!
# Complete assignments

What runs the nodes of a graph once planning has ended well.

* Storing: `Stored` follows the loop that stores the results of the tasks, with the backing of every
  node and the counts of the report.
* `Assigned`: how a node of the finished graph ends up.  It needs nothing, or it has what the first
  entry that qualifies for it has built, or it waits for its shapes and no entry qualifies.  The
  entry is told from the finished graph, although the choice was made before anything was stored;
  the catalog must judge nodes by what is shown of them.
-/

namespace LayoutPlanner

namespace Graph

/-- Changing a node changes the number of nodes of some sort by at most that node. -/
theorem countP_update {g g' : Graph} {id : NodeId} {node : Node} {change : Node → Node}
    (h : g.update? id change = some g') (hnode : g.node? id = some node) (p : Node → Bool) :
    g'.nodes.countP p + (if p node then 1 else 0) =
      g.nodes.countP p + if p (change node) then 1 else 0 := by
  obtain ⟨hlt, rfl⟩ := update?_eq_some_iff.1 h
  obtain ⟨_, rfl⟩ := List.getElem?_eq_some_iff.1 hnode
  have hsplit : g.nodes =
      g.nodes.take id.index ++ g.nodes[id.index] :: g.nodes.drop (id.index + 1) := by
    rw [List.getElem_cons_drop, List.take_append_drop]
  have hcount := congrArg (List.countP p) hsplit
  rw [List.countP_append, List.countP_cons] at hcount
  rw [List.modify_eq_take_cons_drop hlt, List.countP_append, List.countP_cons]
  omega

/-- Counting nodes in processing order. -/
theorem ListsAll.countP_order {g : Graph} (hg : g.ListsAll) (p : Node → Bool) :
    g.order.countP (fun id => (g.node? id).any p) = g.nodes.countP p := by
  have hany : ∀ found : Option Node, found.any p = (found.map p).getD false := by
    intro found
    cases found <;> rfl
  calc g.order.countP (fun id => (g.node? id).any p)
      = (List.range g.size).countP fun i => ((g.nodes[i]?).map p).getD false := by
        rw [List.Perm.countP_eq _ hg, List.countP_map]
        exact congrArg (List.countP · _) (funext fun i => hany _)
    _ = ((List.range g.size).filterMap (g.nodes[·]?)).countP p := List.countP_filterMap.symm
    _ = g.nodes.countP p := by rw [size, filterMap_getElem?_range]

end Graph

namespace Construction

theorem pending?_eq {g : Graph} {ids : List NodeId} (h : pending? g = some ids) :
    ids = g.order.filter fun id => (g.node? id).any needsImplementation := by
  obtain ⟨pairs, hpairs, heq⟩ := Option.bind_eq_some_iff.1 h
  clear h
  cases heq
  generalize g.order = order at hpairs
  induction order generalizing pairs with
  | nil =>
    cases hpairs
    rfl
  | cons id rest ih =>
    rw [List.mapM_cons] at hpairs
    obtain ⟨pair, hpair, hpairs⟩ := Option.bind_eq_some_iff.1 hpairs
    obtain ⟨node, hnode, hpair⟩ := Option.bind_eq_some_iff.1 hpair
    obtain ⟨tail, htail, hpairs⟩ := Option.bind_eq_some_iff.1 hpairs
    cases hpair
    cases hpairs
    rw [List.filterMap_cons, List.filter_cons, hnode, ih tail htail]
    dsimp only
    split <;> simp_all

/-! ## Storing -/

/-- What a task makes of its node. -/
def TaskResult.leave (result : TaskResult) (shapeClass : ShapeClass) (node : Node) : Node :=
  match result with
  | built assignment => install assignment.handle { node with shapeClass }
  | deferred | failed _ => { node with shapeClass }

/-- The results of the tasks `done` are stored in `state`.  Of the nodes of `settled`, `total`
needed an implementation. -/
structure Stored (settled : Graph) (total : Nat) (done : List (NodeId × TaskResult))
    (state : Graph × Report) : Prop where
  installs : Installs settled state.1
  others : ∀ {id}, id ∉ done.map Prod.fst → state.1.node? id = settled.node? id
  stored : ∀ {id result}, (id, result) ∈ done → ∃ seen, settled.view? id = some seen ∧
    state.1.node? id = some (result.leave seen.shapeClass seen.node)
  built : state.2.implementationsBuilt = state.1.nodes.countP (·.implementation.isSome)
  deferred : state.2.deferred + total = state.1.nodes.countP needsImplementation + done.length

section

variable {g : Graph} {report : Report} {id : NodeId} {node : Node} {result : TaskResult}

theorem implementation_of_needs (h : needsImplementation node = true) :
    node.implementation = none := by
  simp only [needsImplementation, Bool.and_eq_true, Option.isNone_iff_eq_none] at h
  exact h.1.2

theorem needsImplementation_install (handle : Handle) :
    needsImplementation (install handle node) = false := by
  simp [needsImplementation, install]

theorem currentClass?_eq_view? : g.currentClass? id = (g.view? id).map NodeView.shapeClass := by
  unfold Graph.currentClass? Graph.view?
  cases g.node? id with
  | none => rfl
  | some node => cases g.inputs? id <;> rfl

/-- Storing a result touches the node of the task and no other. -/
theorem store?_nodes : Ensures (store? (g, report) (id, result)) fun out =>
    (∀ other, other ≠ id → out.1.node? other = g.node? other) ∧
      ∃ seen, g.view? id = some seen ∧
        out.1.node? id = some (result.leave seen.shapeClass seen.node) := by
  intro out hout
  obtain ⟨g₁, hg₁, hout⟩ := Option.bind_eq_some_iff.1 hout
  obtain ⟨shapeClass, hclass, hg₁⟩ := Option.bind_eq_some_iff.1 hg₁
  rw [currentClass?_eq_view?] at hclass
  obtain ⟨seen, hseen, rfl⟩ := Option.map_eq_some_iff.1 hclass
  obtain ⟨node, _, hnode, _, rfl⟩ := Graph.view?_eq_some_iff.1 hseen
  have hothers : ∀ other, other ≠ id → g₁.node? other = g.node? other := by
    intro other hne
    simp only [Graph.node?_update hg₁ other, if_neg hne, Option.map_id']
  have hself := Graph.node?_update hg₁ id
  rw [hnode, Option.map_some, if_pos rfl] at hself
  cases result with
  | built assignment =>
    obtain ⟨g₂, hg₂, hout⟩ := Option.bind_eq_some_iff.1 hout
    cases hout
    refine ⟨fun other hne => ?_, _, hseen, ?_⟩
    · simp only [Graph.node?_update hg₂ other, if_neg hne, Option.map_id', hothers other hne]
    · rw [Graph.node?_update hg₂ id, hself, Option.map_some, if_pos rfl]
      rfl
  | deferred | failed _ =>
    cases hout
    exact ⟨hothers, _, hseen, hself⟩

/-- A node that is built is one more with an implementation and one less that needs one; a node that
is deferred still needs one. -/
theorem store?_counts (hnode : g.node? id = some node) (hneeds : needsImplementation node = true)
    (hfine : result.error? = none) : Ensures (store? (g, report) (id, result)) fun out =>
      out.2.implementationsBuilt + g.nodes.countP (·.implementation.isSome) =
        report.implementationsBuilt + out.1.nodes.countP (·.implementation.isSome) ∧
      out.2.deferred + g.nodes.countP needsImplementation =
        report.deferred + out.1.nodes.countP needsImplementation + 1 := by
  intro out hout
  obtain ⟨g₁, hg₁, hout⟩ := Option.bind_eq_some_iff.1 hout
  obtain ⟨shapeClass, _, hg₁⟩ := Option.bind_eq_some_iff.1 hg₁
  have hnone := implementation_of_needs hneeds
  have hneeds₁ : needsImplementation { node with shapeClass } = true := hneeds
  have hbuilt := Graph.countP_update hg₁ hnode fun node => node.implementation.isSome
  have hopen := Graph.countP_update hg₁ hnode needsImplementation
  rw [if_pos hneeds, if_pos hneeds₁] at hopen
  simp only [hnone, Option.isSome_none, Bool.false_eq_true, if_false] at hbuilt
  cases result with
  | deferred =>
    cases hout
    dsimp only
    omega
  | failed _ => cases hfine
  | built assignment =>
    obtain ⟨g₂, hg₂, hout⟩ := Option.bind_eq_some_iff.1 hout
    cases hout
    have hnode₁ := Graph.node?_update hg₁ id
    rw [hnode, Option.map_some, if_pos rfl] at hnode₁
    have hstored := Graph.countP_update hg₂ hnode₁ fun node => node.implementation.isSome
    have hserved := Graph.countP_update hg₂ hnode₁ needsImplementation
    rw [needsImplementation_install, if_neg Bool.false_ne_true, if_pos hneeds₁] at hserved
    simp only [hnone, install, Option.isSome_none, Option.isSome_some, Bool.false_eq_true, if_false,
      if_true] at hstored
    dsimp only
    omega

end

variable {settled : Graph} {total : Nat} {done : List (NodeId × TaskResult)}
  {state : Graph × Report}

/-- One more result. -/
theorem Stored.step (h : Stored settled total done state) (hsettled : settled.WellFormed)
    {id : NodeId} {node : Node} (hnode : settled.node? id = some node)
    (hneeds : needsImplementation node = true) (hnew : id ∉ done.map Prod.fst)
    {result : TaskResult} (hfine : result.error? = none) :
    Yields (store? state (id, result)) (Stored settled total (done ++ [(id, result)])) := by
  obtain ⟨g, report⟩ := state
  have hnode₁ : g.node? id = some node := (h.others hnew).trans hnode
  have hwf := hsettled.of_sameWiring h.installs.content.wiring
  obtain ⟨out, hout, hinstalls⟩ := store?_spec hwf (Graph.lt_size_of_node? hnode₁) report result
  obtain ⟨hothers, hself⟩ := store?_nodes out hout
  obtain ⟨hbuilt, hdeferred⟩ := store?_counts hnode₁ hneeds hfine out hout
  refine .of_eq hout ⟨h.installs.trans hinstalls, ?_, ?_, ?_, ?_⟩
  · intro other hother
    rw [List.map_append, List.mem_append, not_or] at hother
    rw [hothers other (by simpa using hother.2), h.others hother.1]
  · intro other result' hmem
    rcases List.mem_append.1 hmem with hold | hlast
    · have hne : other ≠ id := by
        rintro rfl
        exact hnew (List.mem_map.2 ⟨_, hold, rfl⟩)
      rw [hothers other hne]
      exact h.stored hold
    · obtain ⟨rfl, rfl⟩ := Prod.mk.inj (List.mem_singleton.1 hlast)
      obtain ⟨inputs, _, hseen⟩ := hsettled.exists_view hnode
      obtain ⟨view, hview, hleft⟩ := hself
      refine ⟨_, hseen, ?_⟩
      have hclass := h.installs.content.shapeClass_eq hseen hview
      obtain ⟨_, _, hfound, _, rfl⟩ := Graph.view?_eq_some_iff.1 hview
      obtain rfl := Option.some.inj (hnode₁.symm.trans hfound)
      rw [hleft, hclass]
  · have hbefore := h.built
    dsimp only at hbefore hbuilt
    omega
  · have hbefore := h.deferred
    dsimp only at hbefore hdeferred
    rw [List.length_append, List.length_singleton]
    omega

/-- All results. -/
theorem stored_of_tasks (hsettled : settled.WellFormed) (hunbuilt : settled.Unbuilt)
    {tasks : List (NodeId × TaskResult)} (hnodup : (tasks.map Prod.fst).Nodup)
    (htasks : ∀ {id result}, (id, result) ∈ tasks → result.error? = none ∧
      ∃ node, settled.node? id = some node ∧ needsImplementation node = true) :
    Yields (tasks.foldlM store? (settled, {}))
      (Stored settled (settled.nodes.countP needsImplementation) tasks) := by
  refine Yields.foldlM (Stored settled _) ⟨⟨.refl settled, fun hnode => ⟨_, hnode, rfl⟩⟩,
    fun _ => rfl, fun hmem => absurd hmem List.not_mem_nil, ?_, ?_⟩ ?_
  · refine (List.countP_eq_zero.2 fun node hmem => ?_).symm
    simp [hunbuilt node hmem]
  · simp
  · rintro done ⟨id, result⟩ rest state hsplit hstored
    obtain ⟨hfine, node, hnode, hneeds⟩ := htasks (by simp [hsplit] : (id, result) ∈ tasks)
    refine hstored.step hsettled hnode hneeds ?_ hfine
    rw [hsplit, List.map_append, List.map_cons, List.nodup_append] at hnodup
    exact fun hmem => hnodup.2.2 id hmem id (by simp) rfl

/-! ## Assignments -/

/-- Storing implementations changes nothing that is shown. -/
theorem Installs.exhibit_eq {final : Graph} (h : Installs settled final) {id : NodeId}
    {v v' : NodeView} (hview : settled.view? id = some v) (hview' : final.view? id = some v') :
    v'.exhibit = v.exhibit := by
  obtain ⟨node, _, hnode, _, hv⟩ := Graph.view?_eq_some_iff.1 hview
  obtain ⟨node', _, hnode', _, hv'⟩ := Graph.view?_eq_some_iff.1 hview'
  obtain ⟨_, hfound, hsame⟩ := h.nodes hnode
  obtain rfl := Option.some.inj (hnode'.symm.trans hfound)
  have hop : node'.op = node.op := (congrArg Node.op hsame :)
  have hprefers : node'.prefers = node.prefers := (congrArg Node.prefers hsame :)
  have hinputs := Graph.exhibit_inputs_eq (fun shown => shown) hview hview' fun slot => by
    cases hinput : settled.input? id slot with
    | none =>
      cases hinput' : final.input? id slot with
      | none => rfl
      | some input' =>
        obtain ⟨_, hfound', _⟩ := h.content.symm.exists_input hinput'
        rw [hinput] at hfound'
        cases hfound'
    | some input =>
      obtain ⟨input', hinput', hproducer, hlayout⟩ := h.exists_input hinput
      have hreal : input'.isReal = input.isReal := by
        rw [Input.isReal, Input.isReal, Node.isConstant_congr (Node.op_of_content hproducer)]
      have hslot : input'.slot = input.slot := by
        rw [Graph.slot_of_input? hinput, Graph.slot_of_input? hinput']
      rw [hinput', hv, hv']
      simp only [Option.map_some, Function.comp_apply, Node.seen, hreal,
        Node.shownInput_congr hprefers hop hslot hlayout]
  rw [List.map_id', List.map_id'] at hinputs
  subst hv hv'
  have houtputs : node'.outputs = node.outputs := (congrArg Node.outputs hsame :)
  refine Exhibit.ext hop ?_ ?_ ?_ hinputs houtputs
  · exact (congrArg Node.name hsame :)
  · exact (congrArg Node.attrs hsame :)
  · exact (congrArg Node.fused hsame :)

/-- Nothing runs a constant, or a buffer that nothing feeds. -/
def IsPassive (node : Node) : Prop :=
  node.isConstant = true ∨ node.op = .mutableBuffer ∧ node.deps = []

/-- What runs a node of the finished graph.  The implementations were built on `settled`. -/
inductive Assigned (catalog : Catalog) (settled final : Graph) (id : NodeId) (node : Node) : Prop
  | passive (hpassive : IsPassive node) (hnone : node.implementation = none)
  | built {view seen : NodeView} {c : Capability} {handle : Handle} (hactive : ¬ IsPassive node)
      (hview : final.view? id = some view) (hclass : node.shapeClass = view.shapeClass)
      (helects : catalog.Elects view (buildMask node) c)
      (hseen : settled.view? id = some seen) (hbuild : c.build seen = .built handle)
      (himplementation : node.implementation = some handle)
      (hselected : node.selected = some handle.kind)
  | deferred {view : NodeView} (hactive : ¬ IsPassive node) (hview : final.view? id = some view)
      (hclass : node.shapeClass = view.shapeClass) (hdynamic : node.shapeClass.isDynamic = true)
      (hpasses : catalog.Passes view (buildMask node)) (hnone : node.implementation = none)

theorem needsImplementation_iff {node : Node} (hnone : node.implementation = none) :
    needsImplementation node = true ↔ ¬ IsPassive node := by
  simp only [needsImplementation, IsPassive, hnone, Option.isNone_none, Bool.and_true,
    Bool.and_eq_true, Bool.not_eq_true', Bool.and_eq_false_iff, beq_eq_false_iff_ne,
    List.isEmpty_eq_false_iff, not_or, not_and_or, Bool.not_eq_true]

/-- A run that ended well has no task that fails. -/
theorem fine_of_run {cx : Context} {g : Graph} {out : Outcome} {report : Report}
    (hout : run? cx g = some out) (hok : out.result = .ok report) :
    ∃ settled ids views, settleAll? g = some settled ∧ pending? settled = some ids ∧
      ids.mapM settled.view? = some views ∧
      (∀ result ∈ views.map (buildTask cx.catalog), result.error? = none) ∧
      storeAll? settled ids (views.map (buildTask cx.catalog)) [] = some out := by
  rw [run?_eq] at hout
  obtain ⟨⟨settled, ids, views⟩, hprepared, hout⟩ := Option.bind_eq_some_iff.1 hout
  obtain ⟨hsettled, hids, hviews⟩ := of_prepare? hprepared
  refine ⟨settled, ids, views, hsettled, hids, hviews, ?_⟩
  dsimp only at hout
  by_cases hfine : ∀ result ∈ views.map (buildTask cx.catalog), result.error? = none
  · exact ⟨hfine, finish?_of_fine _ hfine ▸ hout⟩
  · obtain ⟨error, _, heq⟩ := finish?_of_failure (executorOf cx) hfine
    rw [heq] at hout
    cases hout
    cases hok

/-- The tasks: one for each node to build, with what its view comes to. -/
theorem tasks_of_mapM {α β γ : Type} {f : α → Option β} {items : List α} {results : List β}
    (h : items.mapM f = some results) (judge : β → γ) :
    (items.zip (results.map judge)).map Prod.fst = items ∧
      ∀ a c, (a, c) ∈ items.zip (results.map judge) ↔
        a ∈ items ∧ ∃ b, f a = some b ∧ judge b = c := by
  induction items generalizing results with
  | nil => simp
  | cons item rest ih =>
    rw [List.mapM_cons] at h
    obtain ⟨b, hb, h⟩ := Option.bind_eq_some_iff.1 h
    obtain ⟨tail, htail, h⟩ := Option.bind_eq_some_iff.1 h
    cases h
    obtain ⟨hfst, hmem⟩ := ih htail
    refine ⟨by simpa using hfst, fun a c => ?_⟩
    simp only [List.map_cons, List.zip_cons_cons, List.mem_cons, Prod.mk.injEq, hmem]
    constructor
    · rintro (⟨rfl, rfl⟩ | ⟨ha, hc⟩)
      · exact ⟨.inl rfl, b, hb, rfl⟩
      · exact ⟨.inr ha, hc⟩
    · rintro ⟨rfl | ha, hc⟩
      · obtain ⟨b', hb', rfl⟩ := hc
        obtain rfl := Option.some.inj (hb.symm.trans hb')
        exact .inl ⟨rfl, rfl⟩
      · exact .inr ⟨ha, hc⟩

/-- A node with a task. -/
theorem Stored.assigned (h : Stored settled total done state) (hsettled : settled.WellFormed)
    {catalog : Catalog} (hjudges : catalog.JudgesByExhibit) {id : NodeId} {seen : NodeView}
    (hseen : settled.view? id = some seen) (hneeds : needsImplementation seen.node = true)
    (htask : (id, buildTask catalog seen) ∈ done) (hfine : (buildTask catalog seen).error? = none)
    {node : Node} (hnode : state.1.node? id = some node) :
    Assigned catalog settled state.1 id node := by
  have hnone := implementation_of_needs hneeds
  have hactive := (needsImplementation_iff hnone).1 hneeds
  obtain ⟨_, hfound, hleft⟩ := h.stored htask
  obtain rfl := Option.some.inj (hseen.symm.trans hfound)
  obtain rfl := Option.some.inj (hnode.symm.trans hleft)
  obtain ⟨inputs, _, hview⟩ :=
    (hsettled.of_sameWiring h.installs.content.wiring).exists_view hnode
  have hexhibit := h.installs.exhibit_eq hseen hview
  have hop := congrArg Exhibit.op hexhibit
  have hclass := NodeView.shapeClass_of_exhibit (by rw [hexhibit])
    (congrArg Exhibit.outputs hexhibit)
  have hresult := judges_buildTask catalog seen
  generalize buildTask catalog seen = result at *
  cases hresult with
  | built helects hbuild =>
    exact .built hactive hview hclass.symm (hjudges.elects hexhibit hop hclass helects) hseen hbuild
      rfl rfl
  | deferred hdynamic hpasses =>
    exact .deferred hactive hview hclass.symm hdynamic
      (hjudges.passes hexhibit hop hclass hpasses) hnone
  | failed => cases hfine

theorem assigned_of_construction {cx : Context} {g : Graph} {out : Outcome} {report : Report}
    (hg : g.WellFormed) (hlisted : g.ListsAll) (hunbuilt : g.Unbuilt)
    (hjudges : cx.catalog.JudgesByExhibit) (hout : run? cx g = some out)
    (hok : out.result = .ok report) :
    ∃ settled, Installs settled out.graph ∧
      (∀ {id node}, out.graph.node? id = some node →
        Assigned cx.catalog settled out.graph id node) ∧
      report.implementationsBuilt = out.graph.nodes.countP (·.implementation.isSome) ∧
      report.deferred = out.graph.nodes.countP needsImplementation := by
  obtain ⟨settled, ids, views, hsettled, hids, hviews, hfine, hstore⟩ := fine_of_run hout hok
  have hsettles := (settleAll?_spec hg hlisted).post_of_eq hsettled
  have hwf := hg.of_sameWiring hsettles.content.wiring
  have hall := hsettles.content.listsAll hlisted
  have hunbuilt' := hunbuilt.of_backing (settleAll?_backing _ hsettled)
  have hpending := pending?_eq hids
  have hmem := (pending?_spec hall).post_of_eq hids
  obtain ⟨hfst, htasks⟩ := tasks_of_mapM hviews (buildTask cx.catalog)
  have hnodup : ((ids.zip (views.map (buildTask cx.catalog))).map Prod.fst).Nodup := by
    rw [hfst, hpending]
    exact hall.nodup.filter _
  have hstored := stored_of_tasks hwf hunbuilt' hnodup fun {id result} htask =>
    ⟨hfine result (List.of_mem_zip htask).2, (hmem id).1 (List.of_mem_zip htask).1⟩
  obtain ⟨⟨final, stored⟩, hfold, hstore⟩ := Option.bind_eq_some_iff.1 hstore
  have hdone := hstored.post_of_eq hfold
  cases hstore
  cases hok
  refine ⟨settled, hdone.installs, fun {id node} hnode => ?_, hdone.built, ?_⟩
  · by_cases hid : id ∈ ids
    · obtain ⟨old, hold, hneeds⟩ := (hmem id).1 hid
      obtain ⟨_, _, hseen⟩ := hwf.exists_view hold
      have htask := (htasks id _).2 ⟨hid, _, hseen, rfl⟩
      exact hdone.assigned hwf hjudges hseen hneeds htask
        (hfine _ (List.of_mem_zip htask).2) hnode
    · have hold : settled.node? id = some node := (hdone.others (by rwa [hfst])).symm.trans hnode
      have hnone := hunbuilt' node (List.mem_of_getElem? hold)
      refine .passive ?_ hnone
      by_contra hactive
      exact hid ((hmem id).2 ⟨node, hold, (needsImplementation_iff hnone).2 hactive⟩)
  · have hlength := congrArg List.length hfst
    have hcount := hall.countP_order needsImplementation
    rw [List.length_map] at hlength
    rw [List.countP_eq_length_filter, ← hpending] at hcount
    have hdeferred := hdone.deferred
    dsimp only at hdeferred ⊢
    omega

end Construction

/-- A plan that ends well gives every node its implementation, or leaves it to the first run. -/
theorem assigned_of_plan {decls : List NodeDecl} {g : Graph}
    (hg : Graph.build? decls = some (.ok g)) {cx : Context}
    (hjudges : cx.catalog.JudgesByExhibit) :
    ∃ out, plan? cx g = some out ∧ ∀ total, out.result = .ok total →
      ∃ settled, Construction.Installs settled out.graph ∧
        (∀ id node, out.graph.node? id = some node →
          Construction.Assigned cx.catalog settled out.graph id node) ∧
        total.implementationsBuilt = out.graph.nodes.countP (·.implementation.isSome) ∧
        total.deferred = out.graph.nodes.countP Construction.needsImplementation := by
  have hfresh := Graph.fresh_of_build hg
  have hunbuilt : g.Unbuilt :=
    Graph.unbuilt_iff.2 fun _ _ hnode => (hfresh.undecided hnode).implementation
  obtain ⟨out, hout, _⟩ := plan?_spec cx hfresh
  refine ⟨out, hout, fun total hok => ?_⟩
  rcases unbuilt_or_reaches hunbuilt hout with ⟨⟨error, herror⟩, _⟩ | ⟨swept, agreed, built, h⟩
  · rw [hok] at herror
    cases herror
  rcases h.result with ⟨error, _, herror⟩ | ⟨report, total', hreport, htotal, hbuilt, hdeferred⟩
  · rw [hok] at herror
    cases herror
  rw [hok] at htotal
  cases htotal
  obtain ⟨_, s, _, hgraph, hsame⟩ := (Propagation.run?_spec cx hfresh.toOrdered).post_of_eq h.sweeps
  have hstart : swept.graph.Ordered := hgraph ▸ hfresh.toOrdered.of_sameContent hsame
  obtain ⟨s', _, hsound, hgraph', _⟩ := (Reconciliation.run?_spec cx hstart).post_of_eq h.agrees
  obtain ⟨settled, hinstalls, hassigned, hcount, hcount'⟩ := Construction.assigned_of_construction
    (hgraph' ▸ hsound.wellFormed) (hgraph' ▸ hsound.listed) h.unbuilt hjudges h.builds hreport
  rw [h.graph]
  exact ⟨settled, hinstalls, fun _ _ hnode => hassigned hnode, hbuilt.trans hcount,
    hdeferred.trans hcount'⟩

/-- A convolution of bytes, next to a constant, a buffer that nothing feeds, and a node of unknown
shape in a format that only vendor routines know. -/
def patchwork : List NodeDecl :=
  byteConvolution ++
    [{ name := "weights", op := .constant,
       outputs := [⟨.ofExtents [1, 16, 8, 8], .si8, .bfyx, {}⟩] },
      { name := "cache", op := .mutableBuffer,
        outputs := [⟨.ofExtents [1, 16, 8, 8], .si8, .bfyx, {}⟩] },
      { name := "noise", op := .activation,
        outputs := [⟨⟨[.dynamic "n", .static 16, .static 8, .static 8]⟩, .si8, .bFsYxFsv32, {}⟩] }]

/-- Of the six nodes three are built, the reorder among them, and one is deferred. -/
theorem assigned_patchwork : ∃ g, Graph.build? patchwork = some (.ok g) ∧
    Builtin.catalog.JudgesByExhibit ∧
    (plan? { catalog := Builtin.catalog } g).map (fun out => (out.graph.size,
      out.result.toOption.map fun total => (total.implementationsBuilt, total.deferred))) =
        some (6, some (3, 1)) ∧
    ∃ out, plan? { catalog := Builtin.catalog } g = some out ∧
      ∀ total, out.result = .ok total → ∃ settled, Construction.Installs settled out.graph ∧
        (∀ id node, out.graph.node? id = some node →
          Construction.Assigned Builtin.catalog settled out.graph id node) ∧
        total.implementationsBuilt = out.graph.nodes.countP (·.implementation.isSome) ∧
        total.deferred = out.graph.nodes.countP Construction.needsImplementation :=
  ⟨_, rfl, Builtin.judgesByExhibit, rfl,
    @assigned_of_plan patchwork _ rfl { catalog := Builtin.catalog } Builtin.judgesByExhibit⟩

end LayoutPlanner
