import LayoutPlanner.Planning.Construction
import LayoutPlanner.Proofs.BuiltGraphs

/-!
# Building

Construction settles every node, judges the nodes that need an implementation on the graph that this
leads to, and stores what was built.  It moves no edge, and the only formats it changes are those
that are not chosen or not the preferred ones.
-/

namespace LayoutPlanner

namespace Construction

/-- Every node was settled, and nothing else happened to it. -/
structure Settles (g g' : Graph) : Prop where
  content : Graph.SameContent g g'
  nodes : ∀ {id node}, g.node? id = some node → ∃ node', g'.node? id = some node' ∧
    node.SettlesTo node' ∧ (node.isConstant = true → node'.bare = node.bare)

protected theorem Settles.refl (g : Graph) : Settles g g :=
  ⟨.refl g, fun hnode => ⟨_, hnode, .refl _, fun _ => rfl⟩⟩

protected theorem Settles.trans {g g' g'' : Graph} (h : Settles g g') (h' : Settles g' g'') :
    Settles g g'' := by
  refine ⟨h.content.trans h'.content, fun {id node} hnode => ?_⟩
  obtain ⟨node', hnode', hsettles, hconstant⟩ := h.nodes hnode
  obtain ⟨node'', hnode'', hsettles', hconstant'⟩ := h'.nodes hnode'
  refine ⟨node'', hnode'', hsettles.trans hsettles', fun hop => ?_⟩
  have hop' : node'.isConstant = true := by
    obtain ⟨_, hfound, hcontent⟩ := h.content.nodes.exists_new hnode
    obtain rfl := Option.some.inj (hnode'.symm.trans hfound)
    rw [Node.isConstant_congr (Node.op_of_content hcontent), hop]
  exact (hconstant' hop').trans (hconstant hop)

theorem settles_of_settle {g : Graph} (hg : g.WellFormed) {id : NodeId} {node : Node}
    (hnode : g.node? id = some node) (hdata : node.isConstant = false) :
    Yields (g.settle? id) (Settles g) := by
  refine (Graph.settle?_spec hg hnode).mono ?_
  rintro g' ⟨hedit, inherited, new, _, hnew, hbare⟩
  refine ⟨hedit.content, fun {other node'} hnode' => ?_⟩
  by_cases hne : other = id
  · subst hne
    obtain rfl := Option.some.inj (hnode.symm.trans hnode')
    refine ⟨new, hnew, (node.settlesTo_afterSettling inherited).trans (.of_bare hbare), ?_⟩
    intro hconstant
    rw [hconstant] at hdata
    exact Bool.noConfusion hdata
  · obtain ⟨node'', hnode'', hsame⟩ := exists_of_map_eq (hedit.others other hne) hnode'
    exact ⟨node'', hnode'', .of_bare hsame, fun _ => hsame⟩

/-- One step of settling all nodes. -/
theorem settleData?_spec {g : Graph} (hg : g.WellFormed) {id : NodeId} (hid : id.index < g.size) :
    Yields (do if (← g.node? id).isConstant then return g else g.settle? id) (Settles g) := by
  obtain ⟨node, hnode⟩ := Graph.exists_node hid
  refine Yields.bind_eq hnode ?_
  split
  next => exact Yields.pure (.refl g)
  next hdata => exact settles_of_settle hg hnode (by simpa using hdata)

theorem settleAll?_spec {g : Graph} (hg : g.WellFormed) (hlisted : g.ListsAll) :
    Yields (settleAll? g) (Settles g) := by
  refine Yields.foldlM_inv (Settles g) (.refl g) ?_
  intro id hid g₁ hsettles
  have hlt : id.index < g₁.size := hsettles.content.nodes.size_eq ▸ hlisted.lt_size hid
  exact (settleData?_spec (hg.of_sameWiring hsettles.content.wiring) hlt).mono fun _ h =>
    hsettles.trans h

/-- The nodes got implementations, and nothing else happened to them. -/
structure Installs (g g' : Graph) : Prop where
  content : Graph.SameContent g g'
  nodes : ∀ {id node}, g.node? id = some node → ∃ node', g'.node? id = some node' ∧
    { node' with selected := node.selected, implementation := node.implementation }.bare = node.bare

theorem store?_spec {g : Graph} (hg : g.WellFormed) {id : NodeId} (hid : id.index < g.size)
    (report : Report) (result : TaskResult) :
    Yields (store? (g, report) (id, result)) fun out => Installs g out.1 := by
  obtain ⟨node, hnode⟩ := Graph.exists_node hid
  refine Yields.bind (Graph.refresh?_spec hg hnode) ?_
  rintro g₁ ⟨hedit, htidied, node₁, hnode₁, hbare, _⟩
  have hkept : Installs g g₁ := by
    refine ⟨hedit.content, fun {other old} hold => ?_⟩
    obtain ⟨new, hnew, hsame⟩ := htidied.bare.exists_new hold
    refine ⟨new, hnew, ?_⟩
    have heq := congrArg (fun kept : Node =>
      { kept with selected := old.selected, implementation := old.implementation }) hsame
    exact heq
  cases result with
  | deferred => exact Yields.pure hkept
  | failed _ => exact Yields.pure hkept
  | built assignment =>
    refine Yields.bind (Graph.update?_spec hnode₁) ?_
    rintro g₂ ⟨horder, hnew, hothers⟩
    have hedit₂ := Graph.localEdit_of_update hnode₁ horder hnew hothers rfl
    refine Yields.pure ⟨hkept.content.trans hedit₂.content, fun {other old} hold => ?_⟩
    obtain ⟨new, hnew', hsame⟩ := hkept.nodes hold
    by_cases hne : other = id
    · subst hne
      obtain rfl := Option.some.inj (hnode₁.symm.trans hnew')
      exact ⟨_, hnew, hsame⟩
    · exact ⟨new, (hothers other hne).trans hnew', hsame⟩

protected theorem Installs.trans {g g' g'' : Graph} (h : Installs g g') (h' : Installs g' g'') :
    Installs g g'' := by
  refine ⟨h.content.trans h'.content, fun {id node} hnode => ?_⟩
  obtain ⟨node', hnode', hsame⟩ := h.nodes hnode
  obtain ⟨node'', hnode'', hsame'⟩ := h'.nodes hnode'
  refine ⟨node'', hnode'', ?_⟩
  have heq := congrArg (fun kept : Node =>
    { kept with selected := node.selected, implementation := node.implementation }) hsame'
  exact Eq.trans heq hsame

theorem pending?_spec {g : Graph} (hlisted : g.ListsAll) :
    Yields (pending? g) fun ids => ∀ id, id ∈ ids ↔
      ∃ node, g.node? id = some node ∧ needsImplementation node = true := by
  have hmap : Yields (g.order.mapM fun id => do return (id, ← g.node? id))
      fun pairs => List.Forall₂ (fun id pair => g.node? id = some pair.2 ∧ pair.1 = id)
        g.order pairs := by
    refine Yields.mapM fun id hid => ?_
    obtain ⟨node, hnode⟩ := Graph.exists_node (hlisted.lt_size hid)
    exact Yields.bind_eq hnode (Yields.pure ⟨hnode, rfl⟩)
  refine Yields.bind hmap fun pairs hpairs => Yields.pure fun id => ?_
  simp only [List.mem_filterMap, Prod.exists, Option.ite_none_right_eq_some, Option.some.injEq]
  constructor
  · rintro ⟨other, node, hmem, hneeds, rfl⟩
    obtain ⟨i, hi, hget⟩ := List.getElem_of_mem hmem
    have hat := hpairs.get (hpairs.length_eq ▸ hi) hi
    simp only [List.get_eq_getElem, hget] at hat
    exact ⟨node, hat.2 ▸ hat.1, hneeds⟩
  · rintro ⟨node, hnode, hneeds⟩
    have hmem : id ∈ g.order := hlisted.mem_iff.2
      (List.mem_map.2 ⟨id.index, List.mem_range.2 (Graph.lt_size_of_node? hnode), rfl⟩)
    obtain ⟨i, hi, hget⟩ := List.getElem_of_mem hmem
    have hi' : i < pairs.length := hpairs.length_eq ▸ hi
    have hat := hpairs.get hi hi'
    simp only [List.get_eq_getElem, hget] at hat
    obtain ⟨hnode', hid⟩ := hat
    refine ⟨pairs[i].1, pairs[i].2, List.getElem_mem hi', ?_, hid⟩
    rw [← Option.some.inj (hnode.symm.trans hnode')]
    exact hneeds

/-- How construction ends: with the error of one of its tasks, or well. -/
structure Constructed (cx : Context) (g : Graph) (out : Outcome) (settled : Graph) : Prop where
  settles : Settles g settled
  installs : Installs settled out.graph
  ending : (∃ error id view, out.result = .error error ∧ settled.view? id = some view ∧
      needsImplementation view.node = true ∧
      (buildTask cx.catalog view).error? = some error) ∨
    ∃ report, out.result = .ok report

theorem Constructed.content {cx : Context} {g settled : Graph} {out : Outcome}
    (h : Constructed cx g out settled) : Graph.SameContent g out.graph :=
  h.settles.content.trans h.installs.content

/-- The nodes to build can be shown. -/
theorem views_spec {g : Graph} (hg : g.WellFormed) {ids : List NodeId}
    (hids : ∀ id, id ∈ ids ↔ ∃ node, g.node? id = some node ∧ needsImplementation node = true) :
    Yields (ids.mapM g.view?) fun views => List.Forall₂ (fun id view =>
      g.view? id = some view ∧ needsImplementation view.node = true) ids views := by
  refine Yields.mapM fun id hid => ?_
  obtain ⟨node, hnode, hneeds⟩ := (hids id).1 hid
  obtain ⟨_, _, hview⟩ := hg.exists_view hnode
  exact .of_eq hview ⟨hview, hneeds⟩

/-- Construction, with the graph that settling leads to. -/
theorem run?_settled (cx : Context) {g : Graph} (hg : g.WellFormed) (hlisted : g.ListsAll) :
    Yields (run? cx g) fun out => ∃ settled, settleAll? g = some settled ∧
      Constructed cx g out settled := by
  obtain ⟨g₁, hg₁_eq, hsettles⟩ := settleAll?_spec hg hlisted
  refine Yields.bind_eq hg₁_eq ?_
  have hg₁ := hg.of_sameWiring hsettles.content.wiring
  refine Yields.bind (pending?_spec (hsettles.content.listsAll hlisted)) fun ids hids => ?_
  refine Yields.bind (views_spec hg₁ hids) fun views hviews => ?_
  have hinstalls : Installs g₁ g₁ := ⟨.refl g₁, fun hnode => ⟨_, hnode, rfl⟩⟩
  dsimp only
  split
  next error herror =>
    obtain ⟨result, hresult, herror⟩ := List.exists_of_findSome?_eq_some herror
    obtain ⟨i, _, hget⟩ := List.mem_filterMap.1 hresult
    rw [List.getElem?_map] at hget
    obtain ⟨view, hview, rfl⟩ := Option.map_eq_some_iff.1 hget
    obtain ⟨hi, rfl⟩ := List.getElem?_eq_some_iff.1 hview
    have hat := hviews.get (hviews.length_eq ▸ hi) hi
    exact Yields.pure ⟨g₁, hg₁_eq, hsettles, hinstalls,
      Or.inl ⟨error, _, _, rfl, hat.1, hat.2, herror⟩⟩
  next =>
    have hstored : Yields ((ids.zip (views.map (buildTask cx.catalog))).foldlM store? (g₁, {}))
        fun state => Installs g₁ state.1 := by
      refine Yields.foldlM_inv (fun (state : Graph × Report) => Installs g₁ state.1) hinstalls ?_
      rintro ⟨id, result⟩ hmem ⟨g₂, report⟩ hinstalls₂
      obtain ⟨node, hnode, _⟩ := (hids id).1 (List.of_mem_zip hmem).1
      have hlt : id.index < g₂.size := by
        rw [hinstalls₂.content.nodes.size_eq]
        exact Graph.lt_size_of_node? hnode
      refine (store?_spec (hg₁.of_sameWiring hinstalls₂.content.wiring) hlt report result).mono ?_
      exact fun _ h => hinstalls₂.trans h
    refine Yields.bind hstored fun state hstate => Yields.pure ⟨g₁, hg₁_eq, hsettles, hstate, ?_⟩
    exact Or.inr ⟨_, rfl⟩

theorem run?_spec (cx : Context) {g : Graph} (hg : g.WellFormed) (hlisted : g.ListsAll) :
    Yields (run? cx g) fun out => ∃ settled, Constructed cx g out settled :=
  (run?_settled cx hg hlisted).mono fun _ h => h.imp fun _ hsettled => hsettled.2

/-- What becomes of a node: it is settled any number of times, and then it may get an
implementation. -/
theorem run?_related (cx : Context) {g : Graph} (hg : g.WellFormed) (hlisted : g.ListsAll)
    (rel : Node → Node → Prop) (hrefl : ∀ node, rel node node)
    (hsettle : ∀ {old node : Node} inherited, rel old node → rel old (node.afterSettling inherited))
    (hinstall : ∀ {old node node' : Node}, { node' with
      selected := node.selected, implementation := node.implementation }.bare = node.bare →
      rel old node → rel old node') :
    Yields (run? cx g) fun out => Graph.SameContent g out.graph ∧
      ∀ {id old node}, g.node? id = some old → out.graph.node? id = some node → rel old node := by
  have hbare : ∀ {old node node' : Node}, node'.bare = node.bare → rel old node →
      rel old node' := by
    intro old node node' h
    refine hinstall ?_
    exact congrArg (fun kept : Node =>
      { kept with selected := node.selected, implementation := node.implementation }) h
  have hsettled : Yields (settleAll? g) fun g' => Graph.SameContent g g' ∧
      ∀ {id old node}, g.node? id = some old → g'.node? id = some node → rel old node := by
    refine Yields.foldlM_inv (fun g' : Graph => Graph.SameContent g g' ∧ ∀ {id old node},
      g.node? id = some old → g'.node? id = some node → rel old node) ⟨.refl g, ?_⟩ ?_
    · intro id old node hold hnode
      obtain rfl := Option.some.inj (hold.symm.trans hnode)
      exact hrefl old
    rintro id hid g₁ ⟨hsame, hrel⟩
    obtain ⟨node, hnode⟩ := Graph.exists_node
      (show id.index < g₁.size from hsame.nodes.size_eq ▸ hlisted.lt_size hid)
    refine Yields.bind_eq hnode ?_
    split
    next => exact Yields.pure ⟨hsame, hrel⟩
    next =>
      refine (Graph.settle?_spec (hg.of_sameWiring hsame.wiring) hnode).mono ?_
      rintro g₂ ⟨hedit, inherited, new, _, hnew, hnew_bare⟩
      refine ⟨hsame.trans hedit.content, fun {other old node'} hold hnode' => ?_⟩
      by_cases hne : other = id
      · subst hne
        obtain rfl := Option.some.inj (hnew.symm.trans hnode')
        exact hbare hnew_bare (hsettle inherited (hrel hold hnode))
      · obtain ⟨kept, hkept, hkept_bare⟩ := exists_of_map_eq (hedit.others other hne).symm hnode'
        exact hbare hkept_bare.symm (hrel hold hkept)
  refine (run?_settled cx hg hlisted).mono ?_
  rintro out ⟨settled, hfound, hdone⟩
  refine ⟨hdone.content, fun {id old node'} hold hnode' => ?_⟩
  obtain ⟨node, hnode, _⟩ := hdone.installs.content.nodes.exists_old hnode'
  obtain ⟨_, hinstalled, hkept⟩ := hdone.installs.nodes hnode
  obtain rfl := Option.some.inj (hnode'.symm.trans hinstalled)
  exact hinstall hkept ((hsettled.post_of_eq hfound).2 hold hnode)

end Construction

end LayoutPlanner
