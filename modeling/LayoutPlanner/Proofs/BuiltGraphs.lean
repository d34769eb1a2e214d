import LayoutPlanner.Graph.Declaration
import LayoutPlanner.Proofs.EdgeEdits

/-!
# Built graphs

What is known about a graph when planning starts: it is well formed, its nodes are processed in the
order of their ids, every edge leads to an earlier node, and nothing has been decided yet.

* While nodes are declared, a node is listed as a reader of the earlier nodes only (`Declared`).
* The topology check accepts exactly the graphs whose nodes read outputs of nodes listed before them
  (`checkOrder?_ok_iff`).
* Together this makes every graph that is built a `Fresh` one (`fresh_of_build`).
-/

namespace LayoutPlanner

namespace Node

/-- A node about which nothing has been decided. -/
structure Undecided (node : Node) : Prop where
  prefers : node.prefers = {}
  selected : node.selected = none
  implementation : node.implementation = none
  eliminable : node.eliminable = false
  layoutValid : node.layoutValid = false

theorem mem_users_addReader {reader other : NodeId} {node : Node} :
    other ∈ (node.addReader reader).users ↔ other ∈ node.users ∨ other = reader := by
  rw [users_addReader]
  split
  next hmem => exact ⟨Or.inl, fun h => h.elim (fun h => h) (· ▸ hmem)⟩
  next => simp

theorem nodup_users_addReader {reader : NodeId} {node : Node} (h : node.users.Nodup) :
    (node.addReader reader).users.Nodup := by
  rw [users_addReader]
  split
  next => exact h
  next hmem => exact List.nodup_append.2 ⟨h, List.nodup_singleton _, by
    rintro other hother _ hreader rfl
    exact hmem (List.mem_singleton.1 hreader ▸ hother)⟩

end Node

namespace Graph

/-! ## Declaring nodes -/

/-- A graph that has been declared but not been checked. -/
structure Declared (g : Graph) : Prop where
  order_eq : g.order = (List.range g.size).map NodeId.mk
  id_eq : ∀ {id node}, g.node? id = some node → node.id = id
  undecided : ∀ {id node}, g.node? id = some node → node.Undecided
  users_iff : ∀ {id node} (reader), g.node? id = some node →
    (reader ∈ node.users ↔ g.Reads reader id ∧ id.index < reader.index)
  users_nodup : ∀ {id node}, g.node? id = some node → node.users.Nodup

/-- Listing a reader with all its producers. -/
theorem getElem?_foldl_addReader (reader : NodeId) (edges : List Edge) (nodes : List Node)
    (index : Nat) :
    (edges.foldl (fun nodes edge => nodes.modify edge.node.index (Node.addReader reader))
      nodes)[index]? = nodes[index]?.map fun node =>
        if ∃ edge ∈ edges, edge.node.index = index then node.addReader reader else node := by
  have htwice (node : Node) : (node.addReader reader).addReader reader = node.addReader reader := by
    unfold Node.addReader
    by_cases h : reader ∈ node.users <;> simp [h]
  induction edges generalizing nodes with
  | nil => simp
  | cons edge rest ih =>
    rw [List.foldl_cons, ih, List.getElem?_modify]
    cases nodes[index]? with
    | none => split <;> rfl
    | some node =>
      by_cases hedge : edge.node.index = index <;>
        by_cases hrest : ∃ edge ∈ rest, edge.node.index = index <;> simp [hedge, hrest, htwice]

section Declare

variable (g : Graph) (decl : NodeDecl)

/-- The node that a declaration stands for. -/
def declaredNode : Node :=
  { id := ⟨g.size⟩, name := decl.name, op := decl.op, attrs := decl.attrs, deps := decl.inputs,
    outputs := decl.outputs, fused := decl.fused, pinned := decl.pinned }

theorem length_foldl_addReader (reader : NodeId) (edges : List Edge) (nodes : List Node) :
    (edges.foldl (fun nodes edge => nodes.modify edge.node.index (Node.addReader reader))
      nodes).length = nodes.length := by
  induction edges generalizing nodes with
  | nil => rfl
  | cons edge rest ih => rw [List.foldl_cons, ih, List.length_modify]

theorem size_declare : (g.declare decl).size = g.size + 1 := by
  simp [declare, size, length_foldl_addReader]

theorem node?_declare_self : (g.declare decl).node? ⟨g.size⟩ = some (g.declaredNode decl) := by
  simp [declare, node?, size, length_foldl_addReader, declaredNode]

theorem node?_declare_of_ne {id : NodeId} (hne : id ≠ ⟨g.size⟩) :
    (g.declare decl).node? id = (g.node? id).map fun node =>
      if ∃ edge ∈ decl.inputs, edge.node = id then node.addReader ⟨g.size⟩ else node := by
  obtain ⟨index⟩ := id
  have hindex : index ≠ g.size := fun heq => hne (congrArg NodeId.mk heq)
  have hiff : (∃ edge ∈ decl.inputs, edge.node = ⟨index⟩) ↔
      ∃ edge ∈ decl.inputs, edge.node.index = index := by
    constructor
    · rintro ⟨edge, hedge, heq⟩
      exact ⟨edge, hedge, by rw [heq]⟩
    · rintro ⟨edge, hedge, rfl⟩
      exact ⟨edge, hedge, rfl⟩
  simp only [hiff, node?, declare]
  by_cases hlt : index < g.nodes.length
  · rw [List.getElem?_append_left (by rwa [length_foldl_addReader]), getElem?_foldl_addReader]
  · rw [size] at hindex
    rw [List.getElem?_eq_none (by simp [length_foldl_addReader]; omega),
      List.getElem?_eq_none (by omega)]
    rfl

theorem reads_declare_iff {reader id : NodeId} :
    (g.declare decl).Reads reader id ↔
      (reader = ⟨g.size⟩ ∧ ∃ edge ∈ decl.inputs, edge.node = id) ∨ g.Reads reader id := by
  have hnone : g.node? ⟨g.size⟩ = none := by simp [node?, size]
  have hdeps (node : Node) : (node.addReader ⟨g.size⟩).deps = node.deps := by
    unfold Node.addReader
    split <;> rfl
  by_cases hreader : reader = ⟨g.size⟩
  · subst hreader
    rw [reads_iff_of_node? (g.node?_declare_self decl)]
    simp [Reads, hnone, declaredNode]
  · simp only [Reads, node?_declare_of_ne g decl hreader, hreader, false_and, false_or,
      Option.map_eq_some_iff]
    constructor
    · rintro ⟨_, ⟨node, hnode, rfl⟩, dep, hdep, rfl⟩
      refine ⟨node, hnode, dep, ?_, rfl⟩
      split at hdep
      · exact hdeps node ▸ hdep
      · exact hdep
    · rintro ⟨node, hnode, dep, hdep, rfl⟩
      refine ⟨_, ⟨node, hnode, rfl⟩, dep, ?_, rfl⟩
      split
      · exact (hdeps node).symm ▸ hdep
      · exact hdep

end Declare

theorem Declared.declare {g : Graph} (hg : g.Declared) (decl : NodeDecl) :
    (g.declare decl).Declared := by
  have hold : ∀ {id node'}, id ≠ ⟨g.size⟩ → (g.declare decl).node? id = some node' →
      ∃ node, g.node? id = some node ∧ node'.bare = node.bare ∧
        node'.layoutValid = node.layoutValid ∧
        ((∃ edge ∈ decl.inputs, edge.node = id) ∧ node'.users = (node.addReader ⟨g.size⟩).users ∨
          (¬∃ edge ∈ decl.inputs, edge.node = id) ∧ node'.users = node.users) := by
    intro id node' hne hnode'
    rw [node?_declare_of_ne g decl hne] at hnode'
    obtain ⟨node, hnode, rfl⟩ := Option.map_eq_some_iff.1 hnode'
    refine ⟨node, hnode, ?_⟩
    split
    next hreads =>
      refine ⟨Node.bare_addReader _ _, ?_, Or.inl ⟨hreads, rfl⟩⟩
      unfold Node.addReader
      split <;> rfl
    next hreads => exact ⟨rfl, rfl, Or.inr ⟨hreads, rfl⟩⟩
  constructor
  case order_eq =>
    rw [size_declare, List.range_succ, List.map_append, ← hg.order_eq]
    rfl
  case id_eq =>
    intro id node' hnode'
    by_cases hne : id = ⟨g.size⟩
    · subst hne
      rw [node?_declare_self, Option.some.injEq] at hnode'
      exact hnode' ▸ rfl
    · obtain ⟨node, hnode, hbare, _⟩ := hold hne hnode'
      simp only [Node.bare, Node.mk.injEq] at hbare
      rw [hbare.1, hg.id_eq hnode]
  case undecided =>
    intro id node' hnode'
    by_cases hne : id = ⟨g.size⟩
    · subst hne
      rw [node?_declare_self, Option.some.injEq] at hnode'
      exact hnode' ▸ ⟨rfl, rfl, rfl, rfl, rfl⟩
    · obtain ⟨node, hnode, hbare, hvalid, _⟩ := hold hne hnode'
      obtain ⟨hprefers, hselected, himplementation, heliminable, hlayoutValid⟩ := hg.undecided hnode
      simp only [Node.bare, Node.mk.injEq] at hbare
      constructor <;> simp_all
  case users_nodup =>
    intro id node' hnode'
    by_cases hne : id = ⟨g.size⟩
    · subst hne
      rw [node?_declare_self, Option.some.injEq] at hnode'
      exact hnode' ▸ List.nodup_nil
    · obtain ⟨node, hnode, _, _, ⟨_, husers⟩ | ⟨_, husers⟩⟩ := hold hne hnode'
      · exact husers ▸ Node.nodup_users_addReader (hg.users_nodup hnode)
      · exact husers ▸ hg.users_nodup hnode
  case users_iff =>
    intro id node' reader hnode'
    rw [reads_declare_iff]
    by_cases hne : id = ⟨g.size⟩
    · subst hne
      rw [node?_declare_self, Option.some.injEq] at hnode'
      subst hnode'
      simp only [declaredNode, List.not_mem_nil, false_iff, not_and, Nat.not_lt]
      rintro (⟨rfl, _⟩ | ⟨_, hreader, _⟩)
      · exact Nat.le_refl _
      · exact Nat.le_of_lt (lt_size_of_node? hreader)
    · obtain ⟨node, hnode, _, _, husers⟩ := hold hne hnode'
      have hlt := lt_size_of_node? hnode
      rcases husers with ⟨hreads, husers⟩ | ⟨hreads, husers⟩
      · rw [husers, Node.mem_users_addReader, hg.users_iff reader hnode]
        constructor
        · rintro (⟨hreads, hless⟩ | rfl)
          · exact ⟨Or.inr hreads, hless⟩
          · exact ⟨Or.inl ⟨rfl, hreads⟩, hlt⟩
        · rintro ⟨⟨rfl, _⟩ | hreads, hless⟩
          · exact Or.inr rfl
          · exact Or.inl ⟨hreads, hless⟩
      · rw [husers, hg.users_iff reader hnode]
        simp [hreads]

theorem declared_declareAll (decls : List NodeDecl) : (declareAll decls).Declared := by
  have hfold : ∀ (decls : List NodeDecl) (g : Graph), g.Declared →
      (decls.foldl declare g).Declared := by
    intro decls
    induction decls with
    | nil => exact fun g hg => hg
    | cons decl rest ih => exact fun g hg => ih _ (hg.declare decl)
  refine hfold decls {} ⟨rfl, ?_, ?_, ?_, ?_⟩ <;> simp [node?]

/-! ## The topology check -/

/-- The edges of a node pass if their producers are available and have the outputs. -/
theorem checkEdges?_ok_iff {g : Graph} {available : List NodeId} {consumer : NodeId}
    {edges : List Edge} :
    g.checkEdges? available consumer edges = some (.ok ()) ↔
      ∀ edge ∈ edges, edge.node ∈ available ∧ ∃ layout, g.layoutAt? edge = some layout := by
  induction edges with
  | nil => simp [checkEdges?]
  | cons edge rest ih =>
    rw [List.forall_mem_cons, ← ih, checkEdges?]
    by_cases hmem : edge.node ∈ available
    · cases hnode : g.node? edge.node with
      | none => simp [hmem, hnode, layoutAt?]
      | some node =>
        by_cases hlt : edge.output < node.outputs.length
        · simp [hmem, hnode, hlt, layoutAt?]
        · simp [hmem, hnode, hlt, layoutAt?]
    · simp [hmem]

/-- The nodes listed pass if each has outputs and reads outputs of nodes that are available or
listed before it. -/
theorem checkOrder?_ok_iff {g : Graph} (hid : ∀ {id node}, g.node? id = some node → node.id = id)
    {available ids : List NodeId} :
    g.checkOrder? available ids = some (.ok ()) ↔
      ∀ before id after, ids = before ++ id :: after →
        ∃ node, g.node? id = some node ∧ node.outputs ≠ [] ∧ ∀ edge ∈ node.deps,
          (edge.node ∈ available ∨ edge.node ∈ before) ∧
            ∃ layout, g.layoutAt? edge = some layout := by
  induction ids generalizing available with
  | nil => simp [checkOrder?]
  | cons id rest ih =>
    have hstep : g.checkOrder? available (id :: rest) = some (.ok ()) ↔
        (∃ node, g.node? id = some node ∧ node.outputs ≠ [] ∧
          g.checkEdges? available id node.deps = some (.ok ())) ∧
          g.checkOrder? (id :: available) rest = some (.ok ()) := by
      rw [checkOrder?]
      cases hnode : g.node? id with
      | none => simp
      | some node =>
        obtain rfl := hid hnode
        by_cases houtputs : node.outputs = []
        · simp [houtputs]
        · rcases hedges : g.checkEdges? available node.id node.deps with _ | _ | _ <;>
            simp [houtputs, hedges]
    rw [hstep, ih]
    constructor
    · rintro ⟨⟨node, hnode, houtputs, hedges⟩, hrest⟩ before other after hsplit
      cases before with
      | nil =>
        obtain ⟨rfl, rfl⟩ := List.cons.inj hsplit
        refine ⟨node, hnode, houtputs, fun edge hedge => ?_⟩
        obtain ⟨havailable, hlayout⟩ := checkEdges?_ok_iff.1 hedges edge hedge
        exact ⟨Or.inl havailable, hlayout⟩
      | cons head before =>
        obtain ⟨rfl, rfl⟩ := List.cons.inj hsplit
        obtain ⟨node, hnode, houtputs, hdeps⟩ := hrest before other after rfl
        refine ⟨node, hnode, houtputs, fun edge hedge => ?_⟩
        obtain ⟨hproduced, hlayout⟩ := hdeps edge hedge
        refine ⟨?_, hlayout⟩
        rcases hproduced with hmem | hmem
        · exact (List.mem_cons.1 hmem).elim (fun heq => Or.inr (heq ▸ List.mem_cons_self ..)) Or.inl
        · exact Or.inr (List.mem_cons_of_mem _ hmem)
    · intro hall
      constructor
      · obtain ⟨node, hnode, houtputs, hdeps⟩ := hall [] id rest rfl
        refine ⟨node, hnode, houtputs, checkEdges?_ok_iff.2 fun edge hedge => ?_⟩
        obtain ⟨hproduced, hlayout⟩ := hdeps edge hedge
        exact ⟨hproduced.elim (fun h => h) (fun h => absurd h List.not_mem_nil), hlayout⟩
      · rintro before other after rfl
        obtain ⟨node, hnode, houtputs, hdeps⟩ := hall (id :: before) other after rfl
        refine ⟨node, hnode, houtputs, fun edge hedge => ?_⟩
        obtain ⟨hproduced, hlayout⟩ := hdeps edge hedge
        refine ⟨?_, hlayout⟩
        rcases hproduced with hmem | hmem
        · exact Or.inl (List.mem_cons_of_mem _ hmem)
        · exact (List.mem_cons.1 hmem).elim (fun heq => Or.inl (heq ▸ List.mem_cons_self ..)) Or.inr

/-! ## Graphs as planning finds them -/

/-- A well-formed graph that is processed in the order of its ids, and whose nodes read earlier
nodes. -/
structure Ordered (g : Graph) : Prop where
  wellFormed : g.WellFormed
  order_eq : g.order = (List.range g.size).map NodeId.mk
  earlier : ∀ {id node edge}, g.node? id = some node → edge ∈ node.deps →
    edge.node.index < id.index

theorem Ordered.take_order {g : Graph} (hg : g.Ordered) : g.order.take g.size = g.order :=
  List.take_of_length_le (by simp [hg.order_eq])

theorem Ordered.listsAll {g : Graph} (hg : g.Ordered) : g.ListsAll := by
  rw [ListsAll, hg.order_eq]

theorem Ordered.of_sameContent {g g' : Graph} (hg : g.Ordered) (h : SameContent g g') :
    g'.Ordered := by
  refine ⟨hg.wellFormed.of_sameWiring h.wiring, ?_, fun hnode' hedge => ?_⟩
  · rw [h.order_eq, h.nodes.size_eq, hg.order_eq]
  · obtain ⟨node, hnode, hdeps⟩ := h.wiring.deps.exists_old hnode'
    exact hg.earlier hnode (hdeps ▸ hedge)

/-- An ordered graph in which nothing has been decided. -/
structure Fresh (g : Graph) : Prop extends Ordered g where
  undecided : ∀ {id node}, g.node? id = some node → node.Undecided

/-- In increasing processing order, the nodes listed before a node are those with a smaller id. -/
theorem mem_before_iff {size : Nat} {before after : List NodeId} {id : NodeId}
    (h : (List.range size).map NodeId.mk = before ++ id :: after) {other : NodeId} :
    other ∈ before ↔ other.index < id.index := by
  have hid : ((List.range size).map NodeId.mk)[before.length]? = some id := by simp [h]
  have hbefore : ((List.range size).map NodeId.mk).take before.length = before := by simp [h]
  obtain ⟨hlt, rfl⟩ : before.length < size ∧ NodeId.mk before.length = id := by
    obtain ⟨hlt, hget⟩ := List.getElem?_eq_some_iff.1 hid
    rw [List.getElem_map, List.getElem_range] at hget
    exact ⟨by simpa using hlt, hget⟩
  rw [← hbefore, ← List.map_take, List.take_range, Nat.min_eq_left (Nat.le_of_lt hlt)]
  constructor
  · intro hmem
    obtain ⟨index, hindex, rfl⟩ := List.mem_map.1 hmem
    simpa using hindex
  · intro hless
    exact List.mem_map.2 ⟨other.index, by simpa using hless, rfl⟩

theorem Fresh.checkTopology?_ok {g : Graph} (hg : g.Fresh) : g.checkTopology? = some (.ok ()) := by
  refine (checkOrder?_ok_iff hg.wellFormed.id_eq).2 ?_
  intro before id after hsplit
  have hmem : id ∈ g.order := by simp [hsplit]
  obtain ⟨node, hnode⟩ := exists_node (hg.listsAll.lt_size hmem)
  refine ⟨node, hnode, hg.wellFormed.outputs_ne hnode, fun edge hedge => ⟨Or.inr ?_, ?_⟩⟩
  · exact (mem_before_iff (hg.order_eq ▸ hsplit)).2 (hg.earlier hnode hedge)
  · exact hg.wellFormed.produced hnode hedge

theorem Declared.fresh {g : Graph} (hg : g.Declared) (hcheck : g.checkTopology? = some (.ok ())) :
    g.Fresh := by
  have hall : ∀ {id node}, g.node? id = some node → node.outputs ≠ [] ∧ ∀ edge ∈ node.deps,
      edge.node.index < id.index ∧ ∃ layout, g.layoutAt? edge = some layout := by
    intro id node hnode
    have hmem : id ∈ g.order := by
      rw [hg.order_eq]
      exact List.mem_map.2 ⟨id.index, List.mem_range.2 (lt_size_of_node? hnode), rfl⟩
    obtain ⟨before, after, hsplit⟩ := List.append_of_mem hmem
    obtain ⟨_, hfound, houtputs, hdeps⟩ :=
      (checkOrder?_ok_iff hg.id_eq).1 hcheck before id after hsplit
    obtain rfl := Option.some.inj (hnode.symm.trans hfound)
    refine ⟨houtputs, fun edge hedge => ?_⟩
    obtain ⟨hproduced, hlayout⟩ := hdeps edge hedge
    refine ⟨(mem_before_iff (hg.order_eq ▸ hsplit)).1 ?_, hlayout⟩
    exact hproduced.elim (fun h => absurd h List.not_mem_nil) (fun h => h)
  have hless : ∀ {reader id}, g.Reads reader id → id.index < reader.index := by
    rintro reader id ⟨node, hnode, edge, hedge, rfl⟩
    exact ((hall hnode).2 edge hedge).1
  refine ⟨⟨⟨hg.id_eq, ?_, ?_, ?_, hg.users_nodup⟩, hg.order_eq, ?_⟩, hg.undecided⟩
  · exact fun hnode hedge => ((hall hnode).2 _ hedge).2
  · exact fun hnode => (hall hnode).1
  · intro id node reader hnode
    rw [hg.users_iff reader hnode]
    exact ⟨And.left, fun hreads => ⟨hreads, hless hreads⟩⟩
  · exact fun hnode hedge => ((hall hnode).2 _ hedge).1

theorem Fresh.refresh? {g : Graph} (hg : g.Fresh) {id : NodeId} (hid : id.index < g.size) :
    Yields (g.refresh? id) fun g' => g'.Fresh ∧ g'.size = g.size := by
  obtain ⟨node, hnode⟩ := exists_node hid
  refine (refresh?_spec hg.wellFormed hnode).mono ?_
  rintro g' ⟨hlocal, htidied, node', hnode', _, hvalid⟩
  refine ⟨⟨hg.toOrdered.of_sameContent hlocal.content, ?_⟩, hlocal.content.nodes.size_eq⟩
  intro other new hnew
  obtain ⟨old, hold, hbare⟩ := htidied.bare.exists_old hnew
  obtain ⟨hprefers, hselected, himplementation, heliminable, hstale⟩ := hg.undecided hold
  simp only [Node.bare, Node.mk.injEq] at hbare
  refine ⟨by simp_all, by simp_all, by simp_all, by simp_all, ?_⟩
  by_cases hother : other = id
  · subst hother
    obtain rfl := Option.some.inj (hnew.symm.trans hnode')
    rw [hvalid, (hg.undecided hnode).layoutValid]
  · by_contra hflag
    obtain ⟨_, hold', hvalid'⟩ := hlocal.stale other new hother hnew (by simpa using hflag)
    obtain rfl := Option.some.inj (hold.symm.trans hold')
    rw [hstale] at hvalid'
    exact Bool.noConfusion hvalid'

/-- Every graph that is built is fresh. -/
theorem fresh_of_build {decls : List NodeDecl} {g : Graph} (h : build? decls = some (.ok g)) :
    g.Fresh := by
  have hdeclared := declared_declareAll decls
  unfold build? at h
  rcases hcheck : (declareAll decls).checkTopology? with _ | _ | _
  · simp [hcheck] at h
  · simp [hcheck] at h
  · have hfresh := hdeclared.fresh hcheck
    have hfold : Yields ((declareAll decls).order.foldlM Graph.refresh? (declareAll decls))
        fun g' => g'.Fresh ∧ g'.size = (declareAll decls).size := by
      refine Yields.foldlM_inv (fun (g' : Graph) => g'.Fresh ∧ g'.size = (declareAll decls).size)
        ⟨hfresh, rfl⟩ ?_
      rintro id hid g' ⟨hg', hsize⟩
      refine (hg'.refresh? (hsize ▸ hfresh.listsAll.lt_size hid)).mono ?_
      rintro g'' ⟨hg'', hsize''⟩
      exact ⟨hg'', hsize''.trans hsize⟩
    obtain ⟨g', hg', hpost, _⟩ := hfold
    simp only [hcheck, hg', Option.bind_eq_bind, Option.bind_some, Option.pure_def,
      Option.some.injEq, Except.ok.injEq] at h
    exact h ▸ hpost

end Graph

end LayoutPlanner
