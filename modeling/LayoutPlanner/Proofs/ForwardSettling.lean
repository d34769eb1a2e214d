import LayoutPlanner.Proofs.ChosenFormats
import LayoutPlanner.Proofs.ProcessingOrder
import LayoutPlanner.Proofs.Trials

/-!
# Settling in processing order

What settling makes of a graph, to the letter: the node counts as settled from then on, and its
readers are stale if one of its formats changed (`settle?_resolves`).

Where every node is listed after the nodes it reads (`InOrder`), settling a node can only mark nodes
that come later.  So one sweep settles everything (`settleAll?_upToDate`), and another one finds
nothing left to do (`settleAll?_of_upToDate`).
-/

namespace LayoutPlanner

namespace Node

/-- The node after it was settled.  A settled one stays as it is. -/
def resolved (node : Node) (inherited : List Format) : Node :=
  if node.layoutValid then node
  else { node with outputs := node.settledOutputs inherited, layoutValid := true }

theorem layoutValid_resolved (node : Node) (inherited : List Format) :
    (node.resolved inherited).layoutValid = true := by
  unfold resolved
  split
  next hvalid => exact hvalid
  next => rfl

/-- Where every format is chosen, all that settling changes is the flag. -/
theorem Honours.resolved_eq {node : Node} (h : node.Honours) (hchosen : node.Chosen)
    (inherited : List Format) : node.resolved inherited = { node with layoutValid := true } := by
  have houtputs : node.settledOutputs inherited = node.outputs := by
    apply List.ext_getElem?
    intro index
    cases hlayout : node.outputs[index]? with
    | none => simp [settledOutputs, hlayout]
    | some layout =>
      have hformat := h.settledFormat_eq hlayout (hchosen layout (List.mem_of_getElem? hlayout))
        inherited
      simp [settledOutputs, hlayout, hformat, Layout.withFormat]
  unfold resolved
  split
  next hvalid => rw [← hvalid]
  next => rw [houtputs]

end Node

namespace Graph

variable {g g' : Graph} {id : NodeId} {node : Node}

/-- What settling a node does to it and to the others. -/
theorem settle?_resolves (hg : g.WellFormed) (hclass : g.Classified)
    (hnode : g.node? id = some node) (hself : id ∉ node.users) :
    Yields (g.settle? id) fun g' => g'.order = g.order ∧ ∃ inherited,
      g.inheritedFormats? id = some inherited ∧ g'.node? id = some (node.resolved inherited) ∧
      ∀ other, other ≠ id → g'.node? other = (g.node? other).map fun old =>
        if (node.resolved inherited).outputs ≠ node.outputs ∧ other ∈ node.users then old.stale
        else old := by
  obtain ⟨inherited, hinherited⟩ := exists_inheritedFormats hg hnode
  refine Yields.bind ?_ fun _ hpost => Yields.pure hpost
  refine Yields.bind_eq hnode ?_
  split
  next hvalid =>
    have hresolved : node.resolved inherited = node := if_pos hvalid
    refine Yields.pure ⟨rfl, inherited, hinherited, ?_, fun other _ => by simp [hresolved]⟩
    rw [hresolved]
    exact hnode
  next hstale =>
  have hresolved : node.resolved inherited =
      { node with outputs := node.settledOutputs inherited, layoutValid := true } := if_neg hstale
  have houtputs : (node.resolved inherited).outputs = node.settledOutputs inherited := by
    rw [hresolved]
  refine Yields.bind_eq hinherited (Yields.bind_eq (update?_eq_edit hnode _) ?_)
  generalize hset : (fun old : Node => { old with
      outputs := node.settledOutputs inherited, layoutValid := true }) = set
  have hnew : (g.edit id set).node? id = some (node.resolved inherited) := by
    rw [node?_edit_self hnode, hresolved, ← hset]
  have hothers : ∀ other, other ≠ id → (g.edit id set).node? other = g.node? other := by
    intro other hne
    simp [node?_edit, hne]
  have hclass' : (g.edit id set).Classified := by
    refine hclass.of_same (same_edit hnode ?_)
    rw [← hset]
    simp only [Node.outline, Node.shapes_settledOutputs]
  refine Yields.bind_eq (refresh?_eq hclass' hnew) ?_
  dsimp only
  split
  next hchanged =>
    have hreaders : ∀ reader ∈ node.users, reader.index < (g.edit id set).size := by
      intro reader hreader
      simpa [edit, size] using hg.lt_size_of_mem_users hnode hreader
    refine Yields.bind (markStale?_spec hreaders) ?_
    rintro g' ⟨horder, hnodes⟩
    refine Yields.pure ⟨horder, inherited, hinherited, ?_, fun other hne => ?_⟩
    · rw [hnodes, hnew, Option.map_some, if_neg hself]
    · simp [hnodes, hothers other hne, houtputs, bne_iff_ne.1 hchanged]
  next hsame =>
    have heq : node.settledOutputs inherited = node.outputs := by simpa using hsame
    refine Yields.pure ⟨rfl, inherited, hinherited, hnew, fun other hne => ?_⟩
    simp [hothers other hne, houtputs, heq]

/-! ## Graphs in order -/

/-- Every node is listed, after the nodes that it reads. -/
structure InOrder (g : Graph) : Prop where
  listed : g.ListsAll
  produced : ∀ {before id after node edge}, g.order = before ++ id :: after →
    g.node? id = some node → edge ∈ node.deps → edge.node ∈ before

theorem Arranged.inOrder (h : Arranged g g') : g'.InOrder :=
  ⟨h.listed, h.produced⟩

theorem InOrder.of_sameContent (hg : g.InOrder) (h : SameContent g g') : g'.InOrder := by
  refine ⟨h.listsAll hg.listed, ?_⟩
  intro before id after node edge hsplit hnode hedge
  obtain ⟨old, hold, hdeps⟩ := h.wiring.deps.exists_old hnode
  exact hg.produced (h.order_eq ▸ hsplit) hold (hdeps ▸ hedge)

/-- Nothing up to a node reads it. -/
theorem InOrder.not_reads (hg : g.InOrder) {done rest : List NodeId}
    (hsplit : g.order = done ++ id :: rest) {reader : NodeId} (hreader : reader ∈ done ++ [id]) :
    ¬ g.Reads reader id := by
  rintro ⟨node, hnode, edge, hedge, rfl⟩
  have hnew := hg.listed.not_mem_of_split hsplit
  rcases List.mem_append.1 hreader with hearlier | hself
  · obtain ⟨before, between, rfl⟩ := List.append_of_mem hearlier
    have hsplit' : g.order = before ++ reader :: (between ++ edge.node :: rest) := by
      rw [hsplit, List.append_assoc, List.cons_append]
    exact hnew (List.mem_append_left _ (hg.produced hsplit' hnode hedge))
  · rw [List.mem_singleton.1 hself] at hnode
    exact hnew (hg.produced hsplit hnode hedge)

/-- Whoever reads a node comes after it. -/
theorem Ordered.lt_of_reader (hg : g.Ordered) (hnode : g.node? id = some node) {reader : NodeId}
    (hreader : reader ∈ node.users) : id.index < reader.index := by
  obtain ⟨found, hfound, edge, hedge, rfl⟩ := (hg.wellFormed.users_iff reader hnode).1 hreader
  exact hg.earlier hfound hedge

theorem Ordered.not_mem_users (hg : g.Ordered) (hnode : g.node? id = some node) {other : NodeId}
    (hle : other.index ≤ id.index) : other ∉ node.users :=
  fun hreader => Nat.not_lt.2 hle (hg.lt_of_reader hnode hreader)

/-! ## Sweeps -/

/-- Every node but the constants is settled. -/
def UpToDate (g : Graph) : Prop :=
  ∀ id node, g.node? id = some node → node.isConstant = false → node.layoutValid = true

end Graph

namespace Construction

variable {g : Graph}

/-- What a sweep keeps: the nodes that it is past are settled. -/
structure Swept (g : Graph) (done : List NodeId) (g' : Graph) : Prop where
  content : g.SameContent g'
  classified : g'.Classified
  valid : ∀ {id node}, id ∈ done → g'.node? id = some node → node.isConstant = false →
    node.layoutValid = true

/-- Settling marks readers, which the sweep has not come to yet. -/
theorem Swept.step (hg : g.WellFormed) (horder : g.InOrder) {done rest : List NodeId} {id : NodeId}
    (hsplit : g.order = done ++ id :: rest) {g₁ : Graph} (h : Swept g done g₁) :
    Yields (do if (← g₁.node? id).isConstant then return g₁ else g₁.settle? id)
      (Swept g (done ++ [id])) := by
  have hg₁ := hg.of_sameWiring h.content.wiring
  have hlt : id.index < g₁.size := by
    rw [h.content.nodes.size_eq]
    exact horder.listed.lt_size (by simp [hsplit])
  obtain ⟨node, hnode⟩ := Graph.exists_node hlt
  refine Yields.bind_eq hnode ?_
  split
  next hconstant =>
    refine Yields.pure ⟨h.content, h.classified, fun {other found} hmem hfound hdata => ?_⟩
    rcases List.mem_append.1 hmem with hearlier | hself
    · exact h.valid hearlier hfound hdata
    · rw [List.mem_singleton.1 hself, hnode, Option.some.injEq] at hfound
      rw [← hfound, hconstant] at hdata
      cases hdata
  next hdata =>
    have hreaders : ∀ reader ∈ done ++ [id], reader ∉ node.users := by
      intro reader hmem hreader
      refine (horder.of_sameContent h.content).not_reads (h.content.order_eq.trans hsplit) hmem ?_
      exact (hg₁.users_iff reader hnode).1 hreader
    obtain ⟨g₂, hg₂, _, inherited, _, hself, hothers⟩ :=
      Graph.settle?_resolves hg₁ h.classified hnode (hreaders id (by simp))
    have hsettles := (settles_of_settle hg₁ hnode (by simpa using hdata)).post_of_eq hg₂
    have hsame := Graph.frame_outline.settle? h.classified g₂ hg₂
    refine .of_eq hg₂ ⟨h.content.trans hsettles.content, h.classified.of_same hsame, ?_⟩
    intro other found hmem hfound hfound_data
    by_cases hne : other = id
    · subst hne
      obtain rfl := Option.some.inj (hself.symm.trans hfound)
      exact Node.layoutValid_resolved _ _
    · rw [hothers other hne, Option.map_eq_some_iff] at hfound
      obtain ⟨old, hold, rfl⟩ := hfound
      rw [if_neg fun hmarked => hreaders other hmem hmarked.2] at hfound_data ⊢
      exact h.valid ((List.mem_append.1 hmem).resolve_right (by simpa using hne)) hold hfound_data

theorem settleAll?_swept (hg : g.WellFormed) (hclass : g.Classified) (horder : g.InOrder) :
    Yields (settleAll? g) (Swept g g.order) := by
  refine Yields.foldlM (Swept g) ⟨.refl g, hclass, fun hmem => absurd hmem List.not_mem_nil⟩ ?_
  exact fun done id rest g₁ hsplit h => h.step hg horder hsplit

/-- One sweep settles everything. -/
theorem settleAll?_upToDate (hg : g.WellFormed) (hclass : g.Classified) (horder : g.InOrder) :
    Yields (settleAll? g) Graph.UpToDate := by
  refine (settleAll?_swept hg hclass horder).mono fun settled h => ?_
  intro id node hnode hdata
  refine h.valid (horder.listed.mem_of_lt ?_) hnode hdata
  exact h.content.nodes.size_eq ▸ Graph.lt_size_of_node? hnode

/-- A sweep over settled nodes does nothing. -/
theorem settleAll?_of_upToDate (hlisted : g.ListsAll) (hg : g.UpToDate) :
    settleAll? g = some g := by
  refine Yields.eq_some (Yields.foldlM_inv (fun g' => g' = g) rfl ?_)
  rintro id hid _ rfl
  obtain ⟨node, hnode⟩ := Graph.exists_node (hlisted.lt_size hid)
  refine Yields.bind_eq hnode ?_
  split
  next => exact Yields.pure rfl
  next hdata =>
    have hvalid := hg id node hnode (by simpa using hdata)
    simp only [Graph.settle?, Graph.resolve?, hnode, Option.bind_eq_bind, Option.bind_some, hvalid,
      if_true]
    exact Yields.pure rfl

end Construction

end LayoutPlanner
