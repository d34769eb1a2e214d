import LayoutPlanner.Proofs.FoldedPermutes
import LayoutPlanner.Proofs.ForwardSettling
import LayoutPlanner.Proofs.StaleReaders
import LayoutPlanner.Proofs.SteadyClasses

/-!
# What propagation leaves open

Which nodes count as settled after propagation, and which formats are open then.

* What the visit of a node does can only make nodes stale that come later
  (`Move.layoutValid_of_le`), and the visit of each node settles it.  So in the end all nodes are
  settled but the constants, which are never visited (`Current`).
* Hence a node with an open format is a stale constant, or a settled permute that was folded into a
  node that has all its formats (`Graph.Propagated`).
-/

namespace LayoutPlanner

namespace Propagation

/-! ## What the moves do to flags -/

variable {catalog : Catalog} {g g' : Graph} {id other : NodeId} {node node' : Node}

/-- Settling a node leaves it settled, and no earlier node becomes stale. -/
theorem layoutValid_of_settle (hg : g.Ordered) (hclass : g.Classified) (hlt : id.index < g.size)
    (h : g.settle? id = some g') (hle : other.index ≤ id.index)
    (hvalid : other ≠ id → ∀ node, g.node? other = some node → node.layoutValid = true)
    (hnode' : g'.node? other = some node') : node'.layoutValid = true := by
  obtain ⟨self, hself⟩ := Graph.exists_node hlt
  obtain ⟨_, inherited, _, hnew, hothers⟩ := (Graph.settle?_resolves hg.wellFormed hclass hself
    (hg.not_mem_users hself (Nat.le_refl _))).post_of_eq h
  by_cases hne : other = id
  · subst hne
    obtain rfl := Option.some.inj (hnew.symm.trans hnode')
    exact Node.layoutValid_resolved _ _
  · rw [hothers other hne, Option.map_eq_some_iff] at hnode'
    obtain ⟨old, hold, rfl⟩ := hnode'
    rw [if_neg fun hmarked => hg.not_mem_users hself hle hmarked.2]
    exact hvalid hne old hold

/-- A node that is not marked keeps its flag. -/
theorem layoutValid_of_marks {stale : List NodeId} (hmarks : Graph.Marks id stale g g')
    (hne : other ≠ id) (hspared : other ∉ stale)
    (hvalid : ∀ node, g.node? other = some node → node.layoutValid = true) :
    ∀ node', g'.node? other = some node' → node'.layoutValid = true := by
  intro node' hnode'
  obtain ⟨node, hnode, hiff⟩ := hmarks other node' hne hnode'
  exact hiff.2 ⟨hvalid node hnode, hspared⟩

theorem layoutValid_of_record {s s' : State} (hg : s.graph.Ordered) (hclass : s.graph.Classified)
    (hnode : s.graph.node? id = some node) {preference : FormatPreference}
    (h : record? s id preference = some s') (hle : other.index ≤ id.index)
    (hvalid : other ≠ id → ∀ node, s.graph.node? other = some node → node.layoutValid = true)
    (hnode' : s'.graph.node? other = some node') : node'.layoutValid = true := by
  obtain ⟨g₁, hg₁, h⟩ := Option.bind_eq_some_iff.1 h
  obtain ⟨g₂, hg₂, h⟩ := Option.bind_eq_some_iff.1 h
  obtain ⟨g₃, hg₃, h⟩ := Option.bind_eq_some_iff.1 h
  cases h
  obtain ⟨horder, hnew, hothers⟩ := (Graph.update?_spec hnode).post_of_eq hg₁
  have hedit₁ := Graph.localEdit_of_update hnode horder hnew hothers rfl
  have hordered₁ := hg.of_sameContent hedit₁.content
  have hsame₁ : Ensures (s.graph.update? id fun node =>
      { node with prefers := node.prefers.overlay preference }) (Graph.Same Node.outline s.graph) :=
    Graph.update?_same fun _ => rfl
  have hclass₁ := hclass.of_same (hsame₁ g₁ hg₁)
  have hedit₂ := ((Graph.invalidate?_spec hordered₁.wellFormed hnew).post_of_eq hg₂).1
  have hordered₂ := hordered₁.of_sameContent hedit₂.content
  have hclass₂ := hclass₁.of_same (Graph.frame_outline.invalidate? hclass₁ g₂ hg₂)
  refine layoutValid_of_settle hordered₂ hclass₂ ?_ hg₃ hle (fun hne => ?_) hnode'
  · rw [hedit₂.content.nodes.size_eq]
    exact Graph.lt_size_of_node? hnew
  · obtain ⟨found, hfound, hg₂⟩ := Option.bind_eq_some_iff.1 hg₂
    obtain ⟨k, hk, hg₂⟩ := Option.bind_eq_some_iff.1 hg₂
    refine layoutValid_of_marks (Graph.markStale?_marks id _ g₂ hg₂) hne
      (hordered₁.not_mem_users hfound hle) ?_
    refine layoutValid_of_marks (Graph.update?_marks _ k hk) hne List.not_mem_nil ?_
    exact layoutValid_of_marks (Graph.update?_marks _ g₁ hg₁) hne List.not_mem_nil (hvalid hne)

theorem layoutValid_of_fold (hg : g.Ordered) (hclass : g.Classified) {user : NodeId}
    {permute : Node} (hnode : g.node? id = some node) (huser : user ∈ node.users)
    (hpermute : g.node? user = some permute) {output : Layout}
    (houtput : node.outputs[0]? = some output) {format : Format}
    (h : fold? g id user format = some g') (hle : other.index ≤ id.index)
    (hvalid : other ≠ id → ∀ node, g.node? other = some node → node.layoutValid = true)
    (hnode' : g'.node? other = some node') : node'.layoutValid = true := by
  have hlater := hg.lt_of_reader hnode huser
  have hne_user : other ≠ user := by
    rintro rfl
    exact Nat.not_lt.2 hle hlater
  obtain ⟨g₁, hg₁, h⟩ := Option.bind_eq_some_iff.1 h
  obtain ⟨g₂, hg₂, h⟩ := Option.bind_eq_some_iff.1 h
  obtain ⟨g₃, hg₃, h⟩ := Option.bind_eq_some_iff.1 h
  have hedit₁ := ((Graph.forceOutput?_spec hg.wellFormed hnode houtput format).post_of_eq hg₁).1
  obtain ⟨permute₁, hpermute₁, _⟩ := hedit₁.content.nodes.exists_new hpermute
  obtain ⟨horder₂, hnew₂, hothers₂⟩ := (Graph.update?_spec hpermute₁).post_of_eq hg₂
  have hedit₂ := Graph.localEdit_of_update hpermute₁ horder₂ hnew₂ hothers₂ rfl
  have hordered₂ := hg.of_sameContent (hedit₁.content.trans hedit₂.content)
  have hvalid₁ : ∀ found, g₁.node? other = some found → found.layoutValid = true := by
    by_cases hne : other = id
    · subst hne
      rw [Graph.forceOutput?_eq hg.wellFormed hclass hnode houtput, Option.some.injEq] at hg₁
      rw [← hg₁, Graph.node?_edit_self (Graph.node?_touched_self hnode),
        Graph.readers_of_node hnode]
      rintro found ⟨⟩
      simp [Node.withOutput, Node.flagged, hg.not_mem_users hnode hle]
    · exact layoutValid_of_marks (Graph.forceOutput?_marks hnode 0 format g₁ hg₁) hne
        (hg.not_mem_users hnode hle) (hvalid hne)
  have hvalid₂ := layoutValid_of_marks (Graph.update?_marks _ g₂ hg₂) hne_user List.not_mem_nil
    hvalid₁
  have hvalid₃ := layoutValid_of_marks (Graph.forceOutput?_marks hnew₂ 0 format g₃ hg₃) hne_user
    (hordered₂.not_mem_users hnew₂ (Nat.le_of_lt (Nat.lt_of_le_of_lt hle hlater))) hvalid₂
  exact layoutValid_of_marks (Graph.update?_marks _ g' h) hne_user List.not_mem_nil hvalid₃ _ hnode'

/-- A move leaves its node settled if it was so, and no earlier node becomes stale. -/
theorem Move.layoutValid_of_le (hg : g.Ordered) (hclass : g.Classified) (hlt : id.index < g.size)
    (h : Move catalog id g g') (hle : other.index ≤ id.index)
    (hvalid : ∀ node, g.node? other = some node → node.layoutValid = true)
    (hnode' : g'.node? other = some node') : node'.layoutValid = true := by
  obtain ⟨self, hself⟩ := Graph.exists_node hlt
  have hselect {kind : BackendKind} {k : Graph}
      (hk : (g.update? id fun node => { node with selected := some kind }) = some k) :
      ∀ node, k.node? other = some node → node.layoutValid = true := by
    obtain ⟨_, hnew⟩ := (select_spec hself kind).post_of_eq hk
    by_cases hne : other = id
    · subst hne
      rw [hnew]
      rintro node ⟨⟩
      exact hvalid self hself
    · exact layoutValid_of_marks (Graph.update?_marks _ k hk) hne List.not_mem_nil hvalid
  cases h with
  | settle h => exact layoutValid_of_settle hg hclass hlt h hle (fun _ => hvalid) hnode'
  | select _ h => exact hselect h _ hnode'
  | @record candidate _ _ s _ _ _ h hrecord =>
    obtain ⟨hedit, hnew⟩ := (select_spec hself _).post_of_eq h
    have hsame : Ensures (g.update? id fun node => { node with selected := some candidate.kind })
      (Graph.Same Node.outline g) := Graph.update?_same fun _ => rfl
    exact layoutValid_of_record (hg.of_sameContent hedit.content) (hclass.of_same (hsame _ h)) hnew
      hrecord hle (fun _ => hselect h) hnode'
  | @fold node permute user _ _ _ hnode _ _ husers hpermute _ houtput _ _ h =>
    exact layoutValid_of_fold hg hclass hnode (husers ▸ List.mem_singleton_self user) hpermute
      houtput h hle (fun _ => hvalid) hnode'

/-! ## The sweep -/

/-- The nodes below `count` had their turn and are settled.  Constants have none, and are stale. -/
structure Current (start : Graph) (count : Nat) (g : Graph) : Prop where
  content : start.SameContent g
  classified : g.Classified
  settled : ∀ {id node}, g.node? id = some node → id.index < count → node.isConstant = false →
    node.layoutValid = true
  stale : ∀ {id node}, g.node? id = some node → node.isConstant = true → node.layoutValid = false

/-- The constants stay stale, for a move settles its own node and permutes only. -/
theorem Current.stale_of_move {start : Graph} {count : Nat} (h : Current start count g)
    (hg : g.WellFormed) (hlt : id.index < g.size)
    (hdata : ∀ node, g.node? id = some node → node.isConstant = false)
    (hmove : Move catalog id g g') (hnode' : g'.node? other = some node')
    (hconstant : node'.isConstant = true) : node'.layoutValid = false := by
  obtain ⟨node, hnode, hcontent⟩ := (hmove.content hg hlt).nodes.exists_old hnode'
  have hsame := Node.isConstant_congr (Node.op_of_content hcontent)
  have hne : other ≠ id := by
    rintro rfl
    rw [hsame, hdata node hnode] at hconstant
    cases hconstant
  rw [← Bool.not_eq_true]
  intro hvalid
  rcases hmove.valid hg hlt hne hnode' hvalid with ⟨hfoldable, _⟩ | ⟨found, hfound, hfound_valid⟩
  · rw [Node.isConstant, (of_isFoldable hfoldable).1] at hconstant
    cases hconstant
  · obtain rfl := Option.some.inj (hnode.symm.trans hfound)
    rw [h.stale hnode (hsame ▸ hconstant)] at hfound_valid
    cases hfound_valid

theorem Current.move {start : Graph} {count : Nat} (hstart : start.Ordered)
    (h : Current start (count + 1) g) (hlt : count < g.size)
    (hdata : ∀ node, g.node? ⟨count⟩ = some node → node.isConstant = false)
    (hmove : Move catalog ⟨count⟩ g g') : Current start (count + 1) g' := by
  have hg := hstart.of_sameContent h.content
  have hcontent := hmove.content hg.wellFormed hlt
  refine ⟨h.content.trans hcontent, h.classified.of_same (hmove.outline h.classified), ?_,
    h.stale_of_move hg.wellFormed hlt hdata hmove⟩
  intro other node' hnode' hless hother
  refine hmove.layoutValid_of_le hg h.classified hlt (Nat.le_of_lt_succ hless) ?_ hnode'
  intro node hnode
  obtain ⟨_, hfound, hsame⟩ := hcontent.nodes.exists_new hnode
  obtain rfl := Option.some.inj (hnode'.symm.trans hfound)
  refine h.settled hnode hless ?_
  rw [← Node.isConstant_congr (Node.op_of_content hsame), hother]

/-- The turn of a node begins with settling it. -/
theorem Current.settle {start : Graph} {count : Nat} (hstart : start.Ordered)
    (h : Current start count g) (hlt : count < g.size)
    (hdata : ∀ node, g.node? ⟨count⟩ = some node → node.isConstant = false)
    (hsettle : g.settle? ⟨count⟩ = some g') : Current start (count + 1) g' := by
  have hg := hstart.of_sameContent h.content
  have hmove : Move {} ⟨count⟩ g g' := .settle hsettle
  have hcontent := hmove.content hg.wellFormed hlt
  refine ⟨h.content.trans hcontent, h.classified.of_same (hmove.outline h.classified), ?_,
    h.stale_of_move hg.wellFormed hlt hdata hmove⟩
  intro other node' hnode' hless hother
  refine layoutValid_of_settle hg h.classified hlt hsettle (Nat.le_of_lt_succ hless) ?_ hnode'
  intro hne node hnode
  obtain ⟨_, hfound, hsame⟩ := hcontent.nodes.exists_new hnode
  obtain rfl := Option.some.inj (hnode'.symm.trans hfound)
  refine h.settled hnode ?_ (by rw [← Node.isConstant_congr (Node.op_of_content hsame), hother])
  refine Nat.lt_of_le_of_ne (Nat.le_of_lt_succ hless) fun heq => hne ?_
  exact congrArg NodeId.mk heq

/-- After the sweep, exactly the constants are stale. -/
theorem current_of_sweep (hg : g.Fresh) (hclass : g.Classified) :
    Yields (g.order.foldlM (visit? catalog) { graph := g }) fun s => Current g g.size s.graph := by
  refine (run?_induct hg.toOrdered (Current g) ?_ ?_ ?_).mono fun s h => h.2
  · refine ⟨.refl g, hclass, fun _ hlt => absurd hlt (Nat.not_lt_zero _), fun hnode _ => ?_⟩
    exact (hg.undecided hnode).layoutValid
  · intro count g₁ node hlt _ _ h hnode hconstant
    refine ⟨h.content, h.classified, fun {other found} hfound hless hdata => ?_, h.stale⟩
    rcases Nat.lt_succ_iff_lt_or_eq.1 hless with hearlier | rfl
    · exact h.settled hfound hearlier hdata
    · obtain rfl := Option.some.inj (hnode.symm.trans hfound)
      rw [hconstant] at hdata
      cases hdata
  · intro count g₁ g₂ g₃ node hlt hwf hsame h hnode hdata hsettle hturn _
    have hthere : count < g₁.size := hsame.nodes.size_eq ▸ hlt
    have hself : ∀ found, g₁.node? ⟨count⟩ = some found → found.isConstant = false := by
      intro found hfound
      obtain rfl := Option.some.inj (hnode.symm.trans hfound)
      exact hdata
    obtain ⟨hedit, _⟩ := (Graph.settle?_spec hwf hnode).post_of_eq hsettle
    refine Moves.inv (hedit.wellFormed hwf) (hedit.content.nodes.size_eq ▸ hthere)
      (Current g (count + 1) ·) ?_ hturn.moves (h.settle hg.toOrdered hthere hself hsettle)
    intro k k' _ hk hcurrent hmove
    refine hcurrent.move hg.toOrdered hk (fun found hfound => ?_) hmove
    obtain ⟨old, hold, hcontent⟩ := (hsame.symm.trans hcurrent.content).nodes.exists_old hfound
    rw [Node.isConstant_congr (Node.op_of_content hcontent), hself old hold]

end Propagation

/-! ## Open formats -/

/-- What propagation leaves of a declared graph, as far as open formats are concerned. -/
structure Graph.Propagated (g : Graph) : Prop where
  ordered : g.Ordered
  classified : g.Classified
  honours : g.Honours
  /-- A node with an open format is stale, unless it is a permute that was folded away. -/
  settled_iff : ∀ {id node}, g.node? id = some node → ¬node.Chosen →
    (node.layoutValid = true ↔ node.eliminable = true)
  /-- What such a permute reads has all its formats. -/
  source : ∀ {id node edge source}, g.node? id = some node → node.eliminable = true →
    edge ∈ node.deps → g.node? edge.node = some source → source.Chosen

theorem Propagation.propagated_of_sweep {catalog : Catalog} {g : Graph} (hg : g.Fresh)
    (hclass : g.Classified) :
    Yields (g.order.foldlM (visit? catalog) { graph := g }) fun s => s.graph.Propagated := by
  refine ((((current_of_sweep hg hclass).and (honours_of_sweep hg)).and (settled_of_sweep hg)).and
    (folded_of_sweep hg)).mono ?_
  rintro s ⟨⟨⟨hcurrent, _, hhonours⟩, _, hsettled⟩, hsame, hfolded⟩
  have hfolds : ∀ {id node}, s.graph.node? id = some node → node.eliminable = true →
      ∃ edge, s.graph.Folds id edge := by
    intro id node hnode hmarked
    obtain ⟨_, edge, hfolds, _⟩ := hfolded hnode hmarked
    exact ⟨edge, hfolds.of_sameContent hsame⟩
  have hdata : ∀ {id node}, s.graph.node? id = some node → node.eliminable = true →
      node.isConstant = false := by
    intro id node hnode hmarked
    obtain ⟨edge, permute, _, hpermute, hfoldable, _⟩ := hfolds hnode hmarked
    obtain rfl := Option.some.inj (hnode.symm.trans hpermute)
    rw [Node.isConstant, (of_isFoldable hfoldable).1]
    rfl
  refine ⟨hg.toOrdered.of_sameContent hsame, hcurrent.classified, hhonours, ?_, ?_⟩
  · intro id node hnode hopen
    have hlt : id.index < g.size := by
      rw [← hsame.nodes.size_eq]
      exact Graph.lt_size_of_node? hnode
    obtain ⟨index, hindex⟩ : ∃ index, node.Open index := by
      simpa [Node.chosen_iff] using hopen
    cases hconstant : node.isConstant with
    | true =>
      refine iff_of_false ?_ fun hmarked => ?_
      · simp [hcurrent.stale hnode hconstant]
      · rw [hdata hnode hmarked] at hconstant
        cases hconstant
    | false =>
      exact iff_of_true (hcurrent.settled hnode hlt hconstant)
        (hsettled hnode hconstant index hindex).1
  · intro id node edge source hnode hmarked hedge hsource
    obtain ⟨only, permute, found, hpermute, _, hdeps, hfound, hcompute, _⟩ := hfolds hnode hmarked
    obtain rfl := Option.some.inj (hnode.symm.trans hpermute)
    rw [hdeps, List.mem_singleton] at hedge
    subst hedge
    obtain rfl := Option.some.inj (hsource.symm.trans hfound)
    refine Node.chosen_iff.2 fun index hopen => ?_
    obtain ⟨hmarked', _⟩ := hsettled hsource (isConstant_of_isCompute hcompute) index hopen
    obtain ⟨_, permute', _, hpermute', hfoldable, _⟩ := hfolds hsource hmarked'
    obtain rfl := Option.some.inj (hsource.symm.trans hpermute')
    rw [(of_isFoldable hfoldable).1] at hcompute
    cases hcompute

end LayoutPlanner
