import LayoutPlanner.Proofs.FirstLegalFormats
import LayoutPlanner.Proofs.SettledFlags

/-!
# Runs that report no change

What edge agreement may have done to a graph although its report says that nothing has changed.

* Whatever repairs a slot, adopts a format or hands a node over also says so (`Announced`,
  `legalize?_silent`), and what is said is not taken back.  So a visit that says nothing has settled
  its node and tried some formats in vain, and that is all (`Turn.silent`).
* Settling says nothing.  It fills in the open formats of a stale node, and a search in vain makes
  readers stale.  `Silent` keeps track of both.
* After propagation, the nodes with open formats are stale constants and folded permutes.  Hence the
  graph is as it was, except that constants with inputs are filled in, and permutes that were folded
  into a node which then searched in vain (`Keeps`).
-/

namespace LayoutPlanner

/-- The second layout is the first one, or the first one without a format has been given one. -/
def Layout.FillsIn (layout layout' : Layout) : Prop :=
  layout' = layout ∨ layout.format = .any ∧ ∃ format, layout' = layout.withFormat format

namespace Node

/-- All of a node but its outputs and whether they are settled. -/
def skeleton (node : Node) : Node :=
  { node with outputs := [], layoutValid := false }

variable {node node' : Node}

theorem eq_of_skeleton (hskeleton : node'.skeleton = node.skeleton)
    (houtputs : node'.outputs = node.outputs) :
    node' = { node with layoutValid := node'.layoutValid } := by
  have heq := congrArg (fun kept : Node =>
    { kept with outputs := node'.outputs, layoutValid := node'.layoutValid }) hskeleton
  exact (show node' = { node with outputs := node'.outputs, layoutValid := node'.layoutValid }
    from heq).trans (by rw [houtputs])

theorem skeleton_resolved (node : Node) (inherited : List Format) :
    (node.resolved inherited).skeleton = node.skeleton := by
  unfold resolved
  split <;> rfl

/-- Settling fills in open formats only. -/
theorem Honours.fillsIn_resolved (h : node.Honours) (inherited : List Format) :
    List.Forall₂ Layout.FillsIn node.outputs (node.resolved inherited).outputs := by
  unfold resolved
  split
  next => exact List.forall₂_same.2 fun _ _ => Or.inl rfl
  next =>
    refine List.forall₂_iff_get.2 ⟨by simp [settledOutputs], fun index hlt hlt' => ?_⟩
    have hlayout : node.outputs[index]? = some node.outputs[index] := List.getElem?_eq_getElem hlt
    simp only [List.get_eq_getElem, settledOutputs, List.getElem_mapIdx]
    by_cases hopen : node.outputs[index].format = .any
    · exact Or.inr ⟨hopen, _, rfl⟩
    · rw [h.settledFormat_eq hlayout (Format.isChosen_iff_ne.2 hopen) inherited]
      exact Or.inl rfl

/-- Settling leaves the outputs as they are if nothing is open, or if the node is not stale. -/
theorem Honours.outputs_resolved_iff (h : node.Honours) (inherited : List Format) :
    (node.resolved inherited).outputs = node.outputs ↔ node.Chosen ∨ node.layoutValid = true := by
  constructor
  · intro heq
    by_cases hvalid : node.layoutValid = true
    · exact Or.inr hvalid
    · rw [resolved, if_neg hvalid] at heq
      exact Or.inl ((node.chosen_settled inherited).of_outputs heq.symm)
  · rintro (hchosen | hvalid)
    · rw [h.resolved_eq hchosen]
    · rw [resolved, if_pos hvalid]

end Node

namespace Reconciliation

variable {start : Graph} {cx : Context} {id : NodeId} {s s' : Reconciliation}

/-! ## Saying what was done -/

/-- Nothing was done, or the report says that something has changed. -/
def Announced (s s' : Reconciliation) : Prop :=
  s' = s ∨ s'.report.changed = true

theorem Announced.eq (h : Announced s s') (hquiet : s'.report.changed = false) : s' = s :=
  h.resolve_right (by simp [hquiet])

theorem changed_of_convert? {slot : Nat} {target : Layout} {reason : ReorderReason}
    (h : s.convert? id slot target reason = some s') : s'.report.changed = true := by
  cases serves_of_convert? h with
  | retarget => rfl
  | reuse _ _ _ h =>
    obtain ⟨g, _, h⟩ := Option.bind_eq_some_iff.1 h
    cases h
    rfl
  | create _ _ _ h =>
    obtain ⟨input, _, h⟩ := Option.bind_eq_some_iff.1 h
    obtain ⟨⟨g, reorder⟩, _, h⟩ := Option.bind_eq_some_iff.1 h
    cases h
    rfl

theorem repairSlots_announced (repair : Reconciliation → Repair) (slots : List Nat) :
    Ensures (slots.foldlM (repairSlot? id repair) s) (Announced s) := by
  refine Ensures.foldlM (Announced s) (Or.inl rfl) fun slot t ht => ?_
  refine Ensures.bind_all fun _ _ => Ensures.bind_all fun _ _ => ?_
  split
  next => exact fun t' h => Or.inr (changed_of_convert? h)
  next => exact Ensures.pure ht

theorem convertState?_announced : Ensures (s.convertState? id) (Announced s) := by
  intro s' h
  obtain ⟨node, hnode, _⟩ := Option.bind_eq_some_iff.1 h
  cases stateRepair_of_convertState? hnode h with
  | rests => exact Or.inl rfl
  | converts _ _ hconvert =>
    have hchanged := changed_of_convert? hconvert
    exact Or.inr hchanged

theorem reorderOperands?_announced : Ensures (s.reorderOperands? id) (Announced s) :=
  Ensures.bind_all fun _ _ => Ensures.bind_all fun _ _ => repairSlots_announced _ _

theorem unpadNormalization?_announced : Ensures (s.unpadNormalization? id) (Announced s) := by
  refine Ensures.bind_all fun _ _ => ?_
  split
  next =>
    exact Ensures.bind_all fun _ _ => Ensures.bind_all fun _ _ => repairSlots_announced _ _
  next => exact Ensures.pure (Or.inl rfl)

theorem unpadVendor?_announced : Ensures (s.unpadVendor? id) (Announced s) := by
  refine Ensures.bind_all fun _ _ => ?_
  split
  next => exact Ensures.bind_all fun _ _ => repairSlots_announced _ _
  next => exact Ensures.pure (Or.inl rfl)

theorem reconcile?_announced : Ensures (s.reconcile? id) (Announced s) :=
  Ensures.bind_all fun _ _ => repairSlots_announced _ _

/-- A search that neither fails nor says that it changed something has tried formats in vain, if any
at all. -/
theorem legalize?_silent (hg : s.graph.WellFormed) (hclass : s.graph.Classified) {node : Node}
    (hnode : s.graph.node? id = some node) (hturn : node.HasTurn)
    (h : s.legalize? cx id = some s') (hquiet : s'.report.changed = false)
    (hfine : s'.failure = none) :
    ∃ tried, (tried ≠ [] ↔ s.graph.Searches cx.catalog id) ∧
      s' = s.withGraph (s.graph.afterTrials id tried) := by
  obtain ⟨inputs, _, hview⟩ := hg.exists_view hnode
  obtain ⟨output, houtput⟩ := hg.exists_output hnode
  have hfallback : ∀ {mask rank tried base}, ¬FallsBack cx.catalog id mask rank tried base s' := by
    rintro mask rank tried base (⟨_⟩ | ⟨_, _⟩)
    · cases hquiet
    · cases hfine
  cases legalizes_of_legalize? hg hclass hview houtput h with
  | legal haccepted =>
    refine ⟨[], iff_of_false (fun hne => hne rfl) ?_, rfl⟩
    exact Graph.not_searches_of_isSupported hview
      ((Graph.isAccepted_of_view hview _ _).symm.trans haccepted)
  | inherited => cases hquiet
  | deferred hstuck =>
    have hrefused := (Graph.isAccepted_of_view hview _ _).symm.trans hstuck.refused
    exact ⟨_, (Graph.searches_iff hview houtput hrefused hturn).symm, rfl⟩
  | fallenBack _ _ _ hend => exact absurd hend hfallback
  | @demoted base _ _ _ hbase =>
    have hchanged : base.report.changed = true := by rw [hbase.report]
    rw [withGraph, hchanged] at hquiet
    cases hquiet
  | demotedAndFallenBack _ _ _ _ _ hend => exact absurd hend hfallback

/-! ## A silent visit -/

/-- A visit that ends well and says nothing has settled the node and tried formats in vain. -/
theorem Turn.silent (hstart : start.Reached) (hturn : Turn cx start id s)
    (h : visit? cx s id = some s') (hquiet : s'.report.changed = false)
    (hfine : s'.failure = none) :
    ∃ g tried, s.graph.settle? id = some g ∧ (tried ≠ [] ↔ g.Searches cx.catalog id) ∧
      s' = s.withGraph (g.afterTrials id tried) := by
  obtain ⟨s₁, s₂, s₃, s₄, s₅, s₆, _, hvisit, hstages, _, hmidway⟩ := hturn.exists_stages hstart
  obtain rfl := Option.some.inj (h.symm.trans hvisit)
  obtain ⟨old, hold, hdue⟩ := hturn.due
  obtain ⟨node₅, hnode₅, _⟩ := hmidway.sound.kept hold
  obtain rfl := (reconcile?_announced s' (hstages.reconciled hfine)).eq hquiet
  obtain ⟨tried, hsearches, rfl⟩ := legalize?_silent hmidway.sound.wellFormed hmidway.classified
    hnode₅ ((hmidway.sound.hasTurn_iff hold hnode₅).2 hdue) hstages.legal hquiet hfine
  have hquiet₅ : s₅.report.changed = false := hquiet
  obtain rfl := (unpadVendor?_announced _ hstages.vendor).eq hquiet₅
  obtain rfl := (unpadNormalization?_announced _ hstages.normalization).eq hquiet₅
  have hoperands : Announced s₂ s₅ := by
    have heq := hstages.operands
    split at heq
    next => exact reorderOperands?_announced _ heq
    next =>
      cases heq
      exact Or.inl rfl
  obtain rfl := hoperands.eq hquiet₅
  obtain rfl := (convertState?_announced _ hstages.state).eq hquiet₅
  obtain ⟨g, hsettle, rfl⟩ := hstages.settled
  exact ⟨g, tried, hsettle, hsearches, rfl⟩

/-- The node has been settled.  Its readers are stale if that changed its outputs, or if formats
were tried. -/
structure Glanced (id : NodeId) (node : Node) (inherited : List Format) (searched : Prop)
    (g g' : Graph) : Prop where
  order_eq : g'.order = g.order
  skeleton : g.Same Node.skeleton g'
  self : ∀ {node'}, g'.node? id = some node' →
    node'.outputs = (node.resolved inherited).outputs
  others : ∀ {other old node'}, other ≠ id → g.node? other = some old →
    g'.node? other = some node' → node'.outputs = old.outputs ∧
      (node'.layoutValid = true ↔ old.layoutValid = true ∧ (other ∈ node.users →
        (node.resolved inherited).outputs = node.outputs ∧ ¬searched))

theorem glanced_of_settle {g g₁ : Graph} (hg : g.WellFormed) (hclass : g.Classified) {node : Node}
    (hnode : g.node? id = some node) (hself : id ∉ node.users) (h : g.settle? id = some g₁)
    (tried : List Format) :
    ∃ inherited, Glanced id node inherited (tried ≠ []) g (g₁.afterTrials id tried) := by
  obtain ⟨horder, inherited, _, hnew, hothers⟩ :=
    (Graph.settle?_resolves hg hclass hnode hself).post_of_eq h
  have husers : (node.resolved inherited).users = node.users :=
    (congrArg Node.users (node.skeleton_resolved inherited) :)
  have hsettled : g.Same Node.skeleton g₁ := by
    intro other
    by_cases hne : other = id
    · subst hne
      rw [hnew, hnode, Option.map_some, Option.map_some, Node.skeleton_resolved]
    · rw [hothers other hne, Option.map_map]
      refine congrArg (Option.map · _) (funext fun old => ?_)
      simp only [Function.comp_apply]
      split <;> rfl
  have hnodes : ∀ other, (g₁.afterTrials id tried).node? other = (g₁.node? other).map fun old =>
      if tried = [] then old else old.flagged node.users id other := by
    intro other
    unfold Graph.afterTrials
    split
    next => simp
    next => rw [Graph.node?_touched, Graph.readers_of_node hnew, husers]
  refine ⟨inherited, ?_, hsettled.trans (Graph.same_afterTrials fun _ _ => rfl), ?_, ?_⟩
  · rw [← horder]
    unfold Graph.afterTrials
    split <;> rfl
  · intro node' hnode'
    rw [hnodes, hnew] at hnode'
    obtain rfl := Option.some.inj hnode'
    split <;> rfl
  · intro other old node' hne hold hnode'
    rw [hnodes, hothers other hne, hold] at hnode'
    obtain rfl := Option.some.inj hnode'
    by_cases htried : tried = [] <;> by_cases hreads : other ∈ node.users <;>
      by_cases hsame : (node.resolved inherited).outputs = node.outputs <;>
      simp [htried, hreads, hsame, hne, Node.flagged, Node.stale]

/-! ## Silent runs -/

/-- When the turn of the node comes, it is not legal and formats of its inputs are tried. -/
def Searching (cx : Context) (start : Graph) (id : NodeId) : Prop :=
  ∃ s g, Turn cx start id s ∧ s.graph.settle? id = some g ∧ g.Searches cx.catalog id

/-- A visit, if the node has one, leaves its outputs as they are: there is nothing to fill in, or
the node is a permute that was folded away and is not made stale by what it reads. -/
def Keeps (cx : Context) (start : Graph) (node : Node) : Prop :=
  node.HasTurn → node.Chosen ∨
    node.eliminable = true ∧ ∀ edge ∈ node.deps, ¬Searching cx start edge.node

/-- A turn comes once. -/
theorem Turn.foldlM_eq (hlisted : start.ListsAll) (h : Turn cx start id s)
    {visited ahead : List NodeId} (hsplit : start.order = visited ++ id :: ahead) :
    visited.foldlM (visit? cx) { graph := start } = some s := by
  obtain ⟨ids, ⟨rest, hids⟩, hrun⟩ := h.next
  rw [List.append_assoc, List.singleton_append] at hids
  have honce := (List.nodup_cons.1 (List.nodup_middle.1 (hsplit ▸ hlisted.nodup))).1
  rw [List.mem_append, not_or] at honce
  obtain ⟨rfl, _, _⟩ :=
    (List.append_cons_inj_of_notMem honce.1 honce.2).1 (hsplit.symm.trans hids.symm)
  exact hrun

/-- The run has said nothing so far.  Of the nodes that it is past, those have been filled in that
do not keep their outputs, and a node ahead whose producers have all their formats is stale if one
of them tried formats in vain. -/
structure Silent (start : Graph) (cx : Context) (visited : List NodeId) (s : Reconciliation) :
    Prop where
  fresh : s = { graph := s.graph }
  order_eq : s.graph.order = start.order
  skeleton : start.Same Node.skeleton s.graph
  fills : ∀ {id node node'}, start.node? id = some node → s.graph.node? id = some node' →
    List.Forall₂ Layout.FillsIn node.outputs node'.outputs
  outputs : ∀ {id node node'}, start.node? id = some node → s.graph.node? id = some node' →
    (node'.outputs = node.outputs ↔ (id ∈ visited → Keeps cx start node))
  stale : ∀ {id node node'}, id ∉ visited → start.node? id = some node →
    s.graph.node? id = some node' → node'.layoutValid = true → node.layoutValid = true
  valid : ∀ {id node node'}, id ∉ visited → start.node? id = some node →
    s.graph.node? id = some node' →
    (∀ edge ∈ node.deps, ∀ source, start.node? edge.node = some source → source.Chosen) →
    (node'.layoutValid = true ↔ node.layoutValid = true ∧
      ∀ edge ∈ node.deps, edge.node ∈ visited → ¬Searching cx start edge.node)

theorem silent_start : Silent start cx [] { graph := start } where
  fresh := rfl
  order_eq := rfl
  skeleton := .refl start
  fills := by
    intro id node node' hnode hnode'
    obtain rfl := Option.some.inj (hnode.symm.trans hnode')
    exact List.forall₂_same.2 fun _ _ => Or.inl rfl
  outputs := by
    intro id node node' hnode hnode'
    obtain rfl := Option.some.inj (hnode.symm.trans hnode')
    simp
  stale := by
    intro id node node' _ hnode hnode'
    obtain rfl := Option.some.inj (hnode.symm.trans hnode')
    exact fun hvalid => hvalid
  valid := by
    intro id node node' _ hnode hnode' _
    obtain rfl := Option.some.inj (hnode.symm.trans hnode')
    simp

section Step

variable {visited ahead : List NodeId} {node : Node}

/-- A node without a turn is passed over. -/
theorem Silent.skip (h : Silent start cx visited s) (hnode : start.node? id = some node)
    (hpass : ¬node.HasTurn) : Silent start cx (visited ++ [id]) s where
  fresh := h.fresh
  order_eq := h.order_eq
  skeleton := h.skeleton
  fills := h.fills
  outputs := by
    intro other found node' hfound hnode'
    rw [h.outputs hfound hnode', List.mem_append, List.mem_singleton]
    refine ⟨fun hkeeps hmem => ?_, fun hkeeps hmem => hkeeps (Or.inl hmem)⟩
    rcases hmem with hmem | rfl
    · exact hkeeps hmem
    · obtain rfl := Option.some.inj (hnode.symm.trans hfound)
      exact fun hturn => absurd hturn hpass
  stale := by
    intro other found node' hnew
    rw [List.mem_append, not_or] at hnew
    exact h.stale hnew.1
  valid := by
    intro other found node' hnew hfound hnode' hchosen
    rw [List.mem_append, not_or] at hnew
    rw [h.valid hnew.1 hfound hnode' hchosen]
    refine and_congr_right fun _ => forall₂_congr fun edge _ => ?_
    rw [List.mem_append, List.mem_singleton]
    refine ⟨fun hvain hmem => ?_, fun hvain hmem => hvain (Or.inl hmem)⟩
    rcases hmem with hmem | heq
    · exact hvain hmem
    · rintro ⟨_, _, hturn, _⟩
      obtain ⟨found, hfound, hdue⟩ := hturn.due
      rw [heq, hnode] at hfound
      obtain rfl := Option.some.inj hfound
      exact hpass hdue

/-- When the turn of a node comes, it has been made stale unless it keeps its outputs. -/
theorem Silent.keeps_iff (h : Silent start cx visited s) (hstart : start.Propagated)
    (hsplit : start.order = visited ++ id :: ahead) (hnode : start.node? id = some node)
    (hturn : node.HasTurn) {current : Node} (hcurrent : s.graph.node? id = some current) :
    node.Chosen ∨ current.layoutValid = true ↔ Keeps cx start node := by
  have hlisted := hstart.ordered.listsAll
  have hnew := hlisted.not_mem_of_split hsplit
  have hkeeps : Keeps cx start node ↔ node.Chosen ∨
      node.eliminable = true ∧ ∀ edge ∈ node.deps, ¬Searching cx start edge.node :=
    ⟨fun hkeeps => hkeeps hturn, fun hkeeps _ => hkeeps⟩
  rw [hkeeps]
  by_cases hchosen : node.Chosen
  · simp [hchosen]
  rw [or_iff_right hchosen, or_iff_right hchosen]
  cases hmarked : node.eliminable with
  | false =>
    refine iff_of_false (fun hvalid => ?_) (by simp)
    have hvalid' := h.stale hnew hnode hcurrent hvalid
    rw [hstart.settled_iff hnode hchosen, hmarked] at hvalid'
    cases hvalid'
  | true =>
    rw [h.valid hnew hnode hcurrent fun edge hedge source => hstart.source hnode hmarked hedge,
      hstart.settled_iff hnode hchosen, hmarked]
    refine and_congr_right fun _ => forall₂_congr fun edge hedge => ?_
    have hbefore := hstart.ordered.arranged.inOrder.produced hsplit hnode hedge
    exact ⟨fun hvain => hvain hbefore, fun hvain _ => hvain⟩

theorem searching_iff (hlisted : start.ListsAll) (hsplit : start.order = visited ++ id :: ahead)
    (hturn : Turn cx start id s) {g : Graph} (hsettle : s.graph.settle? id = some g) :
    Searching cx start id ↔ g.Searches cx.catalog id := by
  refine ⟨?_, fun hsearches => ⟨s, g, hturn, hsettle, hsearches⟩⟩
  rintro ⟨s', g', hturn', hsettle', hsearches⟩
  have hstate := (hturn.foldlM_eq hlisted hsplit).symm.trans (hturn'.foldlM_eq hlisted hsplit)
  obtain rfl := Option.some.inj hstate
  obtain rfl := Option.some.inj (hsettle.symm.trans hsettle')
  exact hsearches

/-- A node ahead is as it was, except that it may be stale by now. -/
theorem Silent.exists_ahead (h : Silent start cx visited s) (hstart : start.Propagated)
    (hnew : id ∉ visited) (hnode : start.node? id = some node) :
    ∃ current, s.graph.node? id = some current ∧ current.outputs = node.outputs ∧
      current.users = node.users ∧ current.Honours := by
  obtain ⟨current, hcurrent, hskeleton⟩ := h.skeleton.exists_new hnode
  have houtputs : current.outputs = node.outputs :=
    (h.outputs hnode hcurrent).2 fun hmem => absurd hmem hnew
  have hhonours := hstart.honours hnode
  refine ⟨current, hcurrent, houtputs, (congrArg Node.users hskeleton :), ?_⟩
  rw [Node.eq_of_skeleton hskeleton houtputs]
  exact hhonours

/-- Whether a visit makes a node stale that reads nodes with all their formats only. -/
theorem spares_iff (hstart : start.Propagated) (hnode : start.node? id = some node)
    {current : Node} (houtputs : current.outputs = node.outputs)
    (husers : current.users = node.users) (hhonours : current.Honours) (inherited : List Format)
    {other : NodeId} {found : Node} (hfound : start.node? other = some found)
    (hchosen : ∀ edge ∈ found.deps, ∀ source, start.node? edge.node = some source →
      source.Chosen) :
    (other ∈ current.users → (current.resolved inherited).outputs = current.outputs ∧
      ¬Searching cx start id) ↔
      ∀ edge ∈ found.deps, edge.node = id → ¬Searching cx start edge.node := by
  have hreads : other ∈ current.users ↔ ∃ edge ∈ found.deps, edge.node = id := by
    rw [husers, hstart.ordered.wellFormed.users_iff other hnode, Graph.reads_iff_of_node? hfound]
  rw [hreads]
  constructor
  · intro hquiet edge hedge heq
    rw [heq]
    exact (hquiet ⟨edge, hedge, heq⟩).2
  · rintro hquiet ⟨edge, hedge, rfl⟩
    refine ⟨(hhonours.outputs_resolved_iff inherited).2 (Or.inl ?_), hquiet edge hedge rfl⟩
    exact (hchosen edge hedge node hnode).of_outputs houtputs

/-- A visit that says nothing fills in the node unless it keeps its outputs, and makes its readers
stale if it tried formats. -/
theorem Silent.turn (h : Silent start cx visited s) (hstart : start.Propagated)
    (hs : Steady start s) (hsplit : start.order = visited ++ id :: ahead)
    (hturn : Turn cx start id s) {g : Graph} (hsettle : s.graph.settle? id = some g)
    {tried : List Format} (htried : tried ≠ [] ↔ g.Searches cx.catalog id) :
    Silent start cx (visited ++ [id]) (s.withGraph (g.afterTrials id tried)) := by
  have hlisted := hstart.ordered.listsAll
  obtain ⟨node, hnode, hdue⟩ := hturn.due
  obtain ⟨current, hcurrent, houtputs, husers, hhonours⟩ :=
    h.exists_ahead hstart (hlisted.not_mem_of_split hsplit) hnode
  have hself : id ∉ current.users :=
    husers ▸ hstart.ordered.not_mem_users hnode (Nat.le_refl _)
  obtain ⟨inherited, hglanced⟩ :=
    glanced_of_settle hs.sound.wellFormed hs.classified hcurrent hself hsettle tried
  rw [htried, ← searching_iff hlisted hsplit hturn hsettle] at hglanced
  refine ⟨?_, hglanced.order_eq.trans h.order_eq, h.skeleton.trans hglanced.skeleton, ?_, ?_, ?_,
    ?_⟩
  · rw [h.fresh]
    rfl
  · intro other found node' hfound hnode'
    by_cases hne : other = id
    · subst hne
      obtain rfl := Option.some.inj (hnode.symm.trans hfound)
      rw [hglanced.self hnode', ← houtputs]
      exact hhonours.fillsIn_resolved inherited
    · obtain ⟨old, hold, _⟩ := h.skeleton.exists_new hfound
      rw [(hglanced.others hne hold hnode').1]
      exact h.fills hfound hold
  · intro other found node' hfound hnode'
    rw [List.mem_append, List.mem_singleton]
    by_cases hne : other = id
    · subst hne
      obtain rfl := Option.some.inj (hnode.symm.trans hfound)
      rw [hglanced.self hnode', ← houtputs, hhonours.outputs_resolved_iff, Node.Chosen, houtputs,
        ← Node.Chosen, h.keeps_iff hstart hsplit hnode hdue hcurrent]
      exact ⟨fun hkeeps _ => hkeeps, fun hkeeps => hkeeps (Or.inr rfl)⟩
    · obtain ⟨old, hold, _⟩ := h.skeleton.exists_new hfound
      rw [(hglanced.others hne hold hnode').1, h.outputs hfound hold, or_iff_left hne]
  · intro other found node' hother hfound hnode' hvalid
    rw [List.mem_append, List.mem_singleton, not_or] at hother
    obtain ⟨old, hold, _⟩ := h.skeleton.exists_new hfound
    exact h.stale hother.1 hfound hold ((hglanced.others hother.2 hold hnode').2.1 hvalid).1
  · intro other found node' hother hfound hnode' hchosen
    rw [List.mem_append, List.mem_singleton, not_or] at hother
    obtain ⟨old, hold, _⟩ := h.skeleton.exists_new hfound
    rw [(hglanced.others hother.2 hold hnode').2, h.valid hother.1 hfound hold hchosen, and_assoc,
      spares_iff hstart hnode houtputs husers hhonours inherited hfound hchosen]
    simp only [List.mem_append, List.mem_singleton, or_imp, forall_and]

/-- A visit that ends well and says nothing passes over the node, or it is a silent turn. -/
theorem silent_cases (hreached : start.Reached) (hstart : start.WellFormed) (hs : Steady start s)
    (hsplit : start.order = visited ++ id :: ahead) (hnode : start.node? id = some node)
    (hrun : visited.foldlM (visit? cx) { graph := start } = some s)
    (hvisit : visit? cx s id = some s') (hquiet : s'.report.changed = false)
    (hfine : s'.failure = none) :
    s' = s ∧ ¬node.HasTurn ∨ Turn cx start id s ∧ ∃ g tried, s.graph.settle? id = some g ∧
      (tried ≠ [] ↔ g.Searches cx.catalog id) ∧ s' = s.withGraph (g.afterTrials id tried) := by
  have hid := Graph.lt_size_of_node? hnode
  obtain ⟨current, hcurrent, _⟩ := hs.sound.kept hnode
  have hturn_iff := hs.sound.hasTurn_iff hnode hcurrent
  rcases (visit?_spec hstart hs.sound hid hcurrent).post_of_eq hvisit with
    ⟨rfl, hskip⟩ | ⟨⟨hfine_before, hdeps, hreorder⟩, _⟩
  · refine Or.inl ⟨rfl, fun hturn => ?_⟩
    rcases hskip with hfailed | hdeps | hreorder
    · simp [hfine] at hfailed
    · exact (hturn_iff.2 hturn).deps hdeps
    · simp [(hturn_iff.2 hturn).notReorder] at hreorder
  · have hturn : Turn cx start id s := ⟨⟨visited, ⟨ahead, by simp [hsplit]⟩, hrun⟩, hfine_before,
      node, hnode, hturn_iff.1 ⟨hdeps, hreorder⟩⟩
    exact Or.inr ⟨hturn, hturn.silent hreached hvisit hquiet hfine⟩

end Step

/-- A run that ends well and says nothing has been silent all along. -/
theorem silent_of_run (hreached : start.Reached) (hstart : start.Propagated) :
    Yields (start.order.foldlM (visit? cx) { graph := start }) fun s =>
      s.report.changed = false → s.failure = none → Silent start cx start.order s := by
  have hwf := hstart.ordered.wellFormed
  have hlisted := hstart.ordered.listsAll
  refine (Yields.foldlM (fun visited s => Steady start s ∧
    visited.foldlM (visit? cx) { graph := start } = some s ∧
    (s.report.changed = false → s.failure = none → Silent start cx visited s)) ?_ ?_).mono
    fun s h => h.2.2
  · exact ⟨⟨sound_start hwf hlisted, passed_start, hstart.classified, .refl start⟩, rfl,
      fun _ _ => silent_start⟩
  · rintro visited id ahead s hsplit ⟨hs, hrun, hsilent⟩
    have hid : id.index < start.size := hlisted.lt_size (by simp [hsplit])
    obtain ⟨node, hnode⟩ := Graph.exists_node hid
    obtain ⟨s', hvisit, hs'⟩ : Yields (visit? cx s id) _ := hs.visit hwf hid
    refine .of_eq hvisit ⟨hs', ?_, fun hquiet hfine => ?_⟩
    · simp [List.foldlM_append, hrun, hvisit]
    · rcases silent_cases hreached hwf hs hsplit hnode hrun hvisit hquiet hfine with
        ⟨rfl, hpass⟩ | ⟨hturn, g, tried, hsettle, htried, rfl⟩
      · exact (hsilent hquiet hfine).skip hnode hpass
      · exact (hsilent hquiet hturn.fine).turn hstart hs hsplit hturn hsettle htried

end Reconciliation

/-- If edge agreement ends well after propagation and reports no change, the graph is as it was,
with its edges, its preferences, its pins and its classes, except for outputs that had no format.
Those have been given one wherever the node does not keep its outputs. -/
theorem unchanged_of_silent_report {decls : List NodeDecl} {g : Graph}
    (hbuild : Graph.build? decls = some (.ok g)) (cx : Context) :
    ∃ swept agreed, Propagation.run? cx g = some swept ∧
      Reconciliation.run? cx swept.graph = some agreed ∧
      ∀ report, agreed.result = .ok report → report.changed = false →
        report = {} ∧ agreed.graph.order = swept.graph.order ∧
        agreed.graph.size = swept.graph.size ∧ swept.graph.Same Node.skeleton agreed.graph ∧
        ∀ id node node', swept.graph.node? id = some node → agreed.graph.node? id = some node' →
          List.Forall₂ Layout.FillsIn node.outputs node'.outputs ∧
          (node'.outputs = node.outputs ↔ Reconciliation.Keeps cx swept.graph node) := by
  have hfresh := Graph.fresh_of_build hbuild
  obtain ⟨swept, hswept, _, s₁, hfold₁, hgraph₁, _⟩ := Propagation.run?_spec cx hfresh.toOrdered
  have hpropagated : swept.graph.Propagated := by
    rw [hgraph₁]
    exact (Propagation.propagated_of_sweep hfresh (Graph.classified_of_build hbuild)).post_of_eq
      hfold₁
  have hreached : swept.graph.Reached :=
    @Graph.Reached.stage cx .propagation _ _ (.built hbuild) hswept
  obtain ⟨agreed, hagreed, s₂, hfold₂, _, hgraph₂, herror⟩ :=
    Reconciliation.run?_spec cx hpropagated.ordered
  refine ⟨swept, agreed, hswept, hagreed, fun report hok hquiet => ?_⟩
  have hrun : Reconciliation.run? cx swept.graph = some s₂.outcome := by
    rw [Reconciliation.run?, hfold₂]
    rfl
  obtain rfl := Option.some.inj (hagreed.symm.trans hrun)
  obtain rfl := Reconciliation.report_of_outcome hok
  have hfine : s₂.failure = none := herror ▸ Outcome.error?_eq_none_iff.2 ⟨_, hok⟩
  have hsilent :=
    (Reconciliation.silent_of_run hreached hpropagated).post_of_eq hfold₂ hquiet hfine
  rw [hgraph₂]
  refine ⟨by rw [hsilent.fresh], hsilent.order_eq, hsilent.skeleton.size_eq, hsilent.skeleton, ?_⟩
  intro id node node' hnode hnode'
  refine ⟨hsilent.fills hnode hnode', (hsilent.outputs hnode hnode').trans ?_⟩
  have hlisted := hpropagated.ordered.listsAll.mem_of_lt (Graph.lt_size_of_node? hnode)
  exact ⟨fun hkeeps => hkeeps hlisted, fun hkeeps _ => hkeeps⟩

/-- The vendor takes products in one format and asks for another. -/
def fickleProducts : Catalog where
  registrations := [
    (.gemm, { emits .bfyx with
      kind := .vendor
      preference := fun _ => some { outputs := [.byxf] } }),
    (.permute, takes .generic "permute"), (.constant, takes .generic "table")]

/-- A product of batches, which is transposed, and a table that depends on the same data. -/
def transposedBatches : List NodeDecl :=
  let layout : Layout := ⟨⟨.dynamic "N" :: [16, 8, 8].map .static⟩, .f32, .any, {}⟩
  [{ name := "data", op := .input, outputs := [layout.withFormat .yxfb] },
    { name := "product", op := .gemm, inputs := [⟨⟨0⟩, 0⟩], outputs := [layout.withFormat .bfyx] },
    { name := "transposed", op := .permute, inputs := [⟨⟨1⟩, 0⟩], outputs := [layout, layout],
      attrs := .permute [0, 1, 3, 2] },
    { name := "table", op := .constant, inputs := [⟨⟨0⟩, 0⟩], outputs := [layout] }]

theorem unchanged_transposedBatches : ∃ g swept agreed,
    Graph.build? transposedBatches = some (.ok g) ∧
    Propagation.run? { catalog := fickleProducts } g = some swept ∧
    Reconciliation.run? { catalog := fickleProducts } swept.graph = some agreed ∧
    agreed.result = .ok {} ∧ agreed.graph.order = swept.graph.order ∧
    agreed.graph.size = swept.graph.size ∧ swept.graph.Same Node.skeleton agreed.graph ∧
    ∀ id node node', swept.graph.node? id = some node → agreed.graph.node? id = some node' →
      List.Forall₂ Layout.FillsIn node.outputs node'.outputs ∧
      (node'.outputs = node.outputs ↔
        Reconciliation.Keeps { catalog := fickleProducts } swept.graph node) := by
  obtain ⟨swept, agreed, hswept, hagreed, h⟩ :=
    @unchanged_of_silent_report transposedBatches _ rfl { catalog := fickleProducts }
  have hok : agreed.result = .ok {} := by
    obtain rfl := Option.some.inj hswept
    obtain rfl := Option.some.inj hagreed
    rfl
  exact ⟨_, swept, agreed, rfl, hswept, hagreed, hok, (h {} hok rfl).2⟩

/-- The run reports no change, but the second output of the permute has got a format, and so has the
table. -/
theorem transposedBatches_filled : ∃ g swept agreed,
    Graph.build? transposedBatches = some (.ok g) ∧
    Propagation.run? { catalog := fickleProducts } g = some swept ∧
    Reconciliation.run? { catalog := fickleProducts } swept.graph = some agreed ∧
    agreed.result = .ok {} ∧
    swept.graph.nodes.map (·.outputs.map Layout.format) =
      [[.yxfb], [.byxf], [.byxf, .any], [.any]] ∧
    agreed.graph.nodes.map (·.outputs.map Layout.format) =
      [[.yxfb], [.byxf], [.byxf, .byxf], [.yxfb]] :=
  ⟨_, _, _, rfl, rfl, rfl, rfl, rfl, rfl⟩

end LayoutPlanner
