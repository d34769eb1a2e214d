import LayoutPlanner.Proofs.ChosenFormats

/-!
# Folded permutes

What propagation leaves of the permutes that it marks as eliminable.

* The mark is put on a node that was declared as a permute of a compute node, which nothing else
  reads, by the visit of that compute node and before its own (`Graph.Folds`).
* From then on both sides of the permute are in one format, and nothing else is decided about it
  (`Node.Folded`).
* A vendor routine is selected for the compute node, and its first output has the format of the
  permute, whichever output the permute reads (`Graph.Promises`).
-/

namespace LayoutPlanner

/-- The node is a permute that can be folded into a compute node.  It reads the compute node through
`edge`, and nothing else does. -/
def Graph.Folds (g : Graph) (id : NodeId) (edge : Edge) : Prop :=
  ∃ permute source, g.node? id = some permute ∧ Propagation.isFoldable permute = true ∧
    permute.deps = [edge] ∧ g.node? edge.node = some source ∧ source.op.isCompute = true ∧
    source.users = [id]

theorem Graph.Folds.of_sameContent {g g' : Graph} {id : NodeId} {edge : Edge} (h : g.Folds id edge)
    (hsame : SameContent g g') : g'.Folds id edge := by
  obtain ⟨permute, source, hpermute, hfoldable, hdeps, hsource, hcompute, husers⟩ := h
  obtain ⟨permute', hpermute', hcontent⟩ := hsame.nodes.exists_new hpermute
  obtain ⟨source', hsource', hcontent'⟩ := hsame.nodes.exists_new hsource
  refine ⟨permute', source', hpermute', ?_, ?_, hsource', ?_, ?_⟩
  · rw [Propagation.isFoldable_congr hcontent, hfoldable]
  · rw [(Node.content_eq_iff.1 hcontent).2.1, hdeps]
  · rw [Node.op_of_content hcontent', hcompute]
  · rw [(Node.content_eq_iff.1 hcontent').2.2, husers]

/-- What the mark of a permute rests on: a vendor routine is selected for the node that it reads,
and the first outputs of both have one format. -/
def Graph.Promises (g : Graph) (id : NodeId) (edge : Edge) : Prop :=
  ∃ node source produced output, g.node? id = some node ∧ g.node? edge.node = some source ∧
    source.selected = some .vendor ∧ source.outputs[0]? = some produced ∧
    node.outputs[0]? = some output ∧ produced.format = output.format

theorem Graph.Promises.of_bare {g g' : Graph} {id : NodeId} {edge : Edge} (h : g.Promises id edge)
    {node node' : Node} (hnode : g.node? id = some node) (hnode' : g'.node? id = some node')
    (houtputs : node'.outputs[0]? = node.outputs[0]?)
    (hsource : (g'.node? edge.node).map Node.bare = (g.node? edge.node).map Node.bare) :
    g'.Promises id edge := by
  obtain ⟨_, source, produced, output, hfound, hold, hselected, hproduced, houtput, hsame⟩ := h
  obtain rfl := Option.some.inj (hnode.symm.trans hfound)
  obtain ⟨source', hsource', hbare⟩ := exists_of_map_eq hsource hold
  refine ⟨node', source', produced, output, hnode', hsource', ?_, ?_, ?_, hsame⟩
  · rw [Node.selected_of_bare hbare, hselected]
  · rw [Node.outputs_of_bare hbare, hproduced]
  · rw [houtputs, houtput]

namespace Node

/-- A permute as folding leaves it: what it reads and its first output are to have one format, and
nothing else is decided. -/
structure Folded (node : Node) : Prop where
  selected : node.selected = none
  inputTypes : node.prefers.inputTypes = []
  format : ∃ output, node.outputs[0]? = some output ∧ output.format.fits output.rank = true ∧
    node.prefers.input 0 = output.format ∧ node.prefers.output 0 = output.format

variable {a b : Node}

theorem Folded.of_bare (h : b.bare = a.bare) (ha : a.Folded) : b.Folded := by
  obtain ⟨hselected, htypes, hformat⟩ := ha
  refine ⟨?_, ?_, ?_⟩
  · rw [selected_of_bare h, hselected]
  · rw [prefers_of_bare h, htypes]
  · rw [outputs_of_bare h, prefers_of_bare h]
    exact hformat

/-- Settling finds the first output in the format that it prefers there. -/
theorem Folded.output_afterSettling (ha : a.Folded) (inherited : List Format) :
    (a.afterSettling inherited).outputs[0]? = a.outputs[0]? := by
  obtain ⟨output, houtput, hfits, _, hpreferred⟩ := ha.format
  unfold Node.afterSettling
  dsimp only
  split
  next => rfl
  next =>
    rw [settledOutputs, List.getElem?_mapIdx, houtput, Option.map_some, settledFormat, hpreferred,
      if_pos hfits]
    rfl

theorem Folded.afterSettling (ha : a.Folded) (inherited : List Format) :
    (a.afterSettling inherited).Folded := by
  obtain ⟨output, houtput, hfits, hinput, hpreferred⟩ := ha.format
  refine ⟨ha.selected, ha.inputTypes, output, ?_, hfits, hinput, hpreferred⟩
  rw [ha.output_afterSettling, houtput]

end Node

namespace Propagation

variable {catalog : Catalog} {g g' : Graph} {id : NodeId}

/-- Folding puts the permute into a format that fits it, and marks it. -/
def FoldsTo (node node' : Node) : Prop :=
  ∃ target format, node.outputs[0]? = some target ∧ Format.fits format target.rank = true ∧
    node'.bare = { node with
      outputs := node.outputs.set 0 (target.withFormat format)
      prefers := (node.prefers.setInput 0 format).setOutput 0 format
      eliminable := true }.bare

theorem FoldsTo.of_bare {node node₁ node' : Node} (h : FoldsTo node₁ node')
    (hbare : node₁.bare = node.bare) : FoldsTo node node' := by
  obtain ⟨target, format, htarget, hfits, hbare'⟩ := h
  refine ⟨target, format, Node.outputs_of_bare hbare ▸ htarget, hfits, hbare'.trans ?_⟩
  exact congrArg (fun old : Node => { old with
    outputs := old.outputs.set 0 (target.withFormat format)
    prefers := (old.prefers.setInput 0 format).setOutput 0 format
    eliminable := true }) hbare

theorem FoldsTo.folded {node node' : Node} (h : FoldsTo node node')
    (hselected : node.selected = none) (htypes : node.prefers.inputTypes = []) :
    node'.Folded := by
  obtain ⟨target, format, htarget, hfits, hbare⟩ := h
  refine .of_bare hbare ⟨hselected, ?_, target.withFormat format, ?_, hfits, ?_, ?_⟩
  · exact htypes
  · exact List.getElem?_set_self (List.getElem?_eq_some_iff.1 htarget).1
  · rw [FormatPreference.input_setOutput, FormatPreference.input_setInput, if_pos rfl]
    rfl
  · rw [FormatPreference.output_setOutput, if_pos rfl]
    rfl

/-- The node is as before, or it is folded into `id` now. -/
def KeptOrFolded (id : NodeId) (g g' : Graph) (other : NodeId) (node node' : Node) : Prop :=
  node'.bare = node.bare ∨
    FoldsTo node node' ∧ ∃ edge, g.Folds other edge ∧ edge.node = id ∧ g'.Promises other edge

/-- A move touches no other node, unless it folds a permute. -/
theorem Move.others (hg : g.WellFormed) (hlt : id.index < g.size) (h : Move catalog id g g')
    {other : NodeId} (hne : other ≠ id) {node' : Node} (hnode' : g'.node? other = some node') :
    ∃ node, g.node? other = some node ∧ KeptOrFolded id g g' other node node' := by
  obtain ⟨self, hself⟩ := Graph.exists_node hlt
  have hquiet (hedit : Graph.LocalEdit id g g') : ∃ node, g.node? other = some node ∧
      KeptOrFolded id g g' other node node' := by
    obtain ⟨node, hnode, hbare⟩ := hedit.exists_other hne hnode'
    exact ⟨node, hnode, .inl hbare⟩
  cases h with
  | settle h => exact hquiet ((Graph.settle?_spec hg hself).post_of_eq h).1
  | select _ h => exact hquiet ((select_spec hself _).post_of_eq h).1
  | record _ _ h hrecord =>
    obtain ⟨hedit, hnew⟩ := (select_spec hself _).post_of_eq h
    obtain ⟨hedit', _⟩ := (record?_spec (hedit.wellFormed hg) hnew _).post_of_eq hrecord
    exact hquiet (hedit.trans hedit')
  | @fold source permute user output target _ hnode hcompute hselected husers hpermute hfoldable
      houtput htarget hfits h =>
    have huser := ne_of_isFoldable hnode husers hpermute hfoldable
    obtain ⟨⟨g₁, hedit₁, hedit₂⟩, ⟨source', hsource', hsource_bare⟩, permute', hpermute', hbare⟩ :=
      (fold?_spec hg huser hnode hpermute houtput htarget _).post_of_eq h
    by_cases hother : other = user
    · subst hother
      obtain rfl := Option.some.inj (hnode'.symm.trans hpermute')
      obtain ⟨edge, hdeps⟩ := List.length_eq_one_iff.1 (of_isFoldable hfoldable).2.2
      obtain rfl : edge.node = id :=
        source_of_isFoldable hg hnode husers hpermute hfoldable (by simp [hdeps])
      refine ⟨permute, hpermute, .inr ⟨⟨target, output.format, htarget, hfits, hbare⟩, edge, ?_,
        rfl, ?_⟩⟩
      · exact ⟨permute, source, hpermute, hfoldable, hdeps, hnode, hcompute, husers⟩
      · refine ⟨node', source', output.withFormat output.format, target.withFormat output.format,
          hnode', hsource', ?_, ?_, ?_, rfl⟩
        · exact (Node.selected_of_bare hsource_bare).trans hselected
        · rw [Node.outputs_of_bare hsource_bare]
          exact List.getElem?_set_self (List.getElem?_eq_some_iff.1 houtput).1
        · rw [Node.outputs_of_bare hbare]
          exact List.getElem?_set_self (List.getElem?_eq_some_iff.1 htarget).1
    · obtain ⟨node₁, hnode₁, hbare₁⟩ := hedit₂.exists_other hother hnode'
      obtain ⟨node, hnode, hbare⟩ := hedit₁.exists_other hne hnode₁
      exact ⟨node, hnode, .inl (hbare₁.trans hbare)⟩

theorem Turn.others (hg : g.WellFormed) (hlt : id.index < g.size) (h : Turn catalog id g g')
    {other : NodeId} (hne : other ≠ id) {node' : Node} (hnode' : g'.node? other = some node') :
    ∃ node, g.node? other = some node ∧ KeptOrFolded id g g' other node node' := by
  obtain ⟨g₁, _, hedit, rfl | hlast⟩ := h
  · obtain ⟨node, hnode, hbare⟩ := hedit.exists_other hne hnode'
    exact ⟨node, hnode, .inl hbare⟩
  obtain ⟨node₁, hnode₁, hkept⟩ :=
    hlast.others (hedit.wellFormed hg) (hedit.content.nodes.size_eq ▸ hlt) hne hnode'
  obtain ⟨node, hnode, hbare⟩ := hedit.exists_other hne hnode₁
  refine ⟨node, hnode, ?_⟩
  rcases hkept with hsame | ⟨hfolded, edge, hfolds, hedge, hpromises⟩
  · exact .inl (hsame.trans hbare)
  · exact .inr ⟨hfolded.of_bare hbare, edge, hfolds.of_sameContent hedit.content.symm, hedge,
      hpromises⟩

/-- A visit does not mark its own node. -/
theorem Move.eliminable_self (hg : g.WellFormed) (h : Move catalog id g g') {node node' : Node}
    (hnode : g.node? id = some node) (hnode' : g'.node? id = some node') :
    node'.eliminable = node.eliminable := by
  cases h with
  | settle h =>
    obtain ⟨_, _, new, _, hnew, hbare⟩ := (Graph.settle?_spec hg hnode).post_of_eq h
    obtain rfl := Option.some.inj (hnode'.symm.trans hnew)
    exact (Node.eliminable_of_bare hbare).trans rfl
  | select _ h =>
    obtain ⟨_, hnew⟩ := (select_spec hnode _).post_of_eq h
    obtain rfl := Option.some.inj (hnode'.symm.trans hnew)
    rfl
  | record _ _ h hrecord =>
    obtain ⟨hedit, hnew⟩ := (select_spec hnode _).post_of_eq h
    obtain ⟨_, _, new, _, hnew', hbare⟩ :=
      (record?_spec (hedit.wellFormed hg) hnew _).post_of_eq hrecord
    obtain rfl := Option.some.inj (hnode'.symm.trans hnew')
    exact (Node.eliminable_of_bare hbare).trans rfl
  | fold hfound _ _ husers hpermute hfoldable houtput htarget _ h =>
    obtain rfl := Option.some.inj (hnode.symm.trans hfound)
    obtain ⟨_, ⟨new, hnew, hbare⟩, _⟩ := (fold?_spec hg
      (ne_of_isFoldable hnode husers hpermute hfoldable) hnode hpermute houtput htarget
      _).post_of_eq h
    obtain rfl := Option.some.inj (hnode'.symm.trans hnew)
    exact (Node.eliminable_of_bare hbare).trans rfl

theorem Turn.eliminable_self (hg : g.WellFormed) (hlt : id.index < g.size)
    (h : Turn catalog id g g') (hself : ∀ node, g.node? id = some node → node.eliminable = false)
    {node' : Node} (hnode' : g'.node? id = some node') : node'.eliminable = false := by
  refine Moves.inv hg hlt
    (fun g₁ => ∀ node, g₁.node? id = some node → node.eliminable = false) ?_ h.moves hself _ hnode'
  intro g₁ g₂ hwf hthere hplain hmove node hnode
  obtain ⟨old, hold⟩ := Graph.exists_node hthere
  rw [hmove.eliminable_self hwf hold hnode, hplain old hold]

/-- The first `count` nodes had their turn.  The marked nodes are permutes of `start` that were
folded into one of them.  Nothing is decided about the other nodes to come. -/
structure Folding (start : Graph) (count : Nat) (g : Graph) : Prop where
  marked : ∀ {id node}, g.node? id = some node → node.eliminable = true →
    node.Folded ∧ ∃ edge, start.Folds id edge ∧ edge.node.index < count ∧ g.Promises id edge
  ahead : ∀ {id node}, g.node? id = some node → count ≤ id.index → node.eliminable = false →
    node.prefers = {} ∧ node.selected = none

theorem Folding.mono {start : Graph} {count : Nat} (h : Folding start count g) :
    Folding start (count + 1) g := by
  refine ⟨fun hnode hmarked => ?_, fun hnode hle => h.ahead hnode (Nat.le_of_succ_le hle)⟩
  obtain ⟨hfolded, edge, hfolds, hless, hpromises⟩ := h.marked hnode hmarked
  exact ⟨hfolded, edge, hfolds, Nat.lt_succ_of_lt hless, hpromises⟩

/-- The turn of a node begins with settling it. -/
theorem Folding.settle {start : Graph} {count : Nat} (h : Folding start count g)
    (hg : g.WellFormed) (hlt : count < g.size) (hsettle : g.settle? ⟨count⟩ = some g') :
    Folding start count g' := by
  obtain ⟨self, hself⟩ := Graph.exists_node (show NodeId.index ⟨count⟩ < g.size from hlt)
  obtain ⟨hedit, inherited, new, _, hnew, hbare⟩ := (Graph.settle?_spec hg hself).post_of_eq hsettle
  refine ⟨fun {id node'} hnode' hmarked => ?_, fun {id node'} hnode' hle hplain => ?_⟩
  · have hsource {edge : Edge} (hless : edge.node.index < count) :
        (g'.node? edge.node).map Node.bare = (g.node? edge.node).map Node.bare := by
      refine hedit.others edge.node fun heq => ?_
      rw [heq] at hless
      exact Nat.lt_irrefl count hless
    by_cases hne : id = ⟨count⟩
    · subst hne
      obtain rfl := Option.some.inj (hnode'.symm.trans hnew)
      have hmark : node'.eliminable = self.eliminable := (Node.eliminable_of_bare hbare).trans rfl
      obtain ⟨hfolded, edge, hfolds, hless, hpromises⟩ := h.marked hself (hmark ▸ hmarked)
      refine ⟨(hfolded.afterSettling inherited).of_bare hbare, edge, hfolds, hless,
        hpromises.of_bare hself hnode' ?_ (hsource hless)⟩
      rw [Node.outputs_of_bare hbare, hfolded.output_afterSettling]
    · obtain ⟨node, hnode, hsame⟩ := hedit.exists_other hne hnode'
      obtain ⟨hfolded, edge, hfolds, hless, hpromises⟩ :=
        h.marked hnode (Node.eliminable_of_bare hsame ▸ hmarked)
      refine ⟨hfolded.of_bare hsame, edge, hfolds, hless,
        hpromises.of_bare hnode hnode' ?_ (hsource hless)⟩
      rw [Node.outputs_of_bare hsame]
  · by_cases hne : id = ⟨count⟩
    · subst hne
      obtain rfl := Option.some.inj (hnode'.symm.trans hnew)
      have hmark : node'.eliminable = self.eliminable := (Node.eliminable_of_bare hbare).trans rfl
      obtain ⟨hprefers, hselected⟩ := h.ahead hself hle (hmark ▸ hplain)
      exact ⟨(Node.prefers_of_bare hbare).trans hprefers,
        (Node.selected_of_bare hbare).trans hselected⟩
    · obtain ⟨node, hnode, hsame⟩ := hedit.exists_other hne hnode'
      rw [Node.prefers_of_bare hsame, Node.selected_of_bare hsame]
      exact h.ahead hnode hle (Node.eliminable_of_bare hsame ▸ hplain)

/-- The node whose turn it is is not marked: if it were, its turn would be over. -/
theorem Folding.turn {start : Graph} (hstart : start.Ordered) {count : Nat}
    (hsame : start.SameContent g) (hg : g.WellFormed) (hlt : count < g.size)
    (h : Folding start count g)
    (hself : ∀ node, g.node? ⟨count⟩ = some node → node.eliminable = false)
    (hturn : Turn catalog ⟨count⟩ g g') : Folding start (count + 1) g' := by
  have hcontent := Moves.content hg hlt hturn.moves
  refine ⟨fun {id node'} hnode' hmarked => ?_, fun {id node'} hnode' hle hplain => ?_⟩
  · have hne : id ≠ ⟨count⟩ := by
      rintro rfl
      simp [hturn.eliminable_self hg hlt hself hnode'] at hmarked
    obtain ⟨node, hnode, hbare | ⟨hfolded, edge, hfolds, hedge, hpromises⟩⟩ :=
      hturn.others hg hlt hne hnode'
    · obtain ⟨hfolded, edge, hfolds, hless, hpromises⟩ :=
        h.marked hnode (Node.eliminable_of_bare hbare ▸ hmarked)
      refine ⟨hfolded.of_bare hbare, edge, hfolds, Nat.lt_succ_of_lt hless,
        hpromises.of_bare hnode hnode' (by rw [Node.outputs_of_bare hbare]) ?_⟩
      obtain ⟨_, source, _, _, _, hsource, hcompute, _⟩ := hfolds.of_sameContent hsame
      obtain ⟨source', hsource', _⟩ := hcontent.nodes.exists_new hsource
      have hother : edge.node ≠ ⟨count⟩ := fun heq => Nat.lt_irrefl count (by rwa [heq] at hless)
      obtain ⟨_, hfound, hkept | ⟨_, _, ⟨permute, _, hpermute, hfoldable, _⟩, _⟩⟩ :=
        hturn.others hg hlt hother hsource'
      · obtain rfl := Option.some.inj (hsource.symm.trans hfound)
        rw [hsource, hsource', Option.map_some, Option.map_some, hkept]
      · obtain rfl := Option.some.inj (hsource.symm.trans hpermute)
        rw [(of_isFoldable hfoldable).1] at hcompute
        cases hcompute
    have hfolds' := hfolds.of_sameContent hsame.symm
    refine ⟨?_, edge, hfolds', by rw [hedge]; exact Nat.lt_succ_self count, hpromises⟩
    have hlater : count ≤ id.index := by
      obtain ⟨permute, _, hpermute, _, hdeps, _⟩ := hfolds'
      have hless := hstart.earlier hpermute (show edge ∈ permute.deps by simp [hdeps])
      rw [hedge] at hless
      exact Nat.le_of_lt hless
    cases hmark : node.eliminable with
    | true =>
      obtain ⟨hbefore, _⟩ := h.marked hnode hmark
      exact hfolded.folded hbefore.selected hbefore.inputTypes
    | false =>
      obtain ⟨hprefers, hselected⟩ := h.ahead hnode hlater hmark
      exact hfolded.folded hselected (by rw [hprefers])
  · have hne : id ≠ ⟨count⟩ := by
      rintro rfl
      exact absurd hle (Nat.not_succ_le_self count)
    obtain ⟨node, hnode, hbare | ⟨⟨_, _, _, _, hbare⟩, _⟩⟩ := hturn.others hg hlt hne hnode'
    · rw [Node.prefers_of_bare hbare, Node.selected_of_bare hbare]
      exact h.ahead hnode (Nat.le_of_succ_le hle) (Node.eliminable_of_bare hbare ▸ hplain)
    · have hmark : node'.eliminable = true := (Node.eliminable_of_bare hbare).trans rfl
      simp [hmark] at hplain

/-- After the sweep, the marked nodes are folded permutes. -/
theorem folded_of_sweep (hg : g.Fresh) :
    Yields (g.order.foldlM (visit? catalog) { graph := g }) fun s =>
      Graph.SameContent g s.graph ∧
      ∀ {id node}, s.graph.node? id = some node → node.eliminable = true →
        node.Folded ∧ ∃ edge, g.Folds id edge ∧ s.graph.Promises id edge := by
  refine (run?_induct hg.toOrdered (Folding g) ?_ ?_ ?_).mono ?_
  · refine ⟨fun hnode hmarked => ?_, fun hnode _ _ => ?_⟩
    · simp [(hg.undecided hnode).eliminable] at hmarked
    · exact ⟨(hg.undecided hnode).prefers, (hg.undecided hnode).selected⟩
  · exact fun _ _ _ h _ _ => h.mono
  · intro count g₁ g₂ g₃ node hlt hwf hsame h hnode _ hsettle hturn hstop
    have hthere : count < g₁.size := hsame.nodes.size_eq ▸ hlt
    have h₂ := h.settle hwf hthere hsettle
    cases hmark : node.eliminable with
    | true => exact hstop hmark ▸ h₂.mono
    | false =>
      obtain ⟨hedit, _⟩ := (Graph.settle?_spec hwf hnode).post_of_eq hsettle
      refine h₂.turn hg.toOrdered (hsame.trans hedit.content) (hedit.wellFormed hwf)
        (hedit.content.nodes.size_eq ▸ hthere) ?_ hturn
      intro node₂ hnode₂
      have hmove : Move {} ⟨count⟩ g₁ g₂ := .settle hsettle
      rw [hmove.eliminable_self hwf hnode hnode₂, hmark]
  · rintro s ⟨hsame, h⟩
    refine ⟨hsame, fun hnode hmarked => ?_⟩
    obtain ⟨hfolded, edge, hfolds, _, hpromises⟩ := h.marked hnode hmarked
    exact ⟨hfolded, edge, hfolds, hpromises⟩

/-- Propagation pins nothing. -/
theorem pinned_of_sweep (hg : g.Ordered) :
    Yields (g.order.foldlM (visit? catalog) { graph := g }) fun s =>
      Graph.SameContent g s.graph ∧
      ∀ {id old node}, g.node? id = some old → s.graph.node? id = some node →
        node.pinned = old.pinned := by
  refine run?_related hg (fun old node => node.pinned = old.pinned) (fun _ => rfl) ?_
  intro g₁ id old node node' _ hchange hpinned
  rw [← hpinned]
  cases hchange with
  | same h => exact Node.pinned_of_bare h
  | settled _ _ h | selected _ h | recorded _ _ _ _ _ h | forced _ _ h | folded _ _ _ _ h =>
    exact (Node.pinned_of_bare h).trans rfl

end Propagation

end LayoutPlanner
