import LayoutPlanner.Planning.Propagation
import LayoutPlanner.Proofs.BuiltGraphs
import Mathlib.Logic.Relation

/-!
# The forward sweep

Format propagation edits single nodes only, so it keeps the content of the graph.  What it does to
a node is one of four things (`Propagation.Move`), and a property that these keep holds after the
sweep (`Propagation.run?_inv`).
-/

namespace LayoutPlanner

namespace Propagation

/-- A view that a capability may be asked about: the one of the graph, with or without padding. -/
def Sees (g : Graph) (id : NodeId) (seen : NodeView) : Prop :=
  ∃ view, g.view? id = some view ∧ (seen = view ∨ seen = { view with unpadded := true })

/-- What is seen is the node with its inputs. -/
theorem Sees.shows {g : Graph} {id : NodeId} {seen : NodeView} (h : Sees g id seen) {node : Node}
    (hnode : g.node? id = some node) : seen.node = node ∧ g.inputs? id = some seen.inputs := by
  obtain ⟨view, hview, hseen⟩ := h
  obtain ⟨_, inputs, hfound, hinputs, rfl⟩ := Graph.view?_eq_some_iff.1 hview
  obtain rfl := Option.some.inj (hnode.symm.trans hfound)
  rcases hseen with rfl | rfl <;> exact ⟨rfl, hinputs⟩

/-- A capability of the catalog admits the node. -/
structure Candidate (catalog : Catalog) (g : Graph) (id : NodeId) (candidate : Capability)
    (seen : NodeView) : Prop where
  sees : Sees g id seen
  listed : candidate ∈ catalog.entries seen.op
  accepts : candidate.accepts seen = true

/-- One of the things that the visit of a node does to the graph. -/
inductive Move (catalog : Catalog) (id : NodeId) (g : Graph) : Graph → Prop
  | settle {g' : Graph} (h : g.settle? id = some g') : Move catalog id g g'
  | select {candidate : Capability} {seen : NodeView} {g' : Graph}
      (hcandidate : Candidate catalog g id candidate seen)
      (h : g.update? id (fun node => { node with selected := some candidate.kind }) = some g') :
      Move catalog id g g'
  | record {candidate : Capability} {seen : NodeView} {preference : FormatPreference}
      {s s' : State} (hcandidate : Candidate catalog g id candidate seen)
      (hpreference : candidate.preference seen = some preference)
      (h : g.update? id (fun node => { node with selected := some candidate.kind }) = some s.graph)
      (hrecord : record? s id preference = some s') : Move catalog id g s'.graph
  | fold {node permute : Node} {user : NodeId} {output target : Layout} {g' : Graph}
      (hnode : g.node? id = some node) (hcompute : node.op.isCompute = true)
      (hselected : node.selected = some .vendor) (husers : node.users = [user])
      (hpermute : g.node? user = some permute) (hfoldable : isFoldable permute = true)
      (houtput : node.outputs[0]? = some output) (htarget : permute.outputs[0]? = some target)
      (hfits : output.format.fits target.rank = true)
      (h : fold? g id user output.format = some g') : Move catalog id g g'

abbrev Moves (catalog : Catalog) (id : NodeId) : Graph → Graph → Prop :=
  Relation.ReflTransGen (Move catalog id)

/-! ## What the moves do -/

theorem select_spec {g : Graph} {id : NodeId} {node : Node} (hnode : g.node? id = some node)
    (kind : BackendKind) :
    Yields (g.update? id fun node => { node with selected := some kind }) fun g' =>
      Graph.LocalEdit id g g' ∧ g'.node? id = some { node with selected := some kind } := by
  refine (Graph.update?_spec hnode).mono ?_
  rintro g' ⟨horder, hnew, hothers⟩
  exact ⟨Graph.localEdit_of_update hnode horder hnew hothers rfl, hnew⟩

/-- Recording a preference: the outputs are settled anew. -/
theorem record?_spec {s : State} (hg : s.graph.WellFormed) {id : NodeId} {node : Node}
    (hnode : s.graph.node? id = some node) (preference : FormatPreference) :
    Yields (record? s id preference) fun s' => Graph.LocalEdit id s.graph s'.graph ∧
      ∃ inherited node', (node.deps = [] → inherited = []) ∧ s'.graph.node? id = some node' ∧
        node'.bare = ({ node with
            prefers := node.prefers.overlay preference
            layoutValid := false }.afterSettling inherited).bare := by
  obtain ⟨g₁, hg₁, horder, hnew, hothers⟩ : Yields (s.graph.update? id fun node =>
      { node with prefers := node.prefers.overlay preference }) _ := Graph.update?_spec hnode
  have hedit₁ := Graph.localEdit_of_update hnode horder hnew hothers rfl
  have hwf₁ := hedit₁.wellFormed hg
  obtain ⟨g₂, hg₂, hedit₂, _, node₂, hnode₂, hbare₂, hstale⟩ := Graph.invalidate?_spec hwf₁ hnew
  obtain ⟨g₃, hg₃, hedit₃, inherited, node₃, hinherited, hnode₃, hbare₃⟩ :=
    Graph.settle?_spec (hedit₂.wellFormed hwf₁) hnode₂
  refine Yields.bind_eq hg₁ (Yields.bind_eq hg₂ (Yields.bind_eq hg₃ (Yields.pure ?_)))
  refine ⟨(hedit₁.trans hedit₂).trans hedit₃, inherited, node₃, fun hdeps => ?_, hnode₃, ?_⟩
  · refine Graph.eq_nil_of_inheritedFormats hnode₂ hinherited ?_
    rw [Node.deps_of_bare hbare₂]
    exact hdeps
  rw [hbare₃]
  refine Node.afterSettling_congr ?_ ?_ inherited
  · exact hbare₂
  · exact hstale

/-- A folded pair: both nodes are forced into the format, and the permute can go. -/
theorem fold?_spec {g : Graph} (hg : g.WellFormed) {id user : NodeId} {node permute : Node}
    (hne : user ≠ id) (hnode : g.node? id = some node) (hpermute : g.node? user = some permute)
    {output target : Layout} (houtput : node.outputs[0]? = some output)
    (htarget : permute.outputs[0]? = some target) (format : Format) :
    Yields (fold? g id user format) fun g' =>
      (∃ g₁, Graph.LocalEdit id g g₁ ∧ Graph.LocalEdit user g₁ g') ∧
      (∃ node', g'.node? id = some node' ∧ node'.bare = { node with
        outputs := node.outputs.set 0 (output.withFormat format)
        prefers := node.prefers.setOutput 0 format }.bare) ∧
      ∃ permute', g'.node? user = some permute' ∧ permute'.bare = { permute with
        outputs := permute.outputs.set 0 (target.withFormat format)
        prefers := (permute.prefers.setInput 0 format).setOutput 0 format
        eliminable := true }.bare := by
  refine Yields.bind (Graph.forceOutput?_spec hg hnode houtput format) ?_
  rintro g₁ ⟨hedit₁, node₁, hnode₁, hbare₁⟩
  have hwf₁ := hedit₁.wellFormed hg
  obtain ⟨permute₁, hpermute₁, hpermute_bare⟩ :
      ∃ permute₁, g₁.node? user = some permute₁ ∧ permute₁.bare = permute.bare := by
    exact exists_of_map_eq (hedit₁.others user hne) hpermute
  refine Yields.bind (Graph.update?_spec hpermute₁) ?_
  rintro g₂ ⟨horder₂, hnew₂, hothers₂⟩
  have hedit₂ := Graph.localEdit_of_update hpermute₁ horder₂ hnew₂ hothers₂ rfl
  have hwf₂ := hedit₂.wellFormed hwf₁
  have htarget₂ : permute₁.outputs[0]? = some target := by
    rw [Node.outputs_of_bare hpermute_bare, htarget]
  refine Yields.bind (Graph.forceOutput?_spec hwf₂ hnew₂ htarget₂ format) ?_
  rintro g₃ ⟨hedit₃, permute₃, hpermute₃, hbare₃⟩
  refine (Graph.update?_spec hpermute₃).mono ?_
  rintro g₄ ⟨horder₄, hnew₄, hothers₄⟩
  have hedit₄ := Graph.localEdit_of_update hpermute₃ horder₄ hnew₄ hothers₄ rfl
  have hedit := (hedit₂.trans hedit₃).trans hedit₄
  refine ⟨⟨g₁, hedit₁, hedit⟩, ?_, _, hnew₄, ?_⟩
  · obtain ⟨node', hnode', hbare'⟩ := exists_of_map_eq (hedit.others id hne.symm) hnode₁
    exact ⟨node', hnode', hbare'.trans hbare₁⟩
  · have heq₃ := congrArg (fun old : Node => { old with eliminable := true }) hbare₃
    have heq₁ := congrArg (fun old : Node => { old with
      outputs := old.outputs.set 0 (target.withFormat format)
      prefers := (old.prefers.setInput 0 format).setOutput 0 format
      eliminable := true }) hpermute_bare
    exact Eq.trans heq₃ heq₁

theorem isConstant_of_isCompute {node : Node} (h : node.op.isCompute = true) :
    node.isConstant = false := by
  rw [Node.isConstant, beq_eq_false_iff_ne]
  intro hop
  rw [hop] at h
  exact Bool.noConfusion h

theorem of_isFoldable {node : Node} (h : isFoldable node = true) :
    node.op = .permute ∧ node.users = [] ∧ node.deps.length = 1 := by
  unfold isFoldable at h
  split at h
  · simp only [Bool.and_eq_true, List.isEmpty_iff, beq_iff_eq] at h
    exact ⟨h.1.1.1, h.1.1.2, h.1.2⟩
  · exact Bool.noConfusion h

theorem attrs_of_isFoldable {node : Node} (h : isFoldable node = true) :
    ∃ order, node.attrs = .permute order := by
  unfold isFoldable at h
  split at h
  next order hattrs => exact ⟨order, hattrs⟩
  next => exact Bool.noConfusion h

/-- A permute that can be folded away is not the node it is folded into. -/
theorem ne_of_isFoldable {g : Graph} {id user : NodeId} {node permute : Node}
    (hnode : g.node? id = some node) (husers : node.users = [user])
    (hpermute : g.node? user = some permute) (hfoldable : isFoldable permute = true) :
    user ≠ id := by
  rintro rfl
  obtain rfl := Option.some.inj (hnode.symm.trans hpermute)
  simp [(of_isFoldable hfoldable).2.1] at husers

/-- The only input of a permute that can be folded away is the node it is folded into. -/
theorem source_of_isFoldable {g : Graph} (hg : g.WellFormed) {id user : NodeId}
    {node permute : Node} (hnode : g.node? id = some node) (husers : node.users = [user])
    (hpermute : g.node? user = some permute) (hfoldable : isFoldable permute = true) {edge : Edge}
    (hedge : edge ∈ permute.deps) : edge.node = id := by
  have hreads : g.Reads user id := (hg.users_iff user hnode).1 (by rw [husers]; exact .head [])
  obtain ⟨dep, hdep, hsource⟩ := (Graph.reads_iff_of_node? hpermute).1 hreads
  obtain ⟨only, honly⟩ := List.length_eq_one_iff.1 (of_isFoldable hfoldable).2.2
  rw [honly, List.mem_singleton] at hedge hdep
  rw [hedge, ← hdep, hsource]

section

variable {catalog : Catalog} {id : NodeId} {g g' : Graph}

/-- What a move can make of a node, up to bookkeeping. -/
inductive Change (catalog : Catalog) (g : Graph) (id : NodeId) (node node' : Node) : Prop
  | same (h : node'.bare = node.bare)
  | settled (inherited : List Format) (hinherited : node.deps = [] → inherited = [])
      (h : node'.bare = (node.afterSettling inherited).bare)
  | selected (kind : BackendKind) (h : node'.bare = { node with selected := some kind }.bare)
  | recorded {candidate : Capability} {seen : NodeView} {preference : FormatPreference}
      (hnode : g.node? id = some node) (hcandidate : Candidate catalog g id candidate seen)
      (hpreference : candidate.preference seen = some preference) (inherited : List Format)
      (hinherited : node.deps = [] → inherited = [])
      (h : node'.bare = ({ node with
        selected := some candidate.kind
        prefers := node.prefers.overlay preference
        layoutValid := false }.afterSettling inherited).bare)
  | forced {output : Layout} (houtput : node.outputs[0]? = some output)
      (hchosen : output.format.isChosen = true)
      (h : node'.bare = { node with prefers := node.prefers.setOutput 0 output.format }.bare)
  | folded {target : Layout} {format : Format} (hfoldable : isFoldable node = true)
      (hsource : ∀ edge ∈ node.deps, ∃ source, g.node? edge.node = some source ∧
        source.isConstant = false)
      (htarget : node.outputs[0]? = some target) (hfits : format.fits target.rank = true)
      (h : node'.bare = { node with
        outputs := node.outputs.set 0 (target.withFormat format)
        prefers := (node.prefers.setInput 0 format).setOutput 0 format
        eliminable := true }.bare)

/-- A local edit changes no other node. -/
theorem Change.of_localEdit {node' : Node} (hedit : Graph.LocalEdit id g g')
    (hself : ∀ {node}, g.node? id = some node → g'.node? id = some node' →
      Change catalog g id node node') {other : NodeId} (hnode' : g'.node? other = some node') :
    ∃ node, g.node? other = some node ∧ Change catalog g id node node' := by
  obtain ⟨node, hnode, _⟩ := hedit.content.nodes.exists_old hnode'
  refine ⟨node, hnode, ?_⟩
  by_cases hne : other = id
  · subst hne
    exact hself hnode hnode'
  · have heq := hedit.others other hne
    rw [hnode, hnode'] at heq
    exact .same (Option.some.inj heq)

/-- Every node after a move comes from one before it. -/
theorem Move.change (hg : g.WellFormed) (hlt : id.index < g.size) (h : Move catalog id g g')
    {other : NodeId} {node' : Node} (hnode' : g'.node? other = some node') :
    ∃ node, g.node? other = some node ∧ Change catalog g id node node' := by
  obtain ⟨node, hnode⟩ := Graph.exists_node hlt
  cases h with
  | settle h =>
    obtain ⟨hedit, inherited, new, hinherited, hnew, hbare⟩ :=
      (Graph.settle?_spec hg hnode).post_of_eq h
    refine Change.of_localEdit hedit (fun hold hself => ?_) hnode'
    obtain rfl := Option.some.inj (hnode.symm.trans hold)
    obtain rfl := Option.some.inj (hnew.symm.trans hself)
    exact .settled inherited (Graph.eq_nil_of_inheritedFormats hnode hinherited) hbare
  | select _ h =>
    obtain ⟨hedit, hnew⟩ := (select_spec hnode _).post_of_eq h
    refine Change.of_localEdit hedit (fun hold hself => ?_) hnode'
    obtain rfl := Option.some.inj (hnode.symm.trans hold)
    obtain rfl := Option.some.inj (hnew.symm.trans hself)
    exact .selected _ rfl
  | record hcandidate hpreference h hrecord =>
    obtain ⟨hedit, hnew⟩ := (select_spec hnode _).post_of_eq h
    obtain ⟨hedit', inherited, new, hinherited, hnew', hbare⟩ :=
      (record?_spec (hedit.wellFormed hg) hnew _).post_of_eq hrecord
    refine Change.of_localEdit (hedit.trans hedit') (fun hold hself => ?_) hnode'
    obtain rfl := Option.some.inj (hnode.symm.trans hold)
    obtain rfl := Option.some.inj (hnew'.symm.trans hself)
    exact .recorded hnode hcandidate hpreference inherited hinherited hbare
  | @fold node permute user output target _ hnode hcompute _ husers hpermute hfoldable houtput
      htarget hfits h =>
    have hne := ne_of_isFoldable hnode husers hpermute hfoldable
    obtain ⟨⟨g₁, hedit₁, hedit₂⟩, ⟨new, hnew, hbare⟩, permute', hpermute', hpermute_bare⟩ :=
      (fold?_spec hg hne hnode hpermute houtput htarget _).post_of_eq h
    by_cases huser : other = user
    · subst huser
      obtain rfl := Option.some.inj (hpermute'.symm.trans hnode')
      refine ⟨permute, hpermute, .folded hfoldable (fun edge hedge => ⟨node, ?_, ?_⟩) htarget hfits
        hpermute_bare⟩
      · rw [source_of_isFoldable hg hnode husers hpermute hfoldable hedge, hnode]
      · exact isConstant_of_isCompute hcompute
    by_cases hself : other = id
    · subst hself
      obtain rfl := Option.some.inj (hnew.symm.trans hnode')
      refine ⟨node, hnode, .forced houtput ?_ (hbare.trans ?_)⟩
      · exact Format.isChosen_of_fits hfits
      · obtain ⟨hpos, rfl⟩ := List.getElem?_eq_some_iff.1 houtput
        have hset : node.outputs.set 0 (node.outputs[0].withFormat node.outputs[0].format) =
            node.outputs := List.set_getElem_self hpos
        rw [hset]
    · obtain ⟨old, hold, hsame⟩ :=
        exists_of_map_eq ((hedit₂.others other huser).trans (hedit₁.others other hself)).symm hnode'
      exact ⟨old, hold, .same hsame.symm⟩

theorem Move.content (hg : g.WellFormed) (hlt : id.index < g.size) (h : Move catalog id g g') :
    Graph.SameContent g g' := by
  obtain ⟨node, hnode⟩ := Graph.exists_node hlt
  cases h with
  | settle h => exact ((Graph.settle?_spec hg hnode).post_of_eq h).1.content
  | select _ h => exact ((select_spec hnode _).post_of_eq h).1.content
  | record _ _ h hrecord =>
    obtain ⟨hedit, hnew⟩ := (select_spec hnode _).post_of_eq h
    obtain ⟨hedit', _⟩ := (record?_spec (hedit.wellFormed hg) hnew _).post_of_eq hrecord
    exact hedit.content.trans hedit'.content
  | fold hnode _ _ husers hpermute hfoldable houtput htarget _ h =>
    have hne := ne_of_isFoldable hnode husers hpermute hfoldable
    obtain ⟨⟨g₁, hedit₁, hedit₂⟩, _⟩ :=
      (fold?_spec hg hne hnode hpermute houtput htarget _).post_of_eq h
    exact hedit₁.content.trans hedit₂.content

theorem isFoldable_congr {a b : Node} (h : b.content = a.content) :
    isFoldable b = isFoldable a := by
  obtain ⟨_, hdeps, husers⟩ := Node.content_eq_iff.1 h
  simp only [isFoldable, Node.attrs_of_content h, Node.op_of_content h, hdeps, husers]

/-- Only the visited node and a permute that is folded away can become valid. -/
theorem Move.valid (hg : g.WellFormed) (hlt : id.index < g.size) (h : Move catalog id g g')
    {other : NodeId} {node' : Node} (hne : other ≠ id) (hnode' : g'.node? other = some node')
    (hvalid : node'.layoutValid = true) :
    (isFoldable node' = true ∧ node'.eliminable = true ∧
        ∃ output, node'.outputs[0]? = some output ∧ output.format.isChosen = true) ∨
      ∃ node, g.node? other = some node ∧ node.layoutValid = true := by
  obtain ⟨node, hnode⟩ := Graph.exists_node hlt
  cases h with
  | settle h =>
    obtain ⟨hedit, _⟩ := (Graph.settle?_spec hg hnode).post_of_eq h
    exact Or.inr (hedit.stale other node' hne hnode' hvalid)
  | select _ h =>
    obtain ⟨hedit, _⟩ := (select_spec hnode _).post_of_eq h
    exact Or.inr (hedit.stale other node' hne hnode' hvalid)
  | record _ _ h hrecord =>
    obtain ⟨hedit, hnew⟩ := (select_spec hnode _).post_of_eq h
    obtain ⟨hedit', _⟩ := (record?_spec (hedit.wellFormed hg) hnew _).post_of_eq hrecord
    exact Or.inr ((hedit.trans hedit').stale other node' hne hnode' hvalid)
  | @fold node permute user output target _ hnode _ _ husers hpermute hfoldable houtput htarget
      hfits h =>
    have huser_ne := ne_of_isFoldable hnode husers hpermute hfoldable
    obtain ⟨⟨g₁, hedit₁, hedit₂⟩, _, permute', hpermute', hbare⟩ :=
      (fold?_spec hg huser_ne hnode hpermute houtput htarget _).post_of_eq h
    by_cases huser : other = user
    · subst huser
      obtain rfl := Option.some.inj (hnode'.symm.trans hpermute')
      obtain ⟨_, hfound, hcontent⟩ :=
        (hedit₁.content.trans hedit₂.content).nodes.exists_new hpermute
      obtain rfl := Option.some.inj (hnode'.symm.trans hfound)
      refine Or.inl ⟨isFoldable_congr hcontent ▸ hfoldable, Node.eliminable_of_bare hbare,
        target.withFormat output.format, ?_, Format.isChosen_of_fits hfits⟩
      rw [Node.outputs_of_bare hbare]
      exact List.getElem?_set_self (List.getElem?_eq_some_iff.1 htarget).1
    · obtain ⟨node₁, hnode₁, hvalid₁⟩ := hedit₂.stale other node' huser hnode' hvalid
      exact Or.inr (hedit₁.stale other node₁ hne hnode₁ hvalid₁)

theorem Moves.content (hg : g.WellFormed) (hlt : id.index < g.size) (h : Moves catalog id g g') :
    Graph.SameContent g g' := by
  induction h with
  | refl => exact .refl g
  | tail _ hmove ih =>
    exact ih.trans (hmove.content (hg.of_sameWiring ih.wiring) (ih.nodes.size_eq ▸ hlt))

/-- A property that every move keeps is kept by all of them. -/
theorem Moves.inv (hg : g.WellFormed) (hlt : id.index < g.size) (inv : Graph → Prop)
    (hmove : ∀ {g g'}, g.WellFormed → id.index < g.size → inv g → Move catalog id g g' → inv g')
    (h : Moves catalog id g g') (hinv : inv g) : inv g' := by
  induction h with
  | refl => exact hinv
  | tail hmoves hlast ih =>
    have hsame := Moves.content hg hlt hmoves
    exact hmove (hg.of_sameWiring hsame.wiring) (hsame.nodes.size_eq ▸ hlt) ih hlast

/-- The moves of a visit.  Only the last one may touch another node. -/
def Turn (catalog : Catalog) (id : NodeId) (g g' : Graph) : Prop :=
  ∃ g₁, Moves catalog id g g₁ ∧ Graph.LocalEdit id g g₁ ∧ (g' = g₁ ∨ Move catalog id g₁ g')

theorem Turn.refl : Turn catalog id g g :=
  ⟨g, .refl, .refl id g, .inl rfl⟩

theorem Turn.moves (h : Turn catalog id g g') : Moves catalog id g g' := by
  obtain ⟨g₁, hmoves, _, rfl | hlast⟩ := h
  · exact hmoves
  · exact hmoves.tail hlast

end

/-! ## Visits and the sweep -/

theorem foldPermute?_spec {catalog : Catalog} {s : State} (hg : s.graph.WellFormed) {id : NodeId}
    {node : Node} (hnode : s.graph.node? id = some node) (hcompute : node.op.isCompute = true)
    (hselected : node.selected = some .vendor) :
    Yields (foldPermute? s id) fun s' =>
      s'.graph = s.graph ∨ Move catalog id s.graph s'.graph := by
  refine Yields.bind_eq hnode ?_
  split
  next user husers =>
    have hlt : user.index < s.graph.size := hg.lt_size_of_mem_users hnode (by simp [husers])
    obtain ⟨permute, hpermute⟩ := Graph.exists_node hlt
    obtain ⟨output, houtput⟩ := hg.exists_output hnode
    obtain ⟨target, htarget⟩ := hg.exists_output hpermute
    refine Yields.bind_eq hpermute ?_
    split
    next hfoldable =>
      refine Yields.bind_eq houtput (Yields.bind_eq htarget ?_)
      split
      next hfits =>
        have hne := ne_of_isFoldable hnode husers hpermute hfoldable
        obtain ⟨g', hg', _⟩ := fold?_spec hg hne hnode hpermute houtput htarget output.format
        refine Yields.bind_eq hg' (Yields.pure (.inr ?_))
        exact .fold hnode hcompute hselected husers hpermute hfoldable houtput htarget hfits hg'
      next => exact Yields.pure (.inl rfl)
    next => exact Yields.pure (.inl rfl)
  next => exact Yields.pure (.inl rfl)

theorem adopt?_spec {catalog : Catalog} {s : State} (hg : s.graph.WellFormed) {id : NodeId}
    {node : Node} (hnode : s.graph.node? id = some node) {candidate : Capability} {seen : NodeView}
    (hcandidate : Candidate catalog s.graph id candidate seen) :
    Yields (adopt? s id candidate seen) fun s' => Turn catalog id s.graph s'.graph := by
  have hop : seen.op = node.op := congrArg Node.op (hcandidate.sees.shows hnode).1
  obtain ⟨g₁, hg₁, hedit₁, hnode₁⟩ := select_spec hnode candidate.kind
  have hwf₁ := hedit₁.wellFormed hg
  refine Yields.bind_eq hg₁ ?_
  have hrest : ∀ s₁ : State, Moves catalog id s.graph s₁.graph →
      Graph.LocalEdit id s.graph s₁.graph →
      (∃ node₁, s₁.graph.node? id = some node₁ ∧ node₁.op = node.op ∧
        node₁.selected = some candidate.kind) →
      Yields (if candidate.kind = .vendor ∧ seen.op.isCompute then foldPermute? s₁ id
        else pure s₁) fun s' => Turn catalog id s.graph s'.graph := by
    rintro s₁ hmoves hedit ⟨node₁, hnode₁, hop₁, hselected⟩
    split
    next hfolds =>
      refine (foldPermute?_spec (hedit.wellFormed hg) hnode₁ ?_ ?_).mono
        fun s' hlast => ⟨_, hmoves, hedit, hlast⟩
      · rw [hop₁, ← hop, hfolds.2]
      · rw [hselected, hfolds.1]
    next => exact Yields.pure ⟨_, hmoves, hedit, .inl rfl⟩
  dsimp only
  split
  next preference hpreference =>
    obtain ⟨s₁, hs₁, hedit₂, inherited, node₂, _, hnode₂, hbare⟩ :=
      record?_spec (s := { s with graph := g₁ }) hwf₁ hnode₁ preference
    refine Yields.bind_eq hs₁ (hrest s₁ ?_ (hedit₁.trans hedit₂) ⟨node₂, hnode₂, ?_, ?_⟩)
    · exact .single (.record hcandidate hpreference hg₁ hs₁)
    · simp only [Node.bare, Node.afterSettling, Node.mk.injEq] at hbare
      exact hbare.2.2.1
    · simp only [Node.bare, Node.afterSettling, Node.mk.injEq] at hbare
      exact hbare.2.2.2.2.2.2.2.2.2.2.1
  next =>
    refine Yields.bind_eq rfl (hrest _ (.single (.select hcandidate hg₁)) hedit₁ ?_)
    exact ⟨_, hnode₁, rfl, rfl⟩

/-- The candidate comes from the catalog and admits the view it is reported with. -/
theorem candidate_of_candidateUnpadded {catalog : Catalog} {g : Graph} {id : NodeId}
    {plain : NodeView} {mask : KindMask} {candidate : Capability} {seen : NodeView}
    (hplain : g.view? id = some plain)
    (h : catalog.candidateUnpadded? plain { plain with unpadded := true } mask =
      some (candidate, seen)) : Candidate catalog g id candidate seen := by
  obtain ⟨c, hmem, hc⟩ := List.exists_of_findSome?_eq_some h
  have hlisted : c ∈ catalog.entries plain.op := (List.mem_filter.1 hmem).1
  dsimp only at hc
  generalize hshown : (if c.kind = .vendor then { plain with unpadded := true } else plain) =
    shown at hc
  have hcases : shown = plain ∨ shown = { plain with unpadded := true } := by
    split at hshown
    · exact Or.inr hshown.symm
    · exact Or.inl hshown.symm
  split at hc
  next hadmits =>
    obtain ⟨rfl, rfl⟩ := Prod.mk.inj (Option.some.inj hc)
    rw [Capability.admits_eq, Bool.and_eq_true] at hadmits
    refine ⟨⟨plain, hplain, hcases⟩, ?_, hadmits.2⟩
    rcases hcases with rfl | rfl <;> exact hlisted
  next => cases hc

/-- A visit leaves a constant alone; any other node it settles first.  For a node that is folded
away already, this is all that it does. -/
theorem visit?_spec {catalog : Catalog} {s : State} (hg : s.graph.WellFormed) {id : NodeId}
    {node : Node} (hnode : s.graph.node? id = some node) :
    Yields (visit? catalog s id) fun s' =>
      node.isConstant = true ∧ s' = s ∨ node.isConstant = false ∧
        ∃ g₁, s.graph.settle? id = some g₁ ∧ Turn catalog id g₁ s'.graph ∧
          (node.eliminable = true → s'.graph = g₁) := by
  refine Yields.bind_eq hnode ?_
  have hflow : node.op.isDataFlow = !node.isConstant := rfl
  rw [hflow, Bool.not_not]
  split
  next hconstant => exact Yields.pure (Or.inl ⟨hconstant, rfl⟩)
  next hdata =>
    obtain ⟨g₁, hg₁, hedit, _, node₁, _, hnode₁, hbare⟩ := Graph.settle?_spec hg hnode
    have hmarked : node₁.eliminable = node.eliminable := (Node.eliminable_of_bare hbare).trans rfl
    have hwf₁ := hedit.wellFormed hg
    obtain ⟨inputs, _, hview⟩ := hwf₁.exists_view hnode₁
    have hunpadded : g₁.unpaddedView? id =
        some { graph := g₁, node := node₁, inputs, unpadded := true } := by
      simp [Graph.unpaddedView?, hview]
    have hdone : ∀ s' : State, Turn catalog id g₁ s'.graph →
        (node.eliminable = true → s'.graph = g₁) → node.isConstant = true ∧ s' = s ∨
        node.isConstant = false ∧ ∃ g₁, s.graph.settle? id = some g₁ ∧
          Turn catalog id g₁ s'.graph ∧ (node.eliminable = true → s'.graph = g₁) :=
      fun s' hturn hstop => Or.inr ⟨by simpa using hdata, g₁, hg₁, hturn, hstop⟩
    refine Yields.bind_eq hg₁ (Yields.bind_eq hnode₁ ?_)
    split
    next => exact Yields.pure (hdone _ .refl fun _ => rfl)
    next hkept =>
      rw [hmarked] at hkept
      refine Yields.bind_eq hview (Yields.bind_eq hunpadded ?_)
      split
      next => exact Yields.pure (hdone _ .refl fun _ => rfl)
      next candidate seen hcandidate =>
        have hfound := candidate_of_candidateUnpadded hview hcandidate
        refine (adopt?_spec (s := { s with graph := g₁ }) hwf₁ hnode₁ hfound).mono ?_
        exact fun s' hturn => hdone s' hturn fun hfolded => absurd hfolded hkept

/-- Induction over the sweep.  The motive is indexed by the number of nodes that had their turn. -/
theorem run?_induct {catalog : Catalog} {g : Graph} (hg : g.Ordered) (motive : Nat → Graph → Prop)
    (hbegin : motive 0 g)
    (hskip : ∀ {count g₁ node}, count < g.size → g₁.WellFormed → Graph.SameContent g g₁ →
      motive count g₁ → g₁.node? ⟨count⟩ = some node → node.isConstant = true →
      motive (count + 1) g₁)
    (hvisit : ∀ {count g₁ g₂ g₃ node}, count < g.size → g₁.WellFormed → Graph.SameContent g g₁ →
      motive count g₁ → g₁.node? ⟨count⟩ = some node → node.isConstant = false →
      g₁.settle? ⟨count⟩ = some g₂ → Turn catalog ⟨count⟩ g₂ g₃ →
      (node.eliminable = true → g₃ = g₂) → motive (count + 1) g₃) :
    Yields (g.order.foldlM (visit? catalog) { graph := g }) fun s =>
      Graph.SameContent g s.graph ∧ motive g.size s.graph := by
  rw [hg.order_eq, List.foldlM_map]
  refine Yields.foldlM_range (fun count (s : State) =>
    Graph.SameContent g s.graph ∧ motive count s.graph) ⟨.refl g, hbegin⟩ ?_
  rintro count s hlt ⟨hsame, hmotive⟩
  have hwf := hg.wellFormed.of_sameWiring hsame.wiring
  have hthere : NodeId.index ⟨count⟩ < s.graph.size := hsame.nodes.size_eq ▸ hlt
  obtain ⟨node, hnode⟩ := Graph.exists_node hthere
  refine (visit?_spec hwf hnode).mono ?_
  rintro s' (⟨hconstant, rfl⟩ | ⟨hdata, g₁, hg₁, hturn, hstop⟩)
  · exact ⟨hsame, hskip hlt hwf hsame hmotive hnode hconstant⟩
  · exact ⟨hsame.trans (Moves.content hwf hthere (.head (.settle hg₁) hturn.moves)),
      hvisit hlt hwf hsame hmotive hnode hdata hg₁ hturn hstop⟩

/-- A property of graphs that every move keeps holds after the sweep. -/
theorem run?_inv {catalog : Catalog} {g : Graph} (hg : g.Ordered) (inv : Graph → Prop)
    (hbegin : inv g)
    (hmove : ∀ {id g₁ g₂}, g₁.WellFormed → id.index < g₁.size → inv g₁ → Move catalog id g₁ g₂ →
      inv g₂) :
    Yields (g.order.foldlM (visit? catalog) { graph := g }) fun s =>
      Graph.SameContent g s.graph ∧ inv s.graph := by
  refine run?_induct hg (fun _ => inv) hbegin (fun _ _ _ hinv _ _ => hinv) ?_
  intro count g₁ g₂ g₃ node hlt hwf hsame hinv _ _ hsettle hturn _
  exact Moves.inv hwf (hsame.nodes.size_eq ▸ hlt) inv hmove (.head (.settle hsettle) hturn.moves)
    hinv

/-- A property of nodes that no change breaks holds of all of them after the sweep. -/
theorem run?_forall {catalog : Catalog} {g : Graph} (hg : g.Ordered) (good : Node → Prop)
    (hbegin : ∀ {id node}, g.node? id = some node → good node)
    (hchange : ∀ {g₁ id node node'}, Change catalog g₁ id node node' → good node → good node') :
    Yields (g.order.foldlM (visit? catalog) { graph := g }) fun s =>
      Graph.SameContent g s.graph ∧ ∀ {id node}, s.graph.node? id = some node → good node := by
  refine run?_inv hg (fun g₁ => ∀ {id node}, g₁.node? id = some node → good node) hbegin ?_
  intro id g₁ g₂ hwf hlt hgood hmove other node' hnode'
  obtain ⟨node, hnode, hchanged⟩ := hmove.change hwf hlt hnode'
  exact hchange hchanged (hgood hnode)

/-- What changes make of a node, told in relation to the node that it was before the sweep. -/
theorem run?_related {catalog : Catalog} {g : Graph} (hg : g.Ordered) (rel : Node → Node → Prop)
    (hrefl : ∀ node, rel node node)
    (hchange : ∀ {g₁ id old node node'}, node.content = old.content →
      Change catalog g₁ id node node' → rel old node → rel old node') :
    Yields (g.order.foldlM (visit? catalog) { graph := g }) fun s =>
      Graph.SameContent g s.graph ∧
      ∀ {id old node}, g.node? id = some old → s.graph.node? id = some node → rel old node := by
  refine (run?_inv hg (fun g₁ => Graph.SameContent g g₁ ∧ ∀ {id old node},
    g.node? id = some old → g₁.node? id = some node → rel old node) ⟨.refl g, ?_⟩ ?_).mono
    fun s h => h.2
  · intro id old node hold hnode
    obtain rfl := Option.some.inj (hold.symm.trans hnode)
    exact hrefl old
  · rintro id g₁ g₂ hwf hlt ⟨hsame, hrel⟩ hmove
    refine ⟨hsame.trans (hmove.content hwf hlt), fun {other old node'} hold hnode' => ?_⟩
    obtain ⟨node, hnode, hchanged⟩ := hmove.change hwf hlt hnode'
    obtain ⟨_, hfound, hcontent⟩ := hsame.nodes.exists_new hold
    obtain rfl := Option.some.inj (hnode.symm.trans hfound)
    exact hchange hcontent hchanged (hrel hold hnode)

end Propagation

end LayoutPlanner
