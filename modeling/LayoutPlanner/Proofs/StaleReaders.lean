import LayoutPlanner.Proofs.Ensures
import LayoutPlanner.Proofs.LegalLayouts

/-!
# Who is marked stale

An edit of one node may mark other nodes stale.  `Marks` tells exactly which.

* Settling a node marks nobody if the outputs stay what they are.
* A format that is tried out marks the readers of the node, and taking the format back does not
  unmark them.  So a search in vain changes nothing but who is stale (`search?_marks`).
-/

namespace LayoutPlanner

namespace Graph

/-- Of the nodes other than `id`, those in `stale` have been marked, and no others. -/
def Marks (id : NodeId) (stale : List NodeId) (g g' : Graph) : Prop :=
  ∀ other node', other ≠ id → g'.node? other = some node' → ∃ node, g.node? other = some node ∧
    (node'.layoutValid = true ↔ node.layoutValid = true ∧ other ∉ stale)

variable {g g' g'' : Graph} {id : NodeId} {node : Node} {first second : List NodeId}

protected theorem Marks.refl (id : NodeId) (g : Graph) : Marks id [] g g :=
  fun _ _ _ hnode' => ⟨_, hnode', by simp⟩

protected theorem Marks.trans (h : Marks id first g g') (h' : Marks id second g' g'') :
    Marks id (first ++ second) g g'' := by
  intro other node'' hne hnode''
  obtain ⟨node', hnode', hiff'⟩ := h' other node'' hne hnode''
  obtain ⟨node, hnode, hiff⟩ := h other node' hne hnode'
  refine ⟨node, hnode, ?_⟩
  rw [hiff', hiff, List.mem_append, not_or, and_assoc]

theorem Marks.congr (h : Marks id first g g') (hiff : ∀ other, other ∈ first ↔ other ∈ second) :
    Marks id second g g' := by
  intro other node' hne hnode'
  obtain ⟨node, hnode, hvalid⟩ := h other node' hne hnode'
  exact ⟨node, hnode, by rw [hvalid, hiff]⟩

theorem update?_marks (change : Node → Node) : Ensures (g.update? id change) (Marks id [] g) := by
  intro g' h other node' hne hnode'
  rw [node?_update h, Option.map_eq_some_iff] at hnode'
  obtain ⟨node, hnode, rfl⟩ := hnode'
  exact ⟨node, hnode, by simp [hne]⟩

theorem refresh?_marks : Ensures (g.refresh? id) (Marks id [] g) :=
  Ensures.bind_all fun _ _ => update?_marks _

theorem markStale?_marks (id : NodeId) (ids : List NodeId) :
    Ensures (g.markStale? ids) (Marks id ids g) := by
  induction ids generalizing g with
  | nil => exact Ensures.pure (.refl id g)
  | cons reader rest ih =>
    have hfirst : Ensures (g.update? reader Node.stale) (Marks id [reader] g) := by
      intro g₁ h other node' _ hnode'
      rw [node?_update h, Option.map_eq_some_iff] at hnode'
      obtain ⟨node, hnode, rfl⟩ := hnode'
      refine ⟨node, hnode, ?_⟩
      by_cases heq : other = reader <;> simp [heq, Node.stale]
    exact Ensures.bind hfirst fun g₁ h₁ => ih.mono fun g₂ h₂ => h₁.trans h₂

/-! ## Settling -/

/-- Settling marks nobody as long as the outputs are settled. -/
theorem settle?_marks (hnode : g.node? id = some node)
    (hsettled : node.layoutValid = false → ∀ inherited, g.inheritedFormats? id = some inherited →
      node.settledOutputs inherited = node.outputs) :
    Ensures (g.settle? id) (Marks id [] g) := by
  have hresolve : Ensures (g.resolve? id) fun out => Marks id [] g out.1 := by
    refine Ensures.bind_all fun _ hfound => ?_
    obtain rfl := Option.some.inj (hnode.symm.trans hfound)
    split
    next => exact Ensures.pure (.refl id g)
    next hstale =>
      refine Ensures.bind_all fun inherited hinherited => ?_
      rw [hsettled (by simpa using hstale) inherited hinherited]
      refine Ensures.bind (update?_marks _) fun g₁ h₁ => ?_
      refine Ensures.bind refresh?_marks fun g₂ h₂ => ?_
      simp only [bne_self_eq_false, Bool.false_eq_true, if_false]
      exact Ensures.pure (h₁.trans h₂)
  exact Ensures.bind hresolve fun _ hout => Ensures.pure hout

/-! ## Trying a format out -/

theorem forceOutput?_marks (hnode : g.node? id = some node) (index : Nat) (format : Format) :
    Ensures (g.forceOutput? id index format) (Marks id node.users g) := by
  refine Ensures.bind_all fun _ hfound => Ensures.bind_all fun layout _ => ?_
  obtain rfl := Option.some.inj (hnode.symm.trans hfound)
  refine Ensures.bind (update?_marks _) fun g₁ h₁ => ?_
  refine Ensures.bind (markStale?_marks id _) fun g₂ h₂ => refresh?_marks.mono fun g₃ h₃ => ?_
  exact ((h₁.trans h₂).trans h₃).congr fun other => by simp

/-- There is an output to force, so the readers are marked. -/
theorem forceOutputs?_marks (hg : g.WellFormed) (hnode : g.node? id = some node)
    (format : Format) : Yields (g.forceOutputs? id format) (Marks id node.users g) := by
  refine Yields.bind_eq hnode ?_
  refine (Yields.foldlM_range (fun done (g' : Graph) => LocalEdit id g g' ∧
    Marks id (if done = 0 then [] else node.users) g g') ⟨.refl id g, .refl id g⟩ ?_).mono ?_
  · rintro index g₁ hlt ⟨hedit₁, hmarks₁⟩
    obtain ⟨node₁, hnode₁, hcontent⟩ := hedit₁.content.nodes.exists_new hnode
    obtain ⟨hmeaning, _, husers⟩ := Node.content_eq_iff.1 hcontent
    have hlt₁ : index < node₁.outputs.length := Node.length_outputs_of_meaning hmeaning ▸ hlt
    have hlayout := List.getElem?_eq_getElem hlt₁
    refine Yields.bind_eq hnode₁ (Yields.bind_eq hlayout ?_)
    obtain ⟨g₂, hg₂, hedit₂, _⟩ := forceOutput?_spec (hedit₁.wellFormed hg) hnode₁ hlayout
      (format.adaptTo node₁.outputs[index].rank)
    have hmarks₂ := forceOutput?_marks hnode₁ index _ g₂ hg₂
    refine .of_eq hg₂ ⟨hedit₁.trans hedit₂, (hmarks₁.trans hmarks₂).congr fun other => ?_⟩
    by_cases hzero : index = 0 <;> simp [hzero, husers]
  · rintro g' ⟨_, hmarks⟩
    have hsome : node.outputs.length ≠ 0 := fun h =>
      hg.outputs_ne hnode (List.length_eq_zero_iff.1 h)
    rwa [if_neg hsome] at hmarks

theorem preferOnInputs?_marks (format : Format) :
    Ensures (g.preferOnInputs? id format) (Marks id [] g) := by
  refine Ensures.bind_all fun slots _ => ?_
  refine Ensures.foldlM (Marks id [] g) (.refl id g) fun slot g₁ h₁ => ?_
  refine Ensures.bind_all fun input _ => ?_
  split
  next => exact (update?_marks _).mono fun g₂ h₂ => h₁.trans h₂
  next => exact Ensures.pure h₁

theorem adoptFormat?_marks (hg : g.WellFormed) (hnode : g.node? id = some node)
    (format : Format) : Ensures (g.adoptFormat? id format) (Marks id node.users g) := by
  refine Ensures.bind (fun _ => (forceOutputs?_marks hg hnode format).post_of_eq) fun g₁ h₁ => ?_
  refine Ensures.bind (preferOnInputs?_marks format) fun g₂ h₂ => ?_
  refine refresh?_marks.mono fun g₃ h₃ => ?_
  exact ((h₁.trans h₂).trans h₃).congr fun other => by simp

theorem putBack?_marks (saved : FormatSnapshot) :
    Ensures (saved.putBack? g id) (Marks id [] g) := by
  refine Ensures.bind_all fun node _ => ?_
  split
  next =>
    exact Ensures.bind (update?_marks _) fun _ h₁ => refresh?_marks.mono fun _ h₂ => h₁.trans h₂
  next => exact nofun

end Graph

namespace Reconciliation

/-- A search in vain marks the readers of the node, if it tries anything at all. -/
theorem search?_marks {catalog : Catalog} {id : NodeId} {mask : KindMask} {saved : FormatSnapshot}
    (formats : List Format) {s : Reconciliation} (hg : s.graph.WellFormed) {node : Node}
    (hnode : s.graph.node? id = some node) (hsaved : saved = .ofNode node) :
    Ensures (s.search? catalog id saved mask formats) fun out => out.2 = false →
      Graph.Marks id (if formats = [] then [] else node.users) s.graph out.1.graph := by
  induction formats generalizing s node with
  | nil => exact Ensures.pure fun _ => .refl id _
  | cons format rest ih =>
    unfold search?
    refine Ensures.bind_all fun g₁ hg₁ => Ensures.bind_all fun view _ => ?_
    split
    next => exact Ensures.pure fun h => Bool.noConfusion h
    next =>
      refine Ensures.bind_all fun g₂ hg₂ => ?_
      subst hsaved
      have hadopts := (Graph.adoptFormat?_spec hg hnode format).post_of_eq hg₁
      have hrestored := (Graph.putBack?_spec hg hnode hadopts).post_of_eq hg₂
      have hmarks := (Graph.adoptFormat?_marks hg hnode format g₁ hg₁).trans
        (Graph.putBack?_marks _ g₂ hg₂)
      obtain ⟨node₂, hnode₂, hbare⟩ := hrestored.bare.exists_new hnode
      have husers : node₂.users = node.users := by
        obtain ⟨_, hfound, hcontent⟩ := hrestored.edit.content.nodes.exists_new hnode
        obtain rfl := Option.some.inj (hnode₂.symm.trans hfound)
        exact (Node.content_eq_iff.1 hcontent).2.2
      refine (ih (s := s.withGraph g₂) (hrestored.edit.wellFormed hg) hnode₂
        (FormatSnapshot.ofNode_of_bare hbare)).mono ?_
      intro out hout hvain
      refine (hmarks.trans (hout hvain)).congr fun other => ?_
      by_cases hrest : rest = [] <;> simp [hrest, husers]

end Reconciliation

end LayoutPlanner
