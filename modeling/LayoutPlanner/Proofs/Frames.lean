import LayoutPlanner.Planning.LegalLayout
import LayoutPlanner.Proofs.Ensures
import LayoutPlanner.Proofs.WellFormed

/-!
# What edits leave alone

Each edit of a graph changes a few fields of a few nodes.  `Same proj g g'` says that a projection
of the nodes is not among them.  Here this is proved edit by edit, for many projections at once and
on graphs that need not be well formed.

Refreshing the cached shape class of a node is the one edit whose effect depends on the graph.  So a
projection comes with the graphs on which it survives a refresh (`Frame`).

The search for a legal layout is made of a few such edits.  A property of the state that each of
them keeps is kept by the search, whichever way it goes (`SearchInvariant`).
-/

namespace LayoutPlanner

/-- What settling a node and forcing its formats leave alone, apart from refreshing its class. -/
def Node.lasting (node : Node) :
    List Edge × List Shape × ShapeClass × Option BackendKind × Option Handle :=
  (node.deps, node.outputs.map Layout.shape, node.shapeClass, node.selected, node.implementation)

/-- Outputs of the same shapes change nothing that lasts. -/
theorem Node.lasting_of_shapes {node : Node} {outputs : List Layout}
    (h : outputs.map Layout.shape = node.outputs.map Layout.shape) (prefers : FormatPreference)
    (layoutValid : Bool) : { node with outputs, prefers, layoutValid }.lasting = node.lasting := by
  simp only [lasting, h]

theorem Node.shapes_settledOutputs (node : Node) (inherited : List Format) :
    (node.settledOutputs inherited).map Layout.shape = node.outputs.map Layout.shape := by
  apply List.ext_getElem?
  intro index
  simp only [settledOutputs, List.getElem?_map, List.getElem?_mapIdx, Option.map_map]
  rfl

/-- An output that is replaced by one of the same shape. -/
theorem Layout.shapes_set {layouts : List Layout} {index : Nat} {old new : Layout}
    (hold : layouts[index]? = some old) (hshape : new.shape = old.shape) :
    (layouts.set index new).map Layout.shape = layouts.map Layout.shape := by
  rw [List.map_set, hshape]
  obtain ⟨hlt, rfl⟩ := List.getElem?_eq_some_iff.1 hold
  rw [← List.getElem_map Layout.shape, List.set_getElem_self]
  simpa using hlt

namespace Graph

section

variable {α : Type} {proj : Node → α} {g : Graph} {id : NodeId}

/-- Two edits in a row. -/
theorem Same.bind {run : Option Graph} {next : Graph → Option Graph}
    (hrun : Ensures run (Same proj g)) (hnext : ∀ g', Ensures (next g') (Same proj g')) :
    Ensures (run >>= next) (Same proj g) :=
  Ensures.bind hrun fun g' h => (hnext g').mono fun _ h' => h.trans h'

theorem update?_same_at {change : Node → Node}
    (h : ∀ node, g.node? id = some node → proj (change node) = proj node) :
    Ensures (g.update? id change) (Same proj g) := by
  intro g' hg' other
  rw [node?_update hg' other, Option.map_map]
  refine Option.map_congr fun node hnode => ?_
  rw [Function.comp_apply]
  split
  next heq => exact h node (heq ▸ hnode)
  next => rfl

theorem update?_same {change : Node → Node} (h : ∀ node, proj (change node) = proj node) :
    Ensures (g.update? id change) (Same proj g) :=
  update?_same_at fun node _ => h node

/-- Moving an edge changes an edge, two lists of readers and a mark. -/
theorem reroute?_same (hdeps : ∀ node deps, proj { node with deps } = proj node)
    (husers : ∀ node users, proj { node with users } = proj node)
    (hstale : ∀ node, proj node.stale = proj node) (slot : Nat) (edge : Edge) :
    Ensures (g.reroute? id slot edge) (Same proj g) := by
  have hadd : ∀ node, proj (node.addReader id) = proj node := by
    intro node
    unfold Node.addReader
    split
    next => rfl
    next => exact husers node _
  refine Ensures.bind_all fun previous _ => ?_
  refine Same.bind (update?_same fun node => hdeps node _) fun g₁ => ?_
  refine Ensures.bind_all fun node _ => ?_
  have hdropped : Ensures (if node.deps.any (·.node == previous.node) then some g₁
      else g₁.update? previous.node (Node.dropReader id)) (Same proj g₁) := by
    split
    next => exact Ensures.pure (.refl g₁)
    next => exact update?_same fun node => husers node _
  refine Ensures.ite_bind hdropped fun g₂ h₂ => Ensures.mono ?_ fun _ h => h₂.trans h
  exact Same.bind (update?_same hadd) fun g₃ => update?_same hstale

end

/-! ## Edits of one node -/

/-- A projection of what lasts.  On `good` graphs a refresh keeps it, and graphs that agree in it
are good together. -/
structure Frame {α : Type} (proj : Node → α) (good : Graph → Prop) : Prop where
  factors : ∀ {a b : Node}, a.lasting = b.lasting → proj a = proj b
  keep : ∀ {g g'}, good g → Same proj g g' → good g'
  refresh? : ∀ {g} id, good g → Ensures (g.refresh? id) (Same proj g)

namespace Frame

variable {α : Type} {proj : Node → α} {good : Graph → Prop} (hframe : Frame proj good) {g : Graph}
  {id : NodeId}

include hframe

theorem bind {run : Option Graph} {next : Graph → Option Graph} (hg : good g)
    (hrun : Ensures run (Same proj g))
    (hnext : ∀ g', good g' → Ensures (next g') (Same proj g')) :
    Ensures (run >>= next) (Same proj g) :=
  Ensures.bind hrun fun g' h => (hnext g' (hframe.keep hg h)).mono fun _ h' => h.trans h'

theorem foldlM {β : Type} {f : Graph → β → Option Graph} (items : List β) (hg : good g)
    (hstep : ∀ g' item, good g' → Ensures (f g' item) (Same proj g')) :
    Ensures (items.foldlM f g) (Same proj g) :=
  Ensures.foldlM (Same proj g) (.refl g) fun item g' h =>
    (hstep g' item (hframe.keep hg h)).mono fun _ h' => h.trans h'

/-- An edit of fields that do not last. -/
theorem update? {change : Node → Node} (h : ∀ node, (change node).lasting = node.lasting) :
    Ensures (g.update? id change) (Same proj g) :=
  update?_same fun node => hframe.factors (h node)

theorem markStale? (hg : good g) (ids : List NodeId) :
    Ensures (g.markStale? ids) (Same proj g) :=
  hframe.foldlM ids hg fun _ _ _ => hframe.update? fun _ => rfl

theorem invalidate? (hg : good g) : Ensures (g.invalidate? id) (Same proj g) :=
  Ensures.bind_all fun node _ =>
    hframe.bind hg (hframe.update? fun _ => rfl) fun _ hg₁ => hframe.markStale? hg₁ node.users

theorem resolve? (hg : good g) : Ensures (g.resolve? id) fun out => Same proj g out.1 := by
  refine Ensures.bind_all fun node hnode => ?_
  split
  next => exact Ensures.pure (.refl g)
  next =>
    refine Ensures.bind_all fun inherited _ => ?_
    have hupdate : Ensures (g.update? id fun old =>
        { old with outputs := node.settledOutputs inherited, layoutValid := true })
        (Same proj g) := by
      refine update?_same_at fun old hold => hframe.factors ?_
      obtain rfl := Option.some.inj (hnode.symm.trans hold)
      exact Node.lasting_of_shapes (node.shapes_settledOutputs inherited) node.prefers true
    refine Ensures.bind hupdate fun g₁ h₁ => ?_
    have hg₁ := hframe.keep hg h₁
    refine Ensures.bind (hframe.refresh? id hg₁) fun g₂ h₂ => ?_
    have hmarked : Ensures (if node.settledOutputs inherited != node.outputs then
        g₂.markStale? node.users else some g₂) (Same proj g₂) := by
      split
      next => exact hframe.markStale? (hframe.keep hg₁ h₂) node.users
      next => exact Ensures.pure (.refl g₂)
    exact Ensures.ite_bind hmarked fun g₃ h₃ => Ensures.pure ((h₁.trans h₂).trans h₃)

theorem settle? (hg : good g) : Ensures (g.settle? id) (Same proj g) :=
  Ensures.bind (hframe.resolve? hg) fun _ h => Ensures.pure h

/-- Settling a node unless it is a constant. -/
theorem settleData? (hg : good g) :
    Ensures (do if (← g.node? id).isConstant then return g else g.settle? id) (Same proj g) := by
  refine Ensures.bind_all fun node _ => ?_
  split
  next => exact Ensures.pure (.refl g)
  next => exact hframe.settle? hg

theorem forceOutput? (hg : good g) (index : Nat) (format : Format) :
    Ensures (g.forceOutput? id index format) (Same proj g) := by
  refine Ensures.bind_all fun node hnode => Ensures.bind_all fun layout hlayout => ?_
  refine hframe.bind hg (update?_same_at fun old hold => hframe.factors ?_) fun g₁ hg₁ => ?_
  · obtain rfl := Option.some.inj (hnode.symm.trans hold)
    have hshape : (layout.withFormat format).shape = layout.shape := rfl
    exact Node.lasting_of_shapes (Layout.shapes_set hlayout hshape) _ true
  · exact hframe.bind hg₁ (hframe.markStale? hg₁ node.users) fun g₂ hg₂ => hframe.refresh? id hg₂

theorem adoptFormat? (hg : good g) (format : Format) :
    Ensures (g.adoptFormat? id format) (Same proj g) := by
  have hforced : Ensures (g.forceOutputs? id format) (Same proj g) :=
    Ensures.bind_all fun node _ => hframe.foldlM _ hg fun g₁ index hg₁ =>
      Ensures.bind_all fun _ _ => Ensures.bind_all fun layout _ => hframe.forceOutput? hg₁ index _
  have hpreferred : ∀ g₁ : Graph, good g₁ →
      Ensures (g₁.preferOnInputs? id format) (Same proj g₁) := by
    intro g₁ hg₁
    refine Ensures.bind_all fun slots _ => hframe.foldlM slots hg₁ fun g₂ slot hg₂ => ?_
    refine Ensures.bind_all fun input _ => ?_
    split
    next => exact hframe.update? fun _ => rfl
    next => exact Ensures.pure (.refl g₂)
  exact hframe.bind hg hforced fun g₁ hg₁ =>
    hframe.bind hg₁ (hpreferred g₁ hg₁) fun _ hg₂ => hframe.refresh? id hg₂

/-- Formats can be put back into a node with as many outputs as they were taken from. -/
theorem putBack? (hg : good g) {saved : FormatSnapshot}
    (hsaved : ∀ node, g.node? id = some node → proj (saved.apply node) = proj node) :
    Ensures (saved.putBack? g id) (Same proj g) := by
  refine Ensures.bind_all fun node _ => ?_
  split
  next => exact hframe.bind hg (update?_same_at hsaved) fun _ hg₁ => hframe.refresh? id hg₁
  next => exact nofun

/-- A reorder can get a target that its projection does not tell from the old one. -/
theorem setTarget? (hg : good g) {target : Layout}
    (htarget : ∀ node, g.node? id = some node →
      proj { node with outputs := node.outputs.set 0 target } = proj node) :
    Ensures (g.setTarget? id target) (Same proj g) := by
  refine Ensures.bind_all fun node _ => Ensures.bind_all fun _ _ => ?_
  refine hframe.bind hg (update?_same_at htarget) fun g₁ hg₁ => ?_
  exact hframe.bind hg₁ (hframe.refresh? id hg₁) fun g₂ hg₂ => hframe.markStale? hg₂ node.users

end Frame

end Graph

/-! ## The search for a legal layout -/

namespace Reconciliation

/-- Every step of a search for a legal layout keeps `inv`: a format is adopted, or tried in vain and
the saved formats put back, the node is handed over, or the run fails. -/
structure SearchInvariant (id : NodeId) (saved : FormatSnapshot) (inv : Reconciliation → Prop) :
    Prop where
  adopt : ∀ {s format g}, inv s → s.graph.adoptFormat? id format = some g →
    inv (s.withGraph g).changed
  restore : ∀ {s format g g'}, inv s → s.graph.adoptFormat? id format = some g →
    saved.putBack? g id = some g' → inv (s.withGraph g')
  handOver : ∀ {s}, inv s → Ensures (s.handOver? id) inv
  fail : ∀ {s} error, inv s → inv (s.fail error)

namespace SearchInvariant

variable {cx : Context} {id : NodeId} {saved : FormatSnapshot} {inv : Reconciliation → Prop}
  {s : Reconciliation}

theorem search? (h : SearchInvariant id saved inv) (catalog : Catalog) (mask : KindMask)
    (formats : List Format) (hs : inv s) :
    Ensures (s.search? catalog id saved mask formats) fun out => inv out.1 := by
  induction formats generalizing s with
  | nil => exact Ensures.pure hs
  | cons format rest ih =>
    unfold Reconciliation.search?
    refine Ensures.bind_all fun g hg => Ensures.bind_all fun view _ => ?_
    split
    next => exact Ensures.pure (h.adopt hs hg)
    next => exact Ensures.bind_all fun g' hg' => ih (h.restore hs hg hg')

theorem fallBack? (h : SearchInvariant id saved inv) (catalog : Catalog) (mask : KindMask)
    (rank : Nat) (tried : List Format) (hs : inv s) :
    Ensures (s.fallBack? catalog id saved mask rank tried) inv := by
  refine Ensures.bind (h.search? catalog mask _ hs) ?_
  rintro ⟨s₁, found⟩ hs₁
  dsimp only
  split
  next => exact Ensures.pure hs₁
  next => exact Ensures.bind_all fun error _ => Ensures.pure (h.fail error hs₁)

/-- What every step keeps, the whole search keeps. -/
theorem legalize? (h : ∀ node, s.graph.node? id = some node → SearchInvariant id (.ofNode node) inv)
    (hs : inv s) : Ensures (s.legalize? cx id) inv := by
  refine Ensures.bind_all fun view hview => ?_
  obtain ⟨node, _, hnode, _, rfl⟩ := Graph.view?_eq_some_iff.1 hview
  replace h := h node hnode
  dsimp only
  split
  next => exact Ensures.pure hs
  refine Ensures.bind_all fun output _ => Ensures.bind (h.search? cx.catalog _ _ hs) ?_
  rintro ⟨s₁, found⟩ hs₁
  dsimp only
  split
  next => exact Ensures.pure hs₁
  split
  next => exact Ensures.pure hs₁
  split
  next =>
    refine Ensures.bind (h.handOver hs₁) fun s₂ hs₂ => Ensures.bind_all fun view₂ _ => ?_
    split
    next => exact Ensures.pure hs₂
    next => exact h.fallBack? cx.catalog _ _ _ hs₂
  next => exact h.fallBack? cx.catalog _ _ _ hs₁

end SearchInvariant

end Reconciliation

end LayoutPlanner
