import LayoutPlanner.Proofs.Pipelines

/-!
# Consultations

Planning asks the backends about complete views only: views of a node that is in the graph, has an
output, and reads something on each of its slots.  So whatever a backend looks up by slot while it
answers is there.

The answers that backends give are functions of the view, so this is said in terms of two catalogs.
If they agree on complete views (`Catalog.Agrees`), then no stage of the standard pipeline can tell
them apart.  The graphs of all states of a run are well formed, and their views are complete
(`Graph.WellFormed.complete`).
-/

namespace LayoutPlanner

/-- Everything that the view gives access to is there: the node under its own id, an output, and
what feeds each slot. -/
structure NodeView.Complete (view : NodeView) : Prop where
  node : view.graph.node? view.id = some view.node
  outputs_ne : view.outputs ≠ []
  inputs : view.graph.inputs? view.id = some view.inputs

theorem Graph.WellFormed.complete {g : Graph} (hg : g.WellFormed) {id : NodeId} {view : NodeView}
    (h : g.view? id = some view) : view.Complete := by
  obtain ⟨node, inputs, hnode, hinputs, rfl⟩ := Graph.view?_eq_some_iff.1 h
  obtain rfl := hg.id_eq hnode
  exact ⟨hnode, hg.outputs_ne hnode, hinputs⟩

/-- Whether padding is shown does not matter. -/
theorem NodeView.Complete.unpadded {view : NodeView} (h : view.Complete) (unpadded : Bool) :
    NodeView.Complete { view with unpadded } :=
  ⟨h.node, h.outputs_ne, h.inputs⟩

/-! ## Catalogs that agree -/

/-- The two capabilities give the same answers about complete views. -/
structure Capability.Agrees (c c' : Capability) : Prop where
  name_eq : c'.name = c.name
  kind_eq : c'.kind = c.kind
  shapes_eq : c'.shapes = c.shapes
  accepts_eq : ∀ {view : NodeView}, view.Complete → c'.accepts view = c.accepts view
  preference_eq : ∀ {view : NodeView}, view.Complete → c'.preference view = c.preference view
  build_eq : ∀ {view : NodeView}, view.Complete → c'.build view = c.build view

theorem Capability.Agrees.admits_eq {c c' : Capability} (h : c.Agrees c') {view : NodeView}
    (hview : view.Complete) (shape : ShapeClass) : c'.admits view shape = c.admits view shape := by
  rw [Capability.admits_eq, Capability.admits_eq, h.accepts_eq hview, Capability.supports,
    Capability.supports, h.shapes_eq]

/-- The two catalogs register capabilities that agree, in the same order. -/
def Catalog.Agrees (catalog catalog' : Catalog) : Prop :=
  List.Forall₂ (fun entry entry' => entry'.1 = entry.1 ∧ entry.2.Agrees entry'.2)
    catalog.registrations catalog'.registrations

section InStep

variable {α β γ δ : Type} {rel : α → β → Prop} {items : List α} {items' : List β}

theorem any_of_inStep (h : List.Forall₂ rel items items') {test : α → Bool} {test' : β → Bool}
    (htest : ∀ {a b}, rel a b → test' b = test a) : items'.any test' = items.any test := by
  induction h with
  | nil => rfl
  | cons hhead _ ih => rw [List.any_cons, List.any_cons, htest hhead, ih]

theorem findSome?_of_inStep (h : List.Forall₂ rel items items') {found : γ → δ → Prop}
    {f : α → Option γ} {f' : β → Option δ}
    (hf : ∀ {a b}, rel a b → Option.Rel found (f a) (f' b)) :
    Option.Rel found (items.findSome? f) (items'.findSome? f') := by
  induction h with
  | nil => exact .none
  | @cons a b _ _ hhead _ ih =>
    have hrel := hf hhead
    rw [List.findSome?_cons, List.findSome?_cons]
    generalize f a = x, f' b = y at hrel
    cases hrel with
    | some hfound => exact .some hfound
    | none => exact ih

end InStep

namespace Catalog.Agrees

variable {catalog catalog' : Catalog} {view : NodeView} {mask : KindMask}

theorem entries (h : catalog.Agrees catalog') (op : OpKind) :
    List.Forall₂ Capability.Agrees (catalog.entries op) (catalog'.entries op) := by
  unfold Catalog.entries
  rw [List.forall₂_map_left_iff, List.forall₂_map_right_iff]
  refine (List.rel_filter ?_ h).imp fun _ _ hentry => hentry.2
  intro entry entry' hentry
  simp [hentry.1]

theorem allowed (h : catalog.Agrees catalog') (op : OpKind) (mask : KindMask) :
    List.Forall₂ Capability.Agrees (catalog.allowed op mask) (catalog'.allowed op mask) := by
  refine List.rel_filter ?_ (h.entries op)
  intro c c' hc
  simp [hc.kind_eq]

theorem isSupported_eq (h : catalog.Agrees catalog') (hview : view.Complete) (shape : ShapeClass) :
    catalog'.isSupported view mask shape = catalog.isSupported view mask shape :=
  any_of_inStep (h.allowed view.op mask) fun hc => hc.admits_eq hview shape

theorem servesDynamic_eq (h : catalog.Agrees catalog') (op : OpKind) :
    catalog'.servesDynamic op = catalog.servesDynamic op :=
  any_of_inStep (h.entries op) fun hc => by rw [Capability.supports, hc.shapes_eq]; rfl

theorem candidate? (h : catalog.Agrees catalog') (hview : view.Complete) (mask : KindMask) :
    Option.Rel Capability.Agrees (catalog.candidate? view mask)
      (catalog'.candidate? view mask) := by
  unfold Catalog.candidate?
  rw [← List.findSome?_guard, ← List.findSome?_guard]
  refine findSome?_of_inStep (h.allowed view.op mask) fun {c c'} hc => ?_
  rw [Option.guard, Option.guard, hc.admits_eq hview]
  split
  · exact .some hc
  · exact .none

theorem choose_eq (h : catalog.Agrees catalog') (hview : view.Complete) :
    catalog'.choose view mask = catalog.choose view mask := by
  have hfound := h.candidate? hview mask
  unfold Catalog.choose
  generalize catalog.candidate? view mask = found, catalog'.candidate? view mask = found' at hfound
  cases hfound with
  | none => rfl
  | some hc =>
    dsimp only
    rw [hc.build_eq hview, hc.kind_eq, hc.name_eq]

/-- The candidates agree, and they admitted the same complete view. -/
theorem candidateUnpadded? (h : catalog.Agrees catalog') (hview : view.Complete)
    (mask : KindMask) :
    Option.Rel (fun found found' => found.1.Agrees found'.1 ∧ found'.2 = found.2 ∧
        found.2.Complete)
      (catalog.candidateUnpadded? view { view with unpadded := true } mask)
      (catalog'.candidateUnpadded? view { view with unpadded := true } mask) := by
  refine findSome?_of_inStep (h.allowed view.op mask) fun {c c'} hc => ?_
  have hseen : NodeView.Complete
      (if c.kind = .vendor then { view with unpadded := true } else view) := by
    split
    · exact hview.unpadded true
    · exact hview
  dsimp only
  rw [hc.kind_eq]
  generalize (if c.kind = .vendor then { view with unpadded := true } else view) = seen at hseen ⊢
  rw [hc.admits_eq hseen]
  split
  · exact .some ⟨hc, rfl, hseen⟩
  · exact .none

end Catalog.Agrees

/-! ## Propagation -/

namespace Propagation

variable {catalog catalog' : Catalog} {s : State} {id : NodeId}

theorem adopt?_congr {c c' : Capability} (h : c.Agrees c') {seen : NodeView}
    (hseen : seen.Complete) : adopt? s id c' seen = adopt? s id c seen := by
  unfold adopt?
  rw [h.kind_eq, h.preference_eq hseen]

theorem visit?_congr (h : catalog.Agrees catalog') (hg : s.graph.WellFormed) {node : Node}
    (hnode : s.graph.node? id = some node) : visit? catalog' s id = visit? catalog s id := by
  obtain ⟨g₁, hg₁, hedit, _, node₁, _, hnode₁, _⟩ := Graph.settle?_spec hg hnode
  obtain ⟨inputs, _, hview⟩ := (hedit.wellFormed hg).exists_view hnode₁
  have hfound := h.candidateUnpadded? ((hedit.wellFormed hg).complete hview) (.ofPin node₁.pinned)
  simp only [visit?, hnode, hg₁, hnode₁, hview, Graph.unpaddedView?, Option.bind_eq_bind,
    Option.bind_some, Option.pure_def]
  split
  · rfl
  split
  · rfl
  dsimp only at hfound ⊢
  revert hfound
  generalize catalog.candidateUnpadded? _ _ _ = found, catalog'.candidateUnpadded? _ _ _ = found'
  rintro (⟨hc, hseen, hcomplete⟩ | _)
  · dsimp only
    rw [hseen]
    exact adopt?_congr hc hcomplete
  · rfl

theorem run?_congr {cx cx' : Context} (h : cx.catalog.Agrees cx'.catalog) {g : Graph}
    (hg : g.Ordered) : run? cx' g = run? cx g := by
  have hthere : ∀ id ∈ g.order, ∀ s : State, Graph.SameContent g s.graph →
      s.graph.WellFormed ∧ ∃ node, s.graph.node? id = some node := by
    intro id hid s hsame
    exact ⟨hg.wellFormed.of_sameWiring hsame.wiring,
      Graph.exists_node (hsame.nodes.size_eq ▸ hg.listsAll.lt_size hid)⟩
  have hfold : g.order.foldlM (visit? cx'.catalog) { graph := g } =
      g.order.foldlM (visit? cx.catalog) { graph := g } := by
    refine Yields.foldlM_congr (fun s => Graph.SameContent g s.graph) (.refl g) ?_ ?_
    · intro id hid s hsame
      obtain ⟨hwf, node, hnode⟩ := hthere id hid s hsame
      refine (visit?_spec hwf hnode).mono ?_
      rintro s' (⟨_, rfl⟩ | ⟨_, g₁, hg₁, hturn, _⟩)
      · exact hsame
      · exact hsame.trans (Moves.content hwf (Graph.lt_size_of_node? hnode)
          (.head (.settle hg₁) hturn.moves))
    · intro id hid s hsame
      obtain ⟨hwf, node, hnode⟩ := hthere id hid s hsame
      exact visit?_congr h hwf hnode
  rw [run?, run?, hfold]

end Propagation

/-! ## Edge agreement -/

namespace Reconciliation

variable {cx cx' : Context} {start : Graph} {s : Reconciliation} {id : NodeId}

theorem search?_congr {catalog catalog' : Catalog} (h : catalog.Agrees catalog')
    (mask : KindMask) (formats : List Format) (hg : s.graph.WellFormed) {node : Node}
    (hnode : s.graph.node? id = some node) :
    s.search? catalog' id (.ofNode node) mask formats =
      s.search? catalog id (.ofNode node) mask formats := by
  induction formats generalizing s node with
  | nil => rfl
  | cons format rest ih =>
    unfold search?
    refine Yields.bind_congr (Graph.adoptFormat?_spec hg hnode format) fun g hadopts => ?_
    have hwf := hadopts.edit.wellFormed hg
    obtain ⟨node₁, hnode₁, _⟩ := hadopts.node hnode
    obtain ⟨_, _, hview⟩ := hwf.exists_view hnode₁
    rw [hview]
    dsimp only [Option.bind_eq_bind, Option.bind_some]
    rw [h.isSupported_eq (hwf.complete hview)]
    split
    · rfl
    refine Yields.bind_congr (Graph.putBack?_spec hg hnode hadopts) fun g₂ hrestored => ?_
    obtain ⟨node₂, hnode₂, hbare⟩ := hrestored.bare.exists_new hnode
    rw [FormatSnapshot.ofNode_of_bare hbare]
    exact ih (hrestored.edit.wellFormed hg) hnode₂

theorem fallBack?_congr {catalog catalog' : Catalog} (h : catalog.Agrees catalog')
    (mask : KindMask) (rank : Nat) (tried : List Format) (hg : s.graph.WellFormed) {node : Node}
    (hnode : s.graph.node? id = some node) :
    s.fallBack? catalog' id (.ofNode node) mask rank tried =
      s.fallBack? catalog id (.ofNode node) mask rank tried := by
  dsimp only [fallBack?]
  rw [search?_congr h mask _ hg hnode]

theorem legalize?_congr (h : cx.catalog.Agrees cx'.catalog) (hconfig : cx'.config = cx.config)
    (hg : s.graph.WellFormed) {node : Node} (hnode : s.graph.node? id = some node) :
    s.legalize? cx' id = s.legalize? cx id := by
  obtain ⟨inputs, _, hview⟩ := hg.exists_view hnode
  obtain ⟨output, houtput⟩ := hg.exists_output hnode
  unfold legalize?
  rw [hview]
  dsimp only [Option.bind_eq_bind, Option.bind_some]
  rw [houtput]
  dsimp only [Option.bind_some]
  rw [h.isSupported_eq (hg.complete hview), search?_congr h _ _ hg hnode, h.servesDynamic_eq,
    hconfig]
  split
  · rfl
  refine Yields.bind_congr (search?_spec _ hg hnode) fun out hsearched => ?_
  obtain ⟨s₁, found⟩ := out
  cases found with
  | true => rfl
  | false =>
    obtain ⟨hrestored, _, _⟩ := hsearched.missed rfl
    obtain ⟨node₁, hnode₁, hbare₁⟩ := hrestored.bare.exists_new hnode
    have hg₁ := hrestored.edit.wellFormed hg
    dsimp only
    rw [if_neg Bool.false_ne_true, if_neg Bool.false_ne_true]
    split
    · rfl
    split
    next hdemoted =>
      have hpin := (Node.pinned_of_bare hbare₁).trans hdemoted.1
      refine Yields.bind_congr (handOver?_spec hnode₁ hpin) fun s₂ hs₂ => ?_
      obtain ⟨_, _, _, _, _, _, hhanded⟩ := hs₂
      obtain ⟨_, node₂, hnode₂, hbare₂⟩ := hhanded.node hnode₁
      have hg₂ := hhanded.edit.wellFormed hg₁
      obtain ⟨_, _, hview₂⟩ := hg₂.exists_view hnode₂
      have hsaved : FormatSnapshot.ofNode node = .ofNode node₂ := by
        rw [FormatSnapshot.ofNode_of_bare hbare₁, ← FormatSnapshot.ofNode_of_bare hbare₂]
        rfl
      rw [hview₂]
      dsimp only [Option.bind_some]
      rw [h.isSupported_eq (hg₂.complete hview₂), hsaved, fallBack?_congr h _ _ _ hg₂ hnode₂]
    next =>
      rw [FormatSnapshot.ofNode_of_bare hbare₁, fallBack?_congr h _ _ _ hg₁ hnode₁]

theorem repairNode?_congr (h : cx.catalog.Agrees cx'.catalog) (hconfig : cx'.config = cx.config)
    (hstart : start.WellFormed) (hs : Sound start s) (hid : id.index < start.size) {node : Node}
    (hnode : s.graph.node? id = some node) (hdeps : node.deps ≠ []) :
    s.repairNode? cx' id = s.repairNode? cx id := by
  have hthere : ∀ {s₁}, Sound start s₁ →
      ∃ node₁, s₁.graph.node? id = some node₁ ∧ node₁.deps ≠ [] := fun hs₁ =>
    hs.exists_reader hs₁ hid hnode hdeps
  have hrest : ∀ {s₃}, Sound start s₃ →
      (do let s ← s₃.unpadNormalization? id
          let s ← s.unpadVendor? id
          let s ← s.legalize? cx' id
          if s.failure.isSome then return s else s.reconcile? id) =
      (do let s ← s₃.unpadNormalization? id
          let s ← s.unpadVendor? id
          let s ← s.legalize? cx id
          if s.failure.isSome then return s else s.reconcile? id : Option Reconciliation) := by
    intro s₃ hs₃
    obtain ⟨node₃, hnode₃, _⟩ := hthere hs₃
    refine Yields.bind_congr (unpadNormalization?_spec hstart hs₃ hid hnode₃) fun s₄ h₄ => ?_
    obtain ⟨node₄, hnode₄, _⟩ := hthere h₄.sound
    refine Yields.bind_congr (unpadVendor?_spec hstart h₄.sound hid hnode₄) fun s₅ h₅ => ?_
    obtain ⟨node₅, hnode₅, _⟩ := hthere h₅.1.sound
    rw [legalize?_congr h hconfig h₅.1.sound.wellFormed hnode₅]
  unfold repairNode?
  rw [hconfig]
  refine Yields.bind_congr (settle_advanced hs hid hnode) fun g h₁ => ?_
  obtain ⟨node₁, hnode₁, hdeps₁⟩ := hthere h₁.sound
  refine Yields.bind_congr (convertState?_spec hstart h₁.sound hid hnode₁ hdeps₁) fun s₂ h₂ => ?_
  obtain ⟨node₂, hnode₂, _⟩ := hthere h₂.sound
  dsimp only
  split
  · exact Yields.bind_congr (reorderOperands?_spec hstart h₂.sound hid hnode₂)
      fun s₃ h₃ => hrest h₃.sound
  · exact hrest h₂.sound

theorem visit?_congr (h : cx.catalog.Agrees cx'.catalog) (hconfig : cx'.config = cx.config)
    (hstart : start.WellFormed) (hs : Sound start s) (hid : id.index < start.size) {node : Node}
    (hnode : s.graph.node? id = some node) : visit? cx' s id = visit? cx s id := by
  unfold visit?
  rw [hnode]
  dsimp only [Option.bind_eq_bind, Option.bind_some]
  split
  · rfl
  next hvisit =>
    have hdeps : node.deps ≠ [] := by
      simp only [Bool.or_eq_true, not_or, List.isEmpty_iff] at hvisit
      exact hvisit.1.2
    exact repairNode?_congr h hconfig hstart hs hid hnode hdeps

theorem run?_congr (h : cx.catalog.Agrees cx'.catalog) (hconfig : cx'.config = cx.config)
    (hstart : start.Ordered) : run? cx' start = run? cx start := by
  have hthere : ∀ id ∈ start.order, ∀ s, Sound start s →
      id.index < start.size ∧ ∃ node, s.graph.node? id = some node := by
    intro id hid s hs
    have hlt := hstart.listsAll.lt_size hid
    exact ⟨hlt, Graph.exists_node (Nat.lt_of_lt_of_le hlt hs.grown)⟩
  have hfold : start.order.foldlM (visit? cx') { graph := start } =
      start.order.foldlM (visit? cx) { graph := start } := by
    refine Yields.foldlM_congr (Sound start) (sound_start hstart.wellFormed hstart.listsAll) ?_ ?_
    · intro id hid s hs
      obtain ⟨hlt, node, hnode⟩ := hthere id hid s hs
      refine (visit?_spec hstart.wellFormed hs hlt hnode).mono ?_
      rintro s' (⟨rfl, _⟩ | ⟨_, before, after, hvisited⟩)
      · exact hs
      · exact (hvisited.framed hstart.wellFormed hs hlt).sound
    · intro id hid s hs
      obtain ⟨hlt, node, hnode⟩ := hthere id hid s hs
      exact visit?_congr h hconfig hstart.wellFormed hs hlt hnode
  rw [run?, run?, hfold]

end Reconciliation

/-! ## Construction -/

namespace Construction

theorem buildTask_congr {catalog catalog' : Catalog} (h : catalog.Agrees catalog')
    {view : NodeView} (hview : view.Complete) :
    buildTask catalog' view = buildTask catalog view := by
  unfold buildTask
  rw [h.choose_eq hview]

theorem run?_congr {cx cx' : Context} (h : cx.catalog.Agrees cx'.catalog)
    (hconfig : cx'.config = cx.config) (hexecutor : cx'.executor = cx.executor) {g : Graph}
    (hg : g.WellFormed) (hlisted : g.ListsAll) : run? cx' g = run? cx g := by
  unfold run?
  refine Yields.bind_congr (settleAll?_spec hg hlisted) fun g₁ hsettles => ?_
  have hg₁ := hg.of_sameWiring hsettles.content.wiring
  refine Yields.bind_congr (pending?_spec (hsettles.content.listsAll hlisted)) fun ids hids => ?_
  refine Yields.bind_congr (views_spec hg₁ hids) fun views hviews => ?_
  have hresults : views.map (buildTask cx'.catalog) = views.map (buildTask cx.catalog) := by
    refine List.map_congr_left fun view hmem => buildTask_congr h ?_
    obtain ⟨i, hi, rfl⟩ := List.mem_iff_getElem.1 hmem
    exact hg₁.complete (hviews.get (hviews.length_eq ▸ hi) hi).1
  rw [hresults, hconfig, hexecutor]

end Construction

/-! ## Runs of the pipeline -/

namespace Pipeline

variable {cx cx' : Context} {g : Graph}

theorem runStages?_congr {stage : Stage} {rest : List Stage}
    (hstage : stage.run? cx' g = stage.run? cx g)
    (hrest : Yields (stage.run? cx g) fun out => ∀ total trace,
      runStages? cx' out.graph total trace rest = runStages? cx out.graph total trace rest)
    (total : Report) (trace : Trace) :
    runStages? cx' g total trace (stage :: rest) = runStages? cx g total trace (stage :: rest) := by
  unfold runStages?
  rw [hstage]
  refine Yields.bind_congr hrest fun out hout => ?_
  dsimp only
  split
  · rfl
  · exact hout _ _

/-- However far the standard pipeline is run on a fresh graph, catalogs that agree on complete views
lead to the same outcome. -/
theorem run?_congr (h : cx.catalog.Agrees cx'.catalog) (hconfig : cx'.config = cx.config)
    (hexecutor : cx'.executor = cx.executor) (hg : g.Fresh) {stages : List Stage}
    (hstages : stages <+: standard) : run? stages cx' g = run? stages cx g := by
  suffices hsame : ∀ total trace,
      runStages? cx' g total trace stages = runStages? cx g total trace stages by
    unfold run?
    rw [hsame]
  intro total trace
  rcases List.prefix_cons_iff.1 hstages with rfl | ⟨rest, rfl, hrest⟩
  · rfl
  refine runStages?_congr ?_ ?_ total trace
  · exact Propagation.run?_congr h hg.toOrdered
  refine (Propagation.run?_spec cx hg.toOrdered).mono ?_
  rintro swept ⟨_, s, _, hgraph, hsame⟩ total trace
  rw [hgraph]
  have hordered := hg.toOrdered.of_sameContent hsame
  rcases List.prefix_cons_iff.1 hrest with rfl | ⟨last, rfl, hlast⟩
  · rfl
  refine runStages?_congr ?_ ?_ total trace
  · exact Reconciliation.run?_congr h hconfig hordered
  refine (Reconciliation.run?_spec cx hordered).mono ?_
  rintro agreed ⟨s', _, hsound, hgraph', _⟩ total trace
  rw [hgraph']
  rcases List.prefix_cons_iff.1 hlast with rfl | ⟨none, rfl, hnone⟩
  · rfl
  obtain rfl := List.prefix_nil.1 hnone
  refine runStages?_congr ?_ ?_ total trace
  · exact Construction.run?_congr h hconfig hexecutor hsound.wellFormed hsound.listed
  exact (Construction.run?_spec cx hsound.wellFormed hsound.listed).mono fun _ _ _ _ => rfl

end Pipeline

end LayoutPlanner
