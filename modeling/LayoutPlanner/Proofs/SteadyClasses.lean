import LayoutPlanner.Builtin.Catalog
import LayoutPlanner.Proofs.Pipelines
import LayoutPlanner.Proofs.Placements
import LayoutPlanner.Proofs.ShapeClasses

/-!
# Shape classes along a run

No stage lets a shape class drift, whatever the graph, the catalog and the configuration are, and
whether or not the run ends well.

* Propagation, the search for a legal layout and construction edit single nodes, so they keep the
  outline of every node.
* A conversion moves a slot between producers of one shape (`Sound.shapeAt?_eq`), and the reorders
  it inserts keep the shape of their source (`Feeds.classified`).
* `Steady` is what every stage keeps, and what holds after each of its visits (`Stage.Passes`).
-/

namespace LayoutPlanner

open LayoutPlanner.Graph (Same KeepsClasses frame_outline)

/-! ## Propagation -/

namespace Propagation

variable {catalog : Catalog} {id : NodeId} {g g' : Graph}

theorem record?_outline {s : State} (hs : s.graph.Classified) (preference : FormatPreference) :
    Ensures (record? s id preference) fun s' => Same Node.outline s.graph s'.graph := by
  have hprefers : Ensures (s.graph.update? id fun node =>
      { node with prefers := node.prefers.overlay preference }) (Same Node.outline s.graph) :=
    Graph.update?_same fun _ => rfl
  refine Ensures.bind hprefers fun g₁ h₁ => ?_
  have hg₁ := hs.of_same h₁
  refine Ensures.bind (frame_outline.invalidate? hg₁) fun g₂ h₂ => ?_
  refine Ensures.bind (frame_outline.settle? (hg₁.of_same h₂)) fun g₃ h₃ => Ensures.pure ?_
  exact (h₁.trans h₂).trans h₃

theorem fold?_outline (hg : g.Classified) (permute : NodeId) (format : Format) :
    Ensures (fold? g id permute format) (Same Node.outline g) := by
  refine frame_outline.bind hg (frame_outline.forceOutput? hg 0 format) fun g₁ hg₁ => ?_
  refine frame_outline.bind hg₁ (Graph.update?_same fun _ => rfl) fun g₂ hg₂ => ?_
  exact frame_outline.bind hg₂ (frame_outline.forceOutput? hg₂ 0 format) fun g₃ hg₃ =>
    Graph.update?_same fun _ => rfl

theorem Move.outline (hg : g.Classified) (h : Move catalog id g g') : Same Node.outline g g' := by
  have hselect : ∀ kind : BackendKind, Ensures
      (g.update? id fun node => { node with selected := some kind }) (Same Node.outline g) :=
    fun kind => Graph.update?_same fun _ => rfl
  cases h with
  | settle h => exact frame_outline.settle? hg _ h
  | select _ h => exact hselect _ _ h
  | record _ _ h hrecord =>
    have hsame := hselect _ _ h
    exact hsame.trans (record?_outline (hg.of_same hsame) _ _ hrecord)
  | fold _ _ _ _ _ _ _ _ _ h => exact fold?_outline hg _ _ _ h

theorem visit?_outline {s : State} (hwf : s.graph.WellFormed) (hs : s.graph.Classified)
    (hid : id.index < s.graph.size) :
    Yields (visit? catalog s id) fun s' =>
      Graph.SameContent s.graph s'.graph ∧ Same Node.outline s.graph s'.graph := by
  obtain ⟨node, hnode⟩ := Graph.exists_node hid
  refine (visit?_spec hwf hnode).mono fun s' h => ?_
  obtain ⟨_, rfl⟩ | ⟨_, g₁, hsettle, hturn, _⟩ := h
  · exact ⟨.refl _, .refl _⟩
  have hmoves : Moves catalog id s.graph s'.graph := .head (.settle hsettle) hturn.moves
  refine ⟨hmoves.content hwf hid, ?_⟩
  refine (hmoves.inv hwf hid (fun k => k.Classified ∧ Same Node.outline s.graph k) ?_
    ⟨hs, .refl _⟩).2
  intro k k' _ _ hk hmove
  have hsame := hmove.outline hk.1
  exact ⟨hk.1.of_same hsame, hk.2.trans hsame⟩

end Propagation

/-! ## The search for a legal layout -/

theorem FormatSnapshot.outline_apply {saved : FormatSnapshot} {node : Node}
    (h : saved.outputs.length = node.outputs.length) :
    (saved.apply node).outline = node.outline := by
  have hshapes : (List.zipWith Layout.withFormat node.outputs saved.outputs).map Layout.shape =
      node.outputs.map Layout.shape := by
    apply List.ext_getElem
    · simp [h]
    · intro index _ _
      simp [Layout.withFormat]
  simp only [Node.outline, apply, h, List.drop_length, List.append_nil, hshapes]

namespace Reconciliation

variable {start : Graph} {cx : Context} {id : NodeId} {slot : Nat} {s s' : Reconciliation}

/-- The snapshot has a format for each output of the node. -/
def Covers (saved : FormatSnapshot) (id : NodeId) (g : Graph) : Prop :=
  ∀ node, g.node? id = some node → saved.outputs.length = node.outputs.length

theorem Covers.of_same {saved : FormatSnapshot} {g g' : Graph} (h : Covers saved id g)
    (hsame : Same Node.outline g g') : Covers saved id g' := by
  intro node' hnode'
  obtain ⟨node, hnode, heq⟩ := hsame.exists_old hnode'
  have hlength := congrArg List.length (congrArg (·.2.1) heq)
  simp only [Node.outline, List.length_map] at hlength
  rw [h node hnode, hlength]

theorem legalize?_outline (hs : s.graph.Classified) :
    Ensures (s.legalize? cx id) fun s' => Same Node.outline s.graph s'.graph := by
  refine SearchInvariant.legalize? (fun node hnode => ?_) (.refl _)
  have hsaved : Covers (.ofNode node) id s.graph := by
    intro found hfound
    obtain rfl := Option.some.inj (hnode.symm.trans hfound)
    simp [FormatSnapshot.ofNode]
  constructor
  case adopt =>
    intro s₁ format g h₁ hg
    exact h₁.trans (frame_outline.adoptFormat? (hs.of_same h₁) format g hg)
  case restore =>
    intro s₁ format g g' h₁ hg hg'
    have h₂ := h₁.trans (frame_outline.adoptFormat? (hs.of_same h₁) format g hg)
    refine h₂.trans (frame_outline.putBack? (hs.of_same h₂) (fun node hnode => ?_) g' hg')
    exact FormatSnapshot.outline_apply (hsaved.of_same h₂ node hnode)
  case handOver =>
    intro s₁ h₁
    have hpinned : Ensures (s₁.graph.update? id fun node =>
        { node with pinned := some .generic, selected := some .generic })
        (Same Node.outline s₁.graph) := Graph.update?_same fun _ => rfl
    exact Ensures.bind hpinned fun g hg => Ensures.pure (h₁.trans hg)
  case fail => exact fun _ h₁ => h₁

/-! ## Conversions -/

/-- The outputs of old nodes keep their shapes. -/
theorem Sound.shapeAt?_old (hs : Sound start s) {edge : Edge}
    (hedge : edge.node.index < start.size) : s.graph.shapeAt? edge = start.shapeAt? edge := by
  have heq := congrArg (Option.map Layout.shape) (hs.layoutAt?_eq hedge)
  rw [Option.map_map, Option.map_map] at heq
  exact heq

/-- A reorder of the run keeps the shape of its source. -/
theorem Sound.shapeAt?_source (hs : Sound start s) {reorder : NodeId} {node : Node}
    (hnode : s.graph.node? reorder = some node) (hle : start.size ≤ reorder.index) :
    ∃ edge target, node.deps = [edge] ∧ node.outputs = [target] ∧
      s.graph.shapeAt? edge = some target.shape := by
  obtain ⟨edge, layout, target, hdeps, hlayout, houtputs, hshape⟩ :=
    (hs.inserted hnode hle).converts
  obtain ⟨_, hproducer, _⟩ := Graph.layoutAt?_eq_some_iff.1 hlayout
  refine ⟨edge, target, hdeps, houtputs, ?_⟩
  rw [hs.shapeAt?_old (Graph.lt_size_of_node? hproducer), Graph.shapeAt?, hlayout, Option.map_some,
    hshape]

theorem Sound.shapeAt?_reorder (hs : Sound start s) {reorder : NodeId} {node : Node} {edge : Edge}
    (hnode : s.graph.node? reorder = some node) (hle : start.size ≤ reorder.index)
    (hdeps : node.deps = [edge]) : s.graph.shapeAt? ⟨reorder, 0⟩ = s.graph.shapeAt? edge := by
  obtain ⟨_, target, hsource, houtputs, hshape⟩ := hs.shapeAt?_source hnode hle
  obtain rfl := List.singleton_inj.1 (hdeps.symm.trans hsource)
  rw [Graph.shapeAt?_of_node hnode, houtputs, hshape]
  rfl

/-- What a slot reads now has the shape of what it read at the start. -/
theorem Sound.shapeAt?_eq (hs : Sound start s) (hid : id.index < start.size) {edge current : Edge}
    (hedge : start.dep? id slot = some edge) (hcurrent : s.graph.dep? id slot = some current) :
    s.graph.shapeAt? current = s.graph.shapeAt? edge := by
  obtain ⟨_, hold, rfl | ⟨reorder, node, rfl, hle, hnode, hdeps⟩⟩ := hs.exists_slot hid hcurrent
  · rw [Option.some.inj (hold.symm.trans hedge)]
  · obtain rfl := Option.some.inj (hedge.symm.trans hold)
    exact hs.shapeAt?_reorder hnode hle hdeps

theorem TakenOff.classified {edge : Edge} (hs : Sound start s) (hid : id.index < start.size)
    (hedge : start.dep? id slot = some edge) (h : TakenOff start id slot edge s s')
    (hclass : s.graph.Classified) : s'.graph.Classified ∧ KeepsClasses s.graph s'.graph := by
  cases h with
  | already => exact ⟨hclass, .refl _⟩
  | off hcurrent _ _ h hrewired _ houtputs =>
    exact hclass.reroute hs.wellFormed h hrewired houtputs hcurrent
      (hs.shapeAt?_eq hid hedge hcurrent).symm

/-- Conversions that keep the shape leave the classes right. -/
theorem Feeds.classified {edge : Edge} {target : Layout} (hs : Sound start s)
    (hid : id.index < start.size) (hedge : start.dep? id slot = some edge)
    (hlt : edge.node.index < start.size) (hshape : start.shapeAt? edge = some target.shape)
    (h : Feeds start id slot edge target s s') (hclass : s.graph.Classified) :
    s'.graph.Classified ∧ KeepsClasses s.graph s'.graph := by
  cases h with
  | retarget _ hle hconverter hdeps _ h =>
    have hsame := frame_outline.setTarget? hclass ?_ _ h
    · exact ⟨hclass.of_same hsame, hsame.outline_keeps⟩
    intro node hnode
    obtain rfl := Option.some.inj (hconverter.symm.trans hnode)
    obtain ⟨_, layout, hsource, houtputs, hlayout⟩ := hs.shapeAt?_source hconverter hle
    obtain rfl := List.singleton_inj.1 (hdeps.symm.trans hsource)
    rw [hs.shapeAt?_old hlt, hshape, Option.some.injEq] at hlayout
    simp [Node.outline, houtputs, hlayout]
  | @reuse s₁ reorder hs₁ hoff hcurrent hknown h hrewired _ houtputs =>
    obtain ⟨hclass₁, hkept₁⟩ := hoff.classified hs hid hedge hclass
    rw [reorderFor?, ← hoff.conversions_eq] at hknown
    obtain ⟨⟨conversion, found⟩, hfound, rfl⟩ := Option.map_eq_some_iff.1 hknown
    obtain ⟨hle, converter, hconverter, hdeps, _⟩ := hs₁.known (List.mem_of_find?_eq_some hfound)
    obtain rfl : conversion = ⟨edge, target⟩ := by simpa using List.find?_some hfound
    obtain ⟨hclass', hkept'⟩ := hclass₁.reroute hs₁.wellFormed h hrewired houtputs hcurrent
      (hs₁.shapeAt?_reorder hconverter hle hdeps)
    exact ⟨hclass', hkept₁.trans hkept'⟩
  | @create s₁ reason new hs₁ hoff hcurrent _ h =>
    obtain ⟨hclass₁, hkept₁⟩ := hoff.classified hs hid hedge hclass
    obtain ⟨node, hnode, hdep⟩ := Graph.dep?_eq_some_iff.1 hcurrent
    obtain ⟨input, hinput⟩ := hs₁.wellFormed.exists_input hnode (List.getElem?_eq_some_iff.1 hdep).1
    have hinput_shape : target.shape = input.layout.shape := by
      obtain ⟨_, hnode', hdep', _, hproducer, houtput⟩ := Graph.input?_eq_some_iff.1 hinput
      obtain rfl := Option.some.inj (hnode.symm.trans hnode')
      obtain rfl := Option.some.inj (hdep.symm.trans hdep')
      have hfound := hs₁.shapeAt?_old hlt
      rw [hshape, Graph.shapeAt?_of_node hproducer, List.getElem?_map, houtput, Option.map_some,
        Option.some.injEq] at hfound
      exact hfound.symm
    obtain ⟨hclass', hkept'⟩ := hclass₁.interpose hs₁.wellFormed hinput hinput_shape reason _ h
    exact ⟨hclass', hkept₁.trans hkept'⟩

theorem Move.classified (hstart : start.WellFormed) (hs : Sound start s)
    (hid : id.index < start.size) (h : Move id s s') (hclass : s.graph.Classified) :
    s'.graph.Classified ∧ KeepsClasses s.graph s'.graph := by
  have hframe : Same Node.outline s.graph s'.graph →
      s'.graph.Classified ∧ KeepsClasses s.graph s'.graph :=
    fun hsame => ⟨hclass.of_same hsame, hsame.outline_keeps⟩
  cases h with
  | settle h => exact hframe (frame_outline.settle? hclass _ h)
  | invalidate h => exact hframe (frame_outline.invalidate? hclass _ h)
  | convert _ hinput hdemands h =>
    obtain ⟨edge, hedge, hlt, hfeeds⟩ := (serves_of_convert? h).feeds hstart hs hid
    refine hfeeds.classified hs hid hedge hlt ?_ hclass
    obtain ⟨node, hnode, hdep, _, hproducer, houtput⟩ := Graph.input?_eq_some_iff.1 hinput
    rw [← hs.shapeAt?_old hlt,
      ← hs.shapeAt?_eq hid hedge (Graph.dep?_eq_some_iff.2 ⟨node, hnode, hdep⟩),
      Graph.shapeAt?_of_node hproducer, List.getElem?_map, houtput, Option.map_some,
      hdemands.shape_eq]

/-- What a visit keeps of the classes. -/
structure Steady (start : Graph) (s : Reconciliation) : Prop where
  sound : Sound start s
  passed : Passed start s
  classified : s.graph.Classified
  kept : KeepsClasses start s.graph

theorem Steady.visit (hstart : start.WellFormed) (hs : Steady start s)
    (hid : id.index < start.size) : Yields (visit? cx s id) (Steady start) := by
  obtain ⟨node, hnode⟩ := Graph.exists_node (Nat.lt_of_lt_of_le hid hs.sound.grown)
  refine (visit?_spec hstart hs.sound hid hnode).mono fun s' h => ?_
  obtain ⟨rfl, _⟩ | ⟨⟨_, hdeps, hreorder⟩, before, after, hvisited⟩ := h
  · exact hs
  have hframed := hvisited.framed hstart hs.sound hid
  have hmove : ∀ {s₁ s₂}, Sound start s₁ →
      s₁.graph.Classified ∧ KeepsClasses start s₁.graph → Move id s₁ s₂ →
      s₂.graph.Classified ∧ KeepsClasses start s₂.graph := by
    intro s₁ s₂ hs₁ ⟨hclass, hkept⟩ hmove
    obtain ⟨hclass', hkept'⟩ := hmove.classified hstart hs₁ hid hclass
    exact ⟨hclass', hkept.trans hkept'⟩
  have hbefore := Moves.inv hstart hs.sound hid _ hmove hvisited.advanced.moves
    ⟨hs.classified, hs.kept⟩
  have hsame := legalize?_outline hbefore.1 after hvisited.searched
  have hafter : after.graph.Classified ∧ KeepsClasses start after.graph :=
    ⟨hbefore.1.of_same hsame, hbefore.2.trans hsame.outline_keeps⟩
  have hending : s'.graph.Classified ∧ KeepsClasses start s'.graph := by
    rcases hvisited.ending with ⟨_, rfl⟩ | ⟨_, _, _, _, hlast⟩
    · exact hafter
    · exact Moves.inv hstart hvisited.sound hid _ hmove hlast hafter
  exact ⟨hframed.sound, Passed.visited hs.passed hframed hnode hdeps hreorder, hending.1, hending.2⟩

theorem steady_of_visits (hstart : start.WellFormed) (hlisted : start.ListsAll)
    (hclass : start.Classified) {ids : List NodeId} (hids : ∀ id ∈ ids, id ∈ start.order) :
    Yields (ids.foldlM (visit? cx) { graph := start }) (Steady start) := by
  refine Yields.foldlM_inv (Steady start) ?_ fun id hid s hs =>
    hs.visit hstart (hlisted.lt_size (hids id hid))
  exact ⟨sound_start hstart hlisted, passed_start, hclass, .refl start⟩

end Reconciliation

/-! ## Stages -/

theorem Construction.store?_outline {g : Graph} (hg : g.Classified) (report : Report)
    {id : NodeId} (result : TaskResult) :
    Ensures (store? (g, report) (id, result)) fun out => Same Node.outline g out.1 := by
  refine Ensures.bind (frame_outline.refresh? id hg) fun g₁ h₁ => ?_
  cases result with
  | built assignment =>
    have hinstalled : Ensures (g₁.update? id (install assignment.handle))
        (Same Node.outline g₁) := Graph.update?_same fun _ => rfl
    exact Ensures.bind hinstalled fun g₂ h₂ => Ensures.pure (h₁.trans h₂)
  | deferred => exact Ensures.pure h₁
  | failed error => exact Ensures.pure h₁

/-- What planning keeps of the shapes of `g` in a graph `g'` that it leads to. -/
structure Graph.Steady (g g' : Graph) : Prop where
  wellFormed : g'.WellFormed
  listed : g'.ListsAll
  classified : g'.Classified
  kept : KeepsClasses g g'
  reorders : ∀ {id node}, g.size ≤ id.index → g'.node? id = some node → node.isReorder ∧
    ∃ edge target, node.deps = [edge] ∧ node.outputs = [target] ∧
      g'.shapeAt? edge = some target.shape

namespace Graph.Steady

variable {g g₁ g₂ : Graph}

theorem of_same (h : g.Steady g₁) (hcontent : g₁.SameContent g₂)
    (hsame : Same Node.outline g₁ g₂) : g.Steady g₂ where
  wellFormed := h.wellFormed.of_sameWiring hcontent.wiring
  listed := hcontent.listsAll h.listed
  classified := h.classified.of_same hsame
  kept := h.kept.trans hsame.outline_keeps
  reorders {id node₂} hle hnode₂ := by
    obtain ⟨node₁, hnode₁, heq⟩ := hcontent.nodes.exists_old hnode₂
    obtain ⟨hreorder, edge, target, hdeps, houtputs, hshape⟩ := h.reorders hle hnode₁
    obtain ⟨_, hfound, houtline⟩ := hsame.exists_old hnode₂
    obtain rfl := Option.some.inj (hnode₁.symm.trans hfound)
    simp only [Node.outline, hdeps, houtputs, Prod.mk.injEq] at houtline
    obtain ⟨target₂, houtputs₂, htarget₂⟩ := List.map_eq_singleton_iff.1 houtline.2.1
    refine ⟨(Node.isReorder_congr (Node.op_of_content heq)).trans hreorder, edge, target₂,
      houtline.1, houtputs₂, ?_⟩
    rw [hsame.shapes.shapeAt?_eq, hshape, htarget₂]

/-- Reorders are passed over, so those of earlier runs stay as they were. -/
theorem of_agreement (h : g.Steady g₁) {s : Reconciliation} (hs : Reconciliation.Steady g₁ s) :
    g.Steady s.graph where
  wellFormed := hs.sound.wellFormed
  listed := hs.sound.listed
  classified := hs.classified
  kept := h.kept.trans hs.kept
  reorders {id node} hle hnode := by
    by_cases hlt : id.index < g₁.size
    · obtain ⟨old, hold⟩ := exists_node hlt
      obtain ⟨hreorder, edge, target, hdeps, houtputs, hshape⟩ := h.reorders hle hold
      have hbare := hs.passed hold (Or.inr hreorder)
      rw [hnode, Option.map_some, Option.some.injEq] at hbare
      refine ⟨?_, edge, target, (Node.deps_of_bare hbare).trans hdeps,
        (Node.outputs_of_bare hbare).trans houtputs, ?_⟩
      · rwa [Node.isReorder_congr (Node.op_of_core (Node.core_of_bare hbare))]
      · obtain ⟨layout, hlayout⟩ :=
          h.wellFormed.produced hold (hdeps ▸ List.mem_singleton_self edge)
        obtain ⟨_, hproducer, _⟩ := layoutAt?_eq_some_iff.1 hlayout
        rw [hs.sound.shapeAt?_old (lt_size_of_node? hproducer), hshape]
    · have hbeyond := Nat.not_lt.1 hlt
      refine ⟨?_, hs.sound.shapeAt?_source hnode hbeyond⟩
      simp [Node.isReorder, (hs.sound.inserted hnode hbeyond).op_eq]

theorem propagation (h : g.Steady g₁) {catalog : Catalog} {ids : List NodeId}
    (hids : ∀ id ∈ ids, id ∈ g₁.order) :
    Yields (ids.foldlM (Propagation.visit? catalog) { graph := g₁ })
      fun s => g.Steady s.graph := by
  refine (Yields.foldlM_inv (fun s : Propagation.State => g.Steady s.graph ∧
    s.graph.size = g₁.size) ⟨h, rfl⟩ ?_).mono fun s hs => hs.1
  intro id hid s hs
  have hlt : id.index < s.graph.size := hs.2 ▸ h.listed.lt_size (hids id hid)
  refine (Propagation.visit?_outline hs.1.wellFormed hs.1.classified hlt).mono fun s' h => ?_
  exact ⟨hs.1.of_same h.1 h.2, h.2.size_eq.trans hs.2⟩

theorem agreement (h : g.Steady g₁) {cx : Context} {ids : List NodeId}
    (hids : ∀ id ∈ ids, id ∈ g₁.order) :
    Yields (ids.foldlM (Reconciliation.visit? cx) { graph := g₁ })
      fun s => g.Steady s.graph :=
  (Reconciliation.steady_of_visits h.wellFormed h.listed h.classified hids).mono
    fun _ => h.of_agreement

theorem settling (h : g.Steady g₁) {ids : List NodeId} (hids : ∀ id ∈ ids, id ∈ g₁.order) :
    Yields (ids.foldlM (fun g id => do
      if (← g.node? id).isConstant then return g else g.settle? id) g₁)
      fun g₂ => g.Steady g₂ ∧ g₂.size = g₁.size := by
  refine Yields.foldlM_inv (fun g₂ => g.Steady g₂ ∧ g₂.size = g₁.size) ⟨h, rfl⟩ ?_
  intro id hid g₂ ⟨hg₂, hsize⟩
  have hlt : id.index < g₂.size := hsize ▸ h.listed.lt_size (hids id hid)
  obtain ⟨g₃, hg₃, hsettles⟩ := Construction.settleData?_spec hg₂.wellFormed hlt
  have hsame := frame_outline.settleData? hg₂.classified g₃ hg₃
  exact .of_eq hg₃ ⟨hg₂.of_same hsettles.content hsame, hsame.size_eq.trans hsize⟩

theorem storing (h : g.Steady g₁) {tasks : List (NodeId × Construction.TaskResult)}
    (htasks : ∀ task ∈ tasks, task.1.index < g₁.size) (report : Report) :
    Yields (tasks.foldlM Construction.store? (g₁, report)) fun out => g.Steady out.1 := by
  refine (Yields.foldlM_inv (fun out : Graph × Report => g.Steady out.1 ∧ out.1.size = g₁.size)
    ⟨h, rfl⟩ ?_).mono fun out hout => hout.1
  intro ⟨id, result⟩ htask ⟨g₂, report₂⟩ ⟨hg₂, hsize⟩
  have hlt : id.index < g₂.size := hsize ▸ htasks _ htask
  obtain ⟨out, hout, hinstalls⟩ := Construction.store?_spec hg₂.wellFormed hlt report₂ result
  have hsame := Construction.store?_outline hg₂.classified report₂ result out hout
  exact .of_eq hout ⟨hg₂.of_same hinstalls.content hsame, hsame.size_eq.trans hsize⟩

end Graph.Steady

/-- The graphs that a stage passes through when it is run on `g`: one after each visit. -/
inductive Stage.Passes (cx : Context) (g : Graph) : Stage → Graph → Prop
  | propagation {ids : List NodeId} {s : Propagation.State} (hids : ids <+: g.order)
      (h : ids.foldlM (Propagation.visit? cx.catalog) { graph := g } = some s) :
      Passes cx g .propagation s.graph
  | agreement {ids : List NodeId} {s : Reconciliation} (hids : ids <+: g.order)
      (h : ids.foldlM (Reconciliation.visit? cx) { graph := g } = some s) :
      Passes cx g .agreement s.graph
  | settling {ids : List NodeId} {g' : Graph} (hids : ids <+: g.order)
      (h : ids.foldlM (fun g id => do
        if (← g.node? id).isConstant then return g else g.settle? id) g = some g') :
      Passes cx g .construction g'
  | storing {settled : Graph} {ids : List NodeId} {views : List NodeView}
      {tasks : List (NodeId × Construction.TaskResult)} {out : Graph × Report}
      (hsettled : Construction.settleAll? g = some settled)
      (hids : Construction.pending? settled = some ids)
      (hviews : ids.mapM settled.view? = some views)
      (htasks : tasks <+: ids.zip (views.map (Construction.buildTask cx.catalog)))
      (h : tasks.foldlM Construction.store? (settled, {}) = some out) :
      Passes cx g .construction out.1

theorem Graph.Steady.passes {cx : Context} {g g₁ g₂ : Graph} {stage : Stage} (h : g.Steady g₁)
    (hpasses : stage.Passes cx g₁ g₂) : g.Steady g₂ := by
  cases hpasses with
  | propagation hids hrun => exact (h.propagation fun _ hid => hids.subset hid).post_of_eq hrun
  | agreement hids hrun => exact (h.agreement fun _ hid => hids.subset hid).post_of_eq hrun
  | settling hids hrun => exact ((h.settling fun _ hid => hids.subset hid).post_of_eq hrun).1
  | storing hsettled hids hviews htasks hrun =>
    have hg₂ := ((h.settling fun _ hid => hid).post_of_eq hsettled).1
    refine (hg₂.storing (fun task htask => ?_) _).post_of_eq hrun
    have hmem := (List.of_mem_zip (htasks.subset htask)).1
    obtain ⟨node, hnode, _⟩ :=
      ((Construction.pending?_spec hg₂.listed).post_of_eq hids task.1).1 hmem
    exact lt_size_of_node? hnode

/-- A stage ends with one of the graphs that it passes through. -/
theorem Stage.passes_of_run {cx : Context} {g : Graph} {stage : Stage} {out : Outcome}
    (h : stage.run? cx g = some out) : stage.Passes cx g out.graph := by
  cases stage with
  | propagation =>
    obtain ⟨s, hs, h⟩ := Option.bind_eq_some_iff.1 h
    cases h
    exact .propagation List.prefix_rfl hs
  | agreement =>
    obtain ⟨s, hs, h⟩ := Option.bind_eq_some_iff.1 h
    cases h
    rw [s.outcome_graph]
    exact .agreement List.prefix_rfl hs
  | construction =>
    obtain ⟨settled, hsettled, h⟩ := Option.bind_eq_some_iff.1 h
    obtain ⟨ids, hids, h⟩ := Option.bind_eq_some_iff.1 h
    obtain ⟨views, hviews, h⟩ := Option.bind_eq_some_iff.1 h
    dsimp only at h
    split at h
    next =>
      cases h
      exact .settling List.prefix_rfl hsettled
    next =>
      obtain ⟨stored, hstored, h⟩ := Option.bind_eq_some_iff.1 h
      cases h
      exact .storing hsettled hids hviews List.prefix_rfl hstored

theorem Graph.Steady.run {g g₁ : Graph} (h : g.Steady g₁) (cx : Context) (stage : Stage) :
    Yields (stage.run? cx g₁) fun out => g.Steady out.graph := by
  have hruns : Yields (stage.run? cx g₁) fun _ => True := by
    cases stage with
    | propagation =>
      exact Yields.bind (h.propagation fun _ hid => hid) fun s _ => Yields.pure trivial
    | agreement => exact Yields.bind (h.agreement fun _ hid => hid) fun s _ => Yields.pure trivial
    | construction =>
      exact (Construction.run?_spec cx h.wellFormed h.listed).mono fun _ _ => trivial
  obtain ⟨out, hout, _⟩ := hruns
  exact .of_eq hout (h.passes (Stage.passes_of_run hout))

theorem Graph.Steady.runStages {g g₁ : Graph} (h : g.Steady g₁) (cx : Context)
    (stages : List Stage) (total : Report) (trace : Trace) :
    Yields (Pipeline.runStages? cx g₁ total trace stages) fun out => g.Steady out.graph := by
  induction stages generalizing g₁ total trace with
  | nil => exact Yields.pure h
  | cons stage rest ih =>
    refine Pipeline.runStages?_cons (fun g' _ => g.Steady g') ?_ total trace
    exact (h.run cx stage).mono fun out hout => ⟨fun _ _ => hout, fun _ => ih hout⟩

/-! ## Planned graphs -/

/-- The shape classes of a graph `g'` that planning leads to from `g`. -/
structure Graph.SteadyClasses (g g' : Graph) : Prop where
  /-- The class that a node keeps is that of the layouts around it. -/
  current : ∀ {id node}, g'.node? id = some node → g'.currentClass? id = some node.shapeClass
  original : ∀ {id node}, g.node? id = some node →
    ∃ node', g'.node? id = some node' ∧ node'.shapeClass = node.shapeClass
  inserted : ∀ {id node}, g.size ≤ id.index → g'.node? id = some node →
    node.isReorder ∧ ∃ input, g'.inputs? id = some [input] ∧
      node.shapeClass.isDynamic = input.layout.isDynamic

theorem Graph.Steady.classes {g g' : Graph} (h : g.Steady g') : g.SteadyClasses g' where
  current {id node} hnode := h.classified id node hnode
  original {id node} hnode := h.kept id node hnode
  inserted {id node} hle hnode := by
    obtain ⟨hreorder, edge, target, hdeps, houtputs, hshape⟩ := h.reorders hle hnode
    have hclass := h.classified id node hnode
    rw [← shape_follow? g' edge 0] at hshape
    obtain ⟨input, hinput, hlayout⟩ := Option.map_eq_some_iff.1 hshape
    have hinputs : g'.inputs? id = some [input] := by simp [inputs?, hnode, hdeps, hinput]
    refine ⟨hreorder, input, hinputs, ?_⟩
    rw [currentClass?, hnode, hinputs] at hclass
    rw [← Option.some.inj hclass]
    cases hdynamic : target.shape.isDynamic <;>
      simp [houtputs, hlayout, hdynamic, ShapeClass.ofLayouts, ShapeClass.ofShapes,
        ShapeClass.isDynamic, Layout.isDynamic]

/-- Whatever stages are run on a declared graph, and however the run ends, the shape classes of the
graph hold still, and so they do after each visit of one more stage. -/
theorem steadyClasses_of_run {decls : List NodeDecl} {g : Graph}
    (hbuild : Graph.build? decls = some (.ok g)) (cx : Context) (stages : List Stage) :
    ∃ out, Pipeline.run? stages cx g = some out ∧ g.SteadyClasses out.graph ∧
      ∀ stage g', Stage.Passes cx out.graph stage g' → g.SteadyClasses g' := by
  have hg := Graph.fresh_of_build hbuild
  have hsteady : g.Steady g :=
    ⟨hg.wellFormed, hg.toOrdered.listsAll, Graph.classified_of_build hbuild, .refl g,
      fun hle hnode => absurd (Graph.lt_size_of_node? hnode) (Nat.not_lt.2 hle)⟩
  obtain ⟨out, hout, hend⟩ := Pipeline.run?_spec (fun g' _ => g.Steady g') hg
    (hsteady.runStages cx stages)
  exact ⟨out, hout, hend.classes, fun stage g' hpasses => (hend.passes hpasses).classes⟩

/-- Two states that are written in another type than they come in, one of them of unknown extent.
Planning has to convert both. -/
def storedStates : List NodeDecl :=
  let unbounded : Shape := ⟨[.dynamic "n", .static 16, .static 8, .static 8]⟩
  let fixed : Shape := .ofExtents [1, 16, 8, 8]
  [{ name := "stream", op := .input, outputs := [⟨unbounded, .f32, .bfyx, {}⟩] },
    { name := "image", op := .input, outputs := [⟨fixed, .f32, .bfyx, {}⟩] },
    { name := "history", op := .stateWrite, inputs := [⟨⟨0⟩, 0⟩],
      outputs := [⟨unbounded, .f16, .any, {}⟩], attrs := .stateWrite "history" .f16 },
    { name := "latest", op := .stateWrite, inputs := [⟨⟨1⟩, 0⟩],
      outputs := [⟨fixed, .f16, .any, {}⟩], attrs := .stateWrite "latest" .f16 }]

/-- The reorder on the edge of unknown extent is dynamic, and the other one is not. -/
theorem steadyClasses_storedStates : ∃ g, Graph.build? storedStates = some (.ok g) ∧
    (Pipeline.run? Pipeline.standard { catalog := Builtin.catalog } g).map
      (·.graph.nodes.map Node.shapeClass) =
        some [.dynamic, .static, .dynamic, .static, .dynamic, .static] ∧
    ∃ out, Pipeline.run? Pipeline.standard { catalog := Builtin.catalog } g = some out ∧
      g.SteadyClasses out.graph ∧ ∀ stage g',
        Stage.Passes { catalog := Builtin.catalog } out.graph stage g' → g.SteadyClasses g' :=
  ⟨_, rfl, rfl, @steadyClasses_of_run storedStates _ rfl _ _⟩

end LayoutPlanner
