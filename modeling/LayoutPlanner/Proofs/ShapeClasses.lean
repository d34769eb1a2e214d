import LayoutPlanner.Proofs.BuiltGraphs
import LayoutPlanner.Proofs.Frames

/-!
# Shape classes

A node keeps the class of the shapes around it, as it was when it was last refreshed.  That class
depends on the edges of the node, its own output shapes and those of its producers.  None of the
planning stages changes a shape, so the class that is kept stays right.

* `Classified`: every node of a graph keeps the right class.
* On such a graph a refresh changes nothing, so edits of single nodes keep every class
  (`frame_outline`).
* Edges are moved between producers of one shape, which keeps the classes right although no reader
  is refreshed (`Rewired.classifiedAt`).
* A declared graph starts with the right classes (`classified_of_build`).
-/

namespace LayoutPlanner

namespace Graph

/-! ## The class of the shapes around a node -/

/-- The shape found at the producing end of an edge. -/
def shapeAt? (g : Graph) (edge : Edge) : Option Shape :=
  (g.layoutAt? edge).map Layout.shape

theorem shapeAt?_of_node {g : Graph} {edge : Edge} {producer : Node}
    (h : g.node? edge.node = some producer) :
    g.shapeAt? edge = (producer.outputs.map Layout.shape)[edge.output]? := by
  simp [shapeAt?, layoutAt?, h]

theorem shape_follow? (g : Graph) (edge : Edge) (slot : Nat) :
    (g.follow? edge slot).map (·.layout.shape) = g.shapeAt? edge := by
  unfold follow? shapeAt? layoutAt?
  cases g.node? edge.node with
  | none => rfl
  | some producer => cases h : producer.outputs[edge.output]? <;> simp [h]

theorem shapes_follow? (g : Graph) (deps : List Edge) (first : Nat) :
    ((deps.zipIdx first).mapM fun dep => g.follow? dep.1 dep.2).map
      (List.map fun input : Input => input.layout.shape) = deps.mapM g.shapeAt? := by
  induction deps generalizing first with
  | nil => rfl
  | cons edge rest ih =>
    rw [List.zipIdx_cons, List.mapM_cons, List.mapM_cons, ← ih (first + 1),
      ← shape_follow? g edge first]
    dsimp only
    cases g.follow? edge first with
    | none => rfl
    | some input =>
      cases (rest.zipIdx (first + 1)).mapM fun dep => g.follow? dep.1 dep.2 <;> rfl

theorem currentClass?_eq {g : Graph} {id : NodeId} {node : Node} (hnode : g.node? id = some node) :
    g.currentClass? id = (node.deps.mapM g.shapeAt?).map fun shapes =>
      .ofShapes (shapes ++ node.outputs.map Layout.shape) := by
  rw [← shapes_follow? g node.deps 0, Option.map_map]
  simp only [currentClass?, inputs?, hnode, Option.bind_eq_bind, Option.bind_some]
  cases node.deps.zipIdx.mapM fun dep => g.follow? dep.1 dep.2 with
  | none => rfl
  | some inputs => simp [ShapeClass.ofLayouts, Function.comp_def]

theorem mapM_eq_of_map_eq {α α' β : Type} {f : α → Option β} {f' : α' → Option β} {items : List α}
    {items' : List α'} (h : items'.map f' = items.map f) : items'.mapM f' = items.mapM f := by
  induction items generalizing items' with
  | nil =>
    rw [List.map_eq_nil_iff.1 h]
    rfl
  | cons item rest ih =>
    obtain ⟨item', rest', rfl, hitem, hrest⟩ := List.map_eq_cons_iff.1 h
    rw [List.mapM_cons, List.mapM_cons, hitem, ih hrest]

theorem currentClass?_congr {g g' : Graph} {id id' : NodeId} {node node' : Node}
    (hnode : g.node? id = some node) (hnode' : g'.node? id' = some node')
    (hdeps : node'.deps.map g'.shapeAt? = node.deps.map g.shapeAt?)
    (houtputs : node'.outputs.map Layout.shape = node.outputs.map Layout.shape) :
    g'.currentClass? id' = g.currentClass? id := by
  rw [currentClass?_eq hnode, currentClass?_eq hnode', mapM_eq_of_map_eq hdeps, houtputs]

/-! ## Graphs with the right classes -/

/-- The class that a node keeps is that of the shapes around it. -/
def ClassifiedAt (g : Graph) (id : NodeId) : Prop :=
  ∀ node, g.node? id = some node → g.currentClass? id = some node.shapeClass

def Classified (g : Graph) : Prop :=
  ∀ id, g.ClassifiedAt id

/-- Every node of `g` has the same class in `g'`. -/
def KeepsClasses (g g' : Graph) : Prop :=
  ∀ id node, g.node? id = some node →
    ∃ node', g'.node? id = some node' ∧ node'.shapeClass = node.shapeClass

protected theorem KeepsClasses.refl (g : Graph) : KeepsClasses g g :=
  fun _ node hnode => ⟨node, hnode, rfl⟩

protected theorem KeepsClasses.trans {g g' g'' : Graph} (h : KeepsClasses g g')
    (h' : KeepsClasses g' g'') : KeepsClasses g g'' := by
  intro id node hnode
  obtain ⟨node', hnode', heq⟩ := h id node hnode
  obtain ⟨node'', hnode'', heq'⟩ := h' id node' hnode'
  exact ⟨node'', hnode'', heq'.trans heq⟩

theorem Same.keepsClasses {g g' : Graph} (h : Same Node.shapeClass g g') : KeepsClasses g g' :=
  fun _ _ hnode => h.exists_new hnode

end Graph

/-- What the class of a node depends on within the node, and the class it keeps. -/
def Node.outline (node : Node) : List Edge × List Shape × ShapeClass :=
  (node.deps, node.outputs.map Layout.shape, node.shapeClass)

namespace Graph

theorem Same.shapeAt?_eq {g g' : Graph} (h : Same (fun node => node.outputs.map Layout.shape) g g')
    (edge : Edge) : g'.shapeAt? edge = g.shapeAt? edge := by
  have hshape : ∀ k : Graph, k.shapeAt? edge =
      ((k.node? edge.node).map fun node => node.outputs.map Layout.shape).bind
        (·[edge.output]?) := by
    intro k
    cases hnode : k.node? edge.node with
    | none => simp [shapeAt?, layoutAt?, hnode]
    | some producer => exact shapeAt?_of_node hnode
  rw [hshape, hshape, h edge.node]

theorem Same.shapes {g g' : Graph} (h : Same Node.outline g g') :
    Same (fun node => node.outputs.map Layout.shape) g g' :=
  h.coarsen fun _ _ heq => congrArg (·.2.1) heq

theorem Same.outline_keeps {g g' : Graph} (h : Same Node.outline g g') : KeepsClasses g g' :=
  Same.keepsClasses (h.coarsen fun _ _ heq => congrArg (·.2.2) heq)

theorem Classified.of_same {g g' : Graph} (hg : g.Classified) (h : Same Node.outline g g') :
    g'.Classified := by
  intro id node' hnode'
  obtain ⟨node, hnode, heq⟩ := h.exists_old hnode'
  simp only [Node.outline, Prod.mk.injEq] at heq
  obtain ⟨hdeps, houtputs, hclass⟩ := heq
  have hshapes : node'.deps.map g'.shapeAt? = node.deps.map g.shapeAt? := by
    rw [hdeps]
    exact List.map_congr_left fun edge _ => h.shapes.shapeAt?_eq edge
  rw [currentClass?_congr hnode hnode' hshapes houtputs, hg id node hnode, hclass]

/-- Where the classes are right, edits of single nodes leave them alone. -/
theorem frame_outline : Frame Node.outline Classified where
  factors h := by
    simp only [Node.lasting, Prod.mk.injEq] at h
    simp only [Node.outline, h]
  keep hg h := hg.of_same h
  refresh? {g} id hg := by
    refine Ensures.bind_all fun shapeClass hclass => update?_same_at fun node hnode => ?_
    obtain rfl := Option.some.inj (hclass.symm.trans (hg id node hnode))
    rfl

/-! ## Moving edges -/

theorem reroute?_class {g : Graph} {consumer : NodeId} (slot : Nat) (edge : Edge) :
    Ensures (g.reroute? consumer slot edge) (Same Node.shapeClass g) :=
  reroute?_same (fun _ _ => rfl) (fun _ _ => rfl) (fun _ => rfl) slot edge

section

variable {g g' : Graph} {consumer : NodeId} {slot : Nat} {edge current : Edge}

/-- A slot that is moved to a producer of the same shape leaves the classes right. -/
theorem Rewired.classifiedAt (h : Rewired consumer slot edge g g') (hg : g.WellFormed)
    (hclass : g.Classified) (hcurrent : g.dep? consumer slot = some current)
    (hshape : g'.shapeAt? edge = g.shapeAt? current) (hkeeps : KeepsClasses g g') {id : NodeId}
    (hlt : id.index < g.size) : g'.ClassifiedAt id := by
  intro node' hnode'
  obtain ⟨node, hnode⟩ := exists_node hlt
  obtain ⟨_, hnew, _, hface, hdeps⟩ := h.exists_new hnode
  obtain rfl := Option.some.inj (hnode'.symm.trans hnew)
  obtain ⟨_, hkept, hsame⟩ := hkeeps id node hnode
  obtain rfl := Option.some.inj (hnode'.symm.trans hkept)
  have houtputs : node'.outputs = node.outputs := congrArg (·.2.2.2) hface
  have hold : node.deps.map g'.shapeAt? = node.deps.map g.shapeAt? := by
    refine List.map_congr_left fun dep hdep => ?_
    obtain ⟨layout, hlayout⟩ := hg.produced hnode hdep
    obtain ⟨producer, hproducer, _⟩ := layoutAt?_eq_some_iff.1 hlayout
    obtain ⟨producer', hproducer', _, hface', _⟩ := h.exists_new hproducer
    rw [shapeAt?_of_node hproducer, shapeAt?_of_node hproducer',
      show producer'.outputs = producer.outputs from congrArg (·.2.2.2) hface']
  have hshapes : node'.deps.map g'.shapeAt? = node.deps.map g.shapeAt? := by
    rw [hdeps]
    split
    next heq =>
      subst heq
      have hslot : node.deps[slot]? = some current := by simpa [dep?, hnode] using hcurrent
      obtain ⟨hlength, rfl⟩ := List.getElem?_eq_some_iff.1 hslot
      rw [List.map_set, hold, hshape, ← List.getElem_map g.shapeAt?, List.set_getElem_self]
      simpa using hlength
    next => exact hold
  rw [currentClass?_congr hnode hnode' hshapes (by rw [houtputs]), hclass id node hnode, hsame]

/-- Pointing a slot at a producer of the same shape. -/
theorem Classified.reroute (hclass : g.Classified) (hg : g.WellFormed)
    (h : g.reroute? consumer slot edge = some g') (hrewired : Rewired consumer slot edge g g')
    (houtputs : Same Node.outputs g g') (hcurrent : g.dep? consumer slot = some current)
    (hshape : g.shapeAt? edge = g.shapeAt? current) : g'.Classified ∧ KeepsClasses g g' := by
  have hkeeps := (reroute?_class slot edge g' h).keepsClasses
  have hshapes : Same (fun node => node.outputs.map Layout.shape) g g' :=
    houtputs.coarsen fun _ _ heq => congrArg _ heq
  refine ⟨fun id node hnode => ?_, hkeeps⟩
  have hlt : id.index < g.size := houtputs.size_eq ▸ lt_size_of_node? hnode
  exact hrewired.classifiedAt hg hclass hcurrent ((hshapes.shapeAt?_eq edge).trans hshape) hkeeps
    hlt node hnode

/-- The classes after a reorder has been inserted.  Its own is worked out, and no other changes. -/
theorem interpose?_classes {input : Input} (hinput : g.input? consumer slot = some input)
    (target : Layout) (reason : ReorderReason) :
    Ensures (g.interpose? consumer slot target reason) fun out => KeepsClasses g out.1 ∧
      ∀ node, out.1.node? ⟨g.size⟩ = some node →
        node.shapeClass = .ofLayouts [input.layout, target] := by
  obtain ⟨_, _, _, _, hproducer, houtput⟩ := input?_eq_some_iff.1 hinput
  have hlayout : g.layoutAt? input.edge = some input.layout :=
    layoutAt?_eq_some_iff.2 ⟨_, hproducer, houtput⟩
  refine Ensures.bind_all fun input' hinput' => ?_
  obtain rfl := Option.some.inj (hinput.symm.trans hinput')
  refine Ensures.bind_all fun g₁ hg₁ => ?_
  obtain ⟨_, _, ⟨new, hnew, _, _, hclass⟩, hothers⟩ :=
    (refresh?_append rfl hlayout).post_of_eq hg₁
  have hlisted : Ensures (g₁.update? input.edge.node fun node =>
      { node with users := node.users ++ [⟨g.size⟩] }) (Same Node.shapeClass g₁) :=
    update?_same fun _ => rfl
  refine Ensures.bind hlisted fun g₂ h₂ => ?_
  refine Ensures.bind (reroute?_class slot _) fun g₃ h₃ => Ensures.pure ⟨?_, ?_⟩
  · intro id node hnode
    exact (h₂.trans h₃).exists_new ((hothers id (ne_size_of_node? hnode)).trans hnode)
  · intro node hnode
    obtain ⟨old, hold, heq⟩ := (h₂.trans h₃).exists_old hnode
    obtain rfl := Option.some.inj (hnew.symm.trans hold)
    exact heq.trans hclass

/-- Inserting a reorder that keeps the shape. -/
theorem Classified.interpose (hclass : g.Classified) (hg : g.WellFormed) {input : Input}
    (hinput : g.input? consumer slot = some input) {target : Layout}
    (hshape : target.shape = input.layout.shape) (reason : ReorderReason) :
    Ensures (g.interpose? consumer slot target reason) fun out =>
      out.1.Classified ∧ KeepsClasses g out.1 := by
  intro out hout
  obtain ⟨node, hnode, hdep, _, hproducer, houtput⟩ := input?_eq_some_iff.1 hinput
  obtain ⟨hkeeps, hnewClass⟩ := interpose?_classes hinput target reason out hout
  obtain ⟨_, hrewired, hsize, _, new, hnew, hbare⟩ :=
    (interpose?_spec hg hinput target reason).post_of_eq hout
  have hdeps : new.deps = [input.edge] := Node.deps_of_bare hbare
  have houtputs : new.outputs = [target] := Node.outputs_of_bare hbare
  have hsource : g.shapeAt? input.edge = some input.layout.shape := by
    rw [shapeAt?_of_node hproducer, List.getElem?_map, houtput, Option.map_some]
  refine ⟨fun id => ?_, hkeeps⟩
  by_cases hlt : id.index < g.size
  · refine hrewired.classifiedAt hg hclass (by simpa [dep?, hnode] using hdep) ?_ hkeeps hlt
    rw [hsource, shapeAt?_of_node hnew, houtputs, ← hshape]
    rfl
  · intro node' hnode'
    have hbound := lt_size_of_node? hnode'
    have hindex : g.size = id.index := by omega
    obtain rfl : id = ⟨g.size⟩ := by rw [hindex]
    obtain rfl := Option.some.inj (hnew.symm.trans hnode')
    obtain ⟨producer', hproducer', _, hface, _⟩ := hrewired.exists_new hproducer
    have hsource' : out.1.shapeAt? input.edge = some input.layout.shape := by
      rw [shapeAt?_of_node hproducer',
        show producer'.outputs = input.producer.outputs from congrArg (·.2.2.2) hface,
        ← shapeAt?_of_node hproducer, hsource]
    rw [currentClass?_eq hnew, hdeps, houtputs, hnewClass new hnew]
    simp [hsource', ShapeClass.ofLayouts]

end

/-! ## Declared graphs -/

/-- A refresh brings one class up to date and leaves the right ones right. -/
theorem refresh?_classifiedAt {g g' : Graph} {id : NodeId} (h : g.refresh? id = some g')
    {other : NodeId} (hother : other = id ∨ g.ClassifiedAt other) : g'.ClassifiedAt other := by
  obtain ⟨shapeClass, hclass, h⟩ := Option.bind_eq_some_iff.1 h
  have hrun : Ensures (g.update? id fun node => { node with shapeClass })
      (Same (fun node => (node.deps, node.outputs.map Layout.shape)) g) :=
    update?_same fun _ => rfl
  have hsame := hrun g' h
  have hshapes : Same (fun node => node.outputs.map Layout.shape) g g' :=
    hsame.coarsen fun _ _ heq => congrArg Prod.snd heq
  intro node' hnode'
  have hupdated := node?_update h other
  obtain ⟨node, hnode, heq⟩ := hsame.exists_old hnode'
  rw [Prod.mk.injEq] at heq
  rw [currentClass?_congr hnode hnode' ?_ heq.2]
  · rw [hnode, hnode', Option.map_some, Option.some.injEq] at hupdated
    subst hupdated
    by_cases hid : other = id
    · subst hid
      simpa using hclass
    · simpa [hid] using hother.resolve_left hid node hnode
  · rw [heq.1]
    exact List.map_congr_left fun edge _ => hshapes.shapeAt?_eq edge

theorem classifiedAt_of_refreshAll {ids : List NodeId} {g g' : Graph}
    (h : ids.foldlM refresh? g = some g') {id : NodeId} (hid : id ∈ ids ∨ g.ClassifiedAt id) :
    g'.ClassifiedAt id := by
  induction ids generalizing g with
  | nil =>
    cases h
    exact hid.resolve_left List.not_mem_nil
  | cons first rest ih =>
    rw [List.foldlM_cons] at h
    obtain ⟨g₁, hg₁, h⟩ := Option.bind_eq_some_iff.1 h
    apply ih h
    rw [List.mem_cons, or_assoc] at hid
    rcases hid with hfirst | hrest | hat
    · exact Or.inr (refresh?_classifiedAt hg₁ (Or.inl hfirst))
    · exact Or.inl hrest
    · exact Or.inr (refresh?_classifiedAt hg₁ (Or.inr hat))

/-- A declared graph has the right classes. -/
theorem classified_of_build {decls : List NodeDecl} {g : Graph}
    (h : build? decls = some (.ok g)) : g.Classified := by
  have hg := fresh_of_build h
  obtain ⟨checked, _, h⟩ := Option.bind_eq_some_iff.1 h
  split at h
  next => cases h
  next =>
    obtain ⟨g', hrefreshed, h⟩ := Option.bind_eq_some_iff.1 h
    cases h
    intro id node hnode
    have horder : g.order = (declareAll decls).order := by
      refine Ensures.foldlM (fun k : Graph => k.order = (declareAll decls).order) rfl ?_ g
        hrefreshed
      intro first k hk
      exact Ensures.bind_all fun _ _ k' hk' => (order_update hk').trans hk
    refine classifiedAt_of_refreshAll hrefreshed (Or.inl ?_) node hnode
    rw [← horder, hg.order_eq]
    exact List.mem_map.2 ⟨id.index, List.mem_range.2 (lt_size_of_node? hnode), rfl⟩

end Graph

end LayoutPlanner
