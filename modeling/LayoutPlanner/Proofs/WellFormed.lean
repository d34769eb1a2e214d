import LayoutPlanner.Graph.View
import LayoutPlanner.Proofs.Yields
import Mathlib.Data.List.Perm.Basic

/-!
# Well-formed graphs

In a well-formed graph every reference leads somewhere: nodes stand at the position their id names,
edges lead to outputs that exist, and the readers of a node are exactly the nodes that have an edge
to it.

The stages edit a graph all the time, so five projections of a node say what an edit left alone.

* `Node.wiring` is how a node hangs together with the others.  Well-formedness depends on nothing
  else, so `WellFormed.of_sameWiring` carries it over every edit that moves no edge.
* `Node.meaning` is what a node computes: no stage ever changes it.
* `Node.content` is the meaning and the wiring together: only an edit of edges changes it.
* `Node.bare` is a node without bookkeeping, that is without the readers and the two caches.  A node
  whose bare form is the same has the same formats, preferences and edges.
* `Node.face` is what the readers of a node see of it.
-/

namespace LayoutPlanner

namespace Node

/-- Position, edges, readers and number of outputs. -/
def wiring (node : Node) : NodeId × List Edge × List NodeId × Nat :=
  (node.id, node.deps, node.users, node.outputs.length)

/-- What a node computes.  Of its outputs only the format is open. -/
def meaning (node : Node) : Node where
  id := node.id
  name := node.name
  op := node.op
  attrs := node.attrs
  deps := []
  outputs := node.outputs.map (·.withFormat .any)
  fused := node.fused

/-- What a node computes and how it is wired. -/
def content (node : Node) : Node :=
  { node.meaning with deps := node.deps, users := node.users }

/-- A node without its readers and its caches. -/
def bare (node : Node) : Node :=
  { node with users := [], shapeClass := .static, layoutValid := false }

/-- What the readers of a node can tell about it. -/
def face (node : Node) : NodeId × OpKind × Attributes × List Layout :=
  (node.id, node.op, node.attrs, node.outputs)

section

variable {a b : Node}

theorem content_eq_iff :
    a.content = b.content ↔ a.meaning = b.meaning ∧ a.deps = b.deps ∧ a.users = b.users := by
  simp [content, meaning]
  tauto

theorem id_of_meaning (h : a.meaning = b.meaning) : a.id = b.id :=
  (congrArg Node.id h :)

theorem name_of_meaning (h : a.meaning = b.meaning) : a.name = b.name :=
  (congrArg Node.name h :)

theorem op_of_meaning (h : a.meaning = b.meaning) : a.op = b.op :=
  (congrArg Node.op h :)

theorem attrs_of_meaning (h : a.meaning = b.meaning) : a.attrs = b.attrs :=
  (congrArg Node.attrs h :)

theorem fused_of_meaning (h : a.meaning = b.meaning) : a.fused = b.fused :=
  (congrArg Node.fused h :)

theorem outputs_of_meaning (h : a.meaning = b.meaning) :
    a.outputs.map (·.withFormat .any) = b.outputs.map (·.withFormat .any) :=
  (congrArg Node.outputs h :)

theorem output_of_meaning (h : a.meaning = b.meaning) (index : Nat) :
    (a.outputs[index]?).map (·.withFormat .any) =
      (b.outputs[index]?).map (·.withFormat .any) := by
  rw [← List.getElem?_map, ← List.getElem?_map, outputs_of_meaning h]

theorem length_outputs_of_meaning (h : a.meaning = b.meaning) :
    a.outputs.length = b.outputs.length := by
  simpa using congrArg List.length (outputs_of_meaning h)

theorem wiring_of_content (h : a.content = b.content) : a.wiring = b.wiring := by
  obtain ⟨hmeaning, hdeps, husers⟩ := content_eq_iff.1 h
  simp [wiring, id_of_meaning hmeaning, hdeps, husers, length_outputs_of_meaning hmeaning]

theorem content_of_bare (h : a.bare = b.bare) (husers : a.users = b.users) :
    a.content = b.content := by
  simp only [bare, mk.injEq] at h
  simp [content, meaning, h, husers]

theorem meaning_of_bare (h : a.bare = b.bare) : a.meaning = b.meaning := by
  simp only [bare, mk.injEq] at h
  simp [meaning, h]

theorem deps_of_bare (h : a.bare = b.bare) : a.deps = b.deps := by
  simp only [bare, mk.injEq] at h
  simp [h]

theorem outputs_of_bare (h : a.bare = b.bare) : a.outputs = b.outputs := by
  simp only [bare, mk.injEq] at h
  simp [h]

theorem prefers_of_bare (h : a.bare = b.bare) : a.prefers = b.prefers := by
  simp only [bare, mk.injEq] at h
  simp [h]

theorem pinned_of_bare (h : a.bare = b.bare) : a.pinned = b.pinned := by
  simp only [bare, mk.injEq] at h
  simp [h]

theorem selected_of_bare (h : a.bare = b.bare) : a.selected = b.selected := by
  simp only [bare, mk.injEq] at h
  simp [h]

theorem eliminable_of_bare (h : a.bare = b.bare) : a.eliminable = b.eliminable := by
  simp only [bare, mk.injEq] at h
  simp [h]

theorem face_of_bare (h : a.bare = b.bare) : a.face = b.face := by
  simp only [bare, mk.injEq] at h
  simp [face, h]

theorem op_of_content (h : a.content = b.content) : a.op = b.op :=
  op_of_meaning (content_eq_iff.1 h).1

theorem attrs_of_content (h : a.content = b.content) : a.attrs = b.attrs :=
  attrs_of_meaning (content_eq_iff.1 h).1

theorem isConstant_congr (h : a.op = b.op) : a.isConstant = b.isConstant := by
  simp [isConstant, h]

theorem isReorder_congr (h : a.op = b.op) : a.isReorder = b.isReorder := by
  simp [isReorder, h]

theorem isSharedSurface_congr (h : a.attrs = b.attrs) :
    a.isSharedSurface = b.isSharedSurface := by
  simp [isSharedSurface, h]

end

end Node

/-- Layouts that agree up to format agree in shape, type and padding. -/
theorem Layout.withFormat_any_eq_iff {a b : Layout} :
    a.withFormat .any = b.withFormat .any ↔
      a.shape = b.shape ∧ a.dtype = b.dtype ∧ a.padding = b.padding := by
  simp [Layout.withFormat]

theorem Layout.rank_of_withFormat_any {a b : Layout} (h : a.withFormat .any = b.withFormat .any) :
    a.rank = b.rank :=
  congrArg Shape.rank (Layout.withFormat_any_eq_iff.1 h).1

theorem Layout.shapes_of_withFormat_any {layouts layouts' : List Layout}
    (h : layouts'.map (·.withFormat .any) = layouts.map (·.withFormat .any)) :
    layouts'.map Layout.shape = layouts.map Layout.shape := by
  have hshapes := congrArg (List.map Layout.shape) h
  rw [List.map_map, List.map_map] at hshapes
  exact hshapes

namespace Graph

theorem node?_isSome_iff {g : Graph} {id : NodeId} : (g.node? id).isSome ↔ id.index < g.size := by
  simp [node?, size]

theorem lt_size_of_node? {g : Graph} {id : NodeId} {node : Node} (h : g.node? id = some node) :
    id.index < g.size := by
  rw [← node?_isSome_iff, h]
  rfl

/-- A node of the graph is not the one that would be added next. -/
theorem ne_size_of_node? {g : Graph} {id : NodeId} {node : Node} (h : g.node? id = some node) :
    id ≠ ⟨g.size⟩ := by
  rintro rfl
  exact Nat.lt_irrefl _ (lt_size_of_node? h)

theorem exists_node {g : Graph} {id : NodeId} (h : id.index < g.size) :
    ∃ node, g.node? id = some node :=
  Option.isSome_iff_exists.1 (node?_isSome_iff.2 h)

theorem layoutAt?_eq_some_iff {g : Graph} {edge : Edge} {layout : Layout} :
    g.layoutAt? edge = some layout ↔
      ∃ producer, g.node? edge.node = some producer ∧
        producer.outputs[edge.output]? = some layout := by
  simp [layoutAt?, Option.bind_eq_some_iff]

/-- Some edge of `reader` leads to `id`. -/
def Reads (g : Graph) (reader id : NodeId) : Prop :=
  ∃ node, g.node? reader = some node ∧ ∃ edge ∈ node.deps, edge.node = id

theorem reads_iff_of_node? {g : Graph} {reader producer : NodeId} {node : Node}
    (hnode : g.node? reader = some node) :
    g.Reads reader producer ↔ ∃ dep ∈ node.deps, dep.node = producer := by
  simp [Reads, hnode]

structure WellFormed (g : Graph) : Prop where
  id_eq : ∀ {id node}, g.node? id = some node → node.id = id
  produced : ∀ {id node edge}, g.node? id = some node → edge ∈ node.deps →
    ∃ layout, g.layoutAt? edge = some layout
  outputs_ne : ∀ {id node}, g.node? id = some node → node.outputs ≠ []
  users_iff : ∀ {id node} (reader), g.node? id = some node →
    (reader ∈ node.users ↔ g.Reads reader id)
  users_nodup : ∀ {id node}, g.node? id = some node → node.users.Nodup

/-- The processing order lists every node once. -/
def ListsAll (g : Graph) : Prop :=
  g.order.Perm ((List.range g.size).map NodeId.mk)

theorem ListsAll.lt_size {g : Graph} (h : g.ListsAll) {id : NodeId} (hid : id ∈ g.order) :
    id.index < g.size := by
  obtain ⟨i, hi, rfl⟩ := List.mem_map.1 (h.mem_iff.1 hid)
  exact List.mem_range.1 hi

/-! ## Graphs that share a projection -/

/-- Every node has the same image under `proj` in both graphs. -/
def Same {α : Type} (proj : Node → α) (g g' : Graph) : Prop :=
  ∀ id, (g'.node? id).map proj = (g.node? id).map proj

namespace Same

variable {α β : Type} {proj : Node → α} {g g' g'' : Graph}

protected theorem refl (g : Graph) : Same proj g g :=
  fun _ => rfl

protected theorem symm (h : Same proj g g') : Same proj g' g :=
  fun id => (h id).symm

protected theorem trans (h : Same proj g g') (h' : Same proj g' g'') : Same proj g g'' :=
  fun id => (h' id).trans (h id)

/-- A node of the second graph is there in the first one, with the same image. -/
theorem exists_old (h : Same proj g g') {id : NodeId} {node : Node}
    (hnode : g'.node? id = some node) :
    ∃ old, g.node? id = some old ∧ proj node = proj old := by
  obtain ⟨old, hold, himage⟩ := exists_of_map_eq (h id).symm hnode
  exact ⟨old, hold, himage.symm⟩

theorem exists_new (h : Same proj g g') {id : NodeId} {node : Node}
    (hnode : g.node? id = some node) :
    ∃ new, g'.node? id = some new ∧ proj new = proj node := by
  obtain ⟨new, hnew, himage⟩ := h.symm.exists_old hnode
  exact ⟨new, hnew, himage.symm⟩

theorem coarsen {proj' : Node → β} (himp : ∀ a b, proj a = proj b → proj' a = proj' b)
    (h : Same proj g g') : Same proj' g g' := by
  intro id
  cases hnode : g'.node? id with
  | none =>
    have heq := h id
    rw [hnode, Option.map_none] at heq
    rw [Option.map_eq_none_iff.1 heq.symm]
  | some node =>
    obtain ⟨old, hold, himage⟩ := h.exists_old hnode
    simp [hold, himp node old himage]

/-- The same outputs everywhere, the same layout on every edge. -/
theorem layoutAt?_eq (h : Same Node.outputs g g') (edge : Edge) :
    g'.layoutAt? edge = g.layoutAt? edge := by
  have hlook (k : Graph) : k.layoutAt? edge =
      ((k.node? edge.node).map Node.outputs).bind (·[edge.output]?) := by
    unfold layoutAt?
    cases k.node? edge.node <;> rfl
  rw [hlook, hlook, h]

theorem size_eq (h : Same proj g g') : g'.size = g.size := by
  have hiff (i : Nat) : i < g'.size ↔ i < g.size := by
    have hlook (k : Graph) : i < k.size ↔ ((k.node? ⟨i⟩).map proj).isSome := by
      rw [Option.isSome_map, node?_isSome_iff]
    rw [hlook, hlook, h]
  have h1 := hiff g.size
  have h2 := hiff g'.size
  omega

end Same

/-- The graphs differ in nothing but what planning decides about single nodes. -/
structure SameContent (g g' : Graph) : Prop where
  order_eq : g'.order = g.order
  nodes : Same Node.content g g'

namespace SameContent

protected theorem refl (g : Graph) : SameContent g g :=
  ⟨rfl, .refl g⟩

protected theorem trans {g g' g'' : Graph} (h : SameContent g g') (h' : SameContent g' g'') :
    SameContent g g'' :=
  ⟨h'.order_eq.trans h.order_eq, h.nodes.trans h'.nodes⟩

protected theorem symm {g g' : Graph} (h : SameContent g g') : SameContent g' g :=
  ⟨h.order_eq.symm, h.nodes.symm⟩

theorem wiring {g g' : Graph} (h : SameContent g g') : Same Node.wiring g g' :=
  h.nodes.coarsen fun _ _ => Node.wiring_of_content

theorem listsAll {g g' : Graph} (h : SameContent g g') (hg : g.ListsAll) : g'.ListsAll := by
  rw [ListsAll, h.order_eq, h.nodes.size_eq]
  exact hg

/-- What is found on an edge keeps everything but its format. -/
theorem layoutAt?_eq {g g' : Graph} (h : SameContent g g') (edge : Edge) :
    (g'.layoutAt? edge).map (·.withFormat .any) = (g.layoutAt? edge).map (·.withFormat .any) := by
  have hlook (k : Graph) : (k.layoutAt? edge).map (·.withFormat .any) =
      ((k.node? edge.node).map Node.content).bind (·.outputs[edge.output]?) := by
    unfold layoutAt?
    cases k.node? edge.node <;> simp [Node.content, Node.meaning]
  rw [hlook, hlook, h.nodes]

end SameContent

section

variable {g g' : Graph} (h : Same Node.wiring g g')

include h

theorem Same.deps : Same Node.deps g g' :=
  h.coarsen fun _ _ heq => congrArg (·.2.1) heq

theorem Same.reads_iff (reader id : NodeId) : g'.Reads reader id ↔ g.Reads reader id := by
  constructor
  · rintro ⟨node, hnode, edge, hedge, rfl⟩
    obtain ⟨old, hold, himage⟩ := h.exists_old hnode
    have hdeps : node.deps = old.deps := congrArg (·.2.1) himage
    exact ⟨old, hold, edge, hdeps ▸ hedge, rfl⟩
  · rintro ⟨node, hnode, edge, hedge, rfl⟩
    obtain ⟨new, hnew, himage⟩ := h.exists_new hnode
    have hdeps : new.deps = node.deps := congrArg (·.2.1) himage
    exact ⟨new, hnew, edge, hdeps ▸ hedge, rfl⟩

theorem Same.exists_layout {edge : Edge} {layout : Layout}
    (hlayout : g.layoutAt? edge = some layout) :
    ∃ layout', g'.layoutAt? edge = some layout' := by
  obtain ⟨producer, hproducer, houtput⟩ := layoutAt?_eq_some_iff.1 hlayout
  obtain ⟨new, hnew, himage⟩ := h.exists_new hproducer
  have hlength : new.outputs.length = producer.outputs.length := congrArg (·.2.2.2) himage
  have hlt : edge.output < new.outputs.length := by
    rw [hlength]
    exact (List.getElem?_eq_some_iff.1 houtput).1
  exact ⟨_, layoutAt?_eq_some_iff.2 ⟨new, hnew, List.getElem?_eq_getElem hlt⟩⟩

theorem WellFormed.of_sameWiring (hg : g.WellFormed) : g'.WellFormed where
  id_eq hnode := by
    obtain ⟨old, hold, himage⟩ := h.exists_old hnode
    exact (congrArg (·.1) himage : _ = old.id).trans (hg.id_eq hold)
  produced {id node edge} hnode hedge := by
    obtain ⟨old, hold, himage⟩ := h.exists_old hnode
    have hdeps : node.deps = old.deps := congrArg (·.2.1) himage
    obtain ⟨layout, hlayout⟩ := hg.produced hold (hdeps ▸ hedge)
    exact h.exists_layout hlayout
  outputs_ne {id node} hnode hnil := by
    obtain ⟨old, hold, himage⟩ := h.exists_old hnode
    have hlength : node.outputs.length = old.outputs.length := congrArg (·.2.2.2) himage
    rw [hnil] at hlength
    exact hg.outputs_ne hold (List.length_eq_zero_iff.1 hlength.symm)
  users_iff {id node} reader hnode := by
    obtain ⟨old, hold, himage⟩ := h.exists_old hnode
    have husers : node.users = old.users := congrArg (·.2.2.1) himage
    rw [husers, hg.users_iff reader hold, h.reads_iff]
  users_nodup {id node} hnode := by
    obtain ⟨old, hold, himage⟩ := h.exists_old hnode
    have husers : node.users = old.users := congrArg (·.2.2.1) himage
    rw [husers]
    exact hg.users_nodup hold

end

/-! ## Look-ups in a well-formed graph -/

theorem WellFormed.lt_size_of_mem_users {g : Graph} (hg : g.WellFormed) {id reader : NodeId}
    {node : Node} (hnode : g.node? id = some node) (h : reader ∈ node.users) :
    reader.index < g.size := by
  obtain ⟨_, hreader, _⟩ := (hg.users_iff reader hnode).1 h
  exact lt_size_of_node? hreader

theorem WellFormed.exists_output {g : Graph} (hg : g.WellFormed) {id : NodeId} {node : Node}
    (hnode : g.node? id = some node) : ∃ output, node.outputs[0]? = some output := by
  cases houtputs : node.outputs with
  | nil => exact absurd houtputs (hg.outputs_ne hnode)
  | cons output rest => exact ⟨output, rfl⟩

theorem follow?_eq_some_iff {g : Graph} {edge : Edge} {slot : Nat} {input : Input} :
    g.follow? edge slot = some input ↔
      input.slot = slot ∧ input.edge = edge ∧ g.node? edge.node = some input.producer ∧
        input.producer.outputs[edge.output]? = some input.layout := by
  constructor
  · intro h
    simp only [follow?, bind, Option.bind_eq_some_iff, pure, Option.some.injEq] at h
    obtain ⟨producer, hproducer, layout, hlayout, rfl⟩ := h
    exact ⟨rfl, rfl, hproducer, hlayout⟩
  · rintro ⟨rfl, rfl, hproducer, hlayout⟩
    simp [follow?, hproducer, hlayout]

theorem input?_eq_some_iff {g : Graph} {id : NodeId} {slot : Nat} {input : Input} :
    g.input? id slot = some input ↔
      ∃ node, g.node? id = some node ∧ node.deps[slot]? = some input.edge ∧ input.slot = slot ∧
        g.node? input.edge.node = some input.producer ∧
        input.producer.outputs[input.edge.output]? = some input.layout := by
  simp only [input?, dep?, bind, Option.bind_eq_some_iff, follow?_eq_some_iff]
  constructor
  · rintro ⟨edge, ⟨node, hnode, hdep⟩, hslot, rfl, hproducer, hlayout⟩
    exact ⟨node, hnode, hdep, hslot, hproducer, hlayout⟩
  · rintro ⟨node, hnode, hdep, hslot, hproducer, hlayout⟩
    exact ⟨input.edge, ⟨node, hnode, hdep⟩, hslot, rfl, hproducer, hlayout⟩

theorem slot_of_input? {g : Graph} {id : NodeId} {slot : Nat} {input : Input}
    (h : g.input? id slot = some input) : input.slot = slot := by
  obtain ⟨_, _, _, hslot, _⟩ := input?_eq_some_iff.1 h
  exact hslot

theorem lt_length_of_input? {g : Graph} {id : NodeId} {node : Node} {slot : Nat} {input : Input}
    (hnode : g.node? id = some node) (h : g.input? id slot = some input) :
    slot < node.deps.length := by
  obtain ⟨_, hfound, hdep, _⟩ := input?_eq_some_iff.1 h
  obtain rfl := Option.some.inj (hnode.symm.trans hfound)
  exact (List.getElem?_eq_some_iff.1 hdep).1

/-- The inputs of a node, one by one. -/
theorem getElem?_of_inputs? {g : Graph} {id : NodeId} {inputs : List Input}
    (h : g.inputs? id = some inputs) (slot : Nat) : inputs[slot]? = g.input? id slot := by
  obtain ⟨node, hnode, h⟩ := Option.bind_eq_some_iff.1 h
  rw [getElem?_of_mapM h slot]
  cases hdep : node.deps[slot]? <;> simp [input?, dep?, hnode, hdep, List.getElem?_zipIdx]

theorem mem_inputs?_iff {g : Graph} {id : NodeId} {inputs : List Input}
    (h : g.inputs? id = some inputs) {input : Input} :
    input ∈ inputs ↔ g.input? id input.slot = some input := by
  constructor
  · intro hmem
    obtain ⟨slot, hslot⟩ := List.mem_iff_getElem?.1 hmem
    rw [getElem?_of_inputs? h] at hslot
    rwa [slot_of_input? hslot]
  · intro hinput
    rw [← getElem?_of_inputs? h] at hinput
    exact List.mem_of_getElem? hinput

theorem view?_eq_some_iff {g : Graph} {id : NodeId} {view : NodeView} :
    g.view? id = some view ↔ ∃ node inputs, g.node? id = some node ∧ g.inputs? id = some inputs ∧
      view = { graph := g, node, inputs, unpadded := false } := by
  simp only [view?, Option.bind_eq_bind, Option.bind_eq_some_iff, Option.pure_def,
    Option.some.injEq]
  constructor
  · rintro ⟨node, hnode, inputs, hinputs, rfl⟩
    exact ⟨node, inputs, hnode, hinputs, rfl⟩
  · rintro ⟨node, inputs, hnode, hinputs, rfl⟩
    exact ⟨node, hnode, inputs, hinputs, rfl⟩

section

variable {g : Graph} {id : NodeId} {node : Node}

theorem WellFormed.exists_input (hg : g.WellFormed) (hnode : g.node? id = some node) {slot : Nat}
    (hslot : slot < node.deps.length) : ∃ input, g.input? id slot = some input := by
  have hdep : node.deps[slot]? = some node.deps[slot] := List.getElem?_eq_getElem hslot
  obtain ⟨layout, hlayout⟩ := hg.produced hnode (List.getElem_mem hslot)
  obtain ⟨producer, hproducer, houtput⟩ := layoutAt?_eq_some_iff.1 hlayout
  exact ⟨⟨slot, _, producer, layout⟩,
    input?_eq_some_iff.2 ⟨node, hnode, hdep, rfl, hproducer, houtput⟩⟩

theorem WellFormed.producer_id (hg : g.WellFormed) {slot : Nat} {input : Input}
    (hinput : g.input? id slot = some input) : input.producer.id = input.edge.node := by
  obtain ⟨_, _, _, _, hproducer, _⟩ := input?_eq_some_iff.1 hinput
  exact hg.id_eq hproducer

theorem WellFormed.producer_lt (hg : g.WellFormed) {slot : Nat} {input : Input}
    (hinput : g.input? id slot = some input) : input.producer.id.index < g.size := by
  obtain ⟨_, _, _, _, hproducer, _⟩ := input?_eq_some_iff.1 hinput
  rw [hg.id_eq hproducer]
  exact lt_size_of_node? hproducer

theorem WellFormed.exists_inputs (hg : g.WellFormed) (hnode : g.node? id = some node) :
    ∃ inputs, g.inputs? id = some inputs ∧ inputs.length = node.deps.length := by
  have hfollow : ∀ entry ∈ node.deps.zipIdx,
      Yields (g.follow? entry.1 entry.2) fun _ => True := by
    rintro ⟨edge, slot⟩ hmem
    obtain ⟨layout, hlayout⟩ :=
      hg.produced hnode (List.mem_of_getElem? (List.mem_zipIdx_iff_getElem?.1 hmem))
    obtain ⟨producer, hproducer, houtput⟩ := layoutAt?_eq_some_iff.1 hlayout
    exact .of_eq (a := ⟨slot, edge, producer, layout⟩)
      (follow?_eq_some_iff.2 ⟨rfl, rfl, hproducer, houtput⟩) trivial
  obtain ⟨inputs, hinputs, hall⟩ := Yields.mapM hfollow
  refine ⟨inputs, ?_, ?_⟩
  · simpa [inputs?, hnode] using hinputs
  · simpa using hall.length_eq.symm

theorem WellFormed.exists_view (hg : g.WellFormed) (hnode : g.node? id = some node) :
    ∃ inputs, g.inputs? id = some inputs ∧
      g.view? id = some { graph := g, node, inputs, unpadded := false } := by
  obtain ⟨inputs, hinputs, _⟩ := hg.exists_inputs hnode
  exact ⟨inputs, hinputs, by simp [view?, hnode, hinputs]⟩

theorem WellFormed.exists_realSlots (hg : g.WellFormed) (hnode : g.node? id = some node) :
    ∃ slots, g.realSlots? id = some slots ∧
      ∀ slot, slot ∈ slots ↔ ∃ input, g.input? id slot = some input ∧ input.isReal := by
  obtain ⟨inputs, hinputs, _⟩ := hg.exists_inputs hnode
  refine ⟨_, by simp only [realSlots?, hinputs]; rfl, fun slot => ?_⟩
  simp only [List.mem_map, List.mem_filter]
  constructor
  · rintro ⟨input, ⟨hmem, hreal⟩, rfl⟩
    exact ⟨input, (mem_inputs?_iff hinputs).1 hmem, hreal⟩
  · rintro ⟨input, hinput, hreal⟩
    obtain ⟨_, _, _, rfl, _⟩ := input?_eq_some_iff.1 hinput
    exact ⟨input, ⟨(mem_inputs?_iff hinputs).2 hinput, hreal⟩, rfl⟩

theorem WellFormed.exists_currentClass (hg : g.WellFormed) (hnode : g.node? id = some node) :
    ∃ class', g.currentClass? id = some class' := by
  obtain ⟨inputs, hinputs, _⟩ := hg.exists_inputs hnode
  exact ⟨_, by simp only [currentClass?, hnode, hinputs]; rfl⟩

end

/-! ## What a node reads -/

end Graph

/-- The edge of an input, and what is seen at its other end. -/
def Input.face (input : Input) : Nat × Edge × NodeId × OpKind × Attributes × List Layout :=
  (input.slot, input.edge, input.producer.face)

namespace Graph

/-- Two graphs show an input alike if the edge is the same and the producer has the same face. -/
theorem input?_face_eq {g g' : Graph} {id : NodeId} {slot : Nat} {node node' : Node}
    (hnode : g.node? id = some node) (hnode' : g'.node? id = some node')
    (hdep : node'.deps[slot]? = node.deps[slot]?)
    (hface : ∀ edge, node.deps[slot]? = some edge →
      (g'.node? edge.node).map Node.face = (g.node? edge.node).map Node.face) :
    (g'.input? id slot).map Input.face = (g.input? id slot).map Input.face := by
  simp only [input?, dep?, hnode, hnode', Option.bind_eq_bind, Option.bind_some, hdep]
  cases hedge : node.deps[slot]? with
  | none => rfl
  | some edge =>
    have heq := hface edge hedge
    simp only [Option.bind_some, follow?, Option.bind_eq_bind, Option.pure_def]
    cases hproducer : g.node? edge.node with
    | none =>
      rw [hproducer, Option.map_none, Option.map_eq_none_iff] at heq
      rw [heq]
    | some producer =>
      obtain ⟨producer', hproducer', himage⟩ := exists_of_map_eq heq hproducer
      have houtputs : producer'.outputs = producer.outputs := congrArg (·.2.2.2) himage
      rw [hproducer', Option.bind_some, Option.bind_some, houtputs]
      cases producer.outputs[edge.output]? <;> simp [Input.face, himage]

/-- Graphs of the same content feed a slot alike, except for formats. -/
theorem SameContent.exists_input {g g' : Graph} (h : SameContent g g') {id : NodeId} {slot : Nat}
    {input : Input} (hinput : g.input? id slot = some input) :
    ∃ input', g'.input? id slot = some input' ∧ input'.edge = input.edge ∧
      input'.producer.content = input.producer.content ∧
      input'.layout.withFormat .any = input.layout.withFormat .any := by
  obtain ⟨node, hnode, hdep, hslot, hproducer, houtput⟩ := input?_eq_some_iff.1 hinput
  obtain ⟨node', hnode', hcontent⟩ := h.nodes.exists_new hnode
  obtain ⟨producer', hproducer', hcontent'⟩ := h.nodes.exists_new hproducer
  have hmeaning := (Node.content_eq_iff.1 hcontent').1
  obtain ⟨layout', houtput', hlayout'⟩ :=
    exists_of_map_eq (Node.output_of_meaning hmeaning input.edge.output) houtput
  refine ⟨⟨slot, input.edge, producer', layout'⟩, ?_, rfl, hcontent', hlayout'⟩
  refine input?_eq_some_iff.2 ⟨node', hnode', ?_, rfl, hproducer', houtput'⟩
  rw [(Node.content_eq_iff.1 hcontent).2.1, hdep]

end Graph

end LayoutPlanner
