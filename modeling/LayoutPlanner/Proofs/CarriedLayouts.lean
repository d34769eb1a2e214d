import LayoutPlanner.Proofs.Visits

/-!
# Carried layouts

What holds of all layouts that nodes read when edge agreement begins can hold of all layouts that
they read while it goes on.  A reorder is put on an edge that was read from the start, and what it
produces is demanded in view of what it reads.

* `Inherits`: a property of layouts that no change to a node and no demand loses.
* `Carries`: every edge carries layouts with the property.  It holds all through a run
  (`carries_of_run`).
-/

namespace LayoutPlanner

namespace Reconciliation

variable {start : Graph} {cx : Context} {id : NodeId} {s s' : Reconciliation}
  {good : Layout → Prop}

/-- A property that the outputs of a node keep, and that a demanded layout has if the input has
it. -/
structure Inherits (good : Layout → Prop) : Prop where
  change : ∀ {node node' : Node}, Change node node' → (∀ layout ∈ node.outputs, good layout) →
    ∀ layout ∈ node'.outputs, good layout
  demand : ∀ {s : Reconciliation} {node : Node} {input : Input} {demand : Demand},
    Demands s node input demand → good input.layout → good demand.target

/-- The nodes that were read at the start put out good layouts only, and so do the reorders, which
read what was read at the start. -/
structure Carries (good : Layout → Prop) (start : Graph) (s : Reconciliation) : Prop where
  read : ∀ {reader slot edge node}, start.dep? reader slot = some edge →
    s.graph.node? edge.node = some node → ∀ layout ∈ node.outputs, good layout
  new : ∀ {id node}, start.size ≤ id.index → s.graph.node? id = some node →
    (∀ layout ∈ node.outputs, good layout) ∧
      ∃ reader slot edge, start.dep? reader slot = some edge ∧ node.deps = [edge]

/-- An edge of the start leads to an old node. -/
theorem lt_size_of_dep (hstart : start.WellFormed) {reader : NodeId} {slot : Nat} {edge : Edge}
    (h : start.dep? reader slot = some edge) : edge.node.index < start.size := by
  obtain ⟨node, hnode, hdep⟩ := Option.bind_eq_some_iff.1 h
  obtain ⟨_, hlayout⟩ := hstart.produced hnode (List.mem_of_getElem? hdep)
  obtain ⟨_, hproducer, _⟩ := Graph.layoutAt?_eq_some_iff.1 hlayout
  exact Graph.lt_size_of_node? hproducer

/-- Every input has a good layout. -/
theorem Carries.input (h : Carries good start s) (hs : Sound start s) {slot : Nat} {input : Input}
    (hinput : s.graph.input? id slot = some input) : good input.layout := by
  obtain ⟨node, hnode, hdep, _, hproducer, houtput⟩ := Graph.input?_eq_some_iff.1 hinput
  have hmem := List.mem_of_getElem? houtput
  by_cases hlt : id.index < start.size
  · have hcurrent : s.graph.dep? id slot = some input.edge := by simp [Graph.dep?, hnode, hdep]
    obtain ⟨edge, hedge, hfeeds⟩ := hs.exists_slot hlt hcurrent
    rcases hfeeds with heq | ⟨reorder, _, heq, hle, _⟩
    · exact h.read (heq ▸ hedge) hproducer input.layout hmem
    · rw [heq] at hproducer
      exact (h.new hle hproducer).1 input.layout hmem
  · obtain ⟨_, reader, other, edge, hedge, hdeps⟩ := h.new (Nat.not_lt.1 hlt) hnode
    obtain rfl : input.edge = edge := by
      rw [hdeps, List.getElem?_singleton] at hdep
      split at hdep
      · exact (Option.some.inj hdep).symm
      · cases hdep
    exact h.read hedge hproducer input.layout hmem

/-- What has to be known of a step for it to keep all layouts good. -/
theorem Carries.step (h : Carries good start s) (hgood : Inherits good) (hstart : start.WellFormed)
    (hold : ∀ {other node'}, other.index < start.size → s'.graph.node? other = some node' →
      ∃ node, s.graph.node? other = some node ∧ Change node node')
    (hnew : ∀ {other node'}, start.size ≤ other.index → s'.graph.node? other = some node' →
      (∃ node, s.graph.node? other = some node ∧ node'.bare = node.bare) ∨
        ∃ target, node'.outputs = [target] ∧ good target ∧
          ∃ reader slot edge, start.dep? reader slot = some edge ∧ node'.deps = [edge]) :
    Carries good start s' := by
  refine ⟨fun hedge hnode' => ?_, fun hle hnode' => ?_⟩
  · obtain ⟨node, hnode, hchange⟩ := hold (lt_size_of_dep hstart hedge) hnode'
    exact hgood.change hchange (h.read hedge hnode)
  · rcases hnew hle hnode' with ⟨node, hnode, hbare⟩ | ⟨target, houtputs, htarget, hedge⟩
    · rw [Node.outputs_of_bare hbare, Node.deps_of_bare hbare]
      exact h.new hle hnode
    · refine ⟨fun layout hmem => ?_, hedge⟩
      rw [houtputs, List.mem_singleton] at hmem
      rw [hmem]
      exact htarget

/-- A local edit of an old node leaves the reorders alone. -/
theorem bare_of_localEdit (hid : id.index < start.size) {g g' : Graph}
    (hedit : Graph.LocalEdit id g g') {other : NodeId} (hle : start.size ≤ other.index)
    {node' : Node} (hnode' : g'.node? other = some node') :
    ∃ node, g.node? other = some node ∧ node'.bare = node.bare := by
  refine hedit.exists_other ?_ hnode'
  rintro rfl
  omega

theorem Carries.move (h : Carries good start s) (hgood : Inherits good) (hstart : start.WellFormed)
    (hs : Sound start s) (hid : id.index < start.size) (hmove : Move id s s') :
    Carries good start s' := by
  obtain ⟨node, hnode⟩ := Graph.exists_node (Nat.lt_of_lt_of_le hid hs.grown)
  refine h.step hgood hstart (fun hlt => hmove.change hstart hs hid hlt) fun hle hnode' => ?_
  cases hmove with
  | settle hsettle =>
    have hedit := ((Graph.settle?_spec hs.wellFormed hnode).post_of_eq hsettle).1
    exact Or.inl (bare_of_localEdit hid hedit hle hnode')
  | invalidate hinvalidate =>
    have hedit := ((Graph.invalidate?_spec hs.wellFormed hnode).post_of_eq hinvalidate).1
    exact Or.inl (bare_of_localEdit hid hedit hle hnode')
  | convert _ hinput hdemands hconvert =>
    have hconverted :=
      (convert?_spec hstart hs hid hinput hdemands.shape_eq _).post_of_eq hconvert
    have htarget := hgood.demand hdemands (h.input hs hinput)
    rcases hconverted.reorders hle hnode' with hkept | ⟨houtputs, edge, hedge, hdeps⟩
    · exact Or.inl hkept
    · exact Or.inr ⟨_, houtputs, htarget, _, _, edge, hedge, hdeps⟩

theorem Carries.legalized (h : Carries good start s) (hgood : Inherits good)
    (hstart : start.WellFormed) (hs : Sound start s) (hid : id.index < start.size)
    (hlegalized : Legalized cx id s s') : Carries good start s' :=
  h.step hgood hstart (fun hlt => hlegalized.change hs hid hlt) fun hle hnode' =>
    Or.inl (bare_of_localEdit hid hlegalized.edit hle hnode')

theorem carries_start (h : ∀ {reader slot edge node}, start.dep? reader slot = some edge →
    start.node? edge.node = some node → ∀ layout ∈ node.outputs, good layout) :
    Carries good start { graph := start } :=
  ⟨h, fun hle hnode => absurd (Graph.lt_size_of_node? hnode) (Nat.not_lt.2 hle)⟩

theorem carries_of_run (hstart : start.Ordered) (hgood : Inherits good)
    (h : Carries good start { graph := start }) :
    Yields (start.order.foldlM (visit? cx) { graph := start }) fun s =>
      Sound start s ∧ Carries good start s := by
  refine run?_inv hstart (Carries good start) h ?_ ?_
  · exact fun hid hs h hmove => h.move hgood hstart.wellFormed hs hid hmove
  · exact fun hid hs h hlegalized => h.legalized hgood hstart.wellFormed hs hid hlegalized

end Reconciliation

end LayoutPlanner
