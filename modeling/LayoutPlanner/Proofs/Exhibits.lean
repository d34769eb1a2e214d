import LayoutPlanner.Proofs.BuiltinVerdicts
import LayoutPlanner.Proofs.Selections
import LayoutPlanner.Proofs.WellFormed

/-!
# What a view shows

A view gives a capability access to the whole graph.  Its exhibit is the part that concerns the
node: the operation, the name, the attributes, the fused operations, and the layouts of inputs and
outputs as shown.

* `Catalog.JudgesBy key`: the entries accept or refuse a node by `key` of its exhibit alone.  The
  built-in entries judge by the exhibit.
* A catalog that does not look at padding tolerates its loss (`JudgesBy.tolerates`).
* Views with the same key are served by the same entry (`JudgesBy.elects`).
* Views of a node in two graphs have the same exhibit if its inputs are shown in the same way
  (`exhibit_eq`).
-/

namespace LayoutPlanner

/-- What is shown of a node.  Each input comes with whether it is real. -/
@[ext]
structure Exhibit where
  op : OpKind
  name : String
  attrs : Attributes
  fused : List FusedOp
  inputs : List (Bool × Layout)
  outputs : List Layout
  deriving DecidableEq

namespace NodeView

def exhibit (view : NodeView) : Exhibit where
  op := view.op
  name := view.node.name
  attrs := view.node.attrs
  fused := view.node.fused
  inputs := view.inputs.map fun input => (input.isReal, view.shown input)
  outputs := view.outputs

variable {v v' : NodeView}

/-- The shape class can be told from the exhibit. -/
theorem shapeClass_of_exhibit
    (hinputs : v'.exhibit.inputs.map (·.2.shape) = v.exhibit.inputs.map (·.2.shape))
    (houtputs : v'.outputs = v.outputs) : v'.shapeClass = v.shapeClass := by
  have hshown (w : NodeView) :
      (w.inputs.map Input.layout).map Layout.shape = w.exhibit.inputs.map (·.2.shape) := by
    rw [exhibit, List.map_map, List.map_map]
    rfl
  have hnode : v'.node.outputs = v.node.outputs := houtputs
  unfold shapeClass ShapeClass.ofLayouts
  simp only [List.map_append, hshown, hinputs, hnode]

end NodeView

/-- The entries go by nothing but `key` of what is shown. -/
def Catalog.JudgesBy {α : Type} (key : Exhibit → α) (catalog : Catalog) : Prop :=
  ∀ {op c}, c ∈ catalog.entries op → ∀ {v v' : NodeView}, key v'.exhibit = key v.exhibit →
    c.accepts v' = c.accepts v

/-- The entries go by nothing but what is shown. -/
abbrev Catalog.JudgesByExhibit (catalog : Catalog) : Prop :=
  catalog.JudgesBy fun shown => shown

namespace Catalog.JudgesBy

variable {α : Type} {key : Exhibit → α} {catalog : Catalog} {v v' : NodeView} {mask : KindMask}

theorem qualifies_iff (h : catalog.JudgesBy key) (hkey : key v'.exhibit = key v.exhibit)
    (hclass : v'.shapeClass = v.shapeClass) {op : OpKind} {c : Capability}
    (hmem : c ∈ catalog.entries op) : c.Qualifies v' mask ↔ c.Qualifies v mask := by
  rw [Catalog.qualifies_iff, Catalog.qualifies_iff, hclass, h hmem hkey]

theorem passes (h : catalog.JudgesBy key) (hkey : key v'.exhibit = key v.exhibit)
    (hop : v'.op = v.op) (hclass : v'.shapeClass = v.shapeClass) (hv : catalog.Passes v mask) :
    catalog.Passes v' mask := by
  intro c hmem hc
  rw [hop] at hmem
  exact hv c hmem ((h.qualifies_iff hkey hclass hmem).1 hc)

theorem elects (h : catalog.JudgesBy key) (hkey : key v'.exhibit = key v.exhibit)
    (hop : v'.op = v.op) (hclass : v'.shapeClass = v.shapeClass) {c : Capability}
    (hv : catalog.Elects v mask c) : catalog.Elects v' mask c := by
  obtain ⟨hc, before, after, hsplit, hbefore⟩ := hv
  have hmem : c ∈ catalog.entries v.op := by simp [hsplit]
  refine ⟨(h.qualifies_iff hkey hclass hmem).2 hc, before, after, hop ▸ hsplit, ?_⟩
  intro earlier hearlier hq
  have hmem : earlier ∈ catalog.entries v.op := by simp [hsplit, hearlier]
  exact hbefore earlier hearlier ((h.qualifies_iff hkey hclass hmem).1 hq)

end Catalog.JudgesBy

theorem NodeView.eases_of_exhibit {v v' : NodeView} (h : v'.exhibit = v.exhibit) : v.Eases v' := by
  have hinputs : v'.exhibit.inputs = v.exhibit.inputs := congrArg Exhibit.inputs h
  refine ⟨congrArg Exhibit.op h, congrArg Exhibit.name h, congrArg Exhibit.attrs h,
    congrArg Exhibit.fused h, congrArg Exhibit.outputs h, ?_⟩
  refine List.forall₂_iff_get.2 ⟨?_, fun slot hlt hlt' => ?_⟩
  · simpa [exhibit] using (congrArg List.length hinputs).symm
  · have hat := congrArg (·[slot]?) hinputs
    simp only [exhibit, List.getElem?_map, List.getElem?_eq_getElem hlt,
      List.getElem?_eq_getElem hlt', Option.map_some, Option.some.injEq, Prod.mk.injEq] at hat
    refine ⟨hat.1, ?_⟩
    rw [List.get_eq_getElem, List.get_eq_getElem, hat.2]
    exact ⟨rfl, rfl, rfl, .inl rfl⟩

/-- The built-in entries judge a node by what is shown of it. -/
theorem Builtin.judgesByExhibit : Builtin.catalog.JudgesByExhibit := by
  intro op c hmem v v' hkey
  obtain ⟨d, hd, rfl⟩ := mem_entries_iff.1 hmem
  rw [Bool.eq_iff_iff]
  exact ⟨stable_of_mem hd (NodeView.eases_of_exhibit hkey.symm),
    stable_of_mem hd (NodeView.eases_of_exhibit hkey)⟩

/-! ## Judging without padding -/

/-- What is shown, up to padding and whether inputs are real. -/
def Exhibit.unpadded (shown : Exhibit) : Exhibit :=
  { shown with
    inputs := shown.inputs.map fun (_, layout) => (true, { layout with padding := {} })
    outputs := shown.outputs.map fun layout => { layout with padding := {} } }

theorem NodeView.Eases.unpadded_eq {v v' : NodeView} (h : v.Eases v') :
    v'.exhibit.unpadded = v.exhibit.unpadded := by
  refine Exhibit.ext h.op h.name h.attrs h.fused ?_ ?_
  · simp only [Exhibit.unpadded, NodeView.exhibit, List.map_map]
    symm
    rw [← List.forall₂_eq_eq_eq, List.forall₂_map_left_iff, List.forall₂_map_right_iff]
    refine h.inputs.imp fun a b hinput => ?_
    simp only [Function.comp_apply, hinput.2.shape, hinput.2.dtype, hinput.2.format]
  · simp only [Exhibit.unpadded, NodeView.exhibit, NodeView.outputs, h.outputs]

theorem Catalog.JudgesBy.tolerates {catalog : Catalog} (h : catalog.JudgesBy Exhibit.unpadded) :
    catalog.Tolerates := by
  intro op c hmem v v' heases haccepts
  rw [h hmem heases.unpadded_eq, haccepts]

/-! ## Views of one node in two graphs -/

/-- An input as the node sees it. -/
def Node.seen (node : Node) (input : Input) : Bool × Layout :=
  (input.isReal, node.shownInput false input)

namespace Graph

variable {g g' : Graph} {id : NodeId} {v v' : NodeView}

theorem seen_of_view? (hview : g.view? id = some v) (slot : Nat) :
    v.exhibit.inputs[slot]? = (g.input? id slot).map v.node.seen := by
  obtain ⟨node, inputs, hnode, hinputs, rfl⟩ := view?_eq_some_iff.1 hview
  rw [NodeView.exhibit, List.getElem?_map, getElem?_of_inputs? hinputs]
  rfl

theorem exhibit_inputs_eq {α : Type} (key : Bool × Layout → α) (hview : g.view? id = some v)
    (hview' : g'.view? id = some v')
    (h : ∀ slot, (g'.input? id slot).map (key ∘ v'.node.seen) =
      (g.input? id slot).map (key ∘ v.node.seen)) :
    v'.exhibit.inputs.map key = v.exhibit.inputs.map key := by
  apply List.ext_getElem?
  intro slot
  rw [List.getElem?_map, List.getElem?_map, seen_of_view? hview, seen_of_view? hview',
    Option.map_map, Option.map_map, h]

end Graph

end LayoutPlanner
