import LayoutPlanner.Builtin.Catalog
import LayoutPlanner.Proofs.ShownLayouts
import LayoutPlanner.Proofs.Turns

/-!
# Unpadded views

A capability of the vendor is chosen by a view that leaves out padding which is still there.  The
padding goes away much later, when the node is visited.  Until then the view is a prediction, and
here it is shown to come true.

* On one slot: what the repair delivers is shown as the unpadded view showed the input before
  (`Node.shownInput_of_vendorPadding`), and where it demands nothing the two views agree
  (`Node.shownInput_of_unpadded`).
* The loop over the slots puts this together, whichever reorders it makes, shares or gives a new
  target (`Repaired.shown_eq`).
* No other node is shown anything new (`Served.inputLayouts_eq`).
-/

namespace LayoutPlanner

/-! ## One input -/

/-- Without padding to strip, an unpadded view shows an input as any view does. -/
theorem Node.shownInput_of_unpadded {node : Node} {input : Input}
    (h : input.isReal → Repair.vendorPadding node input = none) :
    node.shownInput true input = node.shownInput false input := by
  by_cases hreal : input.isReal
  · rcases Repair.vendorPadding_eq_none_iff.1 (h hreal) with hshared | hplain
    · simp [shownInput, hshared]
    · simp [shownInput, hplain]
  · simp [shownInput, hreal]

/-- The input that was demanded is shown as the unpadded view showed the one before. -/
theorem Node.shownInput_of_vendorPadding {node node' : Node} {input input' : Input}
    {demand : Demand} (h : Repair.vendorPadding node input = some demand) (hreal : input.isReal)
    (hcore : node'.core = node.core) (hslot : input'.slot = input.slot)
    (hlayout : input'.layout = demand.target) :
    node'.shownInput false input' = node.shownInput true input := by
  unfold Repair.vendorPadding at h
  split at h <;> cases h
  next hbare =>
    have hformat : input'.layout.format = node.wantedFormat input.slot input.layout := by
      rw [hlayout]
    have hdtype : input'.layout.dtype = node.wantedType input.slot input.layout := by
      rw [hlayout]
    rw [Node.shownInput_false, Node.wantedType_of_core hcore, Node.prefers_of_core hcore, hslot,
      Node.wantedType_eq_dtype hdtype, hdtype, hformat, hlayout]
    simp only [shownInput, hreal, Bool.true_and, hbare, if_true, Layout.mk.injEq, true_and,
      and_true]
    unfold Format.orElse Node.wantedFormat
    split
    next hany => rw [hany]
    next => rfl

/-! ## All inputs -/

namespace Graph

variable {g : Graph} {id : NodeId} {node : Node}

/-- The layouts that a view shows, slot by slot. -/
theorem getElem?_inputLayouts {inputs : List Input} (hinputs : g.inputs? id = some inputs)
    (node : Node) (unpadded : Bool) (slot : Nat) :
    ({ graph := g, node, inputs, unpadded } : NodeView).inputLayouts[slot]? =
      (g.input? id slot).map (node.shownInput unpadded) := by
  rw [NodeView.inputLayouts, List.getElem?_map, getElem?_of_inputs? hinputs]
  rfl

theorem WellFormed.exists_unpaddedView (hg : g.WellFormed) (hnode : g.node? id = some node) :
    ∃ inputs, g.inputs? id = some inputs ∧
      g.unpaddedView? id = some { graph := g, node, inputs, unpadded := true } := by
  obtain ⟨inputs, hinputs, hview⟩ := hg.exists_view hnode
  exact ⟨inputs, hinputs, by simp [unpaddedView?, hview]⟩

end Graph

namespace Reconciliation

variable {start : Graph} {cx : Context} {id : NodeId} {s s' : Reconciliation}

/-- After padding was stripped from the real inputs, each slot shows what it was to show. -/
theorem Repaired.shown_eq {slots : List Nat} (hs : Sound start s)
    (h : Repaired start id (fun _ => Repair.vendorPadding) slots s s') {node node' : Node}
    (hnode : s.graph.node? id = some node) (hslots : s.graph.realSlots? id = some slots)
    (hcore : node'.core = node.core) (slot : Nat) :
    (s'.graph.input? id slot).map (node'.shownInput false) =
      (s.graph.input? id slot).map (node.shownInput true) := by
  have hkept : ∀ {input}, s.graph.input? id slot = some input →
      (s'.graph.input? id slot).map Input.face = some input.face →
      (input.isReal → Repair.vendorPadding node input = none) →
      (s'.graph.input? id slot).map (node'.shownInput false) =
        some (node.shownInput true input) := by
    intro input hinput hface hnone
    obtain ⟨input', hinput', hface⟩ := Option.map_eq_some_iff.1 hface
    rw [hinput', Option.map_some, Node.shownInput_of_unpadded hnone,
      Node.shownInput_congr (Node.prefers_of_core hcore) (Node.op_of_core hcore)
        (congrArg (·.1) hface) (Input.layout_of_face hinput' hinput hface)]
  obtain ⟨_, hfound, hreal⟩ := hs.wellFormed.exists_realSlots hnode
  obtain rfl := Option.some.inj (hslots.symm.trans hfound)
  by_cases hmem : slot ∈ slots
  · obtain ⟨input, hinput, hinput_real⟩ := (hreal slot).1 hmem
    rw [hinput, Option.map_some]
    rcases h.done hmem hnode hinput with ⟨hnone, hface⟩ | ⟨demand, input', hsome, hdelivered⟩
    · exact hkept hinput hface fun _ => hnone
    · have hslot : input'.slot = input.slot := by
        rw [Graph.slot_of_input? hinput, Graph.slot_of_input? hdelivered.at_slot]
      rw [hdelivered.at_slot, Option.map_some, Node.shownInput_of_vendorPadding hsome hinput_real
        hcore hslot hdelivered.layout_eq]
  · have hface := h.untouched hmem
    cases hinput : s.graph.input? id slot with
    | none =>
      rw [hinput, Option.map_none, Option.map_eq_none_iff] at hface
      rw [hface]
      rfl
    | some input =>
      rw [hinput, Option.map_some] at hface
      exact hkept hinput hface fun hinput_real =>
        absurd ((hreal slot).2 ⟨input, hinput, hinput_real⟩) hmem

/-- Repairs of a node leave alone what the others are shown. -/
theorem Served.inputLayouts_eq (hs : Sound start s) (h : Served start id s s') {other : NodeId}
    (hlt : other.index < start.size) (hne : other ≠ id) :
    ∃ before after, s.graph.view? other = some before ∧ s'.graph.view? other = some after ∧
      after.inputLayouts = before.inputLayouts := by
  obtain ⟨node, hnode⟩ := Graph.exists_node (Nat.lt_of_lt_of_le hlt hs.grown)
  obtain ⟨node', hnode', hbare⟩ := exists_of_map_eq (h.others other hlt hne) hnode
  have hcore := Node.core_of_bare hbare
  obtain ⟨inputs, hinputs, hview⟩ := hs.wellFormed.exists_view hnode
  obtain ⟨inputs', hinputs', hview'⟩ := h.sound.wellFormed.exists_view hnode'
  refine ⟨_, _, hview, hview', List.ext_getElem? fun slot => ?_⟩
  rw [Graph.getElem?_inputLayouts hinputs, Graph.getElem?_inputLayouts hinputs']
  have hface := h.inputs slot hlt hne
  cases hinput : s.graph.input? other slot with
  | none =>
    rw [hinput, Option.map_none, Option.map_eq_none_iff] at hface
    rw [hface]
    rfl
  | some input =>
    obtain ⟨input', hinput', hface⟩ := exists_of_map_eq hface hinput
    rw [hinput', Option.map_some, Option.map_some,
      Node.shownInput_congr (Node.prefers_of_core hcore) (Node.op_of_core hcore)
        (congrArg (·.1) hface) (Input.layout_of_face hinput' hinput hface)]

/-! ## The prediction -/

/-- From `s` to `s'` the node `id` loses the padding that its unpadded view left out: it is shown
what the view foretold, and nothing else about it or about what others are shown has changed. -/
structure Foretold (start : Graph) (id : NodeId) (s s' : Reconciliation) : Prop where
  self : ∃ foretold seen, s.graph.unpaddedView? id = some foretold ∧
    s'.graph.view? id = some seen ∧ seen.inputLayouts = foretold.inputLayouts ∧
    seen.outputs = foretold.outputs ∧ seen.node.prefers = foretold.node.prefers
  others : ∀ other : NodeId, other.index < start.size → other ≠ id → ∃ before after,
    s.graph.view? other = some before ∧ s'.graph.view? other = some after ∧
    after.inputLayouts = before.inputLayouts

theorem foretold_of_unpadVendor? (hstart : start.WellFormed) (hs : Sound start s)
    (hid : id.index < start.size) {node : Node} (hnode : s.graph.node? id = some node)
    (hkind : expectedKind node = some .vendor) (h : s.unpadVendor? id = some s') :
    Foretold start id s s' := by
  rcases vendor_cases hnode h with ⟨hother, _⟩ | ⟨_, slots, hslots, h⟩
  · exact absurd hkind hother
  have hloop := loop_vendor hnode hs.wellFormed hslots hkind
  have hrepaired := ((hloop.spec hstart hs hid).post_of_eq h).1
  obtain ⟨node', hnode', hcore, _⟩ := hrepaired.served.self hnode
  obtain ⟨inputs, hinputs, hview⟩ := hs.wellFormed.exists_unpaddedView hnode
  obtain ⟨inputs', hinputs', hview'⟩ := hrepaired.served.sound.wellFormed.exists_view hnode'
  refine ⟨⟨_, _, hview, hview', List.ext_getElem? fun slot => ?_, Node.outputs_of_core hcore,
    Node.prefers_of_core hcore⟩, fun other hlt hne => hrepaired.served.inputLayouts_eq hs hlt hne⟩
  rw [Graph.getElem?_inputLayouts hinputs, Graph.getElem?_inputLayouts hinputs']
  exact hrepaired.shown_eq hs hnode hslots hcore slot

/-- Wherever a run of edge agreement has come to, the visit of the node that is next goes well, and
if the node is heading for the vendor, its unpadded view foretells what stripping its padding
does. -/
theorem foretold_of_turn {start : Graph} (hstart : start.Reached) {cx : Context} {id : NodeId}
    {s : Reconciliation} (hturn : Turn cx start id s) :
    ∃ s₁ s₂ s₃ before after s₆ s', visit? cx s id = some s' ∧
      Stages cx id s s₁ s₂ s₃ before after s₆ s' ∧
      ∃ node, before.graph.node? id = some node ∧
        (expectedKind node = some .vendor → Foretold start id before after) := by
  obtain ⟨s₁, s₂, s₃, s₄, s₅, s₆, s', hvisit, hstages, hmidway, _⟩ := hturn.exists_stages hstart
  obtain ⟨g₀, hg₀⟩ := hstart.exists_steady
  obtain ⟨old, hold, _⟩ := hturn.due
  have hid := Graph.lt_size_of_node? hold
  obtain ⟨node, hnode⟩ := Graph.exists_node (Nat.lt_of_lt_of_le hid hmidway.sound.grown)
  exact ⟨s₁, s₂, s₃, s₄, s₅, s₆, s', hvisit, hstages, node, hnode, fun hkind =>
    foretold_of_unpadVendor? hg₀.wellFormed hmidway.sound hid hnode hkind hstages.vendor⟩

/-- Two convolutions of bytes that read one image, which is padded on its features and in space. -/
def paddedTwins : List NodeDecl :=
  let filtered : NodeDecl :=
    { name := "filtered", op := .convolution, inputs := [⟨⟨0⟩, 0⟩],
      outputs := [⟨.ofExtents [1, 16, 8, 8], .si8, .any, {}⟩],
      attrs := .convolution (.ofKernel [3, 3]) }
  [{ name := "image", op := .input,
     outputs := [⟨.ofExtents [1, 16, 8, 8], .si8, .bfyx, .of [0, 2, 1, 1] [0, 0, 1, 1]⟩] },
    filtered, filtered]

/-- The second convolution is due.  Its padding is stripped by the reorder that the first one got,
and its unpadded view knew. -/
theorem foretold_paddedTwins : ∃ g swept s, Graph.build? paddedTwins = some (.ok g) ∧
    Stage.propagation.run? { catalog := Builtin.catalog } g = some swept ∧
    Turn { catalog := Builtin.catalog } swept.graph ⟨2⟩ s ∧
    (s.graph.node? ⟨2⟩).map expectedKind = some (some .vendor) ∧
    (s.graph.input? ⟨2⟩ 0).map (·.layout.padding.hasSpatial) = some true ∧
    (s.unpadVendor? ⟨2⟩).map (·.graph.dep? ⟨2⟩ 0) = some (some ⟨⟨3⟩, 0⟩) ∧
    ∃ s₁ s₂ s₃ before after s₆ s', visit? { catalog := Builtin.catalog } s ⟨2⟩ = some s' ∧
      Stages { catalog := Builtin.catalog } ⟨2⟩ s s₁ s₂ s₃ before after s₆ s' ∧
      ∃ node, before.graph.node? ⟨2⟩ = some node ∧
        (expectedKind node = some .vendor → Foretold swept.graph ⟨2⟩ before after) := by
  refine ⟨?g, ?swept, ?s, ?build, ?sweep, ?turn, ?vendor, ?padded, ?shared,
    foretold_of_turn (.stage (.built ?build) ?sweep) ?turn⟩
  case build => rfl
  case sweep => rfl
  case turn =>
    refine ⟨⟨[⟨0⟩, ⟨1⟩], ⟨[], rfl⟩, ?_⟩, ?_, _, rfl, List.cons_ne_nil _ _, rfl⟩
    · rfl
    · rfl
  case vendor => rfl
  case padded => rfl
  case shared => rfl

end Reconciliation

end LayoutPlanner
