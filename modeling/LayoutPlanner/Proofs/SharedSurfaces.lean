import LayoutPlanner.Proofs.ChosenFormats
import LayoutPlanner.Proofs.Detours

/-!
# Shared surfaces

A shared surface is a reorder whose readers are to take what it produces as it is.  Vendor padding
and edge agreement leave such a slot alone, and operands are repaired only if a constant feeds them.
The other two repairs do not ask who feeds the slot, so a reorder can still end up between a surface
and its reader.  `Node.Overrides` says when, in terms of the graph as propagation leaves it: the
formats of a normalization are settled by then (`Stages.first_output`).

A slot is followed through the visit of its node by its edge alone: no repair that has nothing to
demand moves it, and no conversion points it back (`Repaired.dep?_iff`).
-/

namespace LayoutPlanner

/-- The node does not take what it reads as it is, whatever feeds it: it stores it in another type,
or it is a normalization in a format that rejects the spatial padding of the input. -/
def Node.Overrides (node : Node) (input : Input) : Prop :=
  node.isReorder = false ∧ ((node.storedType? input.slot input.layout).isSome ∨
    node.op = .normalization ∧ input.layout.padding.hasSpatial = true ∧
      node.outputs[0]?.any fun output =>
        (((node.prefers.input input.slot).orElse output.format).adaptTo
          input.layout.rank).rejectsSpatialPadding)

instance (node : Node) (input : Input) : Decidable (node.Overrides input) :=
  inferInstanceAs (Decidable (_ ∧ (_ ∨ _ ∧ _ ∧ _)))

theorem Repair.normalizationPadding_eq_none_iff {output : Layout} {node : Node} {input : Input} :
    normalizationPadding output node input = none ↔ ¬(input.layout.padding.hasSpatial = true ∧
      (((node.prefers.input input.slot).orElse output.format).adaptTo
        input.layout.rank).rejectsSpatialPadding = true) := by
  unfold normalizationPadding
  dsimp only
  rw [← Bool.and_eq_true]
  split <;> simp_all

/-- In a well-formed graph, whatever feeds a slot is an input. -/
theorem Graph.WellFormed.dep?_eq {g : Graph} (hg : g.WellFormed) (id : NodeId) (slot : Nat) :
    g.dep? id slot = (g.input? id slot).map Input.edge := by
  cases hdep : g.dep? id slot with
  | none => simp [input?, hdep]
  | some edge =>
    obtain ⟨node, hnode, hget⟩ := dep?_eq_some_iff.1 hdep
    obtain ⟨input, hinput⟩ := hg.exists_input hnode (List.getElem?_eq_some_iff.1 hget).1
    obtain ⟨_, hfound, hget', _⟩ := input?_eq_some_iff.1 hinput
    obtain rfl := Option.some.inj (hnode.symm.trans hfound)
    rw [hinput, Option.map_some, ← hget, hget']

/-- An input that shows the same is fed by the same edge. -/
theorem Input.edge_of_map_face {a b : Option Input} (h : a.map face = b.map face) :
    a.map edge = b.map edge := by
  simpa [Function.comp_def, face] using congrArg (Option.map fun shown => shown.2.1) h

namespace Reconciliation

variable {start : Graph} {cx : Context} {id : NodeId} {slot : Nat} {old node : Node}
  {input : Input} {edge : Edge} {s s' : Reconciliation}

/-! ## Where the edge of a slot goes -/

theorem Delivered.dep?_ne {target : Layout} (h : Delivered start slot target s.graph id input)
    (hs : Sound start s) (hedge : edge.node.index < start.size) :
    s.graph.dep? id slot ≠ some edge := by
  rw [hs.wellFormed.dep?_eq, h.at_slot, Option.map_some]
  intro heq
  have hbeyond := h.beyond
  rw [hs.wellFormed.producer_id h.at_slot, Option.some.inj heq] at hbeyond
  omega

/-- After a loop of repairs, a slot reads an old edge if it did before and nothing was demanded. -/
theorem Repaired.dep?_iff {repair : Reconciliation → Repair} {slots : List Nat}
    (h : Repaired start id repair slots s s') (hs : Sound start s)
    (hnode : s.graph.node? id = some node) (hinput : s.graph.input? id slot = some input)
    (hedge : edge.node.index < start.size) :
    s'.graph.dep? id slot = some edge ↔
      s.graph.dep? id slot = some edge ∧ (slot ∈ slots → repair s node input = none) := by
  have hs' := h.served.sound
  have hsame (hface : (s'.graph.input? id slot).map Input.face =
      (s.graph.input? id slot).map Input.face) : s'.graph.dep? id slot = s.graph.dep? id slot := by
    rw [hs'.wellFormed.dep?_eq, hs.wellFormed.dep?_eq, Input.edge_of_map_face hface]
  by_cases hmem : slot ∈ slots
  · rcases h.done hmem hnode hinput with ⟨hnone, hface⟩ | ⟨demand, input', hdemand, hdelivered⟩
    · rw [hsame (by rw [hface, hinput, Option.map_some])]
      exact (and_iff_left fun _ => hnone).symm
    · refine iff_of_false (hdelivered.dep?_ne hs' hedge) ?_
      rintro ⟨_, hnone⟩
      rw [hnone hmem] at hdemand
      cases hdemand
  · rw [hsame (h.untouched hmem)]
    exact (and_iff_left fun hin => absurd hin hmem).symm

/-- A slot that reads its old edge finds there what it found at the start, up to formats. -/
theorem Sound.exists_direct (hs : Sound start s) (hinput : start.input? id slot = some input)
    (hdep : s.graph.dep? id slot = some input.edge) :
    ∃ found, s.graph.input? id slot = some found ∧ found.slot = slot ∧
      found.producer.meaning = input.producer.meaning ∧
      found.layout.withFormat .any = input.layout.withFormat .any := by
  obtain ⟨_, _, _, _, hproducer, hlayout⟩ := Graph.input?_eq_some_iff.1 hinput
  obtain ⟨node, hnode, hget⟩ := Graph.dep?_eq_some_iff.1 hdep
  obtain ⟨producer, hproducer', hmeaning, _⟩ := hs.kept hproducer
  obtain ⟨layout, hlayout', heq⟩ :=
    exists_of_map_eq (Node.output_of_meaning hmeaning input.edge.output) hlayout
  refine ⟨⟨slot, input.edge, producer, layout⟩, ?_, rfl, hmeaning, heq⟩
  exact Graph.input?_eq_some_iff.2 ⟨node, hnode, hget, rfl, hproducer', hlayout'⟩

/-! ## The stages of a visit -/

section

variable (hstart : start.Ordered) (hid : id.index < start.size)

include hstart hid

theorem dep?_iff_of_convertState? (hs : Sound start s) (hnode : s.graph.node? id = some node)
    (hinput : s.graph.input? id slot = some input) (hedge : edge.node.index < start.size)
    (h : s.convertState? id = some s') :
    s'.graph.dep? id slot = some edge ↔
      s.graph.dep? id slot = some edge ∧ node.storedType? slot input.layout = none := by
  cases stateRepair_of_convertState? hnode h with
  | rests hnone => exact (and_iff_left (storedType?_of_rests hnone hinput)).symm
  | @converts found demand s₁ g₂ g₃ hfound hdemand hconvert hinvalidate hsettle =>
    have hconverted := (convert?_spec hstart.wellFormed hs hid hfound
      (Repair.lawful_stateType.shape_eq (s := s) hdemand) _).post_of_eq hconvert
    obtain ⟨_, hnode₁, _⟩ := hconverted.core_eq hnode
    have hedit := localEdit_of_resettle hconverted.sound.wellFormed hnode₁ hinvalidate hsettle
    have hresettled : (s₁.withGraph g₃).graph.dep? id slot = s₁.graph.dep? id slot := by
      have hresettled : (s₁.withGraph g₃).graph.WellFormed :=
        hedit.wellFormed hconverted.sound.wellFormed
      rw [hresettled.dep?_eq, hconverted.sound.wellFormed.dep?_eq]
      exact Input.edge_of_map_face (hconverted.sound.input?_face_eq hstart hid hedit slot)
    rw [hresettled]
    by_cases hzero : slot = 0
    · subst hzero
      obtain rfl := Option.some.inj (hinput.symm.trans hfound)
      obtain ⟨_, hdelivered⟩ :=
        hconverted.exists_delivered hnode (Graph.lt_length_of_input? hnode hinput)
      refine iff_of_false (hdelivered.dep?_ne hconverted.sound hedge) ?_
      rintro ⟨_, hnone⟩
      rw [Repair.stateType_eq (Graph.slot_of_input? hinput), hnone] at hdemand
      cases hdemand
    · have hface : (s₁.graph.input? id slot).map Input.face =
          (s.graph.input? id slot).map Input.face :=
        hconverted.inputs hid fun heq => hzero heq.2
      rw [hconverted.sound.wellFormed.dep?_eq, hs.wellFormed.dep?_eq,
        Input.edge_of_map_face hface]
      exact (and_iff_left (Node.storedType?_of_ne_zero hzero _)).symm

end

/-- Settling keeps the first output of a node, once a format has been chosen for it. -/
theorem Moves.first_output (hstart : start.WellFormed) (hs : Sound start s)
    (hid : id.index < start.size) (h : Moves id s s') {node' : Node} {output : Layout}
    (hnode : s.graph.node? id = some node) (hhonours : node.Honours)
    (houtput : node.outputs[0]? = some output) (hchosen : output.format.isChosen = true)
    (hnode' : s'.graph.node? id = some node') : node'.outputs[0]? = some output := by
  refine (Moves.inv hstart hs hid (fun s => ∀ node, s.graph.node? id = some node →
    node.Honours ∧ node.outputs[0]? = some output) ?_ h ?_ node' hnode').2
  · intro s₁ s₂ hs₁ hinv hmove node₂ hnode₂
    obtain ⟨node₁, hnode₁⟩ := Graph.exists_node (Nat.lt_of_lt_of_le hid hs₁.grown)
    obtain ⟨hhonours₁, houtput₁⟩ := hinv node₁ hnode₁
    rcases hmove.core_cases hstart hs₁ hid hnode₁ hnode₂ with hsame | ⟨inherited, hsettled⟩
    · exact ⟨hhonours₁.of_core hsame.symm, by rw [Node.outputs_of_core hsame, houtput₁]⟩
    · have hsettles := node₁.settlesTo_afterSettling inherited
      refine ⟨(hsettles.honours hhonours₁).of_core hsettled.symm, ?_⟩
      rw [Node.outputs_of_core hsettled, hsettles.chosen hhonours₁ houtput₁ hchosen]
  · intro found hfound
    obtain rfl := Option.some.inj (hnode.symm.trans hfound)
    exact ⟨hhonours, houtput⟩

/-- A normalization strips padding in the format that propagation has settled on. -/
theorem Stages.first_output {s₁ s₂ s₃ s₄ s₅ s₆ : Reconciliation} (hstart : start.WellFormed)
    (hs : Sound start s) (hold : start.node? id = some old) (hdeps : old.deps ≠ [])
    (hfresh : (s.graph.node? id).map Node.bare = some old.bare)
    (hhonours : old.Honours) (hchosen : ¬old.Open 0) (h : Stages cx id s s₁ s₂ s₃ s₄ s₅ s₆ s')
    {node₃ : Node} (hnode₃ : s₃.graph.node? id = some node₃) :
    node₃.outputs[0]? = old.outputs[0]? := by
  have hid := Graph.lt_size_of_node? hold
  obtain ⟨before, hbefore, hbare⟩ := Option.map_eq_some_iff.1 hfresh
  obtain ⟨g, hsettle, rfl⟩ := h.settled
  have h₁ := (settle_advanced hs hid hbefore).post_of_eq hsettle
  obtain ⟨node₁, hnode₁⟩ := Graph.exists_node (Nat.lt_of_lt_of_le hid h₁.sound.grown)
  have hdeps₁ : node₁.deps ≠ [] := by
    rw [← List.length_pos_iff, h₁.sound.length_deps hold hnode₁]
    exact List.length_pos_iff.2 hdeps
  have h₂ := (convertState?_spec hstart h₁.sound hid hnode₁ hdeps₁).post_of_eq h.state
  obtain ⟨node₂, hnode₂⟩ := Graph.exists_node (Nat.lt_of_lt_of_le hid h₂.sound.grown)
  have h₃ : Moves id s₂ s₃ := by
    rcases operands_cases hnode₂ h.operands with ⟨_, rfl⟩ | ⟨_, output, houtput, hrun⟩
    · exact .refl
    · exact (((loop_operands hnode₂ houtput).spec hstart h₂.sound hid).post_of_eq hrun).2
  obtain ⟨output, houtput⟩ := hstart.exists_output hold
  rw [houtput]
  refine Moves.first_output hstart hs hid ((h₁.moves.trans h₂.moves).trans h₃) hbefore
    (hhonours.congr hbare.symm) (by rw [Node.outputs_of_bare hbare, houtput]) ?_ hnode₃
  exact Format.isChosen_iff_ne.2 fun hany => hchosen ⟨output, houtput, hany⟩

section Turn

variable (hold : start.node? id = some old) (hinput : start.input? id slot = some input)

include hold hinput

/-- A loop of repairs, told by what it demands of the slot as long as that reads its old edge. -/
theorem Repaired.dep?_iff_of_direct {repair : Reconciliation → Repair} {slots : List Nat}
    (h : Repaired start id repair slots s s') (hs : Sound start s)
    (hnode : s.graph.node? id = some node) (demanded : Prop)
    (hdemand : ∀ {found}, s.graph.input? id slot = some found → found.slot = slot →
      found.producer.meaning = input.producer.meaning →
      found.layout.withFormat .any = input.layout.withFormat .any →
      ((slot ∈ slots → repair s node found = none) ↔ ¬demanded)) :
    s'.graph.dep? id slot = some input.edge ↔
      s.graph.dep? id slot = some input.edge ∧ ¬demanded := by
  obtain ⟨_, hfound, hget, _, hproducer, _⟩ := Graph.input?_eq_some_iff.1 hinput
  obtain rfl := Option.some.inj (hold.symm.trans hfound)
  have hlt : slot < node.deps.length := by
    rw [hs.length_deps hold hnode]
    exact (List.getElem?_eq_some_iff.1 hget).1
  obtain ⟨found, hfound⟩ := hs.wellFormed.exists_input hnode hlt
  rw [h.dep?_iff hs hnode hfound (Graph.lt_size_of_node? hproducer)]
  refine and_congr_right fun hdep => ?_
  obtain ⟨_, hdirect, hslot, hmeaning, hlayout⟩ := hs.exists_direct hinput hdep
  obtain rfl := Option.some.inj (hfound.symm.trans hdirect)
  exact hdemand hfound hslot hmeaning hlayout

/-- A loop that demands nothing of what the slot read at the start does not move it. -/
theorem Repaired.dep?_iff_of_exempt {repair : Reconciliation → Repair} {slots : List Nat}
    (h : Repaired start id repair slots s s') (hs : Sound start s)
    (hnode : s.graph.node? id = some node)
    (hexempt : ∀ {found : Input}, found.producer.meaning = input.producer.meaning →
      repair s node found = none) :
    s'.graph.dep? id slot = some input.edge ↔ s.graph.dep? id slot = some input.edge := by
  refine (h.dep?_iff_of_direct hold hinput hs hnode False ?_).trans (and_iff_left not_false)
  exact fun _ _ hmeaning _ => iff_of_true (fun _ => hexempt hmeaning) not_false

section Exempt

variable (hstart : start.WellFormed) (hs : Sound start s) (hid : id.index < start.size)
  (hnode : s.graph.node? id = some node)

include hstart hs hid hnode

/-- Only constants are repaired as operands. -/
theorem dep?_iff_of_operands (hreal : input.isReal = true)
    (h : (if cx.config.optimizeLayout then s.reorderOperands? id else some s) = some s') :
    s'.graph.dep? id slot = some input.edge ↔ s.graph.dep? id slot = some input.edge := by
  rcases operands_cases hnode h with ⟨_, rfl⟩ | ⟨_, output, houtput, hrun⟩
  · rfl
  obtain ⟨hrepaired, _⟩ := ((loop_operands hnode houtput).spec hstart hs hid).post_of_eq hrun
  refine hrepaired.dep?_iff_of_exempt hold hinput hs hnode fun {found} hmeaning => ?_
  have hfound : found.isReal = true := by
    rw [Input.isReal, Node.isConstant_congr (Node.op_of_meaning hmeaning)]
    exact hreal
  simp [Repair.fusedConstant, hfound]

variable (hsurface : input.producer.isSharedSurface = true)

include hsurface

theorem dep?_iff_of_unpadVendor? (h : s.unpadVendor? id = some s') :
    s'.graph.dep? id slot = some input.edge ↔ s.graph.dep? id slot = some input.edge := by
  rcases vendor_cases hnode h with ⟨_, rfl⟩ | ⟨hkind, slots, hslots, hrun⟩
  · rfl
  obtain ⟨hrepaired, _⟩ :=
    ((loop_vendor hnode hs.wellFormed hslots hkind).spec hstart hs hid).post_of_eq hrun
  refine hrepaired.dep?_iff_of_exempt hold hinput hs hnode fun {found} hmeaning => ?_
  simp [Repair.vendorPadding, Node.isSharedSurface_congr (Node.attrs_of_meaning hmeaning), hsurface]

theorem dep?_iff_of_reconcile? (h : s.reconcile? id = some s') :
    s'.graph.dep? id slot = some input.edge ↔ s.graph.dep? id slot = some input.edge := by
  obtain ⟨slots, _, hrepaired, _⟩ := (reconcile?_spec hstart hs hid hnode).post_of_eq h
  refine hrepaired.dep?_iff_of_exempt hold hinput hs hnode fun {found} hmeaning => ?_
  simp [Repair.agreement, Node.isSharedSurface_congr (Node.attrs_of_meaning hmeaning), hsurface]

end Exempt

/-- A normalization asks for the padding of what it reads, and for nothing else. -/
theorem dep?_iff_of_unpadNormalization? (hstart : start.WellFormed) (hs : Sound start s)
    (hid : id.index < start.size) (hnode : s.graph.node? id = some node)
    (hreal : input.isReal = true) (h : s.unpadNormalization? id = some s') :
    s'.graph.dep? id slot = some input.edge ↔ s.graph.dep? id slot = some input.edge ∧
      ¬(node.op = .normalization ∧ input.layout.padding.hasSpatial = true ∧
        node.outputs[0]?.any fun output =>
          (((node.prefers.input slot).orElse output.format).adaptTo
            input.layout.rank).rejectsSpatialPadding) := by
  rcases normalization_cases hnode h with
    ⟨hop, rfl⟩ | ⟨hop, slots, output, hslots, houtput, hrun⟩
  · exact (and_iff_left fun hboth => hop hboth.1).symm
  obtain ⟨hrepaired, _⟩ :=
    ((loop_normalization hnode hs.wellFormed hslots hop houtput).spec hstart hs hid).post_of_eq hrun
  refine hrepaired.dep?_iff_of_direct hold hinput hs hnode _ fun {found} hfound hslot hmeaning
    hlayout => ?_
  have hmem : slot ∈ slots := by
    obtain ⟨_, hreals, hall⟩ := hs.wellFormed.exists_realSlots hnode
    obtain rfl := Option.some.inj (hslots.symm.trans hreals)
    refine (hall slot).2 ⟨found, hfound, ?_⟩
    rw [Input.isReal, Node.isConstant_congr (Node.op_of_meaning hmeaning)]
    exact hreal
  have hpadding := (Layout.withFormat_any_eq_iff.1 hlayout).2.2
  simp [Repair.normalizationPadding_eq_none_iff, hmem, hop, houtput, hslot, hpadding,
    Layout.rank_of_withFormat_any hlayout]

/-- What the visit of its node comes to for a slot that reads a surface. -/
theorem dep?_iff_of_turn (hstart : start.Ordered) (hs : Sound start s)
    (hreal : input.isReal = true) (hsurface : input.producer.isSharedSurface = true)
    (hhonours : old.Honours) (hchosen : old.op = .normalization → ¬old.Open 0)
    (hreorder : old.isReorder = false) (hfresh : (s.graph.node? id).map Node.bare = some old.bare)
    (hturn : s.repairNode? cx id = some s') :
    s'.graph.dep? id slot = some input.edge ↔ ¬old.Overrides input := by
  obtain ⟨_, hfound, hget, hslot, hproducer, _⟩ := Graph.input?_eq_some_iff.1 hinput
  obtain rfl := Option.some.inj (hold.symm.trans hfound)
  have hid := Graph.lt_size_of_node? hold
  have hwf := hstart.wellFormed
  have hdeps : old.deps ≠ [] := List.ne_nil_of_mem (List.mem_of_getElem? hget)
  obtain ⟨s₁, s₂, s₃, s₄, s₅, s₆, hstages⟩ := exists_stages hturn
  obtain ⟨origin, hs₁, horigin, horigin_edge, h₂, h₃, h₄, h₅, hs₆, _⟩ :=
    hstages.underway hstart hs hold hfresh (Graph.dep?_eq_some_iff.2 ⟨old, hold, hget⟩)
  obtain ⟨node₂, hnode₂, _⟩ := h₂.node
  obtain ⟨node₃, hnode₃, hstance₃⟩ := h₃.node
  obtain ⟨node₄, hnode₄, _⟩ := h₄.node
  obtain ⟨node₅, hnode₅, _⟩ := h₅.node
  have hstate : s₂.graph.dep? id slot = some input.edge ↔
      ¬(old.storedType? input.slot input.layout).isSome := by
    obtain ⟨node₁, hnode₁, hmeaning₁, _⟩ := hs₁.kept hold
    have hdep₁ : s₁.graph.dep? id slot = some input.edge := by
      rw [hs₁.wellFormed.dep?_eq, horigin, Option.map_some, horigin_edge]
    obtain ⟨_, hdirect, _, _, hlayout⟩ := hs₁.exists_direct hinput hdep₁
    obtain rfl := Option.some.inj (horigin.symm.trans hdirect)
    rw [dep?_iff_of_convertState? hstart hid hs₁ hnode₁ horigin (Graph.lt_size_of_node? hproducer)
      hstages.state, and_iff_right hdep₁, Option.not_isSome_iff_eq_none, hslot,
      Node.storedType?_congr (Node.attrs_of_meaning hmeaning₁) slot
        (Layout.withFormat_any_eq_iff.1 hlayout).2.1]
  have hoperands := dep?_iff_of_operands hold hinput hwf h₂.sound hid hnode₂ hreal hstages.operands
  have hnormalization := dep?_iff_of_unpadNormalization? hold hinput hwf h₃.sound hid hnode₃ hreal
    hstages.normalization
  have hvendor := dep?_iff_of_unpadVendor? hold hinput hwf h₄.sound hid hnode₄ hsurface
    hstages.vendor
  have hlegal : s₆.graph.dep? id slot = s₅.graph.dep? id slot := by
    have hlegalized := (legalize?_spec cx h₅.sound.wellFormed hnode₅).post_of_eq hstages.legal
    rw [hs₆.wellFormed.dep?_eq, h₅.sound.wellFormed.dep?_eq]
    exact Input.edge_of_map_face (h₅.sound.input?_face_eq hstart hid hlegalized.edit slot)
  have hagreement : s'.graph.dep? id slot = some input.edge ↔
      s₆.graph.dep? id slot = some input.edge := by
    have hrun := hstages.agreement
    split at hrun
    · cases hrun
      rfl
    · obtain ⟨node₆, hnode₆⟩ := Graph.exists_node (Nat.lt_of_lt_of_le hid hs₆.grown)
      exact dep?_iff_of_reconcile? hold hinput hwf hs₆ hid hnode₆ hsurface hrun
  rw [hagreement, hlegal, hvendor, hnormalization, hoperands, hstate]
  by_cases hop : old.op = .normalization
  · have houtput :=
      hstages.first_output hwf hs hold hdeps hfresh hhonours (hchosen hop) hnode₃
    rw [Node.op_of_stance hstance₃, Node.prefers_of_stance hstance₃, houtput, ← not_or, hslot,
      Node.Overrides, and_iff_right hreorder, hslot]
  · simp [Node.Overrides, hreorder, Node.op_of_stance hstance₃, hop]

end Turn

/-- What a run comes to for the slots that read surfaces. -/
theorem surfaces_of_run (hstart : start.Ordered) (hhonours : start.Honours)
    (hsettled : ∀ {id node}, start.node? id = some node → node.isConstant = false → node.Settled) :
    Yields (start.order.foldlM (visit? cx) { graph := start }) fun s =>
      ∀ {id old slot input}, start.node? id = some old → start.input? id slot = some input →
        input.isReal = true → input.producer.isSharedSurface = true →
        (s.graph.dep? id slot = some input.edge ∨ old.Overrides input) ∧
        (s.failure = none → (s.graph.dep? id slot = some input.edge ↔ ¬old.Overrides input)) := by
  refine (run?_fresh hstart (fun count s => ∀ {id old slot input}, start.node? id = some old →
    start.input? id slot = some input → input.isReal = true →
    input.producer.isSharedSurface = true →
    (s.graph.dep? id slot = some input.edge ∨ old.Overrides input) ∧
    (s.failure = none → id.index < count →
      (s.graph.dep? id slot = some input.edge ↔ ¬old.Overrides input))) ?_ ?_ ?_).mono ?_
  · intro id old slot input hold hinput _ _
    refine ⟨Or.inl ?_, fun _ hlt => absurd hlt (Nat.not_lt_zero _)⟩
    rw [hstart.wellFormed.dep?_eq, hinput, Option.map_some]
  · intro count s hs hmotive hskipped id old slot input hold hinput hreal hsurface
    obtain ⟨hkept, hdone⟩ := hmotive hold hinput hreal hsurface
    refine ⟨hkept, fun hfine hlt => ?_⟩
    rcases Nat.lt_succ_iff_lt_or_eq.1 hlt with hless | rfl
    · exact hdone hfine hless
    obtain ⟨_, hfound, hnil | hreorder⟩ := hskipped hfine
    all_goals obtain rfl := Option.some.inj (hold.symm.trans hfound)
    · have hslot := Graph.lt_length_of_input? hold hinput
      rw [hnil] at hslot
      exact absurd hslot (Nat.not_lt_zero _)
    · have hrests : ¬old.Overrides input := by
        rintro ⟨hother, _⟩
        rw [hreorder] at hother
        exact Bool.noConfusion hother
      exact iff_of_true (hkept.resolve_right hrests) hrests
  · intro count s s' turned before after hs hmotive hfine hturned hdeps hreorder hfresh hturn
      hvisited id old slot input hold hinput hreal hsurface
    have hlt := Graph.lt_size_of_node? hturned
    have hframed := hvisited.framed hstart.wellFormed hs hlt
    by_cases hid : id = ⟨count⟩
    · subst hid
      obtain rfl := Option.some.inj (hold.symm.trans hturned)
      have hchosen : old.op = .normalization → ¬old.Open 0 := by
        intro hop hopen
        have hdata : old.isConstant = false := by
          rw [Node.isConstant, hop]
          rfl
        exact absurd (hsettled hold hdata 0 hopen).2 (Nat.lt_irrefl 0)
      have hiff := dep?_iff_of_turn hold hinput hstart hs hreal hsurface (hhonours hold) hchosen
        hreorder hfresh hturn
      exact ⟨(Classical.em _).imp_right fun hmoved => Classical.not_not.1 (mt hiff.2 hmoved),
        fun _ _ => hiff⟩
    · obtain ⟨hkept, hdone⟩ := hmotive hold hinput hreal hsurface
      have hsame : s'.graph.dep? id slot = s.graph.dep? id slot := by
        obtain ⟨node, hnode⟩ :=
          Graph.exists_node (Nat.lt_of_lt_of_le (Graph.lt_size_of_node? hold) hs.grown)
        obtain ⟨node', hnode', hbare⟩ :=
          exists_of_map_eq (hframed.others id (Graph.lt_size_of_node? hold) hid) hnode
        simp [Graph.dep?, hnode, hnode', Node.deps_of_bare hbare]
      rw [hsame]
      refine ⟨hkept, fun _ hlt' => hdone hfine ?_⟩
      refine Nat.lt_of_le_of_ne (Nat.le_of_lt_succ hlt') fun heq => hid ?_
      cases id
      exact congrArg NodeId.mk heq
  · intro s h id old slot input hold hinput hreal hsurface
    obtain ⟨hkept, hdone⟩ := h.2 hold hinput hreal hsurface
    exact ⟨hkept, fun hfine => hdone hfine (Graph.lt_size_of_node? hold)⟩

end Reconciliation

/-! ## Agreed graphs -/

/-- After propagation and edge agreement, however the latter ends, whatever read a shared surface
still reads it on the same edge, unless the reader overrides it.  If edge agreement ends well, all
that is overridden is read through a reorder. -/
theorem surface_read_iff_of_agreement {decls : List NodeDecl} {g : Graph}
    (hbuild : Graph.build? decls = some (.ok g)) (cx : Context) :
    ∃ swept agreed, Propagation.run? cx g = some swept ∧
      Reconciliation.run? cx swept.graph = some agreed ∧
      ∀ {id node slot edge surface}, g.node? id = some node → node.deps[slot]? = some edge →
        g.node? edge.node = some surface → surface.op = .reorder →
        surface.isSharedSurface = true →
        ∃ reader input, swept.graph.node? id = some reader ∧
          swept.graph.input? id slot = some input ∧ input.edge = edge ∧
          (agreed.graph.dep? id slot = some edge ∨ reader.Overrides input) ∧
          ∀ report, agreed.result = .ok report →
            (agreed.graph.dep? id slot = some edge ↔ ¬reader.Overrides input) := by
  have hfresh := Graph.fresh_of_build hbuild
  obtain ⟨swept, hswept, _, s₁, hs₁, hgraph₁, hsame⟩ :=
    Propagation.run?_spec cx hfresh.toOrdered
  have hordered := hfresh.toOrdered.of_sameContent hsame
  obtain ⟨_, hhonours⟩ := (Propagation.honours_of_sweep hfresh).post_of_eq hs₁
  obtain ⟨_, hsettled⟩ := (Propagation.settled_of_sweep hfresh).post_of_eq hs₁
  obtain ⟨agreed, hagreed, s, hfold, _, hgraph, herror⟩ := Reconciliation.run?_spec cx hordered
  rw [← hgraph₁] at hagreed
  refine ⟨swept, agreed, hswept, hagreed, fun {id node slot edge surface} hnode hdep hsurface hop
    hshared => ?_⟩
  rw [hgraph, hgraph₁]
  obtain ⟨reader, hreader, _⟩ := hsame.nodes.exists_new hnode
  obtain ⟨origin, horigin⟩ :=
    hfresh.wellFormed.exists_input hnode (List.getElem?_eq_some_iff.1 hdep).1
  obtain ⟨_, hfound, hget, _, hproducer, _⟩ := Graph.input?_eq_some_iff.1 horigin
  obtain rfl := Option.some.inj (hnode.symm.trans hfound)
  obtain rfl := Option.some.inj (hget.symm.trans hdep)
  obtain rfl := Option.some.inj (hproducer.symm.trans hsurface)
  obtain ⟨input, hinput, hedge, hcontent, _⟩ := hsame.exists_input horigin
  have hreal : input.isReal = true := by
    simp [Input.isReal, Node.isConstant, Node.op_of_content hcontent, hop]
  have hstill : input.producer.isSharedSurface = true := by
    rw [Node.isSharedSurface_congr (Node.attrs_of_content hcontent), hshared]
  obtain ⟨hkept, hdone⟩ := (Reconciliation.surfaces_of_run hordered hhonours hsettled).post_of_eq
    hfold hreader hinput hreal hstill
  rw [hedge] at hkept hdone
  refine ⟨reader, input, hreader, hinput, hedge, hkept, fun report hok => hdone ?_⟩
  rw [← herror]
  exact Outcome.error?_eq_none_iff.2 ⟨report, hok⟩

/-- A shared surface with two readers: a state of another type, and an activation. -/
def surfaceReaders : List NodeDecl :=
  let layout : Layout := ⟨.ofExtents [1, 16, 8, 8], .f32, .bfyx, {}⟩
  [{ name := "data", op := .input, outputs := [layout] },
    { name := "surface", op := .reorder, inputs := [⟨⟨0⟩, 0⟩], outputs := [layout],
      attrs := .reorder ⟨.bfyx, .f32, .sharedSurface, true⟩ },
    { name := "store", op := .stateWrite, inputs := [⟨⟨1⟩, 0⟩],
      outputs := [(layout.withFormat .any).withType .f16], attrs := .stateWrite "v" .f16 },
    { name := "scaled", op := .activation, inputs := [⟨⟨1⟩, 0⟩],
      outputs := [layout.withFormat .any] }]

theorem surface_read_surfaceReaders : ∃ g swept agreed,
    Graph.build? surfaceReaders = some (.ok g) ∧ g.dep? ⟨2⟩ 0 = some ⟨⟨1⟩, 0⟩ ∧
    Propagation.run? { catalog := Builtin.catalog } g = some swept ∧
    Reconciliation.run? { catalog := Builtin.catalog } swept.graph = some agreed ∧
    ∃ reader input, swept.graph.node? ⟨2⟩ = some reader ∧
      swept.graph.input? ⟨2⟩ 0 = some input ∧ input.edge = ⟨⟨1⟩, 0⟩ ∧
      (agreed.graph.dep? ⟨2⟩ 0 = some ⟨⟨1⟩, 0⟩ ∨ reader.Overrides input) ∧
      ∀ report, agreed.result = .ok report →
        (agreed.graph.dep? ⟨2⟩ 0 = some ⟨⟨1⟩, 0⟩ ↔ ¬reader.Overrides input) := by
  obtain ⟨swept, agreed, hswept, hagreed, hread⟩ :=
    @surface_read_iff_of_agreement surfaceReaders _ rfl { catalog := Builtin.catalog }
  exact ⟨_, swept, agreed, rfl, rfl, hswept, hagreed, hread rfl rfl rfl rfl rfl⟩

/-- The state is stored through a reorder, which stands between it and the surface. -/
theorem surfaceReaders_overridden : ∃ g swept agreed report surface,
    Graph.build? surfaceReaders = some (.ok g) ∧
    Propagation.run? { catalog := Builtin.catalog } g = some swept ∧
    Reconciliation.run? { catalog := Builtin.catalog } swept.graph = some agreed ∧
    agreed.result = .ok report ∧ g.node? ⟨1⟩ = some surface ∧ surface.op = .reorder ∧
    surface.isSharedSurface = true ∧ g.dep? ⟨2⟩ 0 = some ⟨⟨1⟩, 0⟩ ∧
    agreed.graph.dep? ⟨2⟩ 0 = some ⟨⟨4⟩, 0⟩ ∧ agreed.graph.dep? ⟨3⟩ 0 = some ⟨⟨1⟩, 0⟩ :=
  ⟨_, _, _, _, _, rfl, rfl, rfl, rfl, rfl, rfl, rfl, rfl, rfl, rfl⟩

end LayoutPlanner
