import LayoutPlanner.Proofs.IdentityReorders
import LayoutPlanner.Proofs.StrippedPadding

/-!
# Stored types

In which element type a node that writes a state gets what it writes.

The first repair of a visit converts the input to the declared type.  From then on every repair asks
for the type that the node wants on the slot, and that is another one if the node has been given a
preference for it.  So the declared type is lost exactly if the node has such a preference and the
slot is still open to repairs when the inputs are made to agree.  `Stored` is what all moves of the
visit keep.
-/

namespace LayoutPlanner

namespace Node

variable {a b node : Node} {slot : Nat}

/-- What comes to the slot in that type is wanted in that type. -/
def Keeps (node : Node) (slot : Nat) (dtype : ElementType) : Prop :=
  node.op.isConvolutionLike = true ∨
    ∀ preferred, node.prefers.inputType slot = some preferred → preferred = dtype

theorem wantedType_eq_iff {source : Layout} :
    node.wantedType slot source = source.dtype ↔ node.Keeps slot source.dtype := by
  unfold wantedType Keeps
  cases node.op.isConvolutionLike <;> cases node.prefers.inputType slot <;> simp

theorem Firms.keeps_iff (h : a.Firms b) {dtype : ElementType} :
    b.Keeps slot dtype ↔ a.Keeps slot dtype := by
  rw [Keeps, Keeps, h.op_eq, FormatPreference.inputType, FormatPreference.inputType,
    h.inputTypes_eq]

end Node

theorem Repair.dtype_of_stateType {node : Node} {input : Input} {demand : Demand} {cell : String}
    {declared : ElementType} (hattrs : node.attrs = .stateWrite cell declared)
    (h : stateType node input = some demand) : demand.target.dtype = declared := by
  simp only [stateType, hattrs] at h
  split at h <;> cases h
  rfl

theorem Repair.dtype_of_normalizationPadding {output : Layout} {node : Node} {input : Input}
    {demand : Demand} (h : normalizationPadding output node input = some demand) :
    demand.target.dtype = node.wantedType input.slot input.layout := by
  unfold normalizationPadding at h
  dsimp only at h
  split at h <;> cases h
  rfl

theorem Repair.dtype_of_vendorPadding {node : Node} {input : Input} {demand : Demand}
    (h : vendorPadding node input = some demand) :
    demand.target.dtype = node.wantedType input.slot input.layout := by
  unfold vendorPadding at h
  split at h <;> cases h
  rfl

namespace Reconciliation

variable {start : Graph} {cx : Context} {id : NodeId} {s s' : Reconciliation}

/-- A type that the node keeps survives every demand. -/
theorem Demands.dtype_eq {node : Node} {input : Input} {demand : Demand} {cell : String}
    {declared : ElementType} (h : Demands s node input demand)
    (hattrs : node.attrs = .stateWrite cell declared) (hkeeps : node.Keeps input.slot declared)
    (hdtype : input.layout.dtype = declared) : demand.target.dtype = declared := by
  have hwanted : node.wantedType input.slot input.layout = declared := by
    rw [Node.wantedType_eq_iff.2 (hdtype ▸ hkeeps), hdtype]
  cases h with
  | stateType h => exact Repair.dtype_of_stateType hattrs h
  | fusedConstant _ h =>
    unfold Repair.fusedConstant at h
    dsimp only at h
    split at h <;> cases h
    exact hdtype
  | normalizationPadding _ _ _ h => rw [Repair.dtype_of_normalizationPadding h, hwanted]
  | vendorPadding _ _ h => rw [Repair.dtype_of_vendorPadding h, hwanted]
  | agreement _ h =>
    rw [(Repair.of_agreement h).2.2]
    exact hwanted

/-! ## Along a visit -/

/-- What the node writes to a state has the declared type, unless a reorder has brought it to a type
that the node prefers. -/
def Stored (start : Graph) (id : NodeId) (s : Reconciliation) : Prop :=
  ∀ node cell declared input, s.graph.node? id = some node →
    node.attrs = .stateWrite cell declared → s.graph.input? id 0 = some input →
    input.layout.dtype = declared ∨
      start.size ≤ input.producer.id.index ∧ ¬node.Keeps 0 declared

/-- Only the type and the producer of the input count, and what the node wants of types. -/
theorem Stored.congr (h : Stored start id s)
    (hfirms : ∀ {node'}, s'.graph.node? id = some node' →
      ∃ node, s.graph.node? id = some node ∧ node.Firms node')
    (hsame : ∀ {input'}, s'.graph.input? id 0 = some input' →
      ∃ input, s.graph.input? id 0 = some input ∧ input'.layout.dtype = input.layout.dtype ∧
        input'.producer.id = input.producer.id) : Stored start id s' := by
  intro node' cell declared input' hnode' hattrs' hinput'
  obtain ⟨node, hnode, hfirm⟩ := hfirms hnode'
  obtain ⟨input, hinput, hdtype, hproducer⟩ := hsame hinput'
  rw [hdtype, hproducer, hfirm.keeps_iff]
  exact h node cell declared input hnode (hfirm.attrs_eq.symm.trans hattrs') hinput

/-- Local edits show on no input, formats apart. -/
theorem Stored.localEdit (h : Stored start id s) (hedit : Graph.LocalEdit id s.graph s'.graph)
    (hfirms : ∀ {node'}, s'.graph.node? id = some node' →
      ∃ node, s.graph.node? id = some node ∧ node.Firms node') : Stored start id s' := by
  refine h.congr hfirms fun {input'} hinput' => ?_
  obtain ⟨input, hinput, _, hcontent, hlayout⟩ := hedit.content.symm.exists_input hinput'
  exact ⟨input, hinput, (Layout.withFormat_any_eq_iff.1 hlayout).2.1.symm,
    (congrArg Node.id hcontent :).symm⟩

theorem Stored.of_face (h : Stored start id s)
    (hfirms : ∀ {node'}, s'.graph.node? id = some node' →
      ∃ node, s.graph.node? id = some node ∧ node.Firms node')
    (hface : (s'.graph.input? id 0).map Input.face = (s.graph.input? id 0).map Input.face) :
    Stored start id s' := by
  refine h.congr hfirms fun {input'} hinput' => ?_
  obtain ⟨input, hinput, hface⟩ := exists_of_map_eq hface.symm hinput'
  exact ⟨input, hinput, by rw [Input.layout_of_face hinput' hinput hface.symm],
    (congrArg (·.2.2.1) hface.symm :)⟩

section Visit

variable (hstart : start.WellFormed) (hs : Sound start s) (hid : id.index < start.size)

include hstart hs hid

theorem Stored.move (h : Stored start id s) (hmove : Move id s s') : Stored start id s' := by
  have hfirms : ∀ {node'}, s'.graph.node? id = some node' →
      ∃ node, s.graph.node? id = some node ∧ node.Firms node' := by
    intro node' hnode'
    obtain ⟨node, hnode⟩ := Graph.exists_node (Nat.lt_of_lt_of_le hid hs.grown)
    exact ⟨node, hnode, Node.firms_of_stance (hmove.stance_eq hstart hs hid hnode hnode')⟩
  obtain ⟨found, hfound⟩ := Graph.exists_node (Nat.lt_of_lt_of_le hid hs.grown)
  cases hmove with
  | settle hsettle =>
    have hedit := ((Graph.settle?_spec hs.wellFormed hfound).post_of_eq hsettle).1
    exact h.localEdit hedit hfirms
  | invalidate hinvalidate =>
    have hedit := ((Graph.invalidate?_spec hs.wellFormed hfound).post_of_eq hinvalidate).1
    exact h.localEdit hedit hfirms
  | @convert slot node input demand _ hnode hinput hdemands hconvert =>
    have hconverted :=
      (convert?_spec hstart hs hid hinput hdemands.shape_eq demand.reason).post_of_eq hconvert
    by_cases hzero : slot = 0
    swap
    · exact h.of_face hfirms (hconverted.inputs hid fun heq => hzero heq.2.symm)
    subst hzero
    intro node' cell declared input' hnode' hattrs' hinput'
    obtain ⟨_, hsome, hfirm⟩ := hfirms hnode'
    obtain rfl := Option.some.inj (hnode.symm.trans hsome)
    obtain ⟨_, hdelivered⟩ :=
      hconverted.exists_delivered hnode (Graph.lt_length_of_input? hnode hinput)
    obtain rfl := Option.some.inj (hinput'.symm.trans hdelivered.at_slot)
    have hattrs := hfirm.attrs_eq.symm.trans hattrs'
    rw [hfirm.keeps_iff]
    by_cases hkeeps : node.Keeps 0 declared
    · left
      rw [hdelivered.layout_eq]
      refine hdemands.dtype_eq hattrs (Graph.slot_of_input? hinput ▸ hkeeps) ?_
      have hbefore := h node cell declared input hnode hattrs hinput
      exact hbefore.resolve_right fun hlost => hlost.2 hkeeps
    · exact Or.inr ⟨hdelivered.beyond, hkeeps⟩

theorem Stored.moves (h : Stored start id s) (hmoves : Moves id s s') : Stored start id s' :=
  Moves.inv hstart hs hid (Stored start id)
    (fun hs₁ h₁ hmove => h₁.move hstart hs₁ hid hmove) hmoves h

omit hstart in
theorem Stored.legalized (h : Stored start id s) (hlegalized : Legalized cx id s s') :
    Stored start id s' := by
  refine h.localEdit hlegalized.edit fun {node'} hnode' => ?_
  obtain ⟨node, hnode⟩ := Graph.exists_node (Nat.lt_of_lt_of_le hid hs.grown)
  exact ⟨node, hnode, hlegalized.firms hnode hnode'⟩

/-- The first repair sees to it that the declared type is read. -/
theorem stored_of_convertState? (h : s.convertState? id = some s') : Stored start id s' := by
  obtain ⟨node, hnode⟩ := Graph.exists_node (Nat.lt_of_lt_of_le hid hs.grown)
  cases stateRepair_of_convertState? hnode h with
  | rests hnone =>
    intro node' cell declared input hnode' hattrs hinput
    obtain rfl := Option.some.inj (hnode.symm.trans hnode')
    have hrests := hnone input hinput
    simp only [Repair.stateType, hattrs] at hrests
    split at hrests
    next hdtype => exact Or.inl hdtype
    next => cases hrests
  | @converts input demand s₁ g₂ g₃ hinput hdemand hconvert hinvalidate hsettle =>
    have hconverted := (convert?_spec hstart hs hid hinput
      (Repair.lawful_stateType.shape_eq (s := s) hdemand) _).post_of_eq hconvert
    have hstored : Stored start id s₁ := by
      intro node₁ cell declared input₁ hnode₁ hattrs₁ hinput₁
      obtain ⟨_, hfound, hcore⟩ := hconverted.core_eq hnode
      obtain rfl := Option.some.inj (hnode₁.symm.trans hfound)
      obtain ⟨_, hdelivered⟩ :=
        hconverted.exists_delivered hnode (Graph.lt_length_of_input? hnode hinput)
      obtain rfl := Option.some.inj (hinput₁.symm.trans hdelivered.at_slot)
      left
      rw [hdelivered.layout_eq]
      exact Repair.dtype_of_stateType ((Node.attrs_of_core hcore).symm.trans hattrs₁) hdemand
    have hmove : Move id s₁ (s₁.withGraph g₂) := .invalidate hinvalidate
    have hs₂ := (hmove.framed hstart hconverted.sound hid).sound
    exact (hstored.move hstart hconverted.sound hid hmove).move hstart hs₂ hid (.settle hsettle)

end Visit

theorem stored_of_turn (hstart : start.WellFormed) (hs : Sound start s) {old : Node}
    (hold : start.node? id = some old) (hdeps : old.deps ≠ [])
    (hturn : s.repairNode? cx id = some s') : Stored start id s' := by
  have hid := Graph.lt_size_of_node? hold
  obtain ⟨s₁, s₂, s₃, s₄, s₅, s₆, hstages⟩ := exists_stages hturn
  obtain ⟨h₁, h₂, h₃, h₄, h₅⟩ := hstages.advanced hstart hs hold hdeps
  have hstored₂ := stored_of_convertState? hstart h₁.sound hid hstages.state
  have hstored₅ := hstored₂.moves hstart h₂.sound hid (h₃.trans (h₄.trans h₅)).moves
  obtain ⟨node₅, hnode₅⟩ := Graph.exists_node (Nat.lt_of_lt_of_le hid h₅.sound.grown)
  have hlegalized := (legalize?_spec cx h₅.sound.wellFormed hnode₅).post_of_eq hstages.legal
  have hstored₆ := hstored₅.legalized h₅.sound hid hlegalized
  have hs₆ := h₅.sound.localEdit hid hlegalized.edit hlegalized.conversions_eq
    hlegalized.created_eq
  have hagreement := hstages.agreement
  split at hagreement
  · cases hagreement
    exact hstored₆
  · obtain ⟨node₆, hnode₆⟩ := Graph.exists_node (Nat.lt_of_lt_of_le hid hs₆.grown)
    obtain ⟨_, _, _, hmoves⟩ := (reconcile?_spec hstart hs₆ hid hnode₆).post_of_eq hagreement
    exact hstored₆.moves hstart hs₆ hid hmoves

/-- What is read in the declared type, where edges that are not exempt agree. -/
theorem Stored.dtype_iff (h : Stored start id s) (hs : Sound start s) {node : Node} {cell : String}
    {declared : ElementType} {input : Input} (hnode : s.graph.node? id = some node)
    (hattrs : node.attrs = .stateWrite cell declared) (hinput : s.graph.input? id 0 = some input)
    (hgets : input.isReal = true → input.producer.isSharedSurface = false → node.Gets input) :
    input.layout.dtype = declared ↔ node.op.isConvolutionLike = true ∨
      (∀ preferred, node.prefers.inputType 0 = some preferred → preferred = declared) ∨
      input.producer.isConstant = true ∨ input.producer.isSharedSurface = true := by
  have hlast := h node cell declared input hnode hattrs hinput
  obtain ⟨_, _, _, _, hproducer, _⟩ := Graph.input?_eq_some_iff.1 hinput
  rw [← or_assoc]
  constructor
  · intro hdtype
    by_contra hnone
    obtain ⟨hlost, hrest⟩ := not_or.1 hnone
    obtain ⟨hreal, hplain⟩ := not_or.1 hrest
    have hwants := (hgets (by simpa [Input.isReal] using hreal) (Bool.eq_false_iff.2 hplain)).dtype
    have hkeeps := Node.wantedType_eq_iff.1 hwants
    rw [Graph.slot_of_input? hinput, hdtype] at hkeeps
    exact hlost hkeeps
  · rintro (hkeeps | hexempt)
    · exact hlast.resolve_right fun hlost => hlost.2 hkeeps
    · refine hlast.resolve_right fun hlost => ?_
      rw [hs.wellFormed.id_eq hproducer] at hlost
      have hinserted := hs.inserted hproducer hlost.1
      rcases hexempt with hconstant | hshared
      · simp [Node.isConstant, hinserted.op_eq] at hconstant
      · simp [hinserted.notShared] at hshared

theorem stored_of_run (hstart : start.Ordered) :
    Yields (start.order.foldlM (visit? cx) { graph := start }) fun s => s.failure = none →
      ∀ {id old}, start.node? id = some old → old.deps ≠ [] → old.isReorder = false →
        Stored start id s := by
  refine run?_turns hstart (Stored start) ?_ ?_
  · intro id s s' old hs hold hdeps _ _ hturn _
    exact stored_of_turn hstart.wellFormed hs hold hdeps hturn
  · intro id s s' hsame _ h
    refine h.of_face (fun {node'} hnode' => ?_) (hsame.inputs 0)
    obtain ⟨node, hnode, hbare⟩ := exists_of_map_eq hsame.node.symm hnode'
    exact ⟨node, hnode, Node.firms_of_stance (Node.stance_of_core (Node.core_of_bare hbare.symm))⟩

/-! ## Reorders write no states -/

/-- All that was inserted is labelled as a reorder. -/
theorem labelled_of_run (hstart : start.Ordered) :
    Yields (start.order.foldlM (visit? cx) { graph := start }) fun s => Sound start s ∧
      ∀ {reorder node}, start.size ≤ reorder.index → s.graph.node? reorder = some node →
        ∃ info, node.attrs = .reorder info := by
  have hkept : ∀ {a b : Node}, b.bare = a.bare → (∃ info, a.attrs = .reorder info) →
      ∃ info, b.attrs = .reorder info := by
    rintro a b hbare ⟨info, hattrs⟩
    exact ⟨info, (congrArg (·.2) (Node.origin_of_bare hbare)).trans hattrs⟩
  refine run?_inv hstart (fun s => ∀ {reorder node}, start.size ≤ reorder.index →
    s.graph.node? reorder = some node → ∃ info, node.attrs = .reorder info) ?_ ?_ ?_
  · exact fun hle hnode => absurd (Graph.lt_size_of_node? hnode) (Nat.not_lt.2 hle)
  · intro id s s' hid hs h hmove reorder node' hle hnode'
    obtain ⟨found, hfound⟩ := Graph.exists_node (Nat.lt_of_lt_of_le hid hs.grown)
    cases hmove with
    | settle hsettle =>
      obtain ⟨node, hnode, hbare⟩ := bare_of_localEdit hid
        ((Graph.settle?_spec hs.wellFormed hfound).post_of_eq hsettle).1 hle hnode'
      exact hkept hbare (h hle hnode)
    | invalidate hinvalidate =>
      obtain ⟨node, hnode, hbare⟩ := bare_of_localEdit hid
        ((Graph.invalidate?_spec hs.wellFormed hfound).post_of_eq hinvalidate).1 hle hnode'
      exact hkept hbare (h hle hnode)
    | convert _ _ _ hconvert =>
      cases renewed_of_convert? hstart.wellFormed hs hid hconvert hle hnode' with
      | kept hnode hbare => exact hkept hbare (h hle hnode)
      | retargeted hnode _ _ hattrs _ => exact hattrs ▸ h hle hnode
      | created hattrs => exact ⟨_, hattrs⟩
  · intro id s s' hid _ h hlegalized reorder node' hle hnode'
    obtain ⟨node, hnode, hbare⟩ := bare_of_localEdit hid hlegalized.edit hle hnode'
    exact hkept hbare (h hle hnode)

/-- A node that is passed over reads on every slot the edge that it read at the start. -/
theorem Passed.exists_origin (h : Passed start s) (hstart : start.WellFormed) (hs : Sound start s)
    {old : Node} (hold : start.node? id = some old) (hreorder : old.isReorder = true) {slot : Nat}
    {input : Input} (hinput : s.graph.input? id slot = some input) :
    ∃ origin, start.input? id slot = some origin ∧ input.edge = origin.edge ∧
      input.layout.withFormat .any = origin.layout.withFormat .any := by
  obtain ⟨node, hnode, hget, _, hproducer, houtput⟩ := Graph.input?_eq_some_iff.1 hinput
  have hbare := h hold (Or.inr hreorder)
  rw [hnode, Option.map_some, Option.some.injEq] at hbare
  rw [Node.deps_of_bare hbare] at hget
  obtain ⟨origin, horigin⟩ := hstart.exists_input hold (List.getElem?_eq_some_iff.1 hget).1
  obtain ⟨_, hfound, hget', _, hproducer', houtput'⟩ := Graph.input?_eq_some_iff.1 horigin
  obtain rfl := Option.some.inj (hold.symm.trans hfound)
  have hedge := Option.some.inj (hget.symm.trans hget')
  refine ⟨origin, horigin, hedge, ?_⟩
  have hlayout := hs.layoutAt?_eq (Graph.lt_size_of_node? hproducer')
  rw [Graph.layoutAt?_eq_some_iff.2 ⟨_, hproducer', houtput'⟩, ← hedge,
    Graph.layoutAt?_eq_some_iff.2 ⟨_, hproducer, houtput⟩] at hlayout
  exact Option.some.inj hlayout

end Reconciliation

/-- If propagation and edge agreement end well, a node that writes a state gets what it writes in
the declared type, unless it prefers another one.  Then it gets the declared type only if it is a
convolution, or reads a constant or a shared surface.  Reorders that are labelled as writing a state
are not looked after at all. -/
theorem stored_iff_of_agreement {decls : List NodeDecl} {g : Graph}
    (hbuild : Graph.build? decls = some (.ok g)) {cx : Context} {swept agreed : Outcome}
    (hswept : Propagation.run? cx g = some swept)
    (hagreed : Reconciliation.run? cx swept.graph = some agreed) {report : Report}
    (hok : agreed.result = .ok report) {id : NodeId} {node : Node} {cell : String}
    {declared : ElementType} (hnode : agreed.graph.node? id = some node)
    (hattrs : node.attrs = .stateWrite cell declared) (hdeps : node.deps ≠ []) :
    ∃ input, agreed.graph.input? id 0 = some input ∧
      (node.isReorder = false → (input.layout.dtype = declared ↔
        node.op.isConvolutionLike = true ∨
        (∀ preferred, node.prefers.inputType 0 = some preferred → preferred = declared) ∨
        input.producer.isConstant = true ∨ input.producer.isSharedSurface = true)) ∧
      (node.isReorder = true → ∃ origin, g.input? id 0 = some origin ∧
        input.edge = origin.edge ∧ input.layout.dtype = origin.layout.dtype) := by
  have hfresh := Graph.fresh_of_build hbuild
  obtain ⟨_, s₁, _, hgraph₁, hsame⟩ :=
    (Propagation.run?_spec cx hfresh.toOrdered).post_of_eq hswept
  rw [hgraph₁] at hagreed
  have hordered := hfresh.toOrdered.of_sameContent hsame
  obtain ⟨s, hfold, hs, hgraph, herror⟩ :=
    (Reconciliation.run?_spec cx hordered).post_of_eq hagreed
  have hfine : s.failure = none := herror ▸ Outcome.error?_eq_none_iff.2 ⟨report, hok⟩
  rw [hgraph] at hnode ⊢
  have hlt : id.index < s₁.graph.size := by
    by_contra hnew
    obtain ⟨_, hlabelled⟩ := (Reconciliation.labelled_of_run hordered).post_of_eq hfold
    obtain ⟨info, hother⟩ := hlabelled (Nat.not_lt.1 hnew) hnode
    rw [hattrs] at hother
    cases hother
  obtain ⟨old, hold⟩ := Graph.exists_node hlt
  obtain ⟨_, hfound, hmeaning, hlength, _⟩ := hs.kept hold
  obtain rfl := Option.some.inj (hnode.symm.trans hfound)
  have hop : old.isReorder = node.isReorder :=
    (Node.isReorder_congr (Node.op_of_meaning hmeaning)).symm
  obtain ⟨input, hinput⟩ := hs.wellFormed.exists_input hnode (List.length_pos_iff.2 hdeps)
  refine ⟨input, hinput, fun hreorder => ?_, fun hreorder => ?_⟩
  · have hreads : old.deps ≠ [] := by
      rw [← List.length_pos_iff, ← hlength]
      exact List.length_pos_iff.2 hdeps
    have hstored : Reconciliation.Stored s₁.graph id s :=
      (Reconciliation.stored_of_run hordered).post_of_eq hfold hfine hold hreads
        (hop.trans hreorder)
    refine hstored.dtype_iff hs hnode hattrs hinput fun hreal hplain => ?_
    exact (Reconciliation.agreed_of_run hordered).post_of_eq hfold hfine id hlt hnode hreorder
      hinput hreal hplain
  · have hpassed : Reconciliation.Passed s₁.graph s :=
      (Reconciliation.run?_passed hordered).post_of_eq hfold
    obtain ⟨read, hread, hedge, hlayout⟩ :=
      hpassed.exists_origin hordered.wellFormed hs hold (hop.trans hreorder) hinput
    obtain ⟨origin, horigin, hedge', _, hlayout'⟩ := hsame.symm.exists_input hread
    refine ⟨origin, horigin, hedge.trans hedge'.symm, ?_⟩
    rw [(Layout.withFormat_any_eq_iff.1 hlayout).2.1, (Layout.withFormat_any_eq_iff.1 hlayout').2.1]

/-- Takes everything, and asks for what comes first in a type. -/
def reads (dtype : ElementType) : Capability where
  name := "generic_assign"
  kind := .generic
  shapes := .both
  accepts _ := true
  preference _ := some { inputTypes := [some dtype] }
  build _ := .built ⟨.generic, "generic_assign", none⟩

/-- States are written from single precision. -/
def singleWrites : Catalog where
  registrations := [(.stateWrite, reads .f32)]

/-- A state of half precision that is written from an input of single precision. -/
def halvedState : List NodeDecl :=
  let layout : Layout := ⟨.ofExtents [1, 64], .f32, .bfyx, {}⟩
  [{ name := "x", op := .input, outputs := [layout] },
    { name := "assign", op := .stateWrite, inputs := [⟨⟨0⟩, 0⟩],
      outputs := [(layout.withFormat .any).withType .f16], attrs := .stateWrite "kv_cache" .f16 }]

theorem stored_iff_halvedState : ∃ g swept agreed report node,
    Graph.build? halvedState = some (.ok g) ∧
    Propagation.run? { catalog := singleWrites } g = some swept ∧
    Reconciliation.run? { catalog := singleWrites } swept.graph = some agreed ∧
    agreed.result = .ok report ∧ agreed.graph.node? ⟨1⟩ = some node ∧
    node.attrs = .stateWrite "kv_cache" .f16 ∧ node.deps ≠ [] ∧
    ∃ input, agreed.graph.input? ⟨1⟩ 0 = some input ∧
      (node.isReorder = false → (input.layout.dtype = .f16 ↔
        node.op.isConvolutionLike = true ∨
        (∀ preferred, node.prefers.inputType 0 = some preferred → preferred = .f16) ∨
        input.producer.isConstant = true ∨ input.producer.isSharedSurface = true)) ∧
      (node.isReorder = true → ∃ origin, g.input? ⟨1⟩ 0 = some origin ∧
        input.edge = origin.edge ∧ input.layout.dtype = origin.layout.dtype) := by
  refine ⟨?g, ?swept, ?agreed, ?report, ?node, ?build, ?sweep, ?agree, ?ok, ?writer, ?attrs, ?reads,
    stored_iff_of_agreement ?build ?sweep ?agree ?ok ?writer ?attrs ?reads⟩
  case build => rfl
  case sweep => rfl
  case agree => rfl
  case ok => rfl
  case writer => rfl
  case attrs => rfl
  case reads => exact List.cons_ne_nil _ _

/-- The input is converted to half precision, and back. -/
theorem halvedState_unconverted : ∃ g swept agreed report node input,
    Graph.build? halvedState = some (.ok g) ∧
    Propagation.run? { catalog := singleWrites } g = some swept ∧
    Reconciliation.run? { catalog := singleWrites } swept.graph = some agreed ∧
    agreed.result = .ok report ∧ agreed.graph.node? ⟨1⟩ = some node ∧
    node.attrs = .stateWrite "kv_cache" .f16 ∧ agreed.graph.input? ⟨1⟩ 0 = some input ∧
    input.edge = ⟨⟨2⟩, 0⟩ ∧ input.layout.dtype = .f32 :=
  ⟨_, _, _, _, _, _, rfl, rfl, rfl, rfl, rfl, rfl, rfl, rfl, rfl⟩

end LayoutPlanner
