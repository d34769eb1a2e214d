import LayoutPlanner.Proofs.RestingVisits

/-!
# Detours

How a slot comes to be fed by a reorder before its node is made legal, and what it reads then.

Four repairs come before the search for a legal layout.  Each of them can put a reorder in front of
a slot that is read directly, and each of them can give a new target to a reorder that an earlier
one put there.  `Detour` says what can have come of that.

* A state that is stored in another type is converted first of all, and keeps its padding.
* A constant operand gets another format, and keeps its padding.
* Once padding has been stripped, it does not come back (`Stripped`).

So only slots to which one of these repairs applies can be on a detour (`Detour.patched`).
-/

namespace LayoutPlanner

/-- The type that the node stores what it reads in, if it stores it at all and gets it in another
type. -/
def Node.storedType? (node : Node) (slot : Nat) (source : Layout) : Option ElementType :=
  match slot, node.attrs with
  | 0, .stateWrite _ declared => if source.dtype = declared then none else some declared
  | _, _ => none

theorem Node.storedType?_congr {a b : Node} (hattrs : a.attrs = b.attrs) (slot : Nat)
    {source source' : Layout} (hdtype : source'.dtype = source.dtype) :
    a.storedType? slot source' = b.storedType? slot source := by
  simp only [storedType?, hattrs, hdtype]

theorem Node.storedType?_of_ne_zero {node : Node} {slot : Nat} (hslot : slot ≠ 0)
    (source : Layout) : node.storedType? slot source = none := by
  cases slot with
  | zero => exact absurd rfl hslot
  | succ slot => rfl

/-- The repair of states, told by the stored type. -/
theorem Repair.stateType_eq {node : Node} {input : Input} (hslot : input.slot = 0) :
    stateType node input = (node.storedType? 0 input.layout).map fun declared =>
      { target := (input.layout.withFormat (node.wantedFormat 0 input.layout)).withType declared
        reason := .typeConversion } := by
  unfold stateType Node.storedType?
  rw [hslot]
  cases node.attrs with
  | stateWrite cell declared =>
    by_cases hdtype : input.layout.dtype = declared <;> simp [hdtype]
  | _ => rfl

/-- What a normalization demands of a padded input. -/
theorem Repair.padding_of_normalizationPadding {output : Layout} {node : Node} {input : Input}
    {demand : Demand} (h : normalizationPadding output node input = some demand) :
    input.layout.padding.hasSpatial = true ∧
      demand.target.padding = input.layout.padding.dropSpatial := by
  unfold normalizationPadding at h
  dsimp only at h
  split at h <;> cases h
  next hpadded => exact ⟨(Bool.and_eq_true_iff.1 hpadded).1, rfl⟩

/-- What a vendor routine demands of a padded input. -/
theorem Repair.padding_of_vendorPadding {node : Node} {input : Input} {demand : Demand}
    (h : vendorPadding node input = some demand) :
    input.producer.isSharedSurface = false ∧ input.layout.padding.hasBatchOrSpatial = true ∧
      demand.target.padding = input.layout.padding.onlyFeature := by
  unfold vendorPadding at h
  split at h <;> cases h
  next hpadded =>
    rw [Bool.and_eq_true, Bool.not_eq_true'] at hpadded
    exact ⟨hpadded.1, hpadded.2, rfl⟩

/-! ## Stripped padding -/

/-- Some axis is not padded any more. -/
def Padding.Stripped (before after : Padding) : Prop :=
  ∃ axis, before.isPaddedAt axis = true ∧ after.isPaddedAt axis = false

namespace Padding

theorem Stripped.ne {before after : Padding} (h : Stripped before after) : after ≠ before := by
  rintro rfl
  obtain ⟨axis, hpadded, hclean⟩ := h
  rw [hpadded] at hclean
  cases hclean

theorem Stripped.restrict {before after : Padding} (h : Stripped before after)
    (keep : Nat → Bool) : Stripped before (after.restrict keep) := by
  obtain ⟨axis, hpadded, hclean⟩ := h
  exact ⟨axis, hpadded, by rw [isPaddedAt_restrict, hclean, Bool.and_false]⟩

theorem stripped_dropSpatial {padding : Padding} (h : padding.hasSpatial = true) :
    Stripped padding padding.dropSpatial := by
  obtain ⟨axis, hle, hpadded⟩ := hasSpatial_iff.1 h
  refine ⟨axis, hpadded, ?_⟩
  rw [dropSpatial, isPaddedAt_restrict, decide_eq_false (Nat.not_lt.2 hle), Bool.false_and]

theorem stripped_onlyFeature {padding : Padding} (h : padding.hasBatchOrSpatial = true) :
    Stripped padding padding.onlyFeature := by
  rw [hasBatchOrSpatial, Bool.or_eq_true] at h
  rcases h with hbatch | hspatial
  · exact ⟨0, hbatch, by simp [onlyFeature, isPaddedAt_restrict]⟩
  · obtain ⟨axis, hle, hpadded⟩ := hasSpatial_iff.1 hspatial
    refine ⟨axis, hpadded, ?_⟩
    rw [onlyFeature, isPaddedAt_restrict, beq_eq_false_iff_ne.2 (by omega), Bool.false_and]

end Padding

namespace Reconciliation

/-- One of the repairs that come before the search for a legal layout applies to the input.  What
counts is known before the first visit: no visit changes it, except for that of the node itself. -/
inductive Patched (cx : Context) (node : Node) (input : Input) : Prop
  | state {declared : ElementType}
      (h : node.storedType? input.slot input.layout = some declared)
  | operand (hoptimize : cx.config.optimizeLayout = true) (hslot : input.slot ∈ operandSlots node)
      (hconstant : input.isReal = false)
  | normalization (hop : node.op = .normalization) (hreal : input.isReal = true)
      (hpadded : input.layout.padding.hasSpatial = true)
  | vendor (hkind : expectedKind node = some .vendor) (hreal : input.isReal = true)
      (hplain : input.producer.isSharedSurface = false)
      (hpadded : input.layout.padding.hasBatchOrSpatial = true)

/-- What a slot can be read with, through a reorder, that read `origin` at first. -/
inductive Detour (cx : Context) (node : Node) (origin : Input) (target : Layout) : Prop
  | retyped {declared : ElementType}
      (hstored : node.storedType? origin.slot origin.layout = some declared)
      (h : target = (origin.layout.withFormat
        (node.wantedFormat origin.slot origin.layout)).withType declared)
  | reformatted {format : Format} (hstored : node.storedType? origin.slot origin.layout = none)
      (hoptimize : cx.config.optimizeLayout = true) (hslot : origin.slot ∈ operandSlots node)
      (hconstant : origin.isReal = false) (hne : format ≠ origin.layout.format)
      (h : target = origin.layout.withFormat format)
  | stripped (hpatched : Patched cx node origin)
      (h : Padding.Stripped origin.layout.padding target.padding)

section

variable {cx : Context} {node : Node} {origin : Input} {target : Layout}

theorem Detour.patched (h : Detour cx node origin target) : Patched cx node origin := by
  cases h with
  | retyped hstored => exact .state hstored
  | reformatted _ hoptimize hslot hconstant => exact .operand hoptimize hslot hconstant
  | stripped hpatched => exact hpatched

/-- A detour on which more padding is stripped. -/
theorem Detour.strip (h : Detour cx node origin target) {keep : Nat → Bool} {target' : Layout}
    (hstripped : Padding.Stripped target.padding (target.padding.restrict keep))
    (hpadding : target'.padding = target.padding.restrict keep) :
    Detour cx node origin target' := by
  refine .stripped h.patched ?_
  rw [hpadding]
  cases h with
  | retyped _ h =>
    subst h
    exact hstripped
  | reformatted _ _ _ _ _ h =>
    subst h
    exact hstripped
  | stripped _ h => exact h.restrict keep

end

end Reconciliation

/-! ## The node before the search -/

/-- What a node is and wants, apart from its edges and its outputs. -/
def Node.stance (node : Node) : Node :=
  { node.core with outputs := [] }

section

variable {a b : Node}

theorem Node.stance_of_core (h : a.core = b.core) : a.stance = b.stance := by
  rw [stance, h, stance]

theorem Node.stance_afterSettling (node : Node) (inherited : List Format) :
    (node.afterSettling inherited).stance = node.stance := by
  unfold afterSettling
  split <;> rfl

theorem Node.op_of_stance (h : a.stance = b.stance) : a.op = b.op :=
  (congrArg Node.op h :)

theorem Node.attrs_of_stance (h : a.stance = b.stance) : a.attrs = b.attrs :=
  (congrArg Node.attrs h :)

theorem Node.fused_of_stance (h : a.stance = b.stance) : a.fused = b.fused :=
  (congrArg Node.fused h :)

theorem Node.prefers_of_stance (h : a.stance = b.stance) : a.prefers = b.prefers :=
  (congrArg Node.prefers h :)

theorem Reconciliation.expectedKind_of_stance (h : a.stance = b.stance) :
    expectedKind a = expectedKind b :=
  (congrArg expectedKind h :)

end

namespace Reconciliation

variable {start : Graph} {cx : Context} {old : Node} {origin : Input} {id : NodeId} {slot : Nat}
  {s s' : Reconciliation}

theorem Move.stance_eq (hstart : start.WellFormed) (hs : Sound start s)
    (hid : id.index < start.size) (h : Move id s s') {node node' : Node}
    (hnode : s.graph.node? id = some node) (hnode' : s'.graph.node? id = some node') :
    node'.stance = node.stance := by
  rcases h.core_cases hstart hs hid hnode hnode' with hsame | ⟨inherited, hsettled⟩
  · exact Node.stance_of_core hsame
  · rw [Node.stance_of_core hsettled, Node.stance_afterSettling]

theorem Moves.stance_eq (hstart : start.WellFormed) (hs : Sound start s)
    (hid : id.index < start.size) (h : Moves id s s') {node node' : Node}
    (hnode : s.graph.node? id = some node) (hnode' : s'.graph.node? id = some node') :
    node'.stance = node.stance := by
  refine Moves.inv hstart hs hid (fun s => ∀ node', s.graph.node? id = some node' →
    node'.stance = node.stance) ?_ h ?_ node' hnode'
  · intro s₁ s₂ hs₁ hinv hmove node₂ hnode₂
    obtain ⟨node₁, hnode₁⟩ := Graph.exists_node (Nat.lt_of_lt_of_le hid hs₁.grown)
    rw [hmove.stance_eq hstart hs₁ hid hnode₁ hnode₂, hinv node₁ hnode₁]
  · intro found hfound
    rw [Option.some.inj (hnode.symm.trans hfound)]

/-! ## Where a slot stands -/

/-- The slot is read as it was, and then nothing is stored from it in another type, or it is on a
detour. -/
inductive Standing (start : Graph) (cx : Context) (old : Node) (origin : Input) (id : NodeId)
    (slot : Nat) (s : Reconciliation) : Prop
  | direct {input : Input} (hinput : s.graph.input? id slot = some input)
      (hface : input.face = origin.face) (hlayout : input.layout = origin.layout)
      (hstored : old.storedType? origin.slot origin.layout = none)
  | detour {input : Input} {target : Layout} (h : Delivered start slot target s.graph id input)
      (hdetour : Detour cx old origin target)

/-- Only what the slot shows counts. -/
theorem Standing.of_face (h : Standing start cx old origin id slot s) (hs' : Sound start s')
    (hsame : (s'.graph.input? id slot).map Input.face = (s.graph.input? id slot).map Input.face) :
    Standing start cx old origin id slot s' := by
  cases h with
  | direct hinput hface hlayout hstored =>
    obtain ⟨input', hinput', hface'⟩ := exists_of_map_eq hsame hinput
    exact .direct hinput' (hface'.trans hface)
      ((Input.layout_of_face hinput' hinput hface').trans hlayout) hstored
  | detour hdelivered hdetour =>
    obtain ⟨input', hinput', hface'⟩ := exists_of_map_eq hsame hdelivered.at_slot
    exact .detour (hdelivered.of_face hs' hinput' hface') hdetour

/-- A loop of repairs, given what it demands of a slot that is read as it was, and of one that is on
a detour. -/
theorem Standing.repaired (h : Standing start cx old origin id slot s) {node : Node}
    (hnode : s.graph.node? id = some node) {repair : Reconciliation → Repair} {slots : List Nat}
    (hrepaired : Repaired start id repair slots s s')
    (hdirect : ∀ {input demand}, slot ∈ slots → s.graph.input? id slot = some input →
      input.face = origin.face → input.layout = origin.layout →
      old.storedType? origin.slot origin.layout = none → repair s node input = some demand →
      Detour cx old origin demand.target)
    (hdetour : ∀ {input target demand}, Delivered start slot target s.graph id input →
      Detour cx old origin target → repair s node input = some demand →
      Detour cx old origin demand.target) :
    Standing start cx old origin id slot s' := by
  by_cases hmem : slot ∈ slots
  swap
  · exact h.of_face hrepaired.served.sound (hrepaired.untouched hmem)
  have hinput : ∃ input, s.graph.input? id slot = some input := by
    cases h with
    | direct hinput => exact ⟨_, hinput⟩
    | detour hdelivered => exact ⟨_, hdelivered.at_slot⟩
  obtain ⟨input, hinput⟩ := hinput
  rcases hrepaired.done hmem hnode hinput with ⟨_, hface⟩ | ⟨demand, _, hdemand, hdelivered'⟩
  · refine h.of_face hrepaired.served.sound ?_
    rw [hface, hinput, Option.map_some]
  · refine .detour hdelivered' ?_
    cases h with
    | direct hfound hface hlayout hstored =>
      obtain rfl := Option.some.inj (hinput.symm.trans hfound)
      exact hdirect hmem hinput hface hlayout hstored hdemand
    | detour hdelivered hon =>
      obtain rfl := Option.some.inj (hinput.symm.trans hdelivered.at_slot)
      exact hdetour hdelivered hon hdemand

/-- A state in the course of the visit of `id`, before the search for a legal layout. -/
structure Underway (start : Graph) (cx : Context) (old : Node) (origin : Input) (id : NodeId)
    (slot : Nat) (s : Reconciliation) : Prop where
  sound : Sound start s
  node : ∃ node, s.graph.node? id = some node ∧ node.stance = old.stance
  standing : Standing start cx old origin id slot s

section Stages

variable (hstart : start.Ordered) (hid : id.index < start.size)

include hstart hid

/-- Local edits do not show on the slots. -/
theorem Standing.localEdit (h : Standing start cx old origin id slot s) (hs : Sound start s)
    {g : Graph} (hedit : Graph.LocalEdit id s.graph g) :
    Standing start cx old origin id slot (s.withGraph g) :=
  h.of_face (hs.localEdit hid hedit rfl rfl) (hs.input?_face_eq hstart hid hedit slot)

omit hstart hid in
/-- If nothing is done about a state, nothing is stored in another type. -/
theorem storedType?_of_rests {node : Node}
    (h : ∀ input, s.graph.input? id 0 = some input → Repair.stateType node input = none)
    (horigin : s.graph.input? id slot = some origin) :
    node.storedType? slot origin.layout = none := by
  by_cases hzero : slot = 0
  · subst hzero
    have hrepair : Repair.stateType node origin = _ :=
      Repair.stateType_eq (Graph.slot_of_input? horigin)
    rw [h origin horigin] at hrepair
    exact Option.map_eq_none_iff.1 hrepair.symm
  · exact Node.storedType?_of_ne_zero hzero _

/-- The first stage looks after the states. -/
theorem standing_of_convertState? (hs : Sound start s) {node : Node}
    (hnode : s.graph.node? id = some node) (hstance : node.stance = old.stance)
    (horigin : s.graph.input? id slot = some origin) (h : s.convertState? id = some s') :
    Standing start cx old origin id slot s' := by
  have hslot := Graph.slot_of_input? horigin
  have hstored : ∀ other source, node.storedType? other source = old.storedType? other source :=
    fun other source => Node.storedType?_congr (Node.attrs_of_stance hstance) other rfl
  have hwanted : node.wantedFormat = old.wantedFormat := by
    funext other source
    simp only [Node.wantedFormat, Node.prefers_of_stance hstance]
  cases stateRepair_of_convertState? hnode h with
  | rests hnone =>
    refine .direct horigin rfl rfl ?_
    rw [hslot, ← hstored]
    exact storedType?_of_rests hnone horigin
  | @converts input demand s₁ g₂ g₃ hinput hdemand hconvert hinvalidate hsettle =>
    have hconverted := (convert?_spec hstart.wellFormed hs hid hinput
      (Repair.lawful_stateType.shape_eq (s := s) hdemand) _).post_of_eq hconvert
    obtain ⟨_, hnode₁, _⟩ := hconverted.core_eq hnode
    have hedit := localEdit_of_resettle hconverted.sound.wellFormed hnode₁ hinvalidate hsettle
    suffices hstanding : Standing start cx old origin id slot s₁ from
      hstanding.localEdit hstart hid hconverted.sound hedit
    by_cases hzero : slot = 0
    · subst hzero
      obtain rfl := Option.some.inj (horigin.symm.trans hinput)
      obtain ⟨input', hdelivered⟩ :=
        hconverted.exists_delivered hnode (Graph.lt_length_of_input? hnode hinput)
      rw [Repair.stateType_eq hslot] at hdemand
      obtain ⟨declared, hdue, rfl⟩ := Option.map_eq_some_iff.1 hdemand
      rw [hstored] at hdue
      rw [hwanted] at hdelivered
      exact .detour hdelivered (.retyped (by rw [hslot, hdue]) (by rw [hslot]))
    · have hsame : (s₁.graph.input? id slot).map Input.face =
          (s.graph.input? id slot).map Input.face :=
        hconverted.inputs hid fun heq => hzero heq.2
      refine Standing.of_face (.direct horigin rfl rfl ?_) hconverted.sound hsame
      exact Node.storedType?_of_ne_zero (hslot ▸ hzero) _

end Stages

section Underway

variable (hstart : start.Ordered) (hold : start.node? id = some old)

include hstart hold

theorem Underway.of_advanced (hs : Sound start s) {node : Node}
    (hnode : s.graph.node? id = some node) (hstance : node.stance = old.stance)
    (h : Advanced start id s s') (hstanding : Standing start cx old origin id slot s') :
    Underway start cx old origin id slot s' := by
  have hid := Graph.lt_size_of_node? hold
  obtain ⟨node', hnode'⟩ := Graph.exists_node (Nat.lt_of_lt_of_le hid h.sound.grown)
  refine ⟨h.sound, ⟨node', hnode', ?_⟩, hstanding⟩
  rw [Moves.stance_eq hstart.wellFormed hs hid h.moves hnode hnode', hstance]

theorem underway_of_convertState? (hs : Sound start s) {node : Node}
    (hnode : s.graph.node? id = some node) (hstance : node.stance = old.stance)
    (horigin : s.graph.input? id slot = some origin) (h : s.convertState? id = some s') :
    Underway start cx old origin id slot s' := by
  have hid := Graph.lt_size_of_node? hold
  have hdeps : node.deps ≠ [] :=
    List.length_pos_iff.1 (Nat.zero_lt_of_lt (Graph.lt_length_of_input? hnode horigin))
  exact .of_advanced hstart hold hs hnode hstance
    ((convertState?_spec hstart.wellFormed hs hid hnode hdeps).post_of_eq h)
    (standing_of_convertState? hstart hid hs hnode hstance horigin h)

variable (h : Underway start cx old origin id slot s)

include h

/-- A loop that is given what it demands. -/
theorem Underway.loop {node : Node} (hstance : node.stance = old.stance)
    {repair : Reconciliation → Repair} {slots : List Nat} (hloop : Loop id node repair slots s)
    (hrun : slots.foldlM (repairSlot? id repair) s = some s')
    (hdirect : ∀ {input demand}, slot ∈ slots → s.graph.input? id slot = some input →
      input.face = origin.face → input.layout = origin.layout →
      old.storedType? origin.slot origin.layout = none → repair s node input = some demand →
      Detour cx old origin demand.target)
    (hdetour : ∀ {input target demand}, Delivered start slot target s.graph id input →
      Detour cx old origin target → repair s node input = some demand →
      Detour cx old origin demand.target) : Underway start cx old origin id slot s' := by
  obtain ⟨hrepaired, hmoves⟩ :=
    (hloop.spec hstart.wellFormed h.sound (Graph.lt_size_of_node? hold)).post_of_eq hrun
  exact .of_advanced hstart hold h.sound hloop.at_id hstance (hrepaired.advanced hmoves)
    (h.standing.repaired hloop.at_id hrepaired hdirect hdetour)

theorem Underway.operands
    (hrun : (if cx.config.optimizeLayout then s.reorderOperands? id else some s) = some s') :
    Underway start cx old origin id slot s' := by
  obtain ⟨node, hnode, hstance⟩ := h.node
  rcases operands_cases hnode hrun with ⟨_, rfl⟩ | ⟨hoptimize, output, houtput, hrun⟩
  · exact h
  have hoperands : operandSlots node = operandSlots old := by
    rw [operandSlots, Node.fused_of_stance hstance, h.sound.length_deps hold hnode, operandSlots]
  refine h.loop hstart hold hstance (loop_operands hnode houtput) hrun ?_ ?_
  · intro input demand hmem hinput hface hlayout hstored hdemand
    have hslot : origin.slot = slot :=
      (congrArg (·.1) hface).symm.trans (Graph.slot_of_input? hinput)
    unfold Repair.fusedConstant at hdemand
    dsimp only at hdemand
    split at hdemand <;> cases hdemand
    next hfine =>
      simp only [Bool.or_eq_true, decide_eq_true_eq, not_or, Bool.not_eq_true] at hfine
      refine .reformatted hstored hoptimize (hslot ▸ hoperands ▸ hmem) ?_ ?_ (by rw [hlayout])
      · rw [← Input.isReal_of_face hface]
        exact hfine.1.1
      · rw [← hlayout]
        exact fun heq => hfine.2 heq.symm
  · intro input target demand hdelivered _ hdemand
    simp [Repair.fusedConstant, hdelivered.isReal] at hdemand

theorem Underway.normalization (hrun : s.unpadNormalization? id = some s') :
    Underway start cx old origin id slot s' := by
  obtain ⟨node, hnode, hstance⟩ := h.node
  rcases normalization_cases hnode hrun with
    ⟨_, rfl⟩ | ⟨hop, slots, output, hslots, houtput, hrun⟩
  · exact h
  have hwf := h.sound.wellFormed
  refine h.loop hstart hold hstance (loop_normalization hnode hwf hslots hop houtput) hrun ?_ ?_
  · intro input demand hmem hinput hface hlayout _ hdemand
    obtain ⟨hspatial, htarget⟩ := Repair.padding_of_normalizationPadding hdemand
    have hreal := (lt_length_of_realSlots hwf hnode hslots slot hmem).2 input hinput
    rw [hlayout] at hspatial htarget
    refine .stripped (.normalization ?_ ?_ hspatial) ?_
    · rw [← Node.op_of_stance hstance, hop]
    · rw [← Input.isReal_of_face hface, hreal]
    · rw [htarget]
      exact Padding.stripped_dropSpatial hspatial
  · intro input target demand hdelivered hdetour hdemand
    obtain ⟨hspatial, htarget⟩ := Repair.padding_of_normalizationPadding hdemand
    rw [hdelivered.layout_eq] at hspatial htarget
    exact hdetour.strip (Padding.stripped_dropSpatial hspatial) htarget

theorem Underway.vendor (hrun : s.unpadVendor? id = some s') :
    Underway start cx old origin id slot s' := by
  obtain ⟨node, hnode, hstance⟩ := h.node
  rcases vendor_cases hnode hrun with ⟨_, rfl⟩ | ⟨hkind, slots, hslots, hrun⟩
  · exact h
  have hwf := h.sound.wellFormed
  refine h.loop hstart hold hstance (loop_vendor hnode hwf hslots hkind) hrun ?_ ?_
  · intro input demand hmem hinput hface hlayout _ hdemand
    obtain ⟨hplain, hpadded, htarget⟩ := Repair.padding_of_vendorPadding hdemand
    have hreal := (lt_length_of_realSlots hwf hnode hslots slot hmem).2 input hinput
    rw [hlayout] at hpadded htarget
    refine .stripped (.vendor ?_ ?_ ?_ hpadded) ?_
    · rw [← expectedKind_of_stance hstance, hkind]
    · rw [← Input.isReal_of_face hface, hreal]
    · rw [← Input.isSharedSurface_of_face hface, hplain]
    · rw [htarget]
      exact Padding.stripped_onlyFeature hpadded
  · intro input target demand hdelivered hdetour hdemand
    obtain ⟨_, hpadded, htarget⟩ := Repair.padding_of_vendorPadding hdemand
    rw [hdelivered.layout_eq] at hpadded htarget
    exact hdetour.strip (Padding.stripped_onlyFeature hpadded) htarget

end Underway

/-- What a slot reads when the visit begins, and where it stands after each stage up to the search.
The search does not show on the slots. -/
theorem Stages.underway (hstart : start.Ordered) (hs : Sound start s)
    (hold : start.node? id = some old) (hfresh : (s.graph.node? id).map Node.bare = some old.bare)
    {s₁ s₂ s₃ s₄ s₅ s₆ : Reconciliation} (h : Stages cx id s s₁ s₂ s₃ s₄ s₅ s₆ s') {edge : Edge}
    (hedge : start.dep? id slot = some edge) :
    ∃ origin, Sound start s₁ ∧ s₁.graph.input? id slot = some origin ∧ origin.edge = edge ∧
      Underway start cx old origin id slot s₂ ∧ Underway start cx old origin id slot s₃ ∧
      Underway start cx old origin id slot s₄ ∧ Underway start cx old origin id slot s₅ ∧
      Sound start s₆ ∧ Standing start cx old origin id slot s₆ := by
  have hid := Graph.lt_size_of_node? hold
  obtain ⟨g, hsettle, rfl⟩ := h.settled
  obtain ⟨before, hbefore, hbare⟩ := Option.map_eq_some_iff.1 hfresh
  obtain ⟨hedit, inherited, node, _, hnode, hsettled⟩ :=
    (Graph.settle?_spec hs.wellFormed hbefore).post_of_eq hsettle
  have hs₁ : Sound start (s.withGraph g) := hs.localEdit hid hedit rfl rfl
  have hstance : node.stance = old.stance := by
    rw [Node.stance_of_core (Node.core_of_bare hsettled), Node.stance_afterSettling,
      Node.stance_of_core (Node.core_of_bare hbare)]
  have hdep : node.deps[slot]? = some edge := by
    obtain ⟨_, hfound, hcontent⟩ := hedit.content.nodes.exists_new hbefore
    obtain rfl := Option.some.inj (hnode.symm.trans hfound)
    obtain ⟨_, hfound', hget⟩ := Option.bind_eq_some_iff.1 hedge
    obtain rfl := Option.some.inj (hold.symm.trans hfound')
    rw [(Node.content_eq_iff.1 hcontent).2.1, Node.deps_of_bare hbare, hget]
  obtain ⟨origin, horigin⟩ :=
    hs₁.wellFormed.exists_input hnode (List.getElem?_eq_some_iff.1 hdep).1
  have hedge_eq : origin.edge = edge := by
    obtain ⟨_, hfound, hget, _⟩ := Graph.input?_eq_some_iff.1 horigin
    obtain rfl := Option.some.inj (hnode.symm.trans hfound)
    exact Option.some.inj (hget.symm.trans hdep)
  have h₂ : Underway start cx old origin id slot s₂ :=
    underway_of_convertState? hstart hold hs₁ hnode hstance horigin h.state
  have h₃ := h₂.operands hstart hold h.operands
  have h₄ := h₃.normalization hstart hold h.normalization
  have h₅ := h₄.vendor hstart hold h.vendor
  obtain ⟨node₅, hnode₅, _⟩ := h₅.node
  have hlegalized := (legalize?_spec cx h₅.sound.wellFormed hnode₅).post_of_eq h.legal
  have hs₆ := h₅.sound.localEdit hid hlegalized.edit hlegalized.conversions_eq
    hlegalized.created_eq
  exact ⟨origin, hs₁, horigin, hedge_eq, h₂, h₃, h₄, h₅, hs₆, h₅.standing.of_face hs₆
    (h₅.sound.input?_face_eq hstart hid hlegalized.edit slot)⟩

end Reconciliation

end LayoutPlanner
