import LayoutPlanner.Proofs.ConsistentFormats
import LayoutPlanner.Proofs.FoldedPermutes
import LayoutPlanner.Proofs.RestingVisits

/-!
# Absorbed permutes

The mark of a folded permute stands for a promise: nothing comes between the permute and the compute
node that it reads, a vendor routine runs the compute node, and that one produces the format of the
permute.  Later stages do not look at the mark.

* Edge agreement may adopt another format for either node, for all outputs at once
  (`keepsOrAdopts_of_run`), and may strip padding from what the permute reads.  Where the formats
  still agree at the end, it puts a reorder in between for padding only, or if the format does not
  fit the rank (`decides_of_turn`).
* Construction chooses what runs the compute node without regard to the permute.
-/

namespace LayoutPlanner

theorem Format.rank_le_of_fits {format : Format} {rank : Nat} (h : format.fits rank = true) :
    rank ≤ 6 := by
  cases format <;> simp [fits, axes?, axesOfRank] at h <;> omega

/-! ## Formats on the two sides of a node -/

namespace Node

/-- The first output has a format that fits.  The node prefers that format on its first slot too, if
it fits the rank of what is read there. -/
structure Matches (rank : Nat) (node : Node) : Prop where
  inputTypes : node.prefers.inputTypes = []
  preferred : node.prefers.input 0 ≠ .any
  format : ∃ output, node.outputs[0]? = some output ∧ output.format.fits output.rank = true ∧
    (output.format.fits rank = true → node.prefers.input 0 = output.format)

variable {a b : Node} {rank : Nat}

theorem Matches.congr (ha : a.Matches rank) (houtputs : b.outputs = a.outputs)
    (hprefers : b.prefers = a.prefers) : b.Matches rank := by
  obtain ⟨htypes, hpreferred, hformat⟩ := ha
  refine ⟨?_, ?_, ?_⟩
  · rw [hprefers, htypes]
  · rw [hprefers]
    exact hpreferred
  · rw [houtputs, hprefers]
    exact hformat

theorem Folded.matches (ha : a.Folded) (rank : Nat) : a.Matches rank := by
  obtain ⟨output, houtput, hfits, hinput, _⟩ := ha.format
  refine ⟨ha.inputTypes, ?_, output, houtput, hfits, fun _ => hinput⟩
  rw [hinput]
  exact Format.isChosen_iff_ne.1 (Format.isChosen_of_fits hfits)

/-- Another format is adopted on both sides. -/
theorem Matches.adopts {format : Format} {accepts : Nat → Prop} (ha : a.Matches rank)
    (h : a.Adopts format accepts b) (haccepts : accepts 0 ↔ format.fits rank = true)
    (hfits : ∀ {output}, a.outputs[0]? = some output → output.rank ≤ 6 →
      format.fits output.rank = true) : b.Matches rank := by
  obtain ⟨output, houtput, hfits_old, _⟩ := ha.format
  have hadopted := hfits houtput (Format.rank_le_of_fits hfits_old)
  refine ⟨?_, ?_, output.withFormat format, ?_, hadopted, fun hrank => ?_⟩
  · rw [h.inputTypes, ha.inputTypes]
  · by_cases hslot : accepts 0
    · rw [h.input_of_accepts hslot]
      exact Format.isChosen_iff_ne.1 (Format.isChosen_of_fits hadopted)
    · rw [h.input_of_not hslot]
      exact ha.preferred
  · rw [h.outputs, List.getElem?_map, houtput, Option.map_some, Format.adaptTo_of_fits hadopted]
  · exact h.input_of_accepts (haccepts.2 hrank)

theorem Matches.wantedType_eq {source : Layout} (ha : a.Matches rank) :
    a.wantedType 0 source = source.dtype := by
  simp [wantedType, FormatPreference.inputType, ha.inputTypes]

/-- What is read in the format of the first output is wanted as it is, unless it is inconsistent. -/
theorem Matches.wantedFormat_eq_iff {produced output : Layout} (ha : a.Matches produced.rank)
    (houtput : a.outputs[0]? = some output) (hsame : produced.format = output.format) :
    a.wantedFormat 0 produced = produced.format ↔ produced.Consistent := by
  obtain ⟨_, hfound, hfits, hboth⟩ := ha.format
  obtain rfl := Option.some.inj (houtput.symm.trans hfound)
  rw [wantedFormat_of_ne ha.preferred]
  constructor
  · intro heq
    exact Layout.consistent_of_adaptTo rfl heq.symm
  · intro hconsistent
    by_cases hrank : output.format.fits produced.rank = true
    · rw [hboth hrank, hsame, Format.adaptTo_of_fits hrank]
    have hchosen : produced.format ≠ .any := by
      rw [hsame]
      exact Format.isChosen_iff_ne.1 (Format.isChosen_of_fits hfits)
    have hdefault : Format.defaultFor produced.rank = produced.format := by
      rw [← hconsistent.resolve_left hchosen, Format.adaptTo, hsame, if_neg hrank]
    have hhigh : ¬produced.rank ≤ 6 := by
      intro hle
      rw [← hsame, ← hdefault] at hrank
      exact hrank (Format.fits_defaultFor hle)
    rw [Format.adaptTo, if_neg (mt Format.rank_le_of_fits hhigh), hdefault]

/-! ## Formats between propagation and the end -/

/-- The outputs of `old` that had formats are the same in `node`, or one format has been adopted for
all outputs. -/
def KeepsOrAdopts (old node : Node) : Prop :=
  (∀ {index : Nat} {layout : Layout}, old.outputs[index]? = some layout →
    layout.format.isChosen = true → node.outputs[index]? = some layout) ∨
  ∃ format : Format, ∀ layout ∈ node.outputs, layout.format = format.adaptTo layout.rank

theorem keepsOrAdopts_refl (node : Node) : node.KeepsOrAdopts node :=
  Or.inl fun hlayout _ => hlayout

/-- Whoever fills in formats only where there are none does no more. -/
theorem KeepsOrAdopts.of_kept {old : Node} (h : old.KeepsOrAdopts a)
    (hlength : b.outputs.length = a.outputs.length)
    (hkept : ∀ {index : Nat} {layout : Layout}, a.outputs[index]? = some layout →
      layout.format.isChosen = true → b.outputs[index]? = some layout) : old.KeepsOrAdopts b := by
  rcases h with hold | ⟨format, hadopted⟩
  · exact Or.inl fun hlayout hchosen => hkept (hold hlayout hchosen) hchosen
  · refine Or.inr ⟨format, fun layout hmem => ?_⟩
    obtain ⟨index, hlt, hget⟩ := List.mem_iff_getElem.1 hmem
    have hbefore := List.getElem?_eq_getElem (hlength ▸ hlt)
    have hformat := hadopted _ (List.getElem_mem (hlength ▸ hlt))
    have hchosen : a.outputs[index].format.isChosen = true := by
      rw [hformat]
      exact Format.isChosen_iff_ne.2 (Format.adaptTo_ne_any format _)
    have hafter := hkept hbefore hchosen
    rw [List.getElem?_eq_getElem hlt, hget] at hafter
    rw [Option.some.inj hafter, hformat]

theorem KeepsOrAdopts.of_outputs {old : Node} (h : old.KeepsOrAdopts a)
    (houtputs : b.outputs = a.outputs) : old.KeepsOrAdopts b :=
  h.of_kept (congrArg List.length houtputs) fun hlayout _ => by rw [houtputs, hlayout]

end Node

namespace Reconciliation

variable {start : Graph} {cx : Context} {id : NodeId} {s s' : Reconciliation} {node : Node}
  {edge : Edge} {input : Input}

theorem Change.keepsOrAdopts {old node' : Node} (h : Change node node') (hhonours : node.Honours)
    (hold : old.KeepsOrAdopts node) : old.KeepsOrAdopts node' := by
  cases h with
  | same h => exact hold.of_outputs (Node.outputs_of_core h)
  | settled inherited h =>
    have hsettles := node.settlesTo_afterSettling inherited
    have hlength : (node.afterSettling inherited).outputs.length = node.outputs.length := by
      simpa using congrArg List.length hsettles.content
    exact (hold.of_kept hlength (hsettles.chosen hhonours)).of_outputs (Node.outputs_of_core h)
  | legalized base hbase h =>
    rcases h with hsame | ⟨format, _, hadopts⟩
    · refine Node.KeepsOrAdopts.of_outputs ?_ (Node.outputs_of_core hsame)
      rcases hbase with hkept | ⟨_, hhanded⟩
      · exact hold.of_outputs (Node.outputs_of_core hkept)
      · exact hold.of_outputs ((Node.outputs_of_core hhanded).trans rfl)
    · refine Or.inr ⟨format, fun layout hmem => ?_⟩
      rw [hadopts.outputs] at hmem
      obtain ⟨_, _, rfl⟩ := List.mem_map.1 hmem
      rfl

/-- Edge agreement changes formats in one way only: it adopts another one for all outputs of a
node. -/
theorem keepsOrAdopts_of_run (hstart : start.Ordered) (hhonours : start.Honours) :
    Yields (start.order.foldlM (visit? cx) { graph := start }) fun s => Sound start s ∧
      ∀ {id old node}, start.node? id = some old → s.graph.node? id = some node →
        old.KeepsOrAdopts node := by
  refine (run?_related hstart (fun old node => old.Honours →
    node.Honours ∧ old.KeepsOrAdopts node) (fun node h => ⟨h, node.keepsOrAdopts_refl⟩) ?_).mono ?_
  · intro old node node' hchange hrel hold
    obtain ⟨hnode, hkeeps⟩ := hrel hold
    exact ⟨hchange.honours hnode, hchange.keepsOrAdopts hnode hkeeps⟩
  · rintro s ⟨hs, hrel⟩
    exact ⟨hs, fun hold hnode => (hrel hold hnode (hhonours hold)).2⟩

/-- The search for a legal layout keeps the two sides of a node in one format. -/
theorem Legalized.matches (h : Legalized cx id s s') (hnode : s.graph.node? id = some node)
    (hinput : s.graph.input? id 0 = some input) (hreal : input.isReal = true)
    (hmatches : node.Matches input.layout.rank) {node' : Node}
    (hnode' : s'.graph.node? id = some node') : node'.Matches input.layout.rank := by
  obtain ⟨base, hbase, hending⟩ := h.ending
  obtain ⟨node₁, hnode₁, hmatches₁⟩ : ∃ node₁, base.node? id = some node₁ ∧
      node₁.Matches input.layout.rank := by
    rcases hbase with hrestored | hhanded
    · obtain ⟨node₁, hnode₁, hbare⟩ := hrestored.bare.exists_new hnode
      exact ⟨node₁, hnode₁, hmatches.congr (Node.outputs_of_bare hbare)
        (Node.prefers_of_bare hbare)⟩
    · obtain ⟨_, node₁, hnode₁, hbare⟩ := hhanded.node hnode
      exact ⟨node₁, hnode₁, hmatches.congr ((Node.outputs_of_bare hbare).trans rfl)
        ((Node.prefers_of_bare hbare).trans rfl)⟩
  have hkept : base.Restored id s'.graph → node'.Matches input.layout.rank := by
    intro hrestored
    obtain ⟨_, hfound, hbare⟩ := hrestored.bare.exists_new hnode₁
    obtain rfl := Option.some.inj (hnode'.symm.trans hfound)
    exact hmatches₁.congr (Node.outputs_of_bare hbare) (Node.prefers_of_bare hbare)
  cases hending with
  | supported hrestored => exact hkept hrestored
  | deferred hrestored => exact hkept hrestored
  | unresolved hrestored => exact hkept hrestored
  | adopted format hadopts _ _ hfits =>
    obtain ⟨_, hfound, hadopted⟩ := hadopts.node hnode₁
    obtain rfl := Option.some.inj (hnode'.symm.trans hfound)
    refine hmatches₁.adopts hadopted ?_ (hfits hnode₁)
    have hcontent : Graph.SameContent s.graph base := by
      rcases hbase with hrestored | hhanded
      · exact hrestored.edit.content
      · exact hhanded.edit.content
    rw [Graph.accepts_iff hcontent]
    refine ⟨fun ⟨found, hfound, _, hrank⟩ => ?_, fun hrank => ⟨input, hinput, hreal, hrank⟩⟩
    obtain rfl := Option.some.inj (hinput.symm.trans hfound)
    exact hrank

/-! ## The turn of a folded permute -/

/-- What a node with a single input reads there. -/
theorem producer_of_singleton {g : Graph} (hnode : g.node? id = some node)
    (hdeps : node.deps = [edge]) (hinput : g.input? id 0 = some input) :
    g.node? edge.node = some input.producer ∧
      input.producer.outputs[edge.output]? = some input.layout := by
  obtain ⟨_, hfound, hdep, _, hproducer, hlayout⟩ := Graph.input?_eq_some_iff.1 hinput
  obtain rfl := Option.some.inj (hnode.symm.trans hfound)
  obtain rfl : input.edge = edge := by simpa [hdeps] using hdep.symm
  exact ⟨hproducer, hlayout⟩

theorem realSlots?_eq_singleton {g : Graph} (hnode : g.node? id = some node)
    (hdeps : node.deps = [edge]) (hinput : g.input? id 0 = some input)
    (hreal : input.isReal = true) : g.realSlots? id = some [0] := by
  have hfollow : g.follow? edge 0 = some input := by
    simpa [Graph.input?, Graph.dep?, hnode, hdeps] using hinput
  have hslot := Graph.slot_of_input? hinput
  simp [Graph.realSlots?, Graph.inputs?, hnode, hdeps, hfollow, hreal, hslot]

/-- The only slot of the node reads a reorder of this run. -/
structure Diverted (start : Graph) (id : NodeId) (node : Node) (s : Reconciliation) : Prop where
  sound : Sound start s
  node : ∃ node' reorder, s.graph.node? id = some node' ∧
    node'.bare = { node with deps := [⟨reorder, 0⟩] }.bare ∧ start.size ≤ reorder.index

/-- A repair of the only slot of a node. -/
theorem diverted_of_repairSlot? (hstart : start.WellFormed) (hs : Sound start s)
    (hid : id.index < start.size) (hnode : s.graph.node? id = some node)
    (hdeps : node.deps = [edge]) (hinput : s.graph.input? id 0 = some input)
    {repair : Reconciliation → Repair} (hrepair : Repair.Lawful repair)
    (h : repairSlot? id repair s 0 = some s') :
    repair s node input = none ∧ s' = s ∨
      repair s node input ≠ none ∧ Diverted start id node s' := by
  simp only [repairSlot?, hnode, hinput, Option.bind_eq_bind, Option.bind_some] at h
  cases hdemand : repair s node input with
  | none =>
    rw [hdemand] at h
    cases h
    exact .inl ⟨rfl, rfl⟩
  | some demand =>
    rw [hdemand] at h
    have hconverted :=
      (convert?_spec hstart hs hid hinput (hrepair.shape_eq hdemand) _).post_of_eq h
    obtain ⟨node', reorder, hnode', hbare, hle, _⟩ := hconverted.moved hnode
    rw [hdeps] at hbare
    exact .inr ⟨Option.some_ne_none _, hconverted.sound, node', reorder, hnode', hbare, hle⟩

theorem diverted_of_reconcile? (hstart : start.WellFormed) (hs : Sound start s)
    (hid : id.index < start.size) (hnode : s.graph.node? id = some node)
    (hdeps : node.deps = [edge]) (hinput : s.graph.input? id 0 = some input)
    (hreal : input.isReal = true) (h : s.reconcile? id = some s') :
    Repair.agreement s.isCreated node input = none ∧ s' = s ∨
      Repair.agreement s.isCreated node input ≠ none ∧ Diverted start id node s' := by
  refine diverted_of_repairSlot? hstart hs hid hnode hdeps hinput Repair.lawful_agreement ?_
  simpa [reconcile?, realSlots?_eq_singleton hnode hdeps hinput hreal] using h

theorem diverted_of_unpadVendor? (hstart : start.WellFormed) (hs : Sound start s)
    (hid : id.index < start.size) (hnode : s.graph.node? id = some node)
    (hdeps : node.deps = [edge]) (hinput : s.graph.input? id 0 = some input)
    (hreal : input.isReal = true) (h : s.unpadVendor? id = some s') :
    (expectedKind node ≠ some .vendor ∨ Repair.vendorPadding node input = none) ∧ s' = s ∨
      (expectedKind node = some .vendor ∧ Repair.vendorPadding node input ≠ none) ∧
        Diverted start id node s' := by
  simp only [unpadVendor?, hnode, Option.bind_eq_bind, Option.bind_some] at h
  split at h
  next hkind =>
    have hslot : repairSlot? id (fun _ => Repair.vendorPadding) s 0 = some s' := by
      simpa [repairSlots?, realSlots?_eq_singleton hnode hdeps hinput hreal] using h
    rcases diverted_of_repairSlot? hstart hs hid hnode hdeps hinput Repair.lawful_vendorPadding
      hslot with ⟨hnone, heq⟩ | ⟨hsome, hdiverted⟩
    · exact .inl ⟨.inr hnone, heq⟩
    · exact .inr ⟨⟨hkind, hsome⟩, hdiverted⟩
  next hkind =>
    cases h
    exact .inl ⟨.inl hkind, rfl⟩

/-- Once diverted, the slot does not go back to its edge. -/
theorem Diverted.ne_edge (h : Diverted start id node s) (hedge : edge.node.index < start.size)
    {node' : Node} (hnode' : s.graph.node? id = some node') : node'.deps ≠ [edge] := by
  obtain ⟨_, reorder, hfound, hbare, hle⟩ := h.node
  obtain rfl := Option.some.inj (hnode'.symm.trans hfound)
  rw [Node.deps_of_bare hbare]
  rintro ⟨⟩
  exact absurd hedge (Nat.not_lt.2 hle)

/-- Where a repair demands nothing, a loop over slots does nothing. -/
theorem eq_of_repairSlots {repair : Reconciliation → Repair} {slots : List Nat}
    (hnode : s.graph.node? id = some node)
    (hnone : ∀ slot input, s.graph.input? id slot = some input → repair s node input = none)
    (h : slots.foldlM (repairSlot? id repair) s = some s') : s' = s := by
  induction slots with
  | nil =>
    cases h
    rfl
  | cons slot rest ih =>
    rw [List.foldlM_cons] at h
    obtain ⟨s₁, hs₁, h⟩ := Option.bind_eq_some_iff.1 h
    obtain ⟨_, hfound, hs₁⟩ := Option.bind_eq_some_iff.1 hs₁
    obtain rfl := Option.some.inj (hnode.symm.trans hfound)
    obtain ⟨input, hinput, hs₁⟩ := Option.bind_eq_some_iff.1 hs₁
    rw [hnone slot input hinput] at hs₁
    cases hs₁
    exact ih h

/-- The stages before padding is stripped do nothing about a permute of data. -/
theorem Stages.skip {s₁ s₂ s₃ s₄ s₅ s₆ : Reconciliation}
    (h : Stages cx id s s₁ s₂ s₃ s₄ s₅ s₆ s') (hnode : s₁.graph.node? id = some node)
    (hop : node.op = .permute) {order : List Nat} (hattrs : node.attrs = .permute order)
    (hreal : ∀ slot input, s₁.graph.input? id slot = some input → input.isReal = true) :
    s₄ = s₁ := by
  have hstate : s₂ = s₁ := by
    have heq := h.state
    simp only [convertState?, hnode, hattrs, Option.bind_eq_bind, Option.bind_some] at heq
    exact (Option.some.inj heq).symm
  have hoperands : s₃ = s₁ := by
    have heq := h.operands
    rw [hstate] at heq
    split at heq
    next =>
      obtain ⟨_, hfound, heq⟩ := Option.bind_eq_some_iff.1 heq
      obtain rfl := Option.some.inj (hnode.symm.trans hfound)
      obtain ⟨output, _, heq⟩ := Option.bind_eq_some_iff.1 heq
      refine eq_of_repairSlots hnode (fun slot input hinput => ?_) heq
      simp [Repair.fusedConstant, hreal slot input hinput]
    next => exact (Option.some.inj heq).symm
  have heq := h.normalization
  rw [hoperands] at heq
  simp only [unpadNormalization?, hnode, hop, Option.bind_eq_bind, Option.bind_some] at heq
  exact (Option.some.inj heq).symm

/-- A folded permute, in the course of its turn, that still reads its edge. -/
structure Poised (start : Graph) (id : NodeId) (edge : Edge) (s : Reconciliation) (node : Node)
    (input : Input) : Prop where
  sound : Sound start s
  at_id : s.graph.node? id = some node
  at_slot : s.graph.input? id 0 = some input
  folded : node.Folded
  deps : node.deps = [edge]
  real : input.isReal = true
  earlier : edge.node.index < id.index

theorem Poised.lt_size (h : Poised start id edge s node input) (hid : id.index < start.size) :
    edge.node.index < start.size :=
  Nat.lt_trans h.earlier hid

/-- The permute has no other input. -/
theorem Poised.isReal (h : Poised start id edge s node input) (slot : Nat) (found : Input)
    (hfound : s.graph.input? id slot = some found) : found.isReal = true := by
  have hlt := Graph.lt_length_of_input? h.at_id hfound
  obtain rfl : slot = 0 := by simpa [h.deps] using hlt
  obtain rfl := Option.some.inj (h.at_slot.symm.trans hfound)
  exact h.real

/-- An input that agreement demands nothing of is a shared surface or what the node wants. -/
theorem agreement_eq_none_iff {isCreated : NodeId → Bool} :
    Repair.agreement isCreated node input = none ↔
      input.producer.isSharedSurface = true ∨ node.Gets input := by
  refine ⟨fun h => ?_, fun h => agreement_eq_none fun hshared => h.resolve_left ?_⟩
  · cases hshared : input.producer.isSharedSurface with
    | true => exact .inl rfl
    | false => exact .inr (gets_of_agreement h hshared)
  · simp [hshared]

/-- The end of the turn: after the search for a legal layout, the permute goes on reading its edge
if that is a shared surface, or produces what the permute wants by then. -/
theorem Poised.verdict {s₆ : Reconciliation} (h : Poised start id edge s node input)
    (hstart : start.WellFormed) (hid : id.index < start.size)
    (hlegal : s.legalize? cx id = some s₆) (hagree : s₆.reconcile? id = some s') :
    ∃ node₆, node₆.Matches input.layout.rank ∧
      ((input.producer.isSharedSurface = true ∨
          node₆.wantedFormat 0 input.layout = input.layout.format) ∧
        s'.graph.node? id = some node₆ ∧ node₆.deps = [edge] ∨
      ¬(input.producer.isSharedSurface = true ∨
          node₆.wantedFormat 0 input.layout = input.layout.format) ∧
        Diverted start id node₆ s') := by
  have hlegalized := (legalize?_spec cx h.sound.wellFormed h.at_id).post_of_eq hlegal
  have hs₆ := h.sound.localEdit hid hlegalized.edit hlegalized.conversions_eq hlegalized.created_eq
  obtain ⟨node₆, hnode₆, hcontent⟩ := hlegalized.edit.content.nodes.exists_new h.at_id
  have hdeps₆ : node₆.deps = [edge] := by rw [(Node.content_eq_iff.1 hcontent).2.1, h.deps]
  have hmatches := hlegalized.matches h.at_id h.at_slot h.real (h.folded.matches _) hnode₆
  have hne : edge.node ≠ id := fun heq => Nat.lt_irrefl _ (heq ▸ h.earlier)
  have hface : (s₆.graph.input? id 0).map Input.face = (s.graph.input? id 0).map Input.face := by
    refine Graph.input?_face_eq h.at_id hnode₆ (by rw [hdeps₆, h.deps]) fun other hother => ?_
    rw [h.deps] at hother
    cases hother
    exact hlegalized.edit.face_eq hne
  obtain ⟨input₆, hinput₆, hface⟩ := exists_of_map_eq hface h.at_slot
  have hlayout := Input.layout_of_face hinput₆ h.at_slot hface
  have hreal₆ : input₆.isReal = true := by rw [Input.isReal_of_face hface, h.real]
  have hslot := Graph.slot_of_input? hinput₆
  have hdue : Repair.agreement s₆.isCreated node₆ input₆ = none ↔
      input.producer.isSharedSurface = true ∨
        node₆.wantedFormat 0 input.layout = input.layout.format := by
    rw [agreement_eq_none_iff, Input.isSharedSurface_of_face hface, ← hlayout, ← hslot]
    refine or_congr_right ⟨fun hgets => hgets.format, fun hformat => ⟨hformat, ?_⟩⟩
    rw [hslot]
    exact hmatches.wantedType_eq
  refine ⟨node₆, hmatches, ?_⟩
  rcases diverted_of_reconcile? hstart hs₆ hid hnode₆ hdeps₆ hinput₆ hreal₆ hagree with
    ⟨hnone, rfl⟩ | ⟨hsome, hdiverted⟩
  · exact .inl ⟨hdue.1 hnone, hnode₆, hdeps₆⟩
  · exact .inr ⟨mt hdue.2 hsome, hdiverted⟩

/-- If it comes out in the format that it reads, the permute goes on reading its edge unless that
format is inconsistent. -/
theorem Poised.direct_iff {s₆ : Reconciliation} (h : Poised start id edge s node input)
    (hstart : start.WellFormed) (hid : id.index < start.size)
    (hlegal : s.legalize? cx id = some s₆) (hagree : s₆.reconcile? id = some s') {node' : Node}
    (hnode' : s'.graph.node? id = some node') {output : Layout}
    (houtput : node'.outputs[0]? = some output) (hsame : input.layout.format = output.format) :
    node'.deps = [edge] ↔ input.producer.isSharedSurface = true ∨ input.layout.Consistent := by
  obtain ⟨node₆, hmatches, hend⟩ := h.verdict hstart hid hlegal hagree
  have houtputs : node'.outputs = node₆.outputs := by
    rcases hend with ⟨_, hnode₆, _⟩ | ⟨_, hdiverted⟩
    · rw [Option.some.inj (hnode'.symm.trans hnode₆)]
    · obtain ⟨_, _, hfound, hbare, _⟩ := hdiverted.node
      rw [Option.some.inj (hnode'.symm.trans hfound)]
      exact (Node.outputs_of_bare hbare).trans rfl
  rw [houtputs] at houtput
  rw [← hmatches.wantedFormat_eq_iff houtput hsame]
  rcases hend with ⟨hdue, hnode₆, hdeps₆⟩ | ⟨hdue, hdiverted⟩
  · rw [Option.some.inj (hnode'.symm.trans hnode₆)]
    exact iff_of_true hdeps₆ hdue
  · exact iff_of_false (hdiverted.ne_edge (h.lt_size hid) hnode') hdue

/-- A diverted slot stays diverted to the end of the turn. -/
theorem Diverted.verdict {s₆ : Reconciliation} (h : Diverted start id node s)
    (hstart : start.WellFormed) (hid : id.index < start.size)
    (hlegal : s.legalize? cx id = some s₆) (hagree : s₆.reconcile? id = some s') :
    ∃ node₆, Diverted start id node₆ s' := by
  obtain ⟨node₅, reorder, hnode₅, hbare, hle⟩ := h.node
  have hlegalized := (legalize?_spec cx h.sound.wellFormed hnode₅).post_of_eq hlegal
  have hs₆ := h.sound.localEdit hid hlegalized.edit hlegalized.conversions_eq hlegalized.created_eq
  obtain ⟨node₆, hnode₆, hcontent⟩ := hlegalized.edit.content.nodes.exists_new hnode₅
  have hdeps₆ : node₆.deps = [⟨reorder, 0⟩] := by
    rw [(Node.content_eq_iff.1 hcontent).2.1, Node.deps_of_bare hbare]
  obtain ⟨input, hinput⟩ := hs₆.wellFormed.exists_input hnode₆ (show 0 < _ by simp [hdeps₆])
  have hreal : input.isReal = true := by
    obtain ⟨hproducer, _⟩ := producer_of_singleton hnode₆ hdeps₆ hinput
    simp [Input.isReal, Node.isConstant, (hs₆.inserted hproducer hle).op_eq]
  rcases diverted_of_reconcile? hstart hs₆ hid hnode₆ hdeps₆ hinput hreal hagree with
    ⟨_, rfl⟩ | ⟨_, hdiverted⟩
  · exact ⟨node₆, hs₆, node₆, reorder, hnode₆, by rw [← hdeps₆], hle⟩
  · exact ⟨node₆, hdiverted⟩

/-- The turn begins with settling the permute. -/
theorem poised_of_settle (hstart : start.Ordered) (hs : Sound start s) {old : Node}
    (hold : start.node? id = some old) (hfolded : old.Folded) (hfolds : start.Folds id edge)
    (hfresh : (s.graph.node? id).map Node.bare = some old.bare) {g : Graph}
    (hsettle : s.graph.settle? id = some g) :
    ∃ node input, Poised start id edge (s.withGraph g) node input ∧ node.op = .permute ∧
      (∃ order, node.attrs = .permute order) ∧ node.pinned = old.pinned := by
  obtain ⟨_, source, hfound, hfoldable, hdeps, hsource, hcompute, _⟩ := hfolds
  obtain rfl := Option.some.inj (hold.symm.trans hfound)
  have hid := Graph.lt_size_of_node? hold
  obtain ⟨before, hbefore, hbare⟩ := Option.map_eq_some_iff.1 hfresh
  obtain ⟨hedit, inherited, node, _, hnode, hsettled⟩ :=
    (Graph.settle?_spec hs.wellFormed hbefore).post_of_eq hsettle
  have hs₁ : Sound start (s.withGraph g) := hs.localEdit hid hedit rfl rfl
  have hnode_deps : node.deps = [edge] := by
    obtain ⟨_, hfound', hcontent⟩ := hedit.content.nodes.exists_new hbefore
    obtain rfl := Option.some.inj (hnode.symm.trans hfound')
    rw [(Node.content_eq_iff.1 hcontent).2.1, Node.deps_of_bare hbare, hdeps]
  obtain ⟨input, hinput⟩ := hs₁.wellFormed.exists_input hnode (show 0 < _ by simp [hnode_deps])
  have hreal : input.isReal = true := by
    obtain ⟨hproducer, _⟩ := producer_of_singleton hnode hnode_deps hinput
    obtain ⟨_, hkept, hmeaning, _⟩ := hs₁.kept hsource
    obtain rfl := Option.some.inj (hproducer.symm.trans hkept)
    rw [Input.isReal, Node.isConstant_congr (Node.op_of_meaning hmeaning),
      Propagation.isConstant_of_isCompute hcompute]
    rfl
  obtain ⟨_, hkept, hmeaning, _⟩ := hs₁.kept hold
  obtain rfl := Option.some.inj (hnode.symm.trans hkept)
  refine ⟨node, input, ⟨hs₁, hnode, hinput, ?_, hnode_deps, hreal, ?_⟩, ?_, ?_, ?_⟩
  · exact ((hfolded.of_bare hbare).afterSettling inherited).of_bare hsettled
  · exact hstart.earlier hold (show edge ∈ old.deps by simp [hdeps])
  · rw [Node.op_of_meaning hmeaning, (Propagation.of_isFoldable hfoldable).1]
  · rw [Node.attrs_of_meaning hmeaning]
    exact Propagation.attrs_of_isFoldable hfoldable
  · have hpinned : before.pinned = old.pinned := Node.pinned_of_bare hbare
    exact (Node.pinned_of_bare hsettled).trans hpinned

/-- The turn does not touch what the permute read at its beginning. -/
theorem Poised.source_eq {g : Graph} (h : Poised start id edge (s.withGraph g) node input)
    (hstart : start.Ordered) (hs : Sound start s) (hid : id.index < start.size)
    (hsettle : s.graph.settle? id = some g) (hturn : s.repairNode? cx id = some s')
    {source : Node} {produced : Layout} (hsource : s'.graph.node? edge.node = some source)
    (hproduced : source.outputs[edge.output]? = some produced) :
    input.layout = produced ∧ source.isSharedSurface = input.producer.isSharedSurface := by
  have hne : edge.node ≠ id := fun heq => Nat.lt_irrefl _ (heq ▸ h.earlier)
  obtain ⟨before, hbefore⟩ := Graph.exists_node (Nat.lt_of_lt_of_le hid hs.grown)
  obtain ⟨hedit, _⟩ := (Graph.settle?_spec hs.wellFormed hbefore).post_of_eq hsettle
  have hdeps : before.deps ≠ [] := by
    obtain ⟨_, hfound, hcontent⟩ := hedit.content.nodes.exists_new hbefore
    obtain rfl := Option.some.inj (h.at_id.symm.trans hfound)
    rw [← (Node.content_eq_iff.1 hcontent).2.1, h.deps]
    exact List.cons_ne_nil _ _
  obtain ⟨_, _, hvisited⟩ :=
    (repairNode?_spec hstart.wellFormed hs hid hbefore hdeps).post_of_eq hturn
  have hframe := (hvisited.framed hstart.wellFormed hs hid).others edge.node (h.lt_size hid) hne
  rw [← hedit.others edge.node hne, hsource, Option.map_some] at hframe
  obtain ⟨hproducer, hlayout⟩ := producer_of_singleton h.at_id h.deps h.at_slot
  have hproducer' : g.node? edge.node = some input.producer := hproducer
  rw [hproducer', Option.map_some, Option.some.injEq] at hframe
  rw [Node.outputs_of_bare hframe] at hproduced
  refine ⟨Option.some.inj (hlayout.symm.trans hproduced), ?_⟩
  exact Node.isSharedSurface_congr (Node.attrs_of_meaning (Node.meaning_of_bare hframe))

/-- Where the two formats agree, the permute reads its edge directly unless padding has to go for a
vendor routine, or the format does not fit the rank.  A shared surface is read in any case. -/
def Decides (pinned : Option BackendKind) (id : NodeId) (edge : Edge) (g : Graph) : Prop :=
  ∀ ⦃node source produced output⦄, g.node? id = some node → g.node? edge.node = some source →
    source.outputs[edge.output]? = some produced → node.outputs[0]? = some output →
    produced.format = output.format →
    (node.deps = [edge] ↔ source.isSharedSurface = true ∨ produced.Consistent ∧
      ¬(pinned = some .vendor ∧ produced.padding.hasBatchOrSpatial = true))

theorem Decides.of_bare {pinned : Option BackendKind} {g g' : Graph} (h : Decides pinned id edge g)
    (hself : (g'.node? id).map Node.bare = (g.node? id).map Node.bare)
    (hsource : (g'.node? edge.node).map Node.bare = (g.node? edge.node).map Node.bare) :
    Decides pinned id edge g' := by
  intro node' source' produced output hnode' hsource' hproduced houtput
  obtain ⟨node, hnode, hbare⟩ := exists_of_map_eq hself.symm hnode'
  obtain ⟨source, hfound, hbare'⟩ := exists_of_map_eq hsource.symm hsource'
  have hattrs := Node.attrs_of_meaning (Node.meaning_of_bare hbare')
  rw [← Node.outputs_of_bare hbare'] at hproduced
  rw [← Node.outputs_of_bare hbare] at houtput
  rw [← Node.deps_of_bare hbare, ← Node.isSharedSurface_congr hattrs]
  exact h hnode hfound hproduced houtput

/-- The turn of a folded permute.  Of its stages only the one that strips padding for vendor
routines, the search for a legal layout and the last one have something to say. -/
theorem decides_of_turn (hstart : start.Ordered) (hs : Sound start s) {old : Node}
    (hold : start.node? id = some old) (hfolded : old.Folded) (hfolds : start.Folds id edge)
    (hfresh : (s.graph.node? id).map Node.bare = some old.bare)
    (h : s.repairNode? cx id = some s') (hfine : s'.failure = none) :
    Decides old.pinned id edge s'.graph := by
  have hid := Graph.lt_size_of_node? hold
  obtain ⟨s₁, s₂, s₃, s₄, s₅, s₆, hstages⟩ := exists_stages h
  obtain ⟨g, hsettle, rfl⟩ := hstages.settled
  obtain ⟨node, input, hpoised, hop, ⟨order, hattrs⟩, hpinned⟩ :=
    poised_of_settle hstart hs hold hfolded hfolds hfresh hsettle
  have hvendor := hstages.vendor
  rw [hstages.skip hpoised.at_id hop hattrs hpoised.isReal] at hvendor
  have hkind : expectedKind node = old.pinned := by
    rw [expectedKind, hpoised.folded.selected, hpinned]
    rfl
  have hagree := hstages.reconciled hfine
  intro node' source' produced output hnode' hsource' hproduced houtput hsame
  obtain ⟨rfl, hshared⟩ := hpoised.source_eq hstart hs hid hsettle h hsource' hproduced
  rw [hshared]
  have hstrips : (expectedKind node ≠ some .vendor ∨ Repair.vendorPadding node input = none) ↔
      input.producer.isSharedSurface = true ∨
        ¬(old.pinned = some .vendor ∧ input.layout.padding.hasBatchOrSpatial = true) := by
    rw [hkind, Repair.vendorPadding_eq_none_iff, not_and_or, Bool.not_eq_true]
    exact or_left_comm
  rcases diverted_of_unpadVendor? hstart.wellFormed hpoised.sound hid hpoised.at_id hpoised.deps
    hpoised.at_slot hpoised.real hvendor with ⟨hclean, rfl⟩ | ⟨hpadded, hdiverted⟩
  · rw [hpoised.direct_iff hstart.wellFormed hid hstages.legal hagree hnode' houtput hsame]
    refine or_congr_right' fun hplain => ?_
    exact (and_iff_left ((hstrips.1 hclean).resolve_left hplain)).symm
  · obtain ⟨_, hdiverted'⟩ := hdiverted.verdict hstart.wellFormed hid hstages.legal hagree
    refine iff_of_false (hdiverted'.ne_edge (hpoised.lt_size hid) hnode') fun hrest => ?_
    have hclean := hstrips.2 (hrest.imp_right And.right)
    exact hclean.elim (fun hkind => hkind hpadded.1) hpadded.2

theorem decides_of_run (hstart : start.Ordered) :
    Yields (start.order.foldlM (visit? cx) { graph := start }) fun s => s.failure = none →
      ∀ id old edge, start.node? id = some old → old.Folded → start.Folds id edge →
        Decides old.pinned id edge s.graph := by
  refine (run?_turns hstart (fun id s => ∀ {old edge}, start.node? id = some old → old.Folded →
    start.Folds id edge → Decides old.pinned id edge s.graph) ?_ ?_).mono ?_
  · intro id s s' old hs hold _ _ hfresh hturn hfine old' edge hold' hfolded hfolds
    obtain rfl := Option.some.inj (hold.symm.trans hold')
    exact decides_of_turn hstart hs hold hfolded hfolds hfresh hturn hfine
  · intro id s s' _ hsame h old edge hold hfolded hfolds
    refine (h hold hfolded hfolds).of_bare (hsame id (Nat.le_refl _)) (hsame edge.node ?_)
    obtain ⟨permute, _, hpermute, _, hdeps, _⟩ := hfolds
    exact Nat.le_of_lt (hstart.earlier hpermute (show edge ∈ permute.deps by simp [hdeps]))
  · intro s h hfine id old edge hold hfolded hfolds
    refine h hfine hold ?_ ?_ hold hfolded hfolds
    all_goals
      obtain ⟨_, _, hfound, hfoldable, hdeps, _⟩ := hfolds
      obtain rfl := Option.some.inj (hold.symm.trans hfound)
    · simp [hdeps]
    · simp [Node.isReorder, (Propagation.of_isFoldable hfoldable).1]

/-- A marked node after propagation and edge agreement. -/
theorem marked_of_run {g : Graph} (hg : g.Fresh) {swept : Propagation.State}
    (hswept : g.order.foldlM (Propagation.visit? cx.catalog) { graph := g } = some swept)
    (hs : swept.graph.order.foldlM (visit? cx) { graph := swept.graph } = some s)
    (hfine : s.failure = none) (hnode : s.graph.node? id = some node)
    (hmarked : node.eliminable = true) :
    ∃ edge folded host permute source produced output, g.Folds id edge ∧
      swept.graph.Promises id edge ∧ swept.graph.node? id = some folded ∧
      swept.graph.node? edge.node = some host ∧ g.node? id = some permute ∧
      s.graph.node? edge.node = some source ∧ source.outputs[edge.output]? = some produced ∧
      node.outputs[0]? = some output ∧ folded.KeepsOrAdopts node ∧ host.KeepsOrAdopts source ∧
      produced.format.isChosen = true ∧ output.format.isChosen = true ∧
      Decides permute.pinned id edge s.graph := by
  obtain ⟨_, hhonours⟩ := (Propagation.honours_of_sweep hg).post_of_eq hswept
  obtain ⟨hsame, hfolded⟩ := (Propagation.folded_of_sweep hg).post_of_eq hswept
  obtain ⟨_, hsettled⟩ := (Propagation.settled_of_sweep hg).post_of_eq hswept
  obtain ⟨_, hpinned⟩ := (Propagation.pinned_of_sweep hg.toOrdered).post_of_eq hswept
  have hstart := hg.toOrdered.of_sameContent hsame
  obtain ⟨hsound, htraced⟩ := (traced_of_run hstart).post_of_eq hs
  obtain ⟨_, hkeeps⟩ := (keepsOrAdopts_of_run hstart hhonours).post_of_eq hs
  have hdecides := (decides_of_run hstart).post_of_eq hs hfine
  have hid : id.index < swept.graph.size := by
    by_contra hnew
    simp [(hsound.inserted hnode (Nat.not_lt.1 hnew)).eliminable] at hmarked
  obtain ⟨folded, hat⟩ := Graph.exists_node hid
  obtain ⟨hmark, hopen_of⟩ := htraced hat hnode
  obtain ⟨hformats, edge, hfolds, hpromises⟩ := hfolded hat (hmark ▸ hmarked)
  obtain ⟨permute, hpermute, _⟩ := hsame.nodes.exists_old hat
  have hfolds' := hfolds.of_sameContent hsame
  have hdecided := hdecides id folded edge hat hformats hfolds'
  rw [hpinned hpermute hat] at hdecided
  obtain ⟨_, host, hfound, _, hdeps, hhost, hcompute, _⟩ := hfolds'
  obtain rfl := Option.some.inj (hat.symm.trans hfound)
  obtain ⟨layout, hlayout⟩ :=
    hstart.wellFormed.produced hat (show edge ∈ folded.deps by simp [hdeps])
  obtain ⟨produced, hproduced, _⟩ := Graph.exists_layout_of_map_eq
    (hsound.layoutAt?_eq (Graph.lt_size_of_node? hhost)) hlayout
  obtain ⟨source, hsource, hproduced⟩ := Graph.layoutAt?_eq_some_iff.1 hproduced
  obtain ⟨output, houtput⟩ := hsound.wellFormed.exists_output hnode
  refine ⟨edge, folded, host, permute, source, produced, output, hfolds, hpromises, hat, hhost,
    hpermute, hsource, hproduced, houtput, hkeeps hat hnode, hkeeps hhost hsource, ?_, ?_, hdecided⟩
  · have hunmarked : host.eliminable = false := by
      rw [← Bool.not_eq_true]
      intro hmarked'
      obtain ⟨_, _, ⟨other, _, hother, hfoldable, _⟩, _⟩ := hfolded hhost hmarked'
      obtain ⟨_, hfound', hcontent⟩ := hsame.nodes.exists_new hother
      obtain rfl := Option.some.inj (hhost.symm.trans hfound')
      rw [Node.op_of_content hcontent, (Propagation.of_isFoldable hfoldable).1] at hcompute
      cases hcompute
    rw [Format.isChosen_iff_ne]
    intro hany
    have hopen := (htraced hhost hsource).2 _ ⟨produced, hproduced, hany⟩
    obtain ⟨hmarked', _⟩ := hsettled hhost (Propagation.isConstant_of_isCompute hcompute) _ hopen
    simp [hunmarked] at hmarked'
  · rw [Format.isChosen_iff_ne]
    intro hany
    obtain ⟨layout, hfirst, hopen⟩ := hopen_of 0 ⟨output, houtput, hany⟩
    obtain ⟨_, hfound', hfits, _⟩ := hformats.format
    obtain rfl := Option.some.inj (hfirst.symm.trans hfound')
    exact Format.isChosen_iff_ne.1 (Format.isChosen_of_fits hfits) hopen

end Reconciliation

/-- Construction settles what is open, and keeps the formats that are there. -/
theorem Completed.keepsOrAdopts {cx : Context} {g settled : Graph} {swept : Propagation.State}
    {agreed : Reconciliation} {out : Outcome} (h : Completed cx g swept agreed settled out)
    {id : NodeId} {old node node' : Node} (hnode : agreed.graph.node? id = some node)
    (hnode' : out.graph.node? id = some node') (hold : old.KeepsOrAdopts node) :
    old.KeepsOrAdopts node' := by
  obtain ⟨hcontent, _⟩ := (Construction.traced_of_construction cx h.sound.wellFormed
    h.sound.listed).post_of_eq h.builds
  obtain ⟨_, hfound, hsame⟩ := hcontent.nodes.exists_new hnode
  obtain rfl := Option.some.inj (hnode'.symm.trans hfound)
  have hmeaning := (Node.content_eq_iff.1 hsame).1
  exact hold.of_kept (Node.length_outputs_of_meaning hmeaning)
    (h.constructed.output_eq h.honours hnode hnode')

/-- What the mark of a permute stands for.  The permute reads its edge directly, a vendor routine
runs what it reads, and that one produces the format of the permute. -/
def Graph.Absorbs (g : Graph) (id : NodeId) (edge : Edge) : Prop :=
  ∃ node source produced output, g.node? id = some node ∧ node.deps = [edge] ∧
    g.node? edge.node = some source ∧ source.implementation.map Handle.kind = some .vendor ∧
    source.outputs[edge.output]? = some produced ∧ node.outputs[0]? = some output ∧
    produced.format = output.format

theorem Graph.absorbs_iff {g : Graph} {id : NodeId} {edge : Edge} {node source : Node}
    {produced output : Layout} (hnode : g.node? id = some node)
    (hsource : g.node? edge.node = some source)
    (hproduced : source.outputs[edge.output]? = some produced)
    (houtput : node.outputs[0]? = some output) : g.Absorbs id edge ↔
      source.implementation.map Handle.kind = some .vendor ∧ produced.format = output.format ∧
        node.deps = [edge] := by
  constructor
  · rintro ⟨_, _, _, _, hfound₁, hdeps, hfound₂, hvendor, hfound₃, hfound₄, hformat⟩
    obtain rfl := Option.some.inj (hnode.symm.trans hfound₁)
    obtain rfl := Option.some.inj (hsource.symm.trans hfound₂)
    obtain rfl := Option.some.inj (hproduced.symm.trans hfound₃)
    obtain rfl := Option.some.inj (houtput.symm.trans hfound₄)
    exact ⟨hvendor, hformat, hdeps⟩
  · rintro ⟨hvendor, hformat, hdeps⟩
    exact ⟨node, source, produced, output, hnode, hdeps, hsource, hvendor, hproduced, houtput,
      hformat⟩

/-- If planning ends well, a marked node was declared as a permute that alone reads a compute node.
After propagation a vendor routine was selected for the compute node, and the first outputs of both
had one format.  From then on each of the two has kept its formats, or has adopted another one for
all of its outputs.

In the end the permute reads the compute node directly or through one reorder.  If the output that
is to be read has come out in the format of the permute, it is read directly exactly if it is a
shared surface, or this format is consistent with the rank and there is no padding that a permute
pinned to the vendor would have to get rid of.  So the permute is absorbed exactly if this holds,
the two formats agree, and a vendor routine runs the compute node. -/
theorem absorbs_iff_of_plan {decls : List NodeDecl} {g : Graph}
    (hbuild : Graph.build? decls = some (.ok g)) {cx : Context} {out : Outcome}
    (hplan : plan? cx g = some out) {report : Report} (hok : out.result = .ok report)
    {id : NodeId} {node : Node} (hnode : out.graph.node? id = some node)
    (hmarked : node.eliminable = true) :
    ∃ edge swept folded host permute source produced output, g.Folds id edge ∧
      Propagation.run? cx g = some swept ∧ swept.graph.Promises id edge ∧
      swept.graph.node? id = some folded ∧ swept.graph.node? edge.node = some host ∧
      folded.KeepsOrAdopts node ∧ host.KeepsOrAdopts source ∧
      (node.deps = [edge] ∨
        ∃ reorder, node.deps = [⟨reorder, 0⟩] ∧ g.IsReorderOn out.graph edge reorder) ∧
      g.node? id = some permute ∧ out.graph.node? edge.node = some source ∧
      source.outputs[edge.output]? = some produced ∧ node.outputs[0]? = some output ∧
      (produced.format = output.format →
        (node.deps = [edge] ↔ source.isSharedSurface = true ∨ produced.Consistent ∧
          ¬(permute.pinned = some .vendor ∧ produced.padding.hasBatchOrSpatial = true))) ∧
      (out.graph.Absorbs id edge ↔
        source.implementation.map Handle.kind = some .vendor ∧ produced.format = output.format ∧
        (source.isSharedSurface = true ∨ produced.Consistent ∧
          ¬(permute.pinned = some .vendor ∧ produced.padding.hasBatchOrSpatial = true))) := by
  have hfresh := Graph.fresh_of_build hbuild
  obtain ⟨swept, agreed, settled, built, hgraph, hdone⟩ := exists_completed hfresh hplan hok
  rw [hgraph] at hnode ⊢
  obtain ⟨hcontent, htraced⟩ := (Construction.traced_of_construction cx hdone.sound.wellFormed
    hdone.sound.listed).post_of_eq hdone.builds
  obtain ⟨agreed_node, hagreed, hsame⟩ := hcontent.nodes.exists_old hnode
  have hdeps : node.deps = agreed_node.deps := (Node.content_eq_iff.1 hsame).2.1
  obtain ⟨edge, folded, host, permute, agreed_source, produced, output, hfolds, hpromises, hfolded,
    hhost, hpermute, hagreed_source, hproduced, houtput, hkeeps, hkeeps_host, hproduced_chosen,
    houtput_chosen, hdecides⟩ :=
    Reconciliation.marked_of_run hfresh hdone.sweeps hdone.agrees hdone.fine hagreed
      ((htraced hagreed hnode).1.symm.trans hmarked)
  obtain ⟨source, hsource, hsame_source⟩ := hcontent.nodes.exists_new hagreed_source
  have hproduced' := hdone.constructed.output_eq hdone.honours hagreed_source hsource hproduced
    hproduced_chosen
  have houtput' := hdone.constructed.output_eq hdone.honours hagreed hnode houtput houtput_chosen
  have hshared : source.isSharedSurface = agreed_source.isSharedSurface :=
    Node.isSharedSurface_congr (Node.attrs_of_content hsame_source)
  have hdirect : produced.format = output.format → (node.deps = [edge] ↔
      source.isSharedSurface = true ∨ produced.Consistent ∧
        ¬(permute.pinned = some .vendor ∧ produced.padding.hasBatchOrSpatial = true)) := by
    rw [hdeps, hshared]
    exact hdecides hagreed hagreed_source hproduced houtput
  have hrun : Propagation.run? cx g = some _ :=
    Option.bind_eq_some_iff.2 ⟨swept, hdone.sweeps, rfl⟩
  refine ⟨edge, _, folded, host, permute, source, produced, output, hfolds, hrun, hpromises,
    hfolded, hhost, ?_, ?_, ?_, hpermute, hsource, hproduced', houtput', hdirect, ?_⟩
  · exact hdone.keepsOrAdopts hagreed hnode hkeeps
  · exact hdone.keepsOrAdopts hagreed_source hsource hkeeps_host
  · obtain ⟨_, _, hfound, _, hread, _⟩ := hfolds
    obtain rfl := Option.some.inj (hpermute.symm.trans hfound)
    have hcontracts := hdone.sound.contracts.of_sameContent hdone.content hcontent
    exact hcontracts.deps_of_singleton hpermute hread hnode
  · rw [Graph.absorbs_iff hnode hsource hproduced' houtput']
    exact and_congr_right fun _ => and_congr_right hdirect

theorem absorbs_iff_transposedProduct : ∃ g out report node,
    Graph.build? (transposedProduct [.bfyx] 0 [.any]) = some (.ok g) ∧
    plan? { catalog := vendorProducts } g = some out ∧ out.result = .ok report ∧
    out.graph.node? ⟨3⟩ = some node ∧ node.eliminable = true ∧
    ∃ edge swept folded host permute source produced output, g.Folds ⟨3⟩ edge ∧
      Propagation.run? { catalog := vendorProducts } g = some swept ∧
      swept.graph.Promises ⟨3⟩ edge ∧ swept.graph.node? ⟨3⟩ = some folded ∧
      swept.graph.node? edge.node = some host ∧ folded.KeepsOrAdopts node ∧
      host.KeepsOrAdopts source ∧
      (node.deps = [edge] ∨
        ∃ reorder, node.deps = [⟨reorder, 0⟩] ∧ g.IsReorderOn out.graph edge reorder) ∧
      g.node? ⟨3⟩ = some permute ∧ out.graph.node? edge.node = some source ∧
      source.outputs[edge.output]? = some produced ∧ node.outputs[0]? = some output ∧
      (produced.format = output.format →
        (node.deps = [edge] ↔ source.isSharedSurface = true ∨ produced.Consistent ∧
          ¬(permute.pinned = some .vendor ∧ produced.padding.hasBatchOrSpatial = true))) ∧
      (out.graph.Absorbs ⟨3⟩ edge ↔
        source.implementation.map Handle.kind = some .vendor ∧ produced.format = output.format ∧
        (source.isSharedSurface = true ∨ produced.Consistent ∧
          ¬(permute.pinned = some .vendor ∧ produced.padding.hasBatchOrSpatial = true))) :=
  ⟨_, _, _, _, rfl, rfl, rfl, rfl, rfl,
    @absorbs_iff_of_plan (transposedProduct [.bfyx] 0 [.any]) _ rfl { catalog := vendorProducts } _
      rfl _ rfl ⟨3⟩ _ rfl rfl⟩

/-- The permute reads the second output of the product, but is put into the format of the first, so
that a reorder comes in between. -/
theorem transposedProduct_not_absorbed : ∃ g out report node reorder,
    Graph.build? (transposedProduct [.yxfb, .bfyx] 1 [.any]) = some (.ok g) ∧
    plan? { catalog := vendorProducts } g = some out ∧ out.result = .ok report ∧
    out.graph.node? ⟨3⟩ = some node ∧ node.eliminable = true ∧ node.deps = [⟨⟨4⟩, 0⟩] ∧
    out.graph.node? ⟨4⟩ = some reorder ∧ reorder.isReorder = true ∧
    ∀ edge, ¬out.graph.Absorbs ⟨3⟩ edge := by
  refine ⟨_, _, _, _, _, rfl, rfl, rfl, rfl, rfl, rfl, rfl, rfl, ?_⟩
  rintro edge ⟨_, source, _, _, hnode, hdeps, hsource, hvendor, _⟩
  obtain rfl := Option.some.inj hnode
  obtain rfl := List.singleton_inj.1 hdeps
  obtain rfl := Option.some.inj hsource
  cases hvendor

end LayoutPlanner
