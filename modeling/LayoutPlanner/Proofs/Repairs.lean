import LayoutPlanner.Planning.Repair
import LayoutPlanner.Proofs.LegalLayouts
import LayoutPlanner.Proofs.Paddings
import Mathlib.Logic.Relation

/-!
# Repairs

Every repair is lawful: it keeps the shape, it looks at nothing but what the node and the producer
show, and it has no more demands once its demand is met.  So one lemma covers all loops over the
slots of a node: afterwards every slot was left alone because nothing was demanded, or reads what
was (`repairSlots_spec`).
-/

namespace LayoutPlanner

/-- All that has been decided about a node, without its edges. -/
def Node.core (node : Node) : Node :=
  { node.bare with deps := [] }

section

variable {a b : Node}

theorem Node.core_of_bare (h : a.bare = b.bare) : a.core = b.core := by
  rw [core, core, h]

theorem Node.op_of_core (h : a.core = b.core) : a.op = b.op := by
  simp only [core, bare, mk.injEq] at h
  simp [h]

theorem Node.attrs_of_core (h : a.core = b.core) : a.attrs = b.attrs := by
  simp only [core, bare, mk.injEq] at h
  simp [h]

theorem Node.prefers_of_core (h : a.core = b.core) : a.prefers = b.prefers := by
  simp only [core, bare, mk.injEq] at h
  simp [h]

theorem Node.outputs_of_core (h : a.core = b.core) : a.outputs = b.outputs := by
  simp only [core, bare, mk.injEq] at h
  simp [h]

theorem Node.pinned_of_core (h : a.core = b.core) : a.pinned = b.pinned := by
  simp only [core, bare, mk.injEq] at h
  simp [h]

theorem Node.eliminable_of_core (h : a.core = b.core) : a.eliminable = b.eliminable := by
  simp only [core, bare, mk.injEq] at h
  simp [h]

theorem Node.meaning_of_core (h : a.core = b.core) : a.meaning = b.meaning := by
  simp only [core, bare, mk.injEq] at h
  simp [meaning, h]

theorem Node.wantedFormat_of_core (h : a.core = b.core) : a.wantedFormat = b.wantedFormat := by
  funext slot source
  simp only [wantedFormat, prefers_of_core h]

theorem Node.wantedType_of_core (h : a.core = b.core) : a.wantedType = b.wantedType := by
  funext slot source
  simp only [wantedType, prefers_of_core h, op_of_core h]

theorem Node.wantedFormat_of_ne {node : Node} {slot : Nat} {source : Layout}
    (h : node.prefers.input slot ≠ .any) :
    node.wantedFormat slot source = (node.prefers.input slot).adaptTo source.rank := by
  unfold wantedFormat
  split
  next hany => exact absurd hany h
  next => rfl

/-- A format that has been delivered stays the one that is wanted. -/
theorem Node.wantedFormat_eq_format {node : Node} {slot : Nat} {source target : Layout}
    (hformat : target.format = node.wantedFormat slot source)
    (hshape : target.shape = source.shape) :
    node.wantedFormat slot target = target.format := by
  have hrank : target.rank = source.rank := congrArg Shape.rank hshape
  unfold wantedFormat at hformat ⊢
  split
  next => rfl
  next preferred hpreferred =>
    rw [hformat, hrank]
    split
    next => simp_all
    next => simp_all

theorem Node.wantedType_eq_dtype {node : Node} {slot : Nat} {source target : Layout}
    (hdtype : target.dtype = node.wantedType slot source) :
    node.wantedType slot target = target.dtype := by
  unfold wantedType at hdtype ⊢
  split
  next => rfl
  next hconv =>
    rw [if_neg hconv] at hdtype
    cases htype : node.prefers.inputType slot <;> simp_all

end

/-- What an input shows besides its layout. -/
theorem Input.isReal_of_face {a b : Input} (h : a.face = b.face) : a.isReal = b.isReal := by
  have hop : a.producer.op = b.producer.op := congrArg (·.2.2.2.1) h
  rw [isReal, isReal, Node.isConstant_congr hop]

theorem Input.isSharedSurface_of_face {a b : Input} (h : a.face = b.face) :
    a.producer.isSharedSurface = b.producer.isSharedSurface :=
  Node.isSharedSurface_congr (congrArg (·.2.2.2.2.1) h)

/-- The layout is part of what the producer shows. -/
theorem Input.layout_of_face {g g' : Graph} {id : NodeId} {slot : Nat} {a b : Input}
    (ha : g.input? id slot = some a) (hb : g'.input? id slot = some b) (h : a.face = b.face) :
    a.layout = b.layout := by
  obtain ⟨_, _, _, _, _, ha⟩ := Graph.input?_eq_some_iff.1 ha
  obtain ⟨_, _, _, _, _, hb⟩ := Graph.input?_eq_some_iff.1 hb
  have hedge : a.edge = b.edge := congrArg (·.2.1) h
  have houtputs : a.producer.outputs = b.producer.outputs := congrArg (·.2.2.2.2.2) h
  rw [hedge, houtputs] at ha
  exact Option.some.inj (ha.symm.trans hb)

namespace Repair

/-- What every repair does.  The state only tells which reorders are of this run. -/
structure Lawful (repair : Reconciliation → Repair) : Prop where
  shape_eq : ∀ {s node input demand}, repair s node input = some demand →
    demand.target.shape = input.layout.shape
  congr : ∀ {s s' : Reconciliation} {node node' : Node} {input input' : Input},
    node'.core = node.core → input'.face = input.face → input'.layout = input.layout →
    s'.isCreated input.producer.id = s.isCreated input.producer.id →
    repair s' node' input' = repair s node input
  served : ∀ {s s' : Reconciliation} {node node' : Node} {input input' : Input} {demand : Demand},
    repair s node input = some demand → node'.core = node.core → input'.slot = input.slot →
    input'.layout = demand.target → input'.isReal → repair s' node' input' = none

theorem lawful_stateType : Lawful fun _ => stateType where
  shape_eq {_ node input demand} h := by
    unfold stateType at h
    split at h
    next => split at h <;> cases h; rfl
    next => cases h
  congr {_ _ node node' input input'} hcore hface hlayout _ := by
    have hslot : input'.slot = input.slot := congrArg (·.1) hface
    simp only [stateType, Node.attrs_of_core hcore, hlayout, hslot, Node.wantedFormat_of_core hcore]
  served {_ _ node node' input input' demand} h hcore _ hlayout _ := by
    unfold stateType at h ⊢
    rw [Node.attrs_of_core hcore, hlayout]
    split at h
    next =>
      split at h <;> cases h
      simp [Layout.withType]
    next => cases h

theorem lawful_fusedConstant (output : Layout) : Lawful fun _ => fusedConstant output where
  shape_eq {_ node input demand} h := by
    unfold fusedConstant at h
    dsimp only at h
    split at h <;> cases h
    rfl
  congr {_ _ node node' input input'} _ hface hlayout _ := by
    simp only [fusedConstant, hlayout, Input.isReal_of_face hface]
  served {_ _ node node' input input' demand} _ _ _ _ hreal := by
    simp [fusedConstant, hreal]

theorem lawful_normalizationPadding (output : Layout) :
    Lawful fun _ => normalizationPadding output where
  shape_eq {_ node input demand} h := by
    unfold normalizationPadding at h
    dsimp only at h
    split at h <;> cases h
    rfl
  congr {_ _ node node' input input'} hcore hface hlayout _ := by
    have hslot : input'.slot = input.slot := congrArg (·.1) hface
    simp only [normalizationPadding, hlayout, hslot, Node.prefers_of_core hcore,
      Node.wantedType_of_core hcore]
  served {_ _ node node' input input' demand} h _ _ hlayout _ := by
    unfold normalizationPadding at h
    dsimp only at h
    split at h <;> cases h
    simp [normalizationPadding, hlayout]

theorem lawful_vendorPadding : Lawful fun _ => vendorPadding where
  shape_eq {_ node input demand} h := by
    unfold vendorPadding at h
    split at h <;> cases h
    rfl
  congr {_ _ node node' input input'} hcore hface hlayout _ := by
    have hslot : input'.slot = input.slot := congrArg (·.1) hface
    simp only [vendorPadding, hlayout, hslot, Node.wantedFormat_of_core hcore,
      Node.wantedType_of_core hcore, Input.isSharedSurface_of_face hface]
  served {_ _ node node' input input' demand} h _ _ hlayout _ := by
    unfold vendorPadding at h
    split at h <;> cases h
    simp [vendorPadding, hlayout]

/-- What agreement demands, and when. -/
theorem of_agreement {isCreated : NodeId → Bool} {node : Node} {input : Input} {demand : Demand}
    (h : agreement isCreated node input = some demand) :
    input.producer.isSharedSurface = false ∧
      ¬(node.wantedFormat input.slot input.layout = input.layout.format ∧
        node.wantedType input.slot input.layout = input.layout.dtype) ∧
      demand.target = { input.layout with
        format := node.wantedFormat input.slot input.layout
        dtype := node.wantedType input.slot input.layout
        padding := if isCreated input.producer.id then input.layout.padding else {} } := by
  unfold agreement at h
  dsimp only at h
  split at h <;> cases h
  next hother =>
    rw [Bool.or_eq_true, Bool.and_eq_true, decide_eq_true_eq, decide_eq_true_eq, not_or,
      Bool.not_eq_true] at hother
    exact ⟨hother.1, hother.2, rfl⟩

theorem lawful_agreement : Lawful fun s => agreement s.isCreated where
  shape_eq {_ node input demand} h := by rw [(of_agreement h).2.2]
  congr {_ _ node node' input input'} hcore hface hlayout hcreated := by
    have hslot : input'.slot = input.slot := congrArg (·.1) hface
    have hid : input'.producer.id = input.producer.id := congrArg (·.2.2.1) hface
    simp only [agreement, hlayout, hslot, hid, hcreated, Node.wantedFormat_of_core hcore,
      Node.wantedType_of_core hcore, Input.isSharedSurface_of_face hface]
  served {_ _ node node' input input' demand} h hcore hslot hlayout _ := by
    rw [(of_agreement h).2.2] at hlayout
    have hasked : input'.layout.format = node.wantedFormat input.slot input.layout ∧
        input'.layout.dtype = node.wantedType input.slot input.layout := by
      rw [hlayout]
      exact ⟨rfl, rfl⟩
    have hformat := Node.wantedFormat_eq_format hasked.1 (by rw [hlayout])
    have hdtype := Node.wantedType_eq_dtype hasked.2
    simp only [agreement, hslot, Node.wantedFormat_of_core hcore, Node.wantedType_of_core hcore,
      hformat, hdtype]
    simp

end Repair

namespace Reconciliation

/-! ## One conversion, as the node sees it -/

/-- The slot reads the target, through a reorder of this run. -/
structure Delivered (start : Graph) (slot : Nat) (target : Layout) (g : Graph) (id : NodeId)
    (input : Input) : Prop where
  at_slot : g.input? id slot = some input
  layout_eq : input.layout = target
  inserted : Inserted start input.producer
  beyond : start.size ≤ input.producer.id.index

theorem Delivered.isReal {start g : Graph} {slot : Nat} {target : Layout} {id : NodeId}
    {input : Input} (h : Delivered start slot target g id input) : input.isReal = true := by
  simp [Input.isReal, Node.isConstant, h.inserted.op_eq]

section

variable {start : Graph} {id : NodeId} {slot : Nat} {target : Layout} {s s' : Reconciliation}

theorem Converted.exists_delivered (h : Converted start id slot target s s')
    {node : Node} (hnode : s.graph.node? id = some node) (hslot : slot < node.deps.length) :
    ∃ input, Delivered start slot target s'.graph id input := by
  obtain ⟨node', reorder, hnode', hbare, hle, hlayout⟩ := h.moved hnode
  have hdep : node'.deps[slot]? = some ⟨reorder, 0⟩ := by
    rw [Node.deps_of_bare hbare]
    simp [hslot]
  obtain ⟨producer, hproducer, houtput⟩ := Graph.layoutAt?_eq_some_iff.1 hlayout
  refine ⟨⟨slot, ⟨reorder, 0⟩, producer, target⟩, ?_, rfl, h.sound.inserted hproducer hle, ?_⟩
  · exact Graph.input?_eq_some_iff.2 ⟨node', hnode', hdep, rfl, hproducer, houtput⟩
  · rw [h.sound.wellFormed.id_eq hproducer]
    exact hle

theorem Converted.core_eq (h : Converted start id slot target s s') {node : Node}
    (hnode : s.graph.node? id = some node) :
    ∃ node', s'.graph.node? id = some node' ∧ node'.core = node.core := by
  obtain ⟨node', _, hnode', hbare, _⟩ := h.moved hnode
  exact ⟨node', hnode', (Node.core_of_bare hbare).trans rfl⟩

end

/-! ## Loops over slots -/

/-- Several conversions at a node: it keeps all but its edges, and other nodes keep everything. -/
structure Served (start : Graph) (id : NodeId) (s s' : Reconciliation) : Prop where
  sound : Sound start s'
  grown : s.graph.size ≤ s'.graph.size
  failure_eq : s'.failure = s.failure
  others : ∀ other : NodeId, other.index < start.size → other ≠ id →
    (s'.graph.node? other).map Node.bare = (s.graph.node? other).map Node.bare
  self : ∀ {node}, s.graph.node? id = some node →
    ∃ node', s'.graph.node? id = some node' ∧ node'.core = node.core ∧
      node'.deps.length = node.deps.length
  inputs : ∀ {reader : NodeId} (slot : Nat), reader.index < start.size → reader ≠ id →
    (s'.graph.input? reader slot).map Input.face = (s.graph.input? reader slot).map Input.face

protected theorem Served.refl {start : Graph} (id : NodeId) {s : Reconciliation}
    (hs : Sound start s) : Served start id s s :=
  ⟨hs, Nat.le_refl _, rfl, fun _ _ _ => rfl, fun hnode => ⟨_, hnode, rfl, rfl⟩, fun _ _ _ => rfl⟩

protected theorem Served.trans {start : Graph} {id : NodeId} {s s' s'' : Reconciliation}
    (h : Served start id s s') (h' : Served start id s' s'') : Served start id s s'' where
  sound := h'.sound
  grown := Nat.le_trans h.grown h'.grown
  failure_eq := h'.failure_eq.trans h.failure_eq
  others other hlt hne := (h'.others other hlt hne).trans (h.others other hlt hne)
  self hnode := by
    obtain ⟨node', hnode', hcore', hlength'⟩ := h.self hnode
    obtain ⟨node'', hnode'', hcore'', hlength''⟩ := h'.self hnode'
    exact ⟨node'', hnode'', hcore''.trans hcore', hlength''.trans hlength'⟩
  inputs slot hlt hne := (h'.inputs slot hlt hne).trans (h.inputs slot hlt hne)

/-- Whether a producer is of this run does not change. -/
theorem Served.isCreated_eq {start : Graph} {id : NodeId} {s s' : Reconciliation}
    (h : Served start id s s') (hs : Sound start s) {slot : Nat} {input : Input}
    (hinput : s.graph.input? id slot = some input) :
    s'.isCreated input.producer.id = s.isCreated input.producer.id := by
  have hlt := hs.wellFormed.producer_lt hinput
  have hgrown := h.grown
  rw [Bool.eq_iff_iff, h.sound.isCreated_iff, hs.isCreated_iff]
  omega

theorem Converted.served {start : Graph} {id : NodeId} {slot : Nat} {target : Layout}
    {s s' : Reconciliation} (h : Converted start id slot target s s') : Served start id s s' where
  sound := h.sound
  grown := h.grown
  failure_eq := h.failure_eq
  others := h.others
  self hnode := by
    obtain ⟨node', _, hnode', hbare, _⟩ := h.moved hnode
    refine ⟨node', hnode', (Node.core_of_bare hbare).trans rfl, ?_⟩
    rw [Node.deps_of_bare hbare]
    simp
  inputs _ hlt hne := h.inputs hlt fun heq => hne heq.1

/-! ## Moves -/

/-- A repair that is due for the node demands a conversion of the input. -/
inductive Demands (s : Reconciliation) (node : Node) (input : Input) (demand : Demand) : Prop
  | stateType (h : Repair.stateType node input = some demand)
  | fusedConstant {output : Layout} (houtput : node.outputs[0]? = some output)
      (h : Repair.fusedConstant output node input = some demand)
  | normalizationPadding {output : Layout} (hop : node.op = .normalization)
      (houtput : node.outputs[0]? = some output) (hreal : input.isReal)
      (h : Repair.normalizationPadding output node input = some demand)
  | vendorPadding (hkind : expectedKind node = some .vendor) (hreal : input.isReal)
      (h : Repair.vendorPadding node input = some demand)
  | agreement (hreal : input.isReal)
      (h : Repair.agreement s.isCreated node input = some demand)

theorem Demands.shape_eq {s : Reconciliation} {node : Node} {input : Input} {demand : Demand}
    (h : Demands s node input demand) : demand.target.shape = input.layout.shape := by
  cases h with
  | stateType h => exact Repair.lawful_stateType.shape_eq (s := s) h
  | fusedConstant _ h => exact (Repair.lawful_fusedConstant _).shape_eq (s := s) h
  | normalizationPadding _ _ _ h =>
    exact (Repair.lawful_normalizationPadding _).shape_eq (s := s) h
  | vendorPadding _ _ h => exact Repair.lawful_vendorPadding.shape_eq (s := s) h
  | agreement _ h => exact Repair.lawful_agreement.shape_eq (s := s) h

/-- One of the things that repairs of `id` do to the state. -/
inductive Move (id : NodeId) (s : Reconciliation) : Reconciliation → Prop
  | settle {g : Graph} (h : s.graph.settle? id = some g) : Move id s (s.withGraph g)
  | invalidate {g : Graph} (h : s.graph.invalidate? id = some g) : Move id s (s.withGraph g)
  | convert {slot : Nat} {node : Node} {input : Input} {demand : Demand} {s' : Reconciliation}
      (hnode : s.graph.node? id = some node) (hinput : s.graph.input? id slot = some input)
      (hdemands : Demands s node input demand)
      (h : s.convert? id slot demand.target demand.reason = some s') : Move id s s'

/-- Any number of moves. -/
abbrev Moves (id : NodeId) : Reconciliation → Reconciliation → Prop :=
  Relation.ReflTransGen (Move id)

/-- What a loop over slots comes to. -/
structure Repaired (start : Graph) (id : NodeId) (repair : Reconciliation → Repair)
    (slots : List Nat) (s s' : Reconciliation) : Prop where
  served : Served start id s s'
  untouched : ∀ {slot}, slot ∉ slots →
    (s'.graph.input? id slot).map Input.face = (s.graph.input? id slot).map Input.face
  done : ∀ {slot node input}, slot ∈ slots → s.graph.node? id = some node →
    s.graph.input? id slot = some input →
    (repair s node input = none ∧ (s'.graph.input? id slot).map Input.face = some input.face) ∨
      ∃ demand input', repair s node input = some demand ∧
        Delivered start slot demand.target s'.graph id input'

theorem Delivered.of_face {start : Graph} {slot : Nat} {target : Layout} {g : Graph} {id : NodeId}
    {input input' : Input} (h : Delivered start slot target g id input) {s' : Reconciliation}
    (hs' : Sound start s') (hinput' : s'.graph.input? id slot = some input')
    (hface : input'.face = input.face) : Delivered start slot target s'.graph id input' := by
  have hid : input'.producer.id = input.producer.id := congrArg (·.2.2.1) hface
  obtain ⟨_, _, _, _, hproducer, _⟩ := Graph.input?_eq_some_iff.1 hinput'
  have hbeyond : start.size ≤ input'.producer.id.index := by
    rw [hid]
    exact h.beyond
  refine ⟨hinput', ?_, ?_, hbeyond⟩
  · rw [Input.layout_of_face hinput' h.at_slot hface, h.layout_eq]
  · exact hs'.inserted hproducer (hs'.wellFormed.id_eq hproducer ▸ hbeyond)

section Loop

variable {start : Graph} {id : NodeId} {repair : Reconciliation → Repair} {slots : List Nat}
  {s : Reconciliation}

/-- A conversion of a slot that has not been looked at yet. -/
theorem Repaired.snoc {s₁ s₂ : Reconciliation} (h : Repaired start id repair slots s s₁)
    {slot : Nat} (hid : id.index < start.size) (hfresh : slot ∉ slots) {node : Node} {input : Input}
    {demand : Demand} (hnode : s.graph.node? id = some node)
    (hinput : s.graph.input? id slot = some input) (hdemand : repair s node input = some demand)
    (hconverted : Converted start id slot demand.target s₁ s₂) :
    Repaired start id repair (slots ++ [slot]) s s₂ := by
  refine ⟨h.served.trans hconverted.served, ?_, ?_⟩
  · intro other hother
    simp only [List.mem_append, List.mem_singleton, not_or] at hother
    exact (hconverted.inputs hid fun heq => hother.2 heq.2).trans (h.untouched hother.1)
  · intro other node' input' hother hnode' hinput'
    obtain rfl := Option.some.inj (hnode.symm.trans hnode')
    by_cases hslot : other = slot
    · subst hslot
      obtain rfl := Option.some.inj (hinput.symm.trans hinput')
      obtain ⟨node₁, hnode₁, _, hlength⟩ := h.served.self hnode
      have hlt : other < node₁.deps.length := by
        rw [hlength]
        exact Graph.lt_length_of_input? hnode hinput
      obtain ⟨delivered, hdelivered⟩ := hconverted.exists_delivered hnode₁ hlt
      exact Or.inr ⟨demand, delivered, hdemand, hdelivered⟩
    · have hmem : other ∈ slots := by simpa [hslot] using hother
      have hframe : (s₂.graph.input? id other).map Input.face =
          (s₁.graph.input? id other).map Input.face :=
        hconverted.inputs hid fun heq => hslot heq.2
      rcases h.done hmem hnode hinput' with ⟨hnone, hface⟩ | ⟨demand', input₁, hsome, hdelivered⟩
      · exact Or.inl ⟨hnone, hframe.trans hface⟩
      · obtain ⟨input₂, hinput₂, hface₂⟩ := exists_of_map_eq hframe hdelivered.at_slot
        exact Or.inr ⟨demand', input₂, hsome,
          hdelivered.of_face hconverted.sound hinput₂ hface₂⟩

/-- A slot that nothing is demanded of. -/
theorem Repaired.skip {s₁ : Reconciliation} (h : Repaired start id repair slots s s₁) {slot : Nat}
    (hslot : slot ∉ slots → ∀ {node input}, s.graph.node? id = some node →
      s.graph.input? id slot = some input → repair s node input = none) :
    Repaired start id repair (slots ++ [slot]) s s₁ := by
  refine ⟨h.served, fun hother => h.untouched fun hmem => hother (by simp [hmem]), ?_⟩
  intro other node input hother hnode hinput
  by_cases hmem : other ∈ slots
  · exact h.done hmem hnode hinput
  · obtain rfl : other = slot := by simpa [hmem] using hother
    refine Or.inl ⟨hslot hmem hnode hinput, ?_⟩
    rw [h.untouched hmem, hinput, Option.map_some]

/-- Where the loop has been, nothing more is demanded. -/
theorem Repaired.eq_none (hrepair : Repair.Lawful repair) (hs : Sound start s)
    {s₁ : Reconciliation} (h : Repaired start id repair slots s s₁) {slot : Nat}
    (hmem : slot ∈ slots)
    {node node₁ : Node} (hnode : s.graph.node? id = some node)
    (hnode₁ : s₁.graph.node? id = some node₁) {input₁ : Input}
    (hinput₁ : s₁.graph.input? id slot = some input₁) : repair s₁ node₁ input₁ = none := by
  obtain ⟨_, hfound, hcore, hlength⟩ := h.served.self hnode
  obtain rfl := Option.some.inj (hnode₁.symm.trans hfound)
  have hlt : slot < node.deps.length := hlength ▸ Graph.lt_length_of_input? hnode₁ hinput₁
  obtain ⟨input, hinput⟩ := hs.wellFormed.exists_input hnode hlt
  rcases h.done hmem hnode hinput with ⟨hnone, hface⟩ | ⟨demand, input', hsome, hdelivered⟩
  · rw [hinput₁, Option.map_some] at hface
    replace hface := Option.some.inj hface
    rw [hrepair.congr hcore hface (Input.layout_of_face hinput₁ hinput hface)
      (h.served.isCreated_eq hs hinput), hnone]
  · obtain rfl := Option.some.inj (hinput₁.symm.trans hdelivered.at_slot)
    have hslot : input₁.slot = input.slot := by
      rw [Graph.slot_of_input? hinput, Graph.slot_of_input? hinput₁]
    exact hrepair.served hsome hcore hslot hdelivered.layout_eq hdelivered.isReal

/-- Induction over a loop over slots of a node.  A slot that is converted is as it was when the loop
began, so that the repair demands what it did then. -/
theorem repairSlots_induct (hstart : start.WellFormed) (hrepair : Repair.Lawful repair)
    (hs : Sound start s) (hid : id.index < start.size) {node : Node}
    (hnode : s.graph.node? id = some node) (hslots : ∀ slot ∈ slots, slot < node.deps.length)
    (motive : List Nat → Reconciliation → Prop) (hbegin : motive [] s)
    (hskip : ∀ {done slot s₁}, motive done s₁ → motive (done ++ [slot]) s₁)
    (hconvert : ∀ {done slot s₁ s₂ node₁ input input₁ demand}, slot ∈ slots → slot ∉ done →
      Sound start s₁ → motive done s₁ → s₁.graph.node? id = some node₁ → node₁.core = node.core →
      s.graph.input? id slot = some input → s₁.graph.input? id slot = some input₁ →
      input₁.face = input.face → repair s node input = some demand →
      repair s₁ node₁ input₁ = some demand →
      s₁.convert? id slot demand.target demand.reason = some s₂ → motive (done ++ [slot]) s₂) :
    Yields (slots.foldlM (repairSlot? id repair) s) fun s' =>
      Repaired start id repair slots s s' ∧ motive slots s' := by
  refine Yields.foldlM (fun done s' => Repaired start id repair done s s' ∧ motive done s') ?_ ?_
  · exact ⟨⟨.refl id hs, fun _ => rfl, fun h => absurd h List.not_mem_nil⟩, hbegin⟩
  rintro done slot rest s₁ rfl ⟨hrepaired, hmotive⟩
  have hs₁ := hrepaired.served.sound
  have hlt : slot < node.deps.length := hslots slot (by simp)
  obtain ⟨node₁, hnode₁, hcore, hlength⟩ := hrepaired.served.self hnode
  obtain ⟨input, hinput⟩ := hs.wellFormed.exists_input hnode hlt
  obtain ⟨input₁, hinput₁⟩ := hs₁.wellFormed.exists_input hnode₁ (hlength.symm ▸ hlt)
  refine Yields.bind_eq hnode₁ (Yields.bind_eq hinput₁ ?_)
  by_cases hdone : slot ∈ done
  · rw [hrepaired.eq_none hrepair hs hdone hnode hnode₁ hinput₁]
    exact Yields.pure ⟨hrepaired.skip fun hfresh => absurd hdone hfresh, hskip hmotive⟩
  · have hface : input₁.face = input.face := by
      have heq := hrepaired.untouched hdone
      rw [hinput₁, hinput] at heq
      exact Option.some.inj heq
    have hsame : repair s₁ node₁ input₁ = repair s node input :=
      hrepair.congr hcore hface (Input.layout_of_face hinput₁ hinput hface)
        (hrepaired.served.isCreated_eq hs hinput)
    cases hdemand : repair s₁ node₁ input₁ with
    | none =>
      refine Yields.pure ⟨hrepaired.skip fun _ {node' input'} hnode' hinput' => ?_, hskip hmotive⟩
      obtain rfl := Option.some.inj (hnode.symm.trans hnode')
      obtain rfl := Option.some.inj (hinput.symm.trans hinput')
      rw [← hsame, hdemand]
    | some demand =>
      have hbefore : repair s node input = some demand := hsame.symm.trans hdemand
      obtain ⟨s₂, hs₂, hconverted⟩ :=
        convert?_spec hstart hs₁ hid hinput₁ (hrepair.shape_eq hdemand) demand.reason
      exact Yields.of_eq hs₂ ⟨hrepaired.snoc hid hdone hnode hinput hbefore hconverted,
        hconvert (by simp) hdone hs₁ hmotive hnode₁ hcore hinput hinput₁ hface hbefore hdemand hs₂⟩

/-- A loop over slots of a node.  Whatever the repair demands must be due for the node. -/
theorem repairSlots_spec (hstart : start.WellFormed) (hrepair : Repair.Lawful repair)
    (hs : Sound start s) (hid : id.index < start.size) {node : Node}
    (hnode : s.graph.node? id = some node) (hslots : ∀ slot ∈ slots, slot < node.deps.length)
    (hdemands : ∀ {s₁ node₁ slot input input₁ demand}, slot ∈ slots →
      s.graph.input? id slot = some input → node₁.core = node.core → input₁.face = input.face →
      repair s₁ node₁ input₁ = some demand → Demands s₁ node₁ input₁ demand) :
    Yields (slots.foldlM (repairSlot? id repair) s) fun s' =>
      Repaired start id repair slots s s' ∧ Moves id s s' := by
  refine repairSlots_induct hstart hrepair hs hid hnode hslots (fun _ => Moves id s) .refl
    (fun h => h) ?_
  intro done slot s₁ s₂ node₁ input input₁ demand hmem _ _ hmoves hnode₁ hcore hinput hinput₁ hface
    _ hdemand h
  exact hmoves.tail (.convert hnode₁ hinput₁ (hdemands hmem hinput hcore hface hdemand) h)

end Loop

end Reconciliation

end LayoutPlanner
