import LayoutPlanner.Planning.EdgeAgreement
import LayoutPlanner.Proofs.Repairs

/-!
# Visits

Edge agreement visits the nodes one by one.  A visit makes some moves, looks for a legal layout, and
then reconciles the real inputs (`repairNode?_spec`).  This is what every result about the stage is
derived from.

* A visit keeps the state sound and touches its node only: other nodes keep what was decided about
  them, and a slot that does not read the visited node is fed as before (`Visited.framed`).
* `Change` lists what can become of an old node.
* A property that moves and searches keep holds at the end of a run (`run?_inv`).
* Reorders and nodes without inputs are passed over (`run?_passed`), and a run that fails stops at a
  visit (`run?_stopped`).
* What a visit establishes for its node stays true, for later visits leave the node and what it
  reads alone (`run?_done`), and the nodes before it as well (`run?_turns`).
-/

namespace LayoutPlanner

namespace Reconciliation

variable {start : Graph} {cx : Context} {id : NodeId} {s s' : Reconciliation}

/-- Soundness, and what a visit of `id` leaves alone. -/
structure Framed (start : Graph) (id : NodeId) (s s' : Reconciliation) : Prop where
  sound : Sound start s'
  grown : s.graph.size ≤ s'.graph.size
  others : ∀ other : NodeId, other.index < start.size → other ≠ id →
    (s'.graph.node? other).map Node.bare = (s.graph.node? other).map Node.bare
  inputs : ∀ {reader : NodeId} {slot : Nat}, reader.index < start.size → reader ≠ id →
    (∀ edge, start.dep? reader slot = some edge → edge.node ≠ id) →
    (s'.graph.input? reader slot).map Input.face = (s.graph.input? reader slot).map Input.face

protected theorem Framed.refl (hs : Sound start s) : Framed start id s s :=
  ⟨hs, Nat.le_refl _, fun _ _ _ => rfl, fun _ _ _ => rfl⟩

protected theorem Framed.trans {s'' : Reconciliation} (h : Framed start id s s')
    (h' : Framed start id s' s'') : Framed start id s s'' where
  sound := h'.sound
  grown := Nat.le_trans h.grown h'.grown
  others other hlt hne := (h'.others other hlt hne).trans (h.others other hlt hne)
  inputs hlt hne hedge := (h'.inputs hlt hne hedge).trans (h.inputs hlt hne hedge)

/-- A local edit of a node of `start` is framed. -/
theorem Framed.of_localEdit (hs : Sound start s) (hid : id.index < start.size)
    (hedit : Graph.LocalEdit id s.graph s'.graph) (hconversions : s'.conversions = s.conversions)
    (hcreated : s'.created = s.created) : Framed start id s s' where
  sound := hs.localEdit hid hedit hconversions hcreated
  grown := Nat.le_of_eq hedit.content.nodes.size_eq.symm
  others other _ hne := hedit.others other hne
  inputs {reader slot} hlt hne hedge := by
    obtain ⟨node, hnode⟩ := Graph.exists_node (Nat.lt_of_lt_of_le hlt hs.grown)
    obtain ⟨node', hnode', hbare⟩ := exists_of_map_eq (hedit.others reader hne) hnode
    refine Graph.input?_face_eq hnode hnode' (by rw [Node.deps_of_bare hbare]) ?_
    intro current hcurrent
    have hdep : s.graph.dep? reader slot = some current := by simp [Graph.dep?, hnode, hcurrent]
    obtain ⟨edge, hstart, hfeeds⟩ := hs.exists_slot hlt hdep
    refine hedit.face_eq ?_
    rcases hfeeds with rfl | ⟨reorder, _, rfl, hle, _⟩
    · exact hedge _ hstart
    · rintro rfl
      exact absurd hid (Nat.not_lt.2 hle)

/-- An old node does not read itself. -/
theorem Sound.ne_of_dep (hstart : start.Ordered) (hs : Sound start s) (hid : id.index < start.size)
    {slot : Nat} {edge : Edge} (hdep : s.graph.dep? id slot = some edge) : edge.node ≠ id := by
  obtain ⟨source, hsource, hfeeds⟩ := hs.exists_slot hid hdep
  rcases hfeeds with rfl | ⟨reorder, _, rfl, hle, _⟩
  · obtain ⟨node, hnode, hget⟩ := Option.bind_eq_some_iff.1 hsource
    have hless := hstart.earlier hnode (List.mem_of_getElem? hget)
    rintro rfl
    exact absurd hless (Nat.lt_irrefl _)
  · rintro rfl
    exact absurd hid (Nat.not_lt.2 hle)

/-- A local edit does not change what the edited node reads. -/
theorem Sound.input?_face_eq (hstart : start.Ordered) (hs : Sound start s)
    (hid : id.index < start.size) {g : Graph} (hedit : Graph.LocalEdit id s.graph g) (slot : Nat) :
    (g.input? id slot).map Input.face = (s.graph.input? id slot).map Input.face := by
  obtain ⟨node, hnode⟩ := Graph.exists_node (Nat.lt_of_lt_of_le hid hs.grown)
  obtain ⟨node', hnode', hcontent⟩ := hedit.content.nodes.exists_new hnode
  refine Graph.input?_face_eq hnode hnode' (by rw [(Node.content_eq_iff.1 hcontent).2.1]) ?_
  intro edge hedge
  have hdep : s.graph.dep? id slot = some edge := by simp [Graph.dep?, hnode, hedge]
  exact hedit.face_eq (hs.ne_of_dep hstart hid hdep)

theorem Converted.framed {slot : Nat} {target : Layout} (h : Converted start id slot target s s') :
    Framed start id s s' :=
  ⟨h.sound, h.grown, h.others, fun hlt hne _ => h.inputs hlt fun heq => hne heq.1⟩

/-- What one move leaves alone. -/
theorem Move.framed (hstart : start.WellFormed) (hs : Sound start s) (hid : id.index < start.size)
    (h : Move id s s') : Framed start id s s' := by
  obtain ⟨node, hnode⟩ := Graph.exists_node (Nat.lt_of_lt_of_le hid hs.grown)
  cases h with
  | settle h =>
    exact .of_localEdit hs hid ((Graph.settle?_spec hs.wellFormed hnode).post_of_eq h).1 rfl rfl
  | invalidate h =>
    exact .of_localEdit hs hid ((Graph.invalidate?_spec hs.wellFormed hnode).post_of_eq h).1 rfl rfl
  | convert _ hinput hdemands h =>
    exact ((convert?_spec hstart hs hid hinput hdemands.shape_eq _).post_of_eq h).framed

theorem Legalized.framed (hs : Sound start s) (hid : id.index < start.size)
    (h : Legalized cx id s s') : Framed start id s s' :=
  .of_localEdit hs hid h.edit h.conversions_eq h.created_eq

theorem Moves.framed (hstart : start.WellFormed) (hs : Sound start s) (hid : id.index < start.size)
    (h : Moves id s s') : Framed start id s s' := by
  induction h with
  | refl => exact .refl hs
  | tail _ hmove ih => exact ih.trans (hmove.framed hstart ih.sound hid)

/-- A property that every move keeps is kept by all of them. -/
theorem Moves.inv (hstart : start.WellFormed) (hs : Sound start s) (hid : id.index < start.size)
    (inv : Reconciliation → Prop)
    (hmove : ∀ {s s'}, Sound start s → inv s → Move id s s' → inv s')
    (h : Moves id s s') (hinv : inv s) : inv s' := by
  induction h with
  | refl => exact hinv
  | tail hmoves hlast ih =>
    exact hmove (Moves.framed hstart hs hid hmoves).sound ih hlast

/-- What a visit can make of the decisions about an old node. -/
inductive Change (node node' : Node) : Prop
  | same (h : node'.core = node.core)
  | settled (inherited : List Format) (h : node'.core = (node.afterSettling inherited).core)
  /-- The search for a legal layout may hand the node over and may adopt a format. -/
  | legalized (base : Node)
      (hbase : base.core = node.core ∨ node.pinned = some .vendor ∧
        base.core = { node with pinned := some .generic, selected := some .generic }.core)
      (h : node'.core = base.core ∨ ∃ format accepts, base.Adopts format accepts node')

theorem Framed.change_of_ne (h : Framed start id s s') {other : NodeId}
    (hlt : other.index < start.size) (hne : other ≠ id) {node node' : Node}
    (hnode : s.graph.node? other = some node) (hnode' : s'.graph.node? other = some node') :
    Change node node' := by
  have heq := h.others other hlt hne
  rw [hnode, hnode', Option.map_some, Option.map_some] at heq
  exact .same (Node.core_of_bare (Option.some.inj heq))

/-- All that a move does to its node, apart from its edges, is to settle its outputs. -/
theorem Move.core_cases (hstart : start.WellFormed) (hs : Sound start s)
    (hid : id.index < start.size) (h : Move id s s') {node node' : Node}
    (hnode : s.graph.node? id = some node) (hnode' : s'.graph.node? id = some node') :
    node'.core = node.core ∨ ∃ inherited, node'.core = (node.afterSettling inherited).core := by
  cases h with
  | settle h =>
    obtain ⟨_, inherited, new, _, hnew, hbare⟩ :=
      (Graph.settle?_spec hs.wellFormed hnode).post_of_eq h
    obtain rfl := Option.some.inj (hnode'.symm.trans hnew)
    exact Or.inr ⟨inherited, Node.core_of_bare hbare⟩
  | invalidate h =>
    obtain ⟨_, htidied, _⟩ := (Graph.invalidate?_spec hs.wellFormed hnode).post_of_eq h
    obtain ⟨_, hold, hbare⟩ := htidied.bare.exists_old hnode'
    obtain rfl := Option.some.inj (hnode.symm.trans hold)
    exact Or.inl (Node.core_of_bare hbare)
  | convert _ hinput hdemands h =>
    have hconverted := (convert?_spec hstart hs hid hinput hdemands.shape_eq _).post_of_eq h
    obtain ⟨_, hnew, hcore⟩ := hconverted.core_eq hnode
    obtain rfl := Option.some.inj (hnode'.symm.trans hnew)
    exact Or.inl hcore

theorem Move.change (hstart : start.WellFormed) (hs : Sound start s) (hid : id.index < start.size)
    (h : Move id s s') {other : NodeId} (hlt : other.index < start.size) {node' : Node}
    (hnode' : s'.graph.node? other = some node') :
    ∃ node, s.graph.node? other = some node ∧ Change node node' := by
  obtain ⟨node, hnode⟩ := Graph.exists_node (Nat.lt_of_lt_of_le hlt hs.grown)
  refine ⟨node, hnode, ?_⟩
  by_cases hne : other = id
  · subst hne
    rcases h.core_cases hstart hs hid hnode hnode' with hsame | ⟨inherited, hsettled⟩
    · exact .same hsame
    · exact .settled inherited hsettled
  · exact (h.framed hstart hs hid).change_of_ne hlt hne hnode hnode'

theorem Legalized.change (hs : Sound start s) (hid : id.index < start.size)
    (h : Legalized cx id s s') {other : NodeId} (hlt : other.index < start.size) {node' : Node}
    (hnode' : s'.graph.node? other = some node') :
    ∃ node, s.graph.node? other = some node ∧ Change node node' := by
  obtain ⟨node, hnode⟩ := Graph.exists_node (Nat.lt_of_lt_of_le hlt hs.grown)
  refine ⟨node, hnode, ?_⟩
  by_cases hne : other = id
  · subst hne
    obtain ⟨base, hbase, hending⟩ := h.ending
    obtain ⟨node₁, hnode₁, hnode₁_eq⟩ : ∃ node₁, base.node? other = some node₁ ∧
        (node₁.core = node.core ∨ node.pinned = some .vendor ∧
          node₁.core = { node with pinned := some .generic, selected := some .generic }.core) := by
      rcases hbase with hrestored | hhanded
      · obtain ⟨node₁, hnode₁, hbare⟩ := hrestored.bare.exists_new hnode
        exact ⟨node₁, hnode₁, Or.inl (Node.core_of_bare hbare)⟩
      · obtain ⟨hpinned, node₁, hnode₁, hbare⟩ := hhanded.node hnode
        exact ⟨node₁, hnode₁, Or.inr ⟨hpinned, Node.core_of_bare hbare⟩⟩
    have hkept : base.Restored other s'.graph → Change node node' := by
      intro hrestored
      obtain ⟨_, hfound, hbare⟩ := hrestored.bare.exists_new hnode₁
      obtain rfl := Option.some.inj (hnode'.symm.trans hfound)
      exact .legalized node₁ hnode₁_eq (Or.inl (Node.core_of_bare hbare))
    cases hending with
    | supported hrestored => exact hkept hrestored
    | deferred hrestored => exact hkept hrestored
    | adopted format hadopts =>
      obtain ⟨_, hfound, hadopted⟩ := hadopts.node hnode₁
      obtain rfl := Option.some.inj (hnode'.symm.trans hfound)
      exact .legalized node₁ hnode₁_eq (Or.inr ⟨format, _, hadopted⟩)
    | unresolved hrestored => exact hkept hrestored
  · exact (h.framed hs hid).change_of_ne hlt hne hnode hnode'

/-! ## The steps of a visit -/

/-- A step of a visit before the search for a legal layout. -/
structure Advanced (start : Graph) (id : NodeId) (s s' : Reconciliation) : Prop where
  sound : Sound start s'
  moves : Moves id s s'
  failure_eq : s'.failure = s.failure

protected theorem Advanced.refl (hs : Sound start s) : Advanced start id s s :=
  ⟨hs, .refl, rfl⟩

protected theorem Advanced.trans {s'' : Reconciliation} (h : Advanced start id s s')
    (h' : Advanced start id s' s'') : Advanced start id s s'' :=
  ⟨h'.sound, h.moves.trans h'.moves, h'.failure_eq.trans h.failure_eq⟩

/-- The number of slots of an old node is fixed. -/
theorem Sound.length_deps (hs : Sound start s) {old node : Node} (hold : start.node? id = some old)
    (hnode : s.graph.node? id = some node) : node.deps.length = old.deps.length := by
  obtain ⟨_, hfound, _, hlength, _⟩ := hs.kept hold
  obtain rfl := Option.some.inj (hnode.symm.trans hfound)
  exact hlength

theorem Repaired.advanced {repair : Reconciliation → Repair} {slots : List Nat}
    (h : Repaired start id repair slots s s') (hmoves : Moves id s s') :
    Advanced start id s s' :=
  ⟨h.served.sound, hmoves, h.served.failure_eq⟩

theorem expectedKind_of_core {a b : Node} (h : a.core = b.core) :
    expectedKind a = expectedKind b := by
  simp only [Node.core, Node.bare, Node.mk.injEq] at h
  simp [expectedKind, h]

/-- Real slots are slots. -/
theorem lt_length_of_realSlots (hg : s.graph.WellFormed) {node : Node}
    (hnode : s.graph.node? id = some node) {slots : List Nat}
    (hslots : s.graph.realSlots? id = some slots) :
    ∀ slot ∈ slots, slot < node.deps.length ∧
      ∀ input, s.graph.input? id slot = some input → input.isReal := by
  obtain ⟨_, hfound, hreal⟩ := hg.exists_realSlots hnode
  obtain rfl := Option.some.inj (hslots.symm.trans hfound)
  intro slot hmem
  obtain ⟨input, hinput, hinput_real⟩ := (hreal slot).1 hmem
  refine ⟨?_, fun input' hinput' => ?_⟩
  · exact Graph.lt_length_of_input? hnode hinput
  · obtain rfl := Option.some.inj (hinput.symm.trans hinput')
    exact hinput_real

/-- A loop over the real slots gets to every slot that is real afterwards. -/
theorem Repaired.mem_of_isReal {repair : Reconciliation → Repair} {slots : List Nat}
    (hs : Sound start s) (h : Repaired start id repair slots s s') {node : Node}
    (hnode : s.graph.node? id = some node) (hslots : s.graph.realSlots? id = some slots)
    {slot : Nat} {input' : Input} (hinput' : s'.graph.input? id slot = some input')
    (hreal : input'.isReal) : slot ∈ slots := by
  by_contra hfresh
  obtain ⟨input, hinput, hface⟩ := exists_of_map_eq (h.untouched hfresh).symm hinput'
  obtain ⟨_, hfound, hall⟩ := hs.wellFormed.exists_realSlots hnode
  obtain rfl := Option.some.inj (hslots.symm.trans hfound)
  exact hfresh ((hall slot).2 ⟨input, hinput, by rw [Input.isReal_of_face hface, hreal]⟩)

/-- A loop of repairs over slots of a node, each of them with a demand of its own kind. -/
structure Loop (id : NodeId) (node : Node) (repair : Reconciliation → Repair) (slots : List Nat)
    (s : Reconciliation) : Prop where
  at_id : s.graph.node? id = some node
  lawful : Repair.Lawful repair
  bound : ∀ slot ∈ slots, slot < node.deps.length
  demands : ∀ {s₁ node₁ slot input input₁ demand}, slot ∈ slots →
    s.graph.input? id slot = some input → node₁.core = node.core → input₁.face = input.face →
    repair s₁ node₁ input₁ = some demand → Demands s₁ node₁ input₁ demand

theorem Loop.spec {node : Node} {repair : Reconciliation → Repair} {slots : List Nat}
    (h : Loop id node repair slots s) (hstart : start.WellFormed) (hs : Sound start s)
    (hid : id.index < start.size) :
    Yields (slots.foldlM (repairSlot? id repair) s) fun s' =>
      Repaired start id repair slots s s' ∧ Moves id s s' :=
  repairSlots_spec hstart h.lawful hs hid h.at_id h.bound h.demands

section Loops

variable {node : Node} (hnode : s.graph.node? id = some node)

include hnode

theorem loop_operands {output : Layout} (houtput : node.outputs[0]? = some output) :
    Loop id node (fun _ => Repair.fusedConstant output) (operandSlots node) s where
  at_id := hnode
  lawful := Repair.lawful_fusedConstant output
  bound slot hmem := by simpa using (List.mem_filter.1 hmem).2
  demands _ _ hcore _ hdemand :=
    .fusedConstant (by rw [Node.outputs_of_core hcore, houtput]) hdemand

variable (hg : s.graph.WellFormed) {slots : List Nat} (hslots : s.graph.realSlots? id = some slots)

include hg hslots

theorem loop_normalization {output : Layout} (hop : node.op = .normalization)
    (houtput : node.outputs[0]? = some output) :
    Loop id node (fun _ => Repair.normalizationPadding output) slots s where
  at_id := hnode
  lawful := Repair.lawful_normalizationPadding output
  bound slot hmem := (lt_length_of_realSlots hg hnode hslots slot hmem).1
  demands {_ _ slot input _ _} hmem hinput hcore hface hdemand := by
    refine .normalizationPadding (by rw [Node.op_of_core hcore, hop])
      (by rw [Node.outputs_of_core hcore, houtput]) ?_ hdemand
    rw [Input.isReal_of_face hface]
    exact (lt_length_of_realSlots hg hnode hslots slot hmem).2 input hinput

theorem loop_vendor (hkind : expectedKind node = some .vendor) :
    Loop id node (fun _ => Repair.vendorPadding) slots s where
  at_id := hnode
  lawful := Repair.lawful_vendorPadding
  bound slot hmem := (lt_length_of_realSlots hg hnode hslots slot hmem).1
  demands {_ _ slot input _ _} hmem hinput hcore hface hdemand := by
    refine .vendorPadding (by rw [expectedKind_of_core hcore, hkind]) ?_ hdemand
    rw [Input.isReal_of_face hface]
    exact (lt_length_of_realSlots hg hnode hslots slot hmem).2 input hinput

theorem loop_agreement :
    Loop id node (fun s => Repair.agreement s.isCreated) slots s where
  at_id := hnode
  lawful := Repair.lawful_agreement
  bound slot hmem := (lt_length_of_realSlots hg hnode hslots slot hmem).1
  demands {_ _ slot input _ _} hmem hinput _ hface hdemand := by
    refine .agreement ?_ hdemand
    rw [Input.isReal_of_face hface]
    exact (lt_length_of_realSlots hg hnode hslots slot hmem).2 input hinput

end Loops

/-! ## The repairs of a visit, taken apart -/

/-- What is done about a state: nothing, if nothing is demanded, or else a conversion, after which
the node is settled anew. -/
inductive StateRepair (id : NodeId) (node : Node) (s : Reconciliation) : Reconciliation → Prop
  | rests (h : ∀ input, s.graph.input? id 0 = some input → Repair.stateType node input = none) :
      StateRepair id node s s
  | converts {input : Input} {demand : Demand} {s₁ : Reconciliation} {g₂ g₃ : Graph}
      (hinput : s.graph.input? id 0 = some input)
      (hdemand : Repair.stateType node input = some demand)
      (h : s.convert? id 0 demand.target demand.reason = some s₁)
      (hinvalidate : s₁.graph.invalidate? id = some g₂) (hsettle : g₂.settle? id = some g₃) :
      StateRepair id node s (s₁.withGraph g₃)

/-- Settling a node anew is a local edit. -/
theorem localEdit_of_resettle {g g₂ g₃ : Graph} (hg : g.WellFormed) {node : Node}
    (hnode : g.node? id = some node) (hinvalidate : g.invalidate? id = some g₂)
    (hsettle : g₂.settle? id = some g₃) : Graph.LocalEdit id g g₃ := by
  obtain ⟨hedit₂, _, _, hnode₂, _⟩ := (Graph.invalidate?_spec hg hnode).post_of_eq hinvalidate
  obtain ⟨hedit₃, _⟩ := (Graph.settle?_spec (hedit₂.wellFormed hg) hnode₂).post_of_eq hsettle
  exact hedit₂.trans hedit₃

section Cases

variable {node : Node} (hnode : s.graph.node? id = some node)

include hnode

theorem stateRepair_of_convertState? (h : s.convertState? id = some s') :
    StateRepair id node s s' := by
  obtain ⟨_, hfound, h⟩ := Option.bind_eq_some_iff.1 h
  obtain rfl := Option.some.inj (hnode.symm.trans hfound)
  split at h
  next =>
    obtain ⟨input, hinput, h⟩ := Option.bind_eq_some_iff.1 h
    split at h
    next demand hdemand =>
      obtain ⟨s₁, hs₁, h⟩ := Option.bind_eq_some_iff.1 h
      obtain ⟨g₂, hg₂, h⟩ := Option.bind_eq_some_iff.1 h
      obtain ⟨g₃, hg₃, h⟩ := Option.bind_eq_some_iff.1 h
      cases h
      exact .converts hinput hdemand hs₁ hg₂ hg₃
    next hnone =>
      cases h
      refine .rests fun found hfound => ?_
      obtain rfl := Option.some.inj (hinput.symm.trans hfound)
      exact hnone
  next hattrs =>
    cases h
    refine .rests fun input _ => ?_
    unfold Repair.stateType
    split
    next hwrite => exact absurd hwrite (hattrs _ _)
    next => rfl

theorem operands_cases
    (h : (if cx.config.optimizeLayout then s.reorderOperands? id else some s) = some s') :
    cx.config.optimizeLayout = false ∧ s' = s ∨ cx.config.optimizeLayout = true ∧
      ∃ output, node.outputs[0]? = some output ∧
        (operandSlots node).foldlM (repairSlot? id fun _ => .fusedConstant output) s = some s' := by
  split at h
  next hoptimize =>
    obtain ⟨_, hfound, h⟩ := Option.bind_eq_some_iff.1 h
    obtain rfl := Option.some.inj (hnode.symm.trans hfound)
    obtain ⟨output, houtput, h⟩ := Option.bind_eq_some_iff.1 h
    exact Or.inr ⟨hoptimize, output, houtput, h⟩
  next hoptimize =>
    cases h
    exact Or.inl ⟨by simpa using hoptimize, rfl⟩

theorem normalization_cases (h : s.unpadNormalization? id = some s') :
    node.op ≠ .normalization ∧ s' = s ∨ node.op = .normalization ∧
      ∃ slots output, s.graph.realSlots? id = some slots ∧ node.outputs[0]? = some output ∧
        slots.foldlM (repairSlot? id fun _ => .normalizationPadding output) s = some s' := by
  obtain ⟨_, hfound, h⟩ := Option.bind_eq_some_iff.1 h
  obtain rfl := Option.some.inj (hnode.symm.trans hfound)
  split at h
  next hop =>
    obtain ⟨slots, hslots, h⟩ := Option.bind_eq_some_iff.1 h
    obtain ⟨output, houtput, h⟩ := Option.bind_eq_some_iff.1 h
    exact Or.inr ⟨hop, slots, output, hslots, houtput, h⟩
  next hop =>
    cases h
    exact Or.inl ⟨hop, rfl⟩

theorem vendor_cases (h : s.unpadVendor? id = some s') :
    expectedKind node ≠ some .vendor ∧ s' = s ∨ expectedKind node = some .vendor ∧
      ∃ slots, s.graph.realSlots? id = some slots ∧
        slots.foldlM (repairSlot? id fun _ => .vendorPadding) s = some s' := by
  obtain ⟨_, hfound, h⟩ := Option.bind_eq_some_iff.1 h
  obtain rfl := Option.some.inj (hnode.symm.trans hfound)
  split at h
  next hkind => exact Or.inr ⟨hkind, Option.bind_eq_some_iff.1 h⟩
  next hkind =>
    cases h
    exact Or.inl ⟨hkind, rfl⟩

end Cases

/-! ## What the repairs of a visit come to -/

/-- A vendor routine has no padding to strip from the node's inputs. -/
def Unpadded (id : NodeId) (s : Reconciliation) : Prop :=
  ∀ node slot input, s.graph.node? id = some node → expectedKind node = some .vendor →
    s.graph.input? id slot = some input → input.isReal → Repair.vendorPadding node input = none

section Steps

variable (hstart : start.WellFormed) (hs : Sound start s) (hid : id.index < start.size)

include hid hs in
theorem settle_advanced {node : Node} (hnode : s.graph.node? id = some node) :
    Yields (s.graph.settle? id) fun g => Advanced start id s (s.withGraph g) := by
  obtain ⟨g, hg, hedit, _⟩ := Graph.settle?_spec hs.wellFormed hnode
  exact .of_eq hg ⟨hs.localEdit hid hedit rfl rfl, .single (.settle hg), rfl⟩

include hstart hs hid in
theorem convertState?_spec {node : Node} (hnode : s.graph.node? id = some node)
    (hdeps : node.deps ≠ []) : Yields (s.convertState? id) (Advanced start id s) := by
  refine Yields.bind_eq hnode ?_
  split
  next =>
    obtain ⟨input, hinput⟩ := hs.wellFormed.exists_input hnode (List.length_pos_iff.2 hdeps)
    refine Yields.bind_eq hinput ?_
    split
    next demand hdemand =>
      have hasked : Demands s node input demand := .stateType hdemand
      obtain ⟨s₁, hs₁, hconverted⟩ :=
        convert?_spec hstart hs hid hinput hasked.shape_eq demand.reason
      obtain ⟨node₁, _, hnode₁, _⟩ := hconverted.moved hnode
      obtain ⟨g₂, hg₂, hedit₂, _, node₂, hnode₂, _⟩ :=
        Graph.invalidate?_spec hconverted.sound.wellFormed hnode₁
      have hs₂ : Sound start (s₁.withGraph g₂) := hconverted.sound.localEdit hid hedit₂ rfl rfl
      obtain ⟨g₃, hg₃, hadvanced⟩ := settle_advanced hs₂ hid hnode₂
      refine Yields.bind_eq hs₁ (Yields.bind_eq hg₂ (Yields.bind_eq hg₃ (Yields.pure ?_)))
      refine ⟨hadvanced.sound, ?_, hconverted.failure_eq⟩
      exact ((Relation.ReflTransGen.single (.convert hnode hinput hasked hs₁)).tail
        (.invalidate hg₂)).trans hadvanced.moves
    next => exact Yields.pure (.refl hs)
  next => exact Yields.pure (.refl hs)

include hstart hs hid in
theorem reorderOperands?_spec {node : Node} (hnode : s.graph.node? id = some node) :
    Yields (s.reorderOperands? id) (Advanced start id s) := by
  obtain ⟨output, houtput⟩ := hs.wellFormed.exists_output hnode
  refine Yields.bind_eq hnode (Yields.bind_eq houtput ?_)
  exact ((loop_operands hnode houtput).spec hstart hs hid).mono fun s' h => h.1.advanced h.2

include hstart hs hid in
theorem unpadNormalization?_spec {node : Node} (hnode : s.graph.node? id = some node) :
    Yields (s.unpadNormalization? id) (Advanced start id s) := by
  refine Yields.bind_eq hnode ?_
  split
  next hop =>
    obtain ⟨output, houtput⟩ := hs.wellFormed.exists_output hnode
    obtain ⟨slots, hslots, _⟩ := hs.wellFormed.exists_realSlots hnode
    have hloop := loop_normalization hnode hs.wellFormed hslots hop houtput
    refine Yields.bind_eq hslots (Yields.bind_eq houtput ?_)
    exact (hloop.spec hstart hs hid).mono fun s' h => h.1.advanced h.2
  next => exact Yields.pure (.refl hs)

include hstart hs hid in
theorem unpadVendor?_spec {node : Node} (hnode : s.graph.node? id = some node) :
    Yields (s.unpadVendor? id) fun s' => Advanced start id s s' ∧ Unpadded id s' := by
  refine Yields.bind_eq hnode ?_
  split
  next hkind =>
    obtain ⟨slots, hslots, _⟩ := hs.wellFormed.exists_realSlots hnode
    have hloop := loop_vendor hnode hs.wellFormed hslots hkind
    refine Yields.bind_eq hslots ((hloop.spec hstart hs hid).mono fun s' h => ?_)
    refine ⟨h.1.advanced h.2, fun node' slot input' hnode' _ hinput' hinput_real => ?_⟩
    exact h.1.eq_none Repair.lawful_vendorPadding hs
      (h.1.mem_of_isReal hs hnode hslots hinput' hinput_real) hnode hnode' hinput'
  next hkind =>
    refine Yields.pure ⟨.refl hs, fun node' slot input hnode' hkind' => ?_⟩
    obtain rfl := Option.some.inj (hnode.symm.trans hnode')
    exact absurd hkind' hkind

include hstart hs hid in
theorem reconcile?_spec {node : Node} (hnode : s.graph.node? id = some node) :
    Yields (s.reconcile? id) fun s' => ∃ slots, s.graph.realSlots? id = some slots ∧
      Repaired start id (fun s => Repair.agreement s.isCreated) slots s s' ∧ Moves id s s' := by
  obtain ⟨slots, hslots, _⟩ := hs.wellFormed.exists_realSlots hnode
  have hloop := loop_agreement hnode hs.wellFormed hslots
  exact Yields.bind_eq hslots ((hloop.spec hstart hs hid).mono fun s' h => ⟨slots, hslots, h⟩)

end Steps

/-! ## Visits and runs -/

/-- What a visit does: some moves, the search for a legal layout, and, if that did not fail, the
reconciliation of the real inputs. -/
structure Visited (start : Graph) (cx : Context) (id : NodeId) (s s' : Reconciliation)
    (before after : Reconciliation) : Prop where
  advanced : Advanced start id s before
  unpadded : Unpadded id before
  searched : before.legalize? cx id = some after
  legalized : Legalized cx id before after
  sound : Sound start after
  ending : after.failure.isSome ∧ s' = after ∨ after.failure = none ∧
    ∃ slots, after.graph.realSlots? id = some slots ∧
      Repaired start id (fun s => Repair.agreement s.isCreated) slots after s' ∧
      Moves id after s'

/-- A node that reads something is there, with its slots, in every sound state. -/
theorem Sound.exists_reader (hs : Sound start s) (hs' : Sound start s')
    (hid : id.index < start.size) {node : Node} (hnode : s.graph.node? id = some node)
    (hdeps : node.deps ≠ []) : ∃ node', s'.graph.node? id = some node' ∧ node'.deps ≠ [] := by
  obtain ⟨old, hold⟩ := Graph.exists_node hid
  obtain ⟨node', hnode'⟩ := Graph.exists_node (Nat.lt_of_lt_of_le hid hs'.grown)
  refine ⟨node', hnode', ?_⟩
  rw [← List.length_pos_iff, hs'.length_deps hold hnode', ← hs.length_deps hold hnode]
  exact List.length_pos_iff.2 hdeps

theorem repairNode?_spec (hstart : start.WellFormed) (hs : Sound start s)
    (hid : id.index < start.size) {node : Node} (hnode : s.graph.node? id = some node)
    (hdeps : node.deps ≠ []) :
    Yields (s.repairNode? cx id)
      fun s' => ∃ before after, Visited start cx id s s' before after := by
  have hthere : ∀ {s₁}, Sound start s₁ →
      ∃ node₁, s₁.graph.node? id = some node₁ ∧ node₁.deps ≠ [] := fun hs₁ =>
    hs.exists_reader hs₁ hid hnode hdeps
  refine Yields.bind (settle_advanced hs hid hnode) fun g h₁ => ?_
  obtain ⟨node₁, hnode₁, hdeps₁⟩ := hthere h₁.sound
  refine Yields.bind (convertState?_spec hstart h₁.sound hid hnode₁ hdeps₁) fun s₂ h₂ => ?_
  obtain ⟨node₂, hnode₂, _⟩ := hthere h₂.sound
  have hoperands : Yields (if cx.config.optimizeLayout then s₂.reorderOperands? id else some s₂)
      (Advanced start id s₂) := by
    split
    · exact reorderOperands?_spec hstart h₂.sound hid hnode₂
    · exact Yields.pure (.refl h₂.sound)
  dsimp only
  refine Yields.ite_bind hoperands fun s₃ h₃ => ?_
  obtain ⟨node₃, hnode₃, _⟩ := hthere h₃.sound
  refine Yields.bind (unpadNormalization?_spec hstart h₃.sound hid hnode₃) fun s₄ h₄ => ?_
  obtain ⟨node₄, hnode₄, _⟩ := hthere h₄.sound
  refine Yields.bind (unpadVendor?_spec hstart h₄.sound hid hnode₄) fun s₅ h => ?_
  obtain ⟨h₅, hunpadded⟩ := h
  obtain ⟨node₅, hnode₅, _⟩ := hthere h₅.sound
  obtain ⟨s₆, hs₆, hlegalized⟩ := legalize?_spec cx h₅.sound.wellFormed hnode₅
  have hsound₆ := h₅.sound.localEdit hid hlegalized.edit hlegalized.conversions_eq
    hlegalized.created_eq
  have hadvanced := (((h₁.trans h₂).trans h₃).trans h₄).trans h₅
  refine Yields.bind_eq hs₆ ?_
  split
  next hfailed =>
    exact Yields.pure ⟨s₅, s₆, hadvanced, hunpadded, hs₆, hlegalized, hsound₆,
      Or.inl ⟨hfailed, rfl⟩⟩
  next hfine =>
    obtain ⟨node₆, hnode₆, _⟩ := hthere hsound₆
    refine (reconcile?_spec hstart hsound₆ hid hnode₆).mono fun s' h => ?_
    exact ⟨s₅, s₆, hadvanced, hunpadded, hs₆, hlegalized, hsound₆,
      Or.inr ⟨by simpa using hfine, h⟩⟩

theorem Visited.framed {before after : Reconciliation} (hstart : start.WellFormed)
    (hs : Sound start s) (hid : id.index < start.size) (h : Visited start cx id s s' before after) :
    Framed start id s s' := by
  have hbefore := Moves.framed hstart hs hid h.advanced.moves
  have hafter := hbefore.trans (h.legalized.framed hbefore.sound hid)
  rcases h.ending with ⟨_, rfl⟩ | ⟨_, _, _, _, hlast⟩
  · exact hafter
  · exact hafter.trans (Moves.framed hstart hafter.sound hid hlast)

/-- A property that moves and the search for a legal layout keep is kept by a visit. -/
theorem Visited.inv {before after : Reconciliation} (hstart : start.WellFormed)
    (hs : Sound start s) (hid : id.index < start.size) (inv : Reconciliation → Prop)
    (hmove : ∀ {s s'}, Sound start s → inv s → Move id s s' → inv s')
    (hlegalized : ∀ {s s'}, Sound start s → inv s → Legalized cx id s s' → inv s')
    (h : Visited start cx id s s' before after) (hinv : inv s) : inv s' := by
  have hbefore := Moves.inv hstart hs hid inv hmove h.advanced.moves hinv
  have hafter := hlegalized h.advanced.sound hbefore h.legalized
  rcases h.ending with ⟨_, rfl⟩ | ⟨_, _, _, _, hlast⟩
  · exact hafter
  · exact Moves.inv hstart h.sound hid inv hmove hlast hafter

/-- Visiting a node either skips it or repairs it. -/
theorem visit?_spec (hstart : start.WellFormed) (hs : Sound start s) (hid : id.index < start.size)
    {node : Node} (hnode : s.graph.node? id = some node) :
    Yields (visit? cx s id) fun s' =>
      s' = s ∧ (s.failure.isSome ∨ node.deps = [] ∨ node.isReorder) ∨
        (s.failure = none ∧ node.deps ≠ [] ∧ node.isReorder = false) ∧
          ∃ before after, Visited start cx id s s' before after := by
  refine Yields.bind_eq hnode ?_
  split
  next hskip => exact Yields.pure (Or.inl ⟨rfl, by simpa [or_assoc] using hskip⟩)
  next hvisit =>
    simp only [Bool.or_eq_true, not_or, Option.isSome_iff_ne_none, ne_eq, not_not,
      List.isEmpty_iff, Bool.not_eq_true] at hvisit
    obtain ⟨⟨hfine, hdeps⟩, hreorder⟩ := hvisit
    refine (repairNode?_spec hstart hs hid hnode hdeps).mono fun s' h => ?_
    exact Or.inr ⟨⟨hfine, hdeps, hreorder⟩, h⟩

theorem repairNode?_of_visit {node : Node} (hnode : s.graph.node? id = some node)
    (hfine : s.failure = none) (hdeps : node.deps ≠ []) (hreorder : node.isReorder = false)
    (h : visit? cx s id = some s') : s.repairNode? cx id = some s' := by
  rw [← h, visit?, hnode, Option.bind_eq_bind, Option.bind_some,
    if_neg (by simp [hfine, hdeps, hreorder])]

/-- Induction over the first `count` visits of a run.  The motive is indexed by the number of nodes
that had their turn. -/
theorem visits_induct (hstart : start.Ordered) (motive : Nat → Reconciliation → Prop)
    (hbegin : motive 0 { graph := start })
    (hskip : ∀ {count s node}, count < start.size → Sound start s → motive count s →
      s.graph.node? ⟨count⟩ = some node → s.failure.isSome ∨ node.deps = [] ∨ node.isReorder →
      motive (count + 1) s)
    (hvisit : ∀ {count s s' node before after}, count < start.size →
      (start.order.take count).foldlM (visit? cx) { graph := start } = some s → Sound start s →
      motive count s → s.failure = none → s.graph.node? ⟨count⟩ = some node → node.deps ≠ [] →
      node.isReorder = false → s.repairNode? cx ⟨count⟩ = some s' →
      Visited start cx ⟨count⟩ s s' before after → motive (count + 1) s')
    {count : Nat} (hcount : count ≤ start.size) :
    Yields ((start.order.take count).foldlM (visit? cx) { graph := start }) fun s =>
      Sound start s ∧ motive count s := by
  have htake : ∀ {i}, i ≤ start.size → start.order.take i = (List.range i).map NodeId.mk := by
    intro i hi
    rw [hstart.order_eq, ← List.map_take, List.take_range, Nat.min_eq_left hi]
  suffices h : Yields ((List.range count).foldlM (fun s i => visit? cx s ⟨i⟩) { graph := start })
      fun s => (start.order.take count).foldlM (visit? cx) { graph := start } = some s ∧
        Sound start s ∧ motive count s by
    rw [htake hcount, List.foldlM_map]
    exact h.mono fun s h => h.2
  refine Yields.foldlM_range (fun i s =>
    (start.order.take i).foldlM (visit? cx) { graph := start } = some s ∧ Sound start s ∧
      motive i s) ⟨rfl, sound_start hstart.wellFormed hstart.listsAll, hbegin⟩ ?_
  rintro i s hi ⟨hturn, hs, hmotive⟩
  have hlt : i < start.size := Nat.lt_of_lt_of_le hi hcount
  have hthere : NodeId.index ⟨i⟩ < s.graph.size := Nat.lt_of_lt_of_le hlt hs.grown
  obtain ⟨node, hnode⟩ := Graph.exists_node hthere
  obtain ⟨s', hs', hspec⟩ := visit?_spec hstart.wellFormed hs hlt hnode
  have hnext : (start.order.take (i + 1)).foldlM (visit? cx) { graph := start } = some s' := by
    rw [htake (Nat.succ_le_of_lt hlt), List.range_succ, List.map_append, List.foldlM_append,
      ← htake (Nat.le_of_lt hlt), hturn]
    simpa using hs'
  refine .of_eq hs' ⟨hnext, ?_⟩
  rcases hspec with ⟨rfl, hwhy⟩ | ⟨⟨hfine, hdeps, hreorder⟩, before, after, hvisited⟩
  · exact ⟨hs, hskip hlt hs hmotive hnode hwhy⟩
  · exact ⟨(hvisited.framed hstart.wellFormed hs hlt).sound,
      hvisit hlt hturn hs hmotive hfine hnode hdeps hreorder
        (repairNode?_of_visit hnode hfine hdeps hreorder hs') hvisited⟩

/-- Induction over a run. -/
theorem run?_induct (hstart : start.Ordered) (motive : Nat → Reconciliation → Prop)
    (hbegin : motive 0 { graph := start })
    (hskip : ∀ {count s node}, count < start.size → Sound start s → motive count s →
      s.graph.node? ⟨count⟩ = some node → s.failure.isSome ∨ node.deps = [] ∨ node.isReorder →
      motive (count + 1) s)
    (hvisit : ∀ {count s s' node before after}, count < start.size → Sound start s →
      motive count s → s.failure = none → s.graph.node? ⟨count⟩ = some node → node.deps ≠ [] →
      node.isReorder = false → s.repairNode? cx ⟨count⟩ = some s' →
      Visited start cx ⟨count⟩ s s' before after → motive (count + 1) s') :
    Yields (start.order.foldlM (visit? cx) { graph := start }) fun s =>
      Sound start s ∧ motive start.size s := by
  rw [← hstart.take_order]
  exact visits_induct hstart motive hbegin hskip (fun hlt _ => hvisit hlt) (Nat.le_refl _)

/-- A property that moves and searches keep holds at the end of a run. -/
theorem run?_inv (hstart : start.Ordered) (inv : Reconciliation → Prop)
    (hbegin : inv { graph := start })
    (hmove : ∀ {id s s'}, id.index < start.size → Sound start s → inv s → Move id s s' → inv s')
    (hlegalized : ∀ {id s s'}, id.index < start.size → Sound start s → inv s →
      Legalized cx id s s' → inv s') :
    Yields (start.order.foldlM (visit? cx) { graph := start }) fun s => Sound start s ∧ inv s := by
  refine run?_induct hstart (fun _ => inv) hbegin (fun _ _ hinv _ _ => hinv) ?_
  intro count s s' node before after hlt hs hinv _ _ _ _ _ hvisited
  exact hvisited.inv hstart.wellFormed hs hlt inv (hmove hlt) (hlegalized hlt) hinv

/-- A property of old nodes that no change breaks holds of all of them at the end of a run. -/
theorem run?_forall (hstart : start.Ordered) (good : Node → Prop)
    (hbegin : ∀ {id node}, start.node? id = some node → good node)
    (hchange : ∀ {node node'}, Change node node' → good node → good node') :
    Yields (start.order.foldlM (visit? cx) { graph := start }) fun s => Sound start s ∧
      ∀ {id node}, id.index < start.size → s.graph.node? id = some node → good node := by
  refine run?_inv hstart (fun s => ∀ {id node}, id.index < start.size →
    s.graph.node? id = some node → good node) (fun _ hnode => hbegin hnode) ?_ ?_
  · intro id s s' hid hs hgood hmove other node' hlt hnode'
    obtain ⟨node, hnode, hchanged⟩ := hmove.change hstart.wellFormed hs hid hlt hnode'
    exact hchange hchanged (hgood hlt hnode)
  · intro id s s' hid hs hgood hlegalized other node' hlt hnode'
    obtain ⟨node, hnode, hchanged⟩ := hlegalized.change hs hid hlt hnode'
    exact hchange hchanged (hgood hlt hnode)

/-- What changes make of an old node, told in relation to the node that it was at the start. -/
theorem run?_related (hstart : start.Ordered) (rel : Node → Node → Prop)
    (hrefl : ∀ node, rel node node)
    (hchange : ∀ {old node node'}, Change node node' → rel old node → rel old node') :
    Yields (start.order.foldlM (visit? cx) { graph := start }) fun s => Sound start s ∧
      ∀ {id old node}, start.node? id = some old → s.graph.node? id = some node → rel old node := by
  refine run?_inv hstart (fun s => ∀ {id old node}, start.node? id = some old →
    s.graph.node? id = some node → rel old node) ?_ ?_ ?_
  · intro id old node hold hnode
    obtain rfl := Option.some.inj (hold.symm.trans hnode)
    exact hrefl old
  · intro id s s' hid hs hrel hmove other old node' hold hnode'
    obtain ⟨node, hnode, hchanged⟩ :=
      hmove.change hstart.wellFormed hs hid (Graph.lt_size_of_node? hold) hnode'
    exact hchange hchanged (hrel hold hnode)
  · intro id s s' hid hs hrel hlegalized other old node' hold hnode'
    obtain ⟨node, hnode, hchanged⟩ :=
      hlegalized.change hs hid (Graph.lt_size_of_node? hold) hnode'
    exact hchange hchanged (hrel hold hnode)

/-! ## What visits leave behind -/

/-- The node and what it reads look as they did. -/
structure Unmoved (id : NodeId) (s s' : Reconciliation) : Prop where
  node : (s'.graph.node? id).map Node.bare = (s.graph.node? id).map Node.bare
  inputs : ∀ slot,
    (s'.graph.input? id slot).map Input.face = (s.graph.input? id slot).map Input.face

/-- Visits of later nodes do not move a node: it reads earlier ones only. -/
theorem Framed.unmoved (hstart : start.Ordered) {later : NodeId} (h : Framed start later s s')
    (hlt : id.index < start.size) (hlater : id.index < later.index) : Unmoved id s s' := by
  have hne : id ≠ later := fun heq => Nat.lt_irrefl _ (heq ▸ hlater)
  refine ⟨h.others id hlt hne, fun slot => h.inputs hlt hne fun edge hedge => ?_⟩
  obtain ⟨node, hnode, hdep⟩ := Option.bind_eq_some_iff.1 hedge
  have hless := hstart.earlier hnode (List.mem_of_getElem? hdep)
  rintro rfl
  omega

/-- Reorders and nodes without inputs are as they were at the start. -/
def Passed (start : Graph) (s : Reconciliation) : Prop :=
  ∀ {id node}, start.node? id = some node → node.deps = [] ∨ node.isReorder →
    (s.graph.node? id).map Node.bare = some node.bare

theorem passed_start : Passed start { graph := start } := by
  intro id node hnode _
  rw [hnode]
  rfl

/-- A visit passes them over. -/
theorem Passed.visited (h : Passed start s)
    (hframed : Framed start id s s') {node : Node} (hnode : s.graph.node? id = some node)
    (hdeps : node.deps ≠ []) (hreorder : node.isReorder = false) : Passed start s' := by
  intro other old hold hskip
  by_cases hid : other = id
  · subst hid
    have heq := h hold hskip
    rw [hnode, Option.map_some, Option.some.injEq] at heq
    rcases hskip with hnil | hop
    · exact absurd ((Node.deps_of_bare heq).trans hnil) hdeps
    · rw [← Node.isReorder_congr (Node.op_of_core (Node.core_of_bare heq)), hreorder] at hop
      exact Bool.noConfusion hop
  · rw [hframed.others other (Graph.lt_size_of_node? hold) hid]
    exact h hold hskip

theorem run?_passed (hstart : start.Ordered) :
    Yields (start.order.foldlM (visit? cx) { graph := start }) (Passed start) := by
  refine (run?_induct hstart (fun _ => Passed start) passed_start ?_ ?_).mono fun s h => h.2
  · exact fun _ _ hpassed _ _ => hpassed
  · intro count s s' node before after hlt hs hpassed _ hnode hdeps hreorder _ hvisited
    exact hpassed.visited (hvisited.framed hstart.wellFormed hs hlt) hnode hdeps hreorder

/-- Induction over a run, in which every turn finds its node as it was at the start.  After a
failure there are no more turns. -/
theorem run?_fresh_at (hstart : start.Ordered) (motive : Nat → Reconciliation → Prop)
    (hbegin : motive 0 { graph := start })
    (hskip : ∀ {count s}, Sound start s → motive count s → (s.failure = none →
      ∃ old, start.node? ⟨count⟩ = some old ∧ (old.deps = [] ∨ old.isReorder)) →
      motive (count + 1) s)
    (hturn : ∀ {count s s' old before after},
      (start.order.take count).foldlM (visit? cx) { graph := start } = some s → Sound start s →
      motive count s → s.failure = none → start.node? ⟨count⟩ = some old → old.deps ≠ [] →
      old.isReorder = false → (s.graph.node? ⟨count⟩).map Node.bare = some old.bare →
      s.repairNode? cx ⟨count⟩ = some s' → Visited start cx ⟨count⟩ s s' before after →
      motive (count + 1) s') :
    Yields (start.order.foldlM (visit? cx) { graph := start }) fun s =>
      Sound start s ∧ motive start.size s := by
  rw [← hstart.take_order]
  -- As long as there is no failure, the nodes ahead are as they were.
  refine (visits_induct hstart (fun count s => motive count s ∧ (s.failure = none →
    ∀ {id : NodeId} {old}, count ≤ id.index → start.node? id = some old →
      (s.graph.node? id).map Node.bare = some old.bare)) ?_ ?_ ?_ (Nat.le_refl _)).mono
    fun s h => ⟨h.1, h.2.1⟩
  · exact ⟨hbegin, fun _ _ _ _ hold => by rw [hold]; rfl⟩
  · rintro count s node hlt hs ⟨hmotive, hahead⟩ hnode hwhy
    refine ⟨hskip hs hmotive fun hfine => ?_, fun hfine _ _ hle =>
      hahead hfine (Nat.le_of_succ_le hle)⟩
    obtain ⟨old, hold⟩ := Graph.exists_node (show NodeId.index ⟨count⟩ < start.size from hlt)
    have hbare := hahead hfine (Nat.le_refl _) hold
    rw [hnode, Option.map_some, Option.some.injEq] at hbare
    rcases hwhy with hfailed | hnil | hreorder
    · simp [hfine] at hfailed
    · exact ⟨old, hold, Or.inl (Node.deps_of_bare hbare ▸ hnil)⟩
    · rw [Node.isReorder_congr (Node.op_of_core (Node.core_of_bare hbare))] at hreorder
      exact ⟨old, hold, Or.inr hreorder⟩
  · rintro count s s' node before after hlt hcome hs ⟨hmotive, hahead⟩ hfine hnode hdeps hreorder
      hrepair hvisited
    obtain ⟨old, hold⟩ := Graph.exists_node (show NodeId.index ⟨count⟩ < start.size from hlt)
    have hfresh := hahead hfine (Nat.le_refl _) hold
    have hbare := hfresh
    rw [hnode, Option.map_some, Option.some.injEq] at hbare
    refine ⟨hturn hcome hs hmotive hfine hold (Node.deps_of_bare hbare ▸ hdeps) ?_ hfresh hrepair
      hvisited, fun _ id old hle hold => ?_⟩
    · rw [← Node.isReorder_congr (Node.op_of_core (Node.core_of_bare hbare)), hreorder]
    · rw [(hvisited.framed hstart.wellFormed hs hlt).others id (Graph.lt_size_of_node? hold) ?_]
      · exact hahead hfine (Nat.le_of_succ_le hle) hold
      · rintro rfl
        exact absurd hle (Nat.not_succ_le_self count)

/-- The same, where it does not matter how the run has come to a turn. -/
theorem run?_fresh (hstart : start.Ordered) (motive : Nat → Reconciliation → Prop)
    (hbegin : motive 0 { graph := start })
    (hskip : ∀ {count s}, Sound start s → motive count s → (s.failure = none →
      ∃ old, start.node? ⟨count⟩ = some old ∧ (old.deps = [] ∨ old.isReorder)) →
      motive (count + 1) s)
    (hturn : ∀ {count s s' old before after}, Sound start s → motive count s → s.failure = none →
      start.node? ⟨count⟩ = some old → old.deps ≠ [] → old.isReorder = false →
      (s.graph.node? ⟨count⟩).map Node.bare = some old.bare → s.repairNode? cx ⟨count⟩ = some s' →
      Visited start cx ⟨count⟩ s s' before after → motive (count + 1) s') :
    Yields (start.order.foldlM (visit? cx) { graph := start }) fun s =>
      Sound start s ∧ motive start.size s :=
  run?_fresh_at hstart motive hbegin hskip fun _ => hturn

/-- The visit at which a run stopped.  It found its node as it was at the start. -/
structure Stopped (start : Graph) (cx : Context) (id : NodeId) (s before s' : Reconciliation) :
    Prop where
  id_lt : id.index < start.size
  sound : Sound start s
  passed : Passed start s
  node : ∃ node, start.node? id = some node ∧ node.deps ≠ [] ∧ node.isReorder = false ∧
    (s.graph.node? id).map Node.bare = some node.bare
  advanced : Advanced start id s before
  legalized : Legalized cx id before s'
  fine : s.failure = none

/-- A run that fails stops at a visit, in a state with every property that moves and searches
keep. -/
theorem run?_stopped (hstart : start.Ordered) (inv : Reconciliation → Prop)
    (hbegin : inv { graph := start })
    (hmove : ∀ {id s s'}, id.index < start.size → Sound start s → inv s → Move id s s' → inv s')
    (hlegalized : ∀ {id s s'}, id.index < start.size → Sound start s → inv s →
      Legalized cx id s s' → inv s') :
    Yields (start.order.foldlM (visit? cx) { graph := start }) fun s' =>
      s'.failure.isSome → ∃ id s before, Stopped start cx id s before s' ∧ inv s := by
  refine (run?_fresh hstart (fun _ s' => (inv s' ∧ Passed start s' ∧ s'.failure = none) ∨
    s'.failure.isSome ∧ ∃ id s before, Stopped start cx id s before s' ∧ inv s) ?_ ?_ ?_).mono ?_
  · exact Or.inl ⟨hbegin, passed_start, rfl⟩
  · exact fun _ h _ => h
  · rintro count s s' old before after hs (⟨hinv, hpassed, hfine⟩ | ⟨hfailed, _⟩) hnone hold hdeps
      hreorder hfresh _ hvisited
    swap
    · simp [hnone] at hfailed
    have hlt := Graph.lt_size_of_node? hold
    rcases hvisited.ending with ⟨hfailed, rfl⟩ | ⟨hfine', _, _, hrepaired, _⟩
    · exact Or.inr ⟨hfailed, ⟨count⟩, s, before, ⟨hlt, hs, hpassed, ⟨old, hold, hdeps, hreorder,
        hfresh⟩, hvisited.advanced, hvisited.legalized, hfine⟩, hinv⟩
    · obtain ⟨node, hnode, hbare⟩ := Option.map_eq_some_iff.1 hfresh
      refine Or.inl ⟨hvisited.inv hstart.wellFormed hs hlt inv (hmove hlt) (hlegalized hlt) hinv,
        hpassed.visited (hvisited.framed hstart.wellFormed hs hlt) hnode ?_ ?_,
        hrepaired.served.failure_eq.trans hfine'⟩
      · rwa [Node.deps_of_bare hbare]
      · rwa [Node.isReorder_congr (Node.op_of_core (Node.core_of_bare hbare))]
  · rintro s' ⟨_, ⟨_, _, hfine⟩ | ⟨_, hstopped⟩⟩ hfailed
    · simp [hfine] at hfailed
    · exact hstopped

/-- What holds of a node right after its turn, and depends on nothing but the node and what it
reads, holds at the end of a run that does not fail. -/
theorem run?_done (hstart : start.Ordered) (post : NodeId → Reconciliation → Prop)
    (hskip : ∀ {id s node}, Sound start s → s.graph.node? id = some node →
      node.deps = [] ∨ node.isReorder → post id s)
    (hvisit : ∀ {id s s' before after}, id.index < start.size → Sound start s →
      Visited start cx id s s' before after → s'.failure = none → post id s')
    (hkeep : ∀ {id s s'}, Sound start s → Sound start s' → Unmoved id s s' → post id s →
      post id s') :
    Yields (start.order.foldlM (visit? cx) { graph := start }) fun s =>
      s.failure = none → ∀ id : NodeId, id.index < start.size → post id s := by
  refine (run?_induct hstart (fun count s => s.failure = none →
    ∀ id : NodeId, id.index < count → post id s) ?_ ?_ ?_).mono fun s h => h.2
  · exact fun _ id hid => absurd hid (Nat.not_lt_zero _)
  · intro count s node hlt hs hdone hnode hwhy hfine id hid
    rcases Nat.lt_succ_iff_lt_or_eq.1 hid with hless | rfl
    · exact hdone hfine id hless
    · exact hskip hs hnode (hwhy.resolve_left (by simp [hfine]))
  · intro count s s' node before after hlt hs hdone hfine _ _ _ _ hvisited hfine' id hid
    rcases Nat.lt_succ_iff_lt_or_eq.1 hid with hless | rfl
    · have hframed := hvisited.framed hstart.wellFormed hs hlt
      exact hkeep hs hframed.sound (hframed.unmoved hstart (Nat.lt_trans hless hlt) hless)
        (hdone hfine id hless)
    · exact hvisit hlt hs hvisited hfine'

/-- What its turn makes of a node holds at the end of a run that does not fail, if it depends on
nothing but the nodes up to this one and what this one reads.  The turn finds the node as it was at
the start. -/
theorem run?_turns_at (hstart : start.Ordered) (post : NodeId → Reconciliation → Prop)
    (hturn : ∀ {id s s' old},
      (start.order.take id.index).foldlM (visit? cx) { graph := start } = some s → Sound start s →
      start.node? id = some old → old.deps ≠ [] → old.isReorder = false →
      (s.graph.node? id).map Node.bare = some old.bare → s.repairNode? cx id = some s' →
      s'.failure = none → post id s')
    (hkeep : ∀ {id s s'}, Unmoved id s s' → (∀ other : NodeId, other.index ≤ id.index →
      (s'.graph.node? other).map Node.bare = (s.graph.node? other).map Node.bare) →
      post id s → post id s') :
    Yields (start.order.foldlM (visit? cx) { graph := start }) fun s => s.failure = none →
      ∀ {id old}, start.node? id = some old → old.deps ≠ [] → old.isReorder = false →
        post id s := by
  refine (run?_fresh_at hstart (fun count s => s.failure = none → ∀ {id old}, id.index < count →
    start.node? id = some old → old.deps ≠ [] → old.isReorder = false → post id s) ?_ ?_ ?_).mono ?_
  · exact fun _ _ _ hlt => absurd hlt (Nat.not_lt_zero _)
  · intro count s hs hdone hskipped hfine id old hid hold hdeps hreorder
    rcases Nat.lt_succ_iff_lt_or_eq.1 hid with hless | rfl
    · exact hdone hfine hless hold hdeps hreorder
    obtain ⟨_, hfound, hnil | hother⟩ := hskipped hfine
    all_goals obtain rfl := Option.some.inj (hold.symm.trans hfound)
    · exact absurd hnil hdeps
    · rw [hreorder] at hother
      exact Bool.noConfusion hother
  · intro count s s' node before after hcome hs hdone hfine hnode _ _ hfresh hrepair hvisited hfine'
      id old hid hold hdeps hreorder
    have hlt := Graph.lt_size_of_node? hnode
    have hframed := hvisited.framed hstart.wellFormed hs hlt
    rcases Nat.lt_succ_iff_lt_or_eq.1 hid with hless | rfl
    · have hunmoved := hframed.unmoved hstart (Nat.lt_trans hless hlt) hless
      refine hkeep hunmoved (fun other hother => ?_) (hdone hfine hless hold hdeps hreorder)
      refine hframed.others other (Nat.lt_of_le_of_lt hother (Nat.lt_trans hless hlt)) ?_
      rintro rfl
      exact absurd hless (Nat.not_lt.2 hother)
    · obtain rfl := Option.some.inj (hold.symm.trans hnode)
      exact hturn hcome hs hold hdeps hreorder hfresh hrepair hfine'
  · intro s h hfine id old hold
    exact h.2 hfine (Graph.lt_size_of_node? hold) hold

/-- The same, where it does not matter how the run has come to a turn. -/
theorem run?_turns (hstart : start.Ordered) (post : NodeId → Reconciliation → Prop)
    (hturn : ∀ {id s s' old}, Sound start s → start.node? id = some old → old.deps ≠ [] →
      old.isReorder = false → (s.graph.node? id).map Node.bare = some old.bare →
      s.repairNode? cx id = some s' → s'.failure = none → post id s')
    (hkeep : ∀ {id s s'}, Unmoved id s s' → (∀ other : NodeId, other.index ≤ id.index →
      (s'.graph.node? other).map Node.bare = (s.graph.node? other).map Node.bare) →
      post id s → post id s') :
    Yields (start.order.foldlM (visit? cx) { graph := start }) fun s => s.failure = none →
      ∀ {id old}, start.node? id = some old → old.deps ≠ [] → old.isReorder = false →
        post id s :=
  run?_turns_at hstart post (fun _ => hturn) hkeep

end Reconciliation

end LayoutPlanner
