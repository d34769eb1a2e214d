import LayoutPlanner.Proofs.Detours
import LayoutPlanner.Proofs.EdgeAgreement
import LayoutPlanner.Proofs.Idempotence
import LayoutPlanner.Proofs.Readers

/-!
# Reorders that change nothing

A reorder is put in front of a slot because the layout there is not the wanted one.  But the wishes
change in the course of a visit: an early repair can send a slot on a detour, and the last one can
turn it back to the layout that the producer has.  The reorder stays.

* `Node.TurnsBack` says when that happens, in terms of the graph at the end.
* `Delivered.agreed`: what the last repair makes of a slot on a detour.
* A slot that is not on a detour gets a reorder only if the two layouts differ.
-/

namespace LayoutPlanner

/-- The node wants on the slot what its producer has, although the slot was converted before that
was found out: a state was to be stored in another type, or a constant operand in another format. -/
inductive Node.TurnsBack (node : Node) (slot : Nat) (producer : Node) (source : Layout) : Prop
  | state {declared : ElementType} (hstored : node.storedType? slot source = some declared)
      (htype : node.wantedType slot (source.withType declared) = source.dtype)
      (hformat : node.wantedFormat slot source = source.format)
  | operand (hstored : node.storedType? slot source = none)
      (hconstant : producer.isConstant = true) (hprefers : node.prefers.input slot ≠ .any)
      (htype : node.wantedType slot source = source.dtype)
      (hformat : node.wantedFormat slot source = source.format)

namespace Node

variable {a b : Node} {slot : Nat}

theorem TurnsBack.congr {producer producer' : Node} {source : Layout}
    (h : a.TurnsBack slot producer source) (hcore : b.core = a.core)
    (hop : producer'.op = producer.op) : b.TurnsBack slot producer' source := by
  have hstored := storedType?_congr (attrs_of_core hcore) slot (rfl : source.dtype = source.dtype)
  cases h with
  | state hdue htype hformat =>
    refine .state (hstored.trans hdue) ?_ ?_
    · rw [wantedType_of_core hcore, htype]
    · rw [wantedFormat_of_core hcore, hformat]
  | operand hnone hconstant hprefers htype hformat =>
    refine .operand (hstored.trans hnone) ((isConstant_congr hop).trans hconstant) ?_ ?_ ?_
    · rwa [prefers_of_core hcore]
    · rw [wantedType_of_core hcore, htype]
    · rw [wantedFormat_of_core hcore, hformat]

theorem wantedFormat_of_any {source : Layout} (h : a.prefers.input slot = .any) :
    a.wantedFormat slot source = source.format := by
  rw [wantedFormat, h]

/-- `b` is `a` with more definite wishes about formats. -/
structure Firms (a b : Node) : Prop where
  op_eq : b.op = a.op
  attrs_eq : b.attrs = a.attrs
  inputTypes_eq : b.prefers.inputTypes = a.prefers.inputTypes
  open_before : ∀ {slot}, b.prefers.input slot = .any → a.prefers.input slot = .any

theorem firms_of_stance (h : b.stance = a.stance) : a.Firms b where
  op_eq := op_of_stance h
  attrs_eq := attrs_of_stance h
  inputTypes_eq := by rw [prefers_of_stance h]
  open_before hany := by rwa [← prefers_of_stance h]

theorem Firms.trans {c : Node} (h : a.Firms b) (h' : b.Firms c) : a.Firms c where
  op_eq := h'.op_eq.trans h.op_eq
  attrs_eq := h'.attrs_eq.trans h.attrs_eq
  inputTypes_eq := h'.inputTypes_eq.trans h.inputTypes_eq
  open_before hany := h.open_before (h'.open_before hany)

theorem Adopts.firms {format : Format} {accepts : Nat → Prop} (h : a.Adopts format accepts b)
    (hformat : ∀ slot, accepts slot → format ≠ .any) : a.Firms b where
  op_eq := (congrArg Node.op h.rest :)
  attrs_eq := (congrArg Node.attrs h.rest :)
  inputTypes_eq := h.inputTypes
  open_before {slot} hany := by
    by_cases haccepts : accepts slot
    · rw [h.input_of_accepts haccepts] at hany
      exact absurd hany (hformat slot haccepts)
    · rw [← h.input_of_not haccepts, hany]

end Node

namespace Reconciliation

variable {start : Graph} {cx : Context} {old : Node} {origin : Input} {id : NodeId} {slot : Nat}
  {s s' : Reconciliation}

/-- The search for a legal layout settles on formats and leaves types alone. -/
theorem Legalized.firms (h : Legalized cx id s s') {node node' : Node}
    (hnode : s.graph.node? id = some node) (hnode' : s'.graph.node? id = some node') :
    node.Firms node' := by
  obtain ⟨base, hbase, hending⟩ := h.ending
  obtain ⟨node₁, hnode₁, hfirms₁⟩ : ∃ node₁, base.node? id = some node₁ ∧ node.Firms node₁ := by
    rcases hbase with hrestored | hhanded
    · obtain ⟨node₁, hnode₁, hbare⟩ := hrestored.bare.exists_new hnode
      exact ⟨node₁, hnode₁, Node.firms_of_stance (Node.stance_of_core (Node.core_of_bare hbare))⟩
    · obtain ⟨_, node₁, hnode₁, hbare⟩ := hhanded.node hnode
      refine ⟨node₁, hnode₁, ?_⟩
      have hprefers : node₁.prefers = node.prefers := (Node.prefers_of_bare hbare).trans rfl
      have hcore := Node.core_of_bare hbare
      exact ⟨(Node.op_of_core hcore).trans rfl, (Node.attrs_of_core hcore).trans rfl,
        by rw [hprefers], fun hany => by rwa [← hprefers]⟩
  have hkept : base.Restored id s'.graph → node.Firms node' := by
    intro hrestored
    obtain ⟨_, hfound, hbare⟩ := hrestored.bare.exists_new hnode₁
    obtain rfl := Option.some.inj (hnode'.symm.trans hfound)
    exact hfirms₁.trans (Node.firms_of_stance (Node.stance_of_core (Node.core_of_bare hbare)))
  cases hending with
  | supported hrestored => exact hkept hrestored
  | deferred hrestored => exact hkept hrestored
  | unresolved hrestored => exact hkept hrestored
  | adopted format hadopts =>
    obtain ⟨_, hfound, hadopted⟩ := hadopts.node hnode₁
    obtain rfl := Option.some.inj (hnode'.symm.trans hfound)
    refine hfirms₁.trans (hadopted.firms fun slot haccepts => ?_)
    obtain ⟨_, _, _, hfits⟩ := haccepts
    exact Format.isChosen_iff_ne.1 (Format.isChosen_of_fits hfits)

/-! ## The last repair -/

/-- A slot on a detour ends up with the format and the type that the node wants, and keeps what is
left of its padding. -/
theorem Delivered.agreed {target : Layout} {input input' : Input} {node : Node} {slots : List Nat}
    (h : Delivered start slot target s.graph id input) (hs : Sound start s)
    (hnode : s.graph.node? id = some node) (hslots : s.graph.realSlots? id = some slots)
    (hrepaired : Repaired start id (fun s => Repair.agreement s.isCreated) slots s s')
    (hinput' : s'.graph.input? id slot = some input') :
    input'.layout = { target with
      format := node.wantedFormat slot target, dtype := node.wantedType slot target } := by
  obtain ⟨_, hfound, hall⟩ := hs.wellFormed.exists_realSlots hnode
  obtain rfl := Option.some.inj (hslots.symm.trans hfound)
  have hmem := (hall slot).2 ⟨input, h.at_slot, h.isReal⟩
  have hslot := Graph.slot_of_input? h.at_slot
  rcases hrepaired.done hmem hnode h.at_slot with ⟨hnone, hface⟩ | ⟨demand, _, hdemand, hserved⟩
  · rw [hinput', Option.map_some, Option.some.injEq] at hface
    obtain ⟨hformat, hdtype⟩ := gets_of_agreement hnone h.inserted.notShared
    rw [hslot, h.layout_eq] at hformat hdtype
    rw [Input.layout_of_face hinput' h.at_slot hface, h.layout_eq, hformat, hdtype]
  · obtain rfl := Option.some.inj (hinput'.symm.trans hserved.at_slot)
    have hcreated := (hs.isCreated_producer_iff h.at_slot).2 h.beyond
    rw [hserved.layout_eq, (Repair.of_agreement hdemand).2.2, if_pos hcreated, hslot, h.layout_eq]

/-- A slot that is not on a detour gets a reorder only for another format or another type. -/
theorem ne_of_agreement {input input' : Input} {node : Node} {slots : List Nat}
    (hinput : s.graph.input? id slot = some input) (hs : Sound start s)
    (hnode : s.graph.node? id = some node) (hslots : s.graph.realSlots? id = some slots)
    (hrepaired : Repaired start id (fun s => Repair.agreement s.isCreated) slots s s')
    (hinput' : s'.graph.input? id slot = some input') (hface : input'.face ≠ input.face) :
    input.isReal = true ∧ input'.layout ≠ input.layout := by
  by_cases hmem : slot ∈ slots
  swap
  · have heq := hrepaired.untouched hmem
    rw [hinput, hinput', Option.map_some, Option.map_some, Option.some.injEq] at heq
    exact absurd heq hface
  refine ⟨(lt_length_of_realSlots hs.wellFormed hnode hslots slot hmem).2 input hinput, ?_⟩
  rcases hrepaired.done hmem hnode hinput with ⟨_, heq⟩ | ⟨demand, _, hdemand, hserved⟩
  · rw [hinput', Option.map_some, Option.some.injEq] at heq
    exact absurd heq hface
  · obtain rfl := Option.some.inj (hinput'.symm.trans hserved.at_slot)
    obtain ⟨_, hwanted, htarget⟩ := Repair.of_agreement hdemand
    rw [hserved.layout_eq, htarget]
    intro heq
    exact hwanted ⟨congrArg Layout.format heq, congrArg Layout.dtype heq⟩

/-- When the end of a detour is where it began. -/
theorem Detour.turnsBack_iff {target : Layout} {node : Node} (h : Detour cx old origin target)
    (hfirms : old.Firms node) :
    { target with
      format := node.wantedFormat origin.slot target
      dtype := node.wantedType origin.slot target } = origin.layout ↔
      target.padding = origin.layout.padding ∧
        node.TurnsBack origin.slot origin.producer origin.layout := by
  have hstored := Node.storedType?_congr hfirms.attrs_eq origin.slot
    (rfl : origin.layout.dtype = origin.layout.dtype)
  cases h with
  | @retyped declared hdue h =>
    subst h
    have hformat : node.wantedFormat origin.slot ((origin.layout.withFormat
        (old.wantedFormat origin.slot origin.layout)).withType declared) = origin.layout.format ↔
        node.wantedFormat origin.slot origin.layout = origin.layout.format := by
      by_cases hany : node.prefers.input origin.slot = .any
      · rw [Node.wantedFormat_of_any hany, Node.wantedFormat_of_any hany]
        exact iff_of_true (Node.wantedFormat_of_any (hfirms.open_before hany)) rfl
      · rw [Node.wantedFormat_of_ne hany, Node.wantedFormat_of_ne hany]
        rfl
    constructor
    · intro heq
      refine ⟨rfl, .state (hstored.trans hdue) (congrArg Layout.dtype heq) ?_⟩
      exact hformat.1 (congrArg Layout.format heq)
    · rintro ⟨_, hback⟩
      cases hback with
      | state hfound htype hwanted =>
        obtain rfl := Option.some.inj ((hstored.trans hdue).symm.trans hfound)
        rw [hformat.2 hwanted]
        exact congrArg (fun dtype => { origin.layout with dtype }) htype
      | operand hnone =>
        rw [hstored, hdue] at hnone
        cases hnone
  | @reformatted format hnone _ _ hconstant hne h =>
    subst h
    have hconstant' : origin.producer.isConstant = true := by simpa [Input.isReal] using hconstant
    constructor
    · intro heq
      have hformat : node.wantedFormat origin.slot (origin.layout.withFormat format) =
          origin.layout.format := congrArg Layout.format heq
      have hprefers : node.prefers.input origin.slot ≠ .any := by
        intro hany
        exact hne ((Node.wantedFormat_of_any hany).symm.trans hformat)
      refine ⟨rfl, .operand (hstored.trans hnone) hconstant' hprefers
        (congrArg Layout.dtype heq) ?_⟩
      rw [Node.wantedFormat_of_ne hprefers] at hformat ⊢
      exact hformat
    · rintro ⟨_, hback⟩
      cases hback with
      | state hfound =>
        rw [hstored, hnone] at hfound
        cases hfound
      | operand _ _ hprefers htype hwanted =>
        have hformat : node.wantedFormat origin.slot (origin.layout.withFormat format) =
            origin.layout.format := by
          rw [Node.wantedFormat_of_ne hprefers] at hwanted ⊢
          exact hwanted
        rw [hformat]
        exact congrArg (fun dtype => { origin.layout with dtype }) htype
  | stripped _ h =>
    refine iff_of_false (fun heq => h.ne ?_) fun hback => h.ne hback.1
    exact (congrArg Layout.padding heq :)

/-! ## Visits and runs -/

/-- A visit leaves all other nodes alone. -/
theorem framed_of_turn (hstart : start.WellFormed) (hs : Sound start s)
    (hold : start.node? id = some old) (hdeps : old.deps ≠ [])
    (hturn : s.repairNode? cx id = some s') : Framed start id s s' := by
  have hid := Graph.lt_size_of_node? hold
  obtain ⟨node, hnode⟩ := Graph.exists_node (Nat.lt_of_lt_of_le hid hs.grown)
  have hthere : node.deps ≠ [] := by
    rw [← List.length_pos_iff, hs.length_deps hold hnode]
    exact List.length_pos_iff.2 hdeps
  obtain ⟨_, _, hvisited⟩ := (repairNode?_spec hstart hs hid hnode hthere).post_of_eq hturn
  exact hvisited.framed hstart hs hid

/-- A reorder in front of a slot of the node changes nothing exactly if the slot was turned back. -/
def TurnedBack (start : Graph) (id : NodeId) (s : Reconciliation) : Prop :=
  ∀ {node slot edge producer source input}, s.graph.node? id = some node →
    start.dep? id slot = some edge → s.graph.node? edge.node = some producer →
    producer.outputs[edge.output]? = some source → s.graph.input? id slot = some input →
    start.size ≤ input.producer.id.index →
    (input.layout = source ↔ input.layout.padding = source.padding ∧
      node.TurnsBack slot producer source)

/-- The visit does not touch what a slot reads at its beginning. -/
theorem Stages.bare_eq (hstart : start.Ordered) (hs : Sound start s)
    (hold : start.node? id = some old) {s₁ s₂ s₃ s₄ s₅ s₆ : Reconciliation}
    (h : Stages cx id s s₁ s₂ s₃ s₄ s₅ s₆ s') (hturn : s.repairNode? cx id = some s') {edge : Edge}
    (hedge : edge ∈ old.deps) :
    (s'.graph.node? edge.node).map Node.bare = (s₁.graph.node? edge.node).map Node.bare := by
  have hid := Graph.lt_size_of_node? hold
  have hearlier := hstart.earlier hold hedge
  have hne : edge.node ≠ id := fun heq => Nat.lt_irrefl _ (heq ▸ hearlier)
  obtain ⟨g, hsettle, rfl⟩ := h.settled
  obtain ⟨before, hbefore⟩ := Graph.exists_node (Nat.lt_of_lt_of_le hid hs.grown)
  obtain ⟨hedit, _⟩ := (Graph.settle?_spec hs.wellFormed hbefore).post_of_eq hsettle
  have hframed :=
    framed_of_turn hstart.wellFormed hs hold (List.ne_nil_of_mem hedge) hturn
  exact (hframed.others edge.node (Nat.lt_trans hearlier hid) hne).trans
    (hedit.others edge.node hne).symm

/-- The last stage of a visit, for a slot of which it is known where it stands. -/
theorem Standing.turnsBack_iff {node node' : Node} {slots : List Nat} {input' : Input}
    (h : Standing start cx old origin id slot s) (hs : Sound start s)
    (hnode : s.graph.node? id = some node) (hfirms : old.Firms node)
    (hslots : s.graph.realSlots? id = some slots)
    (hrepaired : Repaired start id (fun s => Repair.agreement s.isCreated) slots s s')
    (hnode' : s'.graph.node? id = some node') (hinput' : s'.graph.input? id slot = some input')
    (hbeyond : start.size ≤ input'.producer.id.index)
    (hinside : origin.producer.id.index < start.size) (hslot : origin.slot = slot) :
    input'.layout = origin.layout ↔ input'.layout.padding = origin.layout.padding ∧
      node'.TurnsBack slot origin.producer origin.layout := by
  obtain ⟨_, hfound, hcore, _⟩ := hrepaired.served.self hnode
  obtain rfl := Option.some.inj (hnode'.symm.trans hfound)
  have hback : node'.TurnsBack slot origin.producer origin.layout ↔
      node.TurnsBack slot origin.producer origin.layout :=
    ⟨fun h => h.congr hcore.symm rfl, fun h => h.congr hcore rfl⟩
  rw [hback]
  cases h with
  | @direct input hinput hface hlayout hstored =>
    have hmoved : input'.face ≠ input.face := by
      intro heq
      have hsame : input'.producer.id = origin.producer.id := congrArg (·.2.2.1) (heq.trans hface)
      rw [hsame] at hbeyond
      exact absurd hinside (Nat.not_lt.2 hbeyond)
    obtain ⟨hreal, hother⟩ := ne_of_agreement hinput hs hnode hslots hrepaired hinput' hmoved
    refine iff_of_false (hlayout ▸ hother) ?_
    rintro ⟨_, hback⟩
    cases hback with
    | state hdue =>
      rw [Node.storedType?_congr hfirms.attrs_eq _ rfl, ← hslot, hstored] at hdue
      cases hdue
    | operand _ hconstant =>
      rw [Input.isReal_of_face hface] at hreal
      simp [Input.isReal, hconstant] at hreal
  | detour hdelivered hdetour =>
    rw [hdelivered.agreed hs hnode hslots hrepaired hinput', ← hslot]
    exact hdetour.turnsBack_iff hfirms

theorem turnedBack_of_turn (hstart : start.Ordered) (hs : Sound start s)
    (hold : start.node? id = some old) (hfresh : (s.graph.node? id).map Node.bare = some old.bare)
    (hturn : s.repairNode? cx id = some s') (hfine : s'.failure = none) :
    TurnedBack start id s' := by
  intro node' slot edge producer source input' hnode' hedge hproducer hsource hinput' hbeyond
  have hid := Graph.lt_size_of_node? hold
  have hmem : edge ∈ old.deps := by
    obtain ⟨_, hfound, hget⟩ := Graph.dep?_eq_some_iff.1 hedge
    obtain rfl := Option.some.inj (hold.symm.trans hfound)
    exact List.mem_of_getElem? hget
  obtain ⟨s₁, s₂, s₃, s₄, s₅, s₆, hstages⟩ := exists_stages hturn
  obtain ⟨origin, _, horigin, horigin_edge, _, _, _, h₅, hs₆, hstanding⟩ :=
    hstages.underway hstart hs hold hfresh hedge
  obtain ⟨node₅, hnode₅, hstance₅⟩ := h₅.node
  obtain ⟨node₆, hnode₆⟩ := Graph.exists_node (Nat.lt_of_lt_of_le hid hs₆.grown)
  have hlegalized := (legalize?_spec cx h₅.sound.wellFormed hnode₅).post_of_eq hstages.legal
  have hagree := hstages.reconciled hfine
  obtain ⟨slots, hslots, hrepaired, _⟩ :=
    (reconcile?_spec hstart.wellFormed hs₆ hid hnode₆).post_of_eq hagree
  obtain ⟨_, _, _, hslot, horigin_producer, hlayout⟩ := Graph.input?_eq_some_iff.1 horigin
  rw [horigin_edge] at horigin_producer hlayout
  have hsame : producer.bare = origin.producer.bare := by
    have heq := hstages.bare_eq hstart hs hold hturn hmem
    rw [hproducer, horigin_producer, Option.map_some, Option.map_some] at heq
    exact Option.some.inj heq
  have hop : producer.op = origin.producer.op := Node.op_of_core (Node.core_of_bare hsame)
  have hinside : origin.producer.id.index < start.size := by
    rw [← Node.id_of_meaning (Node.meaning_of_bare hsame),
      hrepaired.served.sound.wellFormed.id_eq hproducer]
    exact Nat.lt_trans (hstart.earlier hold hmem) hid
  obtain rfl : origin.layout = source := by
    rw [Node.outputs_of_bare hsame, hlayout] at hsource
    exact Option.some.inj hsource
  rw [hstanding.turnsBack_iff hs₆ hnode₆
    ((Node.firms_of_stance hstance₅).trans (hlegalized.firms hnode₅ hnode₆)) hslots hrepaired hnode'
    hinput' hbeyond hinside hslot]
  exact and_congr_right fun _ =>
    ⟨fun h => h.congr rfl hop, fun h => h.congr rfl hop.symm⟩

theorem turnedBack_of_run (hstart : start.Ordered) :
    Yields (start.order.foldlM (visit? cx) { graph := start }) fun s => s.failure = none →
      ∀ {id old}, start.node? id = some old → old.deps ≠ [] → old.isReorder = false →
        TurnedBack start id s := by
  refine run?_turns hstart (TurnedBack start) ?_ ?_
  · intro id s s' old hs hold _ _ hfresh hturn hfine
    exact turnedBack_of_turn hstart hs hold hfresh hturn hfine
  · intro id s s' hunmoved hsame h node' slot edge producer' source input' hnode' hedge hproducer'
      hsource hinput' hbeyond
    obtain ⟨old, hold, hget⟩ := Graph.dep?_eq_some_iff.1 hedge
    have hearlier := hstart.earlier hold (List.mem_of_getElem? hget)
    obtain ⟨node, hnode, hbare⟩ := exists_of_map_eq hunmoved.node.symm hnode'
    obtain ⟨input, hinput, hface⟩ := exists_of_map_eq (hunmoved.inputs slot).symm hinput'
    obtain ⟨producer, hproducer, hbare'⟩ :=
      exists_of_map_eq (hsame edge.node (Nat.le_of_lt hearlier)).symm hproducer'
    have hcore := Node.core_of_bare hbare
    have hop : producer.op = producer'.op := Node.op_of_core (Node.core_of_bare hbare')
    have hid : input.producer.id = input'.producer.id := congrArg (·.2.2.1) hface
    rw [← Node.outputs_of_bare hbare'] at hsource
    rw [← Input.layout_of_face hinput hinput' hface,
      h hnode hedge hproducer hsource hinput (hid ▸ hbeyond)]
    exact and_congr_right fun _ =>
      ⟨fun h => h.congr hcore.symm hop.symm, fun h => h.congr hcore hop⟩

/-- Whatever reads a reorder of the run is a slot of an old node that had its turn.  It read the
source of the reorder at the start. -/
theorem Sound.reader_of_reorder (hstart : start.WellFormed) (hs : Sound start s)
    (hpassed : Passed start s) {reorder reader : NodeId} {node : Node} {edge : Edge}
    (hnode : s.graph.node? reorder = some node) (hle : start.size ≤ reorder.index)
    (hedge : s.graph.dep? reader slot = some edge) (hreads : edge.node = reorder) :
    edge = ⟨reorder, 0⟩ ∧ ∃ old source, start.node? reader = some old ∧ old.deps ≠ [] ∧
      old.isReorder = false ∧ start.dep? reader slot = some source ∧ node.deps = [source] := by
  subst hreads
  obtain ⟨consumer, hconsumer, hget⟩ := Graph.dep?_eq_some_iff.1 hedge
  have hlt : reader.index < start.size := by
    by_contra hnew
    obtain ⟨source, _, _, hdeps, hlayout, _⟩ :=
      (hs.inserted hconsumer (Nat.not_lt.1 hnew)).converts
    obtain ⟨_, hproducer, _⟩ := Graph.layoutAt?_eq_some_iff.1 hlayout
    rw [hdeps] at hget
    obtain rfl := List.mem_singleton.1 (List.mem_of_getElem? hget)
    exact absurd (Graph.lt_size_of_node? hproducer) (Nat.not_lt.2 hle)
  obtain ⟨old, hold⟩ := Graph.exists_node hlt
  have hturn : ¬(old.deps = [] ∨ old.isReorder = true) := by
    intro hskip
    have heq := hpassed hold hskip
    rw [hconsumer, Option.map_some, Option.some.injEq] at heq
    rw [Node.deps_of_bare heq] at hget
    obtain ⟨layout, hlayout⟩ := hstart.produced hold (List.mem_of_getElem? hget)
    obtain ⟨_, hproducer, _⟩ := Graph.layoutAt?_eq_some_iff.1 hlayout
    exact absurd (Graph.lt_size_of_node? hproducer) (Nat.not_lt.2 hle)
  rw [not_or, Bool.not_eq_true] at hturn
  obtain ⟨source, hsource, rfl | ⟨found, converter, rfl, _, hconverter, hdeps⟩⟩ :=
    hs.exists_slot hlt hedge
  · exact absurd (hs.exists_layout hstart hsource).1 (Nat.not_lt.2 hle)
  · obtain rfl := Option.some.inj (hnode.symm.trans hconverter)
    exact ⟨rfl, old, source, hold, hturn.1, hturn.2, hsource, hdeps⟩

end Reconciliation

/-! ## Agreed graphs -/

/-- After propagation and edge agreement that ended well, every inserted reorder is read, and it has
the layout of what it reads exactly if its readers were turned back to that layout, and no padding
was stripped.  All of its readers tell the same. -/
theorem identity_iff_of_agreement {decls : List NodeDecl} {g : Graph}
    (hbuild : Graph.build? decls = some (.ok g)) {cx : Context} {swept agreed : Outcome}
    (hswept : Propagation.run? cx g = some swept)
    (hagreed : Reconciliation.run? cx swept.graph = some agreed) {report : Report}
    (hok : agreed.result = .ok report) {reorder : NodeId} {node : Node}
    (hle : g.size ≤ reorder.index) (hnode : agreed.graph.node? reorder = some node) :
    ∃ input target, agreed.graph.input? reorder 0 = some input ∧ node.deps = [input.edge] ∧
      node.outputs = [target] ∧
      (∃ reader slot, agreed.graph.dep? reader slot = some ⟨reorder, 0⟩) ∧
      ∀ {reader consumer slot}, agreed.graph.node? reader = some consumer →
        consumer.deps[slot]? = some ⟨reorder, 0⟩ →
        (target = input.layout ↔ target.padding = input.layout.padding ∧
          consumer.TurnsBack slot input.producer input.layout) := by
  have hfresh := Graph.fresh_of_build hbuild
  obtain ⟨_, s₁, _, hgraph₁, hsame⟩ :=
    (Propagation.run?_spec cx hfresh.toOrdered).post_of_eq hswept
  rw [hgraph₁] at hagreed
  have hordered := hfresh.toOrdered.of_sameContent hsame
  obtain ⟨s, hfold, hs, hgraph, herror⟩ :=
    (Reconciliation.run?_spec cx hordered).post_of_eq hagreed
  have hfine : s.failure = none := herror ▸ Outcome.error?_eq_none_iff.2 ⟨report, hok⟩
  rw [hgraph] at hnode ⊢
  rw [← hsame.nodes.size_eq] at hle
  obtain ⟨edge, layout, target, hdeps, _, houtputs, _⟩ := (hs.inserted hnode hle).converts
  obtain ⟨input, hinput⟩ := hs.wellFormed.exists_input hnode (show 0 < _ by simp [hdeps])
  obtain ⟨_, hfound, hget, _, hproducer, hlayout⟩ := Graph.input?_eq_some_iff.1 hinput
  obtain rfl := Option.some.inj (hnode.symm.trans hfound)
  obtain rfl : edge = input.edge := by simpa [hdeps] using hget
  have hpassed : Reconciliation.Passed s₁.graph s :=
    (Reconciliation.run?_passed hordered).post_of_eq hfold
  refine ⟨input, target, hinput, hdeps, houtputs, ?_, ?_⟩
  · obtain ⟨_, hfed⟩ := (Reconciliation.fed_of_run hordered).post_of_eq hfold
    obtain ⟨reader, slot, edge, hedge, hreads⟩ := hfed reorder hle (Graph.lt_size_of_node? hnode)
    obtain ⟨rfl, _⟩ :=
      hs.reader_of_reorder hordered.wellFormed hpassed hnode hle hedge hreads
    exact ⟨reader, slot, hedge⟩
  · intro reader consumer slot hconsumer hslot
    have hedge : s.graph.dep? reader slot = some ⟨reorder, 0⟩ :=
      Graph.dep?_eq_some_iff.2 ⟨consumer, hconsumer, hslot⟩
    obtain ⟨_, old, source, hold, hsome, hturn, hsource, hreads⟩ :=
      hs.reader_of_reorder hordered.wellFormed hpassed hnode hle hedge rfl
    obtain rfl := List.singleton_inj.1 (hdeps.symm.trans hreads)
    have hturned : Reconciliation.TurnedBack s₁.graph reader s :=
      (Reconciliation.turnedBack_of_run hordered).post_of_eq hfold hfine hold hsome hturn
    have hread : s.graph.input? reader slot = some ⟨slot, ⟨reorder, 0⟩, node, target⟩ :=
      Graph.input?_eq_some_iff.2 ⟨consumer, hconsumer, hslot, rfl, hnode, by simp [houtputs]⟩
    refine hturned hconsumer hsource hproducer hlayout hread ?_
    rw [hs.wellFormed.id_eq hnode]
    exact hle

/-- Sums come out plain. -/
def plainSums : Catalog where
  registrations := [(.eltwise, emits .bfyx)]

/-- The sum of an input and a constant, declared in a format that it cannot keep. -/
def turnedSum : List NodeDecl :=
  let layout : Layout := ⟨.ofExtents [1, 16, 8, 8], .f32, .bfyx, {}⟩
  [{ name := "data", op := .input, outputs := [layout] },
    { name := "bias", op := .constant, outputs := [layout] },
    { name := "sum", op := .eltwise, inputs := [⟨⟨0⟩, 0⟩, ⟨⟨1⟩, 0⟩],
      outputs := [layout.withFormat .yxfb], fused := [⟨.eltwise, some 1⟩] }]

/-- The constant is converted to the format of the sum, and then the sum turns to the format that
the constant has. -/
theorem identity_iff_turnedSum : ∃ g swept agreed report node,
    Graph.build? turnedSum = some (.ok g) ∧
    Propagation.run? { catalog := plainSums } g = some swept ∧
    Reconciliation.run? { catalog := plainSums } swept.graph = some agreed ∧
    agreed.result = .ok report ∧ g.size ≤ 3 ∧ agreed.graph.node? ⟨3⟩ = some node ∧
    ∃ input target, agreed.graph.input? ⟨3⟩ 0 = some input ∧ node.deps = [input.edge] ∧
      node.outputs = [target] ∧ (∃ reader slot, agreed.graph.dep? reader slot = some ⟨⟨3⟩, 0⟩) ∧
      ∀ {reader consumer slot}, agreed.graph.node? reader = some consumer →
        consumer.deps[slot]? = some ⟨⟨3⟩, 0⟩ →
        (target = input.layout ↔ target.padding = input.layout.padding ∧
          consumer.TurnsBack slot input.producer input.layout) :=
  ⟨_, _, _, _, _, rfl, rfl, rfl, rfl, by decide, rfl,
    @identity_iff_of_agreement turnedSum _ rfl { catalog := plainSums } _ _ rfl rfl _ rfl ⟨3⟩ _
      (by decide) rfl⟩

/-- The reorder of the constant ends up with the layout that the constant has. -/
theorem turnedSum_identity : ∃ g swept agreed report node input,
    Graph.build? turnedSum = some (.ok g) ∧
    Propagation.run? { catalog := plainSums } g = some swept ∧
    Reconciliation.run? { catalog := plainSums } swept.graph = some agreed ∧
    agreed.result = .ok report ∧ g.size ≤ 3 ∧ agreed.graph.node? ⟨3⟩ = some node ∧
    agreed.graph.input? ⟨3⟩ 0 = some input ∧ node.isReorder = true ∧
    node.outputs = [input.layout] :=
  ⟨_, _, _, _, _, _, rfl, rfl, rfl, rfl, by decide, rfl, rfl, rfl, rfl⟩

end LayoutPlanner
