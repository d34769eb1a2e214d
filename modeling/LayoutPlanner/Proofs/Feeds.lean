import LayoutPlanner.Proofs.SharedSurfaces
import LayoutPlanner.Proofs.StoredTypes

/-!
# What feeds a slot

The visit of a node, as one of its slots sees it.

A slot reads at first what its edge brings.  Each repair leaves the slot alone, or puts a reorder in
front of it, or gives a new target to the reorder that is there (`Feed`).  So what comes of all the
repairs before the search for a legal layout is a function of what the slot read when the visit
began, and of the node as it was then (`Feed.prepared`).  The last repair depends on what the search
has made of the node (`Feed.agreed`).

* `Stages.exists_visit`: this is what the slot reads after the visit.
* Nothing that comes later changes it (`Visit.of_unmoved`), so it is what the slot reads at the end
  of the run (`visits_of_run`).
-/

namespace LayoutPlanner

open Reconciliation (operandSlots expectedKind)

/-- What feeds a slot in the course of a visit: the producer that did so when the visit began, or a
reorder that puts out a layout. -/
inductive Feed where
  | direct
  | through (layout : Layout)

namespace Feed

variable (origin : Input)

def isThrough : Feed → Bool
  | direct => false
  | through _ => true

/-- The slot as repairs see it.  All they ask of a reorder in front of it is whether it is one of
the run. -/
def input : Feed → Input
  | direct => origin
  | through layout =>
    { origin with producer := { origin.producer with op := .reorder, attrs := .none }, layout }

/-- What a repair of the slot comes to. -/
def after (feed : Feed) (repair : Repair) (node : Node) : Feed :=
  match repair node (feed.input origin) with
  | some demand => through demand.target
  | none => feed

/-- After the repair of states. -/
def stored (node : Node) : Feed :=
  match node.storedType? origin.slot origin.layout with
  | some declared =>
    through ((origin.layout.withFormat (node.wantedFormat origin.slot origin.layout)).withType
      declared)
  | none => direct

def operand (cx : Context) (node : Node) (output : Layout) (feed : Feed) : Feed :=
  if cx.config.optimizeLayout = true ∧ origin.slot ∈ operandSlots node then
    feed.after origin (.fusedConstant output) node
  else feed

def normalized (node : Node) (output : Layout) (feed : Feed) : Feed :=
  if node.op = .normalization ∧ (feed.input origin).isReal = true then
    feed.after origin (.normalizationPadding output) node
  else feed

def unpadded (node : Node) (feed : Feed) : Feed :=
  if expectedKind node = some .vendor ∧ (feed.input origin).isReal = true then
    feed.after origin .vendorPadding node
  else feed

/-- When the search for a legal layout begins. -/
def prepared (cx : Context) (node : Node) (output : Layout) : Feed :=
  (((stored origin node).operand origin cx node output).normalized origin node output).unpadded
    origin node

/-- After the last repair. -/
def agreed (node : Node) (feed : Feed) : Feed :=
  if (feed.input origin).isReal = true then
    feed.after origin (.agreement fun _ => feed.isThrough) node
  else feed

variable {origin} {feed : Feed} {node : Node}

theorem isReal_input : (feed.input origin).isReal = (feed.isThrough || origin.isReal) := by
  cases feed <;> rfl

theorem isSharedSurface_input : (feed.input origin).producer.isSharedSurface =
    (!feed.isThrough && origin.producer.isSharedSurface) := by
  cases feed <;> rfl

theorem slot_input : (feed.input origin).slot = origin.slot := by
  cases feed <;> rfl

theorem isThrough_stored :
    (stored origin node).isThrough = (node.storedType? origin.slot origin.layout).isSome := by
  unfold stored
  cases node.storedType? origin.slot origin.layout <;> rfl

/-- What the repair leaves as it is in all that it demands is as it was, whether or not it is made
at all. -/
theorem after_kept {α : Type} (field : Layout → α) {repair : Repair} (due : Prop) [Decidable due]
    (hkeeps : ∀ {demand}, repair node (feed.input origin) = some demand →
      field demand.target = field (feed.input origin).layout) :
    field ((if due then feed.after origin repair node else feed).input origin).layout =
      field (feed.input origin).layout := by
  split
  swap
  · rfl
  unfold after
  split
  next hsome => exact hkeeps hsome
  next => rfl

section Kept

variable {cx : Context} {output : Layout}

theorem shape_operand_stored :
    (((stored origin node).operand origin cx node output).input origin).layout.shape =
      origin.layout.shape := by
  have hstored : ((stored origin node).input origin).layout.shape = origin.layout.shape := by
    unfold stored
    cases node.storedType? origin.slot origin.layout <;> rfl
  rw [← hstored]
  exact after_kept Layout.shape _
    ((Repair.lawful_fusedConstant output).shape_eq (s := { graph := {} }))

/-- The first repairs do not change the padding. -/
theorem padding_operand_stored :
    (((stored origin node).operand origin cx node output).input origin).layout.padding =
      origin.layout.padding := by
  have hstored : ((stored origin node).input origin).layout.padding = origin.layout.padding := by
    unfold stored
    cases node.storedType? origin.slot origin.layout <;> rfl
  rw [← hstored]
  refine after_kept Layout.padding _ fun hdemand => ?_
  unfold Repair.fusedConstant at hdemand
  dsimp only at hdemand
  split at hdemand <;> cases hdemand
  rfl

theorem shape_normalized : ((feed.normalized origin node output).input origin).layout.shape =
    (feed.input origin).layout.shape :=
  after_kept Layout.shape _
    ((Repair.lawful_normalizationPadding output).shape_eq (s := { graph := {} }))

theorem shape_unpadded : ((feed.unpadded origin node).input origin).layout.shape =
    (feed.input origin).layout.shape :=
  after_kept Layout.shape _ (Repair.lawful_vendorPadding.shape_eq (s := { graph := {} }))

theorem shape_prepared : ((prepared origin cx node output).input origin).layout.shape =
    origin.layout.shape :=
  shape_unpadded.trans (shape_normalized.trans shape_operand_stored)

theorem shape_agreed : ((feed.agreed origin node).input origin).layout.shape =
    (feed.input origin).layout.shape :=
  after_kept Layout.shape _ fun hdemand => by rw [(Repair.of_agreement hdemand).2.2]

end Kept

/-- A slot that some data is fed to is not repaired as an operand. -/
theorem operand_of_isReal {cx : Context} {output : Layout}
    (hreal : (feed.input origin).isReal = true) : feed.operand origin cx node output = feed := by
  simp [operand, after, Repair.fusedConstant, hreal]

end Feed

/-! ## What repairs look at -/

/-- Repairs do not tell the two inputs apart, except by which reorders are of the run. -/
structure Input.Alike (a b : Input) : Prop where
  slot : a.slot = b.slot
  layout : a.layout = b.layout
  isReal : a.isReal = b.isReal
  isSharedSurface : a.producer.isSharedSurface = b.producer.isSharedSurface

theorem Input.Alike.symm {a b : Input} (h : a.Alike b) : b.Alike a :=
  ⟨h.slot.symm, h.layout.symm, h.isReal.symm, h.isSharedSurface.symm⟩

namespace Repair

variable {a b : Input} {node node' : Node}

theorem fusedConstant_congr (h : a.Alike b) (output : Layout) :
    fusedConstant output node a = fusedConstant output node' b := by
  simp only [fusedConstant, h.isReal, h.layout]

theorem normalizationPadding_congr (h : a.Alike b) (hstance : node.stance = node'.stance)
    (output : Layout) :
    normalizationPadding output node a = normalizationPadding output node' b := by
  have htype : node.wantedType = node'.wantedType := (congrArg Node.wantedType hstance :)
  simp only [normalizationPadding, h.slot, h.layout, htype, Node.prefers_of_stance hstance]

theorem vendorPadding_congr (h : a.Alike b) (hstance : node.stance = node'.stance) :
    vendorPadding node a = vendorPadding node' b := by
  have hformat : node.wantedFormat = node'.wantedFormat := (congrArg Node.wantedFormat hstance :)
  have htype : node.wantedType = node'.wantedType := (congrArg Node.wantedType hstance :)
  simp only [vendorPadding, h.slot, h.layout, h.isSharedSurface, hformat, htype]

theorem agreement_congr (h : a.Alike b) (hstance : node.stance = node'.stance)
    {isCreated isCreated' : NodeId → Bool}
    (hcreated : isCreated a.producer.id = isCreated' b.producer.id) :
    agreement isCreated node a = agreement isCreated' node' b := by
  have hformat : node.wantedFormat = node'.wantedFormat := (congrArg Node.wantedFormat hstance :)
  have htype : node.wantedType = node'.wantedType := (congrArg Node.wantedType hstance :)
  simp only [agreement, h.slot, h.layout, h.isSharedSurface, hformat, htype, hcreated]

end Repair

/-- The outputs of a node are in the format that it prefers on a slot.  That format fits the first
of them, if any does. -/
structure Node.Follows (slot : Nat) (node : Node) : Prop where
  outputs : ∀ layout ∈ node.outputs, layout.format = (node.prefers.input slot).adaptTo layout.rank
  fits : ∀ layout, node.outputs[0]? = some layout → layout.rank ≤ 6 →
    (node.prefers.input slot).fits layout.rank = true

theorem Node.Follows.congr {slot : Nat} {a b : Node} (ha : a.Follows slot)
    (houtputs : b.outputs = a.outputs) (hprefers : b.prefers = a.prefers) : b.Follows slot := by
  refine ⟨?_, ?_⟩
  · rw [houtputs, hprefers]
    exact ha.outputs
  · rw [houtputs, hprefers]
    exact ha.fits

/-- What the node wants decides what the last repair does. -/
theorem Feed.agreed_congr {a b : Node} (h : a.stance = b.stance) {origin : Input} {feed : Feed} :
    feed.agreed origin a = feed.agreed origin b := by
  have hdemand : Repair.agreement (fun _ => feed.isThrough) a (feed.input origin) =
      Repair.agreement (fun _ => feed.isThrough) b (feed.input origin) :=
    Repair.agreement_congr ⟨rfl, rfl, rfl, rfl⟩ h rfl
  rw [agreed, agreed, after, after, hdemand]

namespace Reconciliation

variable {start : Graph} {cx : Context} {old : Node} {output : Layout} {origin : Input}
  {id : NodeId} {slot : Nat} {feed : Feed} {s s' : Reconciliation}

/-- The slot is fed like this.  `origin` is what it read when the visit began. -/
inductive FedBy (start : Graph) (origin : Input) (id : NodeId) (slot : Nat) (s : Reconciliation) :
    Feed → Prop
  | direct {input : Input} (hinput : s.graph.input? id slot = some input)
      (hface : input.face = origin.face) (hlayout : input.layout = origin.layout) :
      FedBy start origin id slot s .direct
  | through {input : Input} {target : Layout} (h : Delivered start slot target s.graph id input) :
      FedBy start origin id slot s (.through target)

/-- Only what the slot shows counts. -/
theorem FedBy.of_face (h : FedBy start origin id slot s feed) (hs' : Sound start s')
    (hsame : (s'.graph.input? id slot).map Input.face = (s.graph.input? id slot).map Input.face) :
    FedBy start origin id slot s' feed := by
  cases h with
  | direct hinput hface hlayout =>
    obtain ⟨input', hinput', hface'⟩ := exists_of_map_eq hsame hinput
    exact .direct hinput' (hface'.trans hface)
      ((Input.layout_of_face hinput' hinput hface').trans hlayout)
  | through hdelivered =>
    obtain ⟨input', hinput', hface'⟩ := exists_of_map_eq hsame hdelivered.at_slot
    exact .through (hdelivered.of_face hs' hinput' hface')

/-- What is found on the slot. -/
theorem FedBy.exists_input (h : FedBy start origin id slot s feed) (hs : Sound start s)
    (hslot : origin.slot = slot) (hinside : origin.producer.id.index < start.size) :
    ∃ input, s.graph.input? id slot = some input ∧ input.Alike (feed.input origin) ∧
      s.isCreated input.producer.id = feed.isThrough := by
  cases h with
  | @direct input hinput hface hlayout =>
    have hid : input.producer.id = origin.producer.id := congrArg (·.2.2.1) hface
    refine ⟨input, hinput, ⟨congrArg (·.1) hface, hlayout, Input.isReal_of_face hface,
      Input.isSharedSurface_of_face hface⟩, ?_⟩
    rw [Feed.isThrough, Bool.eq_false_iff, Ne, hs.isCreated_producer_iff hinput, hid]
    exact Nat.not_le.2 hinside
  | @through input target hdelivered =>
    refine ⟨input, hdelivered.at_slot, ⟨?_, hdelivered.layout_eq, hdelivered.isReal,
      hdelivered.inserted.notShared⟩, (hs.isCreated_producer_iff hdelivered.at_slot).2
        hdelivered.beyond⟩
    exact (Graph.slot_of_input? hdelivered.at_slot).trans hslot.symm

/-- A loop of repairs, given what it demands of the slot. -/
theorem FedBy.repaired (h : FedBy start origin id slot s feed) (hs : Sound start s)
    (hslot : origin.slot = slot) (hinside : origin.producer.id.index < start.size) {node : Node}
    (hnode : s.graph.node? id = some node) {repair : Reconciliation → Repair} {slots : List Nat}
    (hrepaired : Repaired start id repair slots s s') (seen : Repair)
    (hseen : ∀ {input}, input.Alike (feed.input origin) →
      s.isCreated input.producer.id = feed.isThrough →
      repair s node input = seen old (feed.input origin)) :
    FedBy start origin id slot s'
      (if slot ∈ slots then feed.after origin seen old else feed) := by
  by_cases hmem : slot ∈ slots
  swap
  · rw [if_neg hmem]
    exact h.of_face hrepaired.served.sound (hrepaired.untouched hmem)
  obtain ⟨input, hinput, halike, hcreated⟩ := h.exists_input hs hslot hinside
  have hdemand := hseen halike hcreated
  rw [if_pos hmem, Feed.after]
  rcases hrepaired.done hmem hnode hinput with ⟨hnone, hface⟩ | ⟨demand, _, hsome, hdelivered⟩
  · rw [← hdemand, hnone]
    refine h.of_face hrepaired.served.sound ?_
    rw [hface, hinput, Option.map_some]
  · rw [← hdemand, hsome]
    exact .through hdelivered

/-- Loops over the real inputs take in the slot if it is one of them. -/
theorem FedBy.mem_realSlots_iff (h : FedBy start origin id slot s feed) (hs : Sound start s)
    (hslot : origin.slot = slot) (hinside : origin.producer.id.index < start.size) {node : Node}
    (hnode : s.graph.node? id = some node) {slots : List Nat}
    (hslots : s.graph.realSlots? id = some slots) :
    slot ∈ slots ↔ (feed.input origin).isReal = true := by
  obtain ⟨_, hfound, hall⟩ := hs.wellFormed.exists_realSlots hnode
  obtain rfl := Option.some.inj (hslots.symm.trans hfound)
  obtain ⟨input, hinput, halike, _⟩ := h.exists_input hs hslot hinside
  rw [hall slot, ← halike.isReal]
  constructor
  · rintro ⟨_, hsome, hreal⟩
    rwa [Option.some.inj (hinput.symm.trans hsome)]
  · exact fun hreal => ⟨input, hinput, hreal⟩

/-! ## The stages of a visit -/

/-- A state in the course of the visit of `id`, before the search for a legal layout. -/
structure Course (start : Graph) (old : Node) (output : Layout) (origin : Input) (id : NodeId)
    (slot : Nat) (s : Reconciliation) (feed : Feed) : Prop where
  sound : Sound start s
  node : ∃ node, s.graph.node? id = some node ∧ node.stance = old.stance ∧
    node.outputs[0]? = some output
  fed : FedBy start origin id slot s feed

section Stages

variable (hstart : start.Ordered) (hold : start.node? id = some old) (hslot : origin.slot = slot)
  (hinside : origin.producer.id.index < start.size)
  (h : Course start old output origin id slot s feed)

include hstart hold hslot hinside h

theorem Course.loop {node : Node} {repair : Reconciliation → Repair} {slots : List Nat}
    (hloop : Loop id node repair slots s) (hstance : node.stance = old.stance)
    (houtput : node.outputs[0]? = some output)
    (hrun : slots.foldlM (repairSlot? id repair) s = some s') (seen : Repair)
    (hseen : ∀ {input}, input.Alike (feed.input origin) →
      s.isCreated input.producer.id = feed.isThrough →
      repair s node input = seen old (feed.input origin)) :
    Course start old output origin id slot s'
      (if slot ∈ slots then feed.after origin seen old else feed) := by
  obtain ⟨hrepaired, _⟩ :=
    (hloop.spec hstart.wellFormed h.sound (Graph.lt_size_of_node? hold)).post_of_eq hrun
  obtain ⟨node', hnode', hcore, _⟩ := hrepaired.served.self hloop.at_id
  refine ⟨hrepaired.served.sound, ⟨node', hnode', ?_, ?_⟩,
    h.fed.repaired h.sound hslot hinside hloop.at_id hrepaired seen hseen⟩
  · rw [Node.stance_of_core hcore, hstance]
  · rw [Node.outputs_of_core hcore, houtput]

theorem Course.operands
    (hrun : (if cx.config.optimizeLayout then s.reorderOperands? id else some s) = some s') :
    Course start old output origin id slot s' (feed.operand origin cx old output) := by
  obtain ⟨node, hnode, hstance, houtput⟩ := h.node
  rcases operands_cases hnode hrun with ⟨hplain, rfl⟩ | ⟨hoptimize, found, hfound, hrun⟩
  · rw [Feed.operand, if_neg (by simp [hplain])]
    exact h
  obtain rfl := Option.some.inj (houtput.symm.trans hfound)
  have hoperands : operandSlots node = operandSlots old := by
    rw [operandSlots, Node.fused_of_stance hstance, h.sound.length_deps hold hnode, operandSlots]
  have hloop := h.loop hstart hold hslot hinside (loop_operands hnode houtput) hstance houtput hrun
    (.fusedConstant output) fun halike _ => Repair.fusedConstant_congr halike output
  simpa only [Feed.operand, hoptimize, true_and, hslot, hoperands] using hloop

theorem Course.normalization (hrun : s.unpadNormalization? id = some s') :
    Course start old output origin id slot s' (feed.normalized origin old output) := by
  obtain ⟨node, hnode, hstance, houtput⟩ := h.node
  rcases normalization_cases hnode hrun with
    ⟨hop, rfl⟩ | ⟨hop, slots, found, hslots, hfound, hrun⟩
  · rw [Feed.normalized, if_neg fun hboth => hop ((Node.op_of_stance hstance).trans hboth.1)]
    exact h
  obtain rfl := Option.some.inj (houtput.symm.trans hfound)
  have hloop := h.loop hstart hold hslot hinside
    (loop_normalization hnode h.sound.wellFormed hslots hop houtput) hstance houtput hrun
    (.normalizationPadding output) fun halike _ =>
      Repair.normalizationPadding_congr halike hstance output
  simpa only [Feed.normalized, ← Node.op_of_stance hstance, hop, true_and,
    h.fed.mem_realSlots_iff h.sound hslot hinside hnode hslots] using hloop

theorem Course.vendor (hrun : s.unpadVendor? id = some s') :
    Course start old output origin id slot s' (feed.unpadded origin old) := by
  obtain ⟨node, hnode, hstance, houtput⟩ := h.node
  rcases vendor_cases hnode hrun with ⟨hkind, rfl⟩ | ⟨hkind, slots, hslots, hrun⟩
  · rw [Feed.unpadded,
      if_neg fun hboth => hkind ((expectedKind_of_stance hstance).trans hboth.1)]
    exact h
  have hloop := h.loop hstart hold hslot hinside
    (loop_vendor hnode h.sound.wellFormed hslots hkind) hstance houtput hrun .vendorPadding
    fun halike _ => Repair.vendorPadding_congr halike hstance
  simpa only [Feed.unpadded, ← expectedKind_of_stance hstance, hkind, true_and,
    h.fed.mem_realSlots_iff h.sound hslot hinside hnode hslots] using hloop

end Stages

/-- The first stage looks after the states. -/
theorem fedBy_of_convertState? (hstart : start.Ordered) (hid : id.index < start.size)
    (hs : Sound start s) {node : Node} (hnode : s.graph.node? id = some node)
    (hstance : node.stance = old.stance) (horigin : s.graph.input? id slot = some origin)
    (h : s.convertState? id = some s') :
    FedBy start origin id slot s' (Feed.stored origin old) := by
  have hslot := Graph.slot_of_input? horigin
  have hstored : ∀ other source, node.storedType? other source = old.storedType? other source :=
    fun other source => Node.storedType?_congr (Node.attrs_of_stance hstance) other rfl
  have hwanted : node.wantedFormat = old.wantedFormat := (congrArg Node.wantedFormat hstance :)
  have hdirect : FedBy start origin id slot s .direct := .direct horigin rfl rfl
  unfold Feed.stored
  cases stateRepair_of_convertState? hnode h with
  | rests hnone =>
    rw [hslot, ← hstored, storedType?_of_rests hnone horigin]
    exact hdirect
  | @converts input demand s₁ g₂ g₃ hinput hdemand hconvert hinvalidate hsettle =>
    have hconverted := (convert?_spec hstart.wellFormed hs hid hinput
      (Repair.lawful_stateType.shape_eq (s := s) hdemand) _).post_of_eq hconvert
    obtain ⟨_, hnode₁, _⟩ := hconverted.core_eq hnode
    have hedit := localEdit_of_resettle hconverted.sound.wellFormed hnode₁ hinvalidate hsettle
    have hsettled : ∀ {feed}, FedBy start origin id slot s₁ feed →
        FedBy start origin id slot (s₁.withGraph g₃) feed := fun hfed =>
      hfed.of_face (hconverted.sound.localEdit hid hedit rfl rfl)
        (hconverted.sound.input?_face_eq hstart hid hedit slot)
    by_cases hzero : slot = 0
    · subst hzero
      obtain rfl := Option.some.inj (horigin.symm.trans hinput)
      obtain ⟨input', hdelivered⟩ :=
        hconverted.exists_delivered hnode (Graph.lt_length_of_input? hnode hinput)
      rw [Repair.stateType_eq hslot] at hdemand
      obtain ⟨declared, hdue, rfl⟩ := Option.map_eq_some_iff.1 hdemand
      rw [hslot, ← hstored, hdue, ← hwanted]
      exact hsettled (.through hdelivered)
    · rw [hslot, Node.storedType?_of_ne_zero hzero]
      exact hsettled
        (hdirect.of_face hconverted.sound (hconverted.inputs hid fun heq => hzero heq.2))

/-- The search for a legal layout comes to prefer a format on a slot only if a real input feeds it,
and then it puts the outputs into that format. -/
theorem Legalized.input_cases (h : Legalized cx id s s') {node node' : Node}
    (hnode : s.graph.node? id = some node) (hnode' : s'.graph.node? id = some node') (slot : Nat) :
    node'.prefers.input slot = node.prefers.input slot ∨
      (∃ input, s.graph.input? id slot = some input ∧ input.isReal = true) ∧
        node'.Follows slot := by
  obtain ⟨base, hbase, hending⟩ := h.ending
  obtain ⟨hcontent, node₁, hnode₁, hprefers⟩ : Graph.SameContent s.graph base ∧
      ∃ node₁, base.node? id = some node₁ ∧ node₁.prefers = node.prefers := by
    rcases hbase with hrestored | hhanded
    · obtain ⟨node₁, hnode₁, hbare⟩ := hrestored.bare.exists_new hnode
      exact ⟨hrestored.edit.content, node₁, hnode₁, Node.prefers_of_bare hbare⟩
    · obtain ⟨_, node₁, hnode₁, hbare⟩ := hhanded.node hnode
      exact ⟨hhanded.edit.content, node₁, hnode₁, (Node.prefers_of_bare hbare).trans rfl⟩
  have hkept : base.Restored id s'.graph → node'.prefers.input slot = node.prefers.input slot := by
    intro hrestored
    obtain ⟨_, hfound, hbare⟩ := hrestored.bare.exists_new hnode₁
    obtain rfl := Option.some.inj (hnode'.symm.trans hfound)
    rw [Node.prefers_of_bare hbare, hprefers]
  cases hending with
  | supported hrestored => exact Or.inl (hkept hrestored)
  | deferred hrestored => exact Or.inl (hkept hrestored)
  | unresolved hrestored => exact Or.inl (hkept hrestored)
  | adopted format hadopts _ _ hfits =>
    obtain ⟨_, hfound, hadopted⟩ := hadopts.node hnode₁
    obtain rfl := Option.some.inj (hnode'.symm.trans hfound)
    by_cases haccepts : base.Accepts id format slot
    · obtain ⟨input, hinput, hreal, _⟩ := (Graph.accepts_iff hcontent).1 haccepts
      refine Or.inr ⟨⟨input, hinput, hreal⟩, fun layout hlayout => ?_, fun layout hlayout => ?_⟩
      all_goals
        rw [hadopted.outputs] at hlayout
        rw [hadopted.input_of_accepts haccepts]
      · obtain ⟨_, _, rfl⟩ := List.mem_map.1 hlayout
        rfl
      · rw [List.getElem?_map] at hlayout
        obtain ⟨first, hfirst, rfl⟩ := Option.map_eq_some_iff.1 hlayout
        have hfirst_fits := hfits hnode₁ hfirst
        exact hfirst_fits
    · exact Or.inl (by rw [hadopted.input_of_not haccepts, hprefers])

/-! ## Visits and runs -/

/-- The first output of a node in its turn, when the search for a legal layout begins. -/
def turnOutput? (cx : Context) (start : Graph) (id : NodeId) : Option Layout := do
  let s ← (start.order.take id.index).foldlM (visit? cx) { graph := start }
  let s ← (s.withGraph (← s.graph.settle? id)).convertState? id
  (← s.graph.node? id).outputs[0]?

/-- What the visit of a node has come to for one of its slots, as the graph is now. -/
structure Visit (start : Graph) (cx : Context) (old : Node) (output : Layout) (id : NodeId)
    (g : Graph) (origin : Input) (node : Node) : Prop where
  at_id : g.node? id = some node
  firms : old.Firms node
  edge : start.dep? id origin.slot = some origin.edge
  producer : (g.node? origin.edge.node).map Node.face = some origin.producer.face
  layout : g.layoutAt? origin.edge = some origin.layout
  input_cases : node.prefers.input origin.slot = old.prefers.input origin.slot ∨
    ((Feed.prepared origin cx old output).input origin).isReal = true ∧ node.Follows origin.slot
  shown : ∃ input, g.input? id origin.slot = some input ∧
    input.Alike (((Feed.prepared origin cx old output).agreed origin node).input origin)

section Turn

variable {s₁ s₂ s₃ s₄ s₅ s₆ : Reconciliation}

variable (hstart : start.Ordered) (hs : Sound start s) (hold : start.node? id = some old)
  (hfresh : (s.graph.node? id).map Node.bare = some old.bare)
  (h : Stages cx id s s₁ s₂ s₃ s₄ s₅ s₆ s')

include hstart hs hold hfresh h

/-- The first output of the node.  Repairs leave it alone once its format has been chosen. -/
theorem Stages.exists_output (hdeps : old.deps ≠ []) :
    ∃ node₂ output, s₂.graph.node? id = some node₂ ∧ node₂.outputs[0]? = some output ∧
      node₂.meaning = old.meaning ∧
      (old.Honours → ¬old.Open 0 → old.outputs[0]? = some output) := by
  have hid := Graph.lt_size_of_node? hold
  obtain ⟨h₁, h₂, _⟩ := h.advanced hstart.wellFormed hs hold hdeps
  obtain ⟨node₂, hnode₂, hmeaning, _⟩ := h₂.sound.kept hold
  obtain ⟨output, houtput⟩ := h₂.sound.wellFormed.exists_output hnode₂
  refine ⟨node₂, output, hnode₂, houtput, hmeaning, fun hhonours hchosen => ?_⟩
  obtain ⟨before, hbefore, hbare⟩ := Option.map_eq_some_iff.1 hfresh
  obtain ⟨layout, hlayout⟩ := hstart.wellFormed.exists_output hold
  have hkept := Moves.first_output hstart.wellFormed hs hid (h₁.moves.trans h₂.moves) hbefore
    (hhonours.congr hbare.symm) (by rw [Node.outputs_of_bare hbare, hlayout])
    (Format.isChosen_iff_ne.2 fun hany => hchosen ⟨layout, hlayout, hany⟩) hnode₂
  rw [hlayout, ← hkept, houtput]

variable {node₂ : Node} (hnode₂ : s₂.graph.node? id = some node₂)
  (houtput : node₂.outputs[0]? = some output) {edge : Edge} (hedge : start.dep? id slot = some edge)

include hnode₂ houtput hedge

/-- What feeds the slot when the search for a legal layout begins. -/
theorem Stages.exists_course :
    ∃ origin, s₁.graph.input? id slot = some origin ∧ origin.edge = edge ∧
      origin.producer.id.index < start.size ∧
      Course start old output origin id slot s₅ (Feed.prepared origin cx old output) := by
  have hid := Graph.lt_size_of_node? hold
  obtain ⟨_, hfound, hget⟩ := Graph.dep?_eq_some_iff.1 hedge
  obtain rfl := Option.some.inj (hold.symm.trans hfound)
  have hmem := List.mem_of_getElem? hget
  obtain ⟨origin, hs₁, horigin, rfl, hunderway, _⟩ := h.underway hstart hs hold hfresh hedge
  obtain ⟨_, h₂, _⟩ := h.advanced hstart.wellFormed hs hold (List.ne_nil_of_mem hmem)
  obtain ⟨_, hsome, hstance₂⟩ := hunderway.node
  obtain rfl := Option.some.inj (hnode₂.symm.trans hsome)
  obtain ⟨node₁, hnode₁⟩ := Graph.exists_node (Nat.lt_of_lt_of_le hid hs₁.grown)
  have hstance₁ : node₁.stance = old.stance :=
    (Moves.stance_eq hstart.wellFormed hs₁ hid h₂.moves hnode₁ hnode₂).symm.trans hstance₂
  have hslot := Graph.slot_of_input? horigin
  have hinside : origin.producer.id.index < start.size := by
    rw [hs₁.wellFormed.producer_id horigin]
    exact Nat.lt_trans (hstart.earlier hold hmem) hid
  have hcourse₂ : Course start old output origin id slot s₂ (Feed.stored origin old) :=
    ⟨hunderway.sound, ⟨node₂, hnode₂, hstance₂, houtput⟩,
      fedBy_of_convertState? hstart hid hs₁ hnode₁ hstance₁ horigin h.state⟩
  have hcourse₃ := hcourse₂.operands hstart hold hslot hinside h.operands
  have hcourse₄ := hcourse₃.normalization hstart hold hslot hinside h.normalization
  exact ⟨origin, horigin, rfl, hinside,
    hcourse₄.vendor hstart hold hslot hinside h.vendor⟩

theorem Stages.exists_visit (hturn : s.repairNode? cx id = some s') (hfine : s'.failure = none) :
    ∃ origin node, origin.slot = slot ∧ origin.edge = edge ∧
      Visit start cx old output id s'.graph origin node := by
  have hid := Graph.lt_size_of_node? hold
  obtain ⟨origin, horigin, rfl, hinside, hcourse⟩ :=
    h.exists_course hstart hs hold hfresh hnode₂ houtput hedge
  have hslot := Graph.slot_of_input? horigin
  obtain ⟨node₅, hnode₅, hstance₅, _⟩ := hcourse.node
  have hlegalized := (legalize?_spec cx hcourse.sound.wellFormed hnode₅).post_of_eq h.legal
  have hs₆ := hcourse.sound.localEdit hid hlegalized.edit hlegalized.conversions_eq
    hlegalized.created_eq
  obtain ⟨node₆, hnode₆⟩ := Graph.exists_node (Nat.lt_of_lt_of_le hid hs₆.grown)
  obtain ⟨slots, hslots, hrepaired, _⟩ :=
    (reconcile?_spec hstart.wellFormed hs₆ hid hnode₆).post_of_eq (h.reconciled hfine)
  obtain ⟨node', hnode', hcore, _⟩ := hrepaired.served.self hnode₆
  have hstance' := Node.stance_of_core hcore
  have hfed₆ := hcourse.fed.of_face hs₆
    (hcourse.sound.input?_face_eq hstart hid hlegalized.edit slot)
  have hfed := hfed₆.repaired hs₆ hslot hinside hnode₆ hrepaired
    (.agreement fun _ => (Feed.prepared origin cx old output).isThrough)
    fun halike hcreated => Repair.agreement_congr halike hstance'.symm hcreated
  have hwants : node'.prefers.input origin.slot = old.prefers.input origin.slot ∨
      ((Feed.prepared origin cx old output).input origin).isReal = true ∧
        node'.Follows origin.slot := by
    rw [Node.prefers_of_core hcore, ← Node.prefers_of_stance hstance₅, hslot]
    refine (hlegalized.input_cases hnode₅ hnode₆ slot).imp_right (And.imp ?_ ?_)
    swap
    · exact (·.congr (Node.outputs_of_core hcore) (Node.prefers_of_core hcore))
    rintro ⟨input, hinput, hreal⟩
    obtain ⟨_, hfound, halike, _⟩ := hcourse.fed.exists_input hcourse.sound hslot hinside
    obtain rfl := Option.some.inj (hinput.symm.trans hfound)
    rw [← halike.isReal, hreal]
  obtain ⟨_, _, _, _, hproducer, hlayout⟩ := Graph.input?_eq_some_iff.1 horigin
  have hmem : origin.edge ∈ old.deps := by
    obtain ⟨_, hfound, hget⟩ := Graph.dep?_eq_some_iff.1 hedge
    obtain rfl := Option.some.inj (hold.symm.trans hfound)
    exact List.mem_of_getElem? hget
  obtain ⟨producer, hproducer', hbare⟩ :=
    exists_of_map_eq (h.bare_eq hstart hs hold hturn hmem) hproducer
  refine ⟨origin, node', hslot, rfl, hnode', ?_, hslot ▸ hedge, ?_, ?_, hwants, ?_⟩
  · exact ((Node.firms_of_stance hstance₅).trans (hlegalized.firms hnode₅ hnode₆)).trans
      (Node.firms_of_stance hstance')
  · rw [hproducer', Option.map_some, Node.face_of_bare hbare]
  · refine Graph.layoutAt?_eq_some_iff.2 ⟨producer, hproducer', ?_⟩
    rw [Node.outputs_of_bare hbare, hlayout]
  · simp only [hfed₆.mem_realSlots_iff hs₆ hslot hinside hnode₆ hslots] at hfed
    obtain ⟨input, hinput, halike, _⟩ :=
      hfed.exists_input hrepaired.served.sound hslot hinside
    exact ⟨input, hslot ▸ hinput, halike⟩

end Turn

/-- Visits of later nodes do not change what the visit has come to. -/
theorem Visit.of_unmoved {node : Node} (h : Visit start cx old output id s.graph origin node)
    (hstart : start.Ordered) (hunmoved : Unmoved id s s')
    (hsame : ∀ other : NodeId, other.index ≤ id.index →
      (s'.graph.node? other).map Node.bare = (s.graph.node? other).map Node.bare) :
    ∃ node', Visit start cx old output id s'.graph origin node' := by
  obtain ⟨node', hnode', hbare⟩ := exists_of_map_eq hunmoved.node h.at_id
  have hstance := Node.stance_of_core (Node.core_of_bare hbare)
  have hproducer : (s'.graph.node? origin.edge.node).map Node.bare =
      (s.graph.node? origin.edge.node).map Node.bare := by
    obtain ⟨_, hold, hget⟩ := Graph.dep?_eq_some_iff.1 h.edge
    exact hsame _ (Nat.le_of_lt (hstart.earlier hold (List.mem_of_getElem? hget)))
  obtain ⟨producer, hfound, hlayout⟩ := Graph.layoutAt?_eq_some_iff.1 h.layout
  obtain ⟨producer', hfound', hbare'⟩ := exists_of_map_eq hproducer hfound
  obtain ⟨input, hinput, halike⟩ := h.shown
  obtain ⟨input', hinput', hface⟩ := exists_of_map_eq (hunmoved.inputs origin.slot) hinput
  refine ⟨node', hnode', h.firms.trans (Node.firms_of_stance hstance), h.edge, ?_, ?_, ?_,
    input', hinput', ?_⟩
  · have hface := h.producer
    rw [hfound, Option.map_some] at hface
    rw [hfound', Option.map_some, Node.face_of_bare hbare', hface]
  · refine Graph.layoutAt?_eq_some_iff.2 ⟨producer', hfound', ?_⟩
    rw [Node.outputs_of_bare hbare', hlayout]
  · rw [Node.prefers_of_bare hbare]
    exact h.input_cases.imp_right (And.imp_right
      (·.congr (Node.outputs_of_bare hbare) (Node.prefers_of_bare hbare)))
  · rw [Feed.agreed_congr hstance]
    exact ⟨(congrArg (·.1) hface :).trans halike.slot,
      (Input.layout_of_face hinput' hinput hface).trans halike.layout,
      (Input.isReal_of_face hface).trans halike.isReal,
      (Input.isSharedSurface_of_face hface).trans halike.isSharedSurface⟩

/-- What all the slots of a node that had its turn read at the end of a run that does not fail. -/
theorem visits_of_run (hstart : start.Ordered) :
    Yields (start.order.foldlM (visit? cx) { graph := start }) fun s => s.failure = none →
      ∀ {id old}, start.node? id = some old → old.deps ≠ [] → old.isReorder = false →
        ∃ output, turnOutput? cx start id = some output ∧
          old.outputs[0]?.map (·.withFormat .any) = some (output.withFormat .any) ∧
          (old.Honours → ¬old.Open 0 → old.outputs[0]? = some output) ∧
          ∀ {slot edge}, start.dep? id slot = some edge →
            ∃ origin node, origin.slot = slot ∧ origin.edge = edge ∧
              Visit start cx old output id s.graph origin node := by
  refine (run?_turns_at hstart (fun id s => ∀ {old}, start.node? id = some old →
    ∃ output, turnOutput? cx start id = some output ∧
      old.outputs[0]?.map (·.withFormat .any) = some (output.withFormat .any) ∧
      (old.Honours → ¬old.Open 0 → old.outputs[0]? = some output) ∧
      ∀ {slot edge}, start.dep? id slot = some edge →
        ∃ origin node, origin.slot = slot ∧ origin.edge = edge ∧
          Visit start cx old output id s.graph origin node) ?_ ?_).mono ?_
  · intro id s s' found hcome hs hfound hdeps _ hfresh hturn hfine old hold
    obtain rfl := Option.some.inj (hfound.symm.trans hold)
    obtain ⟨s₁, s₂, _, _, _, _, hstages⟩ := exists_stages hturn
    obtain ⟨node₂, output, hnode₂, houtput, hmeaning, hsettled⟩ :=
      hstages.exists_output hstart hs hold hfresh hdeps
    refine ⟨output, ?_, ?_, hsettled, fun {slot edge} hedge =>
      hstages.exists_visit hstart hs hold hfresh hnode₂ houtput hedge hturn hfine⟩
    · obtain ⟨g, hsettle, rfl⟩ := hstages.settled
      simp only [turnOutput?, hcome, hsettle, hstages.state, hnode₂, houtput, Option.bind_eq_bind,
        Option.bind_some]
    · rw [← Node.output_of_meaning hmeaning, houtput, Option.map_some]
  · intro id s s' hunmoved hsame h old hold
    obtain ⟨output, houtput, hlike, hsettled, hvisits⟩ := h hold
    refine ⟨output, houtput, hlike, hsettled, fun {slot edge} hedge => ?_⟩
    obtain ⟨origin, node, hslot, horigin, hvisit⟩ := hvisits hedge
    obtain ⟨node', hvisit'⟩ := hvisit.of_unmoved hstart hunmoved hsame
    exact ⟨origin, node', hslot, horigin, hvisit'⟩
  · intro s h hfine id old hold hdeps hreorder
    exact h hfine hold hdeps hreorder hold

end Reconciliation

/-! ## Agreed graphs -/

/-- The turn that a node of a declared graph has had, and what a slot of it has come to, after
propagation and edge agreement.  The first output is `before` when the search for a legal layout
begins. -/
structure Turned (g swept agreed : Graph) (cx : Context) (id : NodeId) (origin : Input)
    (reader : Node) (before : Layout) (node : Node) : Prop where
  at_id : swept.node? id = some reader
  meaning : node.meaning = reader.meaning
  first : Reconciliation.turnOutput? cx swept id = some before
  first_of_data : reader.isConstant = false → reader.outputs[0]? = some before
  output : node.outputs[0]?.map (·.withFormat .any) = some (before.withFormat .any)
  edge : g.dep? id origin.slot = some origin.edge
  op : (g.node? origin.edge.node).map Node.op = some origin.producer.op
  visit : Reconciliation.Visit swept cx reader before id agreed origin node

/-- If planning ends well, every slot of a node that is not a reorder has had its turn. -/
theorem exists_turned {decls : List NodeDecl} {g : Graph}
    (hbuild : Graph.build? decls = some (.ok g)) {cx : Context} {swept agreed : Outcome}
    (hswept : Propagation.run? cx g = some swept)
    (hagreed : Reconciliation.run? cx swept.graph = some agreed) {report : Report}
    (hok : agreed.result = .ok report) {id : NodeId} {node : Node}
    (hnode : agreed.graph.node? id = some node) (hreorder : node.isReorder = false) {slot : Nat}
    (hslot : slot < node.deps.length) :
    ∃ reader before origin, origin.slot = slot ∧
      Turned g swept.graph agreed.graph cx id origin reader before node := by
  have hfresh := Graph.fresh_of_build hbuild
  obtain ⟨_, s₁, hs₁, hgraph₁, hsame⟩ :=
    (Propagation.run?_spec cx hfresh.toOrdered).post_of_eq hswept
  rw [hgraph₁] at hagreed ⊢
  have hordered := hfresh.toOrdered.of_sameContent hsame
  obtain ⟨_, hhonours⟩ := (Propagation.honours_of_sweep hfresh).post_of_eq hs₁
  obtain ⟨_, hsettled⟩ := (Propagation.settled_of_sweep hfresh).post_of_eq hs₁
  obtain ⟨s, hfold, hs, hgraph, herror⟩ :=
    (Reconciliation.run?_spec cx hordered).post_of_eq hagreed
  have hfine : s.failure = none := herror ▸ Outcome.error?_eq_none_iff.2 ⟨report, hok⟩
  rw [hgraph] at hnode ⊢
  have hlt : id.index < s₁.graph.size := by
    by_contra hnew
    simp [Node.isReorder, (hs.inserted hnode (Nat.not_lt.1 hnew)).op_eq] at hreorder
  obtain ⟨reader, hreader⟩ := Graph.exists_node hlt
  obtain ⟨_, hfound, hmeaning, hlength, _⟩ := hs.kept hreader
  obtain rfl := Option.some.inj (hnode.symm.trans hfound)
  rw [hlength] at hslot
  obtain ⟨before, hbefore, hlike, hfirst, hvisits⟩ :=
    (Reconciliation.visits_of_run hordered).post_of_eq hfold hfine hreader
      (List.length_pos_iff.1 (Nat.lt_of_le_of_lt (Nat.zero_le _) hslot))
      ((Node.isReorder_congr (Node.op_of_meaning hmeaning)).symm.trans hreorder)
  have hedge : s₁.graph.dep? id slot = some reader.deps[slot] :=
    Graph.dep?_eq_some_iff.2 ⟨reader, hreader, List.getElem?_eq_getElem hslot⟩
  obtain ⟨origin, _, rfl, horigin, hvisit⟩ := hvisits hedge
  obtain rfl := Option.some.inj (hnode.symm.trans hvisit.at_id)
  refine ⟨reader, before, origin, rfl, hreader, hmeaning, hbefore, fun hdata => ?_, ?_, ?_, ?_,
    hvisit⟩
  · refine hfirst (hhonours hreader) fun hopen => ?_
    exact absurd (hsettled hreader hdata 0 hopen).2 (Nat.lt_irrefl 0)
  · rw [Node.output_of_meaning hmeaning, hlike]
  · rw [← Graph.dep?_congr hsame.wiring.deps, hedge, horigin]
  · have hinside := Nat.lt_trans (hordered.earlier hreader (List.getElem_mem hslot)) hlt
    rw [← horigin] at hinside
    obtain ⟨source, hsource⟩ := Graph.exists_node hinside
    obtain ⟨declared, hdeclared, hcontent⟩ := hsame.nodes.exists_old hsource
    obtain ⟨producer, hproducer, hkept, _⟩ := hs.kept hsource
    have hface := hvisit.producer
    rw [hproducer, Option.map_some, Option.some.injEq] at hface
    have hop : producer.op = origin.producer.op := congrArg (·.2.1) hface
    rw [hdeclared, Option.map_some, ← hop, Node.op_of_meaning hkept, Node.op_of_content hcontent]

end LayoutPlanner
