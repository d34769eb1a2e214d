import LayoutPlanner.Proofs.ConsistentFormats
import LayoutPlanner.Proofs.Feeds
import LayoutPlanner.Proofs.Idempotence
import LayoutPlanner.Proofs.PlainGraphs

/-!
# Constant operands

A constant that an operation fused into a node reads is to be stored in the format of the node's
output.  The repair compares it with the format that the output has when the visit begins, and the
search for a legal layout may still change that.  If a reorder stands in front of the operand by
then, the search takes it for a real input and may ask for the new format there.  If none was
needed, the slot is left as it is.

`Node.operandFormat` is the format that the repairs before the search come to.  What is delivered
after all is the format that the node wants on the slot of an operand like that.
-/

namespace LayoutPlanner

open Reconciliation (operandSlots)

/-- No backend asks for a format on any input. -/
def Catalog.LeavesInputs (catalog : Catalog) : Prop :=
  ∀ op, ∀ c ∈ catalog.entries op, ∀ view preference, c.preference view = some preference →
    ∀ slot, preference.input slot = .any

/-- The format in which a constant operand is read when the search for a legal layout begins, if it
is not broadcast and no format is preferred for it: that of the output, except if the node stores
the operand as a state.  Stripping it of its padding brings it into the format of the output all the
same. -/
def Node.operandFormat (node : Node) (slot : Nat) (source output : Layout) : Format :=
  if (node.storedType? slot source).isSome = true ∧ ¬(node.op = .normalization ∧
      source.padding.hasSpatial = true ∧
      (output.format.adaptTo source.rank).rejectsSpatialPadding = true) then source.format
  else output.format.adaptTo source.rank

theorem Node.operandFormat_of_meaning {a b : Node} (h : a.meaning = b.meaning) (slot : Nat)
    (source output : Layout) :
    a.operandFormat slot source output = b.operandFormat slot source output := by
  simp only [operandFormat, storedType?_congr (attrs_of_meaning h) slot rfl, op_of_meaning h]

theorem Node.wantedFormat_congr {node : Node} {slot : Nat} {a b : Layout}
    (hformat : a.format = b.format) (hshape : a.shape = b.shape) :
    node.wantedFormat slot a = node.wantedFormat slot b := by
  simp only [wantedFormat, Layout.rank, hformat, hshape]

/-! ## Preferences of propagation -/

namespace Propagation

variable {catalog : Catalog} {g : Graph}

/-- If no backend asks for a format on an input, propagation prefers none on the slots of constants:
it folds a permute only into what produces data. -/
theorem real_of_sweep (hcatalog : catalog.LeavesInputs) (hg : g.Fresh) :
    Yields (g.order.foldlM (visit? catalog) { graph := g }) fun s =>
      Graph.SameContent g s.graph ∧
      ∀ {id node slot}, s.graph.node? id = some node → node.prefers.input slot ≠ .any →
        ∀ {input}, s.graph.input? id slot = some input → input.isReal = true := by
  refine run?_inv hg.toOrdered (fun g₁ => ∀ {id node slot}, g₁.node? id = some node →
    node.prefers.input slot ≠ .any → ∀ {input}, g₁.input? id slot = some input →
    input.isReal = true) (fun hnode hpreferred => ?_) ?_
  · rw [(hg.undecided hnode).prefers] at hpreferred
    exact absurd rfl hpreferred
  · intro id g₁ g₂ hwf hlt hreal hmove other node' slot hnode' hpreferred input' hinput'
    obtain ⟨node, hnode, hchange⟩ := hmove.change hwf hlt hnode'
    obtain ⟨input, hinput, _, hproducer, _⟩ := (hmove.content hwf hlt).symm.exists_input hinput'
    have hbefore : input.isReal = true := by
      rcases hchange.input_cases hnode hpreferred with hbefore | ⟨_, hfolded⟩ |
        ⟨candidate, seen, preference, _, hcandidate, hpreference, hasked⟩
      · exact hreal hnode hbefore hinput
      · exact hfolded hinput
      · exact absurd (hcatalog _ _ hcandidate.listed _ _ hpreference slot) hasked
    rw [Input.isReal, Node.isConstant_congr (Node.op_of_content hproducer)] at hbefore
    exact hbefore

end Propagation

/-! ## Operands in a visit -/

namespace Feed

variable {origin : Input} {node old : Node} {feed : Feed} {output : Layout} {cx : Context}

section Operand

variable (hopen : old.prefers.input origin.slot = .any)

include hopen

theorem format_operand_stored (hconstant : origin.isReal = false)
    (hoptimize : cx.config.optimizeLayout = true) (hoperand : origin.slot ∈ operandSlots old)
    (hlarge : Repair.isBroadcast origin.layout output = false) :
    (((stored origin old).operand origin cx old output).input origin).layout.format =
      if (old.storedType? origin.slot origin.layout).isSome = true then origin.layout.format
      else output.format.adaptTo origin.layout.rank := by
  cases hdue : old.storedType? origin.slot origin.layout with
  | some declared =>
    have hstored : (stored origin old).isThrough = true := by
      rw [isThrough_stored, hdue]
      rfl
    rw [operand_of_isReal (by rw [isReal_input, hstored, Bool.true_or]), stored, hdue,
      Node.wantedFormat_of_any hopen]
    rfl
  | none =>
    rw [stored, hdue, operand, if_pos ⟨hoptimize, hoperand⟩, after, Repair.fusedConstant]
    by_cases hformat : origin.layout.format = output.format.adaptTo origin.layout.rank
    · simp [input, hformat]
    · simp [input, hformat, hconstant, hlarge, Layout.withFormat]

/-- A normalization strips an operand of its padding in the format of the output. -/
theorem format_normalized :
    ((feed.normalized origin old output).input origin).layout.format =
      if (old.op = .normalization ∧ (feed.input origin).isReal = true) ∧
          (feed.input origin).layout.padding.hasSpatial = true ∧
          (output.format.adaptTo (feed.input origin).layout.rank).rejectsSpatialPadding = true then
        output.format.adaptTo (feed.input origin).layout.rank
      else (feed.input origin).layout.format := by
  have hwanted : (old.prefers.input (feed.input origin).slot).orElse output.format =
      output.format := by
    rw [slot_input, hopen]
    rfl
  rw [normalized]
  by_cases hdue : old.op = .normalization ∧ (feed.input origin).isReal = true
  swap
  · rw [if_neg hdue, if_neg fun hboth => hdue hboth.1]
  rw [if_pos hdue, after]
  by_cases hstrips : (feed.input origin).layout.padding.hasSpatial = true ∧
      (output.format.adaptTo (feed.input origin).layout.rank).rejectsSpatialPadding = true
  · rw [if_pos ⟨hdue, hstrips⟩, Repair.normalizationPadding, hwanted, hstrips.1, hstrips.2]
    rfl
  · rw [if_neg fun hboth => hstrips hboth.2,
      Repair.normalizationPadding_eq_none_iff.2 (by rwa [hwanted])]

theorem format_unpadded :
    ((feed.unpadded origin old).input origin).layout.format = (feed.input origin).layout.format :=
  after_kept Layout.format _ fun hdemand => by
    unfold Repair.vendorPadding at hdemand
    split at hdemand <;> cases hdemand
    rw [slot_input, Node.wantedFormat_of_any hopen]

/-- What the repairs before the search for a legal layout come to. -/
theorem format_prepared (hconstant : origin.isReal = false)
    (hoptimize : cx.config.optimizeLayout = true) (hoperand : origin.slot ∈ operandSlots old)
    (hlarge : Repair.isBroadcast origin.layout output = false) :
    ((prepared origin cx old output).input origin).layout.format =
      old.operandFormat origin.slot origin.layout output := by
  have hformat := format_operand_stored hopen hconstant hoptimize hoperand hlarge
  have hrank : (((stored origin old).operand origin cx old output).input origin).layout.rank =
      origin.layout.rank := congrArg Shape.rank shape_operand_stored
  rw [prepared, format_unpadded hopen, format_normalized hopen, hrank, padding_operand_stored,
    hformat, Node.operandFormat]
  by_cases hdue : (old.storedType? origin.slot origin.layout).isSome = true
  · have hstored : ((stored origin old).input origin).isReal = true := by
      rw [isReal_input, isThrough_stored, hdue, Bool.true_or]
    rw [operand_of_isReal hstored, hstored, if_pos hdue]
    by_cases hstrips : old.op = .normalization ∧ origin.layout.padding.hasSpatial = true ∧
        (output.format.adaptTo origin.layout.rank).rejectsSpatialPadding = true
    · rw [if_pos ⟨⟨hstrips.1, rfl⟩, hstrips.2⟩, if_neg fun hboth => hboth.2 hstrips]
    · rw [if_neg fun hall => hstrips ⟨hall.1.1, hall.2⟩, if_pos ⟨hdue, hstrips⟩]
  · rw [if_neg hdue, ite_self, if_neg fun hboth => hdue hboth.1]

end Operand

/-- The last repair brings an operand into the format that is wanted, if a reorder stands in front
of it.  Otherwise none must be wanted. -/
theorem format_agreed (hconstant : origin.isReal = false)
    (hwanted : node.prefers.input origin.slot = .any ∨ (feed.input origin).isReal = true) :
    ((feed.agreed origin node).input origin).layout.format =
      node.wantedFormat origin.slot (feed.input origin).layout := by
  rw [agreed]
  split
  swap
  · next hleft => rw [Node.wantedFormat_of_any (hwanted.resolve_right hleft)]
  next hreal =>
  have hthrough : feed.isThrough = true := by
    rwa [isReal_input, hconstant, Bool.or_false] at hreal
  have hplain : (feed.input origin).producer.isSharedSurface = false := by
    rw [isSharedSurface_input, hthrough]
    rfl
  rw [after]
  split
  next demand hdemand =>
    rw [input, (Repair.of_agreement hdemand).2.2, slot_input]
  next hnone =>
    rw [← (Reconciliation.gets_of_agreement hnone hplain).format, slot_input]

end Feed

/-! ## Agreed graphs -/

/-- Propagation prefers no format on the slot of a constant that no backend asks for one on. -/
theorem input_of_propagation {decls : List NodeDecl} {g : Graph}
    (hbuild : Graph.build? decls = some (.ok g)) {cx : Context}
    (hcatalog : cx.catalog.LeavesInputs) {swept : Outcome}
    (hswept : Propagation.run? cx g = some swept) {id : NodeId} {slot : Nat} {edge : Edge}
    {constant reader : Node} (hedge : g.dep? id slot = some edge)
    (hconstant : g.node? edge.node = some constant) (hop : constant.op = .constant)
    (hreader : swept.graph.node? id = some reader) : reader.prefers.input slot = .any := by
  by_contra hpreferred
  have hfresh := Graph.fresh_of_build hbuild
  obtain ⟨_, s₁, hs₁, hgraph₁, hsame⟩ :=
    (Propagation.run?_spec cx hfresh.toOrdered).post_of_eq hswept
  rw [hgraph₁] at hreader
  obtain ⟨node, hnode, hget⟩ := Graph.dep?_eq_some_iff.1 hedge
  obtain ⟨read, hread⟩ :=
    hfresh.wellFormed.exists_input hnode (List.getElem?_eq_some_iff.1 hget).1
  obtain ⟨_, hfound, hget', _, hproducer, _⟩ := Graph.input?_eq_some_iff.1 hread
  obtain rfl := Option.some.inj (hnode.symm.trans hfound)
  obtain rfl := Option.some.inj (hget.symm.trans hget')
  obtain rfl := Option.some.inj (hconstant.symm.trans hproducer)
  obtain ⟨input, hinput, _, hcontent, _⟩ := hsame.exists_input hread
  obtain ⟨_, hreal⟩ := (Propagation.real_of_sweep hcatalog hfresh).post_of_eq hs₁
  have hreal := hreal hreader hpreferred hinput
  simp [Input.isReal, Node.isConstant, Node.op_of_content hcontent, hop] at hreal

/-- Planning keeps the slots of a node. -/
theorem length_deps_of_agreement {decls : List NodeDecl} {g : Graph}
    (hbuild : Graph.build? decls = some (.ok g)) {cx : Context} {swept agreed : Outcome}
    (hswept : Propagation.run? cx g = some swept)
    (hagreed : Reconciliation.run? cx swept.graph = some agreed) {id : NodeId} {old node : Node}
    (hold : g.node? id = some old) (hnode : agreed.graph.node? id = some node) :
    node.deps.length = old.deps.length := by
  have hfresh := Graph.fresh_of_build hbuild
  obtain ⟨_, s₁, _, hgraph₁, hsame⟩ :=
    (Propagation.run?_spec cx hfresh.toOrdered).post_of_eq hswept
  rw [hgraph₁] at hagreed
  obtain ⟨s, _, hs, hgraph, _⟩ :=
    (Reconciliation.run?_spec cx (hfresh.toOrdered.of_sameContent hsame)).post_of_eq hagreed
  rw [hgraph] at hnode
  obtain ⟨reader, hreader, hdeps⟩ := hsame.wiring.deps.exists_new hold
  rw [hs.length_deps hreader hnode, hdeps]

/-- The format that is wanted for an operand, compared with that of the first output. -/
theorem Node.wantedFormat_operand_iff {node : Node} {slot : Nat} {source before after : Layout}
    (hafter : node.prefers.input slot ≠ .any →
      after.format = (node.prefers.input slot).adaptTo after.rank) :
    node.wantedFormat slot (source.withFormat (node.operandFormat slot source before)) =
        after.format.adaptTo source.rank ↔
      if node.prefers.input slot = .any then
        node.operandFormat slot source before = after.format.adaptTo source.rank
      else (node.prefers.input slot).fits after.rank = true ∨
        (node.prefers.input slot).adaptTo source.rank = .defaultFor source.rank := by
  by_cases hopen : node.prefers.input slot = .any
  · rw [if_pos hopen, wantedFormat_of_any hopen]
    rfl
  · rw [if_neg hopen, wantedFormat_of_ne hopen, hafter hopen, eq_comm]
    exact Format.adaptTo_adaptTo_eq_iff

/-- If propagation and edge agreement end well and no backend asks for a format on an input, a
constant that an operation fused into a node reads is broadcast, or it is delivered in the format
that the node wants for it after all: the one that the search for a legal layout has come to prefer
on the slot, and for the output as well, or else the format that the output had before the search.

So the operand is in the format of the output, adapted to its rank, in one of two cases.  If the
search has come to prefer a format on the slot, this one has to fit the output, as it does up to
rank six, or to become the default for the operand.  If it has not, the format from before the
search has to be the one that the output ends with. -/
theorem operand_format_of_agreement {decls : List NodeDecl} {g : Graph}
    (hbuild : Graph.build? decls = some (.ok g)) {cx : Context}
    (hcatalog : cx.catalog.LeavesInputs) (hoptimize : cx.config.optimizeLayout = true)
    {swept agreed : Outcome} (hswept : Propagation.run? cx g = some swept)
    (hagreed : Reconciliation.run? cx swept.graph = some agreed) {report : Report}
    (hok : agreed.result = .ok report) {id : NodeId} {node : Node}
    (hnode : agreed.graph.node? id = some node) (hreorder : node.isReorder = false)
    {fused : FusedOp} (hfused : fused ∈ node.fused) {slot : Nat} (hslot : fused.operand = some slot)
    {edge : Edge} {constant : Node} (hedge : g.dep? id slot = some edge)
    (hconstant : g.node? edge.node = some constant) (hop : constant.op = .constant) :
    ∃ reader before after source input, swept.graph.node? id = some reader ∧
      Reconciliation.turnOutput? cx swept.graph id = some before ∧
      (reader.isConstant = false → reader.outputs[0]? = some before) ∧
      node.outputs[0]? = some after ∧ agreed.graph.layoutAt? edge = some source ∧
      agreed.graph.input? id slot = some input ∧
      (node.prefers.input slot ≠ .any →
        after.format = (node.prefers.input slot).adaptTo after.rank ∧
          (after.rank ≤ 6 → (node.prefers.input slot).fits after.rank = true)) ∧
      (Repair.isBroadcast source after = true ∨
        input.layout.format = node.wantedFormat slot
          (source.withFormat (node.operandFormat slot source before)) ∧
        (input.layout.format = after.format.adaptTo source.rank ↔
          if node.prefers.input slot = .any then
            node.operandFormat slot source before = after.format.adaptTo source.rank
          else (node.prefers.input slot).fits after.rank = true ∨
            (node.prefers.input slot).adaptTo source.rank = .defaultFor source.rank)) := by
  obtain ⟨old, hold, hget⟩ := Graph.dep?_eq_some_iff.1 hedge
  have hlength := length_deps_of_agreement hbuild hswept hagreed hold hnode
  obtain ⟨reader, before, origin, rfl, hturned⟩ :=
    exists_turned hbuild hswept hagreed hok hnode hreorder
      (hlength ▸ (List.getElem?_eq_some_iff.1 hget).1)
  have hvisit := hturned.visit
  obtain ⟨after, hafter, hlike⟩ := Option.map_eq_some_iff.1 hturned.output
  obtain ⟨input, hinput, halike⟩ := hvisit.shown
  obtain rfl := Option.some.inj (hedge.symm.trans hturned.edge)
  have hopen := input_of_propagation hbuild hcatalog hswept hedge hconstant hop hturned.at_id
  have hfed : origin.isReal = false := by
    have hproducer := hturned.op
    rw [hconstant, Option.map_some, Option.some.injEq, hop] at hproducer
    rw [Input.isReal, Node.isConstant, ← hproducer]
    rfl
  have hfollows : node.prefers.input origin.slot ≠ .any → node.Follows origin.slot := by
    intro hprefers
    refine (hvisit.input_cases.resolve_left fun hsame => hprefers ?_).2
    rw [hsame, hopen]
  have hformat_after (hprefers : node.prefers.input origin.slot ≠ .any) :
      after.format = (node.prefers.input origin.slot).adaptTo after.rank :=
    (hfollows hprefers).outputs after (List.mem_of_getElem? hafter)
  refine ⟨reader, before, after, origin.layout, input, hturned.at_id, hturned.first,
    hturned.first_of_data, hafter, hvisit.layout, hinput, fun hprefers => ?_, ?_⟩
  · exact ⟨hformat_after hprefers, (hfollows hprefers).fits after hafter⟩
  · have hbroadcast : Repair.isBroadcast origin.layout after =
        Repair.isBroadcast origin.layout before := by
      rw [Repair.isBroadcast, Repair.isBroadcast, Layout.featureCount?,
        (Layout.withFormat_any_eq_iff.1 hlike).1]
      rfl
    rw [hbroadcast]
    refine (Bool.eq_false_or_eq_true _).imp_right fun hlarge => ?_
    have hoperand : origin.slot ∈ operandSlots reader := by
      obtain ⟨_, hfound, hread⟩ := Graph.dep?_eq_some_iff.1 hvisit.edge
      obtain rfl := Option.some.inj (hturned.at_id.symm.trans hfound)
      rw [Node.fused_of_meaning hturned.meaning] at hfused
      exact List.mem_filter.2 ⟨List.mem_filterMap.2 ⟨fused, hfused, hslot⟩,
        decide_eq_true (List.getElem?_eq_some_iff.1 hread).1⟩
    have hwanted : node.prefers.input origin.slot = .any ∨
        ((Feed.prepared origin cx reader before).input origin).isReal = true :=
      hvisit.input_cases.imp (·.trans hopen) And.left
    have hformat := Feed.format_prepared hopen hfed hoptimize hoperand hlarge
    rw [← Node.operandFormat_of_meaning hturned.meaning] at hformat
    have hdelivered : input.layout.format = node.wantedFormat origin.slot
        (origin.layout.withFormat (node.operandFormat origin.slot origin.layout before)) := by
      rw [halike.layout, Feed.format_agreed hfed hwanted]
      exact Node.wantedFormat_congr hformat Feed.shape_prepared
    refine ⟨hdelivered, ?_⟩
    rw [hdelivered, Node.wantedFormat_operand_iff hformat_after]

theorem transposedSums_leavesInputs : transposedSums.LeavesInputs := by
  intro op c hmem view preference hpreference
  obtain ⟨entry, hentry, rfl⟩ := List.mem_map.1 hmem
  obtain rfl := List.mem_singleton.1 (List.mem_filter.1 hentry).1
  cases hpreference

theorem operand_format_biasedSum : ∃ g swept agreed report node constant,
    Graph.build? (biasedSum [⟨.eltwise, some 1⟩]) = some (.ok g) ∧
    transposedSums.LeavesInputs ∧ Config.optimizeLayout {} = true ∧
    Propagation.run? { catalog := transposedSums } g = some swept ∧
    Reconciliation.run? { catalog := transposedSums } swept.graph = some agreed ∧
    agreed.result = .ok report ∧ agreed.graph.node? ⟨2⟩ = some node ∧ node.isReorder = false ∧
    ⟨.eltwise, some 1⟩ ∈ node.fused ∧ g.dep? ⟨2⟩ 1 = some ⟨⟨1⟩, 0⟩ ∧
    g.node? ⟨1⟩ = some constant ∧ constant.op = .constant ∧
    ∃ reader before after source input, swept.graph.node? ⟨2⟩ = some reader ∧
      Reconciliation.turnOutput? { catalog := transposedSums } swept.graph ⟨2⟩ = some before ∧
      (reader.isConstant = false → reader.outputs[0]? = some before) ∧
      node.outputs[0]? = some after ∧ agreed.graph.layoutAt? ⟨⟨1⟩, 0⟩ = some source ∧
      agreed.graph.input? ⟨2⟩ 1 = some input ∧
      (node.prefers.input 1 ≠ .any →
        after.format = (node.prefers.input 1).adaptTo after.rank ∧
          (after.rank ≤ 6 → (node.prefers.input 1).fits after.rank = true)) ∧
      (Repair.isBroadcast source after = true ∨
        input.layout.format = node.wantedFormat 1
          (source.withFormat (node.operandFormat 1 source before)) ∧
        (input.layout.format = after.format.adaptTo source.rank ↔
          if node.prefers.input 1 = .any then
            node.operandFormat 1 source before = after.format.adaptTo source.rank
          else (node.prefers.input 1).fits after.rank = true ∨
            (node.prefers.input 1).adaptTo source.rank = .defaultFor source.rank)) := by
  refine ⟨?g, ?swept, ?agreed, ?report, ?node, ?constant, ?build, transposedSums_leavesInputs,
    ?optimize, ?sweep, ?agree, ?ok, ?reader, ?reorder, ?fused, ?edge, ?source, ?op,
    operand_format_of_agreement ?build transposedSums_leavesInputs ?optimize ?sweep ?agree ?ok
      ?reader ?reorder ?fused rfl ?edge ?source ?op⟩
  case build => rfl
  case optimize => rfl
  case sweep => rfl
  case agree => rfl
  case ok => rfl
  case reader => rfl
  case reorder => rfl
  case fused => exact List.mem_singleton.2 rfl
  case edge => rfl
  case source => rfl
  case op => rfl

/-- The search brings the sum into a transposed format, and the operand is left as it was. -/
theorem biasedSum_stale : ∃ g swept agreed report node output input,
    Graph.build? (biasedSum [⟨.eltwise, some 1⟩]) = some (.ok g) ∧
    transposedSums.LeavesInputs ∧ Config.optimizeLayout {} = true ∧
    Propagation.run? { catalog := transposedSums } g = some swept ∧
    Reconciliation.run? { catalog := transposedSums } swept.graph = some agreed ∧
    agreed.result = .ok report ∧ agreed.graph.node? ⟨2⟩ = some node ∧
    node.fused = [⟨.eltwise, some 1⟩] ∧ node.outputs[0]? = some output ∧
    agreed.graph.input? ⟨2⟩ 1 = some input ∧ input.edge = ⟨⟨1⟩, 0⟩ ∧
    input.producer.op = .constant ∧ Repair.isBroadcast input.layout output = false ∧
    output.format.adaptTo input.layout.rank = .yxfb ∧ input.layout.format = .bfyx :=
  ⟨_, _, _, _, _, _, _, rfl, transposedSums_leavesInputs, rfl, rfl, rfl, rfl, rfl, rfl, rfl, rfl,
    rfl, rfl, rfl, rfl, rfl⟩

end LayoutPlanner
