import LayoutPlanner.Proofs.Feeds
import LayoutPlanner.Proofs.Idempotence

/-!
# Padding of normalizations

A normalization is to read its inputs without spatial padding, if its format does not go with that.
This is looked after once in the visit of the node, before the search for a legal layout.  So it
depends on the format that propagation has left the node in (`Node.RejectsPadding`), and nothing
looks at the padding again if the search chooses another format.

`Node.AdmitsPadding` says when spatial padding gets through to the node.  Most of it is lost on the
way: a reorder that is put in front of a slot to change the format keeps no padding, except if
another one was there before.
-/

namespace LayoutPlanner

open Reconciliation (expectedKind)

/-- The format of the slot does not go with spatial padding.  A normalization reads a slot in the
format that it prefers there, or else in the format of its output. -/
def Node.RejectsPadding (node : Node) (slot : Nat) (output : Layout) (rank : Nat) : Prop :=
  (((node.prefers.input slot).orElse output.format).adaptTo rank).rejectsSpatialPadding = true

/-- What `origin` brings to a normalization gets there with spatial padding.  The visit finds
`reader` with its first output, and leaves `node`. -/
structure Node.AdmitsPadding (reader : Node) (output : Layout) (origin : Input) (node : Node) :
    Prop where
  padded : origin.layout.padding.hasSpatial = true
  accepted : ¬reader.RejectsPadding origin.slot output origin.layout.rank
  notVendor : expectedKind reader ≠ some .vendor
  /-- A reorder has been put in front of the slot before the search, or none is needed at all. -/
  carried : (reader.storedType? origin.slot origin.layout).isSome = true ∨ origin.isReal = false ∨
    node.Gets origin

theorem Node.AdmitsPadding.of_alike {reader node : Node} {output : Layout} {a b : Input}
    (h : reader.AdmitsPadding output a node) (halike : b.Alike a) :
    reader.AdmitsPadding output b node where
  padded := halike.layout ▸ h.padded
  accepted := halike.slot ▸ halike.layout ▸ h.accepted
  notVendor := h.notVendor
  carried := by
    have hcarried := h.carried
    rw [← halike.isReal] at hcarried
    rw [halike.slot, halike.layout]
    refine hcarried.imp_right (Or.imp_right fun hgets => ⟨?_, ?_⟩)
    · rw [halike.slot, halike.layout, hgets.format]
    · rw [halike.slot, halike.layout, hgets.dtype]

namespace Feed

variable {origin : Input} {node old : Node} {feed : Feed} {output : Layout} {cx : Context}

/-- The slot is padded. -/
def Padded (origin : Input) (feed : Feed) : Prop :=
  (feed.input origin).layout.padding.hasSpatial = true

/-- Neither a constant nor a shared surface feeds the slot. -/
structure Plain (origin : Input) (feed : Feed) : Prop where
  isReal : (feed.input origin).isReal = true
  isSharedSurface : (feed.input origin).producer.isSharedSurface = false

/-! ## One stage after the other -/

/-- A slot that is not left to a constant is read through a reorder by then, if a state is stored or
a constant has been repaired. -/
theorem isThrough_operand_stored
    (hreal : (((stored origin node).operand origin cx node output).input origin).isReal = true) :
    ((stored origin node).operand origin cx node output).isThrough = true ↔
      (node.storedType? origin.slot origin.layout).isSome = true ∨ origin.isReal = false := by
  rw [isReal_input, Bool.or_eq_true] at hreal
  constructor
  · intro hthrough
    rw [← isThrough_stored, ← Bool.not_eq_true, ← imp_iff_or_not]
    intro horigin
    rwa [operand_of_isReal (by rw [isReal_input, horigin, Bool.or_true])] at hthrough
  · rintro (hdue | hconstant)
    · rw [← isThrough_stored] at hdue
      rwa [operand_of_isReal (by rw [isReal_input, hdue, Bool.true_or])]
    · exact hreal.resolve_right (by rw [hconstant]; exact Bool.false_ne_true)

theorem normalized_cases (output : Layout) (hop : node.op = .normalization)
    (hreal : (feed.input origin).isReal = true) :
    feed.normalized origin node output = feed ∧ ¬(feed.Padded origin ∧
        node.RejectsPadding origin.slot output (feed.input origin).layout.rank) ∨
      (feed.Padded origin ∧
        node.RejectsPadding origin.slot output (feed.input origin).layout.rank) ∧
        ∃ target, feed.normalized origin node output = through target ∧
          target.padding.hasSpatial = false := by
  rw [normalized, if_pos ⟨hop, hreal⟩, after]
  cases hdemand : Repair.normalizationPadding output node (feed.input origin) with
  | none =>
    rw [Repair.normalizationPadding_eq_none_iff, slot_input] at hdemand
    exact Or.inl ⟨rfl, hdemand⟩
  | some demand =>
    have hdue : ¬Repair.normalizationPadding output node (feed.input origin) = none := by
      rw [hdemand]
      exact Option.some_ne_none demand
    rw [Repair.normalizationPadding_eq_none_iff, slot_input, not_not] at hdue
    refine Or.inr ⟨hdue, demand.target, rfl, ?_⟩
    rw [(Repair.padding_of_normalizationPadding hdemand).2, Padding.hasSpatial_dropSpatial]

theorem unpadded_cases (node : Node) (hplain : feed.Plain origin) :
    feed.unpadded origin node = feed ∧
        ¬(expectedKind node = some .vendor ∧ feed.Padded origin) ∨
      expectedKind node = some .vendor ∧ ∃ target, feed.unpadded origin node = through target ∧
        target.padding.hasSpatial = false := by
  rw [unpadded]
  split
  swap
  · next hother => exact Or.inl ⟨rfl, fun hboth => hother ⟨hboth.1, hplain.isReal⟩⟩
  next hvendor =>
  rw [after]
  cases hdemand : Repair.vendorPadding node (feed.input origin) with
  | none =>
    refine Or.inl ⟨rfl, fun hboth => ?_⟩
    rw [Repair.vendorPadding_eq_none_iff, hplain.isSharedSurface, Padding.hasBatchOrSpatial,
      Bool.or_eq_false_iff] at hdemand
    exact Bool.false_ne_true ((hdemand.resolve_left Bool.false_ne_true).2.symm.trans hboth.2)
  | some demand =>
    refine Or.inr ⟨hvendor.1, demand.target, rfl, ?_⟩
    have hbare := Padding.hasBatchOrSpatial_onlyFeature (feed.input origin).layout.padding
    rw [← (Repair.padding_of_vendorPadding hdemand).2.2, Padding.hasBatchOrSpatial,
      Bool.or_eq_false_iff] at hbare
    exact hbare.2

/-- The last repair keeps padding only if there is a reorder already, or nothing is to be done. -/
theorem padded_agreed_iff (hplain : feed.Plain origin) :
    (feed.agreed origin node).Padded origin ↔
      feed.Padded origin ∧ (feed.isThrough = true ∨ node.Gets (feed.input origin)) := by
  rw [agreed, if_pos hplain.isReal, after]
  cases hdemand : Repair.agreement (fun _ => feed.isThrough) node (feed.input origin) with
  | none =>
    have hgets := Reconciliation.gets_of_agreement hdemand hplain.isSharedSurface
    exact (and_iff_left (Or.inr hgets)).symm
  | some demand =>
    obtain ⟨_, hmisses, htarget⟩ := Repair.of_agreement hdemand
    rw [or_iff_left fun hgets => hmisses ⟨hgets.format, hgets.dtype⟩, Padded, input, htarget]
    cases feed with
    | direct => exact iff_of_false Bool.false_ne_true fun hboth => Bool.false_ne_true hboth.2
    | through target => exact (and_iff_left rfl).symm

/-! ## Back from the end -/

/-- A repair that leaves constants and shared surfaces alone does not stand in front of one. -/
theorem plain_of_after {repair : Repair} {due : Prop} [Decidable due]
    (hreal : due → (feed.input origin).isReal = true)
    (hrests : (feed.input origin).producer.isSharedSurface = true →
      repair node (feed.input origin) = none)
    (h : (if due then feed.after origin repair node else feed).Plain origin) :
    feed.Plain origin := by
  split at h
  swap
  · exact h
  next hdue =>
  cases hshared : (feed.input origin).producer.isSharedSurface with
  | true => rwa [after, hrests hshared] at h
  | false => exact ⟨hreal hdue, hshared⟩

theorem plain_of_agreed (h : (feed.agreed origin node).Plain origin) : feed.Plain origin :=
  plain_of_after id (fun hshared => by simp [Repair.agreement, hshared]) h

theorem plain_of_unpadded (h : (feed.unpadded origin node).Plain origin) : feed.Plain origin :=
  plain_of_after And.right (fun hshared => by simp [Repair.vendorPadding, hshared]) h

theorem isReal_of_normalized
    (h : ((feed.normalized origin node output).input origin).isReal = true) :
    (feed.input origin).isReal = true := by
  by_contra hconstant
  rw [normalized, if_neg fun hboth => hconstant hboth.2] at h
  exact hconstant h

/-- Whether a normalization gets spatial padding on a slot, if not from a constant or from a shared
surface. -/
theorem padded_iff (hop : old.op = .normalization)
    (hplain : ((prepared origin cx old output).agreed origin node).Plain origin) :
    ((prepared origin cx old output).agreed origin node).Padded origin ↔
      old.AdmitsPadding output origin node := by
  have hplain₄ := plain_of_agreed hplain
  have hplain₃ := plain_of_unpadded hplain₄
  have hreal₂ := isReal_of_normalized hplain₃.isReal
  have hshape := @shape_operand_stored origin old cx output
  have hpadding := @padding_operand_stored origin old cx output
  have hthrough := isThrough_operand_stored hreal₂
  rw [padded_agreed_iff hplain₄]
  unfold prepared
  generalize (stored origin old).operand origin cx old output = feed at *
  have hrank : (feed.input origin).layout.rank = origin.layout.rank := by
    rw [Layout.rank, hshape, Layout.rank]
  have hstripped : ∀ {target : Layout}, target.padding.hasSpatial = false →
      ¬(through target).Padded origin :=
    fun hbare hpadded => Bool.false_ne_true (hbare.symm.trans hpadded)
  rcases unpadded_cases old hplain₃ with ⟨heq, hvendor⟩ | ⟨hvendor, target, heq, hbare⟩
  swap
  · rw [heq]
    exact iff_of_false (fun h => hstripped hbare h.1) fun h => h.notVendor hvendor
  rcases normalized_cases output hop hreal₂ with
    ⟨heq', haccepts⟩ | ⟨⟨_, hrejects⟩, target, heq', hbare⟩
  swap
  · rw [heq, heq']
    exact iff_of_false (fun h => hstripped hbare h.1) fun h => h.accepted (hrank ▸ hrejects)
  rw [heq'] at heq hvendor
  rw [hrank] at haccepts
  rw [heq', heq]
  have hpadded : feed.Padded origin ↔ origin.layout.padding.hasSpatial = true := by
    rw [Padded, hpadding]
  have hcarried : feed.isThrough = true ∨ node.Gets (feed.input origin) ↔
      (old.storedType? origin.slot origin.layout).isSome = true ∨ origin.isReal = false ∨
        node.Gets origin := by
    cases feed with
    | direct =>
      rw [hthrough, or_assoc]
      rfl
    | through target =>
      exact iff_of_true (Or.inl rfl) ((hthrough.1 rfl).imp_right Or.inl)
  rw [hpadded] at haccepts hvendor ⊢
  rw [hcarried]
  constructor
  · rintro ⟨hsource, hread⟩
    exact ⟨hsource, fun hrejects => haccepts ⟨hsource, hrejects⟩,
      fun hkind => hvendor ⟨hkind, hsource⟩, hread⟩
  · exact fun h => ⟨h.padded, h.carried⟩

end Feed

/-! ## Agreed graphs -/

/-- If propagation and edge agreement end well, a slot of a normalization that neither a constant
nor a shared surface feeds is padded exactly if the node admits the padding of what the slot read at
the start.  So it is never padded if the format that propagation left for it rejects that.  But the
search for a legal layout may have come to such a format afterwards. -/
theorem normalization_padding_iff {decls : List NodeDecl} {g : Graph}
    (hbuild : Graph.build? decls = some (.ok g)) {cx : Context} {swept agreed : Outcome}
    (hswept : Propagation.run? cx g = some swept)
    (hagreed : Reconciliation.run? cx swept.graph = some agreed) {report : Report}
    (hok : agreed.result = .ok report) {id : NodeId} {node : Node} {slot : Nat} {input : Input}
    (hnode : agreed.graph.node? id = some node) (hop : node.op = .normalization)
    (hinput : agreed.graph.input? id slot = some input) (hreal : input.isReal = true)
    (hplain : input.producer.isSharedSurface = false) :
    ∃ reader before origin, swept.graph.node? id = some reader ∧
      reader.outputs[0]? = some before ∧ origin.slot = slot ∧
      g.dep? id slot = some origin.edge ∧
      agreed.graph.node? origin.edge.node = some origin.producer ∧
      agreed.graph.layoutAt? origin.edge = some origin.layout ∧
      input.layout.rank = origin.layout.rank ∧
      (input.layout.padding.hasSpatial = true ↔ reader.AdmitsPadding before origin node) := by
  obtain ⟨reader, before, origin, rfl, hturned⟩ :=
    exists_turned hbuild hswept hagreed hok hnode (by rw [Node.isReorder, hop]; rfl)
      (Graph.lt_length_of_input? hnode hinput)
  have hvisit := hturned.visit
  have hop₁ : reader.op = .normalization := (Node.op_of_meaning hturned.meaning).symm.trans hop
  obtain ⟨_, hfound, halike⟩ := hvisit.shown
  obtain rfl := Option.some.inj (hinput.symm.trans hfound)
  have hiff := Feed.padded_iff hop₁
    ⟨halike.isReal ▸ hreal, halike.isSharedSurface ▸ hplain⟩
  rw [Feed.Padded, ← halike.layout] at hiff
  obtain ⟨producer, hproducer, hface⟩ := Option.map_eq_some_iff.1 hvisit.producer
  refine ⟨reader, before, { origin with producer }, hturned.at_id, hturned.first_of_data ?_, rfl,
    hturned.edge, hproducer, hvisit.layout, ?_, hiff.trans ?_⟩
  · rw [Node.isConstant, hop₁]
    rfl
  · rw [halike.layout]
    exact congrArg Shape.rank (Feed.shape_agreed.trans Feed.shape_prepared)
  · have halike : Input.Alike { origin with producer } origin :=
      ⟨rfl, rfl, congrArg (! ·) (Node.isConstant_congr (congrArg (·.2.1) hface)),
        Node.isSharedSurface_congr (congrArg (·.2.2.1) hface)⟩
    exact ⟨fun h => h.of_alike halike, fun h => h.of_alike halike.symm⟩

/-- A normalization that is to come out in a plain format, and reads a blocked input with spatial
padding. -/
def blockedScale : List NodeDecl :=
  let layout : Layout := ⟨.ofExtents [1, 16, 8, 8], .f32, .bFsYxFsv16, .spatial 4 1⟩
  [{ name := "x", op := .input, outputs := [layout] },
    { name := "norm", op := .normalization, inputs := [⟨⟨0⟩, 0⟩],
      outputs := [{ layout with format := .bfyx, padding := {} }] }]

/-- Normalizations are blocked. -/
def blockedNormalizations : Catalog where
  registrations := [(.normalization, emits .bFsYxFsv16)]

theorem normalization_padding_blockedScale : ∃ g swept agreed report node input,
    Graph.build? blockedScale = some (.ok g) ∧
    Propagation.run? { catalog := blockedNormalizations } g = some swept ∧
    Reconciliation.run? { catalog := blockedNormalizations } swept.graph = some agreed ∧
    agreed.result = .ok report ∧ agreed.graph.node? ⟨1⟩ = some node ∧ node.op = .normalization ∧
    agreed.graph.input? ⟨1⟩ 0 = some input ∧ input.isReal = true ∧
    input.producer.isSharedSurface = false ∧
    ∃ reader before origin, swept.graph.node? ⟨1⟩ = some reader ∧
      reader.outputs[0]? = some before ∧ origin.slot = 0 ∧
      g.dep? ⟨1⟩ 0 = some origin.edge ∧
      agreed.graph.node? origin.edge.node = some origin.producer ∧
      agreed.graph.layoutAt? origin.edge = some origin.layout ∧
      input.layout.rank = origin.layout.rank ∧
      (input.layout.padding.hasSpatial = true ↔ reader.AdmitsPadding before origin node) := by
  refine ⟨?g, ?swept, ?agreed, ?report, ?node, ?input, ?build, ?sweep, ?agree, ?ok, ?reader, ?op,
    ?read, ?real, ?plain, normalization_padding_iff ?build ?sweep ?agree ?ok ?reader ?op ?read ?real
      ?plain⟩
  case build => rfl
  case sweep => rfl
  case agree => rfl
  case ok => rfl
  case reader => rfl
  case op => rfl
  case read => rfl
  case real => rfl
  case plain => rfl

/-- The search finds the format of the input legal, and adopts it with the padding. -/
theorem blockedScale_padded : ∃ g swept agreed report node output input,
    Graph.build? blockedScale = some (.ok g) ∧
    Propagation.run? { catalog := blockedNormalizations } g = some swept ∧
    Reconciliation.run? { catalog := blockedNormalizations } swept.graph = some agreed ∧
    agreed.result = .ok report ∧ agreed.graph.node? ⟨1⟩ = some node ∧ node.op = .normalization ∧
    node.outputs[0]? = some output ∧ agreed.graph.input? ⟨1⟩ 0 = some input ∧
    input.isReal = true ∧ input.producer.isSharedSurface = false ∧
    node.RejectsPadding 0 output input.layout.rank ∧ input.layout.padding.hasSpatial = true :=
  ⟨_, _, _, _, _, _, _, rfl, rfl, rfl, rfl, rfl, rfl, rfl, rfl, rfl, rfl, rfl, rfl⟩

end LayoutPlanner
