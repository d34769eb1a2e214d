import LayoutPlanner.Proofs.NodesAtRest

/-!
# Visits of an aligned graph

What a visit does to an aligned graph, as long as nothing has happened yet: either the node is at
rest and the visit changes bookkeeping only, or the visit changes something for good (`Disturbed`).

A visit is taken apart into its stages (`Stages`), and each stage gets a verdict.  What a stage
has changed the later ones do not take back: they never take out a reorder, and never leave an
output without a format again (`Trail`).
-/

namespace LayoutPlanner

namespace Reconciliation

variable {start : Graph} {cx : Context} {id : NodeId} {s s' : Reconciliation}

/-! ## Counting reorders -/

theorem Freed.report_eq {slot : Nat} (h : Freed id slot s s') : s'.report = s.report := by
  cases h <;> rfl

theorem Serves.inserted_le {slot : Nat} {target : Layout} {reason : ReorderReason}
    (h : Serves id slot target reason s s') :
    s.report.reordersInserted ≤ s'.report.reordersInserted := by
  cases h with
  | retarget => exact Nat.le_refl _
  | reuse hfreed _ _ h =>
    obtain ⟨g, _, h⟩ := Option.bind_eq_some_iff.1 h
    cases h
    rw [← hfreed.report_eq]
    exact Nat.le_refl _
  | create hfreed _ _ h =>
    obtain ⟨input, _, h⟩ := Option.bind_eq_some_iff.1 h
    obtain ⟨⟨g, reorder⟩, _, h⟩ := Option.bind_eq_some_iff.1 h
    cases h
    rw [← hfreed.report_eq]
    exact Nat.le_succ _

theorem Move.inserted_le (h : Move id s s') :
    s.report.reordersInserted ≤ s'.report.reordersInserted := by
  cases h with
  | settle | invalidate => exact Nat.le_refl _
  | convert _ _ _ h => exact (serves_of_convert? h).inserted_le

/-- While there are no reorders of this run to use again, a conversion inserts one. -/
theorem inserts_of_convert? (hcreated : s.created = []) (hconversions : s.conversions = [])
    {slot : Nat} {target : Layout} {reason : ReorderReason}
    (h : s.convert? id slot target reason = some s') :
    s.report.reordersInserted < s'.report.reordersInserted := by
  have hnone : ∀ other, s.isCreated other = false := by simp [isCreated, hcreated]
  have hfreed : ∀ {s₁}, Freed id slot s s₁ → s₁ = s := by
    intro s₁ hfreed
    cases hfreed with
    | direct => rfl
    | back _ hold => simp [hnone] at hold
  cases serves_of_convert? h with
  | retarget _ hold => simp [hnone] at hold
  | reuse hfree _ hknown =>
    rw [hfreed hfree, reorderFor?, hconversions] at hknown
    cases hknown
  | create hfree _ _ h =>
    rw [hfreed hfree] at h
    obtain ⟨input, _, h⟩ := Option.bind_eq_some_iff.1 h
    obtain ⟨⟨g, reorder⟩, _, h⟩ := Option.bind_eq_some_iff.1 h
    cases h
    exact Nat.lt_succ_self _

/-! ## What is not taken back -/

/-- A part of a visit. -/
abbrev Trail (start : Graph) (cx : Context) (id : NodeId) :
    Reconciliation → Reconciliation → Prop :=
  Relation.ReflTransGen fun s s' => Sound start s ∧ (Move id s s' ∨ Legalized cx id s s')

theorem Moves.trail (hstart : start.WellFormed) (hs : Sound start s) (hid : id.index < start.size)
    (h : Moves id s s') : Trail start cx id s s' :=
  Moves.inv hstart hs hid (Trail start cx id s)
    (fun hs₁ htrail hmove => htrail.tail ⟨hs₁, Or.inl hmove⟩) h .refl

theorem Trail.inserted_le (h : Trail start cx id s s') :
    s.report.reordersInserted ≤ s'.report.reordersInserted := by
  induction h with
  | refl => exact Nat.le_refl _
  | tail _ hstep ih =>
    rcases hstep.2 with hmove | hlegalized
    · exact Nat.le_trans ih hmove.inserted_le
    · rw [hlegalized.inserted_eq]
      exact ih

theorem Trail.chosen (hstart : start.WellFormed) (hid : id.index < start.size)
    (h : Trail start cx id s s')
    (hchosen : ∀ node, s.graph.node? id = some node → node.Chosen) :
    ∀ node, s'.graph.node? id = some node → node.Chosen := by
  induction h with
  | refl => exact hchosen
  | tail _ hstep ih =>
    intro node' hnode'
    obtain ⟨hs, hmove | hlegalized⟩ := hstep
    · obtain ⟨node, hnode, hchange⟩ := hmove.change hstart hs hid hid hnode'
      exact hchange.chosen (ih node hnode)
    · obtain ⟨node, hnode, hchange⟩ := hlegalized.change hs hid hid hnode'
      exact hchange.chosen (ih node hnode)

/-! ## The stages of a visit -/

/-- The states that a visit goes through. -/
structure Stages (cx : Context) (id : NodeId) (s s₁ s₂ s₃ s₄ s₅ s₆ s' : Reconciliation) :
    Prop where
  settled : ∃ g, s.graph.settle? id = some g ∧ s₁ = s.withGraph g
  state : s₁.convertState? id = some s₂
  operands : (if cx.config.optimizeLayout then s₂.reorderOperands? id else some s₂) = some s₃
  normalization : s₃.unpadNormalization? id = some s₄
  vendor : s₄.unpadVendor? id = some s₅
  legal : s₅.legalize? cx id = some s₆
  agreement : (if s₆.failure.isSome then some s₆ else s₆.reconcile? id) = some s'

theorem exists_stages (h : s.repairNode? cx id = some s') :
    ∃ s₁ s₂ s₃ s₄ s₅ s₆, Stages cx id s s₁ s₂ s₃ s₄ s₅ s₆ s' := by
  obtain ⟨g, hg, h⟩ := Option.bind_eq_some_iff.1 h
  obtain ⟨s₂, hs₂, h⟩ := Option.bind_eq_some_iff.1 h
  have hsplit : ∀ {next : Reconciliation → Option Reconciliation},
      (if cx.config.optimizeLayout then s₂.reorderOperands? id >>= next else some s₂ >>= next) =
        some s' → ∃ s₃, (if cx.config.optimizeLayout then s₂.reorderOperands? id else some s₂) =
        some s₃ ∧ next s₃ = some s' := by
    intro next h
    split at h
    next hoptimize =>
      rw [if_pos hoptimize]
      exact Option.bind_eq_some_iff.1 h
    next hoptimize =>
      rw [if_neg hoptimize]
      exact Option.bind_eq_some_iff.1 h
  obtain ⟨s₃, hs₃, h⟩ := hsplit h
  obtain ⟨s₄, hs₄, h⟩ := Option.bind_eq_some_iff.1 h
  obtain ⟨s₅, hs₅, h⟩ := Option.bind_eq_some_iff.1 h
  obtain ⟨s₆, hs₆, h⟩ := Option.bind_eq_some_iff.1 h
  exact ⟨_, s₂, s₃, s₄, s₅, s₆, ⟨g, hg, rfl⟩, hs₂, hs₃, hs₄, hs₅, hs₆, h⟩

section Trails

variable {s₁ s₂ s₃ s₄ s₅ s₆ : Reconciliation}

/-- If the visit does not fail, it comes to its last stage. -/
theorem Stages.reconciled (h : Stages cx id s s₁ s₂ s₃ s₄ s₅ s₆ s') (hfine : s'.failure = none) :
    s₆.reconcile? id = some s' := by
  have heq := h.agreement
  split at heq
  next hfailed =>
    cases heq
    simp [hfine] at hfailed
  next => exact heq

/-- A stage before the search for a legal layout makes some moves. -/
theorem Stages.advanced (hstart : start.WellFormed) (hs : Sound start s) {node : Node}
    (hnode : start.node? id = some node) (hdeps : node.deps ≠ [])
    (h : Stages cx id s s₁ s₂ s₃ s₄ s₅ s₆ s') :
    Advanced start id s s₁ ∧ Advanced start id s₁ s₂ ∧ Advanced start id s₂ s₃ ∧
      Advanced start id s₃ s₄ ∧ Advanced start id s₄ s₅ := by
  have hid := Graph.lt_size_of_node? hnode
  have hthere : ∀ {k}, Sound start k → ∃ node', k.graph.node? id = some node' ∧
      node'.deps ≠ [] := by
    intro k hk
    obtain ⟨node', hnode', _, hlength, _⟩ := hk.kept hnode
    refine ⟨node', hnode', ?_⟩
    rw [← List.length_pos_iff, hlength]
    exact List.length_pos_iff.2 hdeps
  obtain ⟨g, hg, rfl⟩ := h.settled
  obtain ⟨node₀, hnode₀, _⟩ := hthere hs
  have h₁ := (settle_advanced hs hid hnode₀).post_of_eq hg
  obtain ⟨node₁, hnode₁, hdeps₁⟩ := hthere h₁.sound
  have h₂ := (convertState?_spec hstart h₁.sound hid hnode₁ hdeps₁).post_of_eq h.state
  obtain ⟨node₂, hnode₂, _⟩ := hthere h₂.sound
  have h₃ : Advanced start id s₂ s₃ := by
    have heq := h.operands
    split at heq
    · exact (reorderOperands?_spec hstart h₂.sound hid hnode₂).post_of_eq heq
    · cases heq
      exact .refl h₂.sound
  obtain ⟨node₃, hnode₃, _⟩ := hthere h₃.sound
  have h₄ := (unpadNormalization?_spec hstart h₃.sound hid hnode₃).post_of_eq h.normalization
  obtain ⟨node₄, hnode₄, _⟩ := hthere h₄.sound
  exact ⟨h₁, h₂, h₃, h₄, ((unpadVendor?_spec hstart h₄.sound hid hnode₄).post_of_eq h.vendor).1⟩

/-- The visit ends in a sound state.  Each of the first stages is followed by the rest of the
visit. -/
theorem Stages.trails (hstart : start.WellFormed) (hs : Sound start s) (hid : id.index < start.size)
    {node : Node} (hnode : start.node? id = some node) (hdeps : node.deps ≠ [])
    (h : Stages cx id s s₁ s₂ s₃ s₄ s₅ s₆ s') :
    Sound start s' ∧ Trail start cx id s₁ s' ∧ Trail start cx id s₂ s' ∧
      Trail start cx id s₃ s' ∧ Trail start cx id s₄ s' := by
  obtain ⟨h₁, h₂, h₃, h₄, h₅⟩ := h.advanced hstart hs hnode hdeps
  obtain ⟨node₅, hnode₅⟩ := Graph.exists_node (Nat.lt_of_lt_of_le hid h₅.sound.grown)
  have h₆ := (legalize?_spec cx h₅.sound.wellFormed hnode₅).post_of_eq h.legal
  have hs₆ := h₅.sound.localEdit hid h₆.edit h₆.conversions_eq h₆.created_eq
  have hlast : Moves id s₆ s' := by
    have heq := h.agreement
    split at heq
    · cases heq
      exact .refl
    · obtain ⟨node₆, hnode₆⟩ := Graph.exists_node (Nat.lt_of_lt_of_le hid hs₆.grown)
      obtain ⟨_, _, _, hmoves⟩ := (reconcile?_spec hstart hs₆ hid hnode₆).post_of_eq heq
      exact hmoves
  have htrail₄ : Trail start cx id s₄ s' :=
    (((h₅.moves.trail hstart h₄.sound hid).tail ⟨h₅.sound, Or.inr h₆⟩)).trans
      (hlast.trail hstart hs₆ hid)
  have htrail₃ := (h₄.moves.trail hstart h₃.sound hid).trans htrail₄
  have htrail₂ := (h₃.moves.trail hstart h₂.sound hid).trans htrail₃
  exact ⟨(hlast.framed hstart hs₆ hid).sound, (h₂.moves.trail hstart h₁.sound hid).trans htrail₂,
    htrail₂, htrail₃, htrail₄⟩

end Trails

/-! ## Repairs -/

/-- A stage finds all well and does nothing, or it inserts a reorder. -/
inductive Verdict (well : Prop) (s s' : Reconciliation) : Prop
  | rests (h : well) (heq : s' = s)
  | inserts (h : ¬well) (hmore : s.report.reordersInserted < s'.report.reordersInserted)

theorem Verdict.congr {well well' : Prop} (h : Verdict well s s') (hiff : well ↔ well') :
    Verdict well' s s' :=
  propext hiff ▸ h

section Repairs

variable {node : Node} (hcreated : s.created = []) (hconversions : s.conversions = [])
  (hnode : s.graph.node? id = some node)

include hcreated hconversions hnode

theorem repairSlots_verdict {repair : Reconciliation → Repair} {slots : List Nat}
    (h : slots.foldlM (repairSlot? id repair) s = some s') :
    Verdict (∀ slot ∈ slots, ∀ input, s.graph.input? id slot = some input →
      repair s node input = none) s s' := by
  induction slots with
  | nil =>
    cases h
    exact .rests (fun slot hmem => absurd hmem List.not_mem_nil) rfl
  | cons slot rest ih =>
    rw [List.foldlM_cons] at h
    obtain ⟨s₁, hs₁, h⟩ := Option.bind_eq_some_iff.1 h
    obtain ⟨_, hfound, hs₁⟩ := Option.bind_eq_some_iff.1 hs₁
    obtain rfl := Option.some.inj (hnode.symm.trans hfound)
    obtain ⟨input, hinput, hs₁⟩ := Option.bind_eq_some_iff.1 hs₁
    split at hs₁
    next demand hdemand =>
      refine .inserts (fun hwell => ?_) ?_
      · rw [hwell slot (List.mem_cons_self ..) input hinput] at hdemand
        cases hdemand
      · refine Nat.lt_of_lt_of_le (inserts_of_convert? hcreated hconversions hs₁) ?_
        refine Ensures.foldlM (fun t => s₁.report.reordersInserted ≤ t.report.reordersInserted)
          (Nat.le_refl _) ?_ _ h
        intro slot t ht
        refine Ensures.bind_all fun _ _ => Ensures.bind_all fun _ _ => ?_
        split
        next => exact fun t' ht' => Nat.le_trans ht (serves_of_convert? ht').inserted_le
        next => exact Ensures.pure ht
    next hnone =>
      cases hs₁
      refine (ih h).congr ⟨fun hrest other hmem found hfound => ?_,
        fun hall other hmem => hall other (List.mem_cons_of_mem _ hmem)⟩
      rcases List.mem_cons.1 hmem with rfl | hmem
      · obtain rfl := Option.some.inj (hinput.symm.trans hfound)
        exact hnone
      · exact hrest other hmem found hfound

theorem convertState?_verdict (h : s.convertState? id = some s') :
    Verdict (∀ input, s.graph.input? id 0 = some input → Repair.stateType node input = none)
      s s' := by
  cases stateRepair_of_convertState? hnode h with
  | rests hnone => exact .rests hnone rfl
  | @converts input _ _ _ _ hinput hdemand hconvert =>
    have hmore := inserts_of_convert? hcreated hconversions hconvert
    refine .inserts (fun hwell => ?_) hmore
    rw [hwell input hinput] at hdemand
    cases hdemand

theorem reorderOperands?_verdict
    (h : (if cx.config.optimizeLayout then s.reorderOperands? id else some s) = some s') :
    Verdict (cx.config.optimizeLayout = true → ∀ output slot input,
      node.outputs[0]? = some output → slot ∈ operandSlots node →
      s.graph.input? id slot = some input → Repair.fusedConstant output node input = none)
      s s' := by
  rcases operands_cases hnode h with ⟨hoff, rfl⟩ | ⟨hoptimize, output, houtput, h⟩
  · exact .rests (fun hoptimize => by simp [hoff] at hoptimize) rfl
  · refine (repairSlots_verdict hcreated hconversions hnode h).congr ⟨?_, ?_⟩
    · intro hall _ found slot input hfound hslot hinput
      obtain rfl := Option.some.inj (houtput.symm.trans hfound)
      exact hall slot hslot input hinput
    · exact fun hall slot hslot input => hall hoptimize output slot input houtput hslot

omit hcreated hconversions in
/-- A statement about all real slots is one about all real inputs. -/
theorem forall_realSlots_iff (hg : s.graph.WellFormed) {slots : List Nat}
    (hslots : s.graph.realSlots? id = some slots) {fine : Input → Prop} :
    (∀ slot ∈ slots, ∀ input, s.graph.input? id slot = some input → fine input) ↔
      ∀ slot input, s.graph.input? id slot = some input → input.isReal → fine input := by
  obtain ⟨_, hfound, hreal⟩ := hg.exists_realSlots hnode
  obtain rfl := Option.some.inj (hslots.symm.trans hfound)
  refine ⟨fun hall slot input hinput hinput_real => ?_, fun hall slot hmem input hinput => ?_⟩
  · exact hall slot ((hreal slot).2 ⟨input, hinput, hinput_real⟩) input hinput
  · obtain ⟨found, hfound, hfound_real⟩ := (hreal slot).1 hmem
    obtain rfl := Option.some.inj (hinput.symm.trans hfound)
    exact hall slot input hinput hfound_real

theorem unpadNormalization?_verdict (hg : s.graph.WellFormed)
    (h : s.unpadNormalization? id = some s') :
    Verdict (node.op = .normalization → ∀ output slot input, node.outputs[0]? = some output →
      s.graph.input? id slot = some input → input.isReal →
      Repair.normalizationPadding output node input = none) s s' := by
  rcases normalization_cases hnode h with ⟨hother, rfl⟩ | ⟨hop, slots, output, hslots, houtput, h⟩
  · exact .rests (fun hop => absurd hop hother) rfl
  · refine (repairSlots_verdict hcreated hconversions hnode h).congr ?_
    rw [forall_realSlots_iff hnode hg hslots]
    refine ⟨fun hall _ found slot input hfound => ?_, fun hall slot input => ?_⟩
    · obtain rfl := Option.some.inj (houtput.symm.trans hfound)
      exact hall slot input
    · exact hall hop output slot input houtput

theorem eq_of_unpadVendor? (hg : s.graph.WellFormed)
    (hunpadded : expectedKind node = some .vendor → ∀ slot input,
      s.graph.input? id slot = some input → input.isReal → Repair.vendorPadding node input = none)
    (h : s.unpadVendor? id = some s') : s' = s := by
  rcases vendor_cases hnode h with ⟨_, heq⟩ | ⟨hkind, slots, hslots, h⟩
  · exact heq
  · cases repairSlots_verdict hcreated hconversions hnode h with
    | rests _ heq => exact heq
    | inserts hill =>
      exact absurd ((forall_realSlots_iff hnode hg hslots).2 (hunpadded hkind)) hill

theorem eq_of_reconcile? (hg : s.graph.WellFormed)
    (hagreed : ∀ slot input, s.graph.input? id slot = some input → input.isReal →
      Repair.agreement s.isCreated node input = none)
    (h : s.reconcile? id = some s') : s' = s := by
  obtain ⟨slots, hslots, h⟩ := Option.bind_eq_some_iff.1 h
  cases repairSlots_verdict hcreated hconversions hnode h with
  | rests _ heq => exact heq
  | inserts hill => exact absurd ((forall_realSlots_iff hnode hg hslots).2 hagreed) hill

end Repairs

end Reconciliation

/-! ## Settling and searching -/

/-- A node with all its formats, or one that is not stale, stays as it is; another one gets them. -/
theorem Graph.settle?_verdict {g g' : Graph} {id : NodeId} {node : Node} (hg : g.WellFormed)
    (hnode : g.node? id = some node) (hhonours : node.Honours) (h : g.settle? id = some g') :
    (node.Chosen ∨ node.layoutValid = true) ∧ Tidied g g' ∧ Marks id [] g g' ∨
      ¬(node.Chosen ∨ node.layoutValid = true) ∧
        ∀ node', g'.node? id = some node' → node'.Chosen := by
  obtain ⟨hedit, inherited, node', _, hnode', hbare⟩ := (settle?_spec hg hnode).post_of_eq h
  by_cases hsettled : node.Chosen ∨ node.layoutValid = true
  · left
    have houtputs : node.layoutValid = false → ∀ inherited,
        node.settledOutputs inherited = node.outputs := by
      intro hstale inherited
      have heq := (node.settlesTo_afterSettling inherited).outputs_eq hhonours
        (hsettled.resolve_right (by simp [hstale]))
      simpa [Node.afterSettling, hstale] using heq
    refine ⟨hsettled, ⟨hedit.content, fun other => ?_⟩,
      settle?_marks hnode (fun hstale inherited _ => houtputs hstale inherited) g' h⟩
    by_cases hne : other = id
    · subst hne
      rw [hnode', hnode, Option.map_some, Option.map_some, hbare, Node.afterSettling]
      cases hvalid : node.layoutValid with
      | true => rfl
      | false =>
        rw [if_neg Bool.false_ne_true, houtputs hvalid]
        rfl
    · exact hedit.others other hne
  · right
    refine ⟨hsettled, fun found hfound => ?_⟩
    obtain rfl := Option.some.inj (hnode'.symm.trans hfound)
    rw [not_or, Bool.not_eq_true] at hsettled
    refine (node.chosen_settled inherited).of_outputs ?_
    rw [Node.outputs_of_bare hbare, Node.afterSettling, hsettled.2]
    rfl

/-- A format that makes a node legal which was not legal before changes the node. -/
theorem Graph.Adopts.changes {catalog : Catalog} (hcatalog : catalog.Tolerates) {g g' : Graph}
    {id : NodeId} {format : Format} (hg : g.WellFormed) (h : Adopts id format g g')
    {mask : KindMask} (hbefore : ¬g.Supports catalog id mask)
    (hafter : g'.Supports catalog id mask) {node node' : Node} (hnode : g.node? id = some node)
    (hnode' : g'.node? id = some node') :
    node'.outputs ≠ node.outputs ∨ node'.prefers ≠ node.prefers := by
  by_contra hsame
  rw [not_or, not_not, not_not] at hsame
  obtain ⟨_, hfound, hadopts⟩ := h.node hnode
  obtain rfl := Option.some.inj (hnode'.symm.trans hfound)
  have hbare : node'.bare = node.bare := by
    have hrest := hadopts.rest
    rw [← hsame.1, ← hsame.2] at hrest
    exact hrest
  have htidied : Tidied g g' := by
    refine ⟨h.edit.content, fun other => ?_⟩
    by_cases hne : other = id
    · subst hne
      rw [hnode, hnode', Option.map_some, Option.map_some, hbare]
    · exact h.edit.others other hne
  exact hbefore (htidied.symm.supports hcatalog (h.edit.wellFormed hg) hafter)

namespace Reconciliation

variable {start : Graph} {cx : Context} {id : NodeId} {s s' : Reconciliation}

/-- A search in vain changes the graph only. -/
theorem Searched.eq_withGraph {catalog : Catalog} {mask : KindMask} {formats : List Format}
    {out : Reconciliation × Bool} (h : Searched catalog id mask formats s out)
    (hvain : out.2 = false) : out.1 = s.withGraph out.1.graph := by
  obtain ⟨_, hreport, _⟩ := h.missed hvain
  obtain ⟨hconversions, hcreated, htrace, hfailure, _⟩ := h
  obtain ⟨⟨_, _, _, _, _, _⟩, _⟩ := out
  simp only at hreport hconversions hcreated htrace hfailure
  simp only [withGraph, hreport, hconversions, hcreated, htrace, hfailure]

/-- What the search for a legal layout comes to at a node that is legal or waits for its shapes: it
changes bookkeeping only, or it finds a format and changes the node. -/
theorem legalize?_verdict (hcatalog : cx.catalog.Tolerates) (hg : s.graph.WellFormed) {node : Node}
    (hnode : s.graph.node? id = some node) (hturn : node.HasTurn)
    (hcleared : s.graph.Cleared cx.catalog id) (h : s.legalize? cx id = some s') :
    s.graph.Exhausted cx.catalog id ∧ s' = s.withGraph s'.graph ∧
        Graph.Tidied s.graph s'.graph ∧ (∃ stale, Graph.Marks id stale s.graph s'.graph ∧
          ∀ reader, reader ∈ stale ↔ s.graph.Searches cx.catalog id ∧ reader ∈ node.users) ∨
      ¬s.graph.Exhausted cx.catalog id ∧ ∃ node', s'.graph.node? id = some node' ∧
        (node'.outputs ≠ node.outputs ∨ node'.prefers ≠ node.prefers) := by
  obtain ⟨view, hview, h⟩ := Option.bind_eq_some_iff.1 h
  obtain ⟨_, hview', hverdict⟩ := hcleared
  obtain rfl := Option.some.inj (hview.symm.trans hview')
  obtain ⟨_, inputs, hfound, _, rfl⟩ := Graph.view?_eq_some_iff.1 hview
  obtain rfl := Option.some.inj (hnode.symm.trans hfound)
  dsimp only at h
  split at h
  next hsupported =>
    cases h
    left
    refine ⟨Graph.exhausted_of_isSupported hview hsupported, rfl, .refl _, [], .refl id _,
      fun reader => ?_⟩
    simp [Graph.not_searches_of_isSupported hview hsupported]
  next hrefused =>
  rw [Bool.not_eq_true] at hrefused
  obtain ⟨output, houtput, h⟩ := Option.bind_eq_some_iff.1 h
  obtain ⟨⟨s₁, found⟩, hsearch, h⟩ := Option.bind_eq_some_iff.1 h
  have hsearched := (search?_spec _ hg hnode).post_of_eq hsearch
  rw [Graph.exhausted_iff hview houtput hrefused,
    Graph.searches_iff hview houtput hrefused hturn]
  cases found with
  | true =>
    cases h
    right
    have hbefore : ¬s.graph.Supports cx.catalog id (.ofPin node.pinned) := by
      rw [Graph.supports_iff_of_view hview, hrefused]
      exact Bool.false_ne_true
    obtain ⟨format, hformat, hadopts, hsupports⟩ := hsearched.found rfl
    obtain ⟨node', hnode', _⟩ := hadopts.node hnode
    obtain ⟨g, hadopt, hadopts'⟩ := Graph.adoptFormat?_spec hg hnode format
    refine ⟨fun hexhausted => hexhausted format hformat g hadopt ?_, node', hnode',
      hadopts.changes hcatalog hg hbefore hsupports hnode hnode'⟩
    rw [hadopts'.legal_iff hnode]
    exact hadopts.supports hcatalog hg (.refl _) hadopts' hsupports
  | false =>
    left
    obtain ⟨hrestored, _, hvain⟩ := hsearched.missed rfl
    have hdeferred := hverdict.resolve_left (by simp [hrefused])
    dsimp only at h
    rw [if_neg Bool.false_ne_true, if_pos (by rw [hdeferred.1, Bool.true_and]; exact hdeferred.2)]
      at h
    cases h
    refine ⟨fun format hformat g hadopt hlegal => ?_, hsearched.eq_withGraph rfl,
      ⟨hrestored.edit.content, hrestored.bare⟩, _, search?_marks _ hg hnode rfl _ hsearch rfl,
      fun reader => ?_⟩
    · obtain ⟨g', hadopts', hrefused'⟩ := hvain format hformat
      have hadopts := (Graph.adoptFormat?_spec hg hnode format).post_of_eq hadopt
      rw [hadopts.legal_iff hnode] at hlegal
      exact hrefused' (hadopts.supports hcatalog hg (.refl _) hadopts' hlegal)
    · split
      next hnil => simp [hnil]
      next hformats => simp [hformats]

/-! ## Visits -/

/-- A reorder has been inserted, or the formats of the node are not what they were. -/
def Disturbed (g : Graph) (id : NodeId) (s : Reconciliation) : Prop :=
  0 < s.report.reordersInserted ∨ ∃ node node', g.node? id = some node ∧
    s.graph.node? id = some node' ∧ (node'.outputs ≠ node.outputs ∨ node'.prefers ≠ node.prefers)

theorem agreement_eq_none {isCreated : NodeId → Bool} {node : Node} {input : Input}
    (h : input.producer.isSharedSurface = false → node.Gets input) :
    Repair.agreement isCreated node input = none := by
  unfold Repair.agreement
  cases hshared : input.producer.isSharedSurface with
  | true => rfl
  | false => simp [(h hshared).format, (h hshared).dtype]

section Visit

variable {g : Graph} {node : Node} {s₁ s₂ s₃ s₄ s₅ s₆ : Reconciliation}

/-- The repairs between settling and searching: they rest, or one of them inserts a reorder. -/
theorem Stages.repairs (hcreated : s₁.created = []) (hconversions : s₁.conversions = [])
    (hg₁ : s₁.graph.WellFormed) {node₁ : Node} (hnode₁ : s₁.graph.node? id = some node₁)
    (hunpadded : expectedKind node₁ = some .vendor → ∀ slot input,
      s₁.graph.input? id slot = some input → input.isReal → Repair.vendorPadding node₁ input = none)
    (h : Stages cx id s s₁ s₂ s₃ s₄ s₅ s₆ s') :
    s₅ = s₁ ∧ (s₁.graph.Exhausted cx.catalog id → s₁.graph.Idles cx id node₁) ∨
      ¬s₁.graph.Idles cx id node₁ ∧ (s₁.report.reordersInserted < s₂.report.reordersInserted ∨
        s₁.report.reordersInserted < s₃.report.reordersInserted ∨
        s₁.report.reordersInserted < s₄.report.reordersInserted) := by
  cases convertState?_verdict hcreated hconversions hnode₁ h.state with
  | inserts hill hmore => exact Or.inr ⟨fun hidles => hill hidles.state, Or.inl hmore⟩
  | rests hstate heq =>
  subst heq
  cases reorderOperands?_verdict hcreated hconversions hnode₁ h.operands with
  | inserts hill hmore =>
    exact Or.inr ⟨fun hidles => hill hidles.operands, Or.inr (Or.inl hmore)⟩
  | rests hoperands heq =>
  subst heq
  cases unpadNormalization?_verdict hcreated hconversions hnode₁ hg₁ h.normalization with
  | inserts hill hmore =>
    exact Or.inr ⟨fun hidles => hill hidles.padding, Or.inr (Or.inr hmore)⟩
  | rests hpadding heq =>
  subst heq
  left
  exact ⟨eq_of_unpadVendor? hcreated hconversions hnode₁ hg₁ hunpadded h.vendor,
    fun hexhausted => ⟨hstate, hoperands, hpadding, hexhausted⟩⟩

/-- The last stage leaves the formats of the node alone. -/
theorem Stages.core_eq (hstart : start.WellFormed) (hs₆ : Sound start s₆)
    (hid : id.index < start.size) {node₆ : Node} (hnode₆ : s₆.graph.node? id = some node₆)
    (h : Stages cx id s s₁ s₂ s₃ s₄ s₅ s₆ s') :
    ∃ node', s'.graph.node? id = some node' ∧ node'.core = node₆.core := by
  have heq := h.agreement
  split at heq
  · cases heq
    exact ⟨node₆, hnode₆, rfl⟩
  · obtain ⟨_, _, hrepaired, _⟩ := (reconcile?_spec hstart hs₆ hid hnode₆).post_of_eq heq
    obtain ⟨node', hnode', hcore, _⟩ := hrepaired.served.self hnode₆
    exact ⟨node', hnode', hcore⟩

theorem vendorPadding_eq_none_of_tidied {k : Graph} {node₁ : Node} (haligned : g.Aligned cx)
    (htidied : Graph.Tidied g k) (hnode : g.node? id = some node) (hturn : node.HasTurn)
    (hbare : node₁.bare = node.bare) (hkind : expectedKind node₁ = some .vendor) (slot : Nat)
    (input' : Input) (hinput' : k.input? id slot = some input') (hreal : input'.isReal) :
    Repair.vendorPadding node₁ input' = none := by
  obtain ⟨input, hinput, hface, hlayout⟩ := htidied.exists_input hinput'
  have hclean := haligned.unpadded hnode hturn
    (expectedKind_of_core (Node.core_of_bare hbare) ▸ hkind) hinput
    (Input.isReal_of_face hface ▸ hreal)
  rw [Repair.vendorPadding_eq_none_iff] at hclean ⊢
  rw [Input.isSharedSurface_of_face hface, hlayout]
  exact hclean

theorem agreement_eq_none_of_tidied {k : Graph} {node₁ : Node} {isCreated : NodeId → Bool}
    (haligned : g.Aligned cx) (htidied : Graph.Tidied g k) (hnode : g.node? id = some node)
    (hturn : node.HasTurn) (hbare : node₁.bare = node.bare) (slot : Nat) (input' : Input)
    (hinput' : k.input? id slot = some input') (hreal : input'.isReal) :
    Repair.agreement isCreated node₁ input' = none := by
  obtain ⟨input, hinput, hface, _⟩ := htidied.exists_input hinput'
  refine agreement_eq_none fun hshared => ?_
  refine (haligned.gets hnode hturn hinput (Input.isReal_of_face hface ▸ hreal)
    (Input.isSharedSurface_of_face hface ▸ hshared)).of_face (Node.core_of_bare hbare) hinput
    hinput' hface

/-- The rest of a visit to a settled node: the node idles and nothing but bookkeeping happens, or
the visit does something for good. -/
theorem Stages.verdict_of_settled (hcatalog : cx.catalog.Tolerates) (haligned : g.Aligned cx)
    (hfresh : s₁ = { graph := s₁.graph }) (hs₁ : Sound g s₁) (htidied₁ : Graph.Tidied g s₁.graph)
    (hnode : g.node? id = some node) (hturn : node.HasTurn)
    (h : Stages cx id s s₁ s₂ s₃ s₄ s₅ s₆ s') (htrail₂ : Trail g cx id s₂ s')
    (htrail₃ : Trail g cx id s₃ s') (htrail₄ : Trail g cx id s₄ s') :
    g.Idles cx id node ∧ s' = { graph := s'.graph } ∧ Graph.Tidied g s'.graph ∧
        (∃ stale, Graph.Marks id stale s₁.graph s'.graph ∧
          ∀ reader, reader ∈ stale ↔ g.Searches cx.catalog id ∧ g.Reads reader id) ∨
      ¬g.Idles cx id node ∧ Disturbed g id s' := by
  have hg := haligned.wellFormed
  have hg₁ := hs₁.wellFormed
  have hid := Graph.lt_size_of_node? hnode
  obtain ⟨node₁, hnode₁, hbare₁⟩ := htidied₁.bare.exists_new hnode
  have hidles_iff : s₁.graph.Idles cx id node₁ ↔ g.Idles cx id node :=
    ⟨Graph.Idles.of_tidied hcatalog hg₁ htidied₁.symm hbare₁.symm,
      Graph.Idles.of_tidied hcatalog hg htidied₁ hbare₁⟩
  have hcreated : s₁.created = [] := by rw [hfresh]
  have hconversions : s₁.conversions = [] := by rw [hfresh]
  rcases h.repairs hcreated hconversions hg₁ hnode₁
    (vendorPadding_eq_none_of_tidied haligned htidied₁ hnode hturn hbare₁)
    with ⟨heq, hidles⟩ | ⟨hill, hmore⟩
  swap
  · right
    refine ⟨fun hidles => hill (hidles_iff.2 hidles), Or.inl ?_⟩
    apply Nat.lt_of_le_of_lt (Nat.zero_le s₁.report.reordersInserted)
    rcases hmore with hmore | hmore | hmore
    · exact Nat.lt_of_lt_of_le hmore htrail₂.inserted_le
    · exact Nat.lt_of_lt_of_le hmore htrail₃.inserted_le
    · exact Nat.lt_of_lt_of_le hmore htrail₄.inserted_le
  subst s₅
  rcases legalize?_verdict hcatalog hg₁ hnode₁ (hturn.of_bare hbare₁)
    ((haligned.cleared hnode hturn).of_tidied hcatalog hg htidied₁) h.legal with
    ⟨hexhausted, heq, htidied, stale, hmarks, hstale⟩ | ⟨hill, node₆, hnode₆, hchanged⟩
  · left
    have htidied₆ := htidied₁.trans htidied
    obtain ⟨node₆, hnode₆, hbare₆⟩ := htidied₆.bare.exists_new hnode
    have hfresh₆ : s₆ = { graph := s₆.graph } := by
      rw [heq, hfresh]
      rfl
    have hlast := h.agreement
    rw [show s₆.failure = none by rw [hfresh₆], Option.isSome_none, if_neg Bool.false_ne_true]
      at hlast
    obtain rfl := eq_of_reconcile? (by rw [hfresh₆]) (by rw [hfresh₆]) hnode₆
      (hg.of_sameWiring htidied₆.content.wiring)
      (agreement_eq_none_of_tidied haligned htidied₆ hnode hturn hbare₆) hlast
    refine ⟨hidles_iff.1 (hidles hexhausted), hfresh₆, htidied₆, stale, hmarks, fun reader => ?_⟩
    have hsearches : s₁.graph.Searches cx.catalog id ↔ g.Searches cx.catalog id :=
      ⟨.of_tidied hcatalog hg₁ htidied₁.symm, .of_tidied hcatalog hg htidied₁⟩
    rw [hstale, hsearches, hg₁.users_iff reader hnode₁, htidied₁.content.wiring.reads_iff]
  · right
    refine ⟨fun hidles => hill (hidles_iff.2 hidles).formats, Or.inr ?_⟩
    have h₆ := (legalize?_spec cx hs₁.wellFormed hnode₁).post_of_eq h.legal
    have hs₆ := hs₁.localEdit hid h₆.edit h₆.conversions_eq h₆.created_eq
    obtain ⟨node', hnode', hcore⟩ := h.core_eq hg hs₆ hid hnode₆
    refine ⟨node, node', hnode, hnode', ?_⟩
    rw [Node.outputs_of_core hcore, Node.prefers_of_core hcore, ← Node.outputs_of_bare hbare₁,
      ← Node.prefers_of_bare hbare₁]
    exact hchanged

/-- Visiting a node of an aligned graph before anything has happened: the node is at rest and the
visit does nothing but bookkeeping, or the visit does something for good. -/
theorem Stages.verdict (hcatalog : cx.catalog.Tolerates) (haligned : g.Aligned cx)
    (hs : Sound g s) (hfresh : s = { graph := s.graph }) (htidied : Graph.Tidied g s.graph)
    (hnode : g.node? id = some node) (hturn : node.HasTurn) {nodeS : Node}
    (hnodeS : s.graph.node? id = some nodeS) (h : Stages cx id s s₁ s₂ s₃ s₄ s₅ s₆ s') :
    ((node.Chosen ∨ nodeS.layoutValid = true) ∧ g.Idles cx id node) ∧
        s' = { graph := s'.graph } ∧ Graph.Tidied g s'.graph ∧
        (∃ stale, Graph.Marks id stale s.graph s'.graph ∧
          ∀ reader, reader ∈ stale ↔ g.Searches cx.catalog id ∧ g.Reads reader id) ∨
      ¬((node.Chosen ∨ nodeS.layoutValid = true) ∧ g.Idles cx id node) ∧ Disturbed g id s' := by
  have hg := haligned.wellFormed
  have hid := Graph.lt_size_of_node? hnode
  obtain ⟨hs', htrail₁, htrail₂, htrail₃, htrail₄⟩ := h.trails hg hs hid hnode hturn.deps
  obtain ⟨_, hfound, hbareS⟩ := htidied.bare.exists_new hnode
  obtain rfl := Option.some.inj (hnodeS.symm.trans hfound)
  have hchosenS : nodeS.Chosen ↔ node.Chosen := by
    rw [Node.Chosen, Node.outputs_of_bare hbareS, Node.Chosen]
  obtain ⟨k, hk, rfl⟩ := h.settled
  rcases Graph.settle?_verdict hs.wellFormed hnodeS ((haligned.honours hnode).congr hbareS.symm) hk
    with ⟨hsettled, htidied₁, hmarks₁⟩ | ⟨hopen, hchosen⟩
  · rw [hchosenS] at hsettled
    have hsound := ((settle_advanced hs hid hnodeS).post_of_eq hk).sound
    rcases h.verdict_of_settled hcatalog haligned (by rw [hfresh]; rfl) hsound
      (htidied.trans htidied₁) hnode hturn htrail₂ htrail₃ htrail₄ with
      ⟨hidles, hfresh', htidied', stale, hmarks, hstale⟩ | ⟨hill, hdisturbed⟩
    · exact Or.inl ⟨⟨hsettled, hidles⟩, hfresh', htidied', stale, hmarks₁.trans hmarks, hstale⟩
    · exact Or.inr ⟨fun hrests => hill hrests.2, hdisturbed⟩
  · right
    rw [hchosenS] at hopen
    refine ⟨fun hrests => hopen hrests.1, Or.inr ?_⟩
    obtain ⟨node', hnode'⟩ := Graph.exists_node (Nat.lt_of_lt_of_le hid hs'.grown)
    refine ⟨node, node', hnode, hnode', Or.inl fun hsame => hopen (Or.inl ?_)⟩
    exact (htrail₁.chosen hg hid hchosen node' hnode').of_outputs hsame.symm

end Visit

end Reconciliation

end LayoutPlanner
