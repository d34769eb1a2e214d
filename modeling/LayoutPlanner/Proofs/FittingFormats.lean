import LayoutPlanner.Proofs.ChosenFormats

/-!
# Fitting formats

As long as ranks are at most six, every rank has a format of its own, and planning never chooses one
that does not fit.

* A chosen format fits, before and after every change to a node (`Node.Fitting`).
* During edge agreement every input, of an old node or of a reorder, has a format that fits
  (`Fitted.input`).
-/

namespace LayoutPlanner

namespace Format

/-- Up to rank six, the default format fits. -/
theorem fits_defaultFor {rank : Nat} (h : rank ≤ 6) : (defaultFor rank).fits rank = true := by
  have hcases : axesOfRank rank = 4 ∨ axesOfRank rank = 5 ∨ axesOfRank rank = 6 := by
    unfold axesOfRank
    omega
  unfold defaultFor fits
  rcases hcases with h | h | h <;> rw [h] <;> rfl

theorem fits_adaptTo (format : Format) {rank : Nat} (h : rank ≤ 6) :
    (format.adaptTo rank).fits rank = true := by
  unfold adaptTo
  split
  next hfits => exact hfits
  next => exact fits_defaultFor h

end Format

/-- A layout of rank at most six in a format that fits. -/
structure Layout.Fits (layout : Layout) : Prop where
  rank_le : layout.rank ≤ 6
  format : layout.format.fits layout.rank = true

namespace Node

/-- Wherever a format is chosen for an output, it fits. -/
def Fitting (node : Node) : Prop :=
  ∀ layout ∈ node.outputs, layout.rank ≤ 6 ∧
    (layout.format.isChosen → layout.format.fits layout.rank = true)

theorem Fitting.of_outputs {a b : Node} (ha : a.Fitting) (h : b.outputs = a.outputs) :
    b.Fitting := by
  rw [Fitting, h]
  exact ha

theorem Fitting.fits {node : Node} (h : node.Fitting) (hchosen : node.Chosen) {layout : Layout}
    (hmem : layout ∈ node.outputs) : layout.Fits :=
  ⟨(h layout hmem).1, (h layout hmem).2 (hchosen layout hmem)⟩

/-- Every output is of rank at most six, in a format that fits or, unless the node is a constant, in
none yet. -/
def FormatsFit (node : Node) : Prop :=
  ∀ layout ∈ node.outputs, layout.rank ≤ 6 ∧
    (layout.format.fits layout.rank = true ∨ layout.format = .any ∧ node.isConstant = false)

instance (node : Node) : Decidable node.FormatsFit :=
  inferInstanceAs (Decidable (∀ layout ∈ node.outputs, _))

theorem FormatsFit.fitting {node : Node} (h : node.FormatsFit) : node.Fitting := by
  intro layout hmem
  obtain ⟨hrank, hfits | ⟨hany, _⟩⟩ := h layout hmem
  · exact ⟨hrank, fun _ => hfits⟩
  · exact ⟨hrank, fun hchosen => absurd hany (Format.isChosen_iff_ne.1 hchosen)⟩

theorem FormatsFit.chosen {node : Node} (h : node.FormatsFit) (hconstant : node.isConstant = true) :
    node.Chosen := by
  intro layout hmem
  obtain ⟨_, hfits | ⟨_, hdata⟩⟩ := h layout hmem
  · exact Format.isChosen_of_fits hfits
  · rw [hconstant] at hdata
    exact Bool.noConfusion hdata

/-! ## Settling and adopting -/

theorem fits_settledFormat (node : Node) (inherited : List Format) (index : Nat) {current : Layout}
    (hrank : current.rank ≤ 6)
    (hfits : current.format.isChosen → current.format.fits current.rank = true) :
    (node.settledFormat inherited index current).fits current.rank = true := by
  unfold settledFormat
  dsimp only
  split
  next hpreferred => exact hpreferred
  split
  next hchosen => exact hfits hchosen
  cases hfound : inherited.find? (·.fits current.rank) with
  | none => exact Format.fits_defaultFor hrank
  | some format =>
    have hfits := List.find?_some hfound
    exact hfits

theorem Fitting.settled {node : Node} (h : node.Fitting) (inherited : List Format) :
    Fitting { node with outputs := node.settledOutputs inherited } := by
  intro layout hmem
  obtain ⟨index, current, hcurrent, rfl⟩ := exists_of_mem_settledOutputs hmem
  obtain ⟨hrank, hfits⟩ := h current (List.mem_of_getElem? hcurrent)
  exact ⟨hrank, fun _ => node.fits_settledFormat inherited index hrank hfits⟩

theorem Fitting.afterSettling {node : Node} (h : node.Fitting) (inherited : List Format) :
    (node.afterSettling inherited).Fitting := by
  unfold Node.afterSettling
  split
  next => exact h
  next => exact h.settled inherited

theorem Adopts.fitting {format : Format} {accepts : Nat → Prop} {node node' : Node}
    (h : Adopts format accepts node node') (hnode : node.Fitting) : node'.Fitting := by
  intro layout hmem
  rw [h.outputs] at hmem
  obtain ⟨current, hcurrent, rfl⟩ := List.mem_map.1 hmem
  obtain ⟨hrank, _⟩ := hnode current hcurrent
  exact ⟨hrank, fun _ => Format.fits_adaptTo format hrank⟩

end Node

namespace Propagation

/-! ## Propagation -/

variable {catalog : Catalog} {g : Graph} {id : NodeId} {node node' : Node}

theorem Change.fitting (h : Change catalog g id node node') (hnode : node.Fitting) :
    node'.Fitting := by
  cases h with
  | same h => exact hnode.of_outputs (Node.outputs_of_bare h)
  | settled inherited _ h =>
    exact (hnode.afterSettling inherited).of_outputs (Node.outputs_of_bare h)
  | selected _ h => exact hnode.of_outputs ((Node.outputs_of_bare h).trans rfl)
  | recorded _ _ _ inherited _ h =>
    refine Node.Fitting.of_outputs (Node.Fitting.settled ?_ inherited) (Node.outputs_of_bare h)
    exact hnode
  | forced _ _ h => exact hnode.of_outputs ((Node.outputs_of_bare h).trans rfl)
  | @folded target format _ _ htarget hfits h =>
    intro layout hmem
    rw [(Node.outputs_of_bare h).trans rfl] at hmem
    rcases List.mem_or_eq_of_mem_set hmem with hold | rfl
    · exact hnode layout hold
    · exact ⟨(hnode target (List.mem_of_getElem? htarget)).1, fun _ => hfits⟩

/-- What edge agreement finds: formats fit, and whatever is read has one. -/
theorem fitting_of_sweep (hg : g.Fresh)
    (hfit : ∀ {id node}, g.node? id = some node → node.FormatsFit) :
    Yields (g.order.foldlM (visit? catalog) { graph := g }) fun s =>
      Graph.SameContent g s.graph ∧
      (∀ {id node}, s.graph.node? id = some node → node.Fitting ∧ (node.Chosen ∨ Spare node)) ∧
      ∀ {reader slot edge node}, s.graph.dep? reader slot = some edge →
        s.graph.node? edge.node = some node → node.Chosen := by
  have hconstants : ∀ {id node}, g.node? id = some node → node.isConstant = true → node.Chosen :=
    fun hnode => (hfit hnode).chosen
  refine Yields.mono (Yields.and (run?_forall hg.toOrdered Node.Fitting
    (fun hnode => (hfit hnode).fitting) Change.fitting)
    ((chosen_of_sweep hg hconstants).and (chosen_of_read hg hconstants))) ?_
  rintro s ⟨⟨hsame, hfitting⟩, ⟨_, hchosen⟩, _, hread⟩
  exact ⟨hsame, fun hnode => ⟨hfitting hnode, hchosen hnode⟩, hread⟩

end Propagation

namespace Reconciliation

/-! ## Edge agreement -/

theorem Change.fitting {node node' : Node} (h : Change node node') (hnode : node.Fitting) :
    node'.Fitting := by
  cases h with
  | same h => exact hnode.of_outputs (Node.outputs_of_core h)
  | settled inherited h =>
    exact (hnode.afterSettling inherited).of_outputs (Node.outputs_of_core h)
  | legalized base hbase h =>
    have hfitting : base.Fitting := by
      rcases hbase with hsame | ⟨_, hhanded⟩
      · exact hnode.of_outputs (Node.outputs_of_core hsame)
      · exact hnode.of_outputs ((Node.outputs_of_core hhanded).trans rfl)
    rcases h with hsame | ⟨_, _, hadopts⟩
    · exact hfitting.of_outputs (Node.outputs_of_core hsame)
    · exact hadopts.fitting hfitting

/-- A format that a node wants of a fitting layout fits. -/
theorem fits_wantedFormat (node : Node) (slot : Nat) {source : Layout} (h : source.Fits) :
    (node.wantedFormat slot source).fits source.rank = true := by
  unfold Node.wantedFormat
  split
  next => exact h.format
  next => exact Format.fits_adaptTo _ h.rank_le

/-- What is demanded of a fitting layout fits. -/
theorem Demands.fits {s : Reconciliation} {node : Node} {input : Input} {demand : Demand}
    (h : Demands s node input demand) (hinput : input.layout.Fits) : demand.target.Fits := by
  have hrank : demand.target.rank = input.layout.rank := congrArg Shape.rank h.shape_eq
  refine ⟨hrank ▸ hinput.rank_le, ?_⟩
  rw [hrank]
  rcases h.format_eq with hwanted | ⟨_, _, _, _, hadapted⟩
  · rw [hwanted]
    exact fits_wantedFormat node input.slot hinput
  · rw [hadapted]
    exact Format.fits_adaptTo _ hinput.rank_le

variable {start : Graph} {cx : Context} {id : NodeId} {s s' : Reconciliation}

theorem inherits_fits : Inherits Layout.Fits where
  change hchange hfits := by
    have hchosen : ∀ {node : Node}, (∀ layout ∈ node.outputs, layout.Fits) → node.Chosen :=
      fun h layout hmem => Format.isChosen_of_fits (h layout hmem).format
    have hfitting := hchange.fitting fun layout hmem =>
      ⟨(hfits layout hmem).rank_le, fun _ => (hfits layout hmem).format⟩
    exact fun layout hmem => hfitting.fits (hchange.chosen (hchosen hfits)) hmem
  demand hdemands hinput := hdemands.fits hinput

/-- Every edge carries a layout that fits: what was read at the start has formats, and the reorders
on those edges put out formats that fit. -/
structure Fitted (start : Graph) (s : Reconciliation) : Prop where
  old : ∀ {id node}, id.index < start.size → s.graph.node? id = some node → node.Fitting
  read : ∀ {reader slot edge node}, start.dep? reader slot = some edge →
    s.graph.node? edge.node = some node → node.Chosen
  new : ∀ {id node}, start.size ≤ id.index → s.graph.node? id = some node →
    (∀ layout ∈ node.outputs, layout.Fits) ∧
      ∃ reader slot edge, start.dep? reader slot = some edge ∧ node.deps = [edge]

theorem Fitted.carries (h : Fitted start s) (hstart : start.WellFormed) :
    Carries Layout.Fits start s :=
  ⟨fun hedge hnode _ hmem =>
    (h.old (lt_size_of_dep hstart hedge) hnode).fits (h.read hedge hnode) hmem, h.new⟩

/-- Every input has a layout that fits. -/
theorem Fitted.input (h : Fitted start s) (hstart : start.WellFormed) (hs : Sound start s)
    {slot : Nat} {input : Input} (hinput : s.graph.input? id slot = some input) :
    input.layout.Fits :=
  (h.carries hstart).input hs hinput

/-- What has to be known of a step for it to keep all layouts fitting. -/
theorem Fitted.step (h : Fitted start s) (hstart : start.WellFormed)
    (hold : ∀ {other node'}, other.index < start.size → s'.graph.node? other = some node' →
      ∃ node, s.graph.node? other = some node ∧ Change node node')
    (hcarries : Carries Layout.Fits start s') : Fitted start s' := by
  refine ⟨fun hlt hnode' => ?_, fun hedge hnode' => ?_, hcarries.new⟩
  · obtain ⟨node, hnode, hchange⟩ := hold hlt hnode'
    exact hchange.fitting (h.old hlt hnode)
  · obtain ⟨node, hnode, hchange⟩ := hold (lt_size_of_dep hstart hedge) hnode'
    exact hchange.chosen (h.read hedge hnode)

theorem Fitted.move (h : Fitted start s) (hstart : start.WellFormed) (hs : Sound start s)
    (hid : id.index < start.size) (hmove : Move id s s') : Fitted start s' :=
  h.step hstart (fun hlt => hmove.change hstart hs hid hlt)
    ((h.carries hstart).move inherits_fits hstart hs hid hmove)

theorem Fitted.legalized (h : Fitted start s) (hstart : start.WellFormed) (hs : Sound start s)
    (hid : id.index < start.size) (hlegalized : Legalized cx id s s') : Fitted start s' :=
  h.step hstart (fun hlt => hlegalized.change hs hid hlt)
    ((h.carries hstart).legalized inherits_fits hstart hs hid hlegalized)

theorem fitted_start (hfitting : ∀ {id node}, start.node? id = some node → node.Fitting)
    (hchosen : ∀ {reader slot edge node}, start.dep? reader slot = some edge →
      start.node? edge.node = some node → node.Chosen) : Fitted start { graph := start } :=
  ⟨fun _ hnode => hfitting hnode, hchosen,
    fun hle hnode => absurd (Graph.lt_size_of_node? hnode) (Nat.not_lt.2 hle)⟩

theorem fitted_of_run (hstart : start.Ordered) (hfitted : Fitted start { graph := start }) :
    Yields (start.order.foldlM (visit? cx) { graph := start }) fun s =>
      Sound start s ∧ Fitted start s := by
  refine run?_inv hstart (Fitted start) hfitted ?_ ?_
  · exact fun hid hs h hmove => h.move hstart.wellFormed hs hid hmove
  · exact fun hid hs h hlegalized => h.legalized hstart.wellFormed hs hid hlegalized

end Reconciliation

end LayoutPlanner
