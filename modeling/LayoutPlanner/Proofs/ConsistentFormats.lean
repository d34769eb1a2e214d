import LayoutPlanner.Proofs.FittingFormats

/-!
# Consistent formats

A layout is consistent if it has no format yet, or one that its rank leaves as it is.  Capabilities
may prefer whatever they like: no stage gives an output a format that is not consistent with its
rank, not even where no format fits.

* A change to a node keeps its outputs consistent (`Change.consistent`, once for propagation and
  once for edge agreement).
* Reorders produce consistent layouts, since a demand is made in view of the rank (`inherits`).
-/

namespace LayoutPlanner

namespace Format

theorem adaptTo_of_fits {format : Format} {rank : Nat} (h : format.fits rank = true) :
    format.adaptTo rank = format :=
  if_pos h

/-- The default of a rank becomes the default of another one. -/
@[simp]
theorem adaptTo_defaultFor (rank rank' : Nat) :
    (defaultFor rank).adaptTo rank' = defaultFor rank' := by
  unfold adaptTo
  split
  next hfits =>
    have haxes : (defaultFor rank).axes? = some (axesOfRank rank') := by simpa [fits] using hfits
    have hplain : defaultFor rank = bfyx ∨ defaultFor rank = bfzyx ∨ defaultFor rank = bfwzyx := by
      unfold defaultFor
      split <;> simp
    rcases hplain with heq | heq | heq
    all_goals
      rw [heq] at haxes ⊢
      rw [defaultFor, ← Option.some.inj haxes]
      rfl
  next => rfl

/-- A rank leaves what it has adapted as it is. -/
@[simp]
theorem adaptTo_adaptTo (format : Format) (rank : Nat) :
    (format.adaptTo rank).adaptTo rank = format.adaptTo rank := by
  by_cases hfits : format.fits rank = true
  · rw [adaptTo_of_fits hfits, adaptTo_of_fits hfits]
  · have hdefault : format.adaptTo rank = defaultFor rank := if_neg hfits
    rw [hdefault, adaptTo_defaultFor]

/-- Adapting a format to one rank and then to another loses it only if it does not fit the first. -/
theorem adaptTo_adaptTo_eq_iff {format : Format} {rank rank' : Nat} :
    (format.adaptTo rank).adaptTo rank' = format.adaptTo rank' ↔
      format.fits rank = true ∨ format.adaptTo rank' = defaultFor rank' := by
  by_cases hfits : format.fits rank = true
  · rw [adaptTo_of_fits hfits]
    exact iff_of_true rfl (Or.inl hfits)
  · have hdefault : format.adaptTo rank = defaultFor rank := if_neg hfits
    rw [hdefault, adaptTo_defaultFor, or_iff_right hfits, eq_comm]

end Format

/-- The format is open, or the rank leaves it as it is. -/
def Layout.Consistent (layout : Layout) : Prop :=
  layout.format = .any ∨ layout.format.adaptTo layout.rank = layout.format

instance (layout : Layout) : Decidable layout.Consistent :=
  inferInstanceAs (Decidable (_ ∨ _))

/-- Every output is consistent. -/
def Node.Consistent (node : Node) : Prop :=
  ∀ layout ∈ node.outputs, layout.Consistent

instance (node : Node) : Decidable node.Consistent :=
  inferInstanceAs (Decidable (∀ layout ∈ node.outputs, _))

theorem Layout.consistent_of_fits {layout : Layout} (h : layout.format.fits layout.rank = true) :
    layout.Consistent :=
  Or.inr (Format.adaptTo_of_fits h)

/-- A layout in an adapted format is consistent, whatever its shape was adapted from. -/
theorem Layout.consistent_of_adaptTo {layout : Layout} {format : Format} {rank : Nat}
    (hrank : layout.rank = rank) (h : layout.format = format.adaptTo rank) : layout.Consistent := by
  right
  rw [h, hrank, Format.adaptTo_adaptTo]

namespace Node

theorem Consistent.of_outputs {a b : Node} (ha : a.Consistent) (h : b.outputs = a.outputs) :
    b.Consistent := by
  rw [Consistent, h]
  exact ha

/-- Wherever a settled format comes from, it is consistent. -/
theorem consistent_settledFormat (node : Node) (inherited : List Format) (index : Nat)
    {current : Layout} (h : current.Consistent) :
    (current.withFormat (node.settledFormat inherited index current)).Consistent := by
  unfold settledFormat
  dsimp only
  split
  next hpreferred => exact Layout.consistent_of_fits hpreferred
  split
  next => exact h
  cases hfound : inherited.find? (·.fits current.rank) with
  | none => exact Or.inr (Format.adaptTo_defaultFor current.rank current.rank)
  | some format =>
    have hfits := List.find?_some hfound
    exact Layout.consistent_of_fits hfits

theorem Consistent.settled {node : Node} (h : node.Consistent) (inherited : List Format) :
    Consistent { node with outputs := node.settledOutputs inherited } := by
  intro layout hmem
  obtain ⟨index, current, hcurrent, rfl⟩ := exists_of_mem_settledOutputs hmem
  exact node.consistent_settledFormat inherited index (h current (List.mem_of_getElem? hcurrent))

theorem Consistent.afterSettling {node : Node} (h : node.Consistent) (inherited : List Format) :
    (node.afterSettling inherited).Consistent := by
  unfold Node.afterSettling
  split
  next => exact h
  next => exact h.settled inherited

theorem Adopts.consistent {format : Format} {accepts : Nat → Prop} {node node' : Node}
    (h : Adopts format accepts node node') : node'.Consistent := by
  intro layout hmem
  rw [h.outputs] at hmem
  obtain ⟨current, _, rfl⟩ := List.mem_map.1 hmem
  exact Layout.consistent_of_adaptTo rfl rfl

end Node

/-! ## The stages -/

theorem Propagation.Change.consistent {catalog : Catalog} {g : Graph} {id : NodeId}
    {node node' : Node} (h : Change catalog g id node node') (hnode : node.Consistent) :
    node'.Consistent := by
  cases h with
  | same h => exact hnode.of_outputs (Node.outputs_of_bare h)
  | settled inherited _ h =>
    exact (hnode.afterSettling inherited).of_outputs (Node.outputs_of_bare h)
  | selected _ h => exact hnode.of_outputs ((Node.outputs_of_bare h).trans rfl)
  | recorded _ _ _ inherited _ h =>
    refine Node.Consistent.of_outputs (Node.Consistent.settled ?_ inherited)
      (Node.outputs_of_bare h)
    exact hnode
  | forced _ _ h => exact hnode.of_outputs ((Node.outputs_of_bare h).trans rfl)
  | folded _ _ _ hfits h =>
    intro layout hmem
    rw [(Node.outputs_of_bare h).trans rfl] at hmem
    rcases List.mem_or_eq_of_mem_set hmem with hold | rfl
    · exact hnode layout hold
    · exact Layout.consistent_of_fits hfits

namespace Reconciliation

theorem Change.consistent {node node' : Node} (h : Change node node') (hnode : node.Consistent) :
    node'.Consistent := by
  cases h with
  | same h => exact hnode.of_outputs (Node.outputs_of_core h)
  | settled inherited h =>
    exact (hnode.afterSettling inherited).of_outputs (Node.outputs_of_core h)
  | legalized base hbase h =>
    have hconsistent : base.Consistent := by
      rcases hbase with hsame | ⟨_, hhanded⟩
      · exact hnode.of_outputs (Node.outputs_of_core hsame)
      · exact hnode.of_outputs ((Node.outputs_of_core hhanded).trans rfl)
    rcases h with hsame | ⟨_, _, hadopts⟩
    · exact hconsistent.of_outputs (Node.outputs_of_core hsame)
    · exact hadopts.consistent

/-- What is demanded of a consistent layout is consistent: it has the shape of that layout, in its
format or in one adapted to its rank. -/
theorem Demands.consistent {s : Reconciliation} {node : Node} {input : Input} {demand : Demand}
    (h : Demands s node input demand) (hinput : input.layout.Consistent) :
    demand.target.Consistent := by
  have hrank : demand.target.rank = input.layout.rank := congrArg Shape.rank h.shape_eq
  rcases h.format_eq with hwanted | ⟨_, _, _, _, hadapted⟩
  · unfold Node.wantedFormat at hwanted
    split at hwanted
    next =>
      rw [Layout.Consistent, hwanted, hrank]
      exact hinput
    next => exact Layout.consistent_of_adaptTo hrank hwanted
  · exact Layout.consistent_of_adaptTo hrank hadapted

theorem inherits_consistent : Inherits Layout.Consistent where
  change hchange hnode := hchange.consistent hnode
  demand hdemands hinput := hdemands.consistent hinput

end Reconciliation

/-- However far the standard pipeline is run, and however the run ends, all formats are consistent
with their ranks, if they were declared so. -/
theorem consistent_of_run {decls : List NodeDecl} {g : Graph}
    (hbuild : Graph.build? decls = some (.ok g)) (hdeclared : ∀ node ∈ g.nodes, node.Consistent)
    (cx : Context) {stages : List Stage} (hstages : stages <+: Pipeline.standard) :
    ∃ out, Pipeline.run? stages cx g = some out ∧ ∀ node ∈ out.graph.nodes, node.Consistent := by
  have hfresh := Graph.fresh_of_build hbuild
  have hrun := Pipeline.run?_prefix
    (fun g => ∀ {id node}, g.node? id = some node → node.Consistent) cx hfresh
    (fun hnode => hdeclared _ (List.mem_of_getElem? hnode)) ?_ ?_ ?_ hstages
  · refine hrun.mono fun out hout node hmem => ?_
    obtain ⟨index, hindex⟩ := List.getElem?_of_mem hmem
    exact @hout ⟨index⟩ node hindex
  · refine (Propagation.run?_forall hfresh.toOrdered Node.Consistent
      (fun hnode => hdeclared _ (List.mem_of_getElem? hnode)) Propagation.Change.consistent).mono ?_
    exact fun swept hswept => hswept.2
  · intro g₁ _ hordered hnodes
    refine Yields.mono (Yields.and (Reconciliation.run?_forall hordered Node.Consistent hnodes
      Reconciliation.Change.consistent) (Reconciliation.carries_of_run hordered
      Reconciliation.inherits_consistent
      (Reconciliation.carries_start fun _ hnode => hnodes hnode))) ?_
    rintro agreed ⟨⟨_, hold⟩, _, hcarries⟩ id node hnode
    by_cases hlt : id.index < g₁.size
    · exact hold hlt hnode
    · exact (hcarries.new (Nat.not_lt.1 hlt) hnode).1
  · intro g₁ hwf hlisted hnodes
    refine (Construction.run?_related cx hwf hlisted
      (fun old node => old.Consistent → node.Consistent) (fun _ h => h) ?_ ?_).mono ?_
    · exact fun inherited h hold => (h hold).afterSettling inherited
    · exact fun hinstalled h hold =>
        (h hold).of_outputs ((Node.outputs_of_bare hinstalled).trans rfl)
    · rintro out ⟨hsame, hrel⟩ id node hnode
      obtain ⟨old, hold, _⟩ := hsame.nodes.exists_old hnode
      exact hrel hold hnode (hnodes hold)

/-- Takes every node, and would like to have all of its slots in one format. -/
def insists (format : Format) : Capability where
  name := "insistent"
  kind := .generic
  shapes := .both
  accepts _ := true
  preference _ := some (.uniform 2 1 format)
  build _ := .built ⟨.generic, "insistent", none⟩

/-- Sums want a blocked format with five axes. -/
def blockedSums : Catalog where
  registrations := [(.eltwise, insists .bFsZyxFsv16)]

/-- A transposed image, and two sums of it of rank four and seven. -/
def mixedRanks : List NodeDecl :=
  [{ name := "image", op := .input, outputs := [⟨.ofExtents [1, 16, 8, 8], .f32, .yxfb, {}⟩] },
    { name := "flat", op := .eltwise, inputs := [⟨⟨0⟩, 0⟩, ⟨⟨0⟩, 0⟩],
      outputs := [⟨.ofExtents [1, 16, 8, 8], .f32, .any, {}⟩] },
    { name := "deep", op := .eltwise, inputs := [⟨⟨1⟩, 0⟩, ⟨⟨0⟩, 0⟩],
      outputs := [⟨.ofExtents [1, 16, 8, 8, 1, 1, 1], .f32, .any, {}⟩] }]

/-- The format that the sums want fits neither rank.  Reorders are inserted into the default format
of rank four, which the sum of rank seven takes too. -/
theorem consistent_mixedRanks : ∃ g, Graph.build? mixedRanks = some (.ok g) ∧
    (∀ node ∈ g.nodes, node.Consistent) ∧
    (Pipeline.run? Pipeline.standard { catalog := blockedSums } g).map
      (fun out => out.graph.nodes.map (·.outputs.map Layout.format)) =
      some [[.yxfb], [.yxfb], [.bfyx], [.bfyx], [.bfyx]] ∧
    ∃ out, Pipeline.run? Pipeline.standard { catalog := blockedSums } g = some out ∧
      ∀ node ∈ out.graph.nodes, node.Consistent :=
  ⟨_, rfl, by decide, rfl,
    @consistent_of_run mixedRanks _ rfl (by decide) _ _ List.prefix_rfl⟩

end LayoutPlanner
