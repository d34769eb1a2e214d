import LayoutPlanner.Proofs.CarriedLayouts
import LayoutPlanner.Proofs.HonouredFormats

/-!
# Chosen formats

Which outputs are still without a format when planning is over.

* No stage takes a chosen format away (`Change.open_of`, once for propagation and once for edge
  agreement).
* Settling a node chooses all of its formats, but a permute that is folded away counts as settled as
  soon as its first output is.  So after propagation an output that is still open is a later one of
  such a permute (`Node.Settled`, `settled_of_sweep`).
* Nothing reads such a permute: what is read has a format (`chosen_of_sweep`), and so have the
  reorders (`inherits_chosen`).
-/

namespace LayoutPlanner

theorem Format.isChosen_iff_ne {format : Format} : format.isChosen = true ↔ format ≠ .any := by
  simp [isChosen]

namespace Node

/-- Every output has a format. -/
def Chosen (node : Node) : Prop :=
  ∀ layout ∈ node.outputs, layout.format.isChosen = true

instance (node : Node) : Decidable node.Chosen :=
  inferInstanceAs (Decidable (∀ layout ∈ node.outputs, _))

/-- The output is there and has no format. -/
def Open (node : Node) (index : Nat) : Prop :=
  ∃ layout, node.outputs[index]? = some layout ∧ layout.format = .any

theorem chosen_iff {node : Node} : node.Chosen ↔ ∀ index, ¬node.Open index := by
  constructor
  · rintro h index ⟨layout, hlayout, hopen⟩
    exact Format.isChosen_iff_ne.1 (h layout (List.mem_of_getElem? hlayout)) hopen
  · intro h layout hmem
    obtain ⟨index, hindex⟩ := List.getElem?_of_mem hmem
    exact Format.isChosen_iff_ne.2 fun hopen => h index ⟨layout, hindex, hopen⟩

theorem Chosen.of_outputs {a b : Node} (ha : a.Chosen) (h : b.outputs = a.outputs) : b.Chosen := by
  rw [Chosen, h]
  exact ha

theorem Open.of_outputs {a b : Node} {index : Nat} (hb : b.Open index)
    (h : b.outputs = a.outputs) : a.Open index := by
  rw [Open, ← h]
  exact hb

/-- If the first output is given a format, the open outputs that remain are later ones. -/
theorem Open.of_set {node : Node} {layout : Layout} {index : Nat} (hchosen : layout.format ≠ .any)
    (h : Open { node with outputs := node.outputs.set 0 layout } index) :
    0 < index ∧ node.Open index := by
  obtain ⟨found, hfound, hany⟩ := h
  cases index with
  | zero =>
    rw [List.getElem?_set_self'] at hfound
    obtain ⟨_, _, rfl⟩ := Option.map_eq_some_iff.1 hfound
    exact absurd hany hchosen
  | succ index =>
    rw [List.getElem?_set_ne (Nat.zero_ne_add_one index)] at hfound
    exact ⟨Nat.succ_pos index, found, hfound, hany⟩

/-! ## Settling and adopting -/

theorem isChosen_settledFormat (node : Node) (inherited : List Format) (index : Nat)
    (current : Layout) : (node.settledFormat inherited index current).isChosen = true := by
  unfold settledFormat
  dsimp only
  split
  next hpreferred => exact Format.isChosen_of_fits hpreferred
  split
  next hchosen => exact hchosen
  cases hfound : inherited.find? (·.fits current.rank) with
  | none => exact Format.isChosen_iff_ne.2 (Format.defaultFor_ne_any _)
  | some format =>
    have hfits := List.find?_some hfound
    exact Format.isChosen_of_fits hfits

theorem chosen_settled (node : Node) (inherited : List Format) :
    Chosen { node with outputs := node.settledOutputs inherited } := by
  intro layout hmem
  obtain ⟨index, current, _, rfl⟩ := exists_of_mem_settledOutputs hmem
  exact node.isChosen_settledFormat inherited index current

theorem Open.of_afterSettling {node : Node} {inherited : List Format} {index : Nat}
    (h : (node.afterSettling inherited).Open index) : node.Open index := by
  unfold Node.afterSettling at h
  split at h
  next => exact h
  next => exact absurd h (chosen_iff.1 (node.chosen_settled inherited) index)

theorem Adopts.chosen {format : Format} {accepts : Nat → Prop} {node node' : Node}
    (h : Adopts format accepts node node') : node'.Chosen := by
  intro layout hmem
  rw [h.outputs] at hmem
  obtain ⟨current, _, rfl⟩ := List.mem_map.1 hmem
  exact Format.isChosen_iff_ne.2 (Format.adaptTo_ne_any _ _)

/-- The only open outputs are the later ones of a permute that was folded away. -/
def Settled (node : Node) : Prop :=
  ∀ index, node.Open index → node.eliminable = true ∧ 0 < index

theorem Chosen.settled {node : Node} (h : node.Chosen) : node.Settled :=
  fun index hopen => absurd hopen (chosen_iff.1 h index)

end Node

namespace Propagation

/-! ## Propagation -/

variable {catalog : Catalog} {g : Graph} {id : NodeId} {node node' : Node}

theorem Change.open_of (h : Change catalog g id node node') {index : Nat}
    (hopen : node'.Open index) : node.Open index := by
  cases h with
  | same h => exact hopen.of_outputs (Node.outputs_of_bare h)
  | settled inherited _ h => exact (hopen.of_outputs (Node.outputs_of_bare h)).of_afterSettling
  | selected _ h => exact hopen.of_outputs ((Node.outputs_of_bare h).trans rfl)
  | recorded _ _ _ inherited _ h =>
    exact (hopen.of_outputs (Node.outputs_of_bare h)).of_afterSettling
  | forced _ _ h => exact hopen.of_outputs ((Node.outputs_of_bare h).trans rfl)
  | folded _ _ _ hfits h =>
    refine (Node.Open.of_set ?_ (hopen.of_outputs ((Node.outputs_of_bare h).trans rfl))).2
    exact Format.isChosen_iff_ne.1 (Format.isChosen_of_fits hfits)

/-- Only folding marks a node, and no change takes a mark away. -/
theorem Change.eliminable_or (h : Change catalog g id node node') :
    node'.eliminable = node.eliminable ∨ node'.eliminable = true ∧ isFoldable node = true := by
  cases h with
  | same h => exact Or.inl (Node.eliminable_of_bare h)
  | settled _ _ h => exact Or.inl ((Node.eliminable_of_bare h).trans rfl)
  | selected _ h => exact Or.inl ((Node.eliminable_of_bare h).trans rfl)
  | recorded _ _ _ _ _ h => exact Or.inl ((Node.eliminable_of_bare h).trans rfl)
  | forced _ _ h => exact Or.inl ((Node.eliminable_of_bare h).trans rfl)
  | folded hfoldable _ _ _ h => exact Or.inr ⟨(Node.eliminable_of_bare h).trans rfl, hfoldable⟩

theorem Change.settles (h : Change catalog g id node node') (hnode : node.Settled) :
    node'.Settled := by
  intro index hopen
  obtain ⟨hmarked, hlater⟩ := hnode index (h.open_of hopen)
  refine ⟨?_, hlater⟩
  rcases h.eliminable_or with hsame | ⟨hfolded, _⟩
  · rw [hsame, hmarked]
  · exact hfolded

/-- A permute that reads something and that nothing reads: the only kind of node that is given
formats before its turn. -/
def Spare (node : Node) : Prop :=
  node.op = .permute ∧ node.users = [] ∧ node.deps ≠ []

theorem spare_of_isFoldable (h : isFoldable node = true) : Spare node := by
  obtain ⟨hop, husers, hdeps⟩ := of_isFoldable h
  exact ⟨hop, husers, List.length_pos_iff.1 (hdeps ▸ Nat.one_pos)⟩

/-- The nodes below `count` had their turn, and those from `next` on did not.  Constants have
none. -/
structure Swept (count next : Nat) (g : Graph) : Prop where
  behind : ∀ {id node}, g.node? id = some node → id.index < count → node.isConstant = false →
    node.Settled
  ahead : ∀ {id node}, g.node? id = some node → next ≤ id.index → node.layoutValid = true →
    node.Settled

theorem Swept.move {count next : Nat} {g' : Graph} (h : Swept count next g) (hg : g.WellFormed)
    (hid : id.index < g.size) (hlt : id.index < next) (hmove : Move catalog id g g') :
    Swept count next g' := by
  refine ⟨fun {other node'} hnode' hother hdata => ?_,
    fun {other node'} hnode' hother hvalid => ?_⟩
  all_goals obtain ⟨node, hnode, hchange⟩ := hmove.change hg hid hnode'
  · refine hchange.settles (h.behind hnode hother ?_)
    obtain ⟨_, hfound, hcontent⟩ := (hmove.content hg hid).nodes.exists_old hnode'
    obtain rfl := Option.some.inj (hnode.symm.trans hfound)
    rw [← Node.isConstant_congr (Node.op_of_content hcontent), hdata]
  · have hne : other ≠ id := by
      rintro rfl
      omega
    rcases hmove.valid hg hid hne hnode' hvalid with
      ⟨_, hmarked, output, houtput, hchosen⟩ | ⟨_, hfound, hvalid'⟩
    · rintro index ⟨layout, hlayout, hany⟩
      refine ⟨hmarked, Nat.pos_of_ne_zero ?_⟩
      rintro rfl
      obtain rfl := Option.some.inj (houtput.symm.trans hlayout)
      exact Format.isChosen_iff_ne.1 hchosen hany
    · obtain rfl := Option.some.inj (hnode.symm.trans hfound)
      exact hchange.settles (h.ahead hnode hother hvalid')

/-- The turn of a node begins with settling it. -/
theorem Swept.settle {count : Nat} {g' : Graph} (h : Swept count count g) (hg : g.WellFormed)
    (hlt : count < g.size) (hsettle : g.settle? ⟨count⟩ = some g') :
    Swept (count + 1) (count + 1) g' := by
  obtain ⟨node, hnode⟩ := Graph.exists_node (show NodeId.index ⟨count⟩ < g.size from hlt)
  have hopen : Swept count (count + 1) g :=
    ⟨h.behind, fun hother hle => h.ahead hother (Nat.le_of_succ_le hle)⟩
  have hmove : Move {} ⟨count⟩ g g' := .settle hsettle
  have hnext := hopen.move hg hlt (Nat.lt_succ_self count) hmove
  refine ⟨fun {other node'} hnode' hother => ?_, hnext.ahead⟩
  rcases Nat.lt_succ_iff_lt_or_eq.1 hother with hless | rfl
  · exact hnext.behind hnode' hless
  intro _
  obtain ⟨_, inherited, new, _, hnew, hbare⟩ := (Graph.settle?_spec hg hnode).post_of_eq hsettle
  obtain rfl := Option.some.inj (hnode'.symm.trans hnew)
  cases hvalid : node.layoutValid with
  | true =>
    obtain ⟨_, hfound, hchange⟩ := hmove.change hg hlt hnode'
    obtain rfl := Option.some.inj (hnode.symm.trans hfound)
    exact hchange.settles (h.ahead hnode (Nat.le_refl _) hvalid)
  | false =>
    refine ((node.chosen_settled inherited).of_outputs ?_).settled
    rw [Node.outputs_of_bare hbare, Node.afterSettling, hvalid]
    rfl

/-- After the sweep, open outputs are left at constants and at permutes that were folded away. -/
theorem settled_of_sweep (hg : g.Fresh) :
    Yields (g.order.foldlM (visit? catalog) { graph := g }) fun s =>
      Graph.SameContent g s.graph ∧
      ∀ {id node}, s.graph.node? id = some node → node.isConstant = false → node.Settled := by
  refine (run?_induct hg.toOrdered (fun count g₁ => Swept count count g₁) ?_ ?_ ?_).mono ?_
  · refine ⟨fun _ hlt => absurd hlt (Nat.not_lt_zero _), fun hnode _ hvalid => ?_⟩
    rw [(hg.undecided hnode).layoutValid] at hvalid
    exact Bool.noConfusion hvalid
  · intro count g₁ node hlt hwf hsame h hnode hconstant
    refine ⟨fun {other node'} hnode' hother hdata => ?_,
      fun hother hle => h.ahead hother (Nat.le_of_succ_le hle)⟩
    rcases Nat.lt_succ_iff_lt_or_eq.1 hother with hless | rfl
    · exact h.behind hnode' hless hdata
    · obtain rfl := Option.some.inj (hnode.symm.trans hnode')
      simp [hconstant] at hdata
  · intro count g₁ g₂ g₃ node hlt hwf hsame h hnode _ hsettle hturn _
    have hthere : count < g₁.size := hsame.nodes.size_eq ▸ hlt
    obtain ⟨hedit, _⟩ := (Graph.settle?_spec hwf hnode).post_of_eq hsettle
    refine Moves.inv (hedit.wellFormed hwf) (hedit.content.nodes.size_eq ▸ hthere)
      (Swept (count + 1) (count + 1) ·) ?_ hturn.moves (h.settle hwf hthere hsettle)
    intro g g' hg hid h hmove
    exact h.move hg hid (Nat.lt_succ_self count) hmove
  · rintro s ⟨hsame, h⟩
    refine ⟨hsame, fun {id node} hnode => h.behind hnode ?_⟩
    rw [← hsame.nodes.size_eq]
    exact Graph.lt_size_of_node? hnode

/-- After the sweep, the marked nodes are permutes that can be folded away, and an output that is
open was so before. -/
theorem traced_of_sweep (hg : g.Fresh) :
    Yields (g.order.foldlM (visit? catalog) { graph := g }) fun s =>
      Graph.SameContent g s.graph ∧
      ∀ {id old node}, g.node? id = some old → s.graph.node? id = some node →
        (node.eliminable = true → isFoldable old = true) ∧
        ∀ index, node.Open index → old.Open index := by
  refine (run?_related hg.toOrdered (fun old node => (node.eliminable = true →
    old.eliminable = true ∨ isFoldable old = true) ∧ ∀ index, node.Open index → old.Open index)
    (fun _ => ⟨Or.inl, fun _ hopen => hopen⟩) ?_).mono ?_
  · rintro g₁ id old node node' hcontent hchange ⟨hmarked, hopen⟩
    refine ⟨fun hmarked' => ?_, fun index hopen' => hopen index (hchange.open_of hopen')⟩
    rcases hchange.eliminable_or with hsame | ⟨_, hfoldable⟩
    · exact hmarked (hsame ▸ hmarked')
    · exact Or.inr (isFoldable_congr hcontent ▸ hfoldable)
  · rintro s ⟨hsame, hrel⟩
    refine ⟨hsame, fun {id old node} hold hnode => ?_⟩
    obtain ⟨hmarked, hopen⟩ := hrel hold hnode
    refine ⟨fun hmarked' => (hmarked hmarked').resolve_left ?_, hopen⟩
    simp [(hg.undecided hold).eliminable]

/-- Given formats for the constants, what is open after the sweep is a later output of a permute
that was folded away, and was so before. -/
theorem open_of_sweep (hg : g.Fresh)
    (hconstants : ∀ {id node}, g.node? id = some node → node.isConstant = true → node.Chosen) :
    Yields (g.order.foldlM (visit? catalog) { graph := g }) fun s =>
      Graph.SameContent g s.graph ∧
      ∀ {id node index}, s.graph.node? id = some node → node.Open index →
        node.eliminable = true ∧ 0 < index ∧
          ∃ old, g.node? id = some old ∧ isFoldable old = true ∧ old.Open index := by
  refine ((settled_of_sweep hg).and (traced_of_sweep hg)).mono ?_
  rintro s ⟨⟨hsame, hsettled⟩, _, htraced⟩
  refine ⟨hsame, fun {id node index} hnode hopen => ?_⟩
  obtain ⟨old, hold, hcontent⟩ := hsame.nodes.exists_old hnode
  obtain ⟨hfoldable, hopen_of⟩ := htraced hold hnode
  have hopen_old := hopen_of index hopen
  have hdata : node.isConstant = false := by
    rw [Node.isConstant_congr (Node.op_of_content hcontent), ← Bool.not_eq_true]
    exact fun hconstant => Node.chosen_iff.1 (hconstants hold hconstant) index hopen_old
  obtain ⟨hmarked, hlater⟩ := hsettled hnode hdata index hopen
  exact ⟨hmarked, hlater, old, hold, hfoldable hmarked, hopen_old⟩

/-- After the sweep every node has formats for its outputs, except for permutes that nothing
reads. -/
theorem chosen_of_sweep (hg : g.Fresh)
    (hconstants : ∀ {id node}, g.node? id = some node → node.isConstant = true → node.Chosen) :
    Yields (g.order.foldlM (visit? catalog) { graph := g }) fun s =>
      Graph.SameContent g s.graph ∧
      ∀ {id node}, s.graph.node? id = some node → node.Chosen ∨ Spare node := by
  refine (open_of_sweep hg hconstants).mono ?_
  rintro s ⟨hsame, hopens⟩
  refine ⟨hsame, fun {id node} hnode => or_iff_not_imp_left.2 fun hopen => ?_⟩
  obtain ⟨index, hindex⟩ : ∃ index, node.Open index := by
    simpa [Node.chosen_iff] using hopen
  obtain ⟨_, _, old, hold, hfoldable, _⟩ := hopens hnode hindex
  obtain ⟨_, hfound, hcontent⟩ := hsame.nodes.exists_old hnode
  obtain rfl := Option.some.inj (hold.symm.trans hfound)
  exact spare_of_isFoldable (isFoldable_congr hcontent ▸ hfoldable)

/-- After the sweep, whatever is read has formats. -/
theorem chosen_of_read (hg : g.Fresh)
    (hconstants : ∀ {id node}, g.node? id = some node → node.isConstant = true → node.Chosen) :
    Yields (g.order.foldlM (visit? catalog) { graph := g }) fun s =>
      Graph.SameContent g s.graph ∧
      ∀ {reader slot edge node}, s.graph.dep? reader slot = some edge →
        s.graph.node? edge.node = some node → node.Chosen := by
  refine (chosen_of_sweep hg hconstants).mono ?_
  rintro s ⟨hsame, hchosen⟩
  refine ⟨hsame, fun {reader slot edge node} hedge hnode => ?_⟩
  rcases hchosen hnode with h | ⟨_, husers, _⟩
  · exact h
  obtain ⟨consumer, hconsumer, hdep⟩ := Option.bind_eq_some_iff.1 hedge
  have hwf := hg.wellFormed.of_sameWiring hsame.wiring
  have hmem : reader ∈ node.users :=
    (hwf.users_iff reader hnode).2 ⟨consumer, hconsumer, edge, List.mem_of_getElem? hdep, rfl⟩
  rw [husers] at hmem
  exact absurd hmem List.not_mem_nil

end Propagation

namespace Reconciliation

/-! ## Edge agreement -/

theorem Change.open_of {node node' : Node} (h : Change node node') {index : Nat}
    (hopen : node'.Open index) : node.Open index := by
  cases h with
  | same h => exact hopen.of_outputs (Node.outputs_of_core h)
  | settled inherited h => exact (hopen.of_outputs (Node.outputs_of_core h)).of_afterSettling
  | legalized base hbase h =>
    have hbase_open : base.Open index := by
      rcases h with hsame | ⟨_, _, hadopts⟩
      · exact hopen.of_outputs (Node.outputs_of_core hsame)
      · exact absurd hopen (Node.chosen_iff.1 hadopts.chosen index)
    rcases hbase with hsame | ⟨_, hhanded⟩
    · exact hbase_open.of_outputs (Node.outputs_of_core hsame)
    · exact hbase_open.of_outputs ((Node.outputs_of_core hhanded).trans rfl)

theorem Change.chosen {node node' : Node} (h : Change node node') (hnode : node.Chosen) :
    node'.Chosen :=
  Node.chosen_iff.2 fun index hopen => Node.chosen_iff.1 hnode index (h.open_of hopen)

theorem Change.eliminable_eq {node node' : Node} (h : Change node node') :
    node'.eliminable = node.eliminable := by
  cases h with
  | same h => exact Node.eliminable_of_core h
  | settled inherited h => exact (Node.eliminable_of_core h).trans rfl
  | legalized base hbase h =>
    have hsame : node'.eliminable = base.eliminable := by
      rcases h with h | ⟨_, _, hadopts⟩
      · exact Node.eliminable_of_core h
      · have hrest := Node.eliminable_of_bare hadopts.rest
        exact hrest
    rcases hbase with hbase | ⟨_, hbase⟩
    · exact hsame.trans (Node.eliminable_of_core hbase)
    · exact hsame.trans ((Node.eliminable_of_core hbase).trans rfl)

/-- At the end of a run, an old node is marked as it was, and an output that is open was so
before. -/
theorem traced_of_run {cx : Context} {start : Graph} (hstart : start.Ordered) :
    Yields (start.order.foldlM (visit? cx) { graph := start }) fun s => Sound start s ∧
      ∀ {id old node}, start.node? id = some old → s.graph.node? id = some node →
        node.eliminable = old.eliminable ∧ ∀ index, node.Open index → old.Open index :=
  run?_related hstart (fun old node => node.eliminable = old.eliminable ∧
    ∀ index, node.Open index → old.Open index) (fun _ => ⟨rfl, fun _ hopen => hopen⟩)
    fun hchange hrel => ⟨hchange.eliminable_eq.trans hrel.1,
      fun index hopen => hrel.2 index (hchange.open_of hopen)⟩

/-- A demand is for the wanted format, or for one adapted to the rank: the preferred one or else
that of the first output. -/
theorem Demands.format_eq {s : Reconciliation} {node : Node} {input : Input} {demand : Demand}
    (h : Demands s node input demand) :
    demand.target.format = node.wantedFormat input.slot input.layout ∨
      ∃ output preferred, node.outputs[0]? = some output ∧
        (preferred = .any ∨ preferred = node.prefers.input input.slot) ∧
        demand.target.format = (preferred.orElse output.format).adaptTo input.layout.rank := by
  cases h with
  | stateType h =>
    unfold Repair.stateType at h
    split at h
    next =>
      split at h <;> cases h
      exact Or.inl rfl
    next => cases h
  | fusedConstant houtput h =>
    unfold Repair.fusedConstant at h
    dsimp only at h
    split at h <;> cases h
    exact Or.inr ⟨_, .any, houtput, Or.inl rfl, rfl⟩
  | normalizationPadding _ houtput _ h =>
    unfold Repair.normalizationPadding at h
    dsimp only at h
    split at h <;> cases h
    exact Or.inr ⟨_, _, houtput, Or.inr rfl, rfl⟩
  | vendorPadding _ _ h =>
    unfold Repair.vendorPadding at h
    split at h <;> cases h
    exact Or.inl rfl
  | agreement _ h =>
    rw [(Repair.of_agreement h).2.2]
    exact Or.inl rfl

/-- What a node wants is a format, if it is offered one. -/
theorem isChosen_wantedFormat (node : Node) (slot : Nat) {source : Layout}
    (h : source.format.isChosen = true) : (node.wantedFormat slot source).isChosen = true := by
  unfold Node.wantedFormat
  split
  next => exact h
  next => exact Format.isChosen_iff_ne.2 (Format.adaptTo_ne_any _ _)

theorem inherits_chosen : Inherits fun layout => layout.format.isChosen = true where
  change hchange hnode := hchange.chosen hnode
  demand hdemands hinput := by
    rcases hdemands.format_eq with hwanted | ⟨_, _, _, _, hadapted⟩
    · rw [hwanted]
      exact isChosen_wantedFormat _ _ hinput
    · rw [hadapted]
      exact Format.isChosen_iff_ne.2 (Format.adaptTo_ne_any _ _)

end Reconciliation

/-- Construction marks nothing and opens no output. -/
theorem Construction.traced_of_construction (cx : Context) {g : Graph} (hg : g.WellFormed)
    (hlisted : g.ListsAll) :
    Yields (Construction.run? cx g) fun out => g.SameContent out.graph ∧
      ∀ {id old node}, g.node? id = some old → out.graph.node? id = some node →
        node.eliminable = old.eliminable ∧ ∀ index, node.Open index → old.Open index := by
  refine run?_related cx hg hlisted (fun old node =>
    node.eliminable = old.eliminable ∧ ∀ index, node.Open index → old.Open index)
    (fun _ => ⟨rfl, fun _ hopen => hopen⟩) ?_ ?_
  · exact fun inherited hrel => ⟨hrel.1, fun index hopen => hrel.2 index hopen.of_afterSettling⟩
  · intro old node node' hinstalled hrel
    have hmark := Node.eliminable_of_bare hinstalled
    have houtputs := Node.outputs_of_bare hinstalled
    exact ⟨Eq.trans hmark hrel.1, fun index hopen => hrel.2 index (hopen.of_outputs houtputs)⟩

/-! ## Planning -/

/-- `g'` is a plan for `g` in which all outputs have formats, except for some that were declared
without one: later outputs of a permute that was folded away.  Whatever is read has a format. -/
structure Graph.FormatsChosen (g g' : Graph) : Prop where
  outputs : ∀ {id node index}, g'.node? id = some node → node.Open index →
    node.eliminable = true ∧ 0 < index ∧ ∃ old, g.node? id = some old ∧
      Propagation.isFoldable old = true ∧ old.Open index
  inputs : ∀ {id slot input}, g'.input? id slot = some input → input.layout.format ≠ .any

/-- Propagation and edge agreement choose the formats. -/
theorem Reconciliation.chosen_of_run {cx : Context} {g : Graph} (hg : g.Fresh)
    (hconstants : ∀ {id node}, g.node? id = some node → node.isConstant = true → node.Chosen)
    {swept : Propagation.State}
    (hswept : g.order.foldlM (Propagation.visit? cx.catalog) { graph := g } = some swept)
    {s : Reconciliation}
    (hs : swept.graph.order.foldlM (visit? cx) { graph := swept.graph } = some s) :
    Sound swept.graph s ∧ g.FormatsChosen s.graph := by
  obtain ⟨hsame, hopens⟩ := (Propagation.open_of_sweep hg hconstants).post_of_eq hswept
  obtain ⟨_, hread⟩ := (Propagation.chosen_of_read hg hconstants).post_of_eq hswept
  have hstart := hg.toOrdered.of_sameContent hsame
  obtain ⟨hsound, hcarries⟩ :=
    (carries_of_run hstart inherits_chosen (carries_start hread)).post_of_eq hs
  obtain ⟨_, hrel⟩ := (traced_of_run hstart).post_of_eq hs
  refine ⟨hsound, fun {id node index} hnode hopen => ?_, fun hinput => ?_⟩
  · by_cases hlt : id.index < swept.graph.size
    · obtain ⟨mid, hmid⟩ := Graph.exists_node hlt
      obtain ⟨hmark, hopen_of⟩ := hrel hmid hnode
      obtain ⟨hmarked, hlater, hold⟩ := hopens hmid (hopen_of index hopen)
      exact ⟨hmark.trans hmarked, hlater, hold⟩
    · have hchosen : node.Chosen := (hcarries.new (Nat.not_lt.1 hlt) hnode).1
      exact absurd hopen (Node.chosen_iff.1 hchosen index)
  · exact Format.isChosen_iff_ne.1 (hcarries.input hsound hinput)

/-- Construction opens none of them again. -/
theorem Graph.FormatsChosen.constructed {g g₁ : Graph} (h : g.FormatsChosen g₁) {cx : Context}
    (hwf : g₁.WellFormed) (hlisted : g₁.ListsAll) :
    Yields (Construction.run? cx g₁) fun out => g.FormatsChosen out.graph := by
  refine (Construction.traced_of_construction cx hwf hlisted).mono ?_
  rintro out ⟨hsame, hrel⟩
  refine ⟨fun {id node index} hnode hopen => ?_, fun {id slot input} hinput hany => ?_⟩
  · obtain ⟨old, hold, _⟩ := hsame.nodes.exists_old hnode
    obtain ⟨hmark, hopen_of⟩ := hrel hold hnode
    rw [hmark]
    exact h.outputs hold (hopen_of index hopen)
  · obtain ⟨input', hinput', hedge, _, _⟩ := hsame.symm.exists_input hinput
    obtain ⟨_, _, _, _, hproducer, houtput⟩ := input?_eq_some_iff.1 hinput
    obtain ⟨_, _, _, _, hproducer', houtput'⟩ := input?_eq_some_iff.1 hinput'
    rw [hedge] at hproducer' houtput'
    obtain ⟨layout, hlayout, hopen⟩ :=
      (hrel hproducer' hproducer).2 _ ⟨input.layout, houtput, hany⟩
    obtain rfl := Option.some.inj (houtput'.symm.trans hlayout)
    exact h.inputs hinput' hopen

/-- Given formats for the constants, however planning ends, it leaves no output open but later ones
of folded permutes, which nothing reads. -/
theorem chosen_of_plan {decls : List NodeDecl} {g : Graph}
    (hbuild : Graph.build? decls = some (.ok g))
    (hconstants : ∀ node ∈ g.nodes, node.isConstant = true → node.Chosen) (cx : Context) :
    ∃ out, plan? cx g = some out ∧ g.FormatsChosen out.graph := by
  have hfresh := Graph.fresh_of_build hbuild
  have hchosen : ∀ {id node}, g.node? id = some node → node.isConstant = true → node.Chosen :=
    fun hnode => hconstants _ (List.mem_of_getElem? hnode)
  refine (plan?_spec cx hfresh).mono fun out hplanned => ?_
  generalize out.graph = g', out.error? = error at hplanned ⊢
  cases hplanned with
  | blocked hswept hagreed _ =>
    exact (Reconciliation.chosen_of_run hfresh hchosen hswept hagreed).2
  | constructed hswept hagreed _ hbuilt =>
    obtain ⟨hsound, h⟩ := Reconciliation.chosen_of_run hfresh hchosen hswept hagreed
    exact (h.constructed hsound.wellFormed hsound.listed).post_of_eq hbuilt

/-- Takes every node as it is. -/
def takes (kind : BackendKind) (name : String) : Capability where
  name := name
  kind := kind
  shapes := .both
  accepts _ := true
  preference _ := none
  build _ := .built ⟨kind, name, none⟩

/-- The vendor takes products, in whatever format they are. -/
def vendorProducts : Catalog where
  registrations := [(.input, takes .generic "source"), (.gemm, takes .vendor "product"),
    (.permute, takes .generic "permute"), (.reorder, takes .generic "reorder")]

/-- A product with outputs in some formats, one of which is transposed. -/
def transposedProduct (products : List Format) (port : Nat) (results : List Format) :
    List NodeDecl :=
  let layout : Layout := ⟨.ofExtents [1, 16, 8, 8], .f32, .bfyx, {}⟩
  [{ name := "data", op := .input, outputs := [layout] },
    { name := "weights", op := .constant, outputs := [layout] },
    { name := "product", op := .gemm, inputs := [⟨⟨0⟩, 0⟩, ⟨⟨1⟩, 0⟩],
      outputs := products.map layout.withFormat },
    { name := "transposed", op := .permute, inputs := [⟨⟨2⟩, port⟩],
      outputs := results.map layout.withFormat, attrs := .permute [0, 1, 3, 2] }]

theorem chosen_transposedProduct : ∃ g,
    Graph.build? (transposedProduct [.bfyx] 0 [.any, .any]) = some (.ok g) ∧
    (∀ node ∈ g.nodes, node.isConstant = true → node.Chosen) ∧
    ∃ out, plan? { catalog := vendorProducts } g = some out ∧ g.FormatsChosen out.graph :=
  ⟨_, rfl, by decide,
    @chosen_of_plan (transposedProduct [.bfyx] 0 [.any, .any]) _ rfl (by decide) _⟩

/-- The permute is folded into the product, which settles its first output only. -/
theorem transposedProduct_open : ∃ g out report node,
    Graph.build? (transposedProduct [.bfyx] 0 [.any, .any]) = some (.ok g) ∧
    (∀ node ∈ g.nodes, node.isConstant = true → node.Chosen) ∧
    plan? { catalog := vendorProducts } g = some out ∧ out.result = .ok report ∧
    out.graph.node? ⟨3⟩ = some node ∧ node.isConstant = false ∧
    node.outputs.map Layout.format = [.bfyx, .any] :=
  ⟨_, _, _, _, rfl, by decide, rfl, rfl, rfl, rfl, rfl⟩

end LayoutPlanner
