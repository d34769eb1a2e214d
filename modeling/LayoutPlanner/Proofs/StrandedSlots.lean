import LayoutPlanner.Proofs.PlainGraphs

/-!
# Stranded slots

When edge agreement fails on a graph without pins, with the built-in backends.

The plain format that the search tries last suits every kernel on all outputs of a node, and on all
inputs of the same class as the first output.  So an input of another class is to blame, for which
the search prefers nothing (`exists_refused_slot`).  Such an input does not come from a constant:
repairs read a constant of another class in a plain format (`ReadableAt.move`).
-/

namespace LayoutPlanner

/-- Nodes of the same meaning have outputs of the same shapes. -/
theorem Node.exists_output_of_meaning {a b : Node} (h : a.meaning = b.meaning) {index : Nat}
    {output : Layout} (houtput : b.outputs[index]? = some output) :
    ∃ found, a.outputs[index]? = some found ∧ found.rank = output.rank := by
  obtain ⟨found, hfound, hshape⟩ :=
    Graph.exists_layout_of_map_eq (Node.output_of_meaning h index) houtput
  exact ⟨found, hfound, congrArg Shape.rank hshape⟩

namespace Graph

/-- The slot was declared with a real input of another class than the first output, and in `g'` the
node would read it in a layout that no kernel reads. -/
structure Stranded (g g' : Graph) (id : NodeId) (slot : Nat) : Prop where
  declared : ∃ node output input, g.node? id = some node ∧ node.isReorder = false ∧
    node.outputs[0]? = some output ∧ g.input? id slot = some input ∧ input.isReal = true ∧
    Format.axesOfRank input.layout.rank ≠ Format.axesOfRank output.rank
  shown : ∃ view input, g'.view? id = some view ∧ view.shapeClass.isDynamic = false ∧
    g'.input? id slot = some input ∧
    Builtin.DeviceKernels.isKernelLayout (view.shown input) = false

/-- What was declared about the slot does not depend on formats. -/
theorem Stranded.of_sameContent {g g₁ g' : Graph} (hsame : SameContent g g₁) {id : NodeId}
    {slot : Nat} (h : g₁.Stranded g' id slot) : g.Stranded g' id slot := by
  obtain ⟨node, output, input, hnode, hreorder, houtput, hinput, hreal, hcrosses⟩ := h.declared
  refine ⟨?_, h.shown⟩
  obtain ⟨old, hold, hcontent⟩ := hsame.nodes.exists_old hnode
  obtain ⟨origin, horigin, _, hproducer, hlayout⟩ := hsame.symm.exists_input hinput
  obtain ⟨first, hfirst, hrank⟩ :=
    Node.exists_output_of_meaning (Node.content_eq_iff.1 hcontent).1.symm houtput
  refine ⟨old, first, origin, hold, ?_, hfirst, horigin, ?_, ?_⟩
  · rw [← Node.isReorder_congr (Node.op_of_content hcontent), hreorder]
  · rw [Input.isReal, Node.isConstant_congr (Node.op_of_content hproducer)]
    exact hreal
  · rw [Layout.rank_of_withFormat_any hlayout, hrank]
    exact hcrosses

end Graph

namespace Builtin.DeviceKernels

/-- A kernel looks at the rank of an input and at the format it is shown in. -/
theorem isKernelLayout_shownInput (node : Node) (input : Input) :
    isKernelLayout (node.shownInput false input) =
      (((node.prefers.input input.slot).orElse input.layout.format).fits input.layout.rank &&
        !isUnsupported ((node.prefers.input input.slot).orElse input.layout.format)) :=
  rfl

/-- There are kernels for everything but constants and reorders, and kernels take any shapes. -/
theorem mem_ops {op : OpKind} (hconstant : op ≠ .constant) (hreorder : op ≠ .reorder) :
    op ∈ ops := by
  cases op <;> simp_all [ops]

theorem servesDynamic_of_mem {op : OpKind} (h : op ∈ ops) :
    Builtin.catalog.servesDynamic op = true := by
  refine List.any_eq_true.2 ⟨_, Builtin.mem_entries_iff.2 ⟨_, Builtin.kernel_mem h, rfl⟩, rfl⟩

theorem isUnsupported_adaptTo {format : Format} (h : isUnsupported format = false) (rank : Nat) :
    isUnsupported (format.adaptTo rank) = false := by
  unfold Format.adaptTo
  split
  · exact h
  · exact isUnsupported_defaultFor rank

end Builtin.DeviceKernels

namespace Reconciliation

open Builtin.DeviceKernels

variable {start : Graph} {cx : Context} {id : NodeId} {s s' : Reconciliation}

/-- A local edit does not change what the edited node reads. -/
theorem Sound.exists_input (hstart : start.Ordered) (hs : Sound start s)
    (hid : id.index < start.size) {g : Graph} (hedit : Graph.LocalEdit id s.graph g) {slot : Nat}
    {input' : Input} (hinput' : g.input? id slot = some input') :
    ∃ input, s.graph.input? id slot = some input ∧ input'.isReal = input.isReal ∧
      input'.slot = input.slot ∧ input'.layout = input.layout := by
  obtain ⟨input, hinput, hface⟩ :=
    exists_of_map_eq (hs.input?_face_eq hstart hid hedit slot).symm hinput'
  replace hface := hface.symm
  exact ⟨input, hinput, Input.isReal_of_face hface, congrArg (·.1) hface,
    Input.layout_of_face hinput' hinput hface⟩

/-! ## The slot to blame -/

/-- A format that kernels read is refused because of a slot that it does not fit. -/
theorem exists_refused_slot (hstart : start.Ordered) (hs : Sound start s)
    (hid : id.index < start.size) {node : Node} (hnode : s.graph.node? id = some node)
    (hop : node.op ∈ ops) (hpinned : node.pinned = none)
    (hranks : ∀ layout ∈ node.outputs, layout.rank ≤ 6) {format : Format} (hany : format ≠ .any)
    (hsupported : isUnsupported format = false) {g : Graph}
    (hadopts : s.graph.Adopts id format g) (hrefused : ¬g.Legal Builtin.catalog id) :
    ∃ slot input, s.graph.input? id slot = some input ∧ format.fits input.layout.rank = false ∧
      isKernelLayout (node.shownInput false input) = false := by
  obtain ⟨node', hnode', hadopted⟩ := hadopts.node hnode
  have hkept : node'.op = node.op ∧ node'.pinned = node.pinned := by
    have hrest := hadopted.rest
    simp only [Node.bare, Node.mk.injEq] at hrest
    simp [hrest]
  obtain ⟨inputs, hinputs, hview⟩ := (hadopts.edit.wellFormed hs.wellFormed).exists_view hnode'
  have hop' : node'.op ∈ ops := hkept.1 ▸ hop
  by_contra hnone
  refine hrefused ⟨node', hnode', _, hview, Builtin.isSupported_of_kernel
    (Builtin.kernel_mem hop') ?_ (fun input' hmem hreal => ?_) fun layout hmem => ?_⟩
  · rw [hkept.2, hpinned]
    rfl
  · obtain ⟨input, hinput, hreal', hslot, hlayout⟩ :=
      hs.exists_input hstart hid hadopts.edit ((Graph.mem_inputs?_iff hinputs).1 hmem)
    rw [hreal'] at hreal
    have hshown : isKernelLayout (node'.shownInput false input') = true := by
      rw [isKernelLayout_shownInput, hlayout]
      by_cases hfits : format.fits input.layout.rank = true
      · have haccepts : s.graph.Accepts id format input'.slot := ⟨input, hinput, hreal, hfits⟩
        rw [hadopted.input_of_accepts haccepts, Format.orElse, if_neg hany, hfits, hsupported]
        rfl
      · have hother : ¬s.graph.Accepts id format input'.slot := by
          rintro ⟨found, hfound, _, hfound_fits⟩
          obtain rfl := Option.some.inj (hinput.symm.trans hfound)
          exact hfits hfound_fits
        rw [hadopted.input_of_not hother, hslot, ← isKernelLayout_shownInput]
        by_contra hkernel
        exact hnone ⟨_, input, hinput, by simpa using hfits, by simpa using hkernel⟩
    exact hshown
  · have hmem : layout ∈ node'.outputs := hmem
    rw [hadopted.outputs] at hmem
    obtain ⟨current, hcurrent, rfl⟩ := List.mem_map.1 hmem
    have hfits := Format.fits_adaptTo format (hranks current hcurrent)
    have hread := isUnsupported_adaptTo hsupported current.rank
    unfold isKernelLayout Layout.fitsRank
    rw [Bool.and_eq_true]
    exact ⟨hfits, by simp [Layout.withFormat, hread]⟩

/-- If all fallback formats are refused, then because of a slot of another class than the first
output. -/
theorem exists_crossing_slot (hstart : start.Ordered) (hs : Sound start s)
    (hid : id.index < start.size) {node : Node} (hnode : s.graph.node? id = some node)
    (hop : node.op ∈ ops) (hpinned : node.pinned = none) (hfitting : node.Fitting) {output : Layout}
    (houtput : node.outputs[0]? = some output)
    (hrefused : ∀ format ∈ Format.fallbacksFor output.rank,
      ∃ g, s.graph.Adopts id format g ∧ ¬g.Legal Builtin.catalog id) :
    ∃ slot input, s.graph.input? id slot = some input ∧
      Format.axesOfRank input.layout.rank ≠ Format.axesOfRank output.rank ∧
      isKernelLayout (node.shownInput false input) = false := by
  have hmem : Format.defaultFor output.rank ∈ Format.fallbacksFor output.rank := by
    unfold Format.defaultFor Format.fallbacksFor
    split <;> simp
  obtain ⟨g, hadopts, hillegal⟩ := hrefused _ hmem
  obtain ⟨slot, input, hinput, hfits, hkernel⟩ := exists_refused_slot hstart hs hid hnode hop
    hpinned (fun layout hmem => (hfitting layout hmem).1) (Format.defaultFor_ne_any _)
    (isUnsupported_defaultFor _) hadopts hillegal
  refine ⟨slot, input, hinput, fun hclass => ?_, hkernel⟩
  have hdefault := Format.fits_defaultFor (hfitting output (List.mem_of_getElem? houtput)).1
  rw [Format.fits, hclass] at hfits
  rw [Format.fits, hfits] at hdefault
  exact Bool.noConfusion hdefault

/-! ## Slots that constants feed -/

/-- The node reads the slot in a layout that suits kernels.  The input is of another class than the
first output, and nothing is preferred on the slot. -/
structure Readable (node : Node) (output : Layout) (input : Input) : Prop where
  first : node.outputs[0]? = some output
  prefers : node.prefers.input input.slot = .any
  crosses : Format.axesOfRank input.layout.rank ≠ Format.axesOfRank output.rank
  kernel : isKernelLayout input.layout = true

/-- The format of the output does not fit the input, so it is adapted to a plain one. -/
theorem Readable.adaptTo_eq {node : Node} {output : Layout} {input : Input}
    (h : Readable node output input) (hfitting : node.Fitting) :
    output.format.adaptTo input.layout.rank = .defaultFor input.layout.rank := by
  have hfits := (hfitting output (List.mem_of_getElem? h.first)).2
  refine if_neg fun hadapted => h.crosses ?_
  have hchosen := hfits (Format.isChosen_of_fits hadapted)
  unfold Format.fits at hadapted hchosen
  rw [beq_iff_eq] at hadapted hchosen
  exact Option.some.inj (hadapted.symm.trans hchosen)

/-- What repairs demand of such an input suits kernels too. -/
theorem Readable.demand {node : Node} {output : Layout} {input : Input} {demand : Demand}
    (h : Readable node output input) (hfitting : node.Fitting) (hrank : input.layout.rank ≤ 6)
    (hdemands : Demands s node input demand) : isKernelLayout demand.target = true := by
  have hkernel := h.kernel
  unfold isKernelLayout Layout.fitsRank at hkernel ⊢
  have htarget : demand.target.rank = input.layout.rank := congrArg Shape.rank hdemands.shape_eq
  rw [htarget]
  rcases hdemands.format_eq with hwanted | ⟨found, preferred, hfound, hpreferred, hadapted⟩
  · have hsame : node.wantedFormat input.slot input.layout = input.layout.format := by
      rw [Node.wantedFormat, h.prefers]
    rw [hwanted, hsame]
    exact hkernel
  · obtain rfl := Option.some.inj (h.first.symm.trans hfound)
    have hnone : preferred = .any := hpreferred.elim (fun h => h) fun heq => heq.trans h.prefers
    have hplain : demand.target.format = .defaultFor input.layout.rank := by
      rw [hadapted, hnone]
      exact h.adaptTo_eq hfitting
    rw [hplain, Format.fits_defaultFor hrank, isUnsupported_defaultFor]
    rfl

/-- The slot of the node is read in a layout that suits kernels. -/
def ReadableAt (g : Graph) (id : NodeId) (slot : Nat) : Prop :=
  ∃ node output input, g.node? id = some node ∧ g.input? id slot = some input ∧
    Readable node output input

/-- Settling the node does not make the slot unreadable. -/
theorem ReadableAt.settles (hstart : start.Ordered) (hs : Sound start s)
    (hid : id.index < start.size) {slot : Nat} (h : ReadableAt s.graph id slot) {g : Graph}
    (hedit : Graph.LocalEdit id s.graph g)
    (hsettles : ∀ {node}, s.graph.node? id = some node →
      ∃ node', g.node? id = some node' ∧ node.SettlesTo node') : ReadableAt g id slot := by
  obtain ⟨node, output, input, hnode, hinput, hreadable⟩ := h
  obtain ⟨node', hnode', hsettled⟩ := hsettles hnode
  obtain ⟨input', hinput', _⟩ := hedit.content.exists_input hinput
  obtain ⟨_, hfound, _, hslot, hlayout⟩ := hs.exists_input hstart hid hedit hinput'
  obtain rfl := Option.some.inj (hinput.symm.trans hfound)
  obtain ⟨_, hfound', hcontent⟩ := hedit.content.nodes.exists_new hnode
  obtain rfl := Option.some.inj (hnode'.symm.trans hfound')
  obtain ⟨output', houtput', hrank⟩ :=
    Node.exists_output_of_meaning (Node.content_eq_iff.1 hcontent).1 hreadable.first
  refine ⟨node', output', input', hnode', hinput', houtput', ?_, ?_, ?_⟩
  · rw [hsettled.kept.2.2.2.1, hslot, hreadable.prefers]
  · rw [hlayout, hrank]
    exact hreadable.crosses
  · rw [hlayout, hreadable.kernel]

theorem ReadableAt.move (hstart : start.Ordered) (hs : Sound start s) (hid : id.index < start.size)
    (hfitted : Fitted start s) {slot : Nat} (h : ReadableAt s.graph id slot)
    (hmove : Move id s s') : ReadableAt s'.graph id slot := by
  obtain ⟨node, hnode⟩ := Graph.exists_node (Nat.lt_of_lt_of_le hid hs.grown)
  cases hmove with
  | settle hsettle =>
    obtain ⟨hedit, inherited, new, _, hnew, hbare⟩ :=
      (Graph.settle?_spec hs.wellFormed hnode).post_of_eq hsettle
    refine h.settles hstart hs hid hedit fun hfound => ⟨new, hnew, ?_⟩
    obtain rfl := Option.some.inj (hnode.symm.trans hfound)
    exact (node.settlesTo_afterSettling inherited).trans (.of_bare hbare)
  | invalidate hinvalidate =>
    obtain ⟨hedit, htidied, _⟩ :=
      (Graph.invalidate?_spec hs.wellFormed hnode).post_of_eq hinvalidate
    refine h.settles hstart hs hid hedit fun hfound => ?_
    obtain ⟨new, hnew, hbare⟩ := htidied.bare.exists_new hfound
    exact ⟨new, hnew, .of_bare hbare⟩
  | @convert other node' source demand s' hnode' hsource hdemands hconvert =>
    obtain rfl := Option.some.inj (hnode.symm.trans hnode')
    have hconverted :=
      (convert?_spec hstart.wellFormed hs hid hsource hdemands.shape_eq _).post_of_eq hconvert
    obtain ⟨node', hnode', hcore⟩ := hconverted.core_eq hnode
    obtain ⟨_, output, input, hfound, hinput, hreadable⟩ := h
    obtain rfl := Option.some.inj (hnode.symm.trans hfound)
    have hprefers := Node.prefers_of_core hcore
    have hfirst : node'.outputs[0]? = some output := by
      rw [Node.outputs_of_core hcore, hreadable.first]
    by_cases hslot : other = slot
    · subst hslot
      obtain rfl := Option.some.inj (hsource.symm.trans hinput)
      obtain ⟨input', hdelivered⟩ :=
        hconverted.exists_delivered hnode (Graph.lt_length_of_input? hnode hsource)
      refine ⟨node', output, input', hnode', hdelivered.at_slot, hfirst, ?_, ?_, ?_⟩
      · rw [hprefers, Graph.slot_of_input? hdelivered.at_slot, ← Graph.slot_of_input? hsource,
          hreadable.prefers]
      · rw [hdelivered.layout_eq, Layout.rank, hdemands.shape_eq]
        exact hreadable.crosses
      · rw [hdelivered.layout_eq]
        exact hreadable.demand (hfitted.old hid hnode)
          (hfitted.input hstart.wellFormed hs hsource).rank_le hdemands
    · have hface : (s'.graph.input? id slot).map Input.face =
          (s.graph.input? id slot).map Input.face :=
        hconverted.inputs hid fun heq => hslot heq.2.symm
      obtain ⟨input', hinput', hface⟩ := exists_of_map_eq hface hinput
      have hsame : input'.slot = input.slot := congrArg (·.1) hface
      have hlayout := Input.layout_of_face hinput' hinput hface
      refine ⟨node', output, input', hnode', hinput', hfirst, ?_, ?_, ?_⟩
      · rw [hprefers, hsame, hreadable.prefers]
      · rw [hlayout]
        exact hreadable.crosses
      · rw [hlayout, hreadable.kernel]

/-! ## The end of a run that fails -/

/-- How the search fails for a node that is not pinned. -/
theorem Legalized.unresolved (h : Legalized cx id s s') {node : Node}
    (hnode : s.graph.node? id = some node) (hpinned : node.pinned = none)
    (hfine : s.failure = none) (hfailed : s'.failure.isSome) :
    s.graph.Restored id s'.graph ∧
      (∃ mask attempted blamed, s'.failure =
        some (.layoutUnresolved (s'.graph.describe id) mask attempted blamed)) ∧
      (∀ output, node.outputs[0]? = some output → ∀ format ∈ Format.fallbacksFor output.rank,
        ∃ g, s.graph.Adopts id format g ∧ ¬g.Legal cx.catalog id) ∧
      ∀ view, s.graph.view? id = some view → view.shapeClass.isDynamic →
        cx.catalog.servesDynamic view.op = false := by
  obtain ⟨base, hbase, hending⟩ := h.ending
  have hrestored : s.graph.Restored id base := by
    refine hbase.resolve_right fun hhanded => ?_
    have hvendor := (hhanded.node hnode).1
    rw [hpinned] at hvendor
    cases hvendor
  cases hending with
  | supported _ hfailure => simp [hfailure, hfine] at hfailed
  | deferred _ hfailure => simp [hfailure, hfine] at hfailed
  | adopted _ _ hfailure => simp [hfailure, hfine] at hfailed
  | unresolved hrestored' hfailure hrefused hstatic =>
    refine ⟨hrestored.trans hrestored', hfailure, fun output houtput format hmem => ?_, hstatic⟩
    obtain ⟨node', hnode', hbare⟩ := hrestored.bare.exists_new hnode
    obtain ⟨g, hadopts, hillegal⟩ := hrefused node' output hnode'
      (by rw [Node.outputs_of_bare hbare, houtput]) format hmem
    exact ⟨g, hadopts.of_restored hrestored, hillegal⟩

/-- Every slot has the shape it started with. -/
theorem Sound.exists_origin (hstart : start.WellFormed) (hs : Sound start s)
    (hid : id.index < start.size) {slot : Nat} {input : Input}
    (hinput : s.graph.input? id slot = some input) :
    ∃ origin, start.input? id slot = some origin ∧ origin.layout.shape = input.layout.shape := by
  obtain ⟨node, hnode, hdep, _, hproducer, houtput⟩ := Graph.input?_eq_some_iff.1 hinput
  have hcurrent : s.graph.dep? id slot = some input.edge := by simp [Graph.dep?, hnode, hdep]
  obtain ⟨edge, hedge, hfeeds⟩ := hs.exists_slot hid hcurrent
  obtain ⟨old, hold, hget⟩ := Option.bind_eq_some_iff.1 hedge
  obtain ⟨origin, horigin⟩ := hstart.exists_input hold (List.getElem?_eq_some_iff.1 hget).1
  refine ⟨origin, horigin, ?_⟩
  obtain ⟨_, hfound, hget', _, hproducer', houtput'⟩ := Graph.input?_eq_some_iff.1 horigin
  obtain rfl := Option.some.inj (hold.symm.trans hfound)
  obtain rfl := Option.some.inj (hget.symm.trans hget')
  have horigin_layout : start.layoutAt? origin.edge = some origin.layout :=
    Graph.layoutAt?_eq_some_iff.2 ⟨_, hproducer', houtput'⟩
  have hlayout : s.graph.layoutAt? input.edge = some input.layout :=
    Graph.layoutAt?_eq_some_iff.2 ⟨_, hproducer, houtput⟩
  rcases hfeeds with heq | ⟨reorder, converter, heq, hle, hconverter, hdeps⟩
  · have hsame := hs.layoutAt?_eq (Graph.lt_size_of_node? hproducer')
    obtain ⟨found, hfound, hshape⟩ := Graph.exists_layout_of_map_eq hsame horigin_layout
    rw [heq, hfound] at hlayout
    rw [← Option.some.inj hlayout, hshape]
  · obtain ⟨source, layout, target, hsource, hlayout', houtputs, hshape⟩ :=
      (hs.inserted hconverter hle).converts
    obtain rfl : origin.edge = source := by simpa [hdeps] using hsource
    obtain rfl := Option.some.inj (horigin_layout.symm.trans hlayout')
    rw [heq] at hproducer houtput
    obtain rfl := Option.some.inj (hconverter.symm.trans hproducer)
    rw [houtputs] at houtput
    rw [← hshape, Option.some.inj houtput]

/-- The visit that stopped the run found what constants feed as it was. -/
theorem Stopped.exists_constant {before : Reconciliation} (h : Stopped start cx id s before s')
    {slot : Nat} {origin : Input} (horigin : start.input? id slot = some origin)
    (hdeps : origin.producer.deps = []) :
    ∃ input, s.graph.input? id slot = some input ∧ input.slot = slot ∧
      input.layout = origin.layout := by
  obtain ⟨old, hold, _, _, hbare⟩ := h.node
  obtain ⟨node, hnode, hbare⟩ := Option.map_eq_some_iff.1 hbare
  obtain ⟨_, hfound, hdep, _, hproducer, houtput⟩ := Graph.input?_eq_some_iff.1 horigin
  obtain rfl := Option.some.inj (hold.symm.trans hfound)
  obtain ⟨producer, hproducer', hbare'⟩ :=
    Option.map_eq_some_iff.1 (h.passed hproducer (Or.inl hdeps))
  refine ⟨⟨slot, origin.edge, producer, origin.layout⟩, ?_, rfl, rfl⟩
  refine Graph.input?_eq_some_iff.2 ⟨node, hnode, ?_, rfl, hproducer', ?_⟩
  · rw [Node.deps_of_bare hbare]
    exact hdep
  · rw [Node.outputs_of_bare hbare']
    exact houtput

/-- A node that is not pinned is not handed over, so it stays that way. -/
theorem Change.pinned_eq_none {node node' : Node} (h : Change node node')
    (hnode : node.pinned = none) : node'.pinned = none := by
  cases h with
  | same h => rw [Node.pinned_of_core h, hnode]
  | settled inherited h => rw [Node.pinned_of_core h, Node.afterSettling, hnode]
  | legalized base hbase h =>
    have hbase : base.pinned = none := by
      rcases hbase with hsame | ⟨hvendor, _⟩
      · rw [Node.pinned_of_core hsame, hnode]
      · rw [hnode] at hvendor
        cases hvendor
    rcases h with hsame | ⟨_, _, hadopts⟩
    · rw [Node.pinned_of_core hsame, hbase]
    · rw [← hbase]
      have heq := Node.pinned_of_bare hadopts.rest
      exact heq

section

variable (hstart : start.Ordered)
  (hunbiased : ∀ {id node}, start.node? id = some node → Propagation.Unbiased start id node)
  (hconstants : ∀ {id node}, start.node? id = some node → node.isConstant = true →
    node.deps = [] ∧ ∀ layout ∈ node.outputs, isKernelLayout layout = true)
  {before : Reconciliation} (h : Stopped start cx id s before s') (hfitted : Fitted start s)

include hstart hunbiased hconstants h hfitted

/-- The node as the search finds it. -/
theorem Stopped.exists_node : ∃ node, before.graph.node? id = some node ∧ node.op ∈ ops ∧
    node.pinned = none ∧ node.Fitting := by
  obtain ⟨old, hold, hdeps, hreorder, hbare⟩ := h.node
  obtain ⟨found, hfound, hbare⟩ := Option.map_eq_some_iff.1 hbare
  obtain ⟨node, hnode, hmeaning, _⟩ := h.advanced.sound.kept hold
  have hinv := Moves.inv hstart.wellFormed h.sound h.id_lt (fun s => Fitted start s ∧
    ∀ {node}, s.graph.node? id = some node → node.pinned = none) ?_ h.advanced.moves ⟨hfitted, ?_⟩
  · refine ⟨node, hnode, ?_, hinv.2 hnode, hinv.1.old h.id_lt hnode⟩
    rw [Node.op_of_meaning hmeaning]
    refine mem_ops (fun hconstant => hdeps (hconstants hold ?_).1) fun hop => ?_
    · rw [Node.isConstant, hconstant, beq_self_eq_true]
    · simp [Node.isReorder, hop] at hreorder
  · rintro s s' hs ⟨hfitted, hpinned⟩ hmove
    refine ⟨hfitted.move hstart.wellFormed hs h.id_lt hmove, fun hnode' => ?_⟩
    obtain ⟨node, hnode, hchange⟩ := hmove.change hstart.wellFormed hs h.id_lt h.id_lt hnode'
    exact hchange.pinned_eq_none (hpinned hnode)
  · intro node hnode
    obtain rfl := Option.some.inj (hfound.symm.trans hnode)
    rw [Node.pinned_of_bare hbare, (hunbiased hold).pinned]

/-- A slot of another class that no kernel reads is not fed by a constant. -/
theorem Stopped.isReal {node : Node} (hnode : before.graph.node? id = some node) {output : Layout}
    (houtput : node.outputs[0]? = some output) {slot : Nat} {input origin : Input}
    (hinput : before.graph.input? id slot = some input)
    (horigin : start.input? id slot = some origin)
    (hcrosses : Format.axesOfRank origin.layout.rank ≠ Format.axesOfRank output.rank)
    (hkernel : isKernelLayout (node.shownInput false input) = false) : origin.isReal = true := by
  by_contra hreal
  have hconstant : origin.producer.isConstant = true := by simpa [Input.isReal] using hreal
  obtain ⟨_, _, _, _, hproducer, hlayout⟩ := Graph.input?_eq_some_iff.1 horigin
  obtain ⟨hnil, hplain⟩ := hconstants hproducer hconstant
  obtain ⟨old, hold, _, _, hbare⟩ := h.node
  obtain ⟨found, hfound, hbare⟩ := Option.map_eq_some_iff.1 hbare
  obtain ⟨first, hfirst, hslot, hfirst_layout⟩ := h.exists_constant horigin hnil
  have hmeaning : found.meaning = node.meaning := by
    obtain ⟨_, hsame, hmeaning, _⟩ := h.advanced.sound.kept hold
    obtain rfl := Option.some.inj (hnode.symm.trans hsame)
    rw [Node.meaning_of_bare hbare, hmeaning]
  obtain ⟨output', houtput', hrank⟩ := Node.exists_output_of_meaning hmeaning houtput
  have hbegin : ReadableAt s.graph id slot := by
    refine ⟨found, output', first, hfound, hfirst, houtput', ?_, ?_, ?_⟩
    · rw [hslot, Node.prefers_of_bare hbare]
      by_contra hpreferred
      exact hreal (((hunbiased hold).input hpreferred).2 horigin)
    · rw [hfirst_layout, hrank]
      exact hcrosses
    · rw [hfirst_layout]
      exact hplain _ (List.mem_of_getElem? hlayout)
  obtain ⟨_, node', output', input', hnode', hinput', hreadable⟩ :=
    Moves.inv hstart.wellFormed h.sound h.id_lt
      (fun s => Fitted start s ∧ ReadableAt s.graph id slot)
      (fun hs hinv hmove => ⟨hinv.1.move hstart.wellFormed hs h.id_lt hmove,
        hinv.2.move hstart hs h.id_lt hinv.1 hmove⟩) h.advanced.moves ⟨hfitted, hbegin⟩
  obtain rfl := Option.some.inj (hnode.symm.trans hnode')
  obtain rfl := Option.some.inj (hinput.symm.trans hinput')
  have hshown : isKernelLayout (node.shownInput false input) = true := by
    rw [isKernelLayout_shownInput, hreadable.prefers]
    exact hreadable.kernel
  rw [hkernel] at hshown
  exact Bool.noConfusion hshown

/-- If the search fails at a node that is not pinned, then one of its slots is stranded. -/
theorem Stopped.stranded (hcatalog : cx.catalog = Builtin.catalog) (hfailed : s'.failure.isSome) :
    ∃ slot mask attempted blamed, s'.failure =
        some (.layoutUnresolved (s'.graph.describe id) mask attempted blamed) ∧
      start.Stranded s'.graph id slot := by
  have hsound := h.advanced.sound
  obtain ⟨node, hnode, hop, hpinned, hfitting⟩ := h.exists_node hstart hunbiased hconstants hfitted
  obtain ⟨output, houtput⟩ := hsound.wellFormed.exists_output hnode
  obtain ⟨hrestored, ⟨mask, attempted, blamed, hfailure⟩, hrefused, hstatic⟩ :=
    h.legalized.unresolved hnode hpinned (h.advanced.failure_eq.trans h.fine) hfailed
  rw [hcatalog] at hrefused hstatic
  obtain ⟨slot, input, hinput, hcrosses, hkernel⟩ := exists_crossing_slot hstart hsound h.id_lt
    hnode hop hpinned hfitting houtput (hrefused output houtput)
  refine ⟨slot, mask, attempted, blamed, hfailure, ?_, ?_⟩
  · obtain ⟨origin, horigin, hshape⟩ := hsound.exists_origin hstart.wellFormed h.id_lt hinput
    have hcrosses' : Format.axesOfRank origin.layout.rank ≠ Format.axesOfRank output.rank := by
      rw [Layout.rank, hshape]
      exact hcrosses
    have hreal := h.isReal hstart hunbiased hconstants hfitted hnode houtput hinput horigin
      hcrosses' hkernel
    obtain ⟨old, hold, _, hreorder, _⟩ := h.node
    obtain ⟨_, hfound, hmeaning, _⟩ := hsound.kept hold
    obtain rfl := Option.some.inj (hnode.symm.trans hfound)
    obtain ⟨output', houtput', hrank⟩ := Node.exists_output_of_meaning hmeaning.symm houtput
    refine ⟨old, output', origin, hold, hreorder, houtput', horigin, hreal, ?_⟩
    rw [hrank]
    exact hcrosses'
  · obtain ⟨node', hnode', hbare⟩ := hrestored.bare.exists_new hnode
    obtain ⟨inputs, _, hview⟩ := hsound.wellFormed.exists_view hnode
    obtain ⟨inputs', _, hview'⟩ := (hrestored.edit.wellFormed hsound.wellFormed).exists_view hnode'
    obtain ⟨input', hinput', _⟩ := hrestored.edit.content.exists_input hinput
    obtain ⟨_, hfound, _, hslot, hlayout⟩ :=
      hsound.exists_input hstart h.id_lt hrestored.edit hinput'
    obtain rfl := Option.some.inj (hinput.symm.trans hfound)
    refine ⟨_, input', hview', ?_, hinput', ?_⟩
    · rw [hrestored.edit.content.shapeClass_eq hview hview']
      by_contra hdynamic
      have hserves := hstatic _ hview (by simpa using hdynamic)
      rw [NodeView.op, servesDynamic_of_mem hop] at hserves
      exact Bool.noConfusion hserves
    · rw [NodeView.shown, Node.shownInput_congr (Node.prefers_of_bare hbare)
        (Node.op_of_core (Node.core_of_bare hbare)) hslot hlayout]
      exact hkernel

end

end Reconciliation

end LayoutPlanner
