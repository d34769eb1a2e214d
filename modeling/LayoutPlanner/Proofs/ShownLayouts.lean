import LayoutPlanner.Proofs.Assignments
import LayoutPlanner.Proofs.ConsistentFormats
import LayoutPlanner.Proofs.EdgeAgreement

/-!
# Shown and delivered layouts

A backend is shown every input in the format that the node prefers on the slot.  What is delivered
there is that format fitted to the rank.

* After a plan that ended well, every input is what its node wants (`Completed.gets`).
* The layout shown for such an input differs from it in nothing but the format, and agrees with it
  exactly if the rank leaves the preferred format as it is (`Node.Gets.shown_iff`).
* The launch plans of the built-in backends record what is shown (`Assigned.launchPlan`).
-/

namespace LayoutPlanner

/-! ## Layouts as shown -/

/-- Nothing but the format of an input is shown other than it is. -/
theorem Node.Gets.shown_eq {node : Node} {input : Input} (h : node.Gets input) :
    node.shownInput false input = input.layout.withFormat
      ((node.prefers.input input.slot).orElse input.layout.format) := by
  rw [Node.shownInput_false, h.dtype]
  rfl

/-- An input is shown as it is if the rank leaves the preferred format as it is. -/
theorem Node.Gets.shown_iff {node : Node} {input : Input} (h : node.Gets input) :
    (node.shownInput false input).key = input.layout.key ↔
      (input.layout.withFormat (node.prefers.input input.slot)).Consistent := by
  have hkey (format : Format) :
      (input.layout.withFormat format).key = input.layout.key ↔ format = input.layout.format := by
    simp [Layout.key, Layout.withFormat]
  rw [h.shown_eq, hkey, Format.orElse]
  by_cases hany : node.prefers.input input.slot = .any
  · simp [Layout.Consistent, Layout.withFormat, hany]
  · rw [if_neg hany, h.format_eq hany]
    have hconsistent : (input.layout.withFormat (node.prefers.input input.slot)).Consistent ↔
        node.prefers.input input.slot = .any ∨ (node.prefers.input input.slot).adaptTo
          input.layout.rank = node.prefers.input input.slot := Iff.rfl
    rw [hconsistent, or_iff_right hany]
    exact eq_comm

theorem Graph.inputLayout?_of_view? {g : Graph} {id : NodeId} {view : NodeView}
    (hview : g.view? id = some view) (slot : Nat) :
    view.inputLayout? slot = (g.input? id slot).map (view.node.shownInput false) := by
  obtain ⟨node, inputs, hnode, hinputs, rfl⟩ := view?_eq_some_iff.1 hview
  rw [NodeView.inputLayout?, NodeView.inputLayouts, List.getElem?_map,
    getElem?_of_inputs? hinputs]
  rfl

/-! ## Launch plans -/

/-- A built-in backend plans for the inputs it is shown. -/
theorem Builtin.plan_of_build {op : OpKind} {c : Capability} (hmem : c ∈ catalog.entries op)
    {view : NodeView} {handle : Handle} (hbuild : c.build view = .built handle) :
    ∃ plan, handle.plan = some plan ∧ plan.inputs = view.inputLayouts.map Layout.key := by
  have hplanned : ∀ {kind name}, planned kind name view = .built handle →
      ∃ plan, handle.plan = some plan ∧ plan.inputs = view.inputLayouts.map Layout.key := by
    rintro kind name ⟨⟩
    exact ⟨_, rfl, rfl⟩
  obtain ⟨d, hd, rfl⟩ := mem_entries_iff.1 hmem
  have hd' : d.build view = .built handle := hbuild
  rcases cases_of_mem hd with hroutine | ⟨_, rfl⟩ | ⟨_, rfl⟩ | rfl
  · rcases hroutine.build with heq | ⟨heq, _⟩
    · rw [heq] at hd'
      exact hplanned hd'
    · rw [heq, plannedStatic] at hd'
      split at hd'
      next => exact hplanned hd'
      next => cases hd'
  · exact hplanned hd'
  · exact hplanned hd'
  · exact hplanned hd'

namespace Construction

/-- The launch plan of a node lists its inputs as the finished graph shows them. -/
theorem Assigned.launchPlan {settled final : Graph} {id : NodeId} {node : Node}
    (h : Assigned Builtin.catalog settled final id node) (hinstalls : Installs settled final)
    {view : NodeView} (hview : final.view? id = some view) {handle : Handle}
    (hhandle : node.implementation = some handle) :
    ∃ plan, handle.plan = some plan ∧ plan.inputs = view.inputLayouts.map Layout.key := by
  cases h with
  | passive _ hnone => simp [hnone] at hhandle
  | deferred _ _ _ _ _ hnone => simp [hnone] at hhandle
  | built _ hview' _ helects hseen hbuild himplementation =>
    obtain rfl := Option.some.inj (hhandle.symm.trans himplementation)
    obtain rfl := Option.some.inj (hview.symm.trans hview')
    obtain ⟨_, before, after, hsplit, _⟩ := helects
    obtain ⟨plan, hplan, hinputs⟩ := Builtin.plan_of_build (by rw [hsplit]; simp) hbuild
    refine ⟨plan, hplan, hinputs.trans ?_⟩
    have hshown (w : NodeView) : w.inputLayouts = w.exhibit.inputs.map Prod.snd := by
      simp [NodeView.inputLayouts, NodeView.exhibit]
    rw [hshown, hshown, hinstalls.exhibit_eq hseen hview]

/-- An input that is what its node wants is so at the end. -/
theorem Constructed.gets {cx : Context} {g settled : Graph} {out : Outcome}
    (h : Constructed cx g out settled) (hhonours : g.Honours) {id : NodeId} {slot : Nat}
    {old node : Node} {before input : Input} (hold : g.node? id = some old)
    (hnode : out.graph.node? id = some node) (hbefore : g.input? id slot = some before)
    (hinput : out.graph.input? id slot = some input) (hgets : old.Gets before) :
    node.Gets input := by
  obtain ⟨input₁, hinput₁, _, hlayout₁, hchosen₁⟩ := h.settles.exists_input hhonours hbefore
  obtain ⟨_, hfound, _, hlayout⟩ := h.installs.exists_input hinput₁
  obtain rfl := Option.some.inj (hinput.symm.trans hfound)
  have hprefers := h.prefers_eq hold hnode
  have hop : node.op = old.op := by
    obtain ⟨_, hfound, hsame⟩ := h.content.nodes.exists_new hold
    obtain rfl := Option.some.inj (hnode.symm.trans hfound)
    exact Node.op_of_content hsame
  have hslot : input.slot = before.slot := by
    rw [Graph.slot_of_input? hinput, Graph.slot_of_input? hbefore]
  obtain ⟨_, hdtype, _⟩ := Layout.withFormat_any_eq_iff.1 hlayout₁
  refine ⟨?_, ?_⟩
  · by_cases hany : old.prefers.input before.slot = .any
    · rw [Node.wantedFormat, hprefers, hslot, hany]
    · have hkept : input₁.layout = before.layout := by
        refine hchosen₁ ?_
        rw [hgets.format_eq hany]
        simpa [Format.isChosen] using Format.adaptTo_ne_any _ _
      rw [Node.wantedFormat, hprefers, hslot, hlayout, hkept]
      exact hgets.format
  · have hwants := hgets.dtype
    rw [Node.wantedType] at hwants ⊢
    rw [hop, hprefers, hslot, hlayout, hdtype]
    exact hwants

end Construction

/-- At the end of a plan, a node gets what it wants, shared surfaces apart. -/
theorem Completed.gets {cx : Context} {g : Graph} {swept : Propagation.State}
    {agreed : Reconciliation} {settled : Graph} {out : Outcome}
    (h : Completed cx g swept agreed settled out) {id : NodeId} {node : Node}
    (hnode : out.graph.node? id = some node) (hreorder : node.isReorder = false) {slot : Nat}
    {input : Input} (hinput : out.graph.input? id slot = some input)
    (hconstant : input.producer.isConstant = false)
    (hshared : input.producer.isSharedSurface = false) : node.Gets input := by
  have hcontent := h.constructed.content
  obtain ⟨old, hold, hsame⟩ := hcontent.nodes.exists_old hnode
  obtain ⟨before, hbefore, _, hproducer, _⟩ := hcontent.symm.exists_input hinput
  have hreorder' : old.isReorder = false := by
    rw [← Node.isReorder_congr (Node.op_of_content hsame), hreorder]
  have hid : id.index < swept.graph.size := by
    by_contra hnew
    have hinserted := h.sound.inserted hold (Nat.not_lt.1 hnew)
    simp [Node.isReorder, hinserted.op_eq] at hreorder'
  have hgets : old.Gets before := by
    refine (Reconciliation.agreed_of_run h.ordered).post_of_eq h.agrees h.fine id hid hold hreorder'
      hbefore ?_ ?_
    · rw [Input.isReal, Node.isConstant_congr (Node.op_of_content hproducer), hconstant]
      rfl
    · rw [Node.isSharedSurface_congr (Node.attrs_of_content hproducer), hshared]
  exact h.constructed.gets h.honours hold hnode hbefore hinput hgets

/-- At the end of a plan, every node is assigned what the settled graph calls for. -/
theorem Completed.assigned {cx : Context} {g : Graph} {swept : Propagation.State}
    {agreed : Reconciliation} {settled : Graph} {out : Outcome}
    (h : Completed cx g swept agreed settled out) (hg : g.Fresh)
    (hjudges : cx.catalog.JudgesByExhibit) :
    ∃ settled', Construction.Installs settled' out.graph ∧
      ∀ {id node}, out.graph.node? id = some node →
        Construction.Assigned cx.catalog settled' out.graph id node := by
  have hunbuilt : g.Unbuilt :=
    Graph.unbuilt_iff.2 fun _ _ hfound => (hg.undecided hfound).implementation
  have hidle := Propagation.idle_of_sweep cx.catalog hunbuilt swept h.sweeps
  have hidle' := Reconciliation.idle_of_run cx hidle.unbuilt agreed h.agrees
  obtain ⟨report, hreport⟩ := Outcome.error?_eq_none_iff.1 h.built
  obtain ⟨settled', hinstalls, hassigned, _⟩ := Construction.assigned_of_construction
    h.sound.wellFormed h.sound.listed hidle'.unbuilt hjudges h.builds hreport
  exact ⟨settled', hinstalls, hassigned⟩

/-- If planning ends well, a node that is not a reorder is shown a layout for each of its slots.
Unless a constant or a shared surface feeds the slot, that is the layout of the input but for the
format; format and type are those of the input exactly if the rank of the input leaves the format
that the node prefers there as it is.  The launch plan of a built-in backend lists the format and
the type that are shown. -/
theorem shown_layouts_of_plan {decls : List NodeDecl} {g : Graph}
    (hbuild : Graph.build? decls = some (.ok g)) {cx : Context} {out : Outcome}
    (hplan : plan? cx g = some out) {report : Report} (hok : out.result = .ok report)
    {id : NodeId} {node : Node} (hnode : out.graph.node? id = some node)
    (hreorder : node.isReorder = false) {slot : Nat} (hslot : slot < node.deps.length) :
    ∃ view input shown, out.graph.view? id = some view ∧ out.graph.input? id slot = some input ∧
      view.inputLayout? slot = some shown ∧
      (input.producer.isConstant = false → input.producer.isSharedSurface = false →
        shown = input.layout.withFormat shown.format ∧
        (shown.key = input.layout.key ↔
          (input.layout.withFormat (node.prefers.input slot)).Consistent)) ∧
      (cx.catalog = Builtin.catalog → ∀ handle, node.implementation = some handle →
        ∃ plan, handle.plan = some plan ∧ plan.inputs[slot]? = some shown.key) := by
  have hfresh := Graph.fresh_of_build hbuild
  obtain ⟨swept, agreed, settled, built, hgraph, hdone⟩ := exists_completed hfresh hplan hok
  rw [hgraph] at hnode ⊢
  have hwf := hdone.sound.wellFormed.of_sameWiring hdone.constructed.content.wiring
  obtain ⟨inputs, _, hview⟩ := hwf.exists_view hnode
  obtain ⟨input, hinput⟩ := hwf.exists_input hnode hslot
  have hshown := Graph.inputLayout?_of_view? hview slot
  rw [hinput, Option.map_some] at hshown
  refine ⟨_, input, _, hview, hinput, hshown, fun hconstant hshared => ?_, ?_⟩
  · have hgets := hdone.gets hnode hreorder hinput hconstant hshared
    rw [← Graph.slot_of_input? hinput]
    refine ⟨?_, hgets.shown_iff⟩
    rw [hgets.shown_eq]
    rfl
  · intro hcatalog handle hhandle
    obtain ⟨settled', hinstalls, hassigned⟩ :=
      hdone.assigned hfresh (hcatalog ▸ Builtin.judgesByExhibit)
    obtain ⟨plan, hplan', hinputs⟩ :=
      (hcatalog ▸ hassigned hnode).launchPlan hinstalls hview hhandle
    refine ⟨plan, hplan', ?_⟩
    rw [hinputs, List.getElem?_map]
    exact congrArg (Option.map Layout.key) hshown

/-- The image is converted to the blocked format that the convolution prefers, and the convolution
is planned for that format. -/
theorem shown_layouts_byteConvolution : ∃ g out report node handle,
    Graph.build? byteConvolution = some (.ok g) ∧
    plan? { catalog := Builtin.catalog } g = some out ∧ out.result = .ok report ∧
    out.graph.node? ⟨1⟩ = some node ∧ node.isReorder = false ∧ 0 < node.deps.length ∧
    node.implementation = some handle ∧ node.prefers.input 0 = .bFsYxFsv32 ∧
    ∃ view input shown, out.graph.view? ⟨1⟩ = some view ∧
      out.graph.input? ⟨1⟩ 0 = some input ∧ view.inputLayout? 0 = some shown ∧
      (input.producer.isConstant = false → input.producer.isSharedSurface = false →
        shown = input.layout.withFormat shown.format ∧
        (shown.key = input.layout.key ↔
          (input.layout.withFormat (node.prefers.input 0)).Consistent)) ∧
      ∃ plan, handle.plan = some plan ∧ plan.inputs[0]? = some shown.key := by
  obtain ⟨view, input, shown, hview, hinput, hshown, hsame, hplans⟩ :=
    @shown_layouts_of_plan byteConvolution _ rfl { catalog := Builtin.catalog } _ rfl _ rfl ⟨1⟩ _
      rfl rfl 0 (by decide)
  exact ⟨_, _, _, _, _, rfl, rfl, rfl, rfl, rfl, by decide, rfl, rfl, view, input, shown, hview,
    hinput, hshown, hsame, hplans rfl _ rfl⟩

/-- A volume, read by a convolution whose output has one axis less. -/
def flattenedVolume : List NodeDecl :=
  [{ name := "volume", op := .input,
     outputs := [⟨.ofExtents [1, 16, 4, 8, 8], .f32, .bfzyx, {}⟩] },
    { name := "filtered", op := .convolution, inputs := [⟨⟨0⟩, 0⟩],
      outputs := [⟨.ofExtents [1, 16, 8, 8], .f32, .any, {}⟩],
      attrs := .convolution (.ofKernel [3, 3]) }]

/-- The convolution prefers a format of four axes.  It is shown the volume in that format, and
planned for it, but reads the volume as it is. -/
theorem flattenedVolume_misread : ∃ g out report node view input shown handle plan,
    Graph.build? flattenedVolume = some (.ok g) ∧
    plan? { catalog := Builtin.catalog } g = some out ∧ out.result = .ok report ∧
    out.graph.node? ⟨1⟩ = some node ∧ node.isReorder = false ∧
    out.graph.input? ⟨1⟩ 0 = some input ∧ input.producer.isConstant = false ∧
    input.producer.isSharedSurface = false ∧ input.layout.key = ⟨.bfzyx, .f32⟩ ∧
    out.graph.view? ⟨1⟩ = some view ∧ view.inputLayout? 0 = some shown ∧
    shown.key = ⟨.bFsYxFsv16, .f32⟩ ∧ node.implementation = some handle ∧
    handle.plan = some plan ∧ plan.inputs = [⟨.bFsYxFsv16, .f32⟩] :=
  ⟨_, _, _, _, _, _, _, _, _, rfl, rfl, rfl, rfl, rfl, rfl, rfl, rfl, rfl, rfl, rfl, rfl, rfl, rfl,
    rfl⟩

end LayoutPlanner
