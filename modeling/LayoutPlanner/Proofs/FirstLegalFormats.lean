import LayoutPlanner.Proofs.Idempotence
import LayoutPlanner.Proofs.Trials
import LayoutPlanner.Proofs.Turns

/-!
# First legal formats

The search for a legal layout ends as if no format had been tried in vain.

* `Legalizes` lists the ends.  A node is left alone, or it gets the first legal one of the formats
  that are its to try, or nothing about it changes but flags.
* Between the formats of the inputs and the plain ones, a node of the vendor may be handed over.
  The second half of the search then starts from the graph with the new pin (`HandsOver`), and goes
  by another mask.
* Wherever a run has come to, legalizing the node that is next ends in one of these ways
  (`first_legal_of_turn`).

Backends may look at everything in a view.  So whether they take a node is said of the graph that
they are shown, with the flags that it has by then.
-/

namespace LayoutPlanner

/-! ## The formats of the inputs -/

/-- Adding what is not there yet, one by one, is erasing duplicates. -/
theorem foldl_append_new (formats found : List Format) :
    formats.foldl (fun found format =>
      if found.contains format then found else found ++ [format]) found =
      found ++ (formats.filter (!found.contains ·)).eraseDups := by
  induction formats generalizing found with
  | nil => simp
  | cons format rest ih =>
    rw [List.foldl_cons]
    cases hfound : found.contains format with
    | true => rw [if_pos rfl, ih, List.filter_cons_of_neg (by simpa using hfound)]
    | false =>
      have hsame : rest.filter (!(found ++ [format]).contains ·) =
          (rest.filter (!found.contains ·)).filter (!· == format) := by
        rw [List.filter_filter]
        refine List.filter_congr fun other _ => ?_
        simp [Bool.and_comm, beq_eq_decide]
      rw [if_neg Bool.false_ne_true, ih, List.filter_cons_of_pos (by simpa using hfound),
        List.eraseDups_cons, hsame, List.append_assoc, List.singleton_append]

theorem NodeView.inputFormats_eq (view : NodeView) (rank : Nat) : view.inputFormats rank =
    ((view.realInputs.map (·.layout.format)).filter (·.fits rank)).eraseDups := by
  unfold inputFormats
  rw [foldl_append_new]
  simp

namespace Graph

variable {g : Graph} {id : NodeId} {node : Node}

/-- The graph with a node handed over to the generated kernels. -/
def demoted (g : Graph) (id : NodeId) : Graph :=
  g.edit id fun node => { node with pinned := some .generic, selected := some .generic }

theorem alike_demoted (hnode : g.node? id = some node) : Alike g (g.demoted id) :=
  alike_edit hnode rfl rfl

/-- It does not matter whether a node is handed over before or after trials. -/
theorem afterTrials_demoted {formats : List Format} :
    (g.demoted id).afterTrials id formats = (g.afterTrials id formats).demoted id := by
  unfold afterTrials
  split
  · rfl
  · exact touched_edit ⟨fun _ => rfl, fun _ _ => rfl⟩

end Graph

namespace Reconciliation

/-! ## The ends of a search -/

/-- The node is handed over, which is counted. -/
structure HandsOver (id : NodeId) (s base : Reconciliation) : Prop where
  graph : base.graph = s.graph.demoted id
  conversions : base.conversions = s.conversions
  created : base.created = s.created
  report : base.report = { s.report with demotions := s.report.demotions + 1, changed := true }
  failure : base.failure = s.failure

/-- How the second half of a search ends, which tries the plain formats of a rank. -/
inductive FallsBack (catalog : Catalog) (id : NodeId) (mask : KindMask) (rank : Nat)
    (tried : List Format) (base : Reconciliation) : Reconciliation → Prop
  /-- The node gets the first of them that is legal. -/
  | adopted {format : Format} (hfirst : base.graph.firstAccepted? catalog id mask
        (Format.fallbacksFor rank) = some format) :
      FallsBack catalog id mask rank tried base
        (base.withGraph (base.graph.inFormat id format)).changed
  /-- None is legal, and the run fails. -/
  | failed {error : PlanningError} (hnone : base.graph.firstAccepted? catalog id mask
        (Format.fallbacksFor rank) = none)
      (herror : (base.withGraph (base.graph.touched id)).unresolved? id mask
        (tried ++ (Format.fallbacksFor rank).filter (!tried.contains ·)) = some error) :
      FallsBack catalog id mask rank tried base
        ((base.withGraph (base.graph.touched id)).fail error)

/-- The node is refused as it is and in all the formats that are tried first. -/
structure Stuck (catalog : Catalog) (id : NodeId) (mask : KindMask) (tried : List Format)
    (s : Reconciliation) : Prop where
  refused : s.graph.isAccepted catalog id mask = false
  vain : s.graph.firstAccepted? catalog id mask tried = none

/-- How the search for a legal layout ends that tries some formats first, for a node that is shown
as `view`. -/
inductive Legalizes (cx : Context) (id : NodeId) (view : NodeView) (rank : Nat)
    (tried : List Format) (s : Reconciliation) : Reconciliation → Prop
  /-- The node is legal, and nothing happens. -/
  | legal (haccepted : s.graph.isAccepted cx.catalog id (.ofPin view.node.pinned) = true) :
      Legalizes cx id view rank tried s s
  /-- The node gets the first of the formats that is legal. -/
  | inherited {format : Format}
      (hrefused : s.graph.isAccepted cx.catalog id (.ofPin view.node.pinned) = false)
      (hfirst : s.graph.firstAccepted? cx.catalog id (.ofPin view.node.pinned) tried =
        some format) :
      Legalizes cx id view rank tried s (s.withGraph (s.graph.inFormat id format)).changed
  /-- The node waits for its shapes. -/
  | deferred (hstuck : Stuck cx.catalog id (.ofPin view.node.pinned) tried s)
      (hdynamic : view.shapeClass.isDynamic = true ∧ cx.catalog.servesDynamic view.op = true) :
      Legalizes cx id view rank tried s (s.withGraph (s.graph.afterTrials id tried))
  /-- The node stays with its owner's choice, and the plain formats are tried. -/
  | fallenBack (hstuck : Stuck cx.catalog id (.ofPin view.node.pinned) tried s)
      (hstatic : ¬(view.shapeClass.isDynamic = true ∧ cx.catalog.servesDynamic view.op = true))
      (hkept : ¬(view.node.pinned = some .vendor ∧ cx.config.allowVendorDemotion = true))
      {s' : Reconciliation}
      (hend : FallsBack cx.catalog id (.ofPin view.node.pinned) rank tried s s') :
      Legalizes cx id view rank tried s s'
  /-- The node is handed over, and is legal then. -/
  | demoted {base : Reconciliation}
      (hstuck : Stuck cx.catalog id (.ofPin view.node.pinned) tried s)
      (hstatic : ¬(view.shapeClass.isDynamic = true ∧ cx.catalog.servesDynamic view.op = true))
      (hvendor : view.node.pinned = some .vendor ∧ cx.config.allowVendorDemotion = true)
      (hbase : HandsOver id s base)
      (haccepted : (base.graph.afterTrials id tried).isAccepted cx.catalog id (.only .generic) =
        true) :
      Legalizes cx id view rank tried s (base.withGraph (base.graph.afterTrials id tried))
  /-- The node is handed over, and the plain formats are tried. -/
  | demotedAndFallenBack {base s' : Reconciliation}
      (hstuck : Stuck cx.catalog id (.ofPin view.node.pinned) tried s)
      (hstatic : ¬(view.shapeClass.isDynamic = true ∧ cx.catalog.servesDynamic view.op = true))
      (hvendor : view.node.pinned = some .vendor ∧ cx.config.allowVendorDemotion = true)
      (hbase : HandsOver id s base)
      (hrefused : (base.graph.afterTrials id tried).isAccepted cx.catalog id (.only .generic) =
        false)
      (hend : FallsBack cx.catalog id (.only .generic) rank tried base s') :
      Legalizes cx id view rank tried s s'

/-! ## Reaching an end -/

variable {cx : Context} {catalog : Catalog} {id : NodeId} {mask : KindMask} {rank : Nat}
  {tried : List Format} {view : NodeView} {node : Node} {s base s' : Reconciliation}

theorem fallbacksFor_ne_nil : Format.fallbacksFor rank ≠ [] := by
  unfold Format.fallbacksFor
  split <;> exact List.cons_ne_nil _ _

theorem fallsBack_of_fallBack? (hg : base.graph.WellFormed) (hclass : base.graph.Classified)
    (hnode : base.graph.node? id = some node)
    (h : (base.withGraph (base.graph.afterTrials id tried)).fallBack? catalog id (.ofNode node) mask
      rank tried = some s') : FallsBack catalog id mask rank tried base s' := by
  have halike : Graph.Alike base.graph (base.graph.afterTrials id tried) := Graph.alike_afterTrials
  -- The formats that are put back were saved before the trials, which does not matter.
  obtain ⟨node₁, hnode₁, hsaved⟩ : ∃ node₁,
      (base.graph.afterTrials id tried).node? id = some node₁ ∧
      FormatSnapshot.ofNode node₁ = FormatSnapshot.ofNode node :=
    (Graph.same_afterTrials fun _ _ => rfl).exists_new hnode
  rw [← hsaved] at h
  obtain ⟨⟨s₁, found⟩, hs₁, h⟩ := Option.bind_eq_some_iff.1 h
  rw [search?_eq (Format.fallbacksFor rank) (s := base.withGraph (base.graph.afterTrials id tried))
    (halike.wellFormed hg) (halike.classified hclass) hnode₁] at hs₁
  simp only [withGraph, Graph.firstAccepted?_afterTrials, Graph.inFormat_afterTrials,
    Graph.afterTrials_afterTrials fallbacksFor_ne_nil] at hs₁
  cases hfirst : base.graph.firstAccepted? catalog id mask (Format.fallbacksFor rank) with
  | some format =>
    rw [hfirst] at hs₁
    cases hs₁
    cases h
    exact .adopted hfirst
  | none =>
    rw [hfirst] at hs₁
    cases hs₁
    obtain ⟨error, herror, h⟩ := Option.bind_eq_some_iff.1 h
    cases h
    exact .failed hfirst herror

theorem exists_handsOver (hnode : s.graph.node? id = some node)
    (h : (s.withGraph (s.graph.afterTrials id tried)).handOver? id = some s') :
    ∃ base, HandsOver id s base ∧ s' = base.withGraph (base.graph.afterTrials id tried) := by
  have halike : Graph.Alike s.graph (s.graph.afterTrials id tried) := Graph.alike_afterTrials
  obtain ⟨node₁, hnode₁, _⟩ := halike.content.nodes.exists_new hnode
  obtain ⟨g, hg, h⟩ := Option.bind_eq_some_iff.1 h
  rw [withGraph, Graph.update?_eq_edit hnode₁] at hg
  cases hg
  have hgraph : s'.graph = (s.graph.afterTrials id tried).demoted id := by
    cases h
    rfl
  refine ⟨s'.withGraph (s.graph.demoted id), ?_, ?_⟩
  · cases h
    exact ⟨rfl, rfl, rfl, rfl, rfl⟩
  · simp only [withGraph]
    rw [Graph.afterTrials_demoted, ← hgraph]

theorem HandsOver.fallsBack (hbase : HandsOver id s base) (hg : s.graph.WellFormed)
    (hclass : s.graph.Classified) (hnode : s.graph.node? id = some node)
    (h : (base.withGraph (base.graph.afterTrials id tried)).fallBack? catalog id (.ofNode node) mask
      rank tried = some s') : FallsBack catalog id mask rank tried base s' := by
  have halike : Graph.Alike s.graph base.graph := hbase.graph ▸ Graph.alike_demoted hnode
  have hnode' := Graph.node?_edit_self hnode fun node =>
    { node with pinned := some .generic, selected := some .generic }
  rw [← Graph.demoted, ← hbase.graph] at hnode'
  exact fallsBack_of_fallBack? (halike.wellFormed hg) (halike.classified hclass) hnode' h

theorem legalizes_of_legalize? (hg : s.graph.WellFormed) (hclass : s.graph.Classified)
    (hview : s.graph.view? id = some view) {output : Layout}
    (houtput : view.outputs[0]? = some output) (h : s.legalize? cx id = some s') :
    Legalizes cx id view output.rank (view.inputFormats output.rank) s s' := by
  obtain ⟨found, hfound, h⟩ := Option.bind_eq_some_iff.1 h
  obtain rfl := Option.some.inj (hview.symm.trans hfound)
  obtain ⟨node, inputs, hnode, _, rfl⟩ := Graph.view?_eq_some_iff.1 hview
  dsimp only at h
  rw [← Graph.isAccepted_of_view hview] at h
  split at h
  next haccepted =>
    cases h
    exact .legal haccepted
  next hrefused =>
  rw [Bool.not_eq_true] at hrefused
  obtain ⟨_, houtput', h⟩ := Option.bind_eq_some_iff.1 h
  obtain rfl := Option.some.inj (houtput.symm.trans houtput')
  obtain ⟨⟨s₁, found⟩, hsearch, h⟩ := Option.bind_eq_some_iff.1 h
  rw [search?_eq _ hg hclass hnode] at hsearch
  generalize NodeView.inputFormats _ _ = tried at hsearch h ⊢
  cases hfirst : s.graph.firstAccepted? cx.catalog id (.ofPin node.pinned) tried with
  | some format =>
    rw [hfirst] at hsearch
    cases hsearch
    cases h
    exact .inherited hrefused hfirst
  | none =>
  rw [hfirst] at hsearch
  cases hsearch
  have hstuck : Stuck cx.catalog id (.ofPin node.pinned) tried s := ⟨hrefused, hfirst⟩
  rw [if_neg Bool.false_ne_true] at h
  split at h
  next hdynamic =>
    cases h
    exact .deferred hstuck (Bool.and_eq_true_iff.1 hdynamic)
  next hstatic =>
  rw [Bool.and_eq_true] at hstatic
  split at h
  next hvendor =>
    obtain ⟨s₂, hhanded, h⟩ := Option.bind_eq_some_iff.1 h
    obtain ⟨base, hbase, rfl⟩ := exists_handsOver hnode hhanded
    obtain ⟨view₂, hview₂, h⟩ := Option.bind_eq_some_iff.1 h
    rw [← Graph.isAccepted_of_view hview₂] at h
    split at h
    next haccepted =>
      cases h
      exact .demoted hstuck hstatic hvendor hbase haccepted
    next hrefused' =>
      exact .demotedAndFallenBack hstuck hstatic hvendor hbase (Bool.eq_false_iff.2 hrefused')
        (hbase.fallsBack hg hclass hnode h)
  next hkept =>
    exact .fallenBack hstuck hstatic hkept (fallsBack_of_fallBack? hg hclass hnode h)

/-- Wherever a run of edge agreement has come to, the visit of the node that is next goes well.  If
the node is not legal when its repairs are done, the distinct formats of its real inputs that fit
its first output are tried first. -/
theorem first_legal_of_turn {start : Graph} (hstart : start.Reached)
    (hturn : Turn cx start id s) :
    ∃ s₁ s₂ s₃ s₄ before after s', visit? cx s id = some s' ∧
      Stages cx id s s₁ s₂ s₃ s₄ before after s' ∧
      ∃ view output, before.graph.view? id = some view ∧ view.outputs[0]? = some output ∧
        Legalizes cx id view output.rank
          ((view.realInputs.map (·.layout.format)).filter (·.fits output.rank)).eraseDups
          before after := by
  obtain ⟨s₁, s₂, s₃, s₄, s₅, s₆, s', hvisit, hstages, _, hmidway⟩ := hturn.exists_stages hstart
  obtain ⟨old, hold, _⟩ := hturn.due
  obtain ⟨node, hnode, _⟩ := hmidway.sound.kept hold
  obtain ⟨inputs, _, hview⟩ := hmidway.sound.wellFormed.exists_view hnode
  obtain ⟨output, rest, houtputs⟩ :=
    List.exists_cons_of_ne_nil (hmidway.sound.wellFormed.outputs_ne hnode)
  have houtput : node.outputs[0]? = some output := by rw [houtputs, List.getElem?_cons_zero]
  refine ⟨s₁, s₂, s₃, s₄, s₅, s₆, s', hvisit, hstages, _, output, hview, houtput, ?_⟩
  rw [← NodeView.inputFormats_eq]
  exact legalizes_of_legalize? hmidway.sound.wellFormed hmidway.classified hview houtput
    hstages.legal

/-- A sum for the vendor of inputs in different formats. -/
def mixedSum : List NodeDecl :=
  let layout : Layout := ⟨.ofExtents [1, 16, 8, 8], .f32, .bfyx, {}⟩
  [{ name := "left", op := .input, outputs := [layout] },
    { name := "right", op := .input, outputs := [layout.withFormat .byxf] },
    { name := "sum", op := .eltwise, inputs := [⟨⟨0⟩, 0⟩, ⟨⟨1⟩, 0⟩],
      outputs := [layout.withFormat .any], pinned := some .vendor }]

/-- The vendor takes the sum in neither of the two formats.  The generated kernels do not take it as
it is, nor in the first plain format, but they do in the second. -/
theorem first_legal_mixedSum : ∃ g swept s, Graph.build? mixedSum = some (.ok g) ∧
    Stage.propagation.run? { catalog := transposedSums } g = some swept ∧
    Turn { catalog := transposedSums } swept.graph ⟨2⟩ s ∧
    (s.legalize? { catalog := transposedSums } ⟨2⟩).map (fun after =>
      (after.graph.node? ⟨2⟩).map fun node =>
        (node.outputs.map Layout.format, node.prefers.inputs, node.pinned)) =
      some (some ([.yxfb], [.yxfb, .yxfb], some .generic)) ∧
    ∃ s₁ s₂ s₃ s₄ before after s', visit? { catalog := transposedSums } s ⟨2⟩ = some s' ∧
      Stages { catalog := transposedSums } ⟨2⟩ s s₁ s₂ s₃ s₄ before after s' ∧
      ∃ view output, before.graph.view? ⟨2⟩ = some view ∧ view.outputs[0]? = some output ∧
        Legalizes { catalog := transposedSums } ⟨2⟩ view output.rank
          ((view.realInputs.map (·.layout.format)).filter (·.fits output.rank)).eraseDups
          before after := by
  refine ⟨?g, ?swept, ?s, ?build, ?sweep, ?turn, ?found,
    first_legal_of_turn (.stage (.built ?build) ?sweep) ?turn⟩
  case build => rfl
  case sweep => rfl
  case turn =>
    refine ⟨⟨[⟨0⟩, ⟨1⟩], ⟨[], rfl⟩, ?_⟩, ?_, _, rfl, List.cons_ne_nil _ _, rfl⟩
    · rfl
    · rfl
  case found => rfl

end Reconciliation

end LayoutPlanner
