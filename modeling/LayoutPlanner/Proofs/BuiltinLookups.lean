import LayoutPlanner.Builtin.Catalog
import LayoutPlanner.Proofs.Consultations

/-!
# Look-ups of the built-in backends

A view hands its inputs over in a list.  A backend that has the graph and the node only would look
them up, slot by slot, and any of these look-ups might lead nowhere.  Here the built-in descriptors
are written that way, as readings (`Builtin.readers`).  On a complete view every look-up leads
somewhere, and a reading comes to what its descriptor says (`Builtin.reads`).

With what `Consultations` has about the views that backends are asked about, no reference leads
nowhere in a run of the standard pipeline, inside of the built-in backends or outside of them.
-/

namespace LayoutPlanner

/-! ## Looking things up -/

namespace NodeView

def slots (view : NodeView) : List Nat :=
  List.range view.node.deps.length

/-- What feeds a slot. -/
def lookUp? (view : NodeView) (slot : Nat) : Option Input := do
  view.graph.follow? (← view.node.deps[slot]?) slot

/-- Whether a constant feeds a slot. -/
def isConstantAt? (view : NodeView) (slot : Nat) : Option Bool := do
  let edge ← view.node.deps[slot]?
  return (← view.graph.node? edge.node).isConstant

/-- The slots that no constant feeds. -/
def realSlots? (view : NodeView) : Option (List Nat) := do
  let sources ← view.slots.mapM fun slot => do return (slot, ← view.isConstantAt? slot)
  return (sources.filter fun source => !source.2).map Prod.fst

namespace Complete

variable {view : NodeView}

theorem lookUp?_eq (h : view.Complete) (slot : Nat) :
    view.lookUp? slot = view.graph.input? view.id slot := by
  simp [lookUp?, Graph.input?, Graph.dep?, h.node]

theorem lookUp?_of_mem (h : view.Complete) {input : Input} (hmem : input ∈ view.inputs) :
    view.lookUp? input.slot = some input := by
  rw [h.lookUp?_eq]
  exact (Graph.mem_inputs?_iff h.inputs).1 hmem

theorem isConstantAt?_of_mem (h : view.Complete) {input : Input} (hmem : input ∈ view.inputs) :
    view.isConstantAt? input.slot = some input.producer.isConstant := by
  obtain ⟨node, hnode, hdep, _, hproducer, _⟩ :=
    Graph.input?_eq_some_iff.1 ((Graph.mem_inputs?_iff h.inputs).1 hmem)
  obtain rfl := Option.some.inj (h.node.symm.trans hnode)
  simp [isConstantAt?, hdep, hproducer]

/-- The inputs are those on the slots. -/
theorem slots_eq (h : view.Complete) : view.slots = view.inputs.map Input.slot := by
  have hinputs := h.inputs
  rw [Graph.inputs?, h.node, Option.bind_eq_bind, Option.bind_some, mapM_eq_some_iff] at hinputs
  have hslots : List.Forall₂ (fun (entry : Edge × Nat) (input : Input) => entry.2 = input.slot)
      view.node.deps.zipIdx view.inputs :=
    hinputs.imp fun entry input hfollow => (Graph.follow?_eq_some_iff.1 hfollow).1.symm
  have hmaps : view.node.deps.zipIdx.map Prod.snd = view.inputs.map Input.slot := by
    rw [← List.forall₂_eq_eq_eq, List.forall₂_map_left_iff, List.forall₂_map_right_iff]
    exact hslots
  rw [← hmaps, List.zipIdx_map_snd, slots, List.range_eq_range']

theorem mapM_slots (h : view.Complete) : view.slots.mapM view.lookUp? = some view.inputs := by
  rw [h.slots_eq, mapM_eq_some_iff, List.forall₂_map_left_iff, List.forall₂_same]
  exact fun input hmem => h.lookUp?_of_mem hmem

theorem realSlots?_eq (h : view.Complete) :
    view.realSlots? = some (view.realInputs.map Input.slot) := by
  have hsources : (view.slots.mapM fun slot => do return (slot, ← view.isConstantAt? slot)) =
      some (view.inputs.map fun input => (input.slot, input.producer.isConstant)) := by
    rw [h.slots_eq, mapM_eq_some_iff, List.forall₂_map_left_iff, List.forall₂_map_right_iff,
      List.forall₂_same]
    intro input hmem
    rw [h.isConstantAt?_of_mem hmem]
    rfl
  rw [realSlots?, hsources, Option.bind_eq_bind, Option.bind_some, List.filter_map, List.map_map]
  rfl

end Complete

end NodeView

/-! ## Readings -/

/-- What a backend makes of a node, look-up by look-up.  It comes to nothing if it looks for
something that is not there. -/
abbrev Reading (α : Type) := NodeView → Option α

namespace Reading

/-- An answer for which nothing has to be looked up. -/
def direct {α : Type} (answer : NodeView → α) : Reading α :=
  fun view => some (answer view)

/-- An answer for which the inputs are looked up first, one after the other. -/
def ofInputs {α : Type} (answer : NodeView → α) : Reading α := fun view => do
  return answer { view with inputs := ← view.slots.mapM view.lookUp? }

/-- Tests in order, up to the first that fails. -/
def all (tests : List (Reading Bool)) : Reading Bool :=
  fun view => tests.allM (· view)

def inputPasses (test : Layout → Bool) (slot : Nat) : Reading Bool := fun view => do
  return test (view.shown (← view.lookUp? slot))

def everyInput (test : Layout → Bool) : Reading Bool :=
  fun view => view.slots.allM (inputPasses test · view)

def everyRealInput (test : Layout → Bool) : Reading Bool := fun view => do
  (← view.realSlots?).allM (inputPasses test · view)

/-- The shape class is served, real inputs and outputs have accepted keys, and the conditions
hold. -/
def accepts (shapes : ShapeSupport) (keys : Option KeySet) (layouts attributes : Reading Bool) :
    Reading Bool :=
  all [
    fun view => do return shapes.supports (← view.graph.currentClass? view.id),
    match keys with
      | none => direct fun _ => true
      | some set => all [everyRealInput set.accepts, direct (Condition.everyOutput set.accepts)],
    layouts,
    attributes]

/-- On complete views the reading comes to the answer. -/
def Reads {α : Type} (reading : Reading α) (answer : NodeView → α) : Prop :=
  ∀ {view : NodeView}, view.Complete → reading view = some (answer view)

theorem reads_direct {α : Type} (answer : NodeView → α) : Reads (direct answer) answer :=
  fun _ => rfl

theorem reads_ofInputs {α : Type} (answer : NodeView → α) : Reads (ofInputs answer) answer := by
  intro view hview
  simp [ofInputs, hview.mapM_slots]

theorem allM_eq {α β : Type} {items : List α} {items' : List β} {run : α → Option Bool}
    {test : β → Bool} (h : List.Forall₂ (fun a b => run a = some (test b)) items items') :
    items.allM run = some (items'.all test) := by
  induction h with
  | nil => rfl
  | @cons a b _ _ hhead _ ih =>
    rw [List.allM, hhead, List.all_cons]
    cases test b
    · rfl
    · simpa using ih

theorem reads_all {tests : List (Reading Bool)} {conditions : List Condition}
    (h : List.Forall₂ Reads tests conditions) : Reads (all tests) (Condition.all conditions) :=
  fun hview => allM_eq (h.imp fun _ _ hreads => hreads hview)

theorem reads_everyInput (test : Layout → Bool) :
    Reads (everyInput test) (Condition.everyInput test) := by
  intro view hview
  have hall : view.slots.allM (inputPasses test · view) =
      some (view.inputs.all fun input => test (view.shown input)) := by
    rw [hview.slots_eq]
    refine allM_eq ?_
    rw [List.forall₂_map_left_iff, List.forall₂_same]
    intro input hmem
    simp [inputPasses, hview.lookUp?_of_mem hmem]
  rw [everyInput, hall, Condition.everyInput, NodeView.inputLayouts, List.all_map]
  rfl

theorem reads_everyRealInput (test : Layout → Bool) :
    Reads (everyRealInput test) (Condition.everyRealInput test) := by
  intro view hview
  have hall : (view.realInputs.map Input.slot).allM (inputPasses test · view) =
      some (view.realInputs.all fun input => test (view.shown input)) := by
    refine allM_eq ?_
    rw [List.forall₂_map_left_iff, List.forall₂_same]
    intro input hmem
    simp [inputPasses, hview.lookUp?_of_mem (List.mem_of_mem_filter hmem)]
  rw [everyRealInput, hview.realSlots?_eq, Option.bind_eq_bind, Option.bind_some, hall,
    Condition.everyRealInput, NodeView.realLayouts, List.all_map]
  rfl

theorem reads_accepts {d : Descriptor} {layouts attributes : Reading Bool}
    (hlayouts : Reads layouts fun view => d.layouts.all (· view))
    (hattributes : Reads attributes fun view => d.attributes.all (· view)) :
    Reads (accepts d.shapes d.keys layouts attributes) d.accepts := by
  refine reads_all (.cons ?_ (.cons ?_ (.cons hlayouts (.cons hattributes .nil))))
  · intro view hview
    simp [Graph.currentClass?, hview.node, hview.inputs, NodeView.shapeClass]
  · cases d.keys with
    | none => exact reads_direct _
    | some set =>
      exact reads_all (.cons (reads_everyRealInput _) (.cons (reads_direct _) .nil))

end Reading

/-- The readings that stand for a descriptor. -/
structure Reader where
  accepts : Reading Bool
  preference : Reading (Option FormatPreference)
  build : Reading BuildResult

namespace Reader

/-- The readings of a descriptor that has no opinion on formats and builds from its inputs. -/
def ofDescriptor (d : Descriptor) (layouts attributes : Reading Bool) : Reader where
  accepts := .accepts d.shapes d.keys layouts attributes
  preference := .direct fun _ => none
  build := .ofInputs d.build

/-- On complete views the readings come to what the descriptor says. -/
structure Reads (reader : Reader) (d : Descriptor) : Prop where
  accepts : Reading.Reads reader.accepts d.accepts
  preference : Reading.Reads reader.preference d.preference
  build : Reading.Reads reader.build d.build

theorem reads_ofDescriptor {d : Descriptor} {layouts attributes : Reading Bool}
    (hlayouts : Reading.Reads layouts fun view => d.layouts.all (· view))
    (hattributes : Reading.Reads attributes fun view => d.attributes.all (· view))
    (hformats : d.formats = none) : (ofDescriptor d layouts attributes).Reads d where
  accepts := Reading.reads_accepts hlayouts hattributes
  preference _ := by simp [ofDescriptor, Reading.direct, Descriptor.preference, hformats]
  build := Reading.reads_ofInputs d.build

end Reader

/-! ## The built-in descriptors -/

namespace Builtin

open Reading

namespace VendorRoutines

def readsUnpadded : Reading Bool :=
  everyRealInput fun layout => !layout.padding.hasBatchOrSpatial

def readsWithinOffsets : Reading Bool :=
  all [everyInput isWithinOffsets, direct (Condition.everyOutput isWithinOffsets)]

def readsConvolution : Reading Bool :=
  all [direct (Condition.convolution smallWindow), readsWithinOffsets]

/-- The first output is looked up, and then what feeds each slot. -/
def readsPreference : Reading (Option FormatPreference) := fun view => do
  match fastestFormat? (← view.outputs[0]?) with
  | none => return none
  | some format =>
    let inputs ← view.slots.mapM fun slot =>
      (view.isConstantAt? slot).map fun constant => if constant then Format.any else format
    return some { inputs, outputs := [format] }

def readers : List (OpKind × Reader) :=
  [(.convolution, { Reader.ofDescriptor convolution readsUnpadded readsConvolution with
      preference := fun view => do return (← readsPreference view).filter (!·.isEmpty) }),
    (.deconvolution, .ofDescriptor deconvolution readsUnpadded readsConvolution),
    (.fullyConnected, .ofDescriptor fullyConnected readsUnpadded readsWithinOffsets),
    (.gemm, .ofDescriptor gemm readsUnpadded readsWithinOffsets),
    (.pooling, .ofDescriptor pooling readsUnpadded readsWithinOffsets),
    (.concatenation, .ofDescriptor concatenation readsUnpadded readsWithinOffsets),
    (.reorder, .ofDescriptor reorder (direct fun _ => true) readsWithinOffsets)]

theorem reads_withinOffsets : Reads readsWithinOffsets withinOffsets :=
  reads_all (.cons (reads_everyInput _) (.cons (reads_direct _) .nil))

theorem reads_convolution : Reads readsConvolution convolutionAttributes :=
  reads_all (.cons (reads_direct _) (.cons reads_withinOffsets .nil))

theorem reads_preference : Reads readsPreference convolutionPreference := by
  intro view hview
  obtain ⟨output, houtput⟩ : ∃ output, view.outputs[0]? = some output :=
    ⟨_, List.getElem?_eq_getElem (List.length_pos_iff.2 hview.outputs_ne)⟩
  have hinputs : ∀ format : Format, (view.slots.mapM fun slot =>
      (view.isConstantAt? slot).map fun constant => if constant then Format.any else format) =
      some (view.inputs.map fun input => if input.isReal then format else .any) := by
    intro format
    rw [hview.slots_eq, mapM_eq_some_iff, List.forall₂_map_left_iff, List.forall₂_map_right_iff,
      List.forall₂_same]
    intro input hmem
    rw [hview.isConstantAt?_of_mem hmem, Input.isReal]
    cases input.producer.isConstant <;> rfl
  simp only [readsPreference, convolutionPreference, houtput, hinputs, Option.bind_eq_bind,
    Option.bind_some]
  cases fastestFormat? output <;> rfl

theorem reads_readers : List.Forall₂ (fun reader entry => reader.1 = entry.1 ∧
    reader.2.Reads entry.2) readers descriptors := by
  have hunpadded : Reads readsUnpadded fun view =>
      (some Condition.noBatchOrSpatialPadding).all (· view) := reads_everyRealInput _
  have hoffsets : Reads readsWithinOffsets fun view => (some withinOffsets).all (· view) :=
    reads_withinOffsets
  have hconvolution : Reads readsConvolution fun view =>
      (some convolutionAttributes).all (· view) := reads_convolution
  refine .cons ⟨rfl, ?_⟩ (.cons ⟨rfl, ?_⟩ (.cons ⟨rfl, ?_⟩ (.cons ⟨rfl, ?_⟩ (.cons ⟨rfl, ?_⟩
    (.cons ⟨rfl, ?_⟩ (.cons ⟨rfl, ?_⟩ .nil))))))
  · exact {
      accepts := reads_accepts hunpadded hconvolution
      preference := fun hview => by dsimp only; rw [reads_preference hview]; rfl
      build := reads_ofInputs _ }
  · exact Reader.reads_ofDescriptor hunpadded hconvolution rfl
  · exact Reader.reads_ofDescriptor hunpadded hoffsets rfl
  · exact Reader.reads_ofDescriptor hunpadded hoffsets rfl
  · exact Reader.reads_ofDescriptor hunpadded hoffsets rfl
  · exact Reader.reads_ofDescriptor hunpadded hoffsets rfl
  · exact Reader.reads_ofDescriptor (reads_direct _) hoffsets rfl

end VendorRoutines

/-- A test of every real input and every output. -/
def readsLayouts (test : Layout → Bool) : Reading Bool :=
  all [everyRealInput test, direct (Condition.everyOutput test)]

theorem reads_layouts (test : Layout → Bool) :
    Reads (readsLayouts test) (Condition.all [.everyRealInput test, .everyOutput test]) :=
  reads_all (.cons (reads_everyRealInput _) (.cons (reads_direct _) .nil))

/-- The reading of a generated kernel. -/
def kernelReader (op : OpKind) (test : Layout → Bool) : Reader :=
  .ofDescriptor (DeviceKernels.kernel op test) (readsLayouts test) (direct fun _ => true)

theorem reads_kernel (op : OpKind) (test : Layout → Bool) :
    (kernelReader op test).Reads (DeviceKernels.kernel op test) :=
  Reader.reads_ofDescriptor (reads_layouts test) (reads_direct _) rfl

/-- The reading of a host routine. -/
def hostReader (op : OpKind) : Reader :=
  .ofDescriptor (HostCode.routine op) (readsLayouts HostCode.isUnpadded) (direct fun _ => true)

theorem reads_host (op : OpKind) : (hostReader op).Reads (HostCode.routine op) :=
  Reader.reads_ofDescriptor (reads_layouts _) (reads_direct _) rfl

/-- The built-in descriptors, look-up by look-up. -/
def readers : List (OpKind × Reader) :=
  VendorRoutines.readers ++
    (DeviceKernels.ops.map (fun op => (op, kernelReader op DeviceKernels.isKernelLayout)) ++
      [(.reorder, kernelReader .reorder Layout.fitsRank)]) ++
    HostCode.ops.map fun op => (op, hostReader op)

theorem reads_readers : List.Forall₂ (fun reader entry => reader.1 = entry.1 ∧
    reader.2.Reads entry.2) readers descriptors := by
  refine List.rel_append (List.rel_append VendorRoutines.reads_readers (List.rel_append ?_ ?_)) ?_
  · rw [List.forall₂_map_left_iff, List.forall₂_map_right_iff, List.forall₂_same]
    exact fun op _ => ⟨rfl, reads_kernel op _⟩
  · exact .cons ⟨rfl, reads_kernel .reorder _⟩ .nil
  · rw [HostCode.descriptors, List.forall₂_map_left_iff, List.forall₂_map_right_iff,
      List.forall₂_same]
    exact fun op _ => ⟨rfl, reads_host op⟩

end Builtin

/-! ## Runs -/

/-- However far the standard pipeline is run on a fresh graph, it comes to an outcome. -/
theorem Pipeline.exists_outcome (cx : Context) {g : Graph} (hg : g.Fresh) {stages : List Stage}
    (hstages : stages <+: standard) : ∃ out, run? stages cx g = some out := by
  have hpropagation : Yields (g.order.foldlM (Propagation.visit? cx.catalog) { graph := g })
      fun _ => True := by
    obtain ⟨_, _, _, s, hs, _⟩ := Propagation.run?_spec cx hg.toOrdered
    exact .of_eq hs trivial
  have hagreement : ∀ {g₁ : Graph}, g₁.Ordered →
      Yields (g₁.order.foldlM (Reconciliation.visit? cx) { graph := g₁ }) fun _ => True := by
    intro g₁ hordered
    obtain ⟨_, _, s, hs, _⟩ := Reconciliation.run?_spec cx hordered
    exact .of_eq hs trivial
  obtain ⟨out, hout, _⟩ := run?_prefix (fun _ => True) cx hg trivial hpropagation
    (fun _ hordered _ => hagreement hordered)
    (fun hwf hlisted _ => (Construction.run?_spec cx hwf hlisted).mono fun _ _ => trivial) hstages
  exact ⟨out, hout⟩

/-- No reference leads nowhere, however far the standard pipeline is run on a graph that was built.
The run comes to an outcome.  Backends are asked about complete views only: what they would say
about others makes no difference.  And about complete views the built-in backends find all that
they look for. -/
theorem references_of_run {decls : List NodeDecl} {g : Graph}
    (hbuild : Graph.build? decls = some (.ok g)) (cx : Context) {stages : List Stage}
    (hstages : stages <+: Pipeline.standard) :
    (∃ out, Pipeline.run? stages cx g = some out) ∧
    (∀ catalog, cx.catalog.Agrees catalog →
      Pipeline.run? stages { cx with catalog } g = Pipeline.run? stages cx g) ∧
    List.Forall₂ (fun reader entry => reader.1 = entry.1 ∧ reader.2.Reads entry.2)
      Builtin.readers Builtin.descriptors := by
  have hfresh := Graph.fresh_of_build hbuild
  refine ⟨Pipeline.exists_outcome cx hfresh hstages, fun catalog hagrees => ?_,
    Builtin.reads_readers⟩
  have hcx : cx.catalog.Agrees (Context.catalog { cx with catalog }) := hagrees
  exact Pipeline.run?_congr hcx rfl rfl hfresh hstages

theorem references_byteConvolution : ∃ g, Graph.build? byteConvolution = some (.ok g) ∧
    Pipeline.standard <+: Pipeline.standard ∧
    (∃ out, Pipeline.run? Pipeline.standard { catalog := Builtin.catalog } g = some out) ∧
    (∀ catalog, Builtin.catalog.Agrees catalog →
      Pipeline.run? Pipeline.standard { catalog } g =
        Pipeline.run? Pipeline.standard { catalog := Builtin.catalog } g) ∧
    List.Forall₂ (fun reader entry => reader.1 = entry.1 ∧ reader.2.Reads entry.2)
      Builtin.readers Builtin.descriptors :=
  ⟨_, rfl, List.prefix_rfl, @references_of_run byteConvolution _ rfl
    { catalog := Builtin.catalog } _ List.prefix_rfl⟩

end LayoutPlanner
