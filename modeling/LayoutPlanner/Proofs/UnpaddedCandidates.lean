import LayoutPlanner.Proofs.Exhibits
import LayoutPlanner.Proofs.UnpaddedViews

/-!
# Candidates without padding

There are two ways to look for who gets a node.  One judges every entry by the inputs as they are,
the other judges vendor routines by inputs without batch and spatial padding.  With the built-in
backends the second one does no worse.

* Of the tests that a vendor routine is put together from, only one looks at padding, and that one
  asks for its absence.  So a routine that takes a node as it is takes it without padding
  (`IsRoutine.accepts_unpadded`).
* A search that turns away fewer entries stops no later (`find?_noLater`).
* With nothing to strip, both views show the same (`NodeView.IsStripped.exhibit_eq`).
-/

namespace LayoutPlanner

/-! ## Tests that do not look at padding -/

namespace NodeView

variable {test : Layout → Bool}

/-- An unpadded view shows an input as before, up to its padding. -/
theorem test_shown_unpadded (h : Layout.IgnoresPadding test) (view : NodeView) (input : Input) :
    test (({ view with unpadded := true } : NodeView).shown input) = test (view.shown input) :=
  h (view.shown input) (view.node.shownInput true input).padding

end NodeView

namespace Condition

variable {test : Layout → Bool}

theorem everyRealInput_unpadded (h : Layout.IgnoresPadding test) (view : NodeView) :
    everyRealInput test { view with unpadded := true } = everyRealInput test view := by
  simp only [everyRealInput, NodeView.realLayouts, NodeView.realInputs, List.all_map,
    Function.comp_def, NodeView.test_shown_unpadded h view]

theorem everyInput_unpadded (h : Layout.IgnoresPadding test) (view : NodeView) :
    everyInput test { view with unpadded := true } = everyInput test view := by
  simp only [everyInput, NodeView.inputLayouts, List.all_map, Function.comp_def,
    NodeView.test_shown_unpadded h view]

end Condition

theorem Descriptor.keysMatch_unpadded (set : KeySet) (view : NodeView) :
    keysMatch set { view with unpadded := true } = keysMatch set view := by
  simp only [keysMatch, Condition.all, List.all_cons,
    Condition.everyRealInput_unpadded set.ignoresPadding view]
  rfl

/-! ## Routines -/

/-- An input that is shown without batch and spatial padding is so in an unpadded view. -/
theorem Node.hasBatchOrSpatial_shownInput {node : Node} {input : Input} {unpadded : Bool}
    (h : (node.shownInput unpadded input).padding.hasBatchOrSpatial = false) :
    (node.shownInput true input).padding.hasBatchOrSpatial = false := by
  cases unpadded with
  | true => exact h
  | false =>
    have hplain : input.layout.padding.hasBatchOrSpatial = false := h
    simp [shownInput, hplain]

theorem Condition.noBatchOrSpatialPadding_unpadded {view : NodeView}
    (h : noBatchOrSpatialPadding view = true) :
    noBatchOrSpatialPadding { view with unpadded := true } = true := by
  simp only [noBatchOrSpatialPadding, everyRealInput, NodeView.realLayouts, List.all_map,
    List.all_eq_true, Function.comp_apply, Bool.not_eq_true'] at h ⊢
  exact fun input hmem => Node.hasBatchOrSpatial_shownInput (h input hmem)

namespace Builtin

namespace VendorRoutines

theorem withinOffsets_unpadded (view : NodeView) :
    withinOffsets { view with unpadded := true } = withinOffsets view := by
  simp only [withinOffsets, Condition.all, List.all_cons,
    Condition.everyInput_unpadded ignoresPadding_isWithinOffsets view]
  rfl

theorem convolutionAttributes_unpadded (view : NodeView) :
    convolutionAttributes { view with unpadded := true } = convolutionAttributes view := by
  simp only [convolutionAttributes, Condition.all, List.all_cons, withinOffsets_unpadded view]
  rfl

/-- A routine that takes a node as it is takes it without padding. -/
theorem IsRoutine.accepts_unpadded {op : OpKind} {d : Descriptor} (h : IsRoutine op d)
    {view : NodeView} (haccepts : d.accepts view = true) :
    d.accepts { view with unpadded := true } = true := by
  obtain ⟨hshapes, hkeys, hlayouts, hattributes⟩ := Descriptor.accepts_iff.1 haccepts
  refine Descriptor.accepts_iff.2 ⟨hshapes, fun set hset => ?_, fun c hc => ?_, fun c hc => ?_⟩
  · rw [Descriptor.keysMatch_unpadded]
    exact hkeys set hset
  · have hpadding := hlayouts c hc
    rw [h.layouts c hc] at hpadding ⊢
    exact Condition.noBatchOrSpatialPadding_unpadded hpadding
  · have hsame : c { view with unpadded := true } = c view := by
      rcases h.attributes with heq | heq
      · obtain rfl := Option.some.inj (heq.symm.trans hc)
        exact convolutionAttributes_unpadded view
      · obtain rfl := Option.some.inj (heq.symm.trans hc)
        exact withinOffsets_unpadded view
    rw [hsame]
    exact hattributes c hc

end VendorRoutines

theorem accepts_unpadded {op : OpKind} {c : Capability} (hlisted : c ∈ catalog.entries op)
    (hvendor : c.kind = .vendor) {view : NodeView} (haccepts : c.accepts view = true) :
    c.accepts { view with unpadded := true } = true := by
  obtain ⟨d, hmem, rfl⟩ := mem_entries_iff.1 hlisted
  rcases cases_of_mem hmem with hroutine | ⟨_, rfl⟩ | ⟨_, rfl⟩ | rfl
  · exact hroutine.accepts_unpadded haccepts
  all_goals cases hvendor

end Builtin

/-! ## Nothing to strip -/

/-- No input has batch or spatial padding, apart from constants and shared surfaces. -/
def NodeView.IsStripped (view : NodeView) : Prop :=
  ∀ input ∈ view.inputs, input.isReal = true → input.producer.isSharedSurface = false →
    input.layout.padding.hasBatchOrSpatial = false

theorem NodeView.IsStripped.exhibit_eq {view : NodeView} (h : view.IsStripped)
    (hplain : view.unpadded = false) :
    ({ view with unpadded := true } : NodeView).exhibit = view.exhibit := by
  have hshown : ∀ input ∈ view.inputs,
      view.node.shownInput true input = view.shown input := by
    intro input hmem
    rw [NodeView.shown, hplain]
    refine Node.shownInput_of_unpadded fun hreal => Repair.vendorPadding_eq_none_iff.2 ?_
    cases hshared : input.producer.isSharedSurface with
    | true => exact .inl rfl
    | false => exact .inr (h input hmem hreal hshared)
  refine Exhibit.ext rfl rfl rfl rfl (List.map_congr_left fun input hmem => ?_) rfl
  exact congrArg (Prod.mk input.isReal) (hshown input hmem)

/-! ## Two searches -/

/-- If a search turns away nothing that another one takes, it stops no later. -/
theorem find?_noLater {α : Type} {items : List α} {test test' : α → Bool}
    (himp : ∀ a ∈ items, test a = true → test' a = true) {a : α}
    (hfound : items.find? test = some a) :
    ∃ b before after, items.find? test' = some b ∧ items = before ++ b :: after ∧
      a ∈ b :: after ∧ a ∉ before := by
  have hmem := List.mem_of_find?_eq_some hfound
  have htaken : test' a = true := himp a hmem (List.find?_some hfound)
  have hsome : (items.find? test').isSome = true := List.find?_isSome.2 ⟨a, hmem, htaken⟩
  obtain ⟨b, hb⟩ := Option.isSome_iff_exists.1 hsome
  obtain ⟨_, before, after, rfl, hbefore⟩ := List.find?_eq_some_iff_append.1 hb
  have hnot : a ∉ before := by
    intro hearly
    simpa [htaken] using hbefore a hearly
  exact ⟨b, before, after, hb, rfl, (List.mem_append.1 hmem).resolve_left hnot, hnot⟩

namespace Catalog

variable {catalog : Catalog} {plain unpadded : NodeView} {mask : KindMask}

/-- Of the entries for an operation, `c` is the other one or stands before it. -/
def NoLater (catalog : Catalog) (op : OpKind) (c other : Capability) : Prop :=
  ∃ before after, catalog.entries op = before ++ c :: after ∧ other ∈ c :: after ∧ other ∉ before

/-- Whether the search that looks at vendor routines without padding takes an entry. -/
def isTaken (mask : KindMask) (plain unpadded : NodeView) (c : Capability) : Bool :=
  mask.contains c.kind &&
    (c.supports plain.shapeClass && c.accepts (if c.kind = .vendor then unpadded else plain))

theorem map_candidateUnpadded? :
    (catalog.candidateUnpadded? plain unpadded mask).map Prod.fst =
      (catalog.entries plain.op).find? (isTaken mask plain unpadded) := by
  have hfilter : (catalog.entries plain.op).find? (isTaken mask plain unpadded) =
      (catalog.allowed plain.op mask).find? fun c =>
        c.admits (if c.kind = .vendor then unpadded else plain) plain.shapeClass := by
    simp only [allowed, List.find?_filter, Capability.admits_eq, Bool.decide_and,
      Bool.decide_eq_true]
    rfl
  rw [hfilter, List.find?_eq_findSome?_guard, candidateUnpadded?, List.map_findSome?]
  congr 1
  funext c
  dsimp only [Function.comp_apply]
  rw [Option.guard, apply_ite (Option.map Prod.fst)]
  rfl

/-- If vendor routines take a node without padding whenever they take it as it is, the search that
looks at them without padding finds the same entry or one before it. -/
theorem exists_candidateUnpadded
    (hvendor : ∀ c ∈ catalog.entries plain.op, c.kind = .vendor → c.accepts plain = true →
      c.accepts unpadded = true)
    {c : Capability} (hfound : catalog.candidate? plain mask = some c) :
    ∃ c' seen, catalog.candidateUnpadded? plain unpadded mask = some (c', seen) ∧
      catalog.NoLater plain.op c' c := by
  have htaken : ∀ c ∈ catalog.entries plain.op,
      (mask.contains c.kind && (c.supports plain.shapeClass && c.accepts plain)) = true →
      isTaken mask plain unpadded c = true := by
    intro c hlisted htest
    simp only [isTaken, Bool.and_eq_true] at htest ⊢
    refine ⟨htest.1, htest.2.1, ?_⟩
    split
    next hkind => exact hvendor c hlisted hkind htest.2.2
    next => exact htest.2.2
  rw [candidate?_eq_find?] at hfound
  obtain ⟨c', before, after, hfirst, hplace⟩ := find?_noLater htaken hfound
  rw [← map_candidateUnpadded?, Option.map_eq_some_iff] at hfirst
  obtain ⟨⟨_, seen⟩, hfirst, rfl⟩ := hfirst
  exact ⟨_, seen, hfirst, before, after, hplace⟩

/-- If all entries say the same of both views, the two searches find the same entry. -/
theorem map_candidateUnpadded?_eq
    (hsame : ∀ c ∈ catalog.entries plain.op, c.accepts unpadded = c.accepts plain) :
    (catalog.candidateUnpadded? plain unpadded mask).map Prod.fst =
      catalog.candidate? plain mask := by
  rw [map_candidateUnpadded?, candidate?_eq_find?, ← List.head?_filter, ← List.head?_filter]
  refine congrArg List.head? (List.filter_congr fun c hlisted => ?_)
  unfold isTaken
  split
  next => rw [hsame c hlisted]
  next => rfl

end Catalog

/-- With the built-in backends, looking at vendor routines without padding never loses a candidate:
whenever a node has one as it is, it has one that is the same entry or an earlier one.  Both
searches find the same if no input has padding to strip. -/
theorem builtin_candidate_no_later {g : Graph} {id : NodeId} {plain unpadded : NodeView}
    (hplain : g.view? id = some plain) (hunpadded : g.unpaddedView? id = some unpadded)
    (mask : KindMask) :
    (∀ c, Builtin.catalog.candidate? plain mask = some c →
      ∃ c' seen, Builtin.catalog.candidateUnpadded? plain unpadded mask = some (c', seen) ∧
        Builtin.catalog.NoLater plain.op c' c) ∧
    (plain.IsStripped →
      (Builtin.catalog.candidateUnpadded? plain unpadded mask).map Prod.fst =
        Builtin.catalog.candidate? plain mask) := by
  have hview : unpadded = { plain with unpadded := true } := by
    rw [Graph.unpaddedView?, hplain] at hunpadded
    exact (Option.some.inj hunpadded).symm
  have hflag : plain.unpadded = false := by
    obtain ⟨_, _, _, _, rfl⟩ := Graph.view?_eq_some_iff.1 hplain
    rfl
  subst hview
  constructor
  · intro c hfound
    exact Catalog.exists_candidateUnpadded
      (fun c hlisted hvendor haccepts => Builtin.accepts_unpadded hlisted hvendor haccepts) hfound
  · intro hstripped
    exact Catalog.map_candidateUnpadded?_eq fun c hlisted =>
      Builtin.judgesByExhibit hlisted (hstripped.exhibit_eq hflag)

/-- A padded image that is read by a convolution, and by another one through a shared surface. -/
def paddedSurface : List NodeDecl :=
  let padded : Layout := ⟨.ofExtents [1, 16, 8, 8], .f32, .bfyx, .of [0, 2, 1, 1] [0, 2, 1, 1]⟩
  let filtered (source : NodeId) : NodeDecl :=
    { name := "filtered", op := .convolution, inputs := [⟨source, 0⟩],
      outputs := [padded.withPadding {}], attrs := .convolution (.ofKernel [3, 3]) }
  [{ name := "image", op := .input, outputs := [padded] },
    { name := "surface", op := .reorder, inputs := [⟨⟨0⟩, 0⟩], outputs := [padded],
      attrs := .reorder ⟨.bfyx, .f32, .sharedSurface, true⟩ },
    filtered ⟨0⟩, filtered ⟨1⟩]

/-- Without padding the vendor gets the first convolution, which was for a generated kernel.  The
padding of the surface cannot be stripped, so the second convolution stays with the kernel. -/
theorem builtin_candidate_paddedSurface : ∃ g plain unpadded plain' unpadded',
    Graph.build? paddedSurface = some (.ok g) ∧
    g.view? ⟨2⟩ = some plain ∧ g.unpaddedView? ⟨2⟩ = some unpadded ∧
    (Builtin.catalog.candidate? plain .any).map Capability.kind = some .generic ∧
    (Builtin.catalog.candidateUnpadded? plain unpadded .any).map (·.1.kind) = some .vendor ∧
    (∀ c, Builtin.catalog.candidate? plain .any = some c →
      ∃ c' seen, Builtin.catalog.candidateUnpadded? plain unpadded .any = some (c', seen) ∧
        Builtin.catalog.NoLater plain.op c' c) ∧
    g.view? ⟨3⟩ = some plain' ∧ g.unpaddedView? ⟨3⟩ = some unpadded' ∧
    plain'.inputs.map (·.layout.padding.hasBatchOrSpatial) = [true] ∧ plain'.IsStripped ∧
    (Builtin.catalog.candidate? plain' .any).map Capability.kind = some .generic ∧
    (Builtin.catalog.candidateUnpadded? plain' unpadded' .any).map Prod.fst =
      Builtin.catalog.candidate? plain' .any := by
  refine ⟨?g, ?plain, ?unpadded, ?plain', ?unpadded', ?build, ?shown, ?bare, ?kernel, ?vendor,
    (builtin_candidate_no_later ?shown ?bare .any).1, ?shown', ?bare', ?padded, ?stripped, ?kernel',
    (builtin_candidate_no_later ?shown' ?bare' .any).2 ?stripped⟩
  case build => rfl
  case shown => rfl
  case bare => rfl
  case shown' => rfl
  case bare' => rfl
  case kernel => rfl
  case vendor => rfl
  case kernel' => rfl
  case padded => rfl
  case stripped =>
    intro input hmem _ hshared
    rw [List.mem_singleton.1 hmem] at hshared
    cases hshared

end LayoutPlanner
