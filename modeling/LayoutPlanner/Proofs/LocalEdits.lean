import LayoutPlanner.Graph.Resolve
import LayoutPlanner.Proofs.WellFormed

/-!
# Edits of a single node

Refreshing, marking stale, settling and forcing outputs all work on one node.  They move no edge,
and all they do to other nodes is to mark them stale.  `LocalEdit` says so once; the specification
of each operation adds what became of the node itself.
-/

namespace LayoutPlanner

/-- Only a chosen format fits a rank. -/
theorem Format.isChosen_of_fits {format : Format} {rank : Nat} (h : format.fits rank = true) :
    format.isChosen = true := by
  cases format <;> first | rfl | exact absurd h (by simp [fits, axes?])

namespace Node

/-- A preferred output format that fits the rank is the format of the output. -/
def Honours (node : Node) : Prop :=
  ∀ index layout, node.outputs[index]? = some layout →
    (node.prefers.output index).fits layout.rank → layout.format = node.prefers.output index

/-- A node after it was settled: a valid one stays as it is. -/
def afterSettling (node : Node) (inherited : List Format) : Node :=
  { node with
    outputs := if node.layoutValid then node.outputs else node.settledOutputs inherited }

theorem afterSettling_congr {a b : Node} (h : a.bare = b.bare)
    (hvalid : a.layoutValid = b.layoutValid) (inherited : List Format) :
    (a.afterSettling inherited).bare = (b.afterSettling inherited).bare := by
  have hsettled : a.settledOutputs inherited = b.settledOutputs inherited := by
    unfold settledOutputs settledFormat
    rw [outputs_of_bare h, prefers_of_bare h]
  unfold afterSettling
  rw [hsettled, hvalid, outputs_of_bare h]
  exact congrArg (fun node : Node => { node with
    outputs := if b.layoutValid then b.outputs else b.settledOutputs inherited }) h

/-- A settled output is an old one with the format that was settled for it. -/
theorem getElem?_settledOutputs {node : Node} {inherited : List Format} {index : Nat}
    {layout : Layout} : (node.settledOutputs inherited)[index]? = some layout ↔
      ∃ current : Layout, node.outputs[index]? = some current ∧
        current.withFormat (node.settledFormat inherited index current) = layout := by
  simp only [settledOutputs, List.getElem?_mapIdx, Option.map_eq_some_iff]

theorem exists_of_mem_settledOutputs {node : Node} {inherited : List Format} {layout : Layout}
    (h : layout ∈ node.settledOutputs inherited) :
    ∃ (index : Nat) (current : Layout), node.outputs[index]? = some current ∧
      current.withFormat (node.settledFormat inherited index current) = layout := by
  obtain ⟨index, hindex⟩ := List.getElem?_of_mem h
  exact ⟨index, getElem?_settledOutputs.1 hindex⟩

/-- Settling an output changes its format only. -/
theorem settledOutputs_content (node : Node) (inherited : List Format) :
    (node.settledOutputs inherited).map (·.withFormat .any) =
      node.outputs.map (·.withFormat .any) := by
  apply List.ext_getElem?
  intro index
  cases h : node.outputs[index]? <;> simp [settledOutputs, h, Layout.withFormat]

/-- Settled outputs honour the preferences, whatever they are. -/
theorem honours_settled (node : Node) (inherited : List Format) :
    Honours { node with outputs := node.settledOutputs inherited } := by
  intro index layout hlayout hfits
  obtain ⟨current, _, rfl⟩ := getElem?_settledOutputs.1 hlayout
  have hfits : (node.prefers.output index).fits current.rank := hfits
  simp [Layout.withFormat, settledFormat, hfits]

theorem Honours.congr {a b : Node} (h : a.bare = b.bare) (ha : a.Honours) : b.Honours := by
  simp only [bare, mk.injEq] at h
  intro index layout hlayout hfits
  rw [← h.2.2.2.2.2.2.2.1] at hfits ⊢
  rw [← h.2.2.2.2.2.2.1] at hlayout
  exact ha index layout hlayout hfits

/-- Settling an output that has a format already changes nothing, as long as its preference is
honoured. -/
theorem Honours.settledFormat_eq {node : Node} (h : node.Honours) {index : Nat} {layout : Layout}
    (hlayout : node.outputs[index]? = some layout) (hchosen : layout.format.isChosen)
    (inherited : List Format) : node.settledFormat inherited index layout = layout.format := by
  unfold settledFormat
  by_cases hfits : (node.prefers.output index).fits layout.rank
  · simp [hfits, h index layout hlayout hfits]
  · simp [hfits, hchosen]

/-- `node'` is `node` after its outputs were settled any number of times. -/
structure SettlesTo (node node' : Node) : Prop where
  rest : { node' with outputs := node.outputs }.bare = node.bare
  content : node'.outputs.map (·.withFormat .any) = node.outputs.map (·.withFormat .any)
  honours : node.Honours → node'.Honours
  chosen : node.Honours → ∀ {index : Nat} {layout : Layout}, node.outputs[index]? = some layout →
    layout.format.isChosen → node'.outputs[index]? = some layout

/-- What settling does not touch. -/
theorem SettlesTo.kept {node node' : Node} (h : node.SettlesTo node') :
    node'.op = node.op ∧ node'.attrs = node.attrs ∧ node'.deps = node.deps ∧
      node'.prefers = node.prefers ∧ node'.pinned = node.pinned := by
  have hrest := h.rest
  simp only [bare, mk.injEq] at hrest
  simp [hrest]

protected theorem SettlesTo.refl (node : Node) : node.SettlesTo node :=
  ⟨rfl, rfl, fun h => h, fun _ _ _ h _ => h⟩

protected theorem SettlesTo.trans {a b c : Node} (h : a.SettlesTo b) (h' : b.SettlesTo c) :
    a.SettlesTo c where
  rest := by
    have heq := congrArg (fun node : Node => { node with outputs := a.outputs }) h'.rest
    exact Eq.trans heq h.rest
  content := h'.content.trans h.content
  honours ha := h'.honours (h.honours ha)
  chosen ha _ _ hlayout hchosen := h'.chosen (h.honours ha) (h.chosen ha hlayout hchosen) hchosen

theorem SettlesTo.of_bare {node node' : Node} (h : node'.bare = node.bare) :
    node.SettlesTo node' where
  rest := by
    have heq := congrArg (fun old : Node => { old with outputs := node.outputs }) h
    exact heq
  content := by rw [outputs_of_bare h]
  honours hhonours := hhonours.congr h.symm
  chosen _ _ _ hlayout _ := by rw [outputs_of_bare h, hlayout]

theorem settlesTo_afterSettling (node : Node) (inherited : List Format) :
    node.SettlesTo (node.afterSettling inherited) := by
  unfold afterSettling
  split
  next => exact .refl node
  next =>
    refine ⟨rfl, node.settledOutputs_content inherited, fun _ => node.honours_settled inherited, ?_⟩
    intro hhonours index layout hlayout hchosen
    simp [settledOutputs, hlayout, hhonours.settledFormat_eq hlayout hchosen, Layout.withFormat]

end Node

namespace Graph

/-- An edit at `id` leaves the other nodes as they were, except that it may mark them stale. -/
structure LocalEdit (id : NodeId) (g g' : Graph) : Prop where
  content : SameContent g g'
  others : ∀ other, other ≠ id → (g'.node? other).map Node.bare = (g.node? other).map Node.bare
  stale : ∀ other node', other ≠ id → g'.node? other = some node' → node'.layoutValid = true →
    ∃ node, g.node? other = some node ∧ node.layoutValid = true

namespace LocalEdit

variable {id : NodeId} {g g' g'' : Graph}

theorem exists_other (h : LocalEdit id g g') {other : NodeId} (hne : other ≠ id) {node' : Node}
    (hnode' : g'.node? other = some node') :
    ∃ node, g.node? other = some node ∧ node'.bare = node.bare := by
  obtain ⟨node, hnode, hbare⟩ := exists_of_map_eq (h.others other hne).symm hnode'
  exact ⟨node, hnode, hbare.symm⟩

/-- The other nodes show their readers what they did. -/
theorem face_eq (h : LocalEdit id g g') {other : NodeId} (hne : other ≠ id) :
    (g'.node? other).map Node.face = (g.node? other).map Node.face := by
  have heq := h.others other hne
  cases hnode : g.node? other with
  | none =>
    rw [hnode, Option.map_none, Option.map_eq_none_iff] at heq
    rw [heq]
  | some node =>
    obtain ⟨node', hnode', hbare⟩ := exists_of_map_eq heq hnode
    rw [hnode', Option.map_some, Option.map_some, Node.face_of_bare hbare]

protected theorem refl (id : NodeId) (g : Graph) : LocalEdit id g g where
  content := .refl g
  others _ _ := rfl
  stale _ node' _ hnode hvalid := ⟨node', hnode, hvalid⟩

protected theorem trans (h : LocalEdit id g g') (h' : LocalEdit id g' g'') :
    LocalEdit id g g'' where
  content := h.content.trans h'.content
  others other hne := (h'.others other hne).trans (h.others other hne)
  stale other node'' hne hnode'' hvalid'' := by
    obtain ⟨node', hnode', hvalid'⟩ := h'.stale other node'' hne hnode'' hvalid''
    exact h.stale other node' hne hnode' hvalid'

theorem wellFormed (h : LocalEdit id g g') (hg : g.WellFormed) : g'.WellFormed :=
  hg.of_sameWiring h.content.wiring

end LocalEdit

/-- Nothing but the caches of the nodes differs. -/
structure Tidied (g g' : Graph) : Prop where
  content : SameContent g g'
  bare : Same Node.bare g g'

namespace Tidied

variable {g g' g'' : Graph}

protected theorem refl (g : Graph) : Tidied g g :=
  ⟨.refl g, .refl g⟩

protected theorem trans (h : Tidied g g') (h' : Tidied g' g'') : Tidied g g'' :=
  ⟨h.content.trans h'.content, h.bare.trans h'.bare⟩

end Tidied

/-- What an update of a node that exists does. -/
theorem update?_spec {g : Graph} {id : NodeId} {node : Node} {change : Node → Node}
    (hnode : g.node? id = some node) :
    Yields (g.update? id change) fun g' => g'.order = g.order ∧ g'.node? id = some (change node) ∧
      ∀ other, other ≠ id → g'.node? other = g.node? other := by
  obtain ⟨g', hg'⟩ : ∃ g', g.update? id change = some g' :=
    ⟨_, update?_eq_some_iff.2 ⟨lt_size_of_node? hnode, rfl⟩⟩
  refine ⟨g', hg', order_update hg', ?_, fun other hne => ?_⟩
  · simp [node?_update hg', hnode]
  · rw [node?_update hg' other]
    simp [hne]

/-- An update that keeps the content of the node is a local edit. -/
theorem localEdit_of_update {g g' : Graph} {id : NodeId} {node new : Node}
    (hnode : g.node? id = some node) (horder : g'.order = g.order)
    (hnew : g'.node? id = some new) (hothers : ∀ other, other ≠ id → g'.node? other = g.node? other)
    (hcontent : new.content = node.content) : LocalEdit id g g' where
  content := by
    refine ⟨horder, fun other => ?_⟩
    by_cases hne : other = id
    · subst hne
      simp [hnode, hnew, hcontent]
    · rw [hothers other hne]
  others other hne := by rw [hothers other hne]
  stale other node' hne hnode' hvalid := ⟨node', hothers other hne ▸ hnode', hvalid⟩

/-! ## Bookkeeping -/

theorem refresh?_spec {g : Graph} (hg : g.WellFormed) {id : NodeId} {node : Node}
    (hnode : g.node? id = some node) :
    Yields (g.refresh? id) fun g' => LocalEdit id g g' ∧ Tidied g g' ∧
      ∃ node', g'.node? id = some node' ∧ node'.bare = node.bare ∧
        node'.layoutValid = node.layoutValid := by
  obtain ⟨shapeClass, hclass⟩ := hg.exists_currentClass hnode
  refine Yields.bind_eq hclass ((update?_spec hnode).mono ?_)
  rintro g' ⟨horder, hnew, hothers⟩
  have hlocal : LocalEdit id g g' :=
    localEdit_of_update hnode horder hnew hothers (Node.content_of_bare rfl rfl)
  refine ⟨hlocal, ⟨hlocal.content, fun other => ?_⟩, _, hnew, rfl, rfl⟩
  by_cases hne : other = id
  · subst hne
    rw [hnew, hnode]
    rfl
  · exact hlocal.others other hne

theorem markStale?_spec {g : Graph} {ids : List NodeId} (hids : ∀ id ∈ ids, id.index < g.size) :
    Yields (g.markStale? ids) fun g' => g'.order = g.order ∧ ∀ other,
      g'.node? other =
        (g.node? other).map fun node => if other ∈ ids then node.stale else node := by
  refine Yields.foldlM (fun done (g' : Graph) => g'.order = g.order ∧ ∀ other, g'.node? other =
    (g.node? other).map fun node => if other ∈ done then node.stale else node) ?_ ?_
  · exact ⟨rfl, fun other => by simp⟩
  · rintro done id rest g₁ rfl ⟨horder, hnodes⟩
    obtain ⟨node, hnode⟩ := exists_node (hids id (by simp))
    have hnode₁ := hnodes id
    rw [hnode, Option.map_some] at hnode₁
    refine (update?_spec hnode₁).mono ?_
    rintro g₂ ⟨horder₂, hnew, hothers⟩
    refine ⟨horder₂.trans horder, fun other => ?_⟩
    by_cases hne : other = id
    · subst hne
      by_cases hdone : other ∈ done <;> simp [hnew, hnode, hdone, Node.stale]
    · rw [hothers other hne, hnodes other]
      simp [hne]

/-- Marking nodes stale changes nothing but their flags. -/
theorem markStale?_tidied {g : Graph} {ids : List NodeId} (hids : ∀ id ∈ ids, id.index < g.size)
    (id : NodeId) :
    Yields (g.markStale? ids) fun g' => LocalEdit id g g' ∧ Tidied g g' ∧
      ∀ node', g'.node? id = some node' →
        ∃ node, g.node? id = some node ∧ node'.bare = node.bare ∧
          (node.layoutValid = false → node'.layoutValid = false) := by
  refine (markStale?_spec hids).mono ?_
  rintro g' ⟨horder, hnodes⟩
  have hsame : Same Node.content g g' := by
    intro other
    rw [hnodes other]
    cases g.node? other with
    | none => rfl
    | some node =>
      by_cases hmem : other ∈ ids <;> simp [hmem, Node.stale, Node.content, Node.meaning]
  have hbare : Same Node.bare g g' := by
    intro other
    rw [hnodes other]
    cases g.node? other with
    | none => rfl
    | some node => by_cases hmem : other ∈ ids <;> simp [hmem, Node.stale, Node.bare]
  have hvalid : ∀ other node', g'.node? other = some node' →
      ∃ node, g.node? other = some node ∧ node'.bare = node.bare ∧
        (node.layoutValid = false → node'.layoutValid = false) := by
    intro other node' hnode'
    rw [hnodes other] at hnode'
    obtain ⟨node, hnode, rfl⟩ := Option.map_eq_some_iff.1 hnode'
    refine ⟨node, hnode, ?_⟩
    by_cases hmem : other ∈ ids <;> simp [hmem, Node.stale, Node.bare]
  refine ⟨⟨⟨horder, hsame⟩, fun other _ => hbare other, ?_⟩, ⟨⟨horder, hsame⟩, hbare⟩,
    hvalid id⟩
  intro other node' _ hnode' hflag
  obtain ⟨node, hnode, _, himp⟩ := hvalid other node' hnode'
  refine ⟨node, hnode, ?_⟩
  by_contra hne
  rw [himp (by simpa using hne)] at hflag
  exact Bool.noConfusion hflag

theorem invalidate?_spec {g : Graph} (hg : g.WellFormed) {id : NodeId} {node : Node}
    (hnode : g.node? id = some node) :
    Yields (g.invalidate? id) fun g' => LocalEdit id g g' ∧ Tidied g g' ∧
      ∃ node', g'.node? id = some node' ∧ node'.bare = node.bare ∧ node'.layoutValid = false := by
  refine Yields.bind_eq hnode (Yields.bind (update?_spec hnode) ?_)
  rintro g₁ ⟨horder, hnew, hothers⟩
  have hlocal : LocalEdit id g g₁ :=
    localEdit_of_update hnode horder hnew hothers (Node.content_of_bare rfl rfl)
  have hids : ∀ reader ∈ node.users, reader.index < g₁.size := by
    intro reader hreader
    rw [hlocal.content.nodes.size_eq]
    exact hg.lt_size_of_mem_users hnode hreader
  refine (markStale?_tidied hids id).mono ?_
  rintro g' ⟨hlocal', htidied', hstale⟩
  have hbare : Same Node.bare g g₁ := by
    intro other
    by_cases hne : other = id
    · subst hne
      rw [hnew, hnode]
      rfl
    · exact hlocal.others other hne
  have htidied : Tidied g g' := ⟨hlocal.content.trans hlocal'.content, hbare.trans htidied'.bare⟩
  obtain ⟨node', hnode', himage⟩ := htidied.bare.exists_new hnode
  refine ⟨hlocal.trans hlocal', htidied, node', hnode', himage, ?_⟩
  obtain ⟨old, hold, _, himp⟩ := hstale node' hnode'
  rw [hnew] at hold
  cases hold
  exact himp rfl

/-! ## Settling and forcing outputs -/

theorem exists_inheritedFormats {g : Graph} (hg : g.WellFormed) {id : NodeId} {node : Node}
    (hnode : g.node? id = some node) :
    ∃ inherited, g.inheritedFormats? id = some inherited := by
  obtain ⟨inputs, hinputs, _⟩ := hg.exists_inputs hnode
  exact ⟨_, by simp only [inheritedFormats?, hinputs]; rfl⟩

/-- A node without inputs inherits nothing. -/
theorem eq_nil_of_inheritedFormats {g : Graph} {id : NodeId} {node : Node}
    (hnode : g.node? id = some node) {inherited : List Format}
    (h : g.inheritedFormats? id = some inherited) (hdeps : node.deps = []) : inherited = [] := by
  simpa [inheritedFormats?, inputs?, hnode, hdeps] using h.symm

theorem resolve?_spec {g : Graph} (hg : g.WellFormed) {id : NodeId} {node : Node}
    (hnode : g.node? id = some node) :
    Yields (g.resolve? id) fun out => LocalEdit id g out.1 ∧ ∃ inherited node',
      g.inheritedFormats? id = some inherited ∧ out.1.node? id = some node' ∧
        node'.bare = (node.afterSettling inherited).bare := by
  obtain ⟨inherited, hinherited⟩ := exists_inheritedFormats hg hnode
  unfold resolve?
  refine Yields.bind_eq hnode ?_
  split
  next hvalid =>
    refine Yields.pure ⟨.refl id g, inherited, node, hinherited, hnode, ?_⟩
    rw [Node.afterSettling, if_pos hvalid]
  next hstale =>
    refine Yields.bind_eq hinherited ?_
    refine Yields.bind (update?_spec hnode) ?_
    rintro g₁ ⟨horder, hnew, hothers⟩
    have hlocal₁ : LocalEdit id g g₁ := by
      refine localEdit_of_update hnode horder hnew hothers (Node.content_eq_iff.2 ⟨?_, rfl, rfl⟩)
      simp only [Node.meaning, node.settledOutputs_content]
    have hg₁ := hlocal₁.wellFormed hg
    refine Yields.bind (refresh?_spec hg₁ hnew) ?_
    rintro g₂ ⟨hlocal₂, htidied₂, node₂, hnode₂, hbare₂, _⟩
    have hpost : ∀ g₃, LocalEdit id g₂ g₃ → Tidied g₂ g₃ → LocalEdit id g g₃ ∧
        ∃ inherited node', g.inheritedFormats? id = some inherited ∧ g₃.node? id = some node' ∧
          node'.bare = (node.afterSettling inherited).bare := by
      intro g₃ hlocal₃ htidied₃
      obtain ⟨node₃, hnode₃, hbare₃⟩ := htidied₃.bare.exists_new hnode₂
      refine ⟨(hlocal₁.trans hlocal₂).trans hlocal₃, inherited, node₃, hinherited, hnode₃, ?_⟩
      rw [hbare₃, hbare₂, Node.afterSettling, if_neg hstale]
      rfl
    have hids : ∀ reader ∈ node.users, reader.index < g₂.size := by
      intro reader hreader
      rw [hlocal₂.content.nodes.size_eq, hlocal₁.content.nodes.size_eq]
      exact hg.lt_size_of_mem_users hnode hreader
    dsimp only
    split
    · refine Yields.bind (markStale?_tidied hids id) ?_
      rintro g₃ ⟨hlocal₃, htidied₃, _⟩
      exact Yields.pure (hpost g₃ hlocal₃ htidied₃)
    · exact Yields.pure (hpost g₂ (.refl id g₂) (.refl g₂))

/-- A valid node stays as it is; a stale one gets its settled outputs. -/
theorem settle?_spec {g : Graph} (hg : g.WellFormed) {id : NodeId} {node : Node}
    (hnode : g.node? id = some node) :
    Yields (g.settle? id) fun g' => LocalEdit id g g' ∧ ∃ inherited node',
      g.inheritedFormats? id = some inherited ∧ g'.node? id = some node' ∧
        node'.bare = (node.afterSettling inherited).bare :=
  Yields.bind (resolve?_spec hg hnode) fun _ hpost => Yields.pure hpost

theorem forceOutput?_spec {g : Graph} (hg : g.WellFormed) {id : NodeId} {node : Node}
    (hnode : g.node? id = some node) {index : Nat} {layout : Layout}
    (hlayout : node.outputs[index]? = some layout) (format : Format) :
    Yields (g.forceOutput? id index format) fun g' => LocalEdit id g g' ∧ ∃ node',
      g'.node? id = some node' ∧ node'.bare = { node with
        outputs := node.outputs.set index (layout.withFormat format)
        prefers := node.prefers.setOutput index format }.bare := by
  refine Yields.bind_eq hnode (Yields.bind_eq hlayout ?_)
  refine Yields.bind (update?_spec hnode) ?_
  rintro g₁ ⟨horder, hnew, hothers⟩
  have houtputs : (node.outputs.set index (layout.withFormat format)).map (·.withFormat .any) =
      node.outputs.map (·.withFormat .any) := by
    obtain ⟨hlt, rfl⟩ := List.getElem?_eq_some_iff.1 hlayout
    rw [List.map_set]
    apply List.ext_getElem?
    intro other
    by_cases hother : index = other
    · subst hother
      simp [hlt, Layout.withFormat]
    · simp [hother]
  have hlocal₁ : LocalEdit id g g₁ := by
    refine localEdit_of_update hnode horder hnew hothers (Node.content_eq_iff.2 ⟨?_, rfl, rfl⟩)
    simp only [Node.meaning, houtputs]
  have hids : ∀ reader ∈ node.users, reader.index < g₁.size := by
    intro reader hreader
    rw [hlocal₁.content.nodes.size_eq]
    exact hg.lt_size_of_mem_users hnode hreader
  refine Yields.bind (markStale?_tidied hids id) ?_
  rintro g₂ ⟨hlocal₂, htidied₂, _⟩
  have hg₂ := hlocal₂.wellFormed (hlocal₁.wellFormed hg)
  obtain ⟨node₂, hnode₂, hbare₂⟩ := htidied₂.bare.exists_new hnew
  refine (refresh?_spec hg₂ hnode₂).mono ?_
  rintro g₃ ⟨hlocal₃, _, node₃, hnode₃, hbare₃, _⟩
  exact ⟨(hlocal₁.trans hlocal₂).trans hlocal₃, node₃, hnode₃, by rw [hbare₃, hbare₂]; rfl⟩

end Graph

end LayoutPlanner
