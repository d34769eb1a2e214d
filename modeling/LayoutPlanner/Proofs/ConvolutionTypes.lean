import LayoutPlanner.Proofs.StoredTypes

/-!
# The types that convolutions read

A convolution that writes no state reads every input in the element type that the producer puts out.
No repair of such a node asks for another type (`Demands.dtype_of_takesTypes`), and a conversion for
one slot does not show on any other.  So a reorder that several nodes share cannot bring a type to a
convolution that one of the others prefers.
-/

namespace LayoutPlanner

/-- The node takes what it reads in the type in which it comes. -/
structure Node.TakesTypes (node : Node) : Prop where
  convolves : node.op.isConvolutionLike = true
  writesNone : ∀ cell declared, node.attrs ≠ .stateWrite cell declared

theorem Node.TakesTypes.of_meaning {a b : Node} (h : a.meaning = b.meaning)
    (hb : b.TakesTypes) : a.TakesTypes where
  convolves := by rw [Node.op_of_meaning h, hb.convolves]
  writesNone := by rw [Node.attrs_of_meaning h]; exact hb.writesNone

theorem Node.TakesTypes.wantedType_eq {node : Node} (h : node.TakesTypes) (slot : Nat)
    (source : Layout) : node.wantedType slot source = source.dtype :=
  Node.wantedType_eq_iff.2 (Or.inl h.convolves)

namespace Reconciliation

variable {start : Graph} {cx : Context} {id : NodeId} {s s' : Reconciliation}

theorem Demands.dtype_of_takesTypes {node : Node} {input : Input} {demand : Demand}
    (h : Demands s node input demand) (hnode : node.TakesTypes) :
    demand.target.dtype = input.layout.dtype := by
  cases h with
  | stateType h =>
    unfold Repair.stateType at h
    split at h
    next cell declared hattrs => exact absurd hattrs (hnode.writesNone cell declared)
    next => cases h
  | fusedConstant _ h =>
    unfold Repair.fusedConstant at h
    dsimp only at h
    split at h <;> cases h
    rfl
  | normalizationPadding _ _ _ h =>
    rw [Repair.dtype_of_normalizationPadding h, hnode.wantedType_eq]
  | vendorPadding _ _ h => rw [Repair.dtype_of_vendorPadding h, hnode.wantedType_eq]
  | agreement _ h =>
    rw [(Repair.of_agreement h).2.2]
    exact hnode.wantedType_eq _ _

/-! ## Along a run -/

/-- Convolutions read their inputs in the types of the old edges. -/
def KeepsTypes (start : Graph) (s : Reconciliation) : Prop :=
  ∀ id old slot origin input, start.node? id = some old → old.TakesTypes →
    start.input? id slot = some origin → s.graph.input? id slot = some input →
    input.layout.dtype = origin.layout.dtype

theorem keepsTypes_start : KeepsTypes start { graph := start } := by
  intro id old slot origin input _ _ horigin hinput
  obtain rfl := Option.some.inj (horigin.symm.trans hinput)
  rfl

theorem KeepsTypes.localEdit (h : KeepsTypes start s)
    (hedit : Graph.LocalEdit id s.graph s'.graph) : KeepsTypes start s' := by
  intro other old slot origin input' hold htakes horigin hinput'
  obtain ⟨input, hinput, _, _, hlayout⟩ := hedit.content.symm.exists_input hinput'
  rw [← (Layout.withFormat_any_eq_iff.1 hlayout).2.1]
  exact h other old slot origin input hold htakes horigin hinput

theorem KeepsTypes.convert (h : KeepsTypes start s) (hstart : start.WellFormed)
    (hs : Sound start s) (hid : id.index < start.size) {slot : Nat} {node : Node} {input : Input}
    {demand : Demand} (hnode : s.graph.node? id = some node)
    (hinput : s.graph.input? id slot = some input) (hdemands : Demands s node input demand)
    (hconvert : s.convert? id slot demand.target demand.reason = some s') :
    KeepsTypes start s' := by
  intro other old slot' origin input' hold htakes horigin hinput'
  have hconverted :=
    (convert?_spec hstart hs hid hinput hdemands.shape_eq demand.reason).post_of_eq hconvert
  by_cases hself : other = id ∧ slot' = slot
  · obtain ⟨rfl, rfl⟩ := hself
    obtain ⟨_, hfound, hmeaning, _⟩ := hs.kept hold
    obtain rfl := Option.some.inj (hnode.symm.trans hfound)
    obtain ⟨_, hdelivered⟩ :=
      hconverted.exists_delivered hnode (Graph.lt_length_of_input? hnode hinput)
    obtain rfl := Option.some.inj (hinput'.symm.trans hdelivered.at_slot)
    rw [hdelivered.layout_eq, hdemands.dtype_of_takesTypes (htakes.of_meaning hmeaning)]
    exact h other old _ origin input hold htakes horigin hinput
  · obtain ⟨before, hbefore, hface⟩ :=
      exists_of_map_eq (hconverted.inputs (Graph.lt_size_of_node? hold) hself).symm hinput'
    rw [Input.layout_of_face hinput' hbefore hface.symm]
    exact h other old slot' origin before hold htakes horigin hbefore

theorem KeepsTypes.move (h : KeepsTypes start s) (hstart : start.WellFormed) (hs : Sound start s)
    (hid : id.index < start.size) (hmove : Move id s s') : KeepsTypes start s' := by
  obtain ⟨node, hnode⟩ := Graph.exists_node (Nat.lt_of_lt_of_le hid hs.grown)
  cases hmove with
  | settle hsettle =>
    have hedit := ((Graph.settle?_spec hs.wellFormed hnode).post_of_eq hsettle).1
    exact h.localEdit hedit
  | invalidate hinvalidate =>
    have hedit := ((Graph.invalidate?_spec hs.wellFormed hnode).post_of_eq hinvalidate).1
    exact h.localEdit hedit
  | convert hnode hinput hdemands hconvert =>
    exact h.convert hstart hs hid hnode hinput hdemands hconvert

theorem keepsTypes_of_run (hstart : start.Ordered) :
    Yields (start.order.foldlM (visit? cx) { graph := start }) fun s =>
      Sound start s ∧ KeepsTypes start s := by
  refine run?_inv hstart (KeepsTypes start) keepsTypes_start ?_ ?_
  · exact fun hid hs h hmove => h.move hstart.wellFormed hs hid hmove
  · exact fun _ _ h hlegalized => h.localEdit hlegalized.edit

end Reconciliation

/-- However edge agreement ends, a convolution or deconvolution that writes no state reads every
input in the element type that comes from the edge that it was declared with. -/
theorem convolution_type_of_agreement {decls : List NodeDecl} {g : Graph}
    (hbuild : Graph.build? decls = some (.ok g)) (cx : Context) :
    ∃ swept agreed, Propagation.run? cx g = some swept ∧
      Reconciliation.run? cx swept.graph = some agreed ∧
      ∀ {id node slot}, agreed.graph.node? id = some node →
        (node.op = .convolution ∨ node.op = .deconvolution) →
        (∀ cell declared, node.attrs ≠ .stateWrite cell declared) → slot < node.deps.length →
        ∃ origin input, g.input? id slot = some origin ∧
          agreed.graph.input? id slot = some input ∧
          input.layout.dtype = origin.layout.dtype := by
  have hfresh := Graph.fresh_of_build hbuild
  obtain ⟨swept, hswept, _, s₁, _, hgraph₁, hsame⟩ := Propagation.run?_spec cx hfresh.toOrdered
  have hordered := hfresh.toOrdered.of_sameContent hsame
  obtain ⟨agreed, hagreed, s, hfold, hs, hgraph, _⟩ := Reconciliation.run?_spec cx hordered
  rw [← hgraph₁] at hagreed
  refine ⟨swept, agreed, hswept, hagreed, fun {id node slot} hnode hop hattrs hslot => ?_⟩
  rw [hgraph] at hnode ⊢
  have htakes : node.TakesTypes := ⟨by rcases hop with hop | hop <;> rw [hop] <;> rfl, hattrs⟩
  have hlt : id.index < s₁.graph.size := by
    by_contra hnew
    have hinserted := hs.inserted hnode (Nat.not_lt.1 hnew)
    rcases hop with hop | hop <;> cases hop.symm.trans hinserted.op_eq
  obtain ⟨old, hold⟩ := Graph.exists_node hlt
  obtain ⟨_, hfound, hmeaning, hlength, _⟩ := hs.kept hold
  obtain rfl := Option.some.inj (hnode.symm.trans hfound)
  obtain ⟨input, hinput⟩ := hs.wellFormed.exists_input hnode hslot
  obtain ⟨read, hread⟩ := hordered.wellFormed.exists_input hold (hlength ▸ hslot)
  obtain ⟨origin, horigin, _, _, hlayout⟩ := hsame.symm.exists_input hread
  refine ⟨origin, input, horigin, hinput, ?_⟩
  obtain ⟨_, hkeeps⟩ := (Reconciliation.keepsTypes_of_run hordered).post_of_eq hfold
  rw [hkeeps id old slot read input hold (htakes.of_meaning hmeaning.symm) hread hinput,
    (Layout.withFormat_any_eq_iff.1 hlayout).2.1]

/-- Takes everything, and asks for what comes first transposed, and perhaps in a type. -/
def transposes (dtype : Option ElementType) : Capability where
  name := "generic_transposed"
  kind := .generic
  shapes := .both
  accepts _ := true
  preference _ := some { inputs := [.yxfb], inputTypes := [dtype] }
  build _ := .built ⟨.generic, "generic_transposed", none⟩

/-- Convolutions and sums ask for half precision. -/
def transposedReaders : Catalog where
  registrations := [(.pooling, transposes none), (.convolution, transposes (some .f16)),
    (.eltwise, transposes (some .f16))]

/-- An input of single precision with three readers. -/
def readThrice : List NodeDecl :=
  let layout : Layout := ⟨.ofExtents [1, 16, 8, 8], .f32, .bfyx, {}⟩
  let reader (name : String) (op : OpKind) : NodeDecl :=
    { name, op, inputs := [⟨⟨0⟩, 0⟩], outputs := [layout.withFormat .any] }
  [{ name := "x", op := .input, outputs := [layout] }, reader "pool" .pooling,
    reader "conv" .convolution, reader "sum" .eltwise]

/-- The convolution reads the reorder that was made for the pooling, and the sum gets one of its
own. -/
theorem convolution_type_readThrice : ∃ g swept agreed origin input,
    Graph.build? readThrice = some (.ok g) ∧
    Propagation.run? { catalog := transposedReaders } g = some swept ∧
    Reconciliation.run? { catalog := transposedReaders } swept.graph = some agreed ∧
    agreed.graph.dep? ⟨1⟩ 0 = some ⟨⟨4⟩, 0⟩ ∧ agreed.graph.dep? ⟨2⟩ 0 = some ⟨⟨4⟩, 0⟩ ∧
    agreed.graph.dep? ⟨3⟩ 0 = some ⟨⟨5⟩, 0⟩ ∧
    g.input? ⟨2⟩ 0 = some origin ∧ agreed.graph.input? ⟨2⟩ 0 = some input ∧
    input.layout.dtype = origin.layout.dtype := by
  obtain ⟨swept, agreed, hswept, hagreed, hread⟩ :=
    @convolution_type_of_agreement readThrice _ rfl { catalog := transposedReaders }
  obtain rfl := Option.some.inj (hswept.symm.trans rfl)
  obtain rfl := Option.some.inj (hagreed.symm.trans rfl)
  obtain ⟨origin, input, horigin, hinput, hdtype⟩ :=
    @hread ⟨2⟩ _ 0 rfl (Or.inl rfl) (fun _ _ => nofun) Nat.zero_lt_one
  exact ⟨_, _, _, origin, input, rfl, rfl, rfl, rfl, rfl, rfl, horigin, hinput, hdtype⟩

end LayoutPlanner
