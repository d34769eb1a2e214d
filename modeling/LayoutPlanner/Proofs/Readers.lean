import LayoutPlanner.Builtin.Catalog
import LayoutPlanner.Proofs.ProcessingOrder

/-!
# Readers

The list of readers that a node keeps is the mirror image of the edges, and no reorder is left
behind without a reader.

The first half is part of what makes a graph well formed.  The second half holds because a slot is
taken off a reorder only if another slot reads that reorder: so a conversion keeps every reorder of
the run fed (`Feeds.fed`).
-/

namespace LayoutPlanner

namespace Reconciliation

variable {start : Graph} {cx : Context} {id : NodeId} {slot : Nat} {s s' : Reconciliation}

/-! ## Every reorder is read -/

/-- Every reorder of the run feeds a slot. -/
def Fed (start g : Graph) : Prop :=
  ∀ reorder : NodeId, start.size ≤ reorder.index → reorder.index < g.size →
    ∃ reader other edge, g.dep? reader other = some edge ∧ edge.node = reorder

theorem fed_start : Fed start start :=
  fun _ hle hlt => absurd hlt (Nat.not_lt.2 hle)

theorem Fed.of_sameDeps {g g' : Graph} (h : Fed start g) (hdeps : Graph.Same Node.deps g g') :
    Fed start g' := by
  intro reorder hle hlt
  rw [hdeps.size_eq] at hlt
  obtain ⟨reader, other, edge, hedge, hreorder⟩ := h reorder hle hlt
  exact ⟨reader, other, edge, (Graph.dep?_congr hdeps reader other).trans hedge, hreorder⟩

/-- Moving a slot keeps the reorders fed that were there, if the slot is not the last one on the
reorder that it leaves. -/
theorem Fed.rewire {g g' : Graph} {edge current : Edge} (h : Fed start g)
    (hrewired : Graph.Rewired id slot edge g g') (hcurrent : g.dep? id slot = some current)
    (hother : start.size ≤ current.node.index → ∃ reader other edge,
      ¬(reader = id ∧ other = slot) ∧ g.dep? reader other = some edge ∧ edge.node = current.node)
    {reorder : NodeId} (hle : start.size ≤ reorder.index) (hlt : reorder.index < g.size) :
    ∃ reader other edge, g'.dep? reader other = some edge ∧ edge.node = reorder := by
  have hkept : ∀ {reader : NodeId} {other : Nat} {edge : Edge}, ¬(reader = id ∧ other = slot) →
      g.dep? reader other = some edge → g'.dep? reader other = some edge := by
    intro reader other edge hne hedge
    obtain ⟨node, hnode, _⟩ := Graph.dep?_eq_some_iff.1 hedge
    rw [hrewired.dep?_eq (Graph.lt_size_of_node? hnode) hne, hedge]
  obtain ⟨reader, other, found, hfound, hreorder⟩ := h reorder hle hlt
  by_cases hslot : reader = id ∧ other = slot
  · obtain ⟨rfl, rfl⟩ := hslot
    obtain rfl := Option.some.inj (hfound.symm.trans hcurrent)
    obtain ⟨reader', other', edge', hne, hedge', heq⟩ := hother (hreorder ▸ hle)
    exact ⟨reader', other', edge', hkept hne hedge', heq.trans hreorder⟩
  · exact ⟨reader, other, found, hkept hslot hfound, hreorder⟩

theorem TakenOff.fed {edge : Edge} (h : TakenOff start id slot edge s s')
    (hfed : Fed start s.graph) : Fed start s'.graph := by
  cases h with
  | already => exact hfed
  | off hcurrent hle hother _ hrewired _ houtputs =>
    intro reorder hreorder hlt
    exact hfed.rewire hrewired hcurrent (fun _ => hother) hreorder (houtputs.size_eq ▸ hlt)

theorem Feeds.fed {edge : Edge} {target : Layout} (hedge : edge.node.index < start.size)
    (h : Feeds start id slot edge target s s') (hfed : Fed start s.graph) :
    Fed start s'.graph := by
  have hold : start.size ≤ edge.node.index → ∀ P : Prop, P :=
    fun hle => absurd hedge (Nat.not_lt.2 hle)
  cases h with
  | retarget _ _ _ _ _ _ hretargeted => exact hfed.of_sameDeps hretargeted.sameDeps
  | reuse _ hoff hcurrent _ _ hrewired _ houtputs =>
    intro reorder hle hlt
    exact (hoff.fed hfed).rewire hrewired hcurrent (fun hle => hold hle _) hle
      (houtputs.size_eq ▸ hlt)
  | @create s₁ _ _ _ hoff hcurrent _ _ hrewired hsize =>
    intro reorder hle hlt
    by_cases hnew : reorder.index < s₁.graph.size
    · exact (hoff.fed hfed).rewire hrewired hcurrent (fun hle => hold hle _) hle hnew
    · refine ⟨id, slot, _, hrewired.dep?_self hcurrent, ?_⟩
      have heq : s₁.graph.size = reorder.index := by omega
      rw [heq]

theorem Move.fed (hstart : start.WellFormed) (hs : Sound start s) (hid : id.index < start.size)
    (h : Move id s s') (hfed : Fed start s.graph) : Fed start s'.graph := by
  obtain ⟨node, hnode⟩ := Graph.exists_node (Nat.lt_of_lt_of_le hid hs.grown)
  cases h with
  | settle h =>
    obtain ⟨hedit, _⟩ := (Graph.settle?_spec hs.wellFormed hnode).post_of_eq h
    exact hfed.of_sameDeps hedit.content.wiring.deps
  | invalidate h =>
    obtain ⟨hedit, _⟩ := (Graph.invalidate?_spec hs.wellFormed hnode).post_of_eq h
    exact hfed.of_sameDeps hedit.content.wiring.deps
  | convert _ _ _ h =>
    obtain ⟨edge, _, hedge, hfeeds⟩ := (serves_of_convert? h).feeds hstart hs hid
    exact hfeeds.fed hedge hfed

theorem fed_of_run (hstart : start.Ordered) :
    Yields (start.order.foldlM (visit? cx) { graph := start }) fun s =>
      Sound start s ∧ Fed start s.graph := by
  refine run?_inv hstart (fun s => Fed start s.graph) fed_start ?_ ?_
  · exact fun hid hs hfed hmove => hmove.fed hstart.wellFormed hs hid hfed
  · exact fun _ _ hfed hlegalized => hfed.of_sameDeps hlegalized.edit.content.wiring.deps

end Reconciliation

/-! ## Readers of a planned graph -/

/-- The lists of readers of `g'` mirror its edges, and every node that `g` does not have is read. -/
structure Graph.Mirrored (g g' : Graph) : Prop where
  users : ∀ {id node} (reader), g'.node? id = some node →
    (reader ∈ node.users ↔ g'.Reads reader id) ∧
      (g'.Reads reader id → node.users.count reader = 1)
  live : ∀ {id node}, g.size ≤ id.index → g'.node? id = some node → node.users ≠ []

theorem Graph.WellFormed.mirrored {g g' : Graph} (hg' : g'.WellFormed)
    (hfed : Reconciliation.Fed g g') : g.Mirrored g' where
  users reader hnode := by
    refine ⟨hg'.users_iff reader hnode, fun hreads => ?_⟩
    exact List.count_eq_one_of_mem (hg'.users_nodup hnode) ((hg'.users_iff reader hnode).2 hreads)
  live {id node} hle hnode hnil := by
    obtain ⟨reader, slot, edge, hedge, hid⟩ := hfed id hle (lt_size_of_node? hnode)
    have hmem := (hg'.users_iff reader hnode).2 (reads_iff_exists_dep.2 ⟨slot, edge, hedge, hid⟩)
    simp [hnil] at hmem

/-- However far the standard pipeline is run, and however the run ends, a node lists exactly its
readers, each once, and every inserted reorder has one. -/
theorem mirrored_of_run {decls : List NodeDecl} {g : Graph}
    (hbuild : Graph.build? decls = some (.ok g)) (cx : Context) {stages : List Stage}
    (hstages : stages <+: Pipeline.standard) :
    ∃ out, Pipeline.run? stages cx g = some out ∧ g.Mirrored out.graph := by
  have hg := Graph.fresh_of_build hbuild
  suffices h : Yields (Pipeline.run? stages cx g) fun out =>
      out.graph.WellFormed ∧ Reconciliation.Fed g out.graph by
    obtain ⟨out, hout, hwf, hfed⟩ := h
    exact ⟨out, hout, hwf.mirrored hfed⟩
  have hsame : ∀ {g₁ g₂ : Graph}, Graph.SameContent g₁ g₂ →
      g₁.WellFormed ∧ Reconciliation.Fed g g₁ → g₂.WellFormed ∧ Reconciliation.Fed g g₂ :=
    fun h ⟨hwf, hfed⟩ => ⟨hwf.of_sameWiring h.wiring, hfed.of_sameDeps h.wiring.deps⟩
  refine Pipeline.run?_prefix (fun g' => g'.WellFormed ∧ Reconciliation.Fed g g') cx hg
    ⟨hg.wellFormed, Reconciliation.fed_start⟩ ?_ ?_ ?_ hstages
  · obtain ⟨_, _, _, s, hs, _, hcontent⟩ := Propagation.run?_spec cx hg.toOrdered
    exact .of_eq hs (hsame hcontent ⟨hg.wellFormed, Reconciliation.fed_start⟩)
  · intro g₁ hcontent hordered _
    refine (Reconciliation.fed_of_run hordered).mono fun s h => ⟨h.1.wellFormed, ?_⟩
    intro reorder hle
    exact h.2 reorder (hcontent.nodes.size_eq ▸ hle)
  · intro g₁ hwf hlisted h
    refine (Construction.run?_spec cx hwf hlisted).mono fun out hout => ?_
    obtain ⟨_, hdone⟩ := hout
    exact hsame hdone.content h

/-- The reorder that the twin convolutions share is the only reader of the image, and lists both. -/
theorem mirrored_twinConvolutions : ∃ g, Graph.build? twinConvolutions = some (.ok g) ∧
    (Pipeline.run? Pipeline.standard { catalog := Builtin.catalog } g).map
      (·.graph.nodes.map Node.users) = some [[⟨3⟩], [], [], [⟨1⟩, ⟨2⟩]] ∧
    ∃ out, Pipeline.run? Pipeline.standard { catalog := Builtin.catalog } g = some out ∧
      g.Mirrored out.graph :=
  ⟨_, rfl, rfl, @mirrored_of_run twinConvolutions _ rfl _ _ List.prefix_rfl⟩

end LayoutPlanner
