import LayoutPlanner.Proofs.Conversions

/-!
# How a slot is served

`convert?` taken apart, for results that need to know which edits it made and not only what they
come to.  A slot that reads a reorder of this run is freed first: the reorder gets the new target,
or, if others read it too, the slot is pointed back at its source (`Freed`).  A free slot is then
fed by a reorder that is there already, or by a new one (`Serves`).

In a sound state the edits are told by the slots that they move (`Serves.feeds`).  One slot is
moved, and all others read what they did.  It is taken off a reorder only if another slot reads that
reorder (`exists_of_isShared`).
-/

namespace LayoutPlanner

namespace Graph

/-! ## Slots under edits -/

theorem dep?_eq_some_iff {g : Graph} {id : NodeId} {slot : Nat} {edge : Edge} :
    g.dep? id slot = some edge ↔
      ∃ node, g.node? id = some node ∧ node.deps[slot]? = some edge :=
  Option.bind_eq_some_iff

theorem reads_iff_exists_dep {g : Graph} {reader id : NodeId} :
    g.Reads reader id ↔ ∃ slot edge, g.dep? reader slot = some edge ∧ edge.node = id := by
  constructor
  · intro ⟨node, hnode, edge, hedge, hid⟩
    obtain ⟨slot, hslot⟩ := List.mem_iff_getElem?.1 hedge
    exact ⟨slot, edge, dep?_eq_some_iff.2 ⟨node, hnode, hslot⟩, hid⟩
  · intro ⟨slot, edge, hedge, hid⟩
    obtain ⟨node, hnode, hslot⟩ := dep?_eq_some_iff.1 hedge
    exact ⟨node, hnode, edge, List.mem_of_getElem? hslot, hid⟩

theorem dep?_congr {g g' : Graph} (h : Same Node.deps g g') (id : NodeId) (slot : Nat) :
    g'.dep? id slot = g.dep? id slot := by
  have hdeps := h id
  unfold dep?
  cases hnode : g.node? id with
  | none =>
    rw [hnode, Option.map_none, Option.map_eq_none_iff] at hdeps
    rw [hdeps]
  | some node =>
    obtain ⟨node', hnode', heq⟩ := exists_of_map_eq hdeps hnode
    simp [hnode', heq]

section

variable {g g' : Graph} {consumer reader : NodeId} {slot other : Nat} {edge current : Edge}
  (h : Rewired consumer slot edge g g')

include h

/-- All slots but the moved one read what they did. -/
theorem Rewired.dep?_eq (hreader : reader.index < g.size)
    (hne : ¬(reader = consumer ∧ other = slot)) :
    g'.dep? reader other = g.dep? reader other := by
  obtain ⟨node, hnode⟩ := exists_node hreader
  obtain ⟨node', hnode', _, _, hdeps⟩ := h.exists_new hnode
  simp only [dep?, hnode, hnode', Option.bind_eq_bind, Option.bind_some, hdeps]
  split
  next heq => rw [List.getElem?_set_ne (fun hslot => hne ⟨heq, hslot.symm⟩)]
  next => rfl

theorem Rewired.dep?_self (hcurrent : g.dep? consumer slot = some current) :
    g'.dep? consumer slot = some edge := by
  obtain ⟨node, hnode, hslot⟩ := dep?_eq_some_iff.1 hcurrent
  obtain ⟨node', hnode', hbare⟩ := h.moved node hnode
  have hlt := (List.getElem?_eq_some_iff.1 hslot).1
  refine dep?_eq_some_iff.2 ⟨node', hnode', ?_⟩
  rw [Node.deps_of_bare hbare]
  exact List.getElem?_set_self hlt

end

end Graph

namespace Reconciliation

/-! ## The edits of a conversion -/

/-- The slot reads its old edge in the second state. -/
inductive Freed (id : NodeId) (slot : Nat) (s : Reconciliation) : Reconciliation → Prop
  | direct {current : Edge} (hcurrent : s.graph.dep? id slot = some current)
      (hold : s.isCreated current.node = false) : Freed id slot s s
  | back {current source : Edge} {converter : Node} {g : Graph}
      (hcurrent : s.graph.dep? id slot = some current)
      (hcreated : s.isCreated current.node = true)
      (hconverter : s.graph.node? current.node = some converter)
      (hsource : converter.deps[0]? = some source)
      (h : s.graph.reroute? id slot source = some g)
      {consumer : Node} (hconsumer : s.graph.node? id = some consumer)
      (hshared : isShared converter current.node id consumer slot = true) :
      Freed id slot s (s.withGraph g)

/-- The edits that make a slot read `target`. -/
inductive Serves (id : NodeId) (slot : Nat) (target : Layout) (reason : ReorderReason)
    (s : Reconciliation) : Reconciliation → Prop
  | retarget {current source : Edge} {converter : Node} {g : Graph}
      (hcurrent : s.graph.dep? id slot = some current)
      (hcreated : s.isCreated current.node = true)
      (hconverter : s.graph.node? current.node = some converter)
      (hsource : converter.deps[0]? = some source)
      (h : s.graph.setTarget? current.node target = some g)
      {consumer : Node} (hconsumer : s.graph.node? id = some consumer)
      (hunshared : isShared converter current.node id consumer slot = false) :
      Serves id slot target reason s
        ((((s.unlearn current.node).learn ⟨source, target⟩ current.node).withGraph g).changed)
  | reuse {s₁ s' : Reconciliation} {edge : Edge} {reorder : NodeId} (hfreed : Freed id slot s s₁)
      (hedge : s₁.graph.dep? id slot = some edge)
      (hknown : s₁.reorderFor? ⟨edge, target⟩ = some reorder)
      (h : s₁.reuse? id slot reorder = some s') : Serves id slot target reason s s'
  | create {s₁ s' : Reconciliation} {edge : Edge} (hfreed : Freed id slot s s₁)
      (hedge : s₁.graph.dep? id slot = some edge)
      (hunknown : s₁.reorderFor? ⟨edge, target⟩ = none)
      (h : s₁.create? id slot target reason = some s') : Serves id slot target reason s s'

variable {start : Graph} {id : NodeId} {slot : Nat} {target : Layout} {reason : ReorderReason}
  {s s' : Reconciliation}

/-- Repurposing a reorder serves the slot or frees it. -/
theorem of_repurpose? (reason : ReorderReason) {current : Edge}
    (hcurrent : s.graph.dep? id slot = some current)
    (hcreated : s.isCreated current.node = true) {out : Reconciliation × Bool}
    (h : s.repurpose? id slot current.node target = some out) :
    if out.2 then Serves id slot target reason s out.1 else Freed id slot s out.1 := by
  obtain ⟨converter, hconverter, h⟩ := Option.bind_eq_some_iff.1 h
  obtain ⟨source, hsource, h⟩ := Option.bind_eq_some_iff.1 h
  obtain ⟨node, hnode, h⟩ := Option.bind_eq_some_iff.1 h
  split at h
  next hshared =>
    obtain ⟨g, hg, h⟩ := Option.bind_eq_some_iff.1 h
    cases h
    exact .back hcurrent hcreated hconverter hsource hg hnode hshared
  next hunshared =>
    obtain ⟨g, hg, h⟩ := Option.bind_eq_some_iff.1 h
    cases h
    exact .retarget hcurrent hcreated hconverter hsource hg hnode (by simpa using hunshared)

/-- A slot that has been freed still has to be fed. -/
theorem serves_of_freed {s₁ : Reconciliation} (hfreed : Freed id slot s s₁)
    (h : (do
      let edge ← s₁.graph.dep? id slot
      match s₁.reorderFor? ⟨edge, target⟩ with
      | some reorder => s₁.reuse? id slot reorder
      | none => s₁.create? id slot target reason) = some s') :
    Serves id slot target reason s s' := by
  obtain ⟨edge, hedge, h⟩ := Option.bind_eq_some_iff.1 h
  split at h
  next hknown => exact .reuse hfreed hedge hknown h
  next hunknown => exact .create hfreed hedge hunknown h

theorem serves_of_convert? (h : s.convert? id slot target reason = some s') :
    Serves id slot target reason s s' := by
  obtain ⟨current, hcurrent, h⟩ := Option.bind_eq_some_iff.1 h
  dsimp only at h
  split at h
  next hcreated =>
    obtain ⟨⟨s₁, served⟩, hout, h⟩ := Option.bind_eq_some_iff.1 h
    have hcase := of_repurpose? reason hcurrent hcreated hout
    cases served with
    | true =>
      cases h
      exact hcase
    | false => exact serves_of_freed hcase h
  next hold => exact serves_of_freed (.direct hcurrent (by simpa using hold)) h

/-! ## What a conversion does to the slots -/

/-- The old edge of a slot still leads to an output. -/
theorem Sound.exists_layout (hstart : start.WellFormed) (hs : Sound start s) {edge : Edge}
    (hedge : start.dep? id slot = some edge) :
    edge.node.index < start.size ∧ ∃ layout, s.graph.layoutAt? edge = some layout := by
  obtain ⟨old, hold, hdep⟩ := Option.bind_eq_some_iff.1 hedge
  obtain ⟨layout, hlayout⟩ := hstart.produced hold (List.mem_of_getElem? hdep)
  obtain ⟨_, hproducer, _⟩ := Graph.layoutAt?_eq_some_iff.1 hlayout
  have hlt := Graph.lt_size_of_node? hproducer
  obtain ⟨layout', hlayout', _⟩ := exists_of_map_eq (hs.layoutAt?_eq hlt) hlayout
  exact ⟨hlt, layout', hlayout'⟩

/-- A shared reorder feeds a second slot. -/
theorem exists_of_isShared (hg : s.graph.WellFormed) {node converter : Node} {reorder : NodeId}
    (hnode : s.graph.node? id = some node) (hconverter : s.graph.node? reorder = some converter)
    (hshared : isShared converter reorder id node slot = true) :
    ∃ reader other edge, ¬(reader = id ∧ other = slot) ∧
      s.graph.dep? reader other = some edge ∧ edge.node = reorder := by
  simp only [isShared, Bool.or_eq_true, List.any_eq_true] at hshared
  rcases hshared with ⟨reader, hmem, hne⟩ | ⟨⟨edge, other⟩, hmem, hother⟩
  · have hreads := (hg.users_iff reader hconverter).1 hmem
    obtain ⟨other, edge, hedge, hreorder⟩ := Graph.reads_iff_exists_dep.1 hreads
    exact ⟨reader, other, edge, fun heq => by simp [heq.1] at hne, hedge, hreorder⟩
  · rw [Bool.and_eq_true, bne_iff_ne, beq_iff_eq] at hother
    refine ⟨id, other, edge, fun heq => hother.1 heq.2, ?_, hother.2⟩
    exact Graph.dep?_eq_some_iff.2 ⟨node, hnode, List.mem_zipIdx_iff_getElem?.1 hmem⟩

/-- How a slot came to read its old edge: it did already, or it was taken off a reorder that feeds
another slot as well. -/
inductive TakenOff (start : Graph) (id : NodeId) (slot : Nat) (edge : Edge) (s : Reconciliation) :
    Reconciliation → Prop
  | already (h : s.graph.dep? id slot = some edge) : TakenOff start id slot edge s s
  | off {reorder : NodeId} {g : Graph} (hcurrent : s.graph.dep? id slot = some ⟨reorder, 0⟩)
      (hle : start.size ≤ reorder.index)
      (hother : ∃ reader other current, ¬(reader = id ∧ other = slot) ∧
        s.graph.dep? reader other = some current ∧ current.node = reorder)
      (h : s.graph.reroute? id slot edge = some g)
      (hrewired : Graph.Rewired id slot edge s.graph g) (horder : g.order = s.graph.order)
      (houtputs : Graph.Same Node.outputs s.graph g) :
      TakenOff start id slot edge s (s.withGraph g)

theorem TakenOff.conversions_eq {edge : Edge} (h : TakenOff start id slot edge s s') :
    s'.conversions = s.conversions := by
  cases h <;> rfl

theorem TakenOff.size_eq {edge : Edge} (h : TakenOff start id slot edge s s') :
    s'.graph.size = s.graph.size := by
  cases h with
  | already => rfl
  | off _ _ _ _ _ _ houtputs => exact houtputs.size_eq

/-- No node changes but the one whose slot is taken off. -/
theorem TakenOff.bare_eq {edge : Edge} (h : TakenOff start id slot edge s s') {other : NodeId}
    (hlt : other.index < s.graph.size) (hne : other ≠ id) :
    (s'.graph.node? other).map Node.bare = (s.graph.node? other).map Node.bare := by
  cases h with
  | already => rfl
  | off _ _ _ _ hrewired => exact hrewired.others other hlt hne

/-- A freed slot reads its old edge, in a sound state. -/
theorem Freed.spec (hstart : start.WellFormed) (hs : Sound start s) (hid : id.index < start.size)
    (h : Freed id slot s s') :
    ∃ edge, start.dep? id slot = some edge ∧ edge.node.index < start.size ∧ Sound start s' ∧
      s'.graph.dep? id slot = some edge ∧ TakenOff start id slot edge s s' := by
  cases h with
  | direct hcurrent hold =>
    obtain ⟨edge, hedge, rfl | ⟨reorder, converter, rfl, hle, hconverter, _⟩⟩ :=
      hs.exists_slot hid hcurrent
    · exact ⟨_, hedge, (hs.exists_layout hstart hedge).1, hs, hcurrent, .already hcurrent⟩
    · have hcreated := hs.created_iff.2 ⟨hle, Graph.lt_size_of_node? hconverter⟩
      simp [isCreated, hcreated] at hold
  | @back current source _ g hcurrent hcreated hconverter hsource h consumer hconsumer hshared =>
    obtain ⟨edge, hedge, hfeeds⟩ := hs.exists_slot hid hcurrent
    obtain ⟨hlt, layout, hlayout⟩ := hs.exists_layout hstart hedge
    rw [hs.isCreated_iff] at hcreated
    rcases hfeeds with rfl | ⟨reorder, converter, rfl, hle, hconverter', hdeps⟩
    · omega
    obtain rfl := Option.some.inj (hconverter.symm.trans hconverter')
    obtain rfl : edge = source := by simpa [hdeps] using hsource
    obtain ⟨node, hnode, hslot⟩ := Graph.dep?_eq_some_iff.1 hcurrent
    have hlength := (List.getElem?_eq_some_iff.1 hslot).1
    obtain ⟨hrewired, horder, houtputs⟩ :=
      (Graph.reroute?_spec hs.wellFormed hnode hlength hlayout).post_of_eq h
    have hs₁ : Sound start (s.withGraph g) :=
      hs.rewire hedge (Or.inl rfl) hid hrewired horder houtputs.size_eq rfl rfl
    have hother := exists_of_isShared hs.wellFormed hconsumer hconverter hshared
    exact ⟨edge, hedge, hlt, hs₁, hrewired.dep?_self hcurrent,
      .off hcurrent hle hother h hrewired horder houtputs⟩

/-- A conversion of a slot that reads `edge` at the start, told by the slots it moves. -/
inductive Feeds (start : Graph) (id : NodeId) (slot : Nat) (edge : Edge) (target : Layout)
    (s s' : Reconciliation) : Prop
  /-- The reorder that feeds this slot, and no other, gets a new target. -/
  | retarget {reorder : NodeId} {converter : Node}
      (hcurrent : s.graph.dep? id slot = some ⟨reorder, 0⟩) (hle : start.size ≤ reorder.index)
      (hconverter : s.graph.node? reorder = some converter) (hdeps : converter.deps = [edge])
      (honly : ∀ {reader other current}, s.graph.dep? reader other = some current →
        current.node = reorder → reader = id ∧ other = slot)
      (h : s.graph.setTarget? reorder target = some s'.graph)
      (hretargeted : Graph.Retargeted reorder target s.graph s'.graph)
      (hconversions : s'.conversions =
        ((s.unlearn reorder).learn ⟨edge, target⟩ reorder).conversions)
  | reuse {s₁ : Reconciliation} {reorder : NodeId} (hs₁ : Sound start s₁)
      (hoff : TakenOff start id slot edge s s₁) (hcurrent : s₁.graph.dep? id slot = some edge)
      (hknown : s.reorderFor? ⟨edge, target⟩ = some reorder)
      (h : s₁.graph.reroute? id slot ⟨reorder, 0⟩ = some s'.graph)
      (hrewired : Graph.Rewired id slot ⟨reorder, 0⟩ s₁.graph s'.graph)
      (horder : s'.graph.order = s₁.graph.order)
      (houtputs : Graph.Same Node.outputs s₁.graph s'.graph)
      (hconversions : s'.conversions = s.conversions)
  | create {s₁ : Reconciliation} {reason : ReorderReason} {new : Node} (hs₁ : Sound start s₁)
      (hoff : TakenOff start id slot edge s s₁) (hcurrent : s₁.graph.dep? id slot = some edge)
      (hunknown : s.reorderFor? ⟨edge, target⟩ = none)
      (h : s₁.graph.interpose? id slot target reason = some (s'.graph, ⟨s₁.graph.size⟩))
      (hrewired : Graph.Rewired id slot ⟨⟨s₁.graph.size⟩, 0⟩ s₁.graph s'.graph)
      (hsize : s'.graph.size = s₁.graph.size + 1)
      (horder : s'.graph.order = insertBefore id ⟨s₁.graph.size⟩ s₁.graph.order)
      (hnew : s'.graph.node? ⟨s₁.graph.size⟩ = some new) (hdeps : new.deps = [edge])
      (houtputs : new.outputs = [target])
      (hconversions : s'.conversions = (s.learn ⟨edge, target⟩ ⟨s₁.graph.size⟩).conversions)

theorem Serves.feeds (hstart : start.WellFormed) (hs : Sound start s) (hid : id.index < start.size)
    (h : Serves id slot target reason s s') :
    ∃ edge, start.dep? id slot = some edge ∧ edge.node.index < start.size ∧
      Feeds start id slot edge target s s' := by
  cases h with
  | @retarget current source converter g hcurrent hcreated hconverter hsource h consumer hconsumer
      hunshared =>
    obtain ⟨edge, hedge, hfeeds⟩ := hs.exists_slot hid hcurrent
    have hlt := (hs.exists_layout hstart hedge).1
    rw [hs.isCreated_iff] at hcreated
    rcases hfeeds with rfl | ⟨reorder, converter', rfl, hle, hconverter', hdeps⟩
    · omega
    obtain rfl := Option.some.inj (hconverter.symm.trans hconverter')
    obtain rfl : edge = source := by simpa [hdeps] using hsource
    have hretargeted := (Graph.setTarget?_spec hs.wellFormed hconverter target).post_of_eq h
    exact ⟨edge, hedge, hlt, .retarget hcurrent hle hconverter hdeps
      (eq_of_not_isShared hs.wellFormed hconsumer hconverter hunshared) h hretargeted rfl⟩
  | @reuse s₁ _ current reorder hfreed hcurrent hknown h =>
    obtain ⟨edge, hedge, hlt, hs₁, hslot, hoff⟩ := hfreed.spec hstart hs hid
    obtain rfl := Option.some.inj (hslot.symm.trans hcurrent)
    obtain ⟨g, hg, h⟩ := Option.bind_eq_some_iff.1 h
    cases h
    obtain ⟨⟨conversion, found⟩, hentry, rfl⟩ := Option.map_eq_some_iff.1 hknown
    obtain ⟨_, converter, hconverter, _, houtputs⟩ := hs₁.known (List.mem_of_find?_eq_some hentry)
    obtain ⟨node, hnode, hdep⟩ := Graph.dep?_eq_some_iff.1 hcurrent
    have hlayout : s₁.graph.layoutAt? ⟨found, 0⟩ = some conversion.target :=
      Graph.layoutAt?_eq_some_iff.2 ⟨converter, hconverter, by simp [houtputs]⟩
    obtain ⟨hrewired, horder, hsame⟩ := (Graph.reroute?_spec hs₁.wellFormed hnode
      (List.getElem?_eq_some_iff.1 hdep).1 hlayout).post_of_eq hg
    rw [reorderFor?, hoff.conversions_eq] at hknown
    exact ⟨edge, hedge, hlt,
      .reuse hs₁ hoff hcurrent hknown hg hrewired horder hsame hoff.conversions_eq⟩
  | @create s₁ _ current hfreed hcurrent hunknown h =>
    obtain ⟨edge, hedge, hlt, hs₁, hslot, hoff⟩ := hfreed.spec hstart hs hid
    obtain rfl := Option.some.inj (hslot.symm.trans hcurrent)
    obtain ⟨input, hinput, h⟩ := Option.bind_eq_some_iff.1 h
    obtain ⟨⟨g, reorder⟩, hg, h⟩ := Option.bind_eq_some_iff.1 h
    cases h
    obtain ⟨rfl, hrewired, hsize, horder, new, hnew, hbare⟩ :=
      (Graph.interpose?_spec hs₁.wellFormed hinput target reason).post_of_eq hg
    have hsource : input.edge = edge := by
      obtain ⟨node, hnode, hdep, _⟩ := Graph.input?_eq_some_iff.1 hinput
      exact Option.some.inj ((Graph.dep?_eq_some_iff.2 ⟨node, hnode, hdep⟩).symm.trans hcurrent)
    subst hsource
    rw [reorderFor?, hoff.conversions_eq] at hunknown
    refine ⟨input.edge, hedge, hlt, .create hs₁ hoff hcurrent hunknown hg hrewired hsize horder hnew
      (Node.deps_of_bare hbare) (Node.outputs_of_bare hbare) ?_⟩
    simp only [learn, tell, hoff.conversions_eq]

end Reconciliation

end LayoutPlanner
