import LayoutPlanner.Builtin.Catalog
import LayoutPlanner.Proofs.Pipelines
import LayoutPlanner.Proofs.Placements

/-!
# The processing order

Planning only ever inserts reorders into the processing order, and inserts them where they belong.

* Of two values in a list without repetitions, `[a, b] <+ values` says that `a` comes first.
* A reorder is anchored at the old node it was inserted for: between the two there are only other
  reorders (`Anchored`).
* All through edge agreement, what a reorder reads comes before its anchor, and its readers come no
  earlier than that (`Placed`).  Nodes are visited in order, so a reorder that is shared was
  inserted for an earlier reader.
* A graph that is placed is in order: every edge leads back (`Arranged`).
-/

namespace LayoutPlanner

open scoped List

/-! ## Positions in a list -/

section Positions

variable {α : Type}

/-- What comes before a value that occurs once. -/
theorem mem_before_of_sublist {before after : List α} {a b : α}
    (hnodup : (before ++ b :: after).Nodup) (h : [a, b] <+ before ++ b :: after) : a ∈ before := by
  obtain ⟨front, back, hsplit, hfront, hback⟩ := List.sublist_append_iff.1 h
  obtain ⟨_, hrest, hdisjoint⟩ := List.nodup_append.1 hnodup
  rcases List.cons_eq_append_iff.1 hsplit with ⟨rfl, rfl⟩ | ⟨_, rfl, _⟩
  · have hlast : b ∈ after := by
      cases hback with
      | cons _ h => exact h.subset (by simp)
      | cons_cons _ h => exact h.subset (by simp)
    exact absurd hlast (List.nodup_cons.1 hrest).1
  · exact hfront.subset (by simp)

theorem mem_after_of_sublist {before after : List α} {a b : α}
    (hnodup : (before ++ a :: after).Nodup) (h : [a, b] <+ before ++ a :: after) : b ∈ after := by
  obtain ⟨front, back, hsplit, hfront, hback⟩ := List.sublist_append_iff.1 h
  obtain ⟨_, hrest, hdisjoint⟩ := List.nodup_append.1 hnodup
  rcases List.cons_eq_append_iff.1 hsplit with ⟨rfl, rfl⟩ | ⟨_, rfl, _⟩
  · cases hback with
    | cons _ h => exact h.subset (by simp)
    | cons_cons _ h => exact h.subset (by simp)
  · exact absurd rfl (hdisjoint a (hfront.subset (by simp)) a (by simp))

theorem sublist_of_mem_before {before after : List α} {a b : α} (h : a ∈ before) :
    [a, b] <+ before ++ b :: after :=
  (List.singleton_sublist.2 h).append (List.singleton_sublist.2 (List.mem_cons_self ..))

/-- Coming first is transitive. -/
theorem sublist_pair_trans {values : List α} (hnodup : values.Nodup) {a b c : α}
    (hab : [a, b] <+ values) (hbc : [b, c] <+ values) : [a, c] <+ values := by
  obtain ⟨before, after, rfl⟩ := List.append_of_mem (hbc.subset (List.mem_cons_self ..))
  have ha := mem_before_of_sublist hnodup hab
  have hc := mem_after_of_sublist hnodup hbc
  exact (List.singleton_sublist.2 ha).append (List.singleton_sublist.2 (List.mem_cons_of_mem _ hc))

variable [DecidableEq α] {mark value : α}

theorem insertBefore_append_of_mem {front : List α} (h : mark ∈ front) (rest : List α) :
    insertBefore mark value (front ++ rest) = insertBefore mark value front ++ rest := by
  induction front with
  | nil => exact absurd h List.not_mem_nil
  | cons head front ih =>
    rw [List.cons_append, insertBefore, insertBefore]
    split
    next => rfl
    next hne =>
      have hmem : mark ∈ front := (List.mem_cons.1 h).resolve_left fun heq => hne heq.symm
      rw [ih hmem, List.cons_append]

theorem insertBefore_append_of_not_mem {front : List α} (h : mark ∉ front) (rest : List α) :
    insertBefore mark value (front ++ rest) = front ++ insertBefore mark value rest := by
  induction front with
  | nil => rfl
  | cons head front ih =>
    have hne : head ≠ mark := fun heq => h (heq ▸ List.mem_cons_self ..)
    rw [List.cons_append, insertBefore, if_neg hne, ih fun hmem => h (List.mem_cons_of_mem _ hmem),
      List.cons_append]

/-- Values that are not looked for can be inserted anywhere. -/
theorem filter_insertBefore {keep : α → Bool} (h : keep value = false) (values : List α) :
    (insertBefore mark value values).filter keep = values.filter keep := by
  induction values with
  | nil => simp [insertBefore, h]
  | cons head rest ih =>
    unfold insertBefore
    split
    next => rw [List.filter_cons_of_neg (by simp [h])]
    next => simp only [List.filter_cons, ih]

end Positions

/-! ## Anchors -/

/-- `anchor` follows `reorder`, with none of the first `count` nodes in between. -/
def Anchored (count : Nat) (order : List NodeId) (reorder anchor : NodeId) : Prop :=
  ∃ before between after, order = before ++ reorder :: (between ++ anchor :: after) ∧
    ∀ id ∈ between, count ≤ id.index

section Anchored

variable {count : Nat} {order : List NodeId} {reorder anchor mark value : NodeId}

/-- A reorder keeps its anchor when another one is inserted. -/
theorem Anchored.insert (h : Anchored count order reorder anchor) (hreorder : count ≤ reorder.index)
    (hmark : mark.index < count) (hvalue : count ≤ value.index) :
    Anchored count (insertBefore mark value order) reorder anchor := by
  obtain ⟨before, between, after, rfl, hbetween⟩ := h
  by_cases hbefore : mark ∈ before
  · rw [insertBefore_append_of_mem hbefore]
    exact ⟨_, between, after, rfl, hbetween⟩
  have hmiddle : mark ∉ reorder :: between := by
    intro hmem
    rcases List.mem_cons.1 hmem with rfl | hmem
    · omega
    · have := hbetween mark hmem
      omega
  rw [insertBefore_append_of_not_mem hbefore, ← List.cons_append,
    insertBefore_append_of_not_mem hmiddle, insertBefore]
  split
  next =>
    refine ⟨before, between ++ [value], after, by simp, fun id hid => ?_⟩
    rcases List.mem_append.1 hid with hid | hid
    · exact hbetween id hid
    · rw [List.mem_singleton.1 hid]
      exact hvalue
  next => exact ⟨before, between, _, rfl, hbetween⟩

/-- A new reorder is anchored at the node it is inserted for. -/
theorem anchored_insertBefore (hmark : mark ∈ order) :
    Anchored count (insertBefore mark value order) value mark := by
  obtain ⟨before, after, rfl, hfirst⟩ := List.eq_append_cons_of_mem hmark
  refine ⟨before, [], after, ?_, fun id hid => absurd hid List.not_mem_nil⟩
  rw [insertBefore_append_of_not_mem hfirst, insertBefore, if_pos rfl]
  rfl

theorem Anchored.sublist (h : Anchored count order reorder anchor) :
    [reorder, anchor] <+ order := by
  obtain ⟨before, between, after, rfl, _⟩ := h
  rw [← List.cons_append, ← List.append_assoc]
  exact sublist_of_mem_before (by simp)

/-- An old node that comes before the anchor comes before the reorder. -/
theorem Anchored.of_sublist (hnodup : order.Nodup) (h : Anchored count order reorder anchor)
    (hreorder : count ≤ reorder.index) {id : NodeId} (hid : id.index < count)
    (hfirst : [id, anchor] <+ order) : [id, reorder] <+ order := by
  obtain ⟨before, between, after, rfl, hbetween⟩ := h
  rw [← List.cons_append, ← List.append_assoc] at hnodup hfirst
  rcases List.mem_append.1 (mem_before_of_sublist hnodup hfirst) with hmem | hmem
  · exact sublist_of_mem_before hmem
  · rcases List.mem_cons.1 hmem with rfl | hmem
    · omega
    · have := hbetween id hmem
      omega

end Anchored

/-! ## Placed reorders -/

namespace Graph

theorem Retargeted.sameDeps {id : NodeId} {target : Layout} {g g' : Graph}
    (h : Retargeted id target g g') : Same Node.deps g g' := by
  intro other
  cases hnode : g.node? other with
  | none =>
    have hout : ¬(g'.node? other).isSome := by
      rw [node?_isSome_iff, h.size_eq, ← node?_isSome_iff, hnode]
      simp
    rw [Option.not_isSome_iff_eq_none.1 hout]
  | some node =>
    obtain ⟨node', hnode', hdeps⟩ : ∃ node', g'.node? other = some node' ∧
        node'.deps = node.deps := by
      by_cases hne : other = id
      · subst hne
        obtain ⟨node', hnode', hbare⟩ := h.changed node hnode
        exact ⟨node', hnode', (Node.deps_of_bare hbare).trans rfl⟩
      · obtain ⟨node', hnode', hbare⟩ := h.exists_new hne hnode
        exact ⟨node', hnode', Node.deps_of_bare hbare⟩
    rw [hnode', Option.map_some, Option.map_some, hdeps]

theorem ListsAll.mem_of_lt {g : Graph} (h : g.ListsAll) {id : NodeId} (hid : id.index < g.size) :
    id ∈ g.order :=
  h.mem_iff.2 (List.mem_map.2 ⟨id.index, List.mem_range.2 hid, rfl⟩)

theorem Reads.lt_size {g : Graph} {reader id : NodeId} (h : g.Reads reader id) :
    reader.index < g.size := by
  obtain ⟨_, hnode, _⟩ := h
  exact lt_size_of_node? hnode

/-- The other nodes read what they read before. -/
theorem Rewired.reads_old {consumer : NodeId} {slot : Nat} {edge : Edge} {g g' : Graph}
    (h : Rewired consumer slot edge g g') {reader id : NodeId} (hreader : reader.index < g.size)
    (hne : reader ≠ consumer) (hreads : g'.Reads reader id) : g.Reads reader id := by
  obtain ⟨node', hnode', hreads⟩ := hreads
  obtain ⟨node, hnode, hbare⟩ := h.exists_old hnode' hreader hne
  exact ⟨node, hnode, Node.deps_of_bare hbare ▸ hreads⟩

end Graph

namespace Reconciliation

/-- What is known of the place of a reorder.  Its anchor is among the first `limit` nodes. -/
structure Anchor (start : Graph) (limit : Nat) (g : Graph) (reorder : NodeId) (node : Node)
    (anchor : NodeId) : Prop where
  visited : anchor.index < limit
  old : anchor.index < start.size
  anchored : Anchored start.size g.order reorder anchor
  sources : ∀ edge ∈ node.deps, edge.node.index < anchor.index
  readers : ∀ {reader}, g.Reads reader reorder → anchor.index ≤ reader.index

/-- The old nodes stand in the order they had, and every reorder has an anchor. -/
structure Placed (start : Graph) (limit : Nat) (g : Graph) : Prop where
  kept : g.order.filter (·.index < start.size) = start.order
  anchor : ∀ {reorder node}, start.size ≤ reorder.index → g.node? reorder = some node →
    ∃ anchor, Anchor start limit g reorder node anchor

variable {start : Graph} {limit : Nat} {g g' : Graph} {id : NodeId} {slot : Nat}

theorem placed_start (hstart : start.Ordered) : Placed start 0 start where
  kept := by
    refine List.filter_eq_self.2 fun id hid => ?_
    exact decide_eq_true (hstart.listsAll.lt_size hid)
  anchor hle hnode := absurd (Graph.lt_size_of_node? hnode) (Nat.not_lt.2 hle)

theorem Placed.mono {limit' : Nat} (h : Placed start limit g) (hle : limit ≤ limit') :
    Placed start limit' g := by
  refine ⟨h.kept, fun hreorder hnode => ?_⟩
  obtain ⟨anchor, hanchor⟩ := h.anchor hreorder hnode
  exact ⟨anchor, { hanchor with visited := Nat.lt_of_lt_of_le hanchor.visited hle }⟩

/-- Whether the reorders are placed depends on the order and the edges only. -/
theorem Placed.of_sameDeps (h : Placed start limit g) (horder : g'.order = g.order)
    (hdeps : Graph.Same Node.deps g g') : Placed start limit g' := by
  refine ⟨horder ▸ h.kept, fun hreorder hnode' => ?_⟩
  obtain ⟨node, hnode, hsame⟩ := hdeps.exists_old hnode'
  obtain ⟨anchor, hvisited, hold, hanchored, hsources, hreaders⟩ := h.anchor hreorder hnode
  refine ⟨anchor, hvisited, hold, horder ▸ hanchored, hsame ▸ hsources, ?_⟩
  rintro reader ⟨consumer', hconsumer', hreads⟩
  obtain ⟨consumer, hconsumer, hsame'⟩ := hdeps.exists_old hconsumer'
  exact hreaders ⟨consumer, hconsumer, hsame' ▸ hreads⟩

theorem Placed.of_sameContent (h : Placed start limit g) (hsame : Graph.SameContent g g') :
    Placed start limit g' :=
  h.of_sameDeps hsame.order_eq hsame.wiring.deps

theorem Placed.retarget {reorder : NodeId} {target : Layout} (h : Placed start limit g)
    (hretargeted : Graph.Retargeted reorder target g g') : Placed start limit g' :=
  h.of_sameDeps hretargeted.order_eq hretargeted.sameDeps

/-- Every anchor is among the nodes up to `id`, so `id` may read any reorder. -/
theorem Anchor.rewire {edge : Edge} {reorder anchor : NodeId} {node : Node}
    (h : Anchor start (id.index + 1) g reorder node anchor) (hid : id.index < start.size)
    (hreorder : start.size ≤ reorder.index) (hnode : g.node? reorder = some node)
    (hrewired : Graph.Rewired id slot edge g g')
    (hanchored : Anchored start.size g'.order reorder anchor)
    (hreads : ∀ {reader}, reader ≠ id → g'.Reads reader reorder → g.Reads reader reorder)
    {node' : Node} (hnode' : g'.node? reorder = some node') :
    Anchor start (id.index + 1) g' reorder node' anchor := by
  obtain ⟨old, hold, hbare⟩ :=
    hrewired.exists_old hnode' (Graph.lt_size_of_node? hnode) (by rintro rfl; omega)
  obtain rfl := Option.some.inj (hnode.symm.trans hold)
  refine ⟨h.visited, h.old, hanchored, ?_, fun {reader} hreader => ?_⟩
  · rw [Node.deps_of_bare hbare]
    exact h.sources
  · by_cases hne : reader = id
    · subst hne
      exact Nat.le_of_lt_succ h.visited
    · exact h.readers (hreads hne hreader)

theorem Placed.rewire {edge : Edge} (h : Placed start (id.index + 1) g)
    (hid : id.index < start.size) (hrewired : Graph.Rewired id slot edge g g')
    (horder : g'.order = g.order) (hsize : g'.size = g.size) : Placed start (id.index + 1) g' := by
  refine ⟨horder ▸ h.kept, fun {reorder node'} hreorder hnode' => ?_⟩
  obtain ⟨node, hnode⟩ := Graph.exists_node (hsize ▸ Graph.lt_size_of_node? hnode')
  obtain ⟨anchor, hanchor⟩ := h.anchor hreorder hnode
  refine ⟨anchor, hanchor.rewire hid hreorder hnode hrewired (horder ▸ hanchor.anchored) ?_ hnode'⟩
  intro reader hne hreads
  exact hrewired.reads_old (hsize ▸ hreads.lt_size) hne hreads

/-- A new reorder is anchored at the node it is inserted for, which comes after what it reads. -/
theorem Placed.interpose {reorder : Node} {source : Edge} (h : Placed start (id.index + 1) g)
    (hgrown : start.size ≤ g.size) (hid : id.index < start.size) (hlisted : id ∈ g.order)
    (hg : g.WellFormed) (hrewired : Graph.Rewired id slot ⟨⟨g.size⟩, 0⟩ g g')
    (hsize : g'.size = g.size + 1) (horder : g'.order = insertBefore id ⟨g.size⟩ g.order)
    (hnew : g'.node? ⟨g.size⟩ = some reorder) (hdeps : reorder.deps = [source])
    (hsource : source.node.index < id.index) : Placed start (id.index + 1) g' := by
  have hreads : ∀ {reader other : NodeId}, reader ≠ id → start.size ≤ other.index →
      g'.Reads reader other → g.Reads reader other := by
    intro reader other hne hother hreads
    by_cases hreader : reader = ⟨g.size⟩
    · subst hreader
      obtain ⟨edge, hedge, rfl⟩ := (Graph.reads_iff_of_node? hnew).1 hreads
      rw [hdeps, List.mem_singleton] at hedge
      subst hedge
      omega
    · have hlt := hreads.lt_size
      have hindex : reader.index ≠ g.size :=
        fun heq => hreader (by cases reader; exact congrArg _ heq)
      exact hrewired.reads_old (by omega) hne hreads
  refine ⟨?_, fun {other node'} hother hnode' => ?_⟩
  · rw [horder, filter_insertBefore (by simpa using hgrown), h.kept]
  by_cases hne : other = ⟨g.size⟩
  · subst hne
    obtain rfl := Option.some.inj (hnew.symm.trans hnode')
    refine ⟨id, Nat.lt_succ_self _, hid, horder ▸ anchored_insertBefore hlisted, ?_, ?_⟩
    · intro edge hedge
      rw [hdeps, List.mem_singleton] at hedge
      rw [hedge]
      exact hsource
    · intro reader hreader
      by_cases hself : reader = id
      · exact Nat.le_of_eq (congrArg _ hself.symm)
      · obtain ⟨node, hnode, edge, hedge, hread⟩ := hreads hself hother hreader
        obtain ⟨_, hlayout⟩ := hg.produced hnode hedge
        obtain ⟨_, hproducer, _⟩ := Graph.layoutAt?_eq_some_iff.1 hlayout
        rw [hread] at hproducer
        exact absurd (Graph.lt_size_of_node? hproducer) (Nat.lt_irrefl _)
  · have hlt := Graph.lt_size_of_node? hnode'
    have hindex : other.index ≠ g.size := fun heq => hne (by cases other; exact congrArg _ heq)
    obtain ⟨node, hnode⟩ := Graph.exists_node (show other.index < g.size by omega)
    obtain ⟨anchor, hanchor⟩ := h.anchor hother hnode
    refine ⟨anchor, hanchor.rewire hid hother hnode hrewired ?_ (fun hne => hreads hne hother)
      hnode'⟩
    rw [horder]
    exact hanchor.anchored.insert hother hid hgrown

/-! ## Placement along a run -/

variable {cx : Context} {s s' : Reconciliation}

theorem TakenOff.placed {edge : Edge} (hid : id.index < start.size)
    (h : TakenOff start id slot edge s s') (hplaced : Placed start (id.index + 1) s.graph) :
    Placed start (id.index + 1) s'.graph := by
  cases h with
  | already => exact hplaced
  | off _ _ _ _ hrewired horder houtputs =>
    exact hplaced.rewire hid hrewired horder houtputs.size_eq

theorem Feeds.placed {edge : Edge} {target : Layout} (hstart : start.Ordered)
    (hid : id.index < start.size) (hedge : start.dep? id slot = some edge)
    (h : Feeds start id slot edge target s s') (hplaced : Placed start (id.index + 1) s.graph) :
    Placed start (id.index + 1) s'.graph := by
  cases h with
  | retarget _ _ _ _ _ _ hretargeted => exact hplaced.retarget hretargeted
  | reuse _ hoff _ _ _ hrewired horder houtputs =>
    exact (hoff.placed hid hplaced).rewire hid hrewired horder houtputs.size_eq
  | @create s₁ _ _ hs₁ hoff hcurrent _ _ hrewired hsize horder hnew hdeps =>
    obtain ⟨old, hold, hold_dep⟩ := Graph.dep?_eq_some_iff.1 hedge
    obtain ⟨node, hnode, _⟩ := Graph.dep?_eq_some_iff.1 hcurrent
    have hearlier := hstart.earlier hold (List.mem_of_getElem? hold_dep)
    have hlisted : id ∈ s₁.graph.order := hs₁.listed.mem_of_lt (Graph.lt_size_of_node? hnode)
    exact (hoff.placed hid hplaced).interpose hs₁.grown hid hlisted hs₁.wellFormed hrewired hsize
      horder hnew hdeps hearlier

theorem Move.placed (hstart : start.Ordered) (hs : Sound start s) (hid : id.index < start.size)
    (h : Move id s s') (hplaced : Placed start (id.index + 1) s.graph) :
    Placed start (id.index + 1) s'.graph := by
  obtain ⟨node, hnode⟩ := Graph.exists_node (Nat.lt_of_lt_of_le hid hs.grown)
  cases h with
  | settle h =>
    obtain ⟨hedit, _⟩ := (Graph.settle?_spec hs.wellFormed hnode).post_of_eq h
    exact hplaced.of_sameContent hedit.content
  | invalidate h =>
    obtain ⟨hedit, _⟩ := (Graph.invalidate?_spec hs.wellFormed hnode).post_of_eq h
    exact hplaced.of_sameContent hedit.content
  | convert _ _ _ h =>
    obtain ⟨edge, hedge, _, hfeeds⟩ := (serves_of_convert? h).feeds hstart.wellFormed hs hid
    exact hfeeds.placed hstart hid hedge hplaced

theorem placed_of_run (hstart : start.Ordered) :
    Yields (start.order.foldlM (visit? cx) { graph := start }) fun s =>
      Sound start s ∧ Placed start start.size s.graph := by
  refine run?_induct hstart (fun count s => Placed start count s.graph) (placed_start hstart) ?_ ?_
  · exact fun _ _ hplaced _ _ => hplaced.mono (Nat.le_succ _)
  · intro count s s' node before after hlt hs hplaced _ _ _ _ _ hvisited
    refine hvisited.inv hstart.wellFormed hs hlt (fun s => Placed start (count + 1) s.graph) ?_ ?_
      (hplaced.mono (Nat.le_succ _))
    · exact fun hs hplaced hmove => hmove.placed hstart hs hlt hplaced
    · exact fun _ hplaced hlegalized => hplaced.of_sameContent hlegalized.edit.content

end Reconciliation

/-! ## Graphs in order -/

namespace Graph

/-- `g'` is processed in the order of `g`, with reorders inserted.  A node is processed after all it
reads.  A reorder is followed by other reorders and then by an old node, which comes no later than
any reader of the reorder. -/
structure Arranged (g g' : Graph) : Prop where
  listed : g'.ListsAll
  produced : ∀ {before id after node edge}, g'.order = before ++ id :: after →
    g'.node? id = some node → edge ∈ node.deps → edge.node ∈ before
  kept : g'.order.filter (·.index < g.size) = g.order
  anchored : ∀ {reorder : NodeId}, g.size ≤ reorder.index → reorder.index < g'.size →
    ∃ before between anchor after, g'.order = before ++ reorder :: (between ++ anchor :: after) ∧
      (∀ id ∈ between, g.size ≤ id.index) ∧ anchor.index < g.size ∧
      ∀ consumer, g'.Reads consumer reorder → consumer ∈ anchor :: after

/-- An arranged graph passes the topology check. -/
theorem Arranged.checkTopology?_ok {g g' : Graph} (h : Arranged g g') (hg' : g'.WellFormed) :
    g'.checkTopology? = some (.ok ()) := by
  refine (checkOrder?_ok_iff hg'.id_eq).2 ?_
  intro before id after hsplit
  obtain ⟨node, hnode⟩ :=
    exists_node (h.listed.lt_size (hsplit ▸ List.mem_append_right _ (.head _)))
  refine ⟨node, hnode, hg'.outputs_ne hnode, fun edge hedge => ⟨Or.inr ?_, ?_⟩⟩
  · exact h.produced hsplit hnode hedge
  · exact hg'.produced hnode hedge

/-- The arrangement does not notice edits of single nodes, before or after. -/
theorem Arranged.of_sameContent {g g₁ g₂ g' : Graph} (hbefore : SameContent g g₁)
    (h : Arranged g₁ g₂) (hafter : SameContent g₂ g') : Arranged g g' := by
  have hsize := hbefore.nodes.size_eq
  refine ⟨hafter.listsAll h.listed, ?_, ?_, ?_⟩
  · intro before id after node edge hsplit hnode hedge
    obtain ⟨node₂, hnode₂, hdeps⟩ := hafter.wiring.deps.exists_old hnode
    exact h.produced (hafter.order_eq ▸ hsplit) hnode₂ (hdeps ▸ hedge)
  · rw [hafter.order_eq, ← hsize, h.kept, hbefore.order_eq]
  · intro reorder hle hlt
    rw [hafter.nodes.size_eq] at hlt
    obtain ⟨before, between, anchor, after, hsplit, hbetween, hold, hreaders⟩ :=
      h.anchored (hsize ▸ hle) hlt
    refine ⟨before, between, anchor, after, hafter.order_eq.trans hsplit, ?_, hsize ▸ hold, ?_⟩
    · rw [← hsize]
      exact hbetween
    · exact fun consumer hreads => hreaders consumer ((hafter.wiring.reads_iff _ _).1 hreads)

theorem ListsAll.nodup {g : Graph} (h : g.ListsAll) : g.order.Nodup :=
  h.nodup_iff.2 (List.nodup_range.map fun _ _ heq => NodeId.mk.inj heq)

/-- Every node is listed once. -/
theorem ListsAll.not_mem_of_split {g : Graph} (h : g.ListsAll) {id : NodeId}
    {before after : List NodeId} (hsplit : g.order = before ++ id :: after) : id ∉ before := by
  have hnodup := h.nodup
  rw [hsplit, List.nodup_append] at hnodup
  exact fun hmem => hnodup.2.2 id hmem id (List.mem_cons_self ..) rfl

theorem Ordered.arranged {g : Graph} (hg : g.Ordered) : Arranged g g := by
  refine ⟨hg.listsAll, ?_, ?_, ?_⟩
  · intro before id after node edge hsplit hnode hedge
    exact (mem_before_iff (hg.order_eq ▸ hsplit)).2 (hg.earlier hnode hedge)
  · exact (Reconciliation.placed_start hg).kept
  · exact fun hle hlt => absurd hlt (Nat.not_lt.2 hle)

end Graph

namespace Reconciliation

variable {start : Graph} {limit : Nat} {s : Reconciliation}

/-- Old nodes come in the order of their ids. -/
theorem Placed.sublist (hstart : start.Ordered) {g : Graph} (h : Placed start limit g)
    {a b : NodeId} (hless : a.index < b.index) (hb : b.index < start.size) : [a, b] <+ g.order := by
  have hsub : start.order <+ g.order := by
    rw [← h.kept]
    exact List.filter_sublist
  refine List.Sublist.trans ?_ hsub
  obtain ⟨before, after, hsplit⟩ := List.append_of_mem (hstart.listsAll.mem_of_lt hb)
  rw [hsplit]
  exact sublist_of_mem_before ((Graph.mem_before_iff (hstart.order_eq ▸ hsplit)).2 hless)

/-- Only old nodes read reorders. -/
theorem Sound.reader_lt (hs : Sound start s) {reader reorder : NodeId}
    (hreorder : start.size ≤ reorder.index) (h : s.graph.Reads reader reorder) :
    reader.index < start.size := by
  by_contra hnew
  obtain ⟨node, hnode, edge, hedge, rfl⟩ := h
  obtain ⟨source, layout, _, hdeps, hlayout, _⟩ :=
    (hs.inserted hnode (Nat.not_lt.1 hnew)).converts
  obtain ⟨_, hproducer, _⟩ := Graph.layoutAt?_eq_some_iff.1 hlayout
  have hlt := Graph.lt_size_of_node? hproducer
  rw [hdeps, List.mem_singleton] at hedge
  subst hedge
  omega

theorem Placed.arranged (hstart : start.Ordered) (hs : Sound start s)
    (h : Placed start limit s.graph) : start.Arranged s.graph := by
  have hnodup := hs.listed.nodup
  have hreader : ∀ {reader reorder anchor : NodeId} {node : Node}, start.size ≤ reorder.index →
      Anchor start limit s.graph reorder node anchor → s.graph.Reads reader reorder →
      anchor = reader ∨ [anchor, reader] <+ s.graph.order := by
    intro reader reorder anchor node hle hanchor hreads
    rcases Nat.eq_or_lt_of_le (hanchor.readers hreads) with heq | hless
    · left
      cases anchor
      cases reader
      exact congrArg _ heq
    · exact Or.inr (h.sublist hstart hless (hs.reader_lt hle hreads))
  refine ⟨hs.listed, ?_, h.kept, ?_⟩
  · intro before id after node edge hsplit hnode hedge
    have hnodup' : (before ++ id :: after).Nodup := hsplit ▸ hnodup
    refine mem_before_of_sublist hnodup' ?_
    rw [← hsplit]
    by_cases hid : id.index < start.size
    · obtain ⟨slot, hslot⟩ := List.mem_iff_getElem?.1 hedge
      have hdep : s.graph.dep? id slot = some edge := by simp [Graph.dep?, hnode, hslot]
      obtain ⟨source, hsource, rfl | ⟨reorder, converter, rfl, hle, hconverter, _⟩⟩ :=
        hs.exists_slot hid hdep
      · obtain ⟨old, hold, hold_dep⟩ := Option.bind_eq_some_iff.1 hsource
        exact h.sublist hstart (hstart.earlier hold (List.mem_of_getElem? hold_dep)) hid
      · obtain ⟨anchor, hanchor⟩ := h.anchor hle hconverter
        rcases hreader hle hanchor ⟨node, hnode, _, hedge, rfl⟩ with rfl | hfirst
        · exact hanchor.anchored.sublist
        · exact sublist_pair_trans hnodup hanchor.anchored.sublist hfirst
    · have hle := Nat.not_lt.1 hid
      obtain ⟨anchor, hanchor⟩ := h.anchor hle hnode
      have hless := hanchor.sources edge hedge
      have hold := hanchor.old
      exact hanchor.anchored.of_sublist hnodup hle (by omega) (h.sublist hstart hless hold)
  · intro reorder hle hlt
    obtain ⟨node, hnode⟩ := Graph.exists_node hlt
    obtain ⟨anchor, hanchor⟩ := h.anchor hle hnode
    obtain ⟨before, between, after, hsplit, hbetween⟩ := hanchor.anchored
    refine ⟨before, between, anchor, after, hsplit, hbetween, hanchor.old,
      fun consumer hreads => ?_⟩
    rcases hreader hle hanchor hreads with rfl | hfirst
    · exact List.mem_cons_self ..
    · rw [← List.cons_append, ← List.append_assoc] at hsplit
      rw [hsplit] at hnodup hfirst
      exact List.mem_cons_of_mem _ (mem_after_of_sublist hnodup hfirst)

end Reconciliation

namespace Pipeline

variable {g g' : Graph} {stages : List Stage}

/-- The end of a run that is past edge agreement. -/
theorem arranged_past_agreement (cx : Context) (hwf : g'.WellFormed) (h : g.Arranged g')
    (hstages : stages <+: [.construction]) (total : Report) (trace : Trace) :
    Yields (runStages? cx g' total trace stages) fun out =>
      out.graph.WellFormed ∧ g.Arranged out.graph := by
  rcases List.prefix_cons_iff.1 hstages with rfl | ⟨rest, rfl, hrest⟩
  · exact Yields.pure ⟨hwf, h⟩
  obtain rfl := List.prefix_nil.1 hrest
  refine runStages?_cons (fun g' _ => g'.WellFormed ∧ g.Arranged g') ?_ total trace
  refine (Construction.run?_spec cx hwf h.listed).mono ?_
  rintro out ⟨settled, hdone⟩
  have hsame := hdone.content
  have hout : out.graph.WellFormed ∧ g.Arranged out.graph :=
    ⟨hwf.of_sameWiring hsame.wiring, .of_sameContent (.refl g) h hsame⟩
  exact ⟨fun _ _ => hout, fun _ _ _ => Yields.pure hout⟩

/-- The end of a run that is past propagation. -/
theorem arranged_past_propagation (cx : Context) (hg' : g'.Ordered) (hsame : g.SameContent g')
    (hstages : stages <+: [.agreement, .construction]) (total : Report) (trace : Trace) :
    Yields (runStages? cx g' total trace stages) fun out =>
      out.graph.WellFormed ∧ g.Arranged out.graph := by
  rcases List.prefix_cons_iff.1 hstages with rfl | ⟨rest, rfl, hrest⟩
  · exact Yields.pure ⟨hg'.wellFormed, .of_sameContent hsame hg'.arranged (.refl g')⟩
  refine runStages?_cons (fun g' _ => g'.WellFormed ∧ g.Arranged g') ?_ total trace
  refine (Reconciliation.run?_spec cx hg').mono ?_
  rintro out ⟨s, hs, hsound, hgraph, _⟩
  obtain ⟨_, hplaced⟩ := (Reconciliation.placed_of_run hg').post_of_eq hs
  rw [hgraph]
  have harranged : g.Arranged s.graph :=
    .of_sameContent hsame (hplaced.arranged hg' hsound) (.refl s.graph)
  exact ⟨fun _ _ => ⟨hsound.wellFormed, harranged⟩,
    fun _ => arranged_past_agreement cx hsound.wellFormed harranged hrest⟩

end Pipeline

/-- However far the standard pipeline is run, and however the run ends, the topology is in order,
and the processing order is the old one with reorders inserted where they belong. -/
theorem arranged_of_run {decls : List NodeDecl} {g : Graph}
    (hbuild : Graph.build? decls = some (.ok g)) (cx : Context) {stages : List Stage}
    (hstages : stages <+: Pipeline.standard) :
    ∃ out, Pipeline.run? stages cx g = some out ∧ out.graph.checkTopology? = some (.ok ()) ∧
      g.Arranged out.graph := by
  have hg := Graph.fresh_of_build hbuild
  have hrun : Yields (Pipeline.run? stages cx g) fun out =>
      out.graph.WellFormed ∧ g.Arranged out.graph := by
    refine Pipeline.run?_spec (fun g' _ => g'.WellFormed ∧ g.Arranged g') hg fun total trace => ?_
    rcases List.prefix_cons_iff.1 hstages with rfl | ⟨rest, rfl, hrest⟩
    · exact Yields.pure ⟨hg.wellFormed, hg.toOrdered.arranged⟩
    refine Pipeline.runStages?_cons (fun g' _ => g'.WellFormed ∧ g.Arranged g') ?_ total trace
    refine (Propagation.run?_spec cx hg.toOrdered).mono ?_
    rintro out ⟨_, s, _, hgraph, hsame⟩
    have hs := hg.toOrdered.of_sameContent hsame
    rw [hgraph]
    exact ⟨fun _ _ => ⟨hs.wellFormed, .of_sameContent hsame hs.arranged (.refl s.graph)⟩,
      fun _ => Pipeline.arranged_past_propagation cx hs hsame hrest⟩
  obtain ⟨out, hout, hwf, harranged⟩ := hrun
  exact ⟨out, hout, harranged.checkTopology?_ok hwf, harranged⟩

/-- Two convolutions of bytes that read the same image. -/
def twinConvolutions : List NodeDecl :=
  byteConvolution ++ byteConvolution.drop 1

/-- The reorder that both convolutions read is inserted before the first one. -/
theorem arranged_twinConvolutions : ∃ g, Graph.build? twinConvolutions = some (.ok g) ∧
    (Pipeline.run? Pipeline.standard { catalog := Builtin.catalog } g).map (·.graph.order) =
      some [⟨0⟩, ⟨3⟩, ⟨1⟩, ⟨2⟩] ∧
    ∃ out, Pipeline.run? Pipeline.standard { catalog := Builtin.catalog } g = some out ∧
      out.graph.checkTopology? = some (.ok ()) ∧ g.Arranged out.graph :=
  ⟨_, rfl, rfl, @arranged_of_run twinConvolutions _ rfl _ _ List.prefix_rfl⟩

end LayoutPlanner
