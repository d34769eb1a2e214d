import LayoutPlanner.Planning.Reconciliation
import LayoutPlanner.Proofs.BuiltGraphs

/-!
# Conversions

The state of edge agreement is tied to the graph `start` that the run began with.

* Every node beyond those of `start` is a reorder on an edge of `start`, and keeps its shape
  (`Inserted`).
* A node of `start` still means what it did, and each of its slots reads its old edge, either
  directly or through one such reorder (`Graph.Feeds`).
* The table of conversions tells what reorders do (`Sound.known`).

`convert?` can retarget a reorder, give one up for another, share one and insert one.
`convert?_spec` says what all of these come to: the slot reads the target, through a reorder on its
old edge, and no other slot of an old node can tell the difference.
-/

namespace LayoutPlanner

/-- What is known of a reorder that was put on an edge of `start`. -/
structure Inserted (start : Graph) (node : Node) : Prop where
  op_eq : node.op = .reorder
  notShared : node.isSharedSurface = false
  prefers : node.prefers = {}
  pinned : node.pinned = none
  fused : node.fused = []
  eliminable : node.eliminable = false
  converts : ∃ source layout target, node.deps = [source] ∧ start.layoutAt? source = some layout ∧
    node.outputs = [target] ∧ target.shape = layout.shape

theorem Inserted.congr {start : Graph} {a b : Node} (h : a.bare = b.bare) (hb : Inserted start b) :
    Inserted start a := by
  simp only [Node.bare, Node.mk.injEq] at h
  obtain ⟨hop, hshared, hprefers, hpinned, hfused, hmark, source, layout, target, hdeps, hlayout,
    houtputs, hshape⟩ := hb
  refine ⟨by simp_all, ?_, by simp_all, by simp_all, by simp_all, by simp_all,
    source, layout, target, by simp_all, hlayout, by simp_all, hshape⟩
  rw [Node.isSharedSurface_congr h.2.2.2.1, hshared]

namespace Graph

/-- A slot that read `edge` in `start` reads `current` now: the same edge, or a reorder on it. -/
def Feeds (g start : Graph) (edge current : Edge) : Prop :=
  current = edge ∨ ∃ reorder node, current = ⟨reorder, 0⟩ ∧ start.size ≤ reorder.index ∧
    g.node? reorder = some node ∧ node.deps = [edge]

/-- Reorders that go on reading their edges go on feeding. -/
theorem Feeds.mono {g g' start : Graph} {edge current : Edge} (h : g.Feeds start edge current)
    (hdeps : ∀ {id node}, start.size ≤ id.index → g.node? id = some node →
      ∃ node', g'.node? id = some node' ∧ node'.deps = node.deps) :
    g'.Feeds start edge current := by
  rcases h with hsame | ⟨reorder, node, hcurrent, hle, hnode, hreads⟩
  · exact Or.inl hsame
  · obtain ⟨node', hnode', hdeps'⟩ := hdeps hle hnode
    exact Or.inr ⟨reorder, node', hcurrent, hle, hnode', hdeps'.trans hreads⟩

end Graph

namespace Reconciliation

structure Sound (start : Graph) (s : Reconciliation) : Prop where
  wellFormed : s.graph.WellFormed
  listed : s.graph.ListsAll
  grown : start.size ≤ s.graph.size
  created_iff : ∀ {id}, id ∈ s.created ↔ start.size ≤ id.index ∧ id.index < s.graph.size
  inserted : ∀ {id node}, s.graph.node? id = some node → start.size ≤ id.index →
    Inserted start node
  kept : ∀ {id old}, start.node? id = some old → ∃ node, s.graph.node? id = some node ∧
    node.meaning = old.meaning ∧ node.deps.length = old.deps.length ∧
    ∀ {slot : Nat} {edge current : Edge}, old.deps[slot]? = some edge →
      node.deps[slot]? = some current → s.graph.Feeds start edge current
  known : ∀ {conversion reorder}, (conversion, reorder) ∈ s.conversions →
    start.size ≤ reorder.index ∧ ∃ node, s.graph.node? reorder = some node ∧
      node.deps = [conversion.source] ∧ node.outputs = [conversion.target]

theorem Sound.isCreated_iff {start : Graph} {s : Reconciliation} (hs : Sound start s)
    {id : NodeId} : s.isCreated id = true ↔ start.size ≤ id.index ∧ id.index < s.graph.size := by
  rw [isCreated, List.contains_iff_mem, hs.created_iff]

theorem Sound.isCreated_producer_iff {start : Graph} {s : Reconciliation} (hs : Sound start s)
    {id : NodeId} {slot : Nat} {input : Input} (hinput : s.graph.input? id slot = some input) :
    s.isCreated input.producer.id = true ↔ start.size ≤ input.producer.id.index := by
  rw [hs.isCreated_iff]
  exact and_iff_left (hs.wellFormed.producer_lt hinput)

theorem sound_start {g : Graph} (hg : g.WellFormed) (hlisted : g.ListsAll) :
    Sound g { graph := g } where
  wellFormed := hg
  listed := hlisted
  grown := Nat.le_refl _
  created_iff := by
    intro id
    simp only [List.not_mem_nil, false_iff, not_and, Nat.not_lt]
    exact fun h => h
  inserted hnode hle := absurd (Graph.lt_size_of_node? hnode) (Nat.not_lt.2 hle)
  kept {id old} hold := by
    refine ⟨old, hold, rfl, rfl, fun hedge hcurrent => Or.inl ?_⟩
    exact Option.some.inj (hcurrent.symm.trans hedge)
  known hmem := absurd hmem List.not_mem_nil

section Frame

variable {start : Graph} {s s' : Reconciliation}

/-- The old nodes stay what they are, as long as reorders stay on their edges and every slot is
moved only to an edge that feeds it. -/
theorem Sound.kept_of (hs : Sound start s) {g : Graph}
    (hreorders : ∀ {id node}, start.size ≤ id.index → s.graph.node? id = some node →
      ∃ node', g.node? id = some node' ∧ node'.deps = node.deps)
    (hkept : ∀ {id node}, id.index < start.size → s.graph.node? id = some node →
      ∃ node', g.node? id = some node' ∧ node'.meaning = node.meaning ∧
        node'.deps.length = node.deps.length ∧ ∀ {slot : Nat} {current : Edge},
          node'.deps[slot]? = some current → node.deps[slot]? = some current ∨
            ∃ edge, start.dep? id slot = some edge ∧ g.Feeds start edge current)
    {id : NodeId} {old : Node} (hold : start.node? id = some old) :
    ∃ node, g.node? id = some node ∧ node.meaning = old.meaning ∧
      node.deps.length = old.deps.length ∧
      ∀ {slot : Nat} {edge current : Edge}, old.deps[slot]? = some edge →
        node.deps[slot]? = some current → g.Feeds start edge current := by
  obtain ⟨node, hnode, hmeaning, hlength, hslots⟩ := hs.kept hold
  obtain ⟨node', hnode', hmeaning', hlength', hslots'⟩ := hkept (Graph.lt_size_of_node? hold) hnode
  refine ⟨node', hnode', hmeaning'.trans hmeaning, hlength'.trans hlength, ?_⟩
  intro slot edge current hedge hcurrent
  rcases hslots' hcurrent with hsame | ⟨edge', hedge', hfed⟩
  · exact (hslots hedge hsame).mono hreorders
  · have heq : edge' = edge := by
      simp only [Graph.dep?, hold, Option.bind_eq_bind, Option.bind_some, hedge] at hedge'
      exact (Option.some.inj hedge').symm
    exact heq ▸ hfed

/-- Soundness survives an edit that leaves the reorders of the run alone and keeps every slot fed
from its old edge. -/
theorem Sound.frame (hs : Sound start s) (hwellFormed : s'.graph.WellFormed)
    (hlisted : s'.graph.ListsAll) (hsize : s'.graph.size = s.graph.size)
    (hconversions : s'.conversions = s.conversions) (hcreated : s'.created = s.created)
    (hreorders : ∀ id : NodeId, start.size ≤ id.index →
      (s'.graph.node? id).map Node.bare = (s.graph.node? id).map Node.bare)
    (hkept : ∀ {id node}, id.index < start.size → s.graph.node? id = some node →
      ∃ node', s'.graph.node? id = some node' ∧ node'.meaning = node.meaning ∧
        node'.deps.length = node.deps.length ∧ ∀ {slot : Nat} {current : Edge},
          node'.deps[slot]? = some current → node.deps[slot]? = some current ∨
            ∃ edge, start.dep? id slot = some edge ∧ s'.graph.Feeds start edge current) :
    Sound start s' := by
  have hreorder : ∀ {id node}, start.size ≤ id.index → s.graph.node? id = some node →
      ∃ node', s'.graph.node? id = some node' ∧ node'.bare = node.bare := by
    intro id node hle hnode
    exact exists_of_map_eq (hreorders id hle) hnode
  refine ⟨hwellFormed, hlisted, hsize ▸ hs.grown, ?_, ?_, hs.kept_of ?_ hkept, ?_⟩
  · intro id
    rw [hcreated, hsize]
    exact hs.created_iff
  · intro id node' hnode' hle
    obtain ⟨node, hnode, hbare⟩ := exists_of_map_eq (hreorders id hle).symm hnode'
    exact (hs.inserted hnode hle).congr hbare.symm
  · intro id node hle hnode
    obtain ⟨node', hnode', hbare⟩ := hreorder hle hnode
    exact ⟨node', hnode', Node.deps_of_bare hbare⟩
  · intro conversion reorder hmem
    obtain ⟨hle, node, hnode, hdeps, houtputs⟩ := hs.known (hconversions ▸ hmem)
    obtain ⟨node', hnode', hbare⟩ := hreorder hle hnode
    exact ⟨hle, node', hnode', (Node.deps_of_bare hbare).trans hdeps,
      (Node.outputs_of_bare hbare).trans houtputs⟩

/-- Soundness survives a local edit of a node of `start`. -/
theorem Sound.localEdit (hs : Sound start s) {id : NodeId} (hid : id.index < start.size)
    (hedit : Graph.LocalEdit id s.graph s'.graph) (hconversions : s'.conversions = s.conversions)
    (hcreated : s'.created = s.created) : Sound start s' := by
  refine hs.frame (hedit.wellFormed hs.wellFormed) (hedit.content.listsAll hs.listed)
    hedit.content.nodes.size_eq hconversions hcreated ?_ ?_
  · intro other hle
    refine hedit.others other ?_
    rintro rfl
    exact absurd hid (Nat.not_lt.2 hle)
  · intro other node _ hnode
    obtain ⟨node', hnode', hcontent⟩ := hedit.content.nodes.exists_new hnode
    obtain ⟨hmeaning, hdeps, _⟩ := Node.content_eq_iff.1 hcontent
    refine ⟨node', hnode', hmeaning, by rw [hdeps], fun hcurrent => Or.inl ?_⟩
    rwa [hdeps] at hcurrent

end Frame

/-- On an edge of an old node only the format can have changed. -/
theorem Sound.layoutAt?_eq {start : Graph} {s : Reconciliation} (hs : Sound start s) {edge : Edge}
    (hedge : edge.node.index < start.size) :
    (s.graph.layoutAt? edge).map (·.withFormat .any) =
      (start.layoutAt? edge).map (·.withFormat .any) := by
  obtain ⟨old, hold⟩ := Graph.exists_node hedge
  obtain ⟨node, hnode, hmeaning, _⟩ := hs.kept hold
  simp only [Graph.layoutAt?, hold, hnode, Option.bind_eq_bind, Option.bind_some]
  exact Node.output_of_meaning hmeaning edge.output

/-- The slot of `id` that read `edge` in `start`, with what it reads now. -/
theorem Sound.exists_slot {start : Graph} {s : Reconciliation} (hs : Sound start s) {id : NodeId}
    (hid : id.index < start.size) {slot : Nat} {current : Edge}
    (hcurrent : s.graph.dep? id slot = some current) :
    ∃ edge, start.dep? id slot = some edge ∧ s.graph.Feeds start edge current := by
  obtain ⟨old, hold⟩ := Graph.exists_node hid
  obtain ⟨node, hnode, _, hlength, hslots⟩ := hs.kept hold
  have hget : node.deps[slot]? = some current := by
    simpa [Graph.dep?, hnode] using hcurrent
  have hlt : slot < old.deps.length := by
    rw [← hlength]
    exact (List.getElem?_eq_some_iff.1 hget).1
  refine ⟨old.deps[slot], ?_, hslots (List.getElem?_eq_getElem hlt) hget⟩
  simp [Graph.dep?, hold, List.getElem?_eq_getElem hlt]

/-! ## The three ways to serve a slot -/

section Serve

variable {start : Graph} {s : Reconciliation} {id : NodeId} {slot : Nat}

/-- Soundness survives moving a slot to an edge that feeds it. -/
theorem Sound.rewire (hs : Sound start s) {s' : Reconciliation} {edge current : Edge}
    (hedge : start.dep? id slot = some edge) (hfeeds : s.graph.Feeds start edge current)
    (hid : id.index < start.size) (hrewired : Graph.Rewired id slot current s.graph s'.graph)
    (horder : s'.graph.order = s.graph.order) (hsize : s'.graph.size = s.graph.size)
    (hconversions : s'.conversions = s.conversions) (hcreated : s'.created = s.created) :
    Sound start s' := by
  have hstill : s'.graph.Feeds start edge current := by
    refine hfeeds.mono fun {other node} hle hnode => ?_
    obtain ⟨node', hnode', _, _, hdeps⟩ := hrewired.exists_new hnode
    have hne : other ≠ id := by
      rintro rfl
      exact absurd hid (Nat.not_lt.2 hle)
    exact ⟨node', hnode', by rw [hdeps, if_neg hne]⟩
  refine hs.frame hrewired.wellFormed ?_ hsize hconversions hcreated ?_ ?_
  · rw [Graph.ListsAll, horder, hsize]
    exact hs.listed
  · intro other hle
    by_cases hlt : other.index < s.graph.size
    · refine hrewired.others other hlt ?_
      rintro rfl
      exact absurd hid (Nat.not_lt.2 hle)
    · have hnone (g : Graph) (hg : g.size = s.graph.size) : g.node? other = none := by
        rw [← Option.not_isSome_iff_eq_none, Graph.node?_isSome_iff, hg]
        exact hlt
      rw [hnone _ hsize, hnone _ rfl]
  · intro other node _ hnode
    obtain ⟨node', hnode', hmeaning, _, hdeps⟩ := hrewired.exists_new hnode
    refine ⟨node', hnode', hmeaning, ?_, ?_⟩
    · rw [hdeps]
      split <;> simp
    · intro k found hfound
      rw [hdeps] at hfound
      split at hfound
      next hother =>
        subst hother
        by_cases hk : slot = k
        · subst hk
          obtain rfl : current = found := by
            rw [List.getElem?_set_self'] at hfound
            obtain ⟨_, _, heq⟩ := Option.map_eq_some_iff.1 hfound
            exact heq
          exact Or.inr ⟨edge, hedge, hstill⟩
        · rw [List.getElem?_set_ne hk] at hfound
          exact Or.inl hfound
      next => exact Or.inl hfound

/-- What a conversion comes to, whichever way the slot is served. -/
structure Converted (start : Graph) (id : NodeId) (slot : Nat) (target : Layout)
    (s s' : Reconciliation) : Prop where
  sound : Sound start s'
  grown : s.graph.size ≤ s'.graph.size
  failure_eq : s'.failure = s.failure
  others : ∀ other : NodeId, other.index < start.size → other ≠ id →
    (s'.graph.node? other).map Node.bare = (s.graph.node? other).map Node.bare
  moved : ∀ {node}, s.graph.node? id = some node → ∃ node' reorder,
    s'.graph.node? id = some node' ∧
    node'.bare = { node with deps := node.deps.set slot ⟨reorder, 0⟩ }.bare ∧
    start.size ≤ reorder.index ∧ s'.graph.layoutAt? ⟨reorder, 0⟩ = some target
  reorders : ∀ {other node'}, start.size ≤ other.index → s'.graph.node? other = some node' →
    (∃ node, s.graph.node? other = some node ∧ node'.bare = node.bare) ∨
      node'.outputs = [target] ∧ ∃ edge, start.dep? id slot = some edge ∧ node'.deps = [edge]
  inputs : ∀ {reader : NodeId} {other : Nat}, reader.index < start.size →
    ¬(reader = id ∧ other = slot) →
    (s'.graph.input? reader other).map Input.face = (s.graph.input? reader other).map Input.face

/-- A reorder that is not shared feeds one slot only. -/
theorem eq_of_not_isShared (hg : s.graph.WellFormed) {node converter : Node} {reorder : NodeId}
    (hnode : s.graph.node? id = some node) (hconverter : s.graph.node? reorder = some converter)
    (hunshared : isShared converter reorder id node slot = false) {reader : NodeId} {other : Nat}
    {edge : Edge} (hedge : s.graph.dep? reader other = some edge) (hreads : edge.node = reorder) :
    reader = id ∧ other = slot := by
  obtain ⟨consumer, hconsumer, hdep⟩ := Option.bind_eq_some_iff.1 hedge
  simp only [isShared, Bool.or_eq_false_iff, List.any_eq_false] at hunshared
  have hreader : reader = id := by
    have hmem : reader ∈ converter.users :=
      (hg.users_iff reader hconverter).2
        ⟨consumer, hconsumer, edge, List.mem_of_getElem? hdep, hreads⟩
    simpa using hunshared.1 reader hmem
  subst hreader
  obtain rfl := Option.some.inj (hnode.symm.trans hconsumer)
  have hslot := hunshared.2 (edge, other) (List.mem_zipIdx_iff_getElem?.2 hdep)
  exact ⟨rfl, by simpa [hreads] using hslot⟩

/-- Soundness survives giving a reorder another target of the same shape, if the table is told. -/
theorem Sound.retarget (hs : Sound start s) {reorder : NodeId} {converter : Node} {source : Edge}
    {target : Layout} {g : Graph} (hle : start.size ≤ reorder.index)
    (hconverter : s.graph.node? reorder = some converter) (hsource : converter.deps = [source])
    (hshape : ∀ layout ∈ converter.outputs, target.shape = layout.shape)
    (h : Graph.Retargeted reorder target s.graph g) :
    Sound start (((s.unlearn reorder).learn ⟨source, target⟩ reorder).withGraph g) := by
  obtain ⟨hop, hshared, hprefers, hpinned, hfused, hmark, source', layout, output, hdeps, hlayout,
    houtputs, houtput⟩ := hs.inserted hconverter hle
  obtain ⟨converter', hconverter', hbare⟩ := h.changed converter hconverter
  have houtputs' : converter'.outputs = [target] := by
    rw [Node.outputs_of_bare hbare, houtputs]
    rfl
  have hdeps' : converter'.deps = [source] := by
    rw [Node.deps_of_bare hbare, ← hsource]
  have hne_of_lt : ∀ {other : NodeId}, other.index < start.size → other ≠ reorder := by
    rintro other hlt rfl
    exact absurd hlt (Nat.not_lt.2 hle)
  refine ⟨h.wellFormed, ?_, h.size_eq.symm ▸ hs.grown, ?_, ?_, hs.kept_of ?_ ?_, ?_⟩
  · show g.ListsAll
    rw [Graph.ListsAll, h.order_eq, h.size_eq]
    exact hs.listed
  · intro other
    show other ∈ s.created ↔ _ ∧ _ < g.size
    rw [h.size_eq]
    exact hs.created_iff
  · intro other node' hnode' hother
    by_cases hne : other = reorder
    · subst hne
      obtain rfl := Option.some.inj (hconverter'.symm.trans hnode')
      have hfields := hbare
      simp only [Node.bare, Node.mk.injEq] at hfields
      refine ⟨by simp_all, ?_, by simp_all, by simp_all, by simp_all, by simp_all, source', layout,
        target, ?_, hlayout, houtputs', (hshape output (by simp [houtputs])).trans houtput⟩
      · rw [Node.isSharedSurface_congr hfields.2.2.2.1]
        exact hshared
      · rw [hdeps', ← hsource, hdeps]
    · obtain ⟨old, hold, hbare'⟩ := h.exists_old hne hnode'
      exact (hs.inserted hold hother).congr hbare'
  · intro other node _ hnode
    by_cases hne : other = reorder
    · subst hne
      obtain rfl := Option.some.inj (hconverter.symm.trans hnode)
      exact ⟨converter', hconverter', hdeps'.trans hsource.symm⟩
    · obtain ⟨node', hnode', hbare'⟩ := h.exists_new hne hnode
      exact ⟨node', hnode', Node.deps_of_bare hbare'⟩
  · intro other node hlt hnode
    obtain ⟨node', hnode', hbare'⟩ := h.exists_new (hne_of_lt hlt) hnode
    refine ⟨node', hnode', Node.meaning_of_bare hbare', by rw [Node.deps_of_bare hbare'], ?_⟩
    intro k current hcurrent
    exact Or.inl (Node.deps_of_bare hbare' ▸ hcurrent)
  · intro conversion other hmem
    rcases List.mem_cons.1 hmem with heq | hmem
    · obtain ⟨rfl, rfl⟩ := Prod.mk.inj heq
      exact ⟨hle, converter', hconverter', hdeps', houtputs'⟩
    · have hmem := List.mem_of_mem_filter hmem
      simp only [unlearn, List.mem_filter, bne_iff_ne, ne_eq] at hmem
      obtain ⟨hother, node, hnode, hreads, hyields⟩ := hs.known hmem.1
      obtain ⟨node', hnode', hbare'⟩ := h.exists_new hmem.2 hnode
      exact ⟨hother, node', hnode', (Node.deps_of_bare hbare').trans hreads,
        (Node.outputs_of_bare hbare').trans hyields⟩

/-- A reorder that feeds one slot only can be given another target. -/
theorem converted_of_retarget (hs : Sound start s) (hid : id.index < start.size) {node : Node}
    (hnode : s.graph.node? id = some node) {reorder : NodeId} {source : Edge} {target : Layout}
    (hslot : node.deps[slot]? = some ⟨reorder, 0⟩) {converter : Node}
    (hconverter : s.graph.node? reorder = some converter) (hle : start.size ≤ reorder.index)
    (hsource : converter.deps = [source]) (hdep : start.dep? id slot = some source)
    (hunshared : isShared converter reorder id node slot = false) {s' : Reconciliation}
    (hs' : Sound start s') (hfailure : s'.failure = s.failure)
    (h : Graph.Retargeted reorder target s.graph s'.graph) :
    Converted start id slot target s s' := by
  obtain ⟨_, _, output, _, _, houtputs, _⟩ := (hs.inserted hconverter hle).converts
  obtain ⟨converter', hconverter', hbare⟩ := h.changed converter hconverter
  have houtputs' : converter'.outputs = [target] := by
    rw [Node.outputs_of_bare hbare, houtputs]
    rfl
  have hne_of_lt : ∀ {other : NodeId}, other.index < start.size → other ≠ reorder := by
    rintro other hlt rfl
    exact absurd hlt (Nat.not_lt.2 hle)
  refine ⟨hs', Nat.le_of_eq h.size_eq.symm, hfailure, ?_, ?_, ?_, ?_⟩
  · exact fun other hlt _ => h.others other (hne_of_lt hlt)
  · intro _ hsame
    obtain rfl := Option.some.inj (hnode.symm.trans hsame)
    obtain ⟨node', hnode', hbare'⟩ := h.exists_new (hne_of_lt hid) hnode
    refine ⟨node', reorder, hnode', hbare'.trans ?_, hle, ?_⟩
    · obtain ⟨hlt, heq⟩ := List.getElem?_eq_some_iff.1 hslot
      rw [← heq, List.set_getElem_self]
    · exact Graph.layoutAt?_eq_some_iff.2 ⟨converter', hconverter', by simp [houtputs']⟩
  · intro other node' _ hnode'
    by_cases hne : other = reorder
    · subst hne
      obtain rfl := Option.some.inj (hconverter'.symm.trans hnode')
      exact Or.inr ⟨houtputs', source, hdep, (Node.deps_of_bare hbare).trans hsource⟩
    · exact Or.inl (h.exists_old hne hnode')
  · intro reader other hlt hne
    refine h.input_face hs.wellFormed (Nat.lt_of_lt_of_le hlt hs.grown) (hne_of_lt hlt) ?_
    intro edge hedge hreads
    exact hne (eq_of_not_isShared hs.wellFormed hnode hconverter hunshared hedge hreads)

/-- A slot can be fed by a reorder that does the conversion already. -/
theorem reuse?_spec (hs : Sound start s) (hid : id.index < start.size) {edge : Edge}
    (hedge : start.dep? id slot = some edge) (hcurrent : s.graph.dep? id slot = some edge)
    {reorder : NodeId} {target : Layout} (hknown : s.reorderFor? ⟨edge, target⟩ = some reorder) :
    Yields (s.reuse? id slot reorder) (Converted start id slot target s) := by
  obtain ⟨⟨conversion, found⟩, hentry, rfl⟩ := Option.map_eq_some_iff.1 hknown
  obtain rfl : conversion = ⟨edge, target⟩ := by simpa using List.find?_some hentry
  obtain ⟨hle, converter, hconverter, hsource, houtputs⟩ :=
    hs.known (List.mem_of_find?_eq_some hentry)
  obtain ⟨node, hnode, hdep⟩ := Option.bind_eq_some_iff.1 hcurrent
  have hslot : slot < node.deps.length := (List.getElem?_eq_some_iff.1 hdep).1
  have hlayout : s.graph.layoutAt? ⟨found, 0⟩ = some target :=
    Graph.layoutAt?_eq_some_iff.2 ⟨converter, hconverter, by simp [houtputs]⟩
  refine Yields.bind (Graph.reroute?_spec hs.wellFormed hnode hslot hlayout) ?_
  rintro g ⟨hrewired, horder, houtputs'⟩
  have hfeeds : s.graph.Feeds start edge ⟨found, 0⟩ :=
    Or.inr ⟨found, converter, rfl, hle, hconverter, hsource⟩
  have hne_of_le : ∀ {other : NodeId}, start.size ≤ other.index → other ≠ id := by
    rintro other hother rfl
    exact absurd hid (Nat.not_lt.2 hother)
  refine Yields.pure ⟨?_, Nat.le_of_eq houtputs'.size_eq.symm, rfl, ?_, ?_, ?_, ?_⟩
  · exact hs.rewire hedge hfeeds hid hrewired horder houtputs'.size_eq rfl rfl
  · exact fun other hlt hne => hrewired.others other (Nat.lt_of_lt_of_le hlt hs.grown) hne
  · intro _ hsame
    obtain rfl := Option.some.inj (hnode.symm.trans hsame)
    obtain ⟨node', hnode', hbare⟩ := hrewired.moved node hnode
    exact ⟨node', found, hnode', hbare, hle, (houtputs'.layoutAt?_eq _).trans hlayout⟩
  · intro other node' hother hnode'
    have hlt : other.index < s.graph.size := by
      rw [← houtputs'.size_eq]
      exact Graph.lt_size_of_node? hnode'
    exact Or.inl (hrewired.exists_old hnode' hlt (hne_of_le hother))
  · exact fun hlt hne => hrewired.input_face hs.wellFormed (Nat.lt_of_lt_of_le hlt hs.grown) hne

/-- Soundness survives a new reorder that feeds a slot from its old edge. -/
theorem Sound.interpose (hs : Sound start s) (hid : id.index < start.size) {input : Input}
    (hedge : start.dep? id slot = some input.edge) {layout target : Layout}
    (hlayout : start.layoutAt? input.edge = some layout) (hshape : target.shape = layout.shape)
    {reason : ReorderReason} {s' : Reconciliation} {reorder : Node}
    (hrewired : Graph.Rewired id slot ⟨⟨s.graph.size⟩, 0⟩ s.graph s'.graph)
    (hsize : s'.graph.size = s.graph.size + 1)
    (horder : s'.graph.order = insertBefore id ⟨s.graph.size⟩ s.graph.order)
    (hreorder : s'.graph.node? ⟨s.graph.size⟩ = some reorder)
    (hbare : reorder.bare = (s.graph.reorderFor input target reason).bare)
    (hcreated : s'.created = ⟨s.graph.size⟩ :: s.created)
    (hconversions : s'.conversions =
      (s.learn ⟨input.edge, target⟩ ⟨s.graph.size⟩).conversions) : Sound start s' := by
  have hfields := hbare
  simp only [Node.bare, Graph.reorderFor, Node.mk.injEq] at hfields
  have hdeps : reorder.deps = [input.edge] := by simp [hfields]
  have houtputs : reorder.outputs = [target] := by simp [hfields]
  have hcases : ∀ {other node'}, start.size ≤ other.index → s'.graph.node? other = some node' →
      other = ⟨s.graph.size⟩ ∨
        ∃ node, s.graph.node? other = some node ∧ node'.bare = node.bare := by
    intro other node' hother hnode'
    by_cases hne : other = ⟨s.graph.size⟩
    · exact Or.inl hne
    · have hlt := Graph.lt_size_of_node? hnode'
      have hindex : other.index ≠ s.graph.size :=
        fun heq => hne (by cases other; exact congrArg _ heq)
      exact Or.inr (hrewired.exists_old hnode' (by omega) (by rintro rfl; omega))
  have hgrown := hs.grown
  refine ⟨hrewired.wellFormed, hs.listed.insert hsize horder, by omega, ?_, ?_,
    hs.kept_of ?_ ?_, ?_⟩
  · intro other
    have hindex : other = ⟨s.graph.size⟩ ↔ other.index = s.graph.size := by
      cases other
      simp
    rw [hcreated, List.mem_cons, hs.created_iff, hindex, hsize]
    omega
  · intro other node' hnode' hother
    rcases hcases hother hnode' with rfl | ⟨node, hnode, hbare'⟩
    · obtain rfl := Option.some.inj (hreorder.symm.trans hnode')
      refine ⟨by simp [hfields], by simp [Node.isSharedSurface, hfields], by simp [hfields],
        by simp [hfields], by simp [hfields], by simp [hfields], input.edge, layout, target, hdeps,
        hlayout, houtputs, hshape⟩
    · exact (hs.inserted hnode hother).congr hbare'
  · intro other node hother hnode
    obtain ⟨node', hnode', _, _, hdeps'⟩ := hrewired.exists_new hnode
    have hne : other ≠ id := by
      rintro rfl
      omega
    exact ⟨node', hnode', by rw [hdeps', if_neg hne]⟩
  · intro other node hlt hnode
    obtain ⟨node', hnode', hmeaning, _, hdeps'⟩ := hrewired.exists_new hnode
    refine ⟨node', hnode', hmeaning, ?_, ?_⟩
    · rw [hdeps']
      split <;> simp
    · intro k current hcurrent
      rw [hdeps'] at hcurrent
      split at hcurrent
      next hother =>
        subst hother
        by_cases hk : slot = k
        · subst hk
          rw [List.getElem?_set_self'] at hcurrent
          obtain ⟨_, _, rfl⟩ := Option.map_eq_some_iff.1 hcurrent
          exact Or.inr ⟨input.edge, hedge,
            Or.inr ⟨⟨s.graph.size⟩, reorder, rfl, hgrown, hreorder, hdeps⟩⟩
        · rw [List.getElem?_set_ne hk] at hcurrent
          exact Or.inl hcurrent
      next => exact Or.inl hcurrent
  · intro conversion other hmem
    rw [hconversions] at hmem
    rcases List.mem_cons.1 hmem with heq | hmem
    · obtain ⟨rfl, rfl⟩ := Prod.mk.inj heq
      exact ⟨hgrown, reorder, hreorder, hdeps, houtputs⟩
    · obtain ⟨hother, node, hnode, hreads, hyields⟩ := hs.known (List.mem_of_mem_filter hmem)
      have hkept := hrewired.others other (Graph.lt_size_of_node? hnode) (by rintro rfl; omega)
      obtain ⟨node', hnode', hbare'⟩ := exists_of_map_eq hkept hnode
      exact ⟨hother, node', hnode', (Node.deps_of_bare hbare').trans hreads,
        (Node.outputs_of_bare hbare').trans hyields⟩

/-- A slot can be fed by a new reorder. -/
theorem create?_spec (hs : Sound start s) (hid : id.index < start.size) {input : Input}
    (hinput : s.graph.input? id slot = some input)
    (hedge : start.dep? id slot = some input.edge)
    {layout : Layout} (hlayout : start.layoutAt? input.edge = some layout) {target : Layout}
    (hshape : target.shape = layout.shape) (reason : ReorderReason) :
    Yields (s.create? id slot target reason) (Converted start id slot target s) := by
  refine Yields.bind_eq hinput
    (Yields.bind (Graph.interpose?_spec hs.wellFormed hinput target reason) ?_)
  rintro ⟨g, _⟩ ⟨rfl, hrewired, hsize, horder, reorder, hreorder, hbare⟩
  have hgrown := hs.grown
  have hsize : g.size = s.graph.size + 1 := hsize
  have hdeps : reorder.deps = [input.edge] := Node.deps_of_bare hbare
  have houtputs : reorder.outputs = [target] := Node.outputs_of_bare hbare
  refine Yields.pure ⟨?_, ?_, rfl, ?_, ?_, ?_, ?_⟩
  · exact hs.interpose hid hedge hlayout hshape hrewired hsize horder hreorder hbare rfl rfl
  · show s.graph.size ≤ g.size
    rw [hsize]
    exact Nat.le_succ _
  · exact fun other hlt hne => hrewired.others other (Nat.lt_of_lt_of_le hlt hgrown) hne
  · intro node hnode
    obtain ⟨node', hnode', hbare'⟩ := hrewired.moved node hnode
    refine ⟨node', ⟨s.graph.size⟩, hnode', hbare', hgrown, ?_⟩
    exact Graph.layoutAt?_eq_some_iff.2 ⟨reorder, hreorder, by simp [houtputs]⟩
  · intro other node' hother hnode'
    by_cases hne : other = ⟨s.graph.size⟩
    · subst hne
      obtain rfl := Option.some.inj (hreorder.symm.trans hnode')
      exact Or.inr ⟨houtputs, input.edge, hedge, hdeps⟩
    · have hlt : other.index < g.size := Graph.lt_size_of_node? hnode'
      have hindex : other.index ≠ s.graph.size :=
        fun heq => hne (by cases other; exact congrArg _ heq)
      exact Or.inl (hrewired.exists_old hnode' (by omega) (by rintro rfl; omega))
  · exact fun hlt hne => hrewired.input_face hs.wellFormed (Nat.lt_of_lt_of_le hlt hgrown) hne

/-- Makes a slot that reads its old edge read `target`. -/
theorem serve_spec (hstart : start.WellFormed) (hs : Sound start s) (hid : id.index < start.size)
    {edge : Edge} (hedge : start.dep? id slot = some edge)
    (hcurrent : s.graph.dep? id slot = some edge) {target : Layout}
    (hshape : ∀ layout, start.layoutAt? edge = some layout → target.shape = layout.shape)
    (reason : ReorderReason) :
    Yields (match s.reorderFor? ⟨edge, target⟩ with
      | some reorder => s.reuse? id slot reorder
      | none => s.create? id slot target reason) (Converted start id slot target s) := by
  obtain ⟨old, hold, hdep⟩ := Option.bind_eq_some_iff.1 hedge
  obtain ⟨layout, hlayout⟩ := hstart.produced hold (List.mem_of_getElem? hdep)
  split
  next reorder hknown => exact reuse?_spec hs hid hedge hcurrent hknown
  next =>
    obtain ⟨node, hnode, hslot⟩ := Option.bind_eq_some_iff.1 hcurrent
    obtain ⟨input, hinput⟩ := hs.wellFormed.exists_input hnode (List.getElem?_eq_some_iff.1 hslot).1
    have hsame : input.edge = edge := by
      obtain ⟨_, hfound, hget, _⟩ := Graph.input?_eq_some_iff.1 hinput
      obtain rfl := Option.some.inj (hnode.symm.trans hfound)
      exact Option.some.inj (hget.symm.trans hslot)
    subst hsame
    exact create?_spec hs hid hinput hedge hlayout (hshape layout hlayout) reason

/-- Pointing a slot back at its old edge, before it is served. -/
theorem Converted.of_rewired (hs : Sound start s) {s₁ s' : Reconciliation} {edge : Edge}
    {target : Layout} (hid : id.index < start.size)
    (hrewired : Graph.Rewired id slot edge s.graph s₁.graph) (hsize : s₁.graph.size = s.graph.size)
    (hfailure : s₁.failure = s.failure) (h : Converted start id slot target s₁ s') :
    Converted start id slot target s s' := by
  have hgrown := hs.grown
  refine ⟨h.sound, hsize ▸ h.grown, h.failure_eq.trans hfailure, ?_, ?_, ?_, ?_⟩
  · intro other hlt hne
    exact (h.others other hlt hne).trans (hrewired.others other (by omega) hne)
  · intro node hnode
    obtain ⟨node₁, hnode₁, hbare₁⟩ := hrewired.moved node hnode
    obtain ⟨node', reorder, hnode', hbare', hle, hlayout⟩ := h.moved hnode₁
    refine ⟨node', reorder, hnode', hbare'.trans ?_, hle, hlayout⟩
    have heq := congrArg
      (fun old : Node => { old with deps := old.deps.set slot ⟨reorder, 0⟩ }) hbare₁
    have hset : (node.deps.set slot edge).set slot ⟨reorder, 0⟩ = node.deps.set slot ⟨reorder, 0⟩ :=
      List.set_set ..
    rw [← hset]
    exact heq
  · intro other node' hother hnode'
    rcases h.reorders hother hnode' with ⟨node₁, hnode₁, hbare₁⟩ | hnew
    · have hlt : other.index < s.graph.size := hsize ▸ Graph.lt_size_of_node? hnode₁
      obtain ⟨node, hnode, hbare⟩ :=
        hrewired.exists_old hnode₁ hlt (by rintro rfl; omega)
      exact Or.inl ⟨node, hnode, hbare₁.trans hbare⟩
    · exact Or.inr hnew
  · intro reader other hlt hne
    exact (h.inputs hlt hne).trans (hrewired.input_face hs.wellFormed (by omega) hne)

/-- After the first half of a conversion the slot is served, or it reads its old edge and whatever
serves it then will have served it now. -/
def Prepared (start : Graph) (id : NodeId) (slot : Nat) (edge : Edge) (target : Layout)
    (s : Reconciliation) (out : Reconciliation × Bool) : Prop :=
  if out.2 then Converted start id slot target s out.1
  else Sound start out.1 ∧ out.1.graph.dep? id slot = some edge ∧
    ∀ s', Converted start id slot target out.1 s' → Converted start id slot target s s'

theorem repurpose?_spec (hstart : start.WellFormed) (hs : Sound start s)
    (hid : id.index < start.size) {node converter : Node} {reorder : NodeId} {edge : Edge}
    {target : Layout} (hnode : s.graph.node? id = some node)
    (hslot : node.deps[slot]? = some ⟨reorder, 0⟩) (hedge : start.dep? id slot = some edge)
    (hconverter : s.graph.node? reorder = some converter) (hle : start.size ≤ reorder.index)
    (hsource : converter.deps = [edge])
    (hshape : ∀ layout ∈ converter.outputs, target.shape = layout.shape) :
    Yields (s.repurpose? id slot reorder target) (Prepared start id slot edge target s) := by
  have hdep : converter.deps[0]? = some edge := by simp [hsource]
  refine Yields.bind_eq hconverter (Yields.bind_eq hdep (Yields.bind_eq hnode ?_))
  split
  next hshared =>
    obtain ⟨old, hold, hold_dep⟩ := Option.bind_eq_some_iff.1 hedge
    obtain ⟨layout, hlayout⟩ := hstart.produced hold (List.mem_of_getElem? hold_dep)
    obtain ⟨_, hproducer, _⟩ := Graph.layoutAt?_eq_some_iff.1 hlayout
    obtain ⟨layout', hlayout', _⟩ : ∃ layout', s.graph.layoutAt? edge = some layout' ∧ _ := by
      exact exists_of_map_eq (hs.layoutAt?_eq (Graph.lt_size_of_node? hproducer)) hlayout
    have hlt : slot < node.deps.length := (List.getElem?_eq_some_iff.1 hslot).1
    refine Yields.bind (Graph.reroute?_spec hs.wellFormed hnode hlt hlayout') ?_
    rintro g ⟨hrewired, horder, houtputs⟩
    refine Yields.pure ⟨?_, ?_, fun s' h => ?_⟩
    · exact hs.rewire hedge (Or.inl rfl) hid hrewired horder houtputs.size_eq rfl rfl
    · obtain ⟨node', hnode', hbare⟩ := hrewired.moved node hnode
      show g.dep? id slot = some edge
      simp [Graph.dep?, hnode', Node.deps_of_bare hbare, hlt]
    · have hfailure : (s.withGraph g).failure = s.failure := rfl
      exact Converted.of_rewired hs hid hrewired houtputs.size_eq hfailure h
  next hunshared =>
    refine Yields.bind (Graph.setTarget?_spec hs.wellFormed hconverter target) ?_
    intro g hretargeted
    refine Yields.pure ?_
    have hs' := hs.retarget hle hconverter hsource hshape hretargeted
    exact converted_of_retarget hs hid hnode hslot hconverter hle hsource hedge
      (by simpa using hunshared) (hs'.localEdit hid (.refl id _) rfl rfl) rfl hretargeted

/-- Making a slot read `target`. -/
theorem convert?_spec (hstart : start.WellFormed) (hs : Sound start s)
    (hid : id.index < start.size) {input : Input} (hinput : s.graph.input? id slot = some input)
    {target : Layout} (hshape : target.shape = input.layout.shape) (reason : ReorderReason) :
    Yields (s.convert? id slot target reason) (Converted start id slot target s) := by
  obtain ⟨node, hnode, hslot, _, hproducer, houtput⟩ := Graph.input?_eq_some_iff.1 hinput
  have hcurrent : s.graph.dep? id slot = some input.edge := by simp [Graph.dep?, hnode, hslot]
  obtain ⟨edge, hedge, hfeeds⟩ := hs.exists_slot hid hcurrent
  obtain ⟨old, hold, hdep⟩ := Option.bind_eq_some_iff.1 hedge
  obtain ⟨layout, hlayout⟩ := hstart.produced hold (List.mem_of_getElem? hdep)
  have hedge_lt : edge.node.index < start.size := by
    obtain ⟨_, hsource, _⟩ := Graph.layoutAt?_eq_some_iff.1 hlayout
    exact Graph.lt_size_of_node? hsource
  have hcreated : s.isCreated input.edge.node = true ↔ start.size ≤ input.edge.node.index := by
    rw [hs.isCreated_iff]
    exact and_iff_left (Graph.lt_size_of_node? hproducer)
  have hprepared : Yields (if s.isCreated input.edge.node then
        s.repurpose? id slot input.edge.node target else some (s, false))
      (Prepared start id slot edge target s) ∧ target.shape = layout.shape := by
    rcases hfeeds with hsame | ⟨reorder, converter, hfed, hle, hconverter, hsource⟩
    · rw [hsame] at hcreated hproducer
      rw [if_neg (by rw [hsame, hcreated]; omega)]
      refine ⟨Yields.pure ⟨hs, hsame ▸ hcurrent, fun _ h => h⟩, hshape.trans ?_⟩
      have heq := hs.layoutAt?_eq hedge_lt
      rw [hlayout, Graph.layoutAt?_eq_some_iff.2 ⟨_, hproducer, hsame ▸ houtput⟩] at heq
      simp only [Option.map_some, Option.some.injEq, Layout.withFormat_any_eq_iff] at heq
      exact heq.1
    · rw [hfed] at hcreated hproducer houtput hslot
      obtain rfl := Option.some.inj (hconverter.symm.trans hproducer)
      obtain ⟨source, layout', output, hsource', hlayout', houtputs, hshape'⟩ :=
        (hs.inserted hconverter hle).converts
      obtain rfl : edge = source := by simpa [hsource] using hsource'
      obtain rfl := Option.some.inj (hlayout.symm.trans hlayout')
      obtain rfl : output = input.layout := by simpa [houtputs] using houtput
      rw [if_pos (by rw [hfed]; exact hcreated.2 hle), hfed]
      refine ⟨repurpose?_spec hstart hs hid hnode hslot hedge hconverter hle hsource ?_,
        hshape.trans hshape'⟩
      intro found hfound
      rw [houtputs, List.mem_singleton] at hfound
      rw [hfound, hshape]
  obtain ⟨hprepared, hshape'⟩ := hprepared
  refine Yields.bind_eq hcurrent ?_
  dsimp only
  refine Yields.ite_bind hprepared ?_
  rintro ⟨s₁, served⟩ hout
  cases served with
  | true => exact Yields.pure hout
  | false =>
    obtain ⟨hs₁, hdep₁, hafter⟩ := hout
    refine Yields.bind_eq hdep₁ ((serve_spec hstart hs₁ hid hedge hdep₁ ?_ reason).mono hafter)
    intro found hfound
    rw [hlayout] at hfound
    exact Option.some.inj hfound ▸ hshape'

end Serve

end Reconciliation

end LayoutPlanner
