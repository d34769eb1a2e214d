import LayoutPlanner.Graph.Rewire
import LayoutPlanner.Proofs.LocalEdits
import Mathlib.Data.List.Nodup

/-!
# Edits of edges

Rerouting a slot, interposing a reorder and giving a reorder a new target keep a graph well formed.
The readers are the delicate part: a slot that is moved away from a node strikes the consumer from
the readers of that node only if no other slot of the consumer still reads it.
-/

namespace LayoutPlanner

namespace Node

@[simp]
theorem bare_stale (node : Node) : node.stale.bare = node.bare :=
  rfl

@[simp]
theorem bare_dropReader (reader : NodeId) (node : Node) :
    (node.dropReader reader).bare = node.bare :=
  rfl

@[simp]
theorem bare_addReader (reader : NodeId) (node : Node) :
    (node.addReader reader).bare = node.bare := by
  unfold addReader
  split <;> rfl

@[simp]
theorem users_stale (node : Node) : node.stale.users = node.users :=
  rfl

@[simp]
theorem users_dropReader (reader : NodeId) (node : Node) :
    (node.dropReader reader).users = node.users.filter (· != reader) :=
  rfl

@[simp]
theorem users_addReader (reader : NodeId) (node : Node) :
    (node.addReader reader).users =
      if reader ∈ node.users then node.users else node.users ++ [reader] := by
  unfold addReader
  simp only [List.contains_iff_mem]
  split <;> rfl

end Node

namespace Graph

theorem update?_node? {g : Graph} {id : NodeId} (hid : id.index < g.size)
    (change : Node → Node) :
    Yields (g.update? id change) fun g' => g'.order = g.order ∧ g'.size = g.size ∧
      ∀ other, g'.node? other =
        (g.node? other).map fun node => if other = id then change node else node := by
  obtain ⟨g', hg'⟩ : ∃ g', g.update? id change = some g' :=
    ⟨_, update?_eq_some_iff.2 ⟨hid, rfl⟩⟩
  exact ⟨g', hg', order_update hg', size_update hg', node?_update hg'⟩

/-! ## Moving a slot -/

section Reroute

variable (consumer previous : NodeId) (slot : Nat) (edge : Edge) (kept : Bool)

/-- The reader lists after a slot was moved from `previous` to `edge`.  `kept` tells whether the
consumer still reads `previous`. -/
def readersAfter (id : NodeId) (users : List NodeId) : List NodeId :=
  let users := if id = previous ∧ kept = false then users.filter (· != consumer) else users
  if id = edge.node ∧ consumer ∉ users then users ++ [consumer] else users

theorem mem_readersAfter {id reader : NodeId} {users : List NodeId} :
    reader ∈ readersAfter consumer previous edge kept id users ↔
      (reader ∈ users ∧ ¬(id = previous ∧ kept = false ∧ reader = consumer)) ∨
        (id = edge.node ∧ reader = consumer) := by
  unfold readersAfter
  by_cases hprevious : id = previous ∧ kept = false <;> by_cases hedge : id = edge.node <;>
    by_cases hreader : reader = consumer <;> grind

theorem nodup_readersAfter {id : NodeId} {users : List NodeId} (h : users.Nodup) :
    (readersAfter consumer previous edge kept id users).Nodup := by
  unfold readersAfter
  grind [List.Nodup.filter, List.nodup_append]

/-- A node after the move, up to its caches. -/
def rerouted (id : NodeId) (node : Node) : Node :=
  { node with
    deps := if id = consumer then node.deps.set slot edge else node.deps
    users := readersAfter consumer previous edge kept id node.users }

/-- The slot was moved, and nothing else but caches changed. -/
def Reroutes (g g' : Graph) : Prop :=
  g'.order = g.order ∧ ∀ id, (g'.node? id).map (fun node => (node.bare, node.users)) =
    ((g.node? id).map (rerouted consumer previous slot edge kept id)).map
      fun node => (node.bare, node.users)

end Reroute

/-- What moving a slot does to every node. -/
theorem reroute?_nodes {g : Graph} {consumer : NodeId} {slot : Nat} {node : Node}
    {previous edge : Edge} (hnode : g.node? consumer = some node)
    (hdep : node.deps[slot]? = some previous) (hprevious : previous.node.index < g.size)
    (hedge : edge.node.index < g.size) :
    Yields (g.reroute? consumer slot edge) (Reroutes consumer previous.node slot edge
      ((node.deps.set slot edge).any (·.node == previous.node)) g) := by
  have hlt := lt_size_of_node? hnode
  have hdep? : g.dep? consumer slot = some previous := by simp [dep?, hnode, hdep]
  refine Yields.bind_eq hdep? ?_
  refine Yields.bind (update?_node? hlt _) ?_
  rintro g₁ ⟨horder₁, hsize₁, hnodes₁⟩
  have hnode₁ : g₁.node? consumer = some { node with deps := node.deps.set slot edge } := by
    simp [hnodes₁, hnode]
  refine Yields.bind_eq hnode₁ ?_
  -- The reader is struck or not; after that both branches go on in the same way.
  have hrest : ∀ (kept : Bool) (g₂ : Graph), g₂.order = g₁.order → g₂.size = g₁.size →
      (∀ id, g₂.node? id = (g₁.node? id).map fun old =>
        if id = previous.node ∧ kept = false then old.dropReader consumer else old) →
      Yields (do
        let g₃ ← g₂.update? edge.node (Node.addReader consumer)
        g₃.update? consumer Node.stale) (Reroutes consumer previous.node slot edge kept g) := by
    intro kept g₂ horder₂ hsize₂ hnodes₂
    refine Yields.bind (update?_node? (by omega) _) ?_
    rintro g₃ ⟨horder₃, hsize₃, hnodes₃⟩
    refine (update?_node? (by omega) _).mono ?_
    rintro g₄ ⟨horder₄, hsize₄, hnodes₄⟩
    refine ⟨by rw [horder₄, horder₃, horder₂, horder₁], fun id => ?_⟩
    rw [hnodes₄, hnodes₃, hnodes₂, hnodes₁]
    cases g.node? id with
    | none => rfl
    | some old =>
      simp only [Option.map_some, Option.some.injEq, Prod.mk.injEq, rerouted, readersAfter,
        apply_ite Node.bare, apply_ite Node.users, Node.bare_stale, Node.bare_addReader,
        Node.bare_dropReader, Node.users_stale, Node.users_addReader, Node.users_dropReader,
        ite_self]
      by_cases hconsumer : id = consumer <;> grind [Node.bare]
  dsimp only
  split
  next hkept =>
    rw [hkept]
    exact hrest true g₁ rfl rfl fun id => by simp
  next hkept =>
    rw [Bool.not_eq_true] at hkept
    rw [hkept]
    refine Yields.bind (update?_node? (by omega) _) ?_
    rintro g₂ ⟨horder₂, hsize₂, hnodes₂⟩
    exact hrest false g₂ horder₂ hsize₂ fun id => by simp [hnodes₂]

section

variable {g g' : Graph} {consumer previous : NodeId} {slot : Nat} {edge : Edge} {kept : Bool}

theorem Reroutes.exists_old (h : Reroutes consumer previous slot edge kept g g') {id : NodeId}
    {node' : Node} (hnode' : g'.node? id = some node') :
    ∃ node, g.node? id = some node ∧
      node'.bare = (rerouted consumer previous slot edge kept id node).bare ∧
      node'.users = readersAfter consumer previous edge kept id node.users := by
  have heq := h.2 id
  rw [hnode', Option.map_map, Option.map_some] at heq
  obtain ⟨node, hnode, himage⟩ := Option.map_eq_some_iff.1 heq.symm
  simp only [Function.comp_apply, Prod.mk.injEq] at himage
  exact ⟨node, hnode, himage.1.symm, himage.2.symm⟩

theorem Reroutes.exists_new (h : Reroutes consumer previous slot edge kept g g') {id : NodeId}
    {node : Node} (hnode : g.node? id = some node) :
    ∃ node', g'.node? id = some node' ∧
      node'.bare = (rerouted consumer previous slot edge kept id node).bare ∧
      node'.users = readersAfter consumer previous edge kept id node.users := by
  have heq := h.2 id
  rw [hnode, Option.map_some, Option.map_some] at heq
  obtain ⟨node', hnode', himage⟩ := Option.map_eq_some_iff.1 heq
  simp only [Prod.mk.injEq] at himage
  exact ⟨node', hnode', himage⟩

theorem Reroutes.outputs (h : Reroutes consumer previous slot edge kept g g') :
    Same Node.outputs g g' := by
  intro id
  have heq := congrArg (Option.map fun image : Node × List NodeId => image.1.outputs) (h.2 id)
  simpa [Option.map_map, Function.comp_def, Node.bare, rerouted] using heq

theorem Reroutes.others (h : Reroutes consumer previous slot edge kept g g') {id : NodeId}
    (hne : id ≠ consumer) : (g'.node? id).map Node.bare = (g.node? id).map Node.bare := by
  have hbare (node : Node) :
      (rerouted consumer previous slot edge kept id node).bare = node.bare := by
    simp [rerouted, hne, Node.bare]
  have heq := congrArg (Option.map Prod.fst) (h.2 id)
  simpa [Option.map_map, Function.comp_def, hbare] using heq

/-- Who reads what after the move. -/
theorem Reroutes.reads_iff (h : Reroutes consumer previous slot edge kept g g') {node : Node}
    (hnode : g.node? consumer = some node) (reader id : NodeId) :
    g'.Reads reader id ↔
      if reader = consumer then ∃ dep ∈ node.deps.set slot edge, dep.node = id
      else g.Reads reader id := by
  have hdeps : ∀ {node' old : Node}, node'.bare =
      (rerouted consumer previous slot edge kept reader old).bare →
      node'.deps = if reader = consumer then old.deps.set slot edge else old.deps := by
    intro node' old heq
    simp only [Node.bare, rerouted, Node.mk.injEq] at heq
    exact heq.2.2.2.2.1
  constructor
  · rintro ⟨node', hnode', dep, hdep, rfl⟩
    obtain ⟨old, hold, hbare, _⟩ := h.exists_old hnode'
    rw [hdeps hbare] at hdep
    by_cases hreader : reader = consumer
    · subst hreader
      rw [hnode] at hold
      cases hold
      simpa using ⟨dep, by simpa using hdep, rfl⟩
    · simp only [hreader, if_false] at hdep ⊢
      exact ⟨old, hold, dep, hdep, rfl⟩
  · intro hreads
    by_cases hreader : reader = consumer
    · subst hreader
      obtain ⟨node', hnode', hbare, _⟩ := h.exists_new hnode
      simp only [if_true] at hreads
      exact ⟨node', hnode', by simpa [hdeps hbare] using hreads⟩
    · simp only [hreader, if_false] at hreads
      obtain ⟨old, hold, dep, hdep, rfl⟩ := hreads
      obtain ⟨node', hnode', hbare, _⟩ := h.exists_new hold
      exact ⟨node', hnode', dep, by simpa [hdeps hbare, hreader] using hdep, rfl⟩

end

/-- The new slot list reads what is read through `edge`, and what the old one read; the node the
slot was moved away from stays among them only if another slot reads it. -/
theorem exists_mem_set_iff {deps : List Edge} {slot : Nat} (hslot : slot < deps.length)
    {edge : Edge} {id : NodeId} :
    ((∃ dep ∈ deps, dep.node = id) ∧
        ¬(id = deps[slot].node ∧ (deps.set slot edge).any (·.node == deps[slot].node) = false) ∨
        id = edge.node) ↔
      ∃ dep ∈ deps.set slot edge, dep.node = id := by
  constructor
  · rintro (⟨⟨dep, hdep, rfl⟩, hkept⟩ | rfl)
    · by_cases hprevious : dep.node = deps[slot].node
      · simp only [hprevious, true_and, Bool.not_eq_false, List.any_eq_true, beq_iff_eq] at hkept
        simpa [hprevious] using hkept
      · obtain ⟨i, hi, rfl⟩ := List.getElem_of_mem hdep
        have hne : slot ≠ i := fun heq => hprevious (by subst heq; rfl)
        refine ⟨deps[i], List.mem_iff_getElem.2 ⟨i, by simpa using hi, ?_⟩, rfl⟩
        exact List.getElem_set_ne hne _
    · exact ⟨edge, List.mem_set hslot _, rfl⟩
  · rintro ⟨dep, hdep, rfl⟩
    rcases List.mem_or_eq_of_mem_set hdep with hold | rfl
    · refine Or.inl ⟨⟨dep, hold, rfl⟩, ?_⟩
      rintro ⟨hprevious, hnone⟩
      have hsome : (deps.set slot edge).any (·.node == deps[slot].node) = true :=
        List.any_eq_true.2 ⟨dep, hdep, beq_iff_eq.2 hprevious⟩
      simp [hnone] at hsome
    · exact Or.inr rfl

/-- A slot of `consumer` reads `edge` now, and no other node changed but for bookkeeping.  The
second graph may have more nodes than the first one. -/
structure Rewired (consumer : NodeId) (slot : Nat) (edge : Edge) (g g' : Graph) : Prop where
  wellFormed : g'.WellFormed
  others : ∀ other, other.index < g.size → other ≠ consumer →
    (g'.node? other).map Node.bare = (g.node? other).map Node.bare
  moved : ∀ node, g.node? consumer = some node → ∃ node', g'.node? consumer = some node' ∧
    node'.bare = { node with deps := node.deps.set slot edge }.bare

/-- An old node after the move: it has the same face, and its edges differ in that slot at most. -/
theorem Rewired.exists_new {consumer : NodeId} {slot : Nat} {edge : Edge} {g g' : Graph}
    (h : Rewired consumer slot edge g g') {id : NodeId} {node : Node}
    (hnode : g.node? id = some node) :
    ∃ node', g'.node? id = some node' ∧ node'.meaning = node.meaning ∧ node'.face = node.face ∧
      node'.deps = if id = consumer then node.deps.set slot edge else node.deps := by
  by_cases hconsumer : id = consumer
  · subst hconsumer
    obtain ⟨node', hnode', hbare⟩ := h.moved node hnode
    refine ⟨node', hnode', (Node.meaning_of_bare hbare).trans rfl,
      (Node.face_of_bare hbare).trans rfl, ?_⟩
    rw [if_pos rfl, Node.deps_of_bare hbare]
  · obtain ⟨node', hnode', hbare⟩ :=
      exists_of_map_eq (h.others id (lt_size_of_node? hnode) hconsumer) hnode
    refine ⟨node', hnode', Node.meaning_of_bare hbare, Node.face_of_bare hbare, ?_⟩
    rw [if_neg hconsumer, Node.deps_of_bare hbare]

theorem Rewired.exists_old {consumer : NodeId} {slot : Nat} {edge : Edge} {g g' : Graph}
    (h : Rewired consumer slot edge g g') {id : NodeId} {node' : Node}
    (hnode' : g'.node? id = some node') (hlt : id.index < g.size) (hne : id ≠ consumer) :
    ∃ node, g.node? id = some node ∧ node'.bare = node.bare := by
  obtain ⟨node, hnode, hbare⟩ := exists_of_map_eq (h.others id hlt hne).symm hnode'
  exact ⟨node, hnode, hbare.symm⟩

/-- Every other slot is fed as before. -/
theorem Rewired.input_face {consumer : NodeId} {slot : Nat} {edge : Edge} {g g' : Graph}
    (h : Rewired consumer slot edge g g') (hg : g.WellFormed) {reader : NodeId} {other : Nat}
    (hreader : reader.index < g.size) (hne : ¬(reader = consumer ∧ other = slot)) :
    (g'.input? reader other).map Input.face = (g.input? reader other).map Input.face := by
  obtain ⟨node, hnode⟩ := exists_node hreader
  obtain ⟨node', hnode', _, _, hdeps⟩ := h.exists_new hnode
  have hdep : node'.deps[other]? = node.deps[other]? := by
    rw [hdeps]
    split
    next hconsumer =>
      exact List.getElem?_set_ne fun heq => hne ⟨hconsumer, heq.symm⟩
    next => rfl
  refine input?_face_eq hnode hnode' hdep fun dep hdep => ?_
  obtain ⟨_, hlayout⟩ := hg.produced hnode (List.mem_of_getElem? hdep)
  obtain ⟨producer, hproducer, _⟩ := layoutAt?_eq_some_iff.1 hlayout
  obtain ⟨producer', hproducer', _, hface, _⟩ := h.exists_new hproducer
  rw [hproducer, hproducer', Option.map_some, Option.map_some, hface]

theorem reroute?_spec {g : Graph} (hg : g.WellFormed) {consumer : NodeId} {node : Node}
    (hnode : g.node? consumer = some node) {slot : Nat} (hslot : slot < node.deps.length)
    {edge : Edge} {layout : Layout} (hlayout : g.layoutAt? edge = some layout) :
    Yields (g.reroute? consumer slot edge) fun g' =>
      Rewired consumer slot edge g g' ∧ g'.order = g.order ∧ Same Node.outputs g g' := by
  have hdep : node.deps[slot]? = some node.deps[slot] := List.getElem?_eq_getElem hslot
  obtain ⟨producer, hproducer, _⟩ := layoutAt?_eq_some_iff.1 hlayout
  obtain ⟨_, hprevious⟩ := hg.produced hnode (List.getElem_mem hslot)
  obtain ⟨_, hprevious, _⟩ := layoutAt?_eq_some_iff.1 hprevious
  refine (reroute?_nodes hnode hdep (lt_size_of_node? hprevious)
    (lt_size_of_node? hproducer)).mono ?_
  intro g' h
  refine ⟨⟨?_, fun other _ hne => h.others hne, ?_⟩, h.1, h.outputs⟩
  case refine_2 =>
    rintro _ hsame
    obtain rfl : _ = node := Option.some.inj (hsame.symm.trans hnode)
    obtain ⟨node', hnode', hbare', _⟩ := h.exists_new hnode
    exact ⟨node', hnode', by simpa [rerouted, Node.bare] using hbare'⟩
  constructor
  case id_eq =>
    intro id new hnew
    obtain ⟨old, hold, hbare, _⟩ := h.exists_old hnew
    have hid : new.id = old.id := by
      simp only [Node.bare, rerouted, Node.mk.injEq] at hbare
      exact hbare.1
    rw [hid, hg.id_eq hold]
  case produced =>
    intro id new dep hnew hmem
    obtain ⟨old, hold, hbare, _⟩ := h.exists_old hnew
    have hdeps : new.deps = if id = consumer then old.deps.set slot edge else old.deps := by
      simp only [Node.bare, rerouted, Node.mk.injEq] at hbare
      exact hbare.2.2.2.2.1
    rw [h.outputs.layoutAt?_eq]
    rw [hdeps] at hmem
    split at hmem
    · rcases List.mem_or_eq_of_mem_set hmem with hmem | rfl
      · exact hg.produced hold hmem
      · exact ⟨layout, hlayout⟩
    · exact hg.produced hold hmem
  case outputs_ne =>
    intro id new hnew
    obtain ⟨old, hold, hbare, _⟩ := h.exists_old hnew
    have houtputs : new.outputs = old.outputs := by
      simp only [Node.bare, rerouted, Node.mk.injEq] at hbare
      exact hbare.2.2.2.2.2.2.1
    rw [houtputs]
    exact hg.outputs_ne hold
  case users_nodup =>
    intro id new hnew
    obtain ⟨old, hold, _, husers⟩ := h.exists_old hnew
    rw [husers]
    exact nodup_readersAfter _ _ _ _ (hg.users_nodup hold)
  case users_iff =>
    intro id new reader hnew
    obtain ⟨old, hold, _, husers⟩ := h.exists_old hnew
    rw [husers, mem_readersAfter, h.reads_iff hnode, hg.users_iff reader hold]
    by_cases hreader : reader = consumer
    · subst hreader
      rw [if_pos rfl, reads_iff_of_node? hnode, ← exists_mem_set_iff hslot]
      simp
    · simp [hreader]

/-! ## Interposing a reorder -/

section Append

variable {g g' : Graph} {edge : Edge} {added : Node}
  (hadded : g'.node? ⟨g.size⟩ = some added) (hdeps : added.deps = [edge])
  (hothers : ∀ other, other ≠ ⟨g.size⟩ → g'.node? other = (g.node? other).map fun node =>
    if other = edge.node then { node with users := node.users ++ [⟨g.size⟩] } else node)

include hadded hdeps hothers in
/-- The readers after a node that reads `edge` was added at the end. -/
theorem reads_append_iff (reader id : NodeId) :
    g'.Reads reader id ↔ (reader = ⟨g.size⟩ ∧ id = edge.node) ∨ g.Reads reader id := by
  have hnone : g.node? ⟨g.size⟩ = none := by simp [node?, size]
  by_cases hreader : reader = ⟨g.size⟩
  · subst hreader
    rw [reads_iff_of_node? hadded, hdeps]
    simp [Reads, hnone, eq_comm]
  · simp only [Reads, hothers reader hreader, hreader, false_and, false_or,
      Option.map_eq_some_iff]
    constructor
    · rintro ⟨_, ⟨node, hnode, rfl⟩, dep, hdep, rfl⟩
      refine ⟨node, hnode, dep, ?_, rfl⟩
      split at hdep <;> exact hdep
    · rintro ⟨node, hnode, dep, hdep, rfl⟩
      refine ⟨_, ⟨node, hnode, rfl⟩, dep, ?_, rfl⟩
      split <;> exact hdep

include hothers in
theorem layoutAt?_append {other : Edge} {layout : Layout} (h : g.layoutAt? other = some layout) :
    g'.layoutAt? other = some layout := by
  obtain ⟨producer, hproducer, houtput⟩ := layoutAt?_eq_some_iff.1 h
  have hne := ne_size_of_node? hproducer
  refine layoutAt?_eq_some_iff.2 ⟨_, by rw [hothers _ hne, hproducer]; rfl, ?_⟩
  split <;> exact houtput

include hadded hdeps hothers in
/-- Adding a node that reads one edge, and listing it as a reader, keeps a graph well formed. -/
theorem WellFormed.append (hg : g.WellFormed) {layout : Layout}
    (hlayout : g.layoutAt? edge = some layout) (hid : added.id = ⟨g.size⟩)
    (husers : added.users = []) (houtputs : added.outputs ≠ []) : g'.WellFormed := by
  obtain ⟨producer, hproducer, _⟩ := layoutAt?_eq_some_iff.1 hlayout
  have hold : ∀ {id node'}, id ≠ ⟨g.size⟩ → g'.node? id = some node' →
      ∃ node, g.node? id = some node ∧ node'.id = node.id ∧ node'.deps = node.deps ∧
        node'.outputs = node.outputs ∧
        node'.users = if id = edge.node then node.users ++ [⟨g.size⟩] else node.users := by
    intro id node' hne hnode'
    rw [hothers id hne] at hnode'
    obtain ⟨node, hnode, rfl⟩ := Option.map_eq_some_iff.1 hnode'
    by_cases hedge : id = edge.node <;> exact ⟨node, hnode, by simp [hedge]⟩
  have hfresh : ∀ {id node}, g.node? id = some node → ⟨g.size⟩ ∉ node.users := by
    intro id node hnode hmem
    exact Nat.lt_irrefl _ (hg.lt_size_of_mem_users hnode hmem)
  constructor
  case id_eq =>
    intro id node' hnode'
    by_cases hne : id = ⟨g.size⟩
    · subst hne
      obtain rfl : added = node' := Option.some.inj (hadded.symm.trans hnode')
      exact hid
    · obtain ⟨node, hnode, hsame, _⟩ := hold hne hnode'
      rw [hsame, hg.id_eq hnode]
  case produced =>
    intro id node' dep hnode' hdep
    have hfound : ∃ layout, g.layoutAt? dep = some layout := by
      by_cases hne : id = ⟨g.size⟩
      · subst hne
        obtain rfl : added = node' := Option.some.inj (hadded.symm.trans hnode')
        rw [hdeps, List.mem_singleton] at hdep
        exact ⟨layout, hdep ▸ hlayout⟩
      · obtain ⟨node, hnode, _, hsame, _⟩ := hold hne hnode'
        exact hg.produced hnode (hsame ▸ hdep)
    obtain ⟨found, hfound⟩ := hfound
    exact ⟨found, layoutAt?_append hothers hfound⟩
  case outputs_ne =>
    intro id node' hnode'
    by_cases hne : id = ⟨g.size⟩
    · subst hne
      obtain rfl : added = node' := Option.some.inj (hadded.symm.trans hnode')
      exact houtputs
    · obtain ⟨node, hnode, _, _, hsame, _⟩ := hold hne hnode'
      rw [hsame]
      exact hg.outputs_ne hnode
  case users_nodup =>
    intro id node' hnode'
    by_cases hne : id = ⟨g.size⟩
    · subst hne
      obtain rfl : added = node' := Option.some.inj (hadded.symm.trans hnode')
      rw [husers]
      exact List.nodup_nil
    · obtain ⟨node, hnode, _, _, _, hsame⟩ := hold hne hnode'
      rw [hsame]
      have hnodup := hg.users_nodup hnode
      split
      · exact List.nodup_append.2 ⟨hnodup, List.nodup_singleton _, by
          rintro reader hreader _ hmem rfl
          exact hfresh hnode (List.mem_singleton.1 hmem ▸ hreader)⟩
      · exact hnodup
  case users_iff =>
    intro id node' reader hnode'
    rw [reads_append_iff hadded hdeps hothers]
    by_cases hne : id = ⟨g.size⟩
    · subst hne
      obtain rfl : added = node' := Option.some.inj (hadded.symm.trans hnode')
      have hunread : ¬g.Reads reader ⟨g.size⟩ := by
        rintro ⟨node, hnode, dep, hdep, hnew⟩
        obtain ⟨_, hfound⟩ := hg.produced hnode hdep
        obtain ⟨_, hfound, _⟩ := layoutAt?_eq_some_iff.1 hfound
        exact ne_size_of_node? hfound hnew
      have hother : (⟨g.size⟩ : NodeId) ≠ edge.node := (ne_size_of_node? hproducer).symm
      simp [husers, hunread, hother]
    · obtain ⟨node, hnode, _, _, _, hsame⟩ := hold hne hnode'
      rw [hsame, ← hg.users_iff reader hnode]
      by_cases hedge : id = edge.node <;> simp [hedge, or_comm]

end Append

/-- Appending a node and working out its shape class. -/
theorem refresh?_append {g : Graph} {added : Node} {edge : Edge} (hdeps : added.deps = [edge])
    {layout : Layout} (hlayout : g.layoutAt? edge = some layout) :
    Yields (({ g with nodes := g.nodes ++ [added] } : Graph).refresh? ⟨g.size⟩) fun g' =>
      g'.order = g.order ∧ g'.size = g.size + 1 ∧
        (∃ new, g'.node? ⟨g.size⟩ = some new ∧ new.bare = added.bare ∧ new.users = added.users ∧
          new.shapeClass = .ofLayouts (layout :: added.outputs)) ∧
        ∀ other, other ≠ ⟨g.size⟩ → g'.node? other = g.node? other := by
  generalize hlong : ({ g with nodes := g.nodes ++ [added] } : Graph) = long
  have hsize : long.size = g.size + 1 := by simp [← hlong, size]
  have hat : long.node? ⟨g.size⟩ = some added := by simp [← hlong, node?, size]
  have hbefore : ∀ other : NodeId, other ≠ ⟨g.size⟩ → long.node? other = g.node? other := by
    rintro ⟨index⟩ hne
    have hindex : index ≠ g.nodes.length := fun heq => hne (congrArg NodeId.mk heq)
    subst hlong
    by_cases hlt : index < g.nodes.length
    · simp [node?, List.getElem?_append_left hlt]
    · simp only [node?]
      rw [List.getElem?_eq_none (by simp; omega), List.getElem?_eq_none (by omega)]
  obtain ⟨producer, hproducer, houtput⟩ := layoutAt?_eq_some_iff.1 hlayout
  have hne := ne_size_of_node? hproducer
  have hfollow : long.follow? edge 0 = some ⟨0, edge, producer, layout⟩ :=
    follow?_eq_some_iff.2 ⟨rfl, rfl, (hbefore _ hne).trans hproducer, houtput⟩
  have hinputs : long.inputs? ⟨g.size⟩ = some [⟨0, edge, producer, layout⟩] := by
    simp [inputs?, hat, hdeps, hfollow]
  have hclass : long.currentClass? ⟨g.size⟩ = some (.ofLayouts (layout :: added.outputs)) := by
    simp [currentClass?, hat, hinputs]
  refine Yields.bind_eq hclass ((update?_node? (by rw [hsize]; exact Nat.lt_succ_self _) _).mono ?_)
  rintro g' ⟨horder, hsize', hnodes⟩
  refine ⟨?_, hsize'.trans hsize, ⟨_, by rw [hnodes, hat]; rfl, ?_, ?_, ?_⟩, fun other hother => ?_⟩
  · rw [horder, ← hlong]
  · simp [Node.bare]
  · simp
  · simp
  · rw [hnodes, hbefore other hother]
    simp [hother]

theorem perm_insertBefore {α : Type} [DecidableEq α] (mark value : α) (values : List α) :
    (insertBefore mark value values).Perm (value :: values) := by
  induction values with
  | nil => rfl
  | cons head rest ih =>
    unfold insertBefore
    split
    · rfl
    · exact (ih.cons head).trans (.swap value head rest)

/-- What interposing a reorder does: the slot reads the new node, which stands at the end of the
node list and is listed in the processing order. -/
theorem interpose?_spec {g : Graph} (hg : g.WellFormed) {consumer : NodeId} {slot : Nat}
    {input : Input} (hinput : g.input? consumer slot = some input) (target : Layout)
    (reason : ReorderReason) :
    Yields (g.interpose? consumer slot target reason) fun out =>
      out.2 = ⟨g.size⟩ ∧ Rewired consumer slot ⟨⟨g.size⟩, 0⟩ g out.1 ∧ out.1.size = g.size + 1 ∧
        out.1.order = insertBefore consumer ⟨g.size⟩ g.order ∧
        ∃ reorder, out.1.node? ⟨g.size⟩ = some reorder ∧
          reorder.bare = (g.reorderFor input target reason).bare := by
  obtain ⟨node, hnode, hdep, _, hproducer, houtput⟩ := input?_eq_some_iff.1 hinput
  have hlayout : g.layoutAt? input.edge = some input.layout :=
    layoutAt?_eq_some_iff.2 ⟨_, hproducer, houtput⟩
  have hproducer_ne := ne_size_of_node? hproducer
  have hconsumer_ne := ne_size_of_node? hnode
  refine Yields.bind_eq hinput (Yields.bind (refresh?_append rfl hlayout) ?_)
  rintro g₁ ⟨horder₁, hsize₁, ⟨added, hadded, hbare, husers, _⟩, hothers₁⟩
  refine Yields.bind (update?_node? ?_ _) ?_
  · rw [hsize₁]
    exact Nat.lt_succ_of_lt (lt_size_of_node? hproducer)
  rintro g₂ ⟨horder₂, hsize₂, hnodes₂⟩
  have hadded₂ : g₂.node? ⟨g.size⟩ = some added := by
    rw [hnodes₂, hadded]
    simp [hproducer_ne.symm]
  have hothers₂ : ∀ other, other ≠ ⟨g.size⟩ → g₂.node? other = (g.node? other).map fun node =>
      if other = input.edge.node then { node with users := node.users ++ [⟨g.size⟩] }
      else node := by
    intro other hne
    rw [hnodes₂, hothers₁ other hne]
    rfl
  have hfields : added.id = ⟨g.size⟩ ∧ added.deps = [input.edge] ∧ added.outputs = [target] := by
    simp only [Node.bare, reorderFor, Node.mk.injEq] at hbare
    exact ⟨hbare.1, hbare.2.2.2.2.1, hbare.2.2.2.2.2.2.1⟩
  obtain ⟨hid, hdeps, houtputs⟩ := hfields
  have hg₂ : g₂.WellFormed :=
    hg.append hadded₂ hdeps hothers₂ hlayout hid husers (by simp [houtputs])
  have hbare₂ : ∀ other, other ≠ ⟨g.size⟩ →
      (g₂.node? other).map Node.bare = (g.node? other).map Node.bare := by
    intro other hne
    rw [hothers₂ other hne, Option.map_map]
    congr 1
    funext old
    simp only [Function.comp_apply]
    split <;> rfl
  obtain ⟨consumer₂, hconsumer₂, hsame⟩ :
      ∃ new, g₂.node? consumer = some new ∧ new.bare = node.bare :=
    exists_of_map_eq (hbare₂ consumer hconsumer_ne) hnode
  have hdeps₂ : consumer₂.deps = node.deps := by
    simp only [Node.bare, Node.mk.injEq] at hsame
    exact hsame.2.2.2.2.1
  have hslot : slot < consumer₂.deps.length := by
    rw [hdeps₂]
    exact (List.getElem?_eq_some_iff.1 hdep).1
  have hlayout₂ : g₂.layoutAt? ⟨⟨g.size⟩, 0⟩ = some target :=
    layoutAt?_eq_some_iff.2 ⟨added, hadded₂, by simp [houtputs]⟩
  refine Yields.bind (reroute?_spec hg₂ hconsumer₂ hslot hlayout₂) ?_
  rintro g₃ ⟨hrewired, horder₃, hsame₃⟩
  have hsize₃ : g₃.size = g.size + 1 := by rw [hsame₃.size_eq, hsize₂, hsize₁]
  refine Yields.pure ⟨rfl, ⟨?_, ?_, ?_⟩, hsize₃, ?_, ?_⟩
  · exact WellFormed.of_sameWiring (g := g₃) (fun _ => rfl) hrewired.wellFormed
  · intro other hlt hne
    obtain ⟨_, hold⟩ := exists_node hlt
    exact (hrewired.others other (by omega) hne).trans (hbare₂ other (ne_size_of_node? hold))
  · rintro _ hnode'
    obtain rfl : node = _ := Option.some.inj (hnode.symm.trans hnode')
    obtain ⟨moved, hmoved, hmoved_bare⟩ := hrewired.moved consumer₂ hconsumer₂
    refine ⟨moved, hmoved, hmoved_bare.trans ?_⟩
    have heq := congrArg
      (fun old : Node => { old with deps := node.deps.set slot ⟨⟨g.size⟩, 0⟩ }) hsame
    rw [hdeps₂]
    exact heq
  · show insertBefore consumer ⟨g.size⟩ g₃.order = _
    rw [horder₃, horder₂, horder₁]
  · obtain ⟨reorder, hreorder, hreorder_bare⟩ :=
      exists_of_map_eq (hrewired.others ⟨g.size⟩ (by simp; omega) hconsumer_ne.symm) hadded₂
    exact ⟨reorder, hreorder, hreorder_bare.trans hbare⟩

/-- Interposing a reorder keeps the processing order complete. -/
theorem ListsAll.insert {g g' : Graph} (hg : g.ListsAll) {consumer : NodeId}
    (hsize : g'.size = g.size + 1) (horder : g'.order = insertBefore consumer ⟨g.size⟩ g.order) :
    g'.ListsAll := by
  have hrange : ((List.range (g.size + 1)).map NodeId.mk).Perm
      (⟨g.size⟩ :: (List.range g.size).map NodeId.mk) := by
    rw [List.range_succ, List.map_append]
    exact List.perm_append_singleton _ _
  rw [ListsAll, hsize, horder]
  exact (perm_insertBefore _ _ _).trans ((List.Perm.cons _ hg).trans hrange.symm)

/-! ## Giving a reorder a new target -/

/-- The first output of `id` is `target` now, and nothing else changed but for bookkeeping. -/
structure Retargeted (id : NodeId) (target : Layout) (g g' : Graph) : Prop where
  wellFormed : g'.WellFormed
  order_eq : g'.order = g.order
  size_eq : g'.size = g.size
  others : ∀ other, other ≠ id → (g'.node? other).map Node.bare = (g.node? other).map Node.bare
  changed : ∀ node, g.node? id = some node → ∃ node', g'.node? id = some node' ∧
    node'.bare = { node with outputs := node.outputs.set 0 target }.bare

theorem Retargeted.exists_new {id : NodeId} {target : Layout} {g g' : Graph}
    (h : Retargeted id target g g') {other : NodeId} {node : Node} (hne : other ≠ id)
    (hnode : g.node? other = some node) :
    ∃ node', g'.node? other = some node' ∧ node'.bare = node.bare := by
  exact exists_of_map_eq (h.others other hne) hnode

theorem Retargeted.exists_old {id : NodeId} {target : Layout} {g g' : Graph}
    (h : Retargeted id target g g') {other : NodeId} {node' : Node} (hne : other ≠ id)
    (hnode' : g'.node? other = some node') :
    ∃ node, g.node? other = some node ∧ node'.bare = node.bare := by
  obtain ⟨node, hnode, hbare⟩ := exists_of_map_eq (h.others other hne).symm hnode'
  exact ⟨node, hnode, hbare.symm⟩

/-- A slot that does not read `id` is fed as before. -/
theorem Retargeted.input_face {id : NodeId} {target : Layout} {g g' : Graph}
    (h : Retargeted id target g g') (hg : g.WellFormed) {reader : NodeId} {slot : Nat}
    (hreader : reader.index < g.size) (hself : reader ≠ id)
    (hne : ∀ edge, g.dep? reader slot = some edge → edge.node ≠ id) :
    (g'.input? reader slot).map Input.face = (g.input? reader slot).map Input.face := by
  obtain ⟨node, hnode⟩ := exists_node hreader
  obtain ⟨node', hnode', hbare⟩ := h.exists_new hself hnode
  refine input?_face_eq hnode hnode' (by rw [Node.deps_of_bare hbare]) ?_
  intro edge hedge
  obtain ⟨_, hfound⟩ := hg.produced hnode (List.mem_of_getElem? hedge)
  obtain ⟨producer, hproducer, _⟩ := layoutAt?_eq_some_iff.1 hfound
  obtain ⟨producer', hproducer', hface⟩ :=
    h.exists_new (hne edge (by simpa [dep?, hnode] using hedge)) hproducer
  rw [hproducer, hproducer', Option.map_some, Option.map_some, Node.face_of_bare hface]

theorem setTarget?_spec {g : Graph} (hg : g.WellFormed) {id : NodeId} {node : Node}
    (hnode : g.node? id = some node) (target : Layout) :
    Yields (g.setTarget? id target) (Retargeted id target g) := by
  obtain ⟨output, houtput⟩ := hg.exists_output hnode
  refine Yields.bind_eq hnode (Yields.bind_eq houtput (Yields.bind (update?_spec hnode) ?_))
  rintro g₁ ⟨horder₁, hnew₁, hothers₁⟩
  have hwiring : Same Node.wiring g g₁ := by
    intro other
    by_cases hne : other = id
    · subst hne
      simp [hnew₁, hnode, Node.wiring]
    · rw [hothers₁ other hne]
  have hg₁ := hg.of_sameWiring hwiring
  refine Yields.bind (refresh?_spec hg₁ hnew₁) ?_
  rintro g₂ ⟨hlocal₂, htidied₂, _⟩
  have hids : ∀ reader ∈ node.users, reader.index < g₂.size := by
    intro reader hreader
    rw [hlocal₂.content.nodes.size_eq, hwiring.size_eq]
    exact hg.lt_size_of_mem_users hnode hreader
  refine (markStale?_tidied hids id).mono ?_
  rintro g₃ ⟨hlocal₃, htidied₃, _⟩
  have htidied := htidied₂.trans htidied₃
  refine ⟨hlocal₃.wellFormed (hlocal₂.wellFormed hg₁), htidied.content.order_eq.trans horder₁,
    htidied.bare.size_eq.trans hwiring.size_eq, fun other hne => ?_, fun _ hsame => ?_⟩
  · rw [htidied.bare other, hothers₁ other hne]
  · obtain rfl := Option.some.inj (hnode.symm.trans hsame)
    exact htidied.bare.exists_new hnew₁

end Graph

end LayoutPlanner
