import LayoutPlanner.Builtin.Catalog
import LayoutPlanner.Proofs.FoldedPermutes
import LayoutPlanner.Proofs.Frames
import LayoutPlanner.Proofs.Placements

/-!
# Recorded runs

The trace and the report of edge agreement are true to what it did to the graph.

* Every step of a visit puts one thing on record at most: a reorder that it inserted
  (`Serves.entry`) or a node that it handed over (`Reported`).  Reorders that are used again or get
  a new target go unmentioned, but nothing about them changes that an earlier record tells
  (`Feeds.origin_eq`).
* What a record tells of the edge that a reorder reads stays true as well.  The producer had its
  turn before the consumer, and only its own turn changes a node.
* `Ledger` is the invariant that comes of this.  A visit keeps it (`Ledger.turn`), so a run does,
  whether it fails or not.
-/

namespace LayoutPlanner

/-- The insertion that the event records. -/
def Event.insertion? : Event → Option Insertion
  | reorderInserted insertion => some insertion
  | kindDemoted .. | passFinished .. => none

/-- The node whose demotion the event records. -/
def Event.demoted? : Event → Option NodeId
  | kindDemoted node .. => some node
  | reorderInserted _ | passFinished .. => none

namespace Trace

/-- The insertions on record, in order. -/
def inserted (trace : Trace) : List Insertion :=
  trace.events.filterMap Event.insertion?

/-- The demoted nodes on record, in order. -/
def demoted (trace : Trace) : List NodeId :=
  trace.events.filterMap Event.demoted?

theorem inserted_append {before after : Trace} {new : List Event}
    (h : after.events = before.events ++ new) :
    after.inserted = before.inserted ++ new.filterMap Event.insertion? := by
  rw [inserted, h, List.filterMap_append, inserted]

theorem demoted_append {before after : Trace} {new : List Event}
    (h : after.events = before.events ++ new) :
    after.demoted = before.demoted ++ new.filterMap Event.demoted? := by
  rw [demoted, h, List.filterMap_append, demoted]

theorem insertions_eq (trace : Trace) : trace.insertions = trace.inserted.length := by
  rw [insertions, inserted, ← List.countP_eq_length_filter, List.length_filterMap_eq_countP]
  congr 1
  funext event
  cases event <;> rfl

theorem demotions_eq (trace : Trace) : trace.demotions = trace.demoted.length := by
  rw [demotions, demoted, ← List.countP_eq_length_filter, List.length_filterMap_eq_countP]
  congr 1
  funext event
  cases event <;> rfl

end Trace

/-- The graph bears out the record of an insertion: the reorder reads an edge of that producer,
which carries that layout, and it was made for that layout. -/
def Graph.Confirms (g : Graph) (insertion : Insertion) : Prop :=
  ∃ node input info, g.node? insertion.reorder = some node ∧
    g.input? insertion.reorder 0 = some input ∧ node.deps = [input.edge] ∧
    input.edge.node = insertion.producer ∧ input.layout.key = insertion.source ∧
    node.attrs = .reorder info ∧ ⟨info.sourceFormat, info.sourceType⟩ = insertion.source

/-- What a reorder reads, and what it was made for. -/
def Node.origin (node : Node) : List Edge × Attributes :=
  (node.deps, node.attrs)

theorem Node.origin_of_bare {a b : Node} (h : a.bare = b.bare) : a.origin = b.origin := by
  simp only [bare, mk.injEq] at h
  simp [origin, h]

theorem Graph.Confirms.congr {g g' : Graph} {insertion : Insertion} (h : g.Confirms insertion)
    (horigin : (g'.node? insertion.reorder).map Node.origin =
      (g.node? insertion.reorder).map Node.origin)
    (hproducer : (g'.node? insertion.producer).map Node.bare =
      (g.node? insertion.producer).map Node.bare) : g'.Confirms insertion := by
  obtain ⟨node, input, info, hnode, hinput, hdeps, hsource, hkey, hattrs, hinfo⟩ := h
  obtain ⟨_, _, _, _, hfound, hlayout⟩ := input?_eq_some_iff.1 hinput
  obtain ⟨node', hnode', hsame⟩ := exists_of_map_eq horigin hnode
  rw [← hsource, hfound, Option.map_some] at hproducer
  obtain ⟨producer', hproducer', hbare⟩ := Option.map_eq_some_iff.1 hproducer
  have hdeps' : node'.deps = [input.edge] := (congrArg (·.1) hsame).trans hdeps
  refine ⟨node', ⟨0, input.edge, producer', input.layout⟩, info, hnode', ?_, hdeps', hsource, hkey,
    (congrArg (·.2) hsame).trans hattrs, hinfo⟩
  refine input?_eq_some_iff.2 ⟨node', hnode', by simp [hdeps'], rfl, hproducer', ?_⟩
  rw [Node.outputs_of_bare hbare, hlayout]

namespace Reconciliation

variable {start : Graph} {cx : Context} {id : NodeId} {slot : Nat} {target : Layout}
  {reason : ReorderReason} {s s' : Reconciliation}

/-! ## What a step puts on record -/

/-- What a step other than the search puts on record: nothing, or one reorder. -/
inductive Entry (id : NodeId) (s s' : Reconciliation) : Prop
  | silent (hevents : s'.trace.events = s.trace.events) (hinserted : s'.report.reordersInserted =
      s.report.reordersInserted) (hdemotions : s'.report.demotions = s.report.demotions)
      (hsize : s'.graph.size = s.graph.size)
  | inserted {insertion : Insertion}
      (hevents : s'.trace.events = s.trace.events ++ [.reorderInserted insertion])
      (hinserted : s'.report.reordersInserted = s.report.reordersInserted + 1)
      (hdemotions : s'.report.demotions = s.report.demotions)
      (hsize : s'.graph.size = s.graph.size + 1) (hreorder : insertion.reorder = ⟨s.graph.size⟩)
      (hproducer : insertion.producer.index < id.index) (hconfirms : s'.graph.Confirms insertion)

theorem size_of_reroute? {g g' : Graph} {edge : Edge} (h : g.reroute? id slot edge = some g') :
    g'.size = g.size := by
  have hsame : Graph.Same (fun _ => ()) g g' :=
    Graph.reroute?_same (fun _ _ => rfl) (fun _ _ => rfl) (fun _ => rfl) slot edge g' h
  exact hsame.size_eq

/-- Freeing a slot goes unrecorded. -/
theorem Freed.silent (h : Freed id slot s s') :
    s'.trace = s.trace ∧ s'.report.reordersInserted = s.report.reordersInserted ∧
      s'.report.demotions = s.report.demotions ∧ s'.graph.size = s.graph.size := by
  cases h with
  | direct => exact ⟨rfl, rfl, rfl, rfl⟩
  | back _ _ _ _ h => exact ⟨rfl, rfl, rfl, size_of_reroute? h⟩

/-- A new reorder is as its record says. -/
theorem confirms_of_interpose {g g' : Graph} {input : Input} {new : Node}
    (hinput : g.input? id slot = some input)
    (hrewired : Graph.Rewired id slot ⟨⟨g.size⟩, 0⟩ g g') (hnew : g'.node? ⟨g.size⟩ = some new)
    (hbare : new.bare = (g.reorderFor input target reason).bare) :
    g'.Confirms { reorder := ⟨g.size⟩, producer := input.edge.node, consumer := id, slot
                  source := input.layout.key, target := target.key, reason } := by
  obtain ⟨_, _, _, _, hproducer, hlayout⟩ := Graph.input?_eq_some_iff.1 hinput
  obtain ⟨producer', hproducer', _, hface, _⟩ := hrewired.exists_new hproducer
  have hdeps : new.deps = [input.edge] := Node.deps_of_bare hbare
  have hattrs : new.attrs = (g.reorderFor input target reason).attrs :=
    congrArg (·.2) (Node.origin_of_bare hbare)
  have houtputs : producer'.outputs = input.producer.outputs := congrArg (·.2.2.2) hface
  refine ⟨new, ⟨0, input.edge, producer', input.layout⟩, _, hnew, ?_, hdeps, rfl, rfl, hattrs, rfl⟩
  refine Graph.input?_eq_some_iff.2 ⟨new, hnew, by simp [hdeps], rfl, hproducer', ?_⟩
  rw [houtputs, hlayout]

theorem Serves.entry (hstart : start.Ordered) (hs : Sound start s) (hid : id.index < start.size)
    (h : Serves id slot target reason s s') : Entry id s s' := by
  cases h with
  | retarget _ _ hconverter _ h =>
    have hretargeted := (Graph.setTarget?_spec hs.wellFormed hconverter target).post_of_eq h
    exact .silent rfl rfl rfl hretargeted.size_eq
  | reuse hfreed _ _ h =>
    obtain ⟨htrace, hinserted, hdemotions, hsize⟩ := hfreed.silent
    obtain ⟨g, hg, h⟩ := Option.bind_eq_some_iff.1 h
    cases h
    exact .silent (congrArg Trace.events htrace) hinserted hdemotions
      ((size_of_reroute? hg).trans hsize)
  | @create s₁ _ current hfreed hcurrent _ h =>
    obtain ⟨htrace, hinserted, hdemotions, hsize⟩ := hfreed.silent
    obtain ⟨edge, hedge, _, hs₁, hslot, _⟩ := hfreed.spec hstart.wellFormed hs hid
    obtain ⟨input, hinput, h⟩ := Option.bind_eq_some_iff.1 h
    obtain ⟨⟨g, reorder⟩, hg, h⟩ := Option.bind_eq_some_iff.1 h
    cases h
    obtain ⟨rfl, hrewired, hsize₁, _, new, hnew, hbare⟩ :=
      (Graph.interpose?_spec hs₁.wellFormed hinput target reason).post_of_eq hg
    refine .inserted (by simp [tell, learn, htrace]) (congrArg (· + 1) hinserted) hdemotions
      (hsize₁.trans (congrArg (· + 1) hsize)) (congrArg NodeId.mk hsize) ?_
      (confirms_of_interpose hinput hrewired hnew hbare)
    obtain ⟨old, hold, hget⟩ := Graph.dep?_eq_some_iff.1 hedge
    obtain ⟨node, hnode, hdep, _⟩ := Graph.input?_eq_some_iff.1 hinput
    have hsource : input.edge = edge :=
      Option.some.inj ((Graph.dep?_eq_some_iff.2 ⟨node, hnode, hdep⟩).symm.trans hslot)
    exact hsource ▸ hstart.earlier hold (List.mem_of_getElem? hget)

theorem Move.entry (hstart : start.Ordered) (hs : Sound start s) (hid : id.index < start.size)
    (h : Move id s s') : Entry id s s' := by
  obtain ⟨node, hnode⟩ := Graph.exists_node (Nat.lt_of_lt_of_le hid hs.grown)
  cases h with
  | settle h =>
    obtain ⟨hedit, _⟩ := (Graph.settle?_spec hs.wellFormed hnode).post_of_eq h
    exact .silent rfl rfl rfl hedit.content.nodes.size_eq
  | invalidate h =>
    obtain ⟨hedit, _⟩ := (Graph.invalidate?_spec hs.wellFormed hnode).post_of_eq h
    exact .silent rfl rfl rfl hedit.content.nodes.size_eq
  | convert _ _ _ h => exact (serves_of_convert? h).entry hstart hs hid

/-! ## What a step leaves alone -/

theorem origin_eq_of_bare {a b : Option Node} (h : a.map Node.bare = b.map Node.bare) :
    a.map Node.origin = b.map Node.origin := by
  cases a <;> cases b <;> simp_all
  exact Node.origin_of_bare h

theorem pinned_eq_of_bare {a b : Option Node} (h : a.map Node.bare = b.map Node.bare) :
    a.map Node.pinned = b.map Node.pinned := by
  cases a <;> cases b <;> simp_all
  exact Node.pinned_of_bare h

theorem Feeds.origin_eq {edge : Edge} (hid : id.index < start.size)
    (h : Feeds start id slot edge target s s') {reorder : NodeId}
    (hle : start.size ≤ reorder.index) (hlt : reorder.index < s.graph.size) :
    (s'.graph.node? reorder).map Node.origin = (s.graph.node? reorder).map Node.origin := by
  have hne : reorder ≠ id := by
    rintro rfl
    exact absurd hid (Nat.not_lt.2 hle)
  cases h with
  | @retarget other converter _ _ hconverter _ _ _ hretargeted _ =>
    by_cases hself : reorder = other
    · subst hself
      obtain ⟨converter', hconverter', hbare⟩ := hretargeted.changed converter hconverter
      rw [hconverter, hconverter', Option.map_some, Option.map_some, Node.origin_of_bare hbare]
      rfl
    · exact origin_eq_of_bare (hretargeted.others reorder hself)
  | reuse _ hoff _ _ _ hrewired =>
    exact origin_eq_of_bare ((hrewired.others reorder (hoff.size_eq ▸ hlt) hne).trans
      (hoff.bare_eq hlt hne))
  | create _ hoff _ _ _ hrewired =>
    exact origin_eq_of_bare ((hrewired.others reorder (hoff.size_eq ▸ hlt) hne).trans
      (hoff.bare_eq hlt hne))

theorem Move.origin_eq (hstart : start.WellFormed) (hs : Sound start s)
    (hid : id.index < start.size) (h : Move id s s') {reorder : NodeId}
    (hle : start.size ≤ reorder.index) (hlt : reorder.index < s.graph.size) :
    (s'.graph.node? reorder).map Node.origin = (s.graph.node? reorder).map Node.origin := by
  obtain ⟨node, hnode⟩ := Graph.exists_node (Nat.lt_of_lt_of_le hid hs.grown)
  have hne : reorder ≠ id := by
    rintro rfl
    exact absurd hid (Nat.not_lt.2 hle)
  cases h with
  | settle h =>
    obtain ⟨hedit, _⟩ := (Graph.settle?_spec hs.wellFormed hnode).post_of_eq h
    exact origin_eq_of_bare (hedit.others reorder hne)
  | invalidate h =>
    obtain ⟨hedit, _⟩ := (Graph.invalidate?_spec hs.wellFormed hnode).post_of_eq h
    exact origin_eq_of_bare (hedit.others reorder hne)
  | convert _ _ _ h =>
    obtain ⟨edge, _, _, hfeeds⟩ := (serves_of_convert? h).feeds hstart hs hid
    exact hfeeds.origin_eq hid hle hlt

theorem Move.pinned_eq (hstart : start.WellFormed) (hs : Sound start s)
    (hid : id.index < start.size) (h : Move id s s') {other : NodeId}
    (hother : other.index < start.size) :
    (s'.graph.node? other).map Node.pinned = (s.graph.node? other).map Node.pinned := by
  have hframed := h.framed hstart hs hid
  by_cases hne : other = id
  · subst hne
    obtain ⟨node, hnode⟩ := Graph.exists_node (Nat.lt_of_lt_of_le hother hs.grown)
    obtain ⟨node', hnode'⟩ := Graph.exists_node (Nat.lt_of_lt_of_le hother hframed.sound.grown)
    rw [hnode, hnode', Option.map_some, Option.map_some, Option.some.injEq]
    rcases h.core_cases hstart hs hid hnode hnode' with hsame | ⟨inherited, hsettled⟩
    · exact Node.pinned_of_core hsame
    · exact (Node.pinned_of_core hsettled).trans rfl
  · exact pinned_eq_of_bare (hframed.others other hother hne)

/-! ## What a run has on record -/

/-- The record is true to the graph, after the turns of the first `turns` nodes.  What the record
tells of reads concerns nodes before `reads` only. -/
structure Ledger (start : Graph) (cx : Context) (reads turns : Nat) (s : Reconciliation) :
    Prop where
  size_eq : s.graph.size = start.size + s.trace.inserted.length
  reorders : s.trace.inserted.map Insertion.reorder =
    (List.range' start.size s.trace.inserted.length).map NodeId.mk
  confirmed : ∀ insertion ∈ s.trace.inserted,
    insertion.producer.index < reads ∧ s.graph.Confirms insertion
  inserted_count : s.report.reordersInserted = s.trace.inserted.length
  demoted_lt : ∀ id ∈ s.trace.demoted, id.index < turns
  demoted_nodup : s.trace.demoted.Nodup
  demoted_count : s.report.demotions = s.trace.demoted.length
  repinned : ∀ {id old node}, start.node? id = some old → s.graph.node? id = some node →
    (id ∈ s.trace.demoted → old.pinned = some .vendor) ∧
      node.pinned = if id ∈ s.trace.demoted then some .generic else old.pinned
  allowed : s.trace.demoted ≠ [] → cx.config.allowVendorDemotion = true
  events : ∀ event ∈ s.trace.events, (∃ insertion, event = .reorderInserted insertion) ∨
    ∃ id, event = .kindDemoted id .vendor .generic demotionReason

namespace Ledger

variable {reads turns : Nat}

theorem begin : Ledger start cx 0 0 { graph := start } where
  size_eq := rfl
  reorders := rfl
  confirmed _ h := absurd h List.not_mem_nil
  inserted_count := rfl
  demoted_lt _ h := absurd h List.not_mem_nil
  demoted_nodup := List.nodup_nil
  demoted_count := rfl
  repinned hold hnode := by
    obtain rfl := Option.some.inj (hold.symm.trans hnode)
    exact ⟨fun h => absurd h List.not_mem_nil, rfl⟩
  allowed h := absurd rfl h
  events _ h := absurd h List.not_mem_nil

theorem mono (h : Ledger start cx reads turns s) {reads' turns' : Nat} (hreads : reads ≤ reads')
    (hturns : turns ≤ turns') : Ledger start cx reads' turns' s :=
  { h with
    confirmed := fun insertion hmem =>
      (h.confirmed insertion hmem).imp_left (Nat.lt_of_lt_of_le · hreads)
    demoted_lt := fun id hmem => Nat.lt_of_lt_of_le (h.demoted_lt id hmem) hturns }

/-- The reorders on record are the new nodes. -/
theorem reorder_mem (h : Ledger start cx reads turns s) {insertion : Insertion}
    (hmem : insertion ∈ s.trace.inserted) :
    start.size ≤ insertion.reorder.index ∧ insertion.reorder.index < s.graph.size := by
  have hlisted : insertion.reorder ∈ s.trace.inserted.map Insertion.reorder :=
    List.mem_map_of_mem hmem
  rw [h.reorders] at hlisted
  obtain ⟨index, hindex, hreorder⟩ := List.mem_map.1 hlisted
  rw [h.size_eq, ← hreorder]
  exact List.mem_range'_1.1 hindex

/-- The records stay true if the old nodes that they mention stay as they are, and the reorders keep
what they read and were made for. -/
theorem confirms_of_kept (h : Ledger start cx id.index turns s) (hid : id.index < start.size)
    (hothers : ∀ other : NodeId, other.index < start.size → other ≠ id →
      (s'.graph.node? other).map Node.bare = (s.graph.node? other).map Node.bare)
    (horigin : ∀ {reorder : NodeId}, start.size ≤ reorder.index →
      reorder.index < s.graph.size →
      (s'.graph.node? reorder).map Node.origin = (s.graph.node? reorder).map Node.origin) :
    ∀ insertion ∈ s.trace.inserted,
      insertion.producer.index < id.index ∧ s'.graph.Confirms insertion := by
  intro insertion hmem
  obtain ⟨hlt, hconfirms⟩ := h.confirmed insertion hmem
  obtain ⟨hle, hsize⟩ := h.reorder_mem hmem
  refine ⟨hlt, hconfirms.congr (horigin hle hsize) (hothers _ (Nat.lt_trans hlt hid) ?_)⟩
  rintro hsame
  exact absurd hlt (hsame ▸ Nat.lt_irrefl _)

/-- What the record tells of a pin stays true if the pin stays. -/
theorem repinned_of_kept (h : Ledger start cx reads turns s) {other : NodeId} {old node' : Node}
    (hold : start.node? other = some old) (hnode' : s'.graph.node? other = some node')
    (hpinned : (s'.graph.node? other).map Node.pinned = (s.graph.node? other).map Node.pinned) :
    (other ∈ s.trace.demoted → old.pinned = some .vendor) ∧
      node'.pinned = if other ∈ s.trace.demoted then some .generic else old.pinned := by
  obtain ⟨node, hnode, hsame⟩ := exists_of_map_eq hpinned.symm hnode'
  obtain ⟨hvendor, hpin⟩ := h.repinned hold hnode
  exact ⟨hvendor, hsame.symm.trans hpin⟩

/-- A step that puts nothing on record keeps the ledger if its records stay true. -/
theorem silent (h : Ledger start cx reads turns s) (hevents : s'.trace.events = s.trace.events)
    (hinserted : s'.report.reordersInserted = s.report.reordersInserted)
    (hdemotions : s'.report.demotions = s.report.demotions)
    (hsize : s'.graph.size = s.graph.size)
    (hconfirmed : ∀ insertion ∈ s.trace.inserted,
      insertion.producer.index < reads ∧ s'.graph.Confirms insertion)
    (hpinned : ∀ {other : NodeId}, other.index < start.size →
      (s'.graph.node? other).map Node.pinned = (s.graph.node? other).map Node.pinned) :
    Ledger start cx reads turns s' := by
  have hins : s'.trace.inserted = s.trace.inserted :=
    congrArg (·.filterMap Event.insertion?) hevents
  have hdem : s'.trace.demoted = s.trace.demoted := congrArg (·.filterMap Event.demoted?) hevents
  constructor
  case size_eq => rw [hins, hsize, h.size_eq]
  case reorders => rw [hins, h.reorders]
  case confirmed => exact hins ▸ hconfirmed
  case inserted_count => rw [hins, hinserted, h.inserted_count]
  case demoted_lt => exact hdem ▸ h.demoted_lt
  case demoted_nodup => exact hdem ▸ h.demoted_nodup
  case demoted_count => rw [hdem, hdemotions, h.demoted_count]
  case repinned =>
    intro other old node' hold hnode'
    rw [hdem]
    exact h.repinned_of_kept hold hnode' (hpinned (Graph.lt_size_of_node? hold))
  case allowed => exact hdem ▸ h.allowed
  case events => exact hevents ▸ h.events

theorem move (hstart : start.Ordered) (hs : Sound start s) (hid : id.index < start.size)
    (h : Ledger start cx id.index turns s) (hmove : Move id s s') :
    Ledger start cx id.index turns s' := by
  have hconfirmed := h.confirms_of_kept hid (hmove.framed hstart.wellFormed hs hid).others
    (hmove.origin_eq hstart.wellFormed hs hid)
  cases hmove.entry hstart hs hid with
  | silent hevents hinserted hdemotions hsize =>
    exact h.silent hevents hinserted hdemotions hsize hconfirmed
      (hmove.pinned_eq hstart.wellFormed hs hid)
  | @inserted insertion hevents hinserted hdemotions hsize hreorder hproducer hconfirms =>
    have hins : s'.trace.inserted = s.trace.inserted ++ [insertion] :=
      Trace.inserted_append hevents
    have hdem : s'.trace.demoted = s.trace.demoted :=
      (Trace.demoted_append hevents).trans (List.append_nil _)
    constructor
    case size_eq => rw [hins, hsize, h.size_eq, List.length_append, Nat.add_assoc]; rfl
    case reorders =>
      rw [hins, List.map_append, h.reorders, List.length_append, List.length_singleton,
        List.range'_1_concat, List.map_append, ← h.size_eq, List.map_singleton, hreorder]
      rfl
    case confirmed =>
      rw [hins]
      exact List.forall_mem_append.2
        ⟨hconfirmed, List.forall_mem_singleton.2 ⟨hproducer, hconfirms⟩⟩
    case inserted_count => rw [hins, hinserted, h.inserted_count, List.length_append]; rfl
    case demoted_lt => exact hdem ▸ h.demoted_lt
    case demoted_nodup => exact hdem ▸ h.demoted_nodup
    case demoted_count => rw [hdem, hdemotions, h.demoted_count]
    case repinned =>
      intro other old node' hold hnode'
      rw [hdem]
      exact h.repinned_of_kept hold hnode'
        (hmove.pinned_eq hstart.wellFormed hs hid (Graph.lt_size_of_node? hold))
    case allowed => exact hdem ▸ h.allowed
    case events =>
      rw [hevents]
      exact List.forall_mem_append.2
        ⟨h.events, List.forall_mem_singleton.2 (Or.inl ⟨insertion, rfl⟩)⟩

/-- The search puts its node on record at most, which had no turn before. -/
theorem legalized (hid : id.index < start.size) (h : Ledger start cx id.index id.index s)
    (hsearch : Legalized cx id s s') : Ledger start cx id.index (id.index + 1) s' := by
  have hne : ∀ {reorder : NodeId}, start.size ≤ reorder.index → reorder ≠ id := by
    rintro reorder hle rfl
    exact absurd hid (Nat.not_lt.2 hle)
  have hsize : s'.graph.size = s.graph.size := hsearch.edit.content.nodes.size_eq
  have hconfirmed := h.confirms_of_kept hid (fun other _ => hsearch.edit.others other)
    fun hle _ => origin_eq_of_bare (hsearch.edit.others _ (hne hle))
  have hlt : id.index < s.graph.size := h.size_eq ▸ Nat.lt_add_right _ hid
  obtain ⟨node, hnode⟩ := Graph.exists_node hlt
  obtain ⟨node', hnode'⟩ := Graph.exists_node (hsize ▸ hlt)
  have hothers : ∀ {other : NodeId}, other ≠ id →
      (s'.graph.node? other).map Node.pinned = (s.graph.node? other).map Node.pinned :=
    fun hne => pinned_eq_of_bare (hsearch.edit.others _ hne)
  cases hsearch.reported with
  | silent hevents hdemotions hpinned =>
    refine (h.silent hevents hsearch.inserted_eq hdemotions hsize hconfirmed ?_).mono
      (Nat.le_refl _) (Nat.le_succ _)
    intro other _
    by_cases hself : other = id
    · rw [hself, hnode, hnode', Option.map_some, Option.map_some, hpinned hnode hnode']
    · exact hothers hself
  | demoted hallowed hevents hdemotions hpinned =>
    obtain ⟨hvendor, hgeneric⟩ := hpinned hnode hnode'
    have hins : s'.trace.inserted = s.trace.inserted :=
      (Trace.inserted_append hevents).trans (List.append_nil _)
    have hdem : s'.trace.demoted = s.trace.demoted ++ [id] := Trace.demoted_append hevents
    have hnew : id ∉ s.trace.demoted := fun hmem => Nat.lt_irrefl _ (h.demoted_lt id hmem)
    constructor
    case size_eq => rw [hins, hsize, h.size_eq]
    case reorders => rw [hins, h.reorders]
    case confirmed => exact hins ▸ hconfirmed
    case inserted_count => rw [hins, hsearch.inserted_eq, h.inserted_count]
    case demoted_lt =>
      rw [hdem]
      exact List.forall_mem_append.2
        ⟨fun other hmem => Nat.lt_succ_of_lt (h.demoted_lt other hmem),
          List.forall_mem_singleton.2 (Nat.lt_succ_self _)⟩
    case demoted_nodup =>
      rw [hdem]
      exact h.demoted_nodup.append (List.nodup_singleton _) (by simpa using hnew)
    case demoted_count => rw [hdem, hdemotions, h.demoted_count, List.length_append]; rfl
    case repinned =>
      intro other old new hold hother
      by_cases hself : other = id
      · subst hself
        obtain rfl := Option.some.inj (hnode'.symm.trans hother)
        have hpin := (h.repinned hold hnode).2
        rw [if_neg hnew] at hpin
        rw [hdem, if_pos (by simp)]
        exact ⟨fun _ => hpin.symm.trans hvendor, hgeneric⟩
      · have hmem : other ∈ s'.trace.demoted ↔ other ∈ s.trace.demoted := by simp [hdem, hself]
        simp only [hmem]
        exact h.repinned_of_kept hold hother (hothers hself)
    case allowed => exact fun _ => hallowed
    case events =>
      rw [hevents]
      exact List.forall_mem_append.2 ⟨h.events, List.forall_mem_singleton.2 (Or.inr ⟨id, rfl⟩)⟩

theorem turn {before after : Reconciliation} (hstart : start.Ordered) (hs : Sound start s)
    (hid : id.index < start.size) (h : Ledger start cx id.index id.index s)
    (hvisited : Visited start cx id s s' before after) :
    Ledger start cx (id.index + 1) (id.index + 1) s' := by
  have hbefore : Ledger start cx id.index id.index before :=
    hvisited.advanced.moves.inv hstart.wellFormed hs hid (Ledger start cx id.index id.index)
      (fun hs₁ h₁ hmove => h₁.move hstart hs₁ hid hmove) h
  have hafter : Ledger start cx id.index (id.index + 1) after :=
    hbefore.legalized hid hvisited.legalized
  refine mono ?_ (Nat.le_succ _) (Nat.le_refl _)
  rcases hvisited.ending with ⟨_, rfl⟩ | ⟨_, _, _, _, hmoves⟩
  · exact hafter
  · exact hmoves.inv hstart.wellFormed hvisited.sound hid (Ledger start cx id.index (id.index + 1))
      (fun hs₁ h₁ hmove => h₁.move hstart hs₁ hid hmove) hafter

end Ledger

/-- After a run, and after one that failed, the record is true to the graph. -/
theorem ledger_of_run (hstart : start.Ordered) :
    Yields (start.order.foldlM (visit? cx) { graph := start }) fun s =>
      Sound start s ∧ Ledger start cx start.size start.size s := by
  refine run?_fresh hstart (fun count s => Ledger start cx count count s) .begin ?_ ?_
  · exact fun _ h _ => h.mono (Nat.le_succ _) (Nat.le_succ _)
  · intro count s s' old before after hs h _ hold _ _ _ _ hvisited
    exact Ledger.turn hstart hs (Graph.lt_size_of_node? hold) h hvisited

end Reconciliation

/-- The trace and the report of edge agreement are true to what it made of the graph. -/
structure Outcome.Faithful (cx : Context) (g : Graph) (out : Outcome) : Prop where
  /-- One record for each new node, in the order of the nodes. -/
  reorders : out.trace.inserted.map Insertion.reorder =
    (List.range' g.size (out.graph.size - g.size)).map NodeId.mk
  grown : g.size ≤ out.graph.size
  confirmed : ∀ insertion ∈ out.trace.inserted, out.graph.Confirms insertion
  demoted_nodup : out.trace.demoted.Nodup
  demoted_lt : ∀ id ∈ out.trace.demoted, id.index < g.size
  /-- The demoted nodes are those with a new pin. -/
  demoted_iff : ∀ {id old node}, g.node? id = some old → out.graph.node? id = some node →
    (id ∈ out.trace.demoted ↔ node.pinned ≠ old.pinned)
  repinned : ∀ {id old node}, g.node? id = some old → out.graph.node? id = some node →
    id ∈ out.trace.demoted → old.pinned = some .vendor ∧ node.pinned = some .generic
  kinds : ∀ {id source target reason}, .kindDemoted id source target reason ∈ out.trace.events →
    source = .vendor ∧ target = .generic
  allowed : cx.config.allowVendorDemotion = false → out.trace.demoted = []
  /-- The end of a run that ends well is on record, after everything else. -/
  finished : ∀ {report}, out.result = .ok report → ∃ earlier,
    out.trace.events = earlier ++ [.passFinished Reconciliation.stageName report.changed] ∧
    ∀ pass changed, .passFinished pass changed ∉ earlier
  unfinished : ∀ {error}, out.result = .error error →
    ∀ pass changed, .passFinished pass changed ∉ out.trace.events
  counts : ∀ {report}, out.result = .ok report →
    report.reordersInserted = out.trace.insertions ∧ report.demotions = out.trace.demotions

namespace Reconciliation

/-- The end of a run is on record if the run ends well. -/
theorem outcome_cases (s : Reconciliation) :
    (∃ error, s.outcome.trace = s.trace ∧ s.outcome.result = .error error) ∨
      s.outcome.trace.events = s.trace.events ++ [.passFinished stageName s.report.changed] ∧
        s.outcome.result = .ok s.report := by
  cases h : s.failure with
  | some error => exact Or.inl ⟨error, by simp [outcome, h], by simp [outcome, h]⟩
  | none => exact Or.inr ⟨by simp [outcome, h], by simp [outcome, h]⟩

theorem outcome_records (s : Reconciliation) :
    s.outcome.trace.inserted = s.trace.inserted ∧ s.outcome.trace.demoted = s.trace.demoted := by
  rcases s.outcome_cases with ⟨_, htrace, _⟩ | ⟨hevents, _⟩
  · exact ⟨congrArg Trace.inserted htrace, congrArg Trace.demoted htrace⟩
  · exact ⟨(Trace.inserted_append hevents).trans (List.append_nil _),
      (Trace.demoted_append hevents).trans (List.append_nil _)⟩

theorem Ledger.faithful {g : Graph} {reads : Nat} (h : Ledger start cx reads start.size s)
    (hsize : start.size = g.size)
    (hpinned : ∀ {id old}, g.node? id = some old →
      ∃ node, start.node? id = some node ∧ node.pinned = old.pinned) :
    s.outcome.Faithful cx g := by
  obtain ⟨hins, hdem⟩ := s.outcome_records
  have hunfinished : ∀ pass changed, .passFinished pass changed ∉ s.trace.events := by
    intro pass changed hmem
    rcases h.events _ hmem with ⟨_, hevent⟩ | ⟨_, hevent⟩ <;> cases hevent
  have hpin : ∀ {id old node}, g.node? id = some old → s.graph.node? id = some node →
      (id ∈ s.trace.demoted → old.pinned = some .vendor) ∧
        node.pinned = if id ∈ s.trace.demoted then some .generic else old.pinned := by
    intro id old node hold hnode
    obtain ⟨middle, hmiddle, hsame⟩ := hpinned hold
    exact hsame ▸ h.repinned hmiddle hnode
  constructor
  case reorders =>
    rw [hins, h.reorders, s.outcome_graph, h.size_eq, hsize, Nat.add_sub_cancel_left]
  case grown =>
    rw [s.outcome_graph, h.size_eq, hsize]
    exact Nat.le_add_right _ _
  case confirmed =>
    rw [hins, s.outcome_graph]
    exact fun insertion hmem => (h.confirmed insertion hmem).2
  case demoted_nodup => exact hdem ▸ h.demoted_nodup
  case demoted_lt => exact hdem ▸ hsize ▸ h.demoted_lt
  case demoted_iff =>
    rw [hdem, s.outcome_graph]
    intro id old node hold hnode
    obtain ⟨hvendor, hnew⟩ := hpin hold hnode
    by_cases hmem : id ∈ s.trace.demoted
    · rw [if_pos hmem] at hnew
      simp [hmem, hnew, hvendor hmem]
    · rw [if_neg hmem] at hnew
      simp [hmem, hnew]
  case repinned =>
    rw [hdem, s.outcome_graph]
    intro id old node hold hnode hmem
    obtain ⟨hvendor, hnew⟩ := hpin hold hnode
    exact ⟨hvendor hmem, hnew.trans (if_pos hmem)⟩
  case kinds =>
    intro id source target reason hmem
    have hstep : .kindDemoted id source target reason ∈ s.trace.events := by
      rcases s.outcome_cases with ⟨_, htrace, _⟩ | ⟨hevents, _⟩
      · rwa [htrace] at hmem
      · simpa [hevents] using hmem
    rcases h.events _ hstep with ⟨_, hevent⟩ | ⟨_, hevent⟩ <;> cases hevent
    exact ⟨rfl, rfl⟩
  case allowed =>
    intro hforbidden
    rw [hdem]
    by_contra hne
    exact Bool.noConfusion (hforbidden.symm.trans (h.allowed hne))
  case finished =>
    intro report hok
    rcases s.outcome_cases with ⟨_, _, hresult⟩ | ⟨hevents, hresult⟩
    · cases hresult.symm.trans hok
    · cases hresult.symm.trans hok
      exact ⟨s.trace.events, hevents, hunfinished⟩
  case unfinished =>
    intro error herror
    rcases s.outcome_cases with ⟨_, htrace, _⟩ | ⟨_, hresult⟩
    · rwa [htrace]
    · cases hresult.symm.trans herror
  case counts =>
    intro report hok
    rcases s.outcome_cases with ⟨_, _, hresult⟩ | ⟨_, hresult⟩
    · cases hresult.symm.trans hok
    · cases hresult.symm.trans hok
      rw [Trace.insertions_eq, Trace.demotions_eq, hins, hdem]
      exact ⟨h.inserted_count, h.demoted_count⟩

end Reconciliation

/-- What edge agreement reports after propagation is true to the graph: each new reorder is on
record once, with the edge that it reads at the end, so is each node that lost its pin, and the
report of a run that ends well has their numbers. -/
theorem recorded_of_agreement {decls : List NodeDecl} {g : Graph}
    (hbuild : Graph.build? decls = some (.ok g)) (cx : Context) :
    ∃ swept agreed, Propagation.run? cx g = some swept ∧
      Reconciliation.run? cx swept.graph = some agreed ∧ agreed.Faithful cx g := by
  have hordered := (Graph.fresh_of_build hbuild).toOrdered
  obtain ⟨swept, hswept, _, s₁, hs₁, hgraph, hsame⟩ := Propagation.run?_spec cx hordered
  obtain ⟨_, hpinned⟩ := (Propagation.pinned_of_sweep hordered).post_of_eq hs₁
  obtain ⟨s, hs, _, hledger⟩ :=
    @Reconciliation.ledger_of_run s₁.graph cx (hordered.of_sameContent hsame)
  refine ⟨swept, s.outcome, hswept, ?_, hledger.faithful hsame.nodes.size_eq fun hold => ?_⟩
  · rw [hgraph, Reconciliation.run?, hs]
    rfl
  · obtain ⟨node, hnode, _⟩ := hsame.nodes.exists_new hold
    exact ⟨node, hnode, hpinned hold hnode⟩

/-- A deconvolution on a vendor pin that has no layout there, nor one for its data elsewhere. -/
def pinnedDeconvolution : List NodeDecl :=
  [{ name := "data", op := .input,
     outputs := [⟨.ofExtents [1, 16, 8, 8], .si8, .bFsYxFsv32, {}⟩] },
    { name := "weights", op := .constant,
      outputs := [⟨.ofExtents [16, 16, 3, 3], .si8, .bfyx, {}⟩] },
    { name := "upsampled", op := .deconvolution, inputs := [⟨⟨0⟩, 0⟩, ⟨⟨1⟩, 0⟩],
      outputs := [⟨.ofExtents [1, 16, 8, 8], .si8, .any, {}⟩],
      attrs := .convolution (.ofKernel [3, 3]), pinned := some .vendor }]

theorem recorded_pinnedDeconvolution : ∃ g swept agreed report,
    Graph.build? pinnedDeconvolution = some (.ok g) ∧
    Propagation.run? { catalog := Builtin.catalog } g = some swept ∧
    Reconciliation.run? { catalog := Builtin.catalog } swept.graph = some agreed ∧
    agreed.result = .ok report ∧ agreed.trace.demoted = [⟨2⟩] ∧
    agreed.trace.inserted.map Insertion.reorder = [⟨3⟩] ∧
    agreed.Faithful { catalog := Builtin.catalog } g := by
  obtain ⟨swept, agreed, hswept, hagreed, hfaithful⟩ :=
    @recorded_of_agreement pinnedDeconvolution _ rfl { catalog := Builtin.catalog }
  cases hswept
  cases hagreed
  exact ⟨_, _, _, _, rfl, rfl, rfl, rfl, rfl, rfl, hfaithful⟩

end LayoutPlanner
