import LayoutPlanner.Proofs.SteadyClasses
import Mathlib.Data.List.Induction

/-!
# Trials

What the search for a legal layout makes of a graph, to the letter.

A trial sets the formats of one node, and with them flags: the node counts as settled from then on,
and its readers as stale (`Graph.touched`).  Taking a trial back puts the formats back and leaves
the flags.  As every trial sets the same flags, none can tell which ones came before it
(`touched_inFormat`), so a search comes to looking for the first format that is legal
(`search?_eq`).

Graphs are compared as a whole here.  Changes of one node are composed with `edit`, and those that
have nothing to do with flags commute with `touched`.
-/

namespace LayoutPlanner

theorem assign_append_length {α : Type} (fill : α) (done rest : List α) (value : α) :
    assign fill (done ++ rest) done.length value = done ++ value :: rest.drop 1 := by
  induction done with
  | nil => cases rest <;> rfl
  | cons head done ih =>
    simp only [List.cons_append, List.length_cons, assign]
    rw [ih]

section Entries

variable {α β : Type} {items : List α} {done : Nat} {item : α} (h : items[done]? = some item)

include h

theorem take_succ_of_getElem? : items.take (done + 1) = items.take done ++ [item] := by
  rw [List.take_add_one, h, Option.toList_some]

theorem length_take_of_getElem? : (items.take done).length = done := by
  obtain ⟨hlt, _⟩ := List.getElem?_eq_some_iff.1 h
  rw [List.length_take]
  omega

/-- The next entry of a list is replaced. -/
theorem set_take_append_drop (f : α → α) :
    ((items.take done).map f ++ items.drop done).set done (f item) =
      (items.take (done + 1)).map f ++ items.drop (done + 1) := by
  obtain ⟨hlt, rfl⟩ := List.getElem?_eq_some_iff.1 h
  have hlength : ((items.take done).map f).length = done := by
    rw [List.length_map, length_take_of_getElem? h]
  rw [List.set_append_right _ _ (Nat.le_of_eq hlength), hlength, Nat.sub_self,
    List.drop_eq_getElem_cons hlt, List.set_cons_zero, take_succ_of_getElem? h, List.map_append,
    List.map_singleton, List.append_assoc, List.singleton_append]

/-- The next entry is assigned. -/
theorem assign_take_append_drop (fill : β) (f : α → β) (old : List β) :
    assign fill ((items.take done).map f ++ old.drop done) done (f item) =
      (items.take (done + 1)).map f ++ old.drop (done + 1) := by
  have hlength : ((items.take done).map f).length = done := by
    rw [List.length_map, length_take_of_getElem? h]
  have hassign := assign_append_length fill ((items.take done).map f) (old.drop done) (f item)
  rw [hlength] at hassign
  rw [hassign, List.drop_drop, take_succ_of_getElem? h, List.map_append, List.map_singleton,
    List.append_assoc, List.singleton_append]

end Entries

/-- The slots of some of the inputs, where the inputs stand in the order of their slots. -/
theorem map_slot_filter {inputs : List Input}
    (hslots : ∀ (slot : Nat) (input : Input), inputs[slot]? = some input → input.slot = slot)
    (p : Input → Bool) : (inputs.filter p).map Input.slot =
      (List.range inputs.length).filter fun slot => inputs[slot]?.any p := by
  induction inputs using List.reverseRecOn with
  | nil => rfl
  | append_singleton inputs last ih =>
    have hlast : last.slot = inputs.length := hslots inputs.length last (by simp)
    have hbefore : ∀ slot ∈ List.range inputs.length,
        (inputs ++ [last])[slot]?.any p = inputs[slot]?.any p := by
      intro slot hslot
      rw [List.getElem?_append_left (List.mem_range.1 hslot)]
    rw [List.filter_append, List.map_append, List.length_append, List.length_singleton,
      List.range_succ, List.filter_append, List.filter_congr hbefore, ih ?_]
    · cases hp : p last <;> simp [hp, hlast]
    · intro slot input hslot
      refine hslots slot input ?_
      rw [List.getElem?_append_left (List.getElem?_eq_some_iff.1 hslot).1, hslot]

namespace Node

/-- The node with its outputs in a format, fitted to their ranks, which it prefers there as well as
on some slots. -/
def inFormat (format : Format) (slots : List Nat) (node : Node) : Node :=
  { node with
    outputs := node.outputs.map fun layout => layout.withFormat (format.adaptTo layout.rank)
    prefers := { node.prefers with
      inputs := slots.foldl (fun inputs slot => assign .any inputs slot format) node.prefers.inputs
      outputs := (node.outputs.map fun layout => format.adaptTo layout.rank) ++
        node.prefers.outputs.drop node.outputs.length } }

/-- The node is settled if it is `id`, and stale if it is among the readers. -/
def flagged (readers : List NodeId) (id other : NodeId) (node : Node) : Node :=
  { node with
    layoutValid := if other ∈ readers then false else if other = id then true
      else node.layoutValid }

/-- The node with another layout on an output, the format of which it prefers there. -/
def withOutput (index : Nat) (layout : Layout) (node : Node) : Node :=
  { node with
    outputs := node.outputs.set index layout
    prefers := node.prefers.setOutput index layout.format }

/-- The node with the outputs below `done` in a format. -/
def forced (format : Format) (done : Nat) (node : Node) : Node :=
  { node with
    outputs := (node.outputs.take done).map (fun layout =>
      layout.withFormat (format.adaptTo layout.rank)) ++ node.outputs.drop done
    prefers := { node.prefers with
      outputs := (node.outputs.take done).map (fun layout => format.adaptTo layout.rank) ++
        node.prefers.outputs.drop done } }

/-- The node with a format preferred on some slots. -/
def preferring (format : Format) (slots : List Nat) (node : Node) : Node :=
  { node with
    prefers := { node.prefers with
      inputs := slots.foldl (fun inputs slot => assign .any inputs slot format)
        node.prefers.inputs } }

variable {node : Node} {format : Format}

theorem forced_zero : node.forced format 0 = node := by
  simp [forced]

theorem getElem?_outputs_forced {done index : Nat} (hle : done ≤ index) :
    (node.forced format done).outputs[index]? = node.outputs[index]? := by
  by_cases hlt : index < node.outputs.length
  · have hlength : (node.outputs.take done).length = done := by
      rw [List.length_take]
      omega
    rw [forced, List.getElem?_append_right (by rw [List.length_map, hlength]; exact hle),
      List.length_map, hlength, List.getElem?_drop, Nat.add_sub_cancel' hle]
  · have hlength : (node.forced format done).outputs.length = node.outputs.length := by
      simp only [forced, List.length_append, List.length_map, List.length_take, List.length_drop]
      omega
    rw [List.getElem?_eq_none (hlength ▸ Nat.not_lt.1 hlt),
      List.getElem?_eq_none (Nat.not_lt.1 hlt)]

theorem content_forced {done : Nat} : (node.forced format done).content = node.content := by
  have houtputs : (node.forced format done).outputs.map (·.withFormat .any) =
      node.outputs.map (·.withFormat .any) := by
    rw [forced, List.map_append, List.map_map]
    conv_rhs => rw [← List.take_append_drop done node.outputs, List.map_append]
    rfl
  rw [content, meaning, houtputs]
  rfl

/-- One more output is forced. -/
theorem withOutput_forced {done : Nat} {layout : Layout}
    (hlayout : node.outputs[done]? = some layout) :
    (node.forced format done).withOutput done (layout.withFormat (format.adaptTo layout.rank)) =
      node.forced format (done + 1) := by
  have houtputs := set_take_append_drop hlayout fun layout =>
    layout.withFormat (format.adaptTo layout.rank)
  have hprefers := assign_take_append_drop hlayout .any (fun layout => format.adaptTo layout.rank)
    node.prefers.outputs
  unfold withOutput forced FormatPreference.setOutput
  dsimp only
  rw [houtputs]
  exact congrArg (fun outputs => { node.forced format (done + 1) with
    prefers := { node.prefers with outputs } }) hprefers

theorem outline_withOutput {index : Nat} {layout layout' : Layout}
    (hlayout : node.outputs[index]? = some layout) (hshape : layout'.shape = layout.shape) :
    (node.withOutput index layout').outline = node.outline := by
  have hshapes : (node.outputs.set index layout').map Layout.shape =
      node.outputs.map Layout.shape := by
    obtain ⟨hlt, rfl⟩ := List.getElem?_eq_some_iff.1 hlayout
    rw [List.map_set, hshape]
    apply List.ext_getElem?
    intro other
    rw [List.getElem?_set, List.length_map]
    split
    next heq => simp [← heq, hlt]
    next => rfl
  rw [outline, withOutput, hshapes, outline]

/-- Forcing all outputs and preferring the format on some slots is a trial. -/
theorem preferring_forced {slots : List Nat} :
    (node.forced format node.outputs.length).preferring format slots =
      node.inFormat format slots := by
  simp [forced, preferring, inFormat]

theorem content_inFormat {slots : List Nat} :
    (node.inFormat format slots).content = node.content := by
  rw [← preferring_forced]
  exact @content_forced node format node.outputs.length

end Node

/-- The formats that were saved are put back. -/
theorem FormatSnapshot.apply_inFormat {node : Node} {format : Format} {slots : List Nat} :
    (FormatSnapshot.ofNode node).apply (node.inFormat format slots) = node := by
  have houtputs : List.zipWith Layout.withFormat (node.outputs.map fun layout =>
      layout.withFormat (format.adaptTo layout.rank)) (node.outputs.map Layout.format) =
      node.outputs := by
    apply List.ext_getElem?
    intro index
    rw [List.getElem?_zipWith, List.getElem?_map, List.getElem?_map]
    cases node.outputs[index]? <;> simp [Layout.withFormat]
  simp only [apply, ofNode, Node.inFormat, houtputs, List.length_map]
  rw [← List.length_map (f := fun layout : Layout =>
    layout.withFormat (format.adaptTo layout.rank)), List.drop_length, List.append_nil]

namespace Graph

variable {g g' : Graph} {id : NodeId} {node : Node} {change change' : Node → Node}

theorem ext_node? (horder : g'.order = g.order) (hnodes : ∀ id, g'.node? id = g.node? id) :
    g' = g := by
  obtain ⟨nodes, order⟩ := g
  obtain ⟨nodes', order'⟩ := g'
  obtain rfl : order' = order := horder
  obtain rfl : nodes' = nodes := List.ext_getElem? fun index => hnodes ⟨index⟩
  rfl

/-! ## Changes of one node -/

/-- The graph with one node changed. -/
def edit (g : Graph) (id : NodeId) (change : Node → Node) : Graph :=
  { g with nodes := g.nodes.modify id.index change }

theorem node?_edit (other : NodeId) : (g.edit id change).node? other =
    (g.node? other).map fun node => if other = id then change node else node := by
  have hindex : id.index = other.index ↔ other = id := by
    cases id
    cases other
    simp [eq_comm]
  simp only [edit, node?, List.getElem?_modify, hindex]
  split <;> simp

theorem update?_eq_edit (hnode : g.node? id = some node) (change : Node → Node) :
    g.update? id change = some (g.edit id change) :=
  update?_eq_some_iff.2 ⟨lt_size_of_node? hnode, rfl⟩

theorem node?_edit_self (hnode : g.node? id = some node) (change : Node → Node) :
    (g.edit id change).node? id = some (change node) := by
  rw [node?_edit, hnode, Option.map_some, if_pos rfl]

theorem edit_congr (hnode : g.node? id = some node) (h : change' node = change node) :
    g.edit id change' = g.edit id change := by
  refine ext_node? rfl fun other => ?_
  rw [node?_edit, node?_edit]
  by_cases hself : other = id
  · subst hself
    simp [hnode, h]
  · simp [hself]

theorem edit_eq_self (hnode : g.node? id = some node) (h : change node = node) :
    g.edit id change = g := by
  have hkept : g.edit id (fun node => node) = g := by
    refine ext_node? rfl fun other => ?_
    rw [node?_edit]
    simp
  exact (edit_congr hnode h).trans hkept

theorem edit_edit :
    (g.edit id change).edit id change' = g.edit id fun node => change' (change node) := by
  refine ext_node? rfl fun other => ?_
  rw [node?_edit, node?_edit, node?_edit, Option.map_map]
  refine congrArg (Option.map · _) (funext fun node => ?_)
  by_cases hself : other = id <;> simp [hself]

theorem same_edit {α : Type} {proj : Node → α} (hnode : g.node? id = some node)
    (h : proj (change node) = proj node) : Same proj g (g.edit id change) := by
  intro other
  rw [node?_edit]
  by_cases hself : other = id
  · subst hself
    simp [hnode, h]
  · simp [hself]

/-! ## Flags -/

def readers (g : Graph) (id : NodeId) : List NodeId :=
  ((g.node? id).map Node.users).getD []

theorem readers_of_node (hnode : g.node? id = some node) : g.readers id = node.users := by
  rw [readers, hnode]
  rfl

/-- The graph after formats of `id` were set: `id` is settled, and its readers are stale. -/
def touched (g : Graph) (id : NodeId) : Graph :=
  { g with nodes := g.nodes.mapIdx fun index node => node.flagged (g.readers id) id ⟨index⟩ }

theorem node?_touched (other : NodeId) :
    (g.touched id).node? other = (g.node? other).map (Node.flagged (g.readers id) id other) := by
  simp only [touched, node?, List.getElem?_mapIdx]

theorem node?_touched_self (hnode : g.node? id = some node) :
    (g.touched id).node? id = some (node.flagged (g.readers id) id id) := by
  rw [node?_touched, hnode, Option.map_some]

theorem readers_touched : (g.touched id).readers id = g.readers id := by
  rw [readers, node?_touched, Option.map_map]
  rfl

theorem touched_touched : (g.touched id).touched id = g.touched id := by
  refine ext_node? rfl fun other => ?_
  rw [node?_touched, node?_touched, readers_touched, Option.map_map]
  refine congrArg (Option.map · _) (funext fun node => ?_)
  simp only [Function.comp_apply, Node.flagged]
  split
  · rfl
  · split <;> rfl

theorem same_touched {α : Type} {proj : Node → α}
    (h : ∀ node valid, proj { node with layoutValid := valid } = proj node) :
    Same proj g (g.touched id) := by
  intro other
  rw [node?_touched, Option.map_map]
  exact congrArg (Option.map · _) (funext fun node => h node _)

/-- The change has nothing to do with readers and flags. -/
structure Unflagged (change : Node → Node) : Prop where
  users : ∀ node, (change node).users = node.users
  flag : ∀ node valid, change { node with layoutValid := valid } =
    { change node with layoutValid := valid }

theorem Unflagged.flagged (h : Unflagged change) (readers : List NodeId) (other : NodeId) :
    change (node.flagged readers id other) = (change node).flagged readers id other := by
  have hsame : change node = { change node with layoutValid := node.layoutValid } :=
    h.flag node node.layoutValid
  have hvalid : (change node).layoutValid = node.layoutValid := (congrArg Node.layoutValid hsame :)
  rw [Node.flagged, h.flag, Node.flagged, hvalid]

theorem touched_edit (h : Unflagged change) :
    (g.edit id change).touched id = (g.touched id).edit id change := by
  have hreaders : (g.edit id change).readers id = g.readers id := by
    rw [readers, node?_edit, Option.map_map, readers]
    simp [Function.comp_def, h.users]
  refine ext_node? rfl fun other => ?_
  rw [node?_touched, node?_edit, node?_edit, node?_touched, hreaders, Option.map_map,
    Option.map_map]
  refine congrArg (Option.map · _) (funext fun node => ?_)
  by_cases hself : other = id
  · simp [hself, h.flagged]
  · simp [hself]

/-! ## Setting formats -/

/-- Where the classes are right, bringing one up to date changes nothing. -/
theorem refresh?_eq (hg : g.Classified) (hnode : g.node? id = some node) :
    g.refresh? id = some g := by
  unfold refresh?
  rw [hg id node hnode, Option.bind_eq_bind, Option.bind_some, update?_eq_edit hnode]
  exact congrArg some (edit_eq_self hnode rfl)

theorem forceOutput?_eq (hg : g.WellFormed) (hclass : g.Classified) (hnode : g.node? id = some node)
    {index : Nat} {layout : Layout} (hlayout : node.outputs[index]? = some layout)
    (format : Format) : g.forceOutput? id index format =
      some ((g.touched id).edit id (Node.withOutput index (layout.withFormat format))) := by
  unfold forceOutput?
  simp only [hnode, hlayout, update?_eq_edit hnode, Option.bind_eq_bind, Option.bind_some]
  generalize hset : (fun node : Node => { node with
      outputs := node.outputs.set index (layout.withFormat format)
      prefers := node.prefers.setOutput index format
      layoutValid := true }) = set
  have hids : ∀ reader ∈ node.users, reader.index < (g.edit id set).size := by
    intro reader hreader
    simpa [edit, size] using hg.lt_size_of_mem_users hnode hreader
  obtain ⟨g₁, hg₁, horder, hnodes⟩ := markStale?_spec hids
  obtain rfl : g₁ = (g.touched id).edit id (Node.withOutput index (layout.withFormat format)) := by
    refine ext_node? horder fun other => ?_
    rw [hnodes, node?_edit, node?_edit, node?_touched, readers_of_node hnode, Option.map_map,
      Option.map_map]
    refine congrArg (Option.map · _) (funext fun found => ?_)
    subst hset
    by_cases hself : other = id
    · subst hself
      by_cases hmem : other ∈ node.users <;>
        simp [hmem, Node.flagged, Node.stale, Node.withOutput, Layout.withFormat]
    · by_cases hmem : other ∈ node.users <;> simp [hself, hmem, Node.flagged, Node.stale]
  rw [hg₁, Option.bind_some]
  have hnode₁ := node?_touched_self hnode
  have hclass₁ : (g.touched id).Classified := hclass.of_same (same_touched fun _ _ => rfl)
  refine refresh?_eq (hclass₁.of_same (same_edit hnode₁ ?_)) (node?_edit_self hnode₁ _)
  exact @Node.outline_withOutput _ _ layout _ hlayout rfl

/-! ## Trials -/

/-- The slots of a node that are not fed by constants and whose rank a format fits. -/
def fittingSlots (g : Graph) (id : NodeId) (format : Format) : List Nat :=
  (List.range (((g.node? id).map (·.deps.length)).getD 0)).filter fun slot =>
    (g.input? id slot).any fun input => input.isReal && format.fits input.layout.rank

/-- The graph with a node in a format: that is the format of its outputs, fitted to their ranks, and
it prefers the format on them and on its fitting slots. -/
def inFormat (g : Graph) (id : NodeId) (format : Format) : Graph :=
  (g.touched id).edit id (Node.inFormat format (g.fittingSlots id format))

/-- Two graphs that differ in formats, decisions and flags only. -/
structure Alike (g g' : Graph) : Prop where
  content : SameContent g g'
  outline : Same Node.outline g g'

theorem Alike.wellFormed (h : Alike g g') (hg : g.WellFormed) : g'.WellFormed :=
  hg.of_sameWiring h.content.wiring

theorem Alike.classified (h : Alike g g') (hg : g.Classified) : g'.Classified :=
  hg.of_same h.outline

protected theorem Alike.trans {g'' : Graph} (h : Alike g g') (h' : Alike g' g'') : Alike g g'' :=
  ⟨h.content.trans h'.content, h.outline.trans h'.outline⟩

theorem alike_touched : Alike g (g.touched id) :=
  ⟨⟨rfl, same_touched fun _ _ => rfl⟩, same_touched fun _ _ => rfl⟩

theorem alike_edit (hnode : g.node? id = some node)
    (hcontent : (change node).content = node.content)
    (hclass : (change node).shapeClass = node.shapeClass) : Alike g (g.edit id change) := by
  refine ⟨⟨rfl, same_edit hnode hcontent⟩, same_edit hnode ?_⟩
  obtain ⟨hmeaning, hdeps, _⟩ := Node.content_eq_iff.1 hcontent
  rw [Node.outline, Node.outline, hdeps, hclass,
    Layout.shapes_of_withFormat_any (congrArg Node.outputs hmeaning :)]

/-- Which slots a format fits does not depend on formats. -/
theorem fittingSlots_eq (h : SameContent g g') (format : Format) :
    g'.fittingSlots id format = g.fittingSlots id format := by
  have hlength : ((g'.node? id).map (·.deps.length)).getD 0 =
      ((g.node? id).map (·.deps.length)).getD 0 := by
    have hdeps := congrArg (Option.map List.length) (h.wiring.deps id)
    rw [Option.map_map, Option.map_map] at hdeps
    exact congrArg (Option.getD · 0) hdeps
  unfold fittingSlots
  rw [hlength]
  refine List.filter_congr fun slot _ => ?_
  cases hinput : g.input? id slot with
  | some input =>
    obtain ⟨input', hinput', _, hcontent, hlayout⟩ := h.exists_input hinput
    rw [hinput', Option.any_some, Option.any_some, Layout.rank_of_withFormat_any hlayout,
      Input.isReal, Node.isConstant_congr (Node.op_of_content hcontent), Input.isReal]
  | none =>
    cases hinput' : g'.input? id slot with
    | some input' =>
      obtain ⟨_, hfound, _⟩ := h.symm.exists_input hinput'
      rw [hinput] at hfound
      cases hfound
    | none => rfl

theorem realSlots?_eq (hg : g.WellFormed) (hnode : g.node? id = some node) :
    g.realSlots? id = some ((List.range node.deps.length).filter fun slot =>
      (g.input? id slot).any Input.isReal) := by
  obtain ⟨inputs, hinputs, hlength⟩ := hg.exists_inputs hnode
  have hslots : ∀ (slot : Nat) (input : Input), inputs[slot]? = some input →
      input.slot = slot := by
    intro slot input hslot
    rw [getElem?_of_inputs? hinputs] at hslot
    exact slot_of_input? hslot
  simp only [realSlots?, hinputs, Option.bind_eq_bind, Option.bind_some, Option.pure_def,
    ← hlength, ← getElem?_of_inputs? hinputs]
  exact congrArg some (map_slot_filter hslots _)

/-- The slots are gone through in order, and those that the format fits get it. -/
theorem preferOnInputs?_eq (hg : g.WellFormed) (hnode : g.node? id = some node) (format : Format) :
    g.preferOnInputs? id format =
      some (g.edit id (Node.preferring format (g.fittingSlots id format))) := by
  let fits (slot : Nat) : Bool := (g.input? id slot).any fun input => format.fits input.layout.rank
  let real := (List.range node.deps.length).filter fun slot => (g.input? id slot).any Input.isReal
  have hfitting : g.fittingSlots id format = real.filter fits := by
    rw [List.filter_filter, fittingSlots, hnode]
    refine List.filter_congr fun slot _ => ?_
    cases hinput : g.input? id slot with
    | none => simp [fits, hinput]
    | some input => simp [fits, hinput, Bool.and_comm]
  refine Yields.eq_some (Yields.bind_eq (realSlots?_eq hg hnode) ?_)
  rw [hfitting]
  refine Yields.foldlM (fun done g' =>
    g' = g.edit id (Node.preferring format (done.filter fits))) ?_ ?_
  · exact (edit_eq_self hnode rfl).symm
  · rintro done slot rest _ hslots rfl
    have hreal : real = done ++ slot :: rest := hslots
    have hslot : slot ∈ real := by simp [hreal]
    obtain ⟨input, hinput, _⟩ := (Option.any_eq_true _ _).1 (List.mem_filter.1 hslot).2
    have hsame : SameContent g (g.edit id (Node.preferring format (done.filter fits))) :=
      (alike_edit hnode rfl rfl).content
    obtain ⟨input', hinput', _, _, hlayout⟩ := hsame.exists_input hinput
    have hfits : fits slot = format.fits input.layout.rank := by
      simp [fits, hinput]
    refine Yields.bind_eq hinput' ?_
    rw [Layout.rank_of_withFormat_any hlayout, List.filter_append]
    split
    next hyes =>
      refine .of_eq (update?_eq_edit (node?_edit_self hnode _) _) ?_
      rw [edit_edit, List.filter_singleton, hfits, hyes]
      refine edit_congr hnode ?_
      simp [Node.preferring, FormatPreference.setInput]
    next hno =>
      refine Yields.pure ?_
      rw [List.filter_singleton, hfits, Bool.eq_false_iff.2 hno]
      simp

/-- Forcing one more output, where no output or some have been forced before. -/
theorem forceOutput?_forced {h : Graph} {found : Node} {done : Nat} {layout : Layout}
    (hh : h.WellFormed) (hclass : h.Classified) (hfound : h.node? id = some found)
    (hlayout : found.outputs[done]? = some layout) (format : Format) :
    (h.edit id (Node.forced format done)).forceOutput? id done (format.adaptTo layout.rank) =
      some ((h.touched id).edit id (Node.forced format (done + 1))) := by
  have halike : Alike h (h.edit id (Node.forced format done)) :=
    alike_edit hfound Node.content_forced rfl
  have hlayout' : (found.forced format done).outputs[done]? = some layout := by
    rw [Node.getElem?_outputs_forced (Nat.le_refl _), hlayout]
  have hunflagged : Unflagged (Node.forced format done) := ⟨fun _ => rfl, fun _ _ => rfl⟩
  rw [forceOutput?_eq (halike.wellFormed hh) (halike.classified hclass) (node?_edit_self hfound _)
    hlayout', touched_edit hunflagged, edit_edit]
  exact congrArg some (edit_congr (node?_touched_self hfound) (Node.withOutput_forced hlayout))

theorem forceOutputs?_eq (hg : g.WellFormed) (hclass : g.Classified)
    (hnode : g.node? id = some node) (format : Format) : g.forceOutputs? id format =
      some ((g.touched id).edit id (Node.forced format node.outputs.length)) := by
  refine Yields.eq_some (Yields.bind_eq hnode ?_)
  refine (Yields.foldlM_range (fun done (g' : Graph) =>
    g' = (if done = 0 then g else g.touched id).edit id (Node.forced format done)) ?_ ?_).mono ?_
  · exact (edit_eq_self hnode Node.forced_zero).symm
  · rintro done _ hlt rfl
    obtain ⟨h, found, hh, halike, htouched, hfound, houtputs⟩ : ∃ h found,
        (if done = 0 then g else g.touched id) = h ∧ Alike g h ∧ h.touched id = g.touched id ∧
        h.node? id = some found ∧ found.outputs = node.outputs := by
      split
      · exact ⟨g, node, rfl, ⟨.refl g, .refl g⟩, rfl, hnode, rfl⟩
      · exact ⟨_, _, rfl, alike_touched, touched_touched, node?_touched_self hnode, rfl⟩
    have hlayout : found.outputs[done]? = some node.outputs[done] := by
      rw [houtputs, List.getElem?_eq_getElem hlt]
    have hlayout' : (found.forced format done).outputs[done]? = some node.outputs[done] := by
      rw [Node.getElem?_outputs_forced (Nat.le_refl _), hlayout]
    rw [hh, if_neg (Nat.succ_ne_zero done), ← htouched]
    refine Yields.bind_eq (node?_edit_self hfound _) (Yields.bind_eq hlayout' ?_)
    exact .of_eq (forceOutput?_forced (halike.wellFormed hg) (halike.classified hclass) hfound
      hlayout format) rfl
  · rintro _ rfl
    rw [if_neg]
    exact fun hnil => hg.outputs_ne hnode (List.length_eq_zero_iff.1 hnil)

theorem adoptFormat?_eq (hg : g.WellFormed) (hclass : g.Classified)
    (hnode : g.node? id = some node) (format : Format) :
    g.adoptFormat? id format = some (g.inFormat id format) := by
  have htouched := node?_touched_self hnode
  have halike : Alike g ((g.touched id).edit id (Node.forced format node.outputs.length)) :=
    alike_touched.trans (alike_edit htouched Node.content_forced rfl)
  have hforced := node?_edit_self htouched (Node.forced format node.outputs.length)
  have hpreferred := node?_edit_self hforced (Node.preferring format (g.fittingSlots id format))
  have halike' : Alike g (((g.touched id).edit id (Node.forced format node.outputs.length)).edit id
      (Node.preferring format (g.fittingSlots id format))) :=
    halike.trans (alike_edit hforced rfl rfl)
  unfold adoptFormat?
  simp only [forceOutputs?_eq hg hclass hnode, Option.bind_eq_bind, Option.bind_some,
    preferOnInputs?_eq (halike.wellFormed hg) hforced, fittingSlots_eq halike.content]
  rw [refresh?_eq (halike'.classified hclass) hpreferred, edit_edit]
  exact congrArg some (edit_congr htouched Node.preferring_forced)

theorem alike_inFormat (hnode : g.node? id = some node) (format : Format) :
    Alike g (g.inFormat id format) := by
  exact alike_touched.trans (alike_edit (node?_touched_self hnode) Node.content_inFormat rfl)

/-! ## Taking trials back -/

theorem touched_inFormat (format : Format) :
    (g.touched id).inFormat id format = g.inFormat id format := by
  rw [inFormat, touched_touched, fittingSlots_eq alike_touched.content, inFormat]

theorem putBack?_eq (hclass : g.Classified) (hnode : g.node? id = some node) (format : Format) :
    (FormatSnapshot.ofNode node).putBack? (g.inFormat id format) id = some (g.touched id) := by
  have htouched := node?_touched_self hnode
  have hnode' : (g.inFormat id format).node? id = some _ := node?_edit_self htouched _
  have hback : (g.inFormat id format).edit id (FormatSnapshot.ofNode node).apply =
      g.touched id := by
    rw [inFormat, edit_edit]
    exact edit_eq_self htouched FormatSnapshot.apply_inFormat
  unfold FormatSnapshot.putBack?
  simp only [hnode', update?_eq_edit hnode', Option.bind_eq_bind, Option.bind_some, hback]
  rw [if_pos, refresh?_eq (alike_touched.classified hclass) htouched]
  simp [FormatSnapshot.ofNode, Node.inFormat, Node.flagged]

/-- The graph after all of some formats have been tried in vain. -/
def afterTrials (g : Graph) (id : NodeId) (formats : List Format) : Graph :=
  if formats = [] then g else g.touched id

theorem same_afterTrials {formats : List Format} {α : Type} {proj : Node → α}
    (h : ∀ node valid, proj { node with layoutValid := valid } = proj node) :
    Same proj g (g.afterTrials id formats) := by
  unfold afterTrials
  split
  · exact .refl g
  · exact same_touched h

theorem alike_afterTrials {formats : List Format} : Alike g (g.afterTrials id formats) := by
  refine ⟨⟨?_, same_afterTrials fun _ _ => rfl⟩, same_afterTrials fun _ _ => rfl⟩
  unfold afterTrials
  split <;> rfl

theorem touched_afterTrials {formats : List Format} :
    (g.afterTrials id formats).touched id = g.touched id := by
  unfold afterTrials
  split
  · rfl
  · exact touched_touched

theorem afterTrials_afterTrials {formats tried : List Format} (hformats : formats ≠ []) :
    (g.afterTrials id tried).afterTrials id formats = g.touched id := by
  rw [afterTrials, if_neg hformats, touched_afterTrials]

/-- Trials do not show the ones before them. -/
theorem inFormat_afterTrials {formats : List Format} (format : Format) :
    (g.afterTrials id formats).inFormat id format = g.inFormat id format := by
  rw [inFormat, touched_afterTrials, fittingSlots_eq alike_afterTrials.content, inFormat]

/-- A capability of the mask takes the node as it is shown. -/
def isAccepted (g : Graph) (catalog : Catalog) (id : NodeId) (mask : KindMask) : Bool :=
  (g.view? id).any fun view => catalog.isSupported view mask view.shapeClass

theorem isAccepted_of_view {view : NodeView} (h : g.view? id = some view) (catalog : Catalog)
    (mask : KindMask) :
    g.isAccepted catalog id mask = catalog.isSupported view mask view.shapeClass := by
  rw [isAccepted, h, Option.any_some]

/-- The first of some formats in which the node is accepted. -/
def firstAccepted? (g : Graph) (catalog : Catalog) (id : NodeId) (mask : KindMask)
    (formats : List Format) : Option Format :=
  formats.find? fun format => (g.inFormat id format).isAccepted catalog id mask

theorem firstAccepted?_afterTrials {tried formats : List Format} (catalog : Catalog)
    (mask : KindMask) : (g.afterTrials id tried).firstAccepted? catalog id mask formats =
      g.firstAccepted? catalog id mask formats := by
  simp only [firstAccepted?, inFormat_afterTrials]

end Graph

namespace Reconciliation

/-- A search stops at the first format that is accepted, and all it leaves behind otherwise are
flags. -/
theorem search?_eq {catalog : Catalog} {id : NodeId} {mask : KindMask} (formats : List Format)
    {s : Reconciliation} (hg : s.graph.WellFormed) (hclass : s.graph.Classified) {node : Node}
    (hnode : s.graph.node? id = some node) :
    s.search? catalog id (.ofNode node) mask formats = some
      ((s.graph.firstAccepted? catalog id mask formats).elim
        (s.withGraph (s.graph.afterTrials id formats), false)
        fun format => ((s.withGraph (s.graph.inFormat id format)).changed, true)) := by
  induction formats generalizing s node with
  | nil => rfl
  | cons format rest ih =>
    have halike := Graph.alike_inFormat hnode format
    obtain ⟨_, hnode', _⟩ := halike.content.nodes.exists_new hnode
    obtain ⟨_, _, hview⟩ := (halike.wellFormed hg).exists_view hnode'
    unfold search?
    simp only [Graph.adoptFormat?_eq hg hclass hnode, hview, Graph.putBack?_eq hclass hnode,
      Option.bind_eq_bind, Option.bind_some, ← Graph.isAccepted_of_view hview]
    rw [Graph.firstAccepted?, List.find?_cons]
    split
    next haccepted =>
      rw [haccepted]
      rfl
    next hrefused =>
      have hrest := ih (s := s.withGraph (s.graph.touched id))
        (Graph.alike_touched.wellFormed hg) (Graph.alike_touched.classified hclass)
        (Graph.node?_touched_self hnode)
      have hsame : (s.graph.touched id).afterTrials id rest =
          s.graph.afterTrials id (format :: rest) := by
        rw [Graph.afterTrials, Graph.touched_touched, ite_self]
        rfl
      simp only [withGraph, Graph.firstAccepted?, Graph.touched_inFormat, hsame] at hrest
      rw [Bool.eq_false_iff.2 hrefused]
      exact hrest

end Reconciliation

end LayoutPlanner
