import LayoutPlanner.Proofs.Detours
import LayoutPlanner.Proofs.Idempotence
import Mathlib.Data.Set.Function

/-!
# Shared reorders

Slots that need the same conversion share a reorder: the run keeps a table of its reorders by what
they do.  But the table has one entry for a conversion.  A reorder that gets a new target takes the
entry of what it does now, whether or not another reorder does that already.  The other one is
forgotten, and from then on the conversion is done twice.

* `Feeds.forgotten`: a conversion of a slot makes the run forget at most one reorder, and only if
  the slot is fed by a reorder of the run already.
* `Charged`: every forgotten reorder is charged to the slot for which it was forgotten.
* No slot is charged twice for one conversion (`Tally`): the first time it gets what it wants, and
  it leaves that again only for less padding.
* Only a slot that is patched reads a reorder before the last repair of a visit, so only such slots
  are charged (`charged_of_turn`).
-/

namespace LayoutPlanner

/-- The node reads the source of the conversion and produces its target. -/
def Graph.Converts (g : Graph) (reorder : NodeId) (conversion : Conversion) : Prop :=
  ∃ node, g.node? reorder = some node ∧ node.deps = [conversion.source] ∧
    node.outputs = [conversion.target]

theorem Graph.Converts.of_bare {g g' : Graph} {reorder : NodeId} {conversion : Conversion}
    (h : g'.Converts reorder conversion)
    (hbare : (g'.node? reorder).map Node.bare = (g.node? reorder).map Node.bare) :
    g.Converts reorder conversion := by
  obtain ⟨node', hnode', hdeps, houtputs⟩ := h
  obtain ⟨node, hnode, heq⟩ := exists_of_map_eq hbare.symm hnode'
  refine ⟨node, hnode, ?_, ?_⟩
  · rw [Node.deps_of_bare heq, hdeps]
  · rw [Node.outputs_of_bare heq, houtputs]

/-- A node does one conversion at most. -/
theorem Graph.Converts.eq {g : Graph} {reorder : NodeId} {conversion : Conversion}
    (h : g.Converts reorder conversion) {node : Node} (hnode : g.node? reorder = some node)
    {source : Edge} {target : Layout} (hdeps : node.deps = [source])
    (houtputs : node.outputs = [target]) : conversion = ⟨source, target⟩ := by
  obtain ⟨_, hfound, hdeps', houtputs'⟩ := h
  obtain rfl := Option.some.inj (hnode.symm.trans hfound)
  obtain rfl : source = conversion.source := by simpa [hdeps] using hdeps'
  obtain rfl : target = conversion.target := by simpa [houtputs] using houtputs'
  rfl

namespace Reconciliation

variable {start : Graph} {cx : Context} {old : Node} {origin : Input} {id reorder : NodeId}
  {slot : Nat} {k : Conversion} {s s' : Reconciliation}

/-! ## The table of reorders -/

theorem reorderFor?_congr (h : s'.conversions = s.conversions) (conversion : Conversion) :
    s'.reorderFor? conversion = s.reorderFor? conversion := by
  rw [reorderFor?, h, reorderFor?]

@[simp]
theorem reorderFor?_learn_self (s : Reconciliation) (conversion : Conversion) (reorder : NodeId) :
    (s.learn conversion reorder).reorderFor? conversion = some reorder := by
  simp [learn, reorderFor?]

theorem reorderFor?_learn_ne {conversion : Conversion} (h : k ≠ conversion) :
    (s.learn conversion reorder).reorderFor? k = s.reorderFor? k := by
  have hsame : ∀ entry : Conversion × NodeId,
      decide ((entry.1 != conversion) = true ∧ (entry.1 == k) = true) = (entry.1 == k) := by
    intro entry
    by_cases hentry : entry.1 = k <;> simp [hentry, h]
  rw [reorderFor?, learn, List.find?_cons_of_neg (by simpa using Ne.symm h), List.find?_filter,
    funext hsame, reorderFor?]

/-- The entries of the other reorders stay. -/
theorem reorderFor?_unlearn_of_ne {other : NodeId} (h : s.reorderFor? k = some reorder)
    (hne : reorder ≠ other) : (s.unlearn other).reorderFor? k = some reorder := by
  obtain ⟨entry, hentry, rfl⟩ := Option.map_eq_some_iff.1 h
  obtain ⟨hkey, before, after, hsplit, hbefore⟩ := List.find?_eq_some_iff_append.1 hentry
  refine Option.map_eq_some_iff.2 ⟨entry, ?_, rfl⟩
  rw [unlearn, hsplit, List.find?_filter, List.find?_eq_some_iff_append]
  refine ⟨by simp [hkey, hne], before, after, rfl, fun found hfound => ?_⟩
  have hother : found.1 ≠ k := by simpa using hbefore found hfound
  simp [hother]

/-! ## Forgotten reorders -/

/-- A reorder of the run does the conversion, and the table does not say so. -/
def Forgotten (start : Graph) (k : Conversion) (s : Reconciliation) (reorder : NodeId) : Prop :=
  start.size ≤ reorder.index ∧ s.graph.Converts reorder k ∧ s.reorderFor? k ≠ some reorder

theorem Forgotten.ne (h : Forgotten start k s reorder) (hid : id.index < start.size) :
    reorder ≠ id := by
  rintro rfl
  exact absurd hid (Nat.not_lt.2 h.1)

theorem Forgotten.lt_size (h : Forgotten start k s reorder) : reorder.index < s.graph.size := by
  obtain ⟨_, ⟨_, hnode, _⟩, _⟩ := h
  exact Graph.lt_size_of_node? hnode

theorem Forgotten.of_localEdit (h : Forgotten start k s' reorder) (hid : id.index < start.size)
    (hedit : Graph.LocalEdit id s.graph s'.graph) (hconversions : s'.conversions = s.conversions) :
    Forgotten start k s reorder :=
  ⟨h.1, h.2.1.of_bare (hedit.others reorder (h.ne hid)), reorderFor?_congr hconversions k ▸ h.2.2⟩

/-- A conversion of a slot makes the run forget the reorder that the table has for it, if the slot
is fed by a reorder of the run, and no other reorder. -/
theorem Feeds.forgotten {edge : Edge} {target : Layout} (hs : Sound start s)
    (hid : id.index < start.size) (h : Feeds start id slot edge target s s')
    (hforgotten : Forgotten start k s' reorder) :
    Forgotten start k s reorder ∨ s.reorderFor? k = some reorder ∧ k = ⟨edge, target⟩ ∧
      ∃ other, s.graph.dep? id slot = some ⟨other, 0⟩ ∧ start.size ≤ other.index := by
  have hne := hforgotten.ne hid
  have hlt := hforgotten.lt_size
  obtain ⟨hle, hconverts, htable⟩ := hforgotten
  cases h with
  | @retarget other converter hcurrent hother hconverter hdeps _ _ hretargeted hconversions =>
    rw [reorderFor?_congr hconversions] at htable
    by_cases hself : reorder = other
    · subst hself
      obtain ⟨converter', hconverter', hbare⟩ := hretargeted.changed converter hconverter
      have hkey : k = ⟨edge, target⟩ := by
        refine hconverts.eq hconverter' ?_ ?_
        · rw [Node.deps_of_bare hbare, hdeps]
        · obtain ⟨_, _, _, _, _, houtputs, _⟩ := (hs.inserted hconverter hle).converts
          rw [Node.outputs_of_bare hbare, houtputs]
          rfl
      rw [hkey, reorderFor?_learn_self] at htable
      exact absurd rfl htable
    · have hconverts₀ := hconverts.of_bare (hretargeted.others reorder hself)
      by_cases hknown : s.reorderFor? k = some reorder
      swap
      · exact Or.inl ⟨hle, hconverts₀, hknown⟩
      by_cases hkey : k = ⟨edge, target⟩
      · exact Or.inr ⟨hknown, hkey, other, hcurrent, hother⟩
      · rw [reorderFor?_learn_ne hkey, reorderFor?_unlearn_of_ne hknown hself] at htable
        exact absurd rfl htable
  | @reuse s₁ _ _ hoff _ _ _ hrewired _ houtputs hconversions =>
    rw [houtputs.size_eq] at hlt
    refine Or.inl ⟨hle, (hconverts.of_bare (hrewired.others reorder hlt hne)).of_bare ?_, ?_⟩
    · exact hoff.bare_eq (hoff.size_eq ▸ hlt) hne
    · rwa [← reorderFor?_congr hconversions]
  | @create s₁ _ new _ hoff _ hunknown _ hrewired hsize _ hnew hdeps houtputs hconversions =>
    rw [reorderFor?_congr hconversions] at htable
    by_cases hself : reorder = ⟨s₁.graph.size⟩
    · subst hself
      rw [hconverts.eq hnew hdeps houtputs, reorderFor?_learn_self] at htable
      exact absurd rfl htable
    have hlt₁ : reorder.index < s₁.graph.size := by
      have hother : reorder.index ≠ s₁.graph.size := fun heq => hself (by rw [← heq])
      omega
    refine Or.inl ⟨hle, (hconverts.of_bare (hrewired.others reorder hlt₁ hne)).of_bare ?_, ?_⟩
    · exact hoff.bare_eq (hoff.size_eq ▸ hlt₁) hne
    · by_cases hkey : k = ⟨edge, target⟩
      · simp [hkey, hunknown]
      · rwa [reorderFor?_learn_ne hkey] at htable

/-! ## Charges -/

/-- Every forgotten reorder is charged to a slot among `slots`, and no two to the same one. -/
def Charged (start : Graph) (k : Conversion) (slots : Set (NodeId × Nat)) (s : Reconciliation) :
    Prop :=
  ∃ charge : NodeId → NodeId × Nat,
    Set.MapsTo charge {reorder | Forgotten start k s reorder} slots ∧
      Set.InjOn charge {reorder | Forgotten start k s reorder}

section

variable {slots slots' : Set (NodeId × Nat)}

theorem charged_start : Charged start k slots { graph := start } := by
  have hnone : ∀ reorder, ¬Forgotten start k { graph := start } reorder :=
    fun reorder h => absurd h.lt_size (Nat.not_lt.2 h.1)
  exact ⟨fun reorder => (reorder, 0), fun _ h => absurd h (hnone _), fun _ h => absurd h (hnone _)⟩

theorem Charged.mono (h : Charged start k slots s) (hsubset : slots ⊆ slots') :
    Charged start k slots' s := by
  obtain ⟨charge, hmaps, hinj⟩ := h
  exact ⟨charge, fun _ hforgotten => hsubset (hmaps hforgotten), hinj⟩

/-- Nothing more is forgotten. -/
theorem Charged.of_forgotten (h : Charged start k slots s)
    (hforgotten : ∀ {reorder}, Forgotten start k s' reorder → Forgotten start k s reorder) :
    Charged start k slots s' := by
  obtain ⟨charge, hmaps, hinj⟩ := h
  exact ⟨charge, fun _ h => hmaps (hforgotten h),
    fun _ h _ h' => hinj (hforgotten h) (hforgotten h')⟩

theorem Charged.localEdit (h : Charged start k slots s) (hid : id.index < start.size)
    (hedit : Graph.LocalEdit id s.graph s'.graph) (hconversions : s'.conversions = s.conversions) :
    Charged start k slots s' :=
  h.of_forgotten fun hforgotten => hforgotten.of_localEdit hid hedit hconversions

/-- The reorder that the table had is forgotten, and charged to a slot that has no charge yet. -/
theorem Charged.insert (h : Charged start k slots s) {entry : NodeId × Nat} (hfree : entry ∉ slots)
    (hforgotten : ∀ {reorder}, Forgotten start k s' reorder →
      Forgotten start k s reorder ∨ s.reorderFor? k = some reorder) :
    Charged start k (insert entry slots) s' := by
  obtain ⟨charge, hmaps, hinj⟩ := h
  have hbefore : ∀ {reorder}, Forgotten start k s' reorder → s.reorderFor? k ≠ some reorder →
      Forgotten start k s reorder := fun h hne => (hforgotten h).resolve_right hne
  refine ⟨fun reorder => if s.reorderFor? k = some reorder then entry else charge reorder, ?_, ?_⟩
  · intro reorder h
    dsimp only
    split
    next => exact Set.mem_insert _ _
    next hne => exact Set.mem_insert_of_mem _ (hmaps (hbefore h hne))
  · intro a ha b hb heq
    dsimp only at heq
    split at heq <;> split at heq
    next hfound hfound' => exact Option.some.inj (hfound.symm.trans hfound')
    next _ hne => exact absurd (heq ▸ hmaps (hbefore hb hne)) hfree
    next hne _ => exact absurd (heq ▸ hmaps (hbefore ha hne)) hfree
    next hne hne' => exact hinj (hbefore ha hne) (hbefore hb hne') heq

/-- Of several reorders that do one conversion, all but one are charged. -/
theorem Charged.exists_slots (h : Charged start k slots s) {reorders : List NodeId}
    (hnodup : reorders.Nodup)
    (hconverts : ∀ reorder ∈ reorders, start.size ≤ reorder.index ∧ s.graph.Converts reorder k) :
    ∃ found : List (NodeId × Nat), found.Nodup ∧ reorders.length ≤ found.length + 1 ∧
      ∀ entry ∈ found, entry ∈ slots := by
  obtain ⟨charge, hmaps, hinj⟩ := h
  let rest := reorders.filter fun reorder => s.reorderFor? k ≠ some reorder
  have hforgotten : ∀ reorder ∈ rest, Forgotten start k s reorder := by
    intro reorder hmem
    obtain ⟨hmem, htable⟩ := List.mem_filter.1 hmem
    obtain ⟨hle, hdoes⟩ := hconverts reorder hmem
    exact ⟨hle, hdoes, by simpa using htable⟩
  refine ⟨rest.map charge, ?_, ?_, ?_⟩
  · refine (hnodup.filter _).map_on fun a ha b hb heq => ?_
    exact hinj (hforgotten a ha) (hforgotten b hb) heq
  · have hsubset : reorders ⊆ (s.reorderFor? k).toList ++ rest := by
      intro reorder hmem
      by_cases htable : s.reorderFor? k = some reorder
      · simp [htable]
      · exact List.mem_append_right _ (List.mem_filter.2 ⟨hmem, by simpa using htable⟩)
    have hlength := (List.subperm_of_subset hnodup hsubset).length_le
    have hone : (s.reorderFor? k).toList.length ≤ 1 := by cases s.reorderFor? k <;> simp
    rw [List.length_append] at hlength
    rw [List.length_map]
    omega
  · intro entry hentry
    obtain ⟨reorder, hmem, rfl⟩ := List.mem_map.1 hentry
    exact hmaps (hforgotten reorder hmem)

end

/-! ## Loops over slots -/

/-- The repair demands the target of the conversion for a slot that is fed by a reorder of the run
already. -/
structure Redirects (start : Graph) (k : Conversion) (id : NodeId)
    (repair : Reconciliation → Repair) (s : Reconciliation) (slot : Nat) : Prop where
  source : start.dep? id slot = some k.source
  demand : ∃ node input demand, s.graph.node? id = some node ∧
    s.graph.input? id slot = some input ∧ s.isCreated input.producer.id = true ∧
    repair s node input = some demand ∧ demand.target = k.target

/-- The slots that a loop charges. -/
def redirected (start : Graph) (k : Conversion) (id : NodeId) (repair : Reconciliation → Repair)
    (s : Reconciliation) (slots : List Nat) : Set (NodeId × Nat) :=
  {entry | entry.1 = id ∧ entry.2 ∈ slots ∧ Redirects start k id repair s entry.2}

section

variable {used : Set (NodeId × Nat)} {node : Node} {repair : Reconciliation → Repair}
  {slots : List Nat}

theorem Loop.charged (h : Loop id node repair slots s) (hstart : start.WellFormed)
    (hs : Sound start s) (hid : id.index < start.size) (hcharged : Charged start k used s)
    (hfree : ∀ {slot}, Redirects start k id repair s slot → (id, slot) ∉ used)
    (hrun : slots.foldlM (repairSlot? id repair) s = some s') :
    Charged start k (used ∪ redirected start k id repair s slots) s' := by
  have hmore : ∀ {done : List Nat} {slot : Nat}, redirected start k id repair s done ⊆
      redirected start k id repair s (done ++ [slot]) :=
    fun hentry => ⟨hentry.1, List.mem_append_left _ hentry.2.1, hentry.2.2⟩
  refine ((repairSlots_induct hstart h.lawful hs hid h.at_id h.bound
    (fun done => Charged start k (used ∪ redirected start k id repair s done)) ?_ ?_ ?_).post_of_eq
    hrun).2
  · exact hcharged.mono Set.subset_union_left
  · exact fun hcharged₁ => hcharged₁.mono (Set.union_subset_union_right _ hmore)
  · intro done slot s₁ s₂ node₁ input input₁ demand _ hfresh hs₁ hcharged₁ _ _ hinput hinput₁ hface
      hdemand _ hconvert
    obtain ⟨edge, hedge, _, hfeeds⟩ := (serves_of_convert? hconvert).feeds hstart hs₁ hid
    by_cases hredirects : Redirects start k id repair s slot
    · have hfree₁ : (id, slot) ∉ used ∪ redirected start k id repair s done := by
        rintro (hused | ⟨_, hdone, _⟩)
        · exact hfree hredirects hused
        · exact hfresh hdone
      refine (hcharged₁.insert hfree₁ fun hforgotten => ?_).mono ?_
      · exact (hfeeds.forgotten hs₁ hid hforgotten).imp_right And.left
      · refine Set.insert_subset (Or.inr ⟨rfl, ?_, hredirects⟩)
          (Set.union_subset_union_right _ hmore)
        exact List.mem_append_right _ (List.mem_singleton_self slot)
    · refine (hcharged₁.of_forgotten fun hforgotten => ?_).mono
        (Set.union_subset_union_right _ hmore)
      refine (hfeeds.forgotten hs₁ hid hforgotten).resolve_right ?_
      rintro ⟨_, rfl, other, hcurrent, hle⟩
      refine hredirects ⟨hedge, node, input, demand, h.at_id, hinput, ?_, hdemand, rfl⟩
      have hother : input.edge = ⟨other, 0⟩ := by
        obtain ⟨_, hnode₁, hget, _⟩ := Graph.input?_eq_some_iff.1 hinput₁
        have heq : input₁.edge = input.edge := congrArg (·.2.1) hface
        rw [← heq]
        exact Option.some.inj ((Graph.dep?_eq_some_iff.2 ⟨_, hnode₁, hget⟩).symm.trans hcurrent)
      rw [hs.isCreated_producer_iff hinput, hs.wellFormed.producer_id hinput, hother]
      exact hle

end

/-! ## No slot is charged twice -/

/-- The slot has the target of the conversion, or has been stripped of some of its padding. -/
def Spent (start : Graph) (k : Conversion) (id : NodeId) (slot : Nat) (s : Reconciliation) : Prop :=
  ∃ input target, Delivered start slot target s.graph id input ∧
    (target = k.target ∨ Padding.Stripped k.target.padding target.padding)

end Reconciliation

/-- In front of a reorder of the run, the repair demands a change, but no more padding. -/
def Repair.Narrows (repair : Reconciliation → Repair) : Prop :=
  ∀ (s : Reconciliation) (node : Node) (input : Input) (demand : Demand),
    s.isCreated input.producer.id = true → repair s node input = some demand →
    demand.target ≠ input.layout ∧ ∀ axis, demand.target.padding.isPaddedAt axis = true →
      input.layout.padding.isPaddedAt axis = true

/-- The repair strips padding. -/
def Repair.Strips (repair : Reconciliation → Repair) : Prop :=
  ∀ (s : Reconciliation) (node : Node) (input : Input) (demand : Demand),
    repair s node input = some demand → ∃ keep,
      demand.target.padding = input.layout.padding.restrict keep ∧
        Padding.Stripped input.layout.padding demand.target.padding

namespace Repair

theorem Strips.narrows {repair : Reconciliation → Repair} (h : Strips repair) :
    Narrows repair := by
  intro s node input demand _ hdemand
  obtain ⟨keep, hpadding, hstripped⟩ := h _ _ _ _ hdemand
  refine ⟨fun heq => hstripped.ne (congrArg Layout.padding heq), fun axis hpadded => ?_⟩
  rw [hpadding, Padding.isPaddedAt_restrict, Bool.and_eq_true] at hpadded
  exact hpadded.2

theorem strips_normalizationPadding (output : Layout) :
    Strips fun _ => normalizationPadding output := by
  intro s node input demand hdemand
  obtain ⟨hspatial, hpadding⟩ := padding_of_normalizationPadding hdemand
  exact ⟨_, hpadding, hpadding ▸ Padding.stripped_dropSpatial hspatial⟩

theorem strips_vendorPadding : Strips fun _ => vendorPadding := by
  intro s node input demand hdemand
  obtain ⟨_, hpadded, hpadding⟩ := padding_of_vendorPadding hdemand
  exact ⟨_, hpadding, hpadding ▸ Padding.stripped_onlyFeature hpadded⟩

theorem narrows_agreement : Narrows fun s => agreement s.isCreated := by
  intro s node input demand hcreated hdemand
  obtain ⟨_, hwanted, htarget⟩ := of_agreement hdemand
  rw [htarget, if_pos hcreated]
  exact ⟨fun heq => hwanted ⟨congrArg Layout.format heq, congrArg Layout.dtype heq⟩,
    fun axis hpadded => hpadded⟩

end Repair

namespace Reconciliation

variable {start : Graph} {cx : Context} {old : Node} {origin : Input} {id reorder : NodeId}
  {slot : Nat} {k : Conversion} {s s' : Reconciliation} {used : Set (NodeId × Nat)} {node : Node}
  {repair : Reconciliation → Repair} {slots : List Nat}

theorem Spent.not_redirects (h : Spent start k id slot s) (hnarrows : Repair.Narrows repair) :
    ¬Redirects start k id repair s slot := by
  intro hredirects
  obtain ⟨input, target, hdelivered, hspent⟩ := h
  obtain ⟨_, found, demand, _, hinput, hcreated, hdemand, htarget⟩ := hredirects.demand
  obtain rfl := Option.some.inj (hdelivered.at_slot.symm.trans hinput)
  obtain ⟨hchange, hpadding⟩ := hnarrows _ _ _ _ hcreated hdemand
  rw [htarget, hdelivered.layout_eq] at hchange hpadding
  rcases hspent with rfl | ⟨axis, hpadded, hclean⟩
  · exact hchange rfl
  · rw [hpadding axis hpadded] at hclean
    cases hclean

/-- A slot that a loop charges gets the target of the conversion. -/
theorem Redirects.spent (h : Redirects start k id repair s slot) (hmem : slot ∈ slots)
    (hrepaired : Repaired start id repair slots s s') : Spent start k id slot s' := by
  obtain ⟨node, input, demand, hnode, hinput, _, hdemand, htarget⟩ := h.demand
  rcases hrepaired.done hmem hnode hinput with ⟨hnone, _⟩ | ⟨_, input', hfound, hdelivered⟩
  · rw [hdemand] at hnone
    cases hnone
  · obtain rfl := Option.some.inj (hdemand.symm.trans hfound)
    exact ⟨input', _, hdelivered, Or.inl htarget⟩

theorem Spent.of_face (h : Spent start k id slot s) (hs' : Sound start s')
    (hsame : (s'.graph.input? id slot).map Input.face = (s.graph.input? id slot).map Input.face) :
    Spent start k id slot s' := by
  obtain ⟨input, target, hdelivered, hspent⟩ := h
  obtain ⟨input', hinput', hface⟩ := exists_of_map_eq hsame hdelivered.at_slot
  exact ⟨input', target, hdelivered.of_face hs' hinput' hface, hspent⟩

theorem Spent.repaired (h : Spent start k id slot s) (hnode : s.graph.node? id = some node)
    (hstrips : Repair.Strips repair) (hrepaired : Repaired start id repair slots s s') :
    Spent start k id slot s' := by
  by_cases hmem : slot ∈ slots
  swap
  · exact h.of_face hrepaired.served.sound (hrepaired.untouched hmem)
  have hspent := h
  obtain ⟨input, target, hdelivered, hwhy⟩ := h
  rcases hrepaired.done hmem hnode hdelivered.at_slot with
    ⟨_, hface⟩ | ⟨demand, input', hdemand, hdelivered'⟩
  · refine hspent.of_face hrepaired.served.sound ?_
    rw [hface, hdelivered.at_slot, Option.map_some]
  · obtain ⟨keep, hpadding, hstripped⟩ := hstrips _ _ _ _ hdemand
    rw [hdelivered.layout_eq] at hpadding hstripped
    refine ⟨input', _, hdelivered', Or.inr ?_⟩
    rcases hwhy with rfl | hstripped₀
    · exact hstripped
    · rw [hpadding]
      exact hstripped₀.restrict keep

end Reconciliation

/-! ## Patched slots -/

/-- One of the repairs that come before the search for a legal layout applies to the slot, which
reads the edge. -/
def Graph.PatchedAt (g : Graph) (cx : Context) (edge : Edge) (id : NodeId) (slot : Nat) : Prop :=
  ∃ node input, g.node? id = some node ∧ g.input? id slot = some input ∧ input.edge = edge ∧
    Reconciliation.Patched cx node input

namespace Reconciliation

variable {start : Graph} {cx : Context} {old : Node} {origin : Input} {id : NodeId}
  {slot : Nat} {k : Conversion} {s s' : Reconciliation} {used : Set (NodeId × Nat)} {node : Node}
  {repair : Reconciliation → Repair} {slots : List Nat}

/-- The formats do not count. -/
theorem Patched.congr {input input' : Input} (h : Patched cx node input)
    (hslot : input'.slot = input.slot)
    (hmeaning : input'.producer.meaning = input.producer.meaning)
    (hlayout : input'.layout.withFormat .any = input.layout.withFormat .any) :
    Patched cx node input' := by
  have hdtype : input'.layout.dtype = input.layout.dtype := (congrArg Layout.dtype hlayout :)
  have hpadding : input'.layout.padding = input.layout.padding :=
    (congrArg Layout.padding hlayout :)
  have hreal : input'.isReal = input.isReal := by
    rw [Input.isReal, Input.isReal, Node.isConstant_congr (Node.op_of_meaning hmeaning)]
  have hsurface : input'.producer.isSharedSurface = input.producer.isSharedSurface :=
    Node.isSharedSurface_congr (Node.attrs_of_meaning hmeaning)
  cases h with
  | state h =>
    refine .state (Eq.trans ?_ h)
    rw [hslot, Node.storedType?_congr rfl _ hdtype]
  | operand hoptimize hmem hconstant =>
    exact .operand hoptimize (hslot ▸ hmem) (hreal.trans hconstant)
  | normalization hop hisReal hpadded =>
    exact .normalization hop (hreal.trans hisReal) (hpadding ▸ hpadded)
  | vendor hkind hisReal hplain hpadded =>
    exact .vendor hkind (hreal.trans hisReal) (hsurface.trans hplain) (hpadding ▸ hpadded)

/-- What a slot read when the visit of its node began is what it read at the start, up to
formats. -/
theorem Patched.at_start (h : Patched cx old origin) (hstart : start.WellFormed)
    (hs : Sound start s) (hold : start.node? id = some old)
    (horigin : s.graph.input? id slot = some origin)
    (hedge : start.dep? id slot = some origin.edge) :
    start.PatchedAt cx origin.edge id slot := by
  obtain ⟨_, hfound, hget⟩ := Graph.dep?_eq_some_iff.1 hedge
  obtain rfl := Option.some.inj (hold.symm.trans hfound)
  obtain ⟨input, hinput⟩ := hstart.exists_input hold (List.getElem?_eq_some_iff.1 hget).1
  obtain ⟨_, hfound, hdep, hslot, hproducer, hlayout⟩ := Graph.input?_eq_some_iff.1 hinput
  obtain rfl := Option.some.inj (hold.symm.trans hfound)
  have hsource : input.edge = origin.edge := Option.some.inj (hdep.symm.trans hget)
  obtain ⟨_, _, _, hslot', hproducer', hlayout'⟩ := Graph.input?_eq_some_iff.1 horigin
  rw [hsource] at hproducer hlayout
  obtain ⟨producer, hfound, hmeaning, _⟩ := hs.kept hproducer
  obtain rfl := Option.some.inj (hproducer'.symm.trans hfound)
  refine ⟨old, input, hold, hinput, hsource,
    h.congr (hslot.trans hslot'.symm) hmeaning.symm ?_⟩
  have heq := Node.output_of_meaning hmeaning origin.edge.output
  rw [hlayout, hlayout', Option.map_some, Option.map_some, Option.some.injEq] at heq
  exact heq.symm

/-- Only a slot on a detour is fed by a reorder of the run. -/
theorem Standing.patchedAt (h : Standing start cx old origin id slot s') (hstart : start.WellFormed)
    (hs : Sound start s) (hs' : Sound start s') (hold : start.node? id = some old)
    (horigin : s.graph.input? id slot = some origin) {edge : Edge} (hsource : origin.edge = edge)
    (hedge : start.dep? id slot = some edge) {input : Input}
    (hinput : s'.graph.input? id slot = some input)
    (hcreated : s'.isCreated input.producer.id = true) : start.PatchedAt cx edge id slot := by
  subst hsource
  suffices hpatched : Patched cx old origin from
    hpatched.at_start hstart hs hold horigin hedge
  cases h with
  | direct hfound hface =>
    obtain rfl := Option.some.inj (hinput.symm.trans hfound)
    have heq : input.edge = origin.edge := congrArg (·.2.1) hface
    rw [hs'.isCreated_producer_iff hinput, hs'.wellFormed.producer_id hinput, heq] at hcreated
    exact absurd (hs.exists_layout hstart hedge).1 (Nat.not_lt.2 hcreated)
  | detour _ hdetour => exact hdetour.patched

/-! ## Visits and runs -/

/-- Whatever reads the source of the conversion through a reorder of the run is patched. -/
def Watched (start : Graph) (cx : Context) (k : Conversion) (id : NodeId) (s : Reconciliation) :
    Prop :=
  ∀ slot input, start.dep? id slot = some k.source → s.graph.input? id slot = some input →
    s.isCreated input.producer.id = true → start.PatchedAt cx k.source id slot

/-- The slots of a node that read the source of the conversion and are patched. -/
def patchedSlots (start : Graph) (cx : Context) (k : Conversion) (id : NodeId) :
    Set (NodeId × Nat) :=
  {entry | entry.1 = id ∧ start.PatchedAt cx k.source id entry.2}

/-- The charges in the course of the visit of `id`, up to the search for a legal layout.  Those
slots of `id` that are charged already will not be charged again. -/
def Tally (start : Graph) (cx : Context) (k : Conversion) (id : NodeId) (used : Set (NodeId × Nat))
    (s : Reconciliation) : Prop :=
  ∃ own ⊆ patchedSlots start cx k id, Charged start k (used ∪ own) s ∧
    ∀ entry ∈ own, Spent start k id entry.2 s

theorem Tally.charged (h : Tally start cx k id used s) :
    Charged start k (used ∪ patchedSlots start cx k id) s := by
  obtain ⟨own, hpatched, hcharged, _⟩ := h
  exact hcharged.mono (Set.union_subset_union_right _ hpatched)

theorem Charged.tally (h : Charged start k used s) : Tally start cx k id used s :=
  ⟨∅, Set.empty_subset _, by rwa [Set.union_empty], fun _ hmem => absurd hmem (Set.notMem_empty _)⟩

/-- The search for a legal layout. -/
theorem Tally.legalized (h : Tally start cx k id used s) (hstart : start.Ordered)
    (hs : Sound start s) (hid : id.index < start.size) (hlegalized : Legalized cx id s s') :
    Tally start cx k id used s' := by
  obtain ⟨own, hpatched, hcharged, hspent⟩ := h
  refine ⟨own, hpatched, hcharged.localEdit hid hlegalized.edit hlegalized.conversions_eq, ?_⟩
  intro entry hmem
  exact (hspent entry hmem).of_face (hlegalized.framed hs hid).sound
    (hs.input?_face_eq hstart hid hlegalized.edit entry.2)

/-- What a loop charges is patched. -/
theorem redirected_subset (hwatched : Watched start cx k id s) :
    redirected start k id repair s slots ⊆ patchedSlots start cx k id := by
  rintro entry ⟨hself, _, hredirects⟩
  obtain ⟨_, _, _, _, hinput, hcreated, _⟩ := hredirects.demand
  exact ⟨hself, hwatched _ _ hredirects.source hinput hcreated⟩

section

variable (hstart : start.WellFormed) (hs : Sound start s) (hid : id.index < start.size)
  (hused : ∀ entry ∈ used, entry.1 ≠ id)

include hstart hs hid hused

/-- The slots of the node that a loop charges have no charge yet. -/
theorem Loop.charged_of_spent (hloop : Loop id node repair slots s) {own : Set (NodeId × Nat)}
    (hcharged : Charged start k (used ∪ own) s) (hspent : ∀ entry ∈ own, Spent start k id entry.2 s)
    (hnarrows : Repair.Narrows repair) (hrun : slots.foldlM (repairSlot? id repair) s = some s') :
    Charged start k (used ∪ (own ∪ redirected start k id repair s slots)) s' := by
  rw [← Set.union_assoc]
  refine hloop.charged hstart hs hid hcharged (fun hredirects => ?_) hrun
  rintro (hmem | hmem)
  · exact hused _ hmem rfl
  · exact (hspent _ hmem).not_redirects hnarrows hredirects

variable (hwatched : Watched start cx k id s)

include hwatched

theorem Tally.repaired (h : Tally start cx k id used s) (hloop : Loop id node repair slots s)
    (hstrips : Repair.Strips repair) (hrun : slots.foldlM (repairSlot? id repair) s = some s') :
    Tally start cx k id used s' := by
  obtain ⟨own, hpatched, hcharged, hspent⟩ := h
  obtain ⟨hrepaired, _⟩ := (hloop.spec hstart hs hid).post_of_eq hrun
  refine ⟨own ∪ redirected start k id repair s slots,
    Set.union_subset hpatched (redirected_subset hwatched),
    hloop.charged_of_spent hstart hs hid hused hcharged hspent hstrips.narrows hrun, ?_⟩
  rintro entry (hmem | ⟨_, hmem, hredirects⟩)
  · exact (hspent entry hmem).repaired hloop.at_id hstrips hrepaired
  · exact hredirects.spent hmem hrepaired

theorem Tally.normalization (h : Tally start cx k id used s)
    (hrun : s.unpadNormalization? id = some s') : Tally start cx k id used s' := by
  obtain ⟨node, hnode⟩ := Graph.exists_node (Nat.lt_of_lt_of_le hid hs.grown)
  rcases normalization_cases hnode hrun with
    ⟨_, rfl⟩ | ⟨hop, slots, output, hslots, houtput, hrun⟩
  · exact h
  · exact h.repaired hstart hs hid hused hwatched
      (loop_normalization hnode hs.wellFormed hslots hop houtput)
      (Repair.strips_normalizationPadding output) hrun

theorem Tally.vendor (h : Tally start cx k id used s) (hrun : s.unpadVendor? id = some s') :
    Tally start cx k id used s' := by
  obtain ⟨node, hnode⟩ := Graph.exists_node (Nat.lt_of_lt_of_le hid hs.grown)
  rcases vendor_cases hnode hrun with ⟨_, rfl⟩ | ⟨hkind, slots, hslots, hrun⟩
  · exact h
  · exact h.repaired hstart hs hid hused hwatched
      (loop_vendor hnode hs.wellFormed hslots hkind) Repair.strips_vendorPadding hrun

/-- The last repair of a visit. -/
theorem Tally.agreement (h : Tally start cx k id used s) (hrun : s.reconcile? id = some s') :
    Charged start k (used ∪ patchedSlots start cx k id) s' := by
  obtain ⟨own, hpatched, hcharged, hspent⟩ := h
  obtain ⟨node, hnode⟩ := Graph.exists_node (Nat.lt_of_lt_of_le hid hs.grown)
  obtain ⟨slots, hslots, hrun⟩ := Option.bind_eq_some_iff.1 hrun
  have hloop := loop_agreement hnode hs.wellFormed hslots
  refine (hloop.charged_of_spent hstart hs hid hused hcharged hspent Repair.narrows_agreement
    hrun).mono ?_
  exact Set.union_subset_union_right _ (Set.union_subset hpatched (redirected_subset hwatched))

end

section Stages

/-- The first repair finds its slot as it was, so that it forgets nothing. -/
theorem charged_of_convertState? (hstart : start.WellFormed) (hs : Sound start s)
    (hid : id.index < start.size) (hnode : s.graph.node? id = some node)
    (hdirect : ∀ {edge}, s.graph.dep? id 0 = some edge → edge.node.index < start.size)
    (hcharged : Charged start k used s) (h : s.convertState? id = some s') :
    Charged start k used s' := by
  cases stateRepair_of_convertState? hnode h with
  | rests => exact hcharged
  | @converts input demand s₁ g₂ g₃ hinput hdemand hconvert hinvalidate hsettle =>
    have hconverted := (convert?_spec hstart hs hid hinput
      (Repair.lawful_stateType.shape_eq (s := s) hdemand) _).post_of_eq hconvert
    obtain ⟨edge, _, _, hfeeds⟩ := (serves_of_convert? hconvert).feeds hstart hs hid
    have hcharged₁ : Charged start k used s₁ := by
      refine hcharged.of_forgotten fun hforgotten => ?_
      refine (hfeeds.forgotten hs hid hforgotten).resolve_right ?_
      rintro ⟨_, _, other, hcurrent, hle⟩
      exact absurd (hdirect hcurrent) (Nat.not_lt.2 hle)
    obtain ⟨_, hnode₁, _⟩ := hconverted.core_eq hnode
    exact hcharged₁.localEdit hid
      (localEdit_of_resettle hconverted.sound.wellFormed hnode₁ hinvalidate hsettle) rfl

/-- The repair of constant operands does not touch slots that are fed by a reorder. -/
theorem charged_of_operands (hstart : start.WellFormed) (hs : Sound start s)
    (hid : id.index < start.size) (hnode : s.graph.node? id = some node)
    (hcharged : Charged start k used s)
    (h : (if cx.config.optimizeLayout then s.reorderOperands? id else some s) = some s') :
    Charged start k used s' := by
  rcases operands_cases hnode h with ⟨_, rfl⟩ | ⟨_, output, houtput, hrun⟩
  · exact hcharged
  have hnone : ∀ {slot}, ¬Redirects start k id (fun _ => Repair.fusedConstant output) s slot := by
    intro slot hredirects
    obtain ⟨_, input, _, _, hinput, hcreated, hdemand, _⟩ := hredirects.demand
    obtain ⟨_, _, _, _, hproducer, _⟩ := Graph.input?_eq_some_iff.1 hinput
    rw [hs.isCreated_producer_iff hinput, hs.wellFormed.producer_id hinput] at hcreated
    have hinserted := hs.inserted hproducer hcreated
    simp [Repair.fusedConstant, Input.isReal, Node.isConstant, hinserted.op_eq] at hdemand
  refine ((loop_operands hnode houtput).charged hstart hs hid hcharged
    (fun hredirects => absurd hredirects hnone) hrun).mono ?_
  rintro entry (hmem | ⟨_, _, hredirects⟩)
  · exact hmem
  · exact absurd hredirects hnone

variable {s₁ s₂ s₃ s₄ s₅ s₆ : Reconciliation}

/-- Before the last repair, a slot that is fed by a reorder of the run is a patched one. -/
theorem Stages.watched (k : Conversion) (hstart : start.Ordered) (hs : Sound start s)
    (hold : start.node? id = some old) (hfresh : (s.graph.node? id).map Node.bare = some old.bare)
    (h : Stages cx id s s₁ s₂ s₃ s₄ s₅ s₆ s') :
    Watched start cx k id s₃ ∧ Watched start cx k id s₄ ∧ Watched start cx k id s₆ := by
  refine ⟨fun _ _ hedge => ?_, fun _ _ hedge => ?_, fun _ _ hedge => ?_⟩ <;>
    obtain ⟨origin, hs₁, horigin, hsource, _, h₃, h₄, _, hs₆, h₆⟩ :=
      h.underway hstart hs hold hfresh hedge
  · exact h₃.standing.patchedAt hstart.wellFormed hs₁ h₃.sound hold horigin hsource hedge
  · exact h₄.standing.patchedAt hstart.wellFormed hs₁ h₄.sound hold horigin hsource hedge
  · exact h₆.patchedAt hstart.wellFormed hs₁ hs₆ hold horigin hsource hedge

/-- A visit charges patched slots of its node only, and each of them once. -/
theorem charged_of_turn (hstart : start.Ordered) (hs : Sound start s)
    (hold : start.node? id = some old) (hdeps : old.deps ≠ [])
    (hfresh : (s.graph.node? id).map Node.bare = some old.bare)
    (hturn : s.repairNode? cx id = some s') (hused : ∀ entry ∈ used, entry.1 ≠ id)
    (hcharged : Charged start k used s) :
    Charged start k (used ∪ patchedSlots start cx k id) s' := by
  have hwf := hstart.wellFormed
  have hid := Graph.lt_size_of_node? hold
  obtain ⟨edge, hget⟩ : ∃ edge, old.deps[0]? = some edge :=
    ⟨_, List.getElem?_eq_getElem (List.length_pos_iff.2 hdeps)⟩
  have hedge : start.dep? id 0 = some edge := Graph.dep?_eq_some_iff.2 ⟨old, hold, hget⟩
  obtain ⟨s₁, s₂, s₃, s₄, s₅, s₆, hstages⟩ := exists_stages hturn
  obtain ⟨hwatched₃, hwatched₄, hwatched₆⟩ := hstages.watched k hstart hs hold hfresh
  obtain ⟨origin, hs₁, horigin, rfl, h₂, h₃, h₄, h₅, hs₆, _⟩ :=
    hstages.underway hstart hs hold hfresh hedge
  have hcharged₁ : Charged start k used s₁ := by
    obtain ⟨before, hbefore, _⟩ := Option.map_eq_some_iff.1 hfresh
    obtain ⟨g, hsettle, rfl⟩ := hstages.settled
    obtain ⟨hedit, _⟩ := (Graph.settle?_spec hs.wellFormed hbefore).post_of_eq hsettle
    exact hcharged.localEdit hid hedit rfl
  have hcharged₂ : Charged start k used s₂ := by
    obtain ⟨node₁, hnode₁, hget₁, _⟩ := Graph.input?_eq_some_iff.1 horigin
    refine charged_of_convertState? hwf hs₁ hid hnode₁ (fun hcurrent => ?_) hcharged₁ hstages.state
    rw [Graph.dep?_eq_some_iff.2 ⟨node₁, hnode₁, hget₁⟩, Option.some.injEq] at hcurrent
    exact hcurrent ▸ (hs₁.exists_layout hwf hedge).1
  obtain ⟨node₂, hnode₂, _⟩ := h₂.node
  have htally₃ : Tally start cx k id used s₃ :=
    (charged_of_operands hwf h₂.sound hid hnode₂ hcharged₂ hstages.operands).tally
  have htally₄ := htally₃.normalization hwf h₃.sound hid hused hwatched₃ hstages.normalization
  have htally₅ := htally₄.vendor hwf h₄.sound hid hused hwatched₄ hstages.vendor
  obtain ⟨node₅, hnode₅, _⟩ := h₅.node
  have htally₆ := htally₅.legalized hstart h₅.sound hid
    ((legalize?_spec cx h₅.sound.wellFormed hnode₅).post_of_eq hstages.legal)
  have hagreement := hstages.agreement
  split at hagreement
  next =>
    cases hagreement
    exact htally₆.charged
  next => exact htally₆.agreement hwf hs₆ hid hused hwatched₆ hagreement

end Stages

/-- Only patched slots are charged in a run, and each of them once for one conversion. -/
theorem charged_of_run (hstart : start.Ordered) (k : Conversion) :
    Yields (start.order.foldlM (visit? cx) { graph := start }) fun s => Sound start s ∧
      Charged start k {entry | start.PatchedAt cx k.source entry.1 entry.2} s := by
  refine (run?_fresh hstart (fun count s => Charged start k {entry | entry.1.index < count ∧
    start.PatchedAt cx k.source entry.1 entry.2} s) charged_start ?_ ?_).mono ?_
  · intro count s _ hcharged _
    exact hcharged.mono fun _ hentry => ⟨Nat.lt_succ_of_lt hentry.1, hentry.2⟩
  · intro count s s' old before after hs hcharged _ hold hdeps _ hfresh hturn _
    refine (charged_of_turn hstart hs hold hdeps hfresh hturn ?_ hcharged).mono ?_
    · rintro ⟨_, slot⟩ ⟨hlt, _⟩ rfl
      exact Nat.lt_irrefl _ hlt
    · rintro ⟨_, slot⟩ (⟨hlt, hpatched⟩ | ⟨rfl, hpatched⟩)
      · exact ⟨Nat.lt_succ_of_lt hlt, hpatched⟩
      · exact ⟨Nat.lt_succ_self count, hpatched⟩
  · exact fun s h => ⟨h.1, h.2.mono fun _ hentry => hentry.2⟩

end Reconciliation

/-- However propagation and agreement end, a conversion is done by at most one reorder more than
there are patched slots on its source.  So one reorder does it if no slot there is patched. -/
theorem length_reorders_le {decls : List NodeDecl} {g : Graph}
    (hbuild : Graph.build? decls = some (.ok g)) {cx : Context} {swept agreed : Outcome}
    (hswept : Propagation.run? cx g = some swept)
    (hagreed : Reconciliation.run? cx swept.graph = some agreed) {conversion : Conversion}
    {reorders : List NodeId} (hnodup : reorders.Nodup)
    (hconverts : ∀ reorder ∈ reorders, g.size ≤ reorder.index ∧
      agreed.graph.Converts reorder conversion) :
    ∃ slots : List (NodeId × Nat), slots.Nodup ∧ reorders.length ≤ slots.length + 1 ∧
      ∀ entry ∈ slots, swept.graph.PatchedAt cx conversion.source entry.1 entry.2 := by
  have hfresh := Graph.fresh_of_build hbuild
  obtain ⟨_, s₁, _, hgraph₁, hsame⟩ :=
    (Propagation.run?_spec cx hfresh.toOrdered).post_of_eq hswept
  rw [hgraph₁] at hagreed ⊢
  have hordered := hfresh.toOrdered.of_sameContent hsame
  obtain ⟨s, hfold, _, hgraph, _⟩ := (Reconciliation.run?_spec cx hordered).post_of_eq hagreed
  obtain ⟨_, hcharged⟩ := (Reconciliation.charged_of_run hordered conversion).post_of_eq hfold
  refine hcharged.exists_slots hnodup fun reorder hmem => ?_
  rw [← hgraph, hsame.nodes.size_eq]
  exact hconverts reorder hmem

/-- States come out transposed. -/
def transposedStates : Catalog where
  registrations := [(.stateWrite, emits .yxfb)]

/-- One input that is stored as two states, in another type than it comes in. -/
def twinStates : List NodeDecl :=
  let shape : Shape := .ofExtents [1, 16, 8, 8]
  let state (name : String) : NodeDecl :=
    { name, op := .stateWrite, inputs := [⟨⟨0⟩, 0⟩], outputs := [⟨shape, .f16, .any, {}⟩]
      attrs := .stateWrite name .f16 }
  [{ name := "data", op := .input, outputs := [⟨shape, .f32, .bfyx, {}⟩] }, state "first",
    state "second"]

/-- What both states need of the input. -/
def twinConversion : Conversion :=
  ⟨⟨⟨0⟩, 0⟩, ⟨.ofExtents [1, 16, 8, 8], .f16, .yxfb, {}⟩⟩

/-- Each state has its input converted to its type first, and then turns to another format.  By then
the second one has a reorder of its own. -/
theorem length_reorders_twinStates : ∃ g swept agreed, Graph.build? twinStates = some (.ok g) ∧
    Propagation.run? { catalog := transposedStates } g = some swept ∧
    Reconciliation.run? { catalog := transposedStates } swept.graph = some agreed ∧
    ∃ slots : List (NodeId × Nat), slots.Nodup ∧ 2 ≤ slots.length + 1 ∧
      ∀ entry ∈ slots, swept.graph.PatchedAt { catalog := transposedStates } twinConversion.source
        entry.1 entry.2 :=
  ⟨_, _, _, rfl, rfl, rfl, @length_reorders_le twinStates _ rfl { catalog := transposedStates } _ _
    rfl rfl twinConversion [⟨3⟩, ⟨4⟩] (by decide) <| List.forall_mem_cons.2
      ⟨⟨by decide, _, rfl, rfl, rfl⟩, List.forall_mem_singleton.2 ⟨by decide, _, rfl, rfl, rfl⟩⟩⟩

/-- Two reorders do the same. -/
theorem twinStates_not_shared : ∃ g swept agreed report,
    Graph.build? twinStates = some (.ok g) ∧
    Propagation.run? { catalog := transposedStates } g = some swept ∧
    Reconciliation.run? { catalog := transposedStates } swept.graph = some agreed ∧
    agreed.result = .ok report ∧ g.size ≤ 3 ∧ agreed.graph.Converts ⟨3⟩ twinConversion ∧
    agreed.graph.Converts ⟨4⟩ twinConversion :=
  ⟨_, _, _, _, rfl, rfl, rfl, rfl, by decide, ⟨_, rfl, rfl, rfl⟩, ⟨_, rfl, rfl, rfl⟩⟩

end LayoutPlanner
