import LayoutPlanner.Proofs.RestingVisits
import LayoutPlanner.Proofs.SteadyClasses

/-!
# Turns

A visit can be looked at in the middle: a run of edge agreement has come to a node, and some of the
stages of its visit are over.

* `Graph.Reached`: the graphs that a run can start with.  Planning may have been at them before.
* `Turn`: a run has come to a node that it is going to repair.
* From there the visit goes through all of its stages, and up to the search for a legal layout every
  state on the way is sound and keeps its shape classes (`Turn.exists_stages`).
-/

namespace LayoutPlanner

/-! ## Graphs that planning may find -/

namespace Graph

/-- What a declared graph can become: by stages, in any order and each in a context of its own, and
by the edits that can be made between them. -/
inductive Reached : Graph → Prop
  | built {decls : List NodeDecl} {g : Graph} (h : build? decls = some (.ok g)) : Reached g
  | stage {cx : Context} {stage : Stage} {g : Graph} {out : Outcome} (hg : Reached g)
      (h : stage.run? cx g = some out) : Reached out.graph
  | pin {id : NodeId} {kind : Option BackendKind} {g g' : Graph} (hg : Reached g)
      (h : (g.update? id fun node => { node with pinned := kind }) = some g') : Reached g'
  | invalidate {id : NodeId} {g g' : Graph} (hg : Reached g) (h : g.invalidate? id = some g') :
      Reached g'
  | resolve {id : NodeId} {g g' : Graph} {changed : Bool} (hg : Reached g)
      (h : g.resolve? id = some (g', changed)) : Reached g'
  | refresh {id : NodeId} {g g' : Graph} (hg : Reached g) (h : g.refresh? id = some g') :
      Reached g'

theorem Reached.exists_steady {g : Graph} (h : g.Reached) : ∃ g₀ : Graph, g₀.Steady g := by
  induction h with
  | @built decls g h =>
    have hg := fresh_of_build h
    exact ⟨g, hg.wellFormed, hg.toOrdered.listsAll, classified_of_build h, .refl g,
      fun hle hnode => absurd (lt_size_of_node? hnode) (Nat.not_lt.2 hle)⟩
  | stage _ h ih =>
    obtain ⟨g₀, hg₀⟩ := ih
    exact ⟨g₀, hg₀.passes (Stage.passes_of_run h)⟩
  | @pin id kind g g' _ h ih =>
    obtain ⟨g₀, hg₀⟩ := ih
    have hpinned : Ensures (g.update? id fun node => { node with pinned := kind })
        (Same (fun node => (node.content, node.outline)) g) := update?_same fun _ => rfl
    have hsame := hpinned g' h
    refine ⟨g₀, hg₀.of_same ⟨order_update h, ?_⟩ ?_⟩
    · exact hsame.coarsen fun _ _ heq => congrArg Prod.fst heq
    · exact hsame.coarsen fun _ _ heq => congrArg Prod.snd heq
  | invalidate _ h ih =>
    obtain ⟨g₀, hg₀⟩ := ih
    obtain ⟨node, hnode, _⟩ := Option.bind_eq_some_iff.1 h
    exact ⟨g₀, hg₀.of_same ((invalidate?_spec hg₀.wellFormed hnode).post_of_eq h).1.content
      (frame_outline.invalidate? hg₀.classified _ h)⟩
  | resolve _ h ih =>
    obtain ⟨g₀, hg₀⟩ := ih
    obtain ⟨node, hnode, _⟩ := Option.bind_eq_some_iff.1 h
    exact ⟨g₀, hg₀.of_same ((resolve?_spec hg₀.wellFormed hnode).post_of_eq h).1.content
      (frame_outline.resolve? hg₀.classified _ h)⟩
  | refresh _ h ih =>
    obtain ⟨g₀, hg₀⟩ := ih
    obtain ⟨_, hclass, _⟩ := Option.bind_eq_some_iff.1 h
    obtain ⟨node, hnode, _⟩ := Option.bind_eq_some_iff.1 hclass
    exact ⟨g₀, hg₀.of_same ((refresh?_spec hg₀.wellFormed hnode).post_of_eq h).1.content
      (frame_outline.refresh? _ hg₀.classified _ h)⟩

end Graph

/-! ## In the middle of a visit -/

namespace Reconciliation

variable {start : Graph} {cx : Context} {id : NodeId} {s s' : Reconciliation}

/-- A run on `start` is in the state `s`, and the node that comes next is due for repair. -/
structure Turn (cx : Context) (start : Graph) (id : NodeId) (s : Reconciliation) : Prop where
  next : ∃ ids, ids ++ [id] <+: start.order ∧ ids.foldlM (visit? cx) { graph := start } = some s
  fine : s.failure = none
  due : ∃ node, start.node? id = some node ∧ node.HasTurn

/-- What holds of a state in the middle of a visit. -/
structure Midway (start : Graph) (s : Reconciliation) : Prop where
  sound : Sound start s
  classified : s.graph.Classified

theorem Midway.advance (hstart : start.WellFormed) (hid : id.index < start.size)
    (hs : Midway start s) (h : Advanced start id s s') : Midway start s' := by
  refine ⟨h.sound, ?_⟩
  refine Moves.inv hstart hs.sound hid (fun s₁ => s₁.graph.Classified) ?_ h.moves hs.classified
  exact fun hs₁ hclass hmove => (hmove.classified hstart hs₁ hid hclass).1

/-- Repairs rewire nodes, but whether a node has a turn is settled from the start. -/
theorem Sound.hasTurn_iff (hs : Sound start s) {old node : Node}
    (hold : start.node? id = some old) (hnode : s.graph.node? id = some node) :
    node.HasTurn ↔ old.HasTurn := by
  obtain ⟨_, hfound, hmeaning, hlength, _⟩ := hs.kept hold
  obtain rfl := Option.some.inj (hnode.symm.trans hfound)
  have hdeps : node.deps ≠ [] ↔ old.deps ≠ [] := by
    rw [← List.length_pos_iff, hlength, List.length_pos_iff]
  have hreorder := Node.isReorder_congr (Node.op_of_meaning hmeaning)
  exact ⟨fun hturn => ⟨hdeps.1 hturn.deps, hreorder ▸ hturn.notReorder⟩,
    fun hturn => ⟨hdeps.2 hturn.deps, hreorder.trans hturn.notReorder⟩⟩

/-- A turn goes through the stages of a visit. -/
theorem Turn.exists_stages (hstart : start.Reached) (hturn : Turn cx start id s) :
    ∃ s₁ s₂ s₃ s₄ s₅ s₆ s', visit? cx s id = some s' ∧ Stages cx id s s₁ s₂ s₃ s₄ s₅ s₆ s' ∧
      Midway start s₄ ∧ Midway start s₅ := by
  obtain ⟨g₀, hg₀⟩ := hstart.exists_steady
  obtain ⟨ids, hids, hrun⟩ := hturn.next
  obtain ⟨old, hold, hdue⟩ := hturn.due
  have hid := Graph.lt_size_of_node? hold
  have hsteady : Steady start s := by
    refine (steady_of_visits hg₀.wellFormed hg₀.listed hg₀.classified ?_).post_of_eq hrun
    exact fun other hother => hids.subset (List.mem_append_left _ hother)
  obtain ⟨node, hnode, _⟩ := hsteady.sound.kept hold
  have hdue' := (hsteady.sound.hasTurn_iff hold hnode).2 hdue
  obtain ⟨s', hs', _⟩ : Yields (visit? cx s id) _ :=
    visit?_spec hg₀.wellFormed hsteady.sound hid hnode
  obtain ⟨s₁, s₂, s₃, s₄, s₅, s₆, hstages⟩ :=
    Reconciliation.exists_stages
      (repairNode?_of_visit hnode hturn.fine hdue'.deps hdue'.notReorder hs')
  obtain ⟨h₁, h₂, h₃, h₄, h₅⟩ := hstages.advanced hg₀.wellFormed hsteady.sound hold hdue.deps
  have hmidway₄ : Midway start s₄ :=
    Midway.advance hg₀.wellFormed hid ⟨hsteady.sound, hsteady.classified⟩
      (((h₁.trans h₂).trans h₃).trans h₄)
  exact ⟨s₁, s₂, s₃, s₄, s₅, s₆, s', hs', hstages, hmidway₄,
    hmidway₄.advance hg₀.wellFormed hid h₅⟩

end Reconciliation

end LayoutPlanner
