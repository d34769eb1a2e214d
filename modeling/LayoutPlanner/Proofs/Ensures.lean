import LayoutPlanner.Graph.Basic
import LayoutPlanner.Proofs.Yields

/-!
# Runs that may lead nowhere

`Ensures run post` says that a result, if there is one, satisfies `post`.  It asks nothing of the
graph, so it is what holds on graphs that are not well formed.  As with `Yields` there is one rule
for each way of putting runs together.
-/

namespace LayoutPlanner

/-- If the run gives a result, the result satisfies `post`. -/
def Ensures {α : Type} (run : Option α) (post : α → Prop) : Prop :=
  ∀ a, run = some a → post a

namespace Ensures

variable {α β : Type}

protected theorem pure {post : α → Prop} {a : α} (h : post a) : Ensures (pure a) post := by
  intro b hb
  cases hb
  exact h

theorem mono {run : Option α} {mid post : α → Prop} (h : Ensures run mid)
    (himp : ∀ a, mid a → post a) : Ensures run post :=
  fun a ha => himp a (h a ha)

theorem bind {run : Option α} {next : α → Option β} {mid : α → Prop} {post : β → Prop}
    (h : Ensures run mid) (hnext : ∀ a, mid a → Ensures (next a) post) :
    Ensures (run >>= next) post := by
  intro b hb
  obtain ⟨a, ha, hb⟩ := Option.bind_eq_some_iff.1 hb
  exact hnext a (h a ha) b hb

/-- A step of which only the result matters. -/
theorem bind_all {run : Option α} {next : α → Option β} {post : β → Prop}
    (hnext : ∀ a, run = some a → Ensures (next a) post) : Ensures (run >>= next) post :=
  bind (fun _ ha => ha) hnext

/-- A branch whose two sides go on in the same way. -/
theorem ite_bind {c : Prop} [Decidable c] {a b : Option α} {f : α → Option β} {mid : α → Prop}
    {post : β → Prop} (hrun : Ensures (if c then a else b) mid)
    (hnext : ∀ x, mid x → Ensures (f x) post) :
    Ensures (if c then a >>= f else b >>= f) post := by
  by_cases hc : c
  · rw [if_pos hc] at hrun ⊢
    exact bind hrun hnext
  · rw [if_neg hc] at hrun ⊢
    exact bind hrun hnext

/-- A fold, with an invariant. -/
theorem foldlM {f : β → α → Option β} {items : List α} {start : β} (inv : β → Prop)
    (hstart : inv start) (hstep : ∀ a b, inv b → Ensures (f b a) inv) :
    Ensures (items.foldlM f start) inv := by
  induction items generalizing start with
  | nil => exact Ensures.pure hstart
  | cons a rest ih =>
    rw [List.foldlM_cons]
    exact bind (hstep a start hstart) fun b hb => ih hb

end Ensures

end LayoutPlanner
