import Mathlib.Data.List.Basic

/-!
# Runs that give a result

Every operation on a graph answers with an `Option`, and `none` means that a reference led
nowhere.  `Yields run post` says that the run does give a result and that the result satisfies
`post`.  The rules below follow the shape of a program: one for each way of putting runs together.
Later modules state what an operation does as a `Yields` fact and never open it again.
-/

namespace LayoutPlanner

/-- The run gives a result, and the result satisfies `post`. -/
def Yields {α : Type} (run : Option α) (post : α → Prop) : Prop :=
  ∃ a, run = some a ∧ post a

namespace Yields

variable {α β : Type}

theorem of_eq {run : Option α} {post : α → Prop} {a : α} (hrun : run = some a) (h : post a) :
    Yields run post :=
  ⟨a, hrun, h⟩

protected theorem pure {post : α → Prop} {a : α} (h : post a) : Yields (pure a) post :=
  ⟨a, rfl, h⟩

/-- What holds of the result that was obtained. -/
theorem post_of_eq {run : Option α} {post : α → Prop} {a : α} (h : Yields run post)
    (hrun : run = some a) : post a := by
  obtain ⟨b, hb, hpost⟩ := h
  rw [hrun] at hb
  cases hb
  exact hpost

theorem eq_some {run : Option α} {a : α} (h : Yields run fun b => b = a) : run = some a := by
  obtain ⟨b, hrun, rfl⟩ := h
  exact hrun

theorem mono {run : Option α} {mid post : α → Prop} (h : Yields run mid)
    (himp : ∀ a, mid a → post a) : Yields run post := by
  obtain ⟨a, hrun, ha⟩ := h
  exact ⟨a, hrun, himp a ha⟩

theorem and {run : Option α} {left right : α → Prop} (hl : Yields run left)
    (hr : Yields run right) : Yields run fun a => left a ∧ right a := by
  obtain ⟨a, hrun, ha⟩ := hl
  exact ⟨a, hrun, ha, hr.post_of_eq hrun⟩

theorem bind {run : Option α} {next : α → Option β} {mid : α → Prop} {post : β → Prop}
    (h : Yields run mid) (hnext : ∀ a, mid a → Yields (next a) post) :
    Yields (run >>= next) post := by
  obtain ⟨a, rfl, ha⟩ := h
  exact hnext a ha

/-- A step whose result is known already. -/
theorem bind_eq {run : Option α} {next : α → Option β} {post : β → Prop} {a : α}
    (hrun : run = some a) (hnext : Yields (next a) post) : Yields (run >>= next) post := by
  subst hrun
  exact hnext

/-- A branch whose two sides go on in the same way. -/
theorem ite_bind {c : Prop} [Decidable c] {a b : Option α} {f : α → Option β} {mid : α → Prop}
    {post : β → Prop} (hrun : Yields (if c then a else b) mid)
    (hnext : ∀ x, mid x → Yields (f x) post) :
    Yields (if c then a >>= f else b >>= f) post := by
  by_cases hc : c
  · rw [if_pos hc] at hrun ⊢
    exact bind hrun hnext
  · rw [if_neg hc] at hrun ⊢
    exact bind hrun hnext

/-- A fold, with an invariant on the elements done so far. -/
theorem foldlM {f : β → α → Option β} {items : List α} {start : β}
    (inv : List α → β → Prop) (hstart : inv [] start)
    (hstep : ∀ done a rest b, items = done ++ a :: rest → inv done b →
      Yields (f b a) (inv (done ++ [a]))) :
    Yields (items.foldlM f start) (inv items) := by
  suffices h : ∀ rest done b, items = done ++ rest → inv done b →
      Yields (rest.foldlM f b) (inv items) from h items [] start rfl hstart
  intro rest
  induction rest with
  | nil =>
    intro done b hitems hb
    rw [List.append_nil] at hitems
    subst hitems
    exact Yields.pure hb
  | cons a rest ih =>
    intro done b hitems hb
    rw [List.foldlM_cons]
    refine bind (hstep done a rest b hitems hb) fun b' hb' => ?_
    exact ih (done ++ [a]) b' (by simpa using hitems) hb'

/-- A fold with an invariant that does not depend on what has been done. -/
theorem foldlM_inv {f : β → α → Option β} {items : List α} {start : β} (inv : β → Prop)
    (hstart : inv start) (hstep : ∀ a ∈ items, ∀ b, inv b → Yields (f b a) inv) :
    Yields (items.foldlM f start) inv := by
  refine foldlM (fun _ => inv) hstart fun done a rest b hitems hb => ?_
  exact hstep a (by simp [hitems]) b hb

/-- Two ways to go on from a run that agree on what it can give. -/
theorem bind_congr {run : Option α} {next next' : α → Option β} {mid : α → Prop}
    (h : Yields run mid) (hnext : ∀ a, mid a → next' a = next a) :
    run >>= next' = run >>= next := by
  obtain ⟨a, rfl, ha⟩ := h
  exact hnext a ha

/-- Two folds whose steps agree wherever the invariant of the first one holds. -/
theorem foldlM_congr {f f' : β → α → Option β} {items : List α} {start : β} (inv : β → Prop)
    (hstart : inv start) (hstep : ∀ a ∈ items, ∀ b, inv b → Yields (f b a) inv)
    (hsame : ∀ a ∈ items, ∀ b, inv b → f' b a = f b a) :
    items.foldlM f' start = items.foldlM f start := by
  induction items generalizing start with
  | nil => rfl
  | cons a rest ih =>
    rw [List.foldlM_cons, List.foldlM_cons, hsame a (by simp) start hstart]
    refine bind_congr (hstep a (by simp) start hstart) fun b hb => ih hb ?_ ?_
    · exact fun a' ha' => hstep a' (by simp [ha'])
    · exact fun a' ha' => hsame a' (by simp [ha'])

/-- A loop over the numbers below `count`. -/
theorem foldlM_range {f : β → Nat → Option β} {count : Nat} {start : β} (inv : Nat → β → Prop)
    (hstart : inv 0 start) (hstep : ∀ i b, i < count → inv i b → Yields (f b i) (inv (i + 1))) :
    Yields ((List.range count).foldlM f start) (inv count) := by
  refine (foldlM (fun done => inv done.length) hstart ?_).mono fun b hb => by simpa using hb
  intro done i rest b hsplit hb
  have hi : (List.range count)[done.length]? = some i := by simp [hsplit]
  obtain ⟨hlt, heq⟩ := List.getElem?_eq_some_iff.1 hi
  rw [List.getElem_range] at heq
  rw [List.length_range] at hlt
  subst heq
  simpa using hstep done.length b hlt hb

theorem mapM {f : α → Option β} {items : List α} {post : α → β → Prop}
    (h : ∀ a ∈ items, Yields (f a) (post a)) :
    Yields (items.mapM f) fun results => List.Forall₂ post items results := by
  induction items with
  | nil => exact Yields.pure .nil
  | cons a rest ih =>
    rw [List.mapM_cons]
    refine bind (h a (by simp)) fun b hb => ?_
    refine bind (ih fun a' ha' => h a' (by simp [ha'])) fun results hresults => ?_
    exact Yields.pure (.cons hb hresults)

end Yields

theorem mapM_eq_some_iff {α β : Type} {f : α → Option β} {items : List α} {results : List β} :
    items.mapM f = some results ↔ List.Forall₂ (fun a b => f a = some b) items results := by
  constructor
  · intro h
    induction items generalizing results with
    | nil =>
      cases h
      exact .nil
    | cons a rest ih =>
      rw [List.mapM_cons] at h
      obtain ⟨b, hb, h⟩ := Option.bind_eq_some_iff.1 h
      obtain ⟨tail, htail, h⟩ := Option.bind_eq_some_iff.1 h
      cases h
      exact .cons hb (ih htail)
  · intro h
    induction h with
    | nil => rfl
    | cons hb _ ih => simp [List.mapM_cons, hb, ih]

/-- The results of a `mapM`, one by one. -/
theorem getElem?_of_mapM {α β : Type} {f : α → Option β} {items : List α} {results : List β}
    (h : items.mapM f = some results) (i : Nat) : results[i]? = items[i]?.bind f := by
  induction items generalizing results i with
  | nil =>
    cases h
    simp
  | cons a rest ih =>
    rw [List.mapM_cons] at h
    obtain ⟨b, hb, h⟩ := Option.bind_eq_some_iff.1 h
    obtain ⟨tail, htail, h⟩ := Option.bind_eq_some_iff.1 h
    cases h
    cases i with
    | zero => simp [hb]
    | succ i => simpa using ih htail i

/-- Of two look-ups with the same image, one finds something if the other does. -/
theorem exists_of_map_eq {α β γ : Type} {f : α → γ} {k : β → γ} {found : Option α}
    {known : Option β} (h : found.map f = known.map k) {b : β} (hb : known = some b) :
    ∃ a, found = some a ∧ f a = k b := by
  rw [hb, Option.map_some] at h
  exact Option.map_eq_some_iff.1 h

end LayoutPlanner
