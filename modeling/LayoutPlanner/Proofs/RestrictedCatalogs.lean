import LayoutPlanner.Builtin.Catalog
import LayoutPlanner.Planning.Selection

/-!
# Catalogs without some of the backends

A backend that is left out registers nothing, and everybody else registers as before.  A catalog
that is made that way answers every question as the full one does when the kinds that are left are
asked for (`Catalog.AnswersAs`): what a mask lets through, in order of priority, is all that a
catalog ever looks at.
-/

namespace LayoutPlanner

namespace KindMask

@[simp]
theorem contains_ofList (kinds : List BackendKind) (kind : BackendKind) :
    (ofList kinds).contains kind = kinds.contains kind := by
  suffices h : ∀ mask : KindMask,
      (kinds.foldl insert mask).contains kind = (mask.contains kind || kinds.contains kind) by
    simpa [ofList] using h none
  induction kinds with
  | nil => simp
  | cons head rest ih =>
    intro mask
    rw [List.foldl_cons, ih, contains_insert, List.contains_cons, Bool.beq_comm (a := head),
      ← Bool.or_assoc, Bool.or_comm (mask.contains kind)]

@[simp]
theorem contains_only (kind other : BackendKind) :
    (only kind).contains other = (kind == other) := by
  simp [only]

end KindMask

/-- What comes of a choice, with another mask named where it says which kinds were asked for. -/
def Choice.askedFor (mask : KindMask) : Choice → Choice
  | .refused (.noImplementation node op _ shape formats) =>
    .refused (.noImplementation node op mask shape formats)
  | choice => choice

namespace Catalog

/-! ## Registering one by one -/

/-- The catalog after some capabilities have been registered, each for an operation. -/
def registerAll (calls : List (OpKind × Capability)) : Catalog :=
  calls.foldl (fun catalog call => catalog.register call.1 call.2) {}

/-- The entries for an operation are what was registered for it, in the order of the calls. -/
theorem entries_registerAll (calls : List (OpKind × Capability)) (op : OpKind) :
    (registerAll calls).entries op = (calls.filter (·.1 == op)).map (·.2) := by
  suffices h : ∀ catalog : Catalog,
      (calls.foldl (fun catalog call => catalog.register call.1 call.2) catalog).entries op =
        catalog.entries op ++ (calls.filter (·.1 == op)).map (·.2) by
    simpa [entries, registerAll] using h {}
  induction calls with
  | nil => simp
  | cons call rest ih =>
    intro catalog
    rw [List.foldl_cons, ih, entries_register, List.append_assoc, List.filter_cons]
    by_cases hop : call.1 = op <;> simp [hop]

/-! ## What a mask lets through -/

theorem lookup?_eq_find? (catalog : Catalog) (op : OpKind) (mask : KindMask) (shape : ShapeClass) :
    catalog.lookup? op mask shape = (catalog.allowed op mask).find? (·.supports shape) := by
  simp only [lookup?, allowed, List.find?_filter, Bool.decide_and, Bool.decide_eq_true]

/-- One catalog, asked for the kinds of a mask, answers as another one does when it is asked for the
kinds of another mask. -/
structure AnswersAs (catalog : Catalog) (mask : KindMask) (other : Catalog) (mask' : KindMask) :
    Prop where
  lookup : ∀ op shape, catalog.lookup? op mask shape = other.lookup? op mask' shape
  candidate : ∀ view, catalog.candidate? view mask = other.candidate? view mask'
  unpadded : ∀ plain unpadded,
    catalog.candidateUnpadded? plain unpadded mask = other.candidateUnpadded? plain unpadded mask'
  supported : ∀ view shape,
    catalog.isSupported view mask shape = other.isSupported view mask' shape
  choice : ∀ view, (catalog.choose view mask).askedFor mask' = other.choose view mask'

/-- The answers of a catalog come from what the mask lets through. -/
theorem answersAs_of_allowed {catalog other : Catalog} {mask mask' : KindMask}
    (h : ∀ op, catalog.allowed op mask = other.allowed op mask') :
    catalog.AnswersAs mask other mask' := by
  have hcandidate : ∀ view, catalog.candidate? view mask = other.candidate? view mask' := by
    intro view
    rw [candidate?, h, candidate?]
  refine ⟨fun op shape => ?_, hcandidate, fun plain unpadded => ?_, fun view shape => ?_,
    fun view => ?_⟩
  · rw [lookup?_eq_find?, h, lookup?_eq_find?]
  · rw [candidateUnpadded?, h, candidateUnpadded?]
  · rw [isSupported, h, isSupported]
  · unfold choose
    rw [hcandidate]
    cases other.candidate? view mask' with
    | none => rfl
    | some c => cases hbuild : c.build view <;> simp [hbuild, Choice.askedFor]

/-- Leaving kinds out when registering lets through what a mask without them does. -/
theorem allowed_registerAll_filter (calls : List (OpKind × Capability)) (mask : KindMask)
    (op : OpKind) : (registerAll (calls.filter fun call => mask.contains call.2.kind)).allowed op
      .any = (registerAll calls).allowed op mask := by
  simp only [allowed, entries_registerAll, KindMask.contains_any, List.filter_map,
    List.filter_filter, Function.comp_def, Bool.true_and, Bool.and_comm]

/-- A kind is available if looking for that kind alone finds something. -/
theorem contains_kindsFor_iff (catalog : Catalog) (op : OpKind) (shape : ShapeClass)
    (kind : BackendKind) : (catalog.kindsFor op shape).contains kind = true ↔
      ∃ c, catalog.lookup? op (.only kind) shape = some c := by
  rw [← Option.isSome_iff_exists, lookup?, List.find?_isSome, kindsFor, KindMask.contains_ofList]
  simp only [List.contains_iff_mem, List.mem_map, List.mem_filter, KindMask.contains_only,
    Bool.and_eq_true, beq_iff_eq]
  constructor
  · rintro ⟨c, ⟨hmem, hshape⟩, rfl⟩
    exact ⟨c, hmem, rfl, hshape⟩
  · rintro ⟨c, hmem, rfl, hshape⟩
    exact ⟨c, ⟨hmem, hshape⟩, rfl⟩

/-- A catalog that was made without the kinds outside of a mask answers as the full one does for
that mask.  Both have, for each operation, the entries that were registered for it in the order of
the calls, and a kind counts as available exactly if looking for it finds an entry. -/
theorem registerAll_filter_answersAs (calls : List (OpKind × Capability)) (mask : KindMask) :
    let kept := calls.filter fun call => mask.contains call.2.kind
    (registerAll kept).AnswersAs .any (registerAll calls) mask ∧
      (∀ op, (registerAll calls).entries op = (calls.filter (·.1 == op)).map (·.2) ∧
        (registerAll kept).entries op = (kept.filter (·.1 == op)).map (·.2)) ∧
      ∀ op shape kind, ((registerAll calls).kindsFor op shape).contains kind = true ↔
        ∃ c, (registerAll calls).lookup? op (.only kind) shape = some c := by
  intro kept
  refine ⟨answersAs_of_allowed fun op => allowed_registerAll_filter calls mask op, fun op => ?_,
    fun op shape kind => contains_kindsFor_iff _ op shape kind⟩
  exact ⟨entries_registerAll calls op, entries_registerAll kept op⟩

/-- Without the vendor routines, a convolution is left to the generated kernels. -/
example : let kept := Builtin.catalog.registrations.filter fun call =>
      call.2.kind != .vendor
    ((Builtin.catalog.lookup? .convolution .any .static).map Capability.kind,
      ((registerAll kept).lookup? .convolution .any .static).map Capability.kind) =
        (some .vendor, some .generic) :=
  rfl

end Catalog

end LayoutPlanner
