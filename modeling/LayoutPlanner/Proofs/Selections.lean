import LayoutPlanner.Planning.Construction

/-!
# Who gets a node

The entry that gets a node, said without the search that finds it: the first in the order of
registration that qualifies (`Elects`).  A build task comes to what the build of that entry comes
to.  If no entry qualifies, the node is deferred when its shapes are dynamic, and fails otherwise.
-/

namespace LayoutPlanner

/-- The entry may run the node as shown: its kind is allowed, it serves the shape class, and it
accepts the view. -/
structure Capability.Qualifies (c : Capability) (view : NodeView) (mask : KindMask) : Prop where
  allowed : mask.contains c.kind = true
  serves : c.supports view.shapeClass = true
  accepts : c.accepts view = true

namespace Catalog

variable {catalog : Catalog} {view : NodeView} {mask : KindMask} {c : Capability}

/-- The entry qualifies, and none that was registered before it does. -/
def Elects (catalog : Catalog) (view : NodeView) (mask : KindMask) (c : Capability) : Prop :=
  c.Qualifies view mask ∧ ∃ before after, catalog.entries view.op = before ++ c :: after ∧
    ∀ earlier ∈ before, ¬ earlier.Qualifies view mask

/-- No entry for the node qualifies. -/
def Passes (catalog : Catalog) (view : NodeView) (mask : KindMask) : Prop :=
  ∀ c ∈ catalog.entries view.op, ¬ c.Qualifies view mask

theorem candidate?_eq_find? :
    catalog.candidate? view mask = (catalog.entries view.op).find? fun c =>
      mask.contains c.kind && (c.supports view.shapeClass && c.accepts view) := by
  simp only [candidate?, allowed, List.find?_filter, Capability.admits_eq, Bool.decide_and,
    Bool.decide_eq_true]

theorem qualifies_iff : c.Qualifies view mask ↔
    (mask.contains c.kind && (c.supports view.shapeClass && c.accepts view)) = true := by
  rw [Bool.and_eq_true, Bool.and_eq_true]
  exact ⟨fun h => ⟨h.allowed, h.serves, h.accepts⟩, fun h => ⟨h.1, h.2.1, h.2.2⟩⟩

theorem candidate?_eq_some_iff : catalog.candidate? view mask = some c ↔
    catalog.Elects view mask c := by
  rw [candidate?_eq_find?, List.find?_eq_some_iff_append, ← qualifies_iff]
  simp only [Elects, qualifies_iff, Bool.not_eq_true', Bool.not_eq_true]

theorem candidate?_eq_none_iff : catalog.candidate? view mask = none ↔
    catalog.Passes view mask := by
  rw [candidate?_eq_find?, List.find?_eq_none]
  simp only [Passes, qualifies_iff]

end Catalog

namespace Construction

/-- How the build of a node fails. -/
inductive Fails (catalog : Catalog) (view : NodeView) : PlanningError → Prop
  | unserved (hstatic : view.shapeClass.isDynamic = false)
      (hpasses : catalog.Passes view (buildMask view.node)) :
      Fails catalog view (.noImplementation view.describe view.op (buildMask view.node)
        view.shapeClass view.attemptedKeys)
  | refused {c : Capability} {causes : List String}
      (helects : catalog.Elects view (buildMask view.node) c)
      (hbuild : c.build view = .failed causes) :
      Fails catalog view (.build view.describe c.kind c.name causes)
  | crashed {c : Capability} {message : Option String}
      (helects : catalog.Elects view (buildMask view.node) c)
      (hbuild : c.build view = .crashed message) :
      Fails catalog view (.taskCrashed view.id (message.getD unknownCrash))

/-- What a build task comes to. -/
inductive Judges (catalog : Catalog) (view : NodeView) : TaskResult → Prop
  | built {c : Capability} {handle : Handle}
      (helects : catalog.Elects view (buildMask view.node) c)
      (hbuild : c.build view = .built handle) :
      Judges catalog view (.built { kind := c.kind, descriptor := c.name, handle })
  | deferred (hdynamic : view.shapeClass.isDynamic = true)
      (hpasses : catalog.Passes view (buildMask view.node)) : Judges catalog view .deferred
  | failed {error : PlanningError} (hfails : Fails catalog view error) :
      Judges catalog view (.failed error)

theorem judges_buildTask (catalog : Catalog) (view : NodeView) :
    Judges catalog view (buildTask catalog view) := by
  unfold buildTask Catalog.choose
  cases hfound : catalog.candidate? view (buildMask view.node) with
  | none =>
    have hpasses := Catalog.candidate?_eq_none_iff.1 hfound
    dsimp only
    cases hdynamic : view.shapeClass.isDynamic with
    | true => exact .deferred hdynamic hpasses
    | false => exact .failed (.unserved hdynamic hpasses)
  | some c =>
    have helects := Catalog.candidate?_eq_some_iff.1 hfound
    dsimp only
    cases hbuild : c.build view with
    | built handle => exact .built helects hbuild
    | failed causes => exact .failed (.refused helects hbuild)
    | crashed message => exact .failed (.crashed helects hbuild)

variable {catalog : Catalog} {view : NodeView} {error : PlanningError}

theorem Fails.buildTask_eq (h : Fails catalog view error) :
    buildTask catalog view = .failed error := by
  cases h with
  | unserved hstatic hpasses =>
    simp [buildTask, Catalog.choose, Catalog.candidate?_eq_none_iff.2 hpasses, hstatic]
  | refused helects hbuild | crashed helects hbuild =>
    simp [buildTask, Catalog.choose, Catalog.candidate?_eq_some_iff.2 helects, hbuild]

theorem buildTask_error?_eq_some_iff :
    (buildTask catalog view).error? = some error ↔ Fails catalog view error := by
  refine ⟨fun h => ?_, fun h => by rw [h.buildTask_eq]; rfl⟩
  cases hresult : buildTask catalog view with
  | built | deferred => simp [hresult, TaskResult.error?] at h
  | failed found =>
    rw [hresult] at h
    cases h
    have hjudges := hresult ▸ judges_buildTask catalog view
    cases hjudges with
    | failed hfails => exact hfails

end Construction

end LayoutPlanner
