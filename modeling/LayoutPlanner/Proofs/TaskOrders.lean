import LayoutPlanner.Proofs.Pipelines
import LayoutPlanner.Proofs.Selections
import LayoutPlanner.Proofs.Unbuilt

/-!
# Builds in any order

Construction hands one task for each node to an executor, which may take them in any order.

* `Executor.arrange`: the tasks in the order in which an executor takes them.
* `Agree`: two runs that differ in the executor only.  They end well together, with one and the same
  outcome, or they are both stopped.
* `Aborted`: a run that was stopped.  Every task has been taken; the error is that of the first
  task, in the order of this run, that failed; and nothing has been stored.
-/

namespace LayoutPlanner

/-- Looking up every position of a list gives the list. -/
theorem filterMap_getElem?_range {α : Type} (items : List α) :
    (List.range items.length).filterMap (items[·]?) = items := by
  have hget : (List.range items.length).map (items[·]?) = items.map some := by
    refine List.ext_getElem (by simp) fun i hi _ => ?_
    simp only [List.length_map, List.length_range] at hi
    simp [hi]
  calc (List.range items.length).filterMap (items[·]?)
      = ((List.range items.length).map (items[·]?)).filterMap id := by
        rw [List.filterMap_map, Function.id_comp]
    _ = items := by rw [hget, List.filterMap_map, Function.id_comp, List.filterMap_some]

namespace Executor

variable {α β : Type}

/-- A batch in the order in which the executor takes it. -/
def arrange (executor : Executor) (items : List α) : List α :=
  (executor.order items.length).filterMap (items[·]?)

theorem arrange_perm (executor : Executor) (items : List α) :
    (executor.arrange items).Perm items := by
  have hperm := (executor.order_perm items.length).filterMap (items[·]?)
  rwa [filterMap_getElem?_range] at hperm

theorem arrange_map (executor : Executor) (f : α → β) (items : List α) :
    executor.arrange (items.map f) = (executor.arrange items).map f := by
  simp [arrange, List.map_filterMap]

end Executor

namespace Construction

/-- The executor of a run. -/
def executorOf (cx : Context) : Executor :=
  if cx.config.parallelBuild then cx.executor else .serial

/-- Construction up to where the tasks are handed out: the settled graph, the nodes to build and
their views. -/
def prepare? (g : Graph) : Option (Graph × List NodeId × List NodeView) := do
  let settled ← settleAll? g
  let ids ← pending? settled
  return (settled, ids, ← ids.mapM settled.view?)

theorem of_prepare? {g settled : Graph} {ids : List NodeId} {views : List NodeView}
    (h : prepare? g = some (settled, ids, views)) :
    settleAll? g = some settled ∧ pending? settled = some ids ∧
      ids.mapM settled.view? = some views := by
  obtain ⟨_, hsettled, h⟩ := Option.bind_eq_some_iff.1 h
  obtain ⟨_, hids, h⟩ := Option.bind_eq_some_iff.1 h
  obtain ⟨_, hviews, h⟩ := Option.bind_eq_some_iff.1 h
  cases h
  exact ⟨hsettled, hids, hviews⟩

/-- Stores the results.  `log` is what the tasks have said. -/
def storeAll? (settled : Graph) (ids : List NodeId) (results : List TaskResult) (log : Trace) :
    Option Outcome := do
  let (g, report) ← (ids.zip results).foldlM store? (settled, {})
  let report := { report with changed := report.implementationsBuilt > 0 }
  return {
    graph := g
    trace := log ++ [.event (.passFinished stageName report.changed)]
    result := .ok report }

/-- Construction from there on. -/
def finish? (executor : Executor) (settled : Graph) (ids : List NodeId)
    (results : List TaskResult) : Option Outcome :=
  let log := (executor.arrange results).flatMap TaskResult.log
  match (executor.arrange results).findSome? TaskResult.error? with
  | some error => some { graph := settled, trace := log, result := .error error }
  | none => storeAll? settled ids results log

theorem run?_eq (cx : Context) (g : Graph) :
    run? cx g = prepare? g >>= fun (settled, ids, views) =>
      finish? (executorOf cx) settled ids (views.map (buildTask cx.catalog)) := by
  simp only [run?, prepare?, bind_assoc]
  rfl

section

variable {catalog : Catalog} {executor : Executor} {settled : Graph} {ids : List NodeId}
  {results : List TaskResult}

theorem log_eq_nil {result : TaskResult} (h : result.error? = none) : result.log = [] := by
  cases result with
  | built | deferred => rfl
  | failed error => cases h

/-- Where nothing fails, the order does not matter. -/
theorem finish?_of_fine (executor : Executor) (h : ∀ result ∈ results, result.error? = none) :
    finish? executor settled ids results = storeAll? settled ids results [] := by
  have hran : ∀ result ∈ executor.arrange results, result.error? = none :=
    fun result hmem => h result ((executor.arrange_perm results).mem_iff.1 hmem)
  have hlog : (executor.arrange results).flatMap TaskResult.log = [] :=
    List.flatMap_eq_nil_iff.2 fun result hmem => log_eq_nil (hran result hmem)
  simp only [finish?, List.findSome?_eq_none_iff.2 hran, hlog]

/-- Where something fails, nothing is stored. -/
theorem finish?_of_failure (executor : Executor)
    (h : ¬ ∀ result ∈ results, result.error? = none) :
    ∃ error, (executor.arrange results).findSome? TaskResult.error? = some error ∧
      finish? executor settled ids results = some {
        graph := settled
        trace := (executor.arrange results).flatMap TaskResult.log
        result := .error error } := by
  have hfound : (executor.arrange results).findSome? TaskResult.error? ≠ none := by
    refine fun hnone => h fun result hmem => ?_
    refine List.findSome?_eq_none_iff.1 hnone result ?_
    exact (executor.arrange_perm results).mem_iff.2 hmem
  obtain ⟨error, herror⟩ := Option.ne_none_iff_exists'.1 hfound
  exact ⟨error, herror, by simp only [finish?, herror]⟩

theorem storeAll?_ok (log : Trace) :
    Ensures (storeAll? settled ids results log) fun out => ∃ report, out.result = .ok report :=
  Ensures.bind_all fun _ _ => Ensures.pure ⟨_, rfl⟩

end

/-! ## Two runs -/

/-- How two runs compare. -/
inductive Agree : Option Outcome → Option Outcome → Prop
  /-- A reference of the graph leads nowhere, in both. -/
  | lost : Agree none none
  | fine {out : Outcome} {report : Report} (hok : out.result = .ok report) :
      Agree (some out) (some out)
  /-- The errors may differ: each run reports the failure it came upon first. -/
  | stopped {g : Graph} {trace trace' : Trace} {error error' : PlanningError}
      (htrace : trace.Perm trace') :
      Agree (some { graph := g, trace, result := .error error })
        (some { graph := g, trace := trace', result := .error error' })

theorem agree_of_finish (executor executor' : Executor) (settled : Graph) (ids : List NodeId)
    (results : List TaskResult) :
    Agree (finish? executor settled ids results) (finish? executor' settled ids results) := by
  by_cases hfine : ∀ result ∈ results, result.error? = none
  · rw [finish?_of_fine executor hfine, finish?_of_fine executor' hfine]
    cases hout : storeAll? settled ids results [] with
    | none => exact .lost
    | some out =>
      obtain ⟨report, hok⟩ := storeAll?_ok [] out hout
      exact .fine hok
  · obtain ⟨error, _, hout⟩ := finish?_of_failure executor hfine
    obtain ⟨error', _, hout'⟩ := finish?_of_failure executor' hfine
    rw [hout, hout']
    refine .stopped (List.Perm.flatMap_right _ ?_)
    exact (executor.arrange_perm results).trans (executor'.arrange_perm results).symm

/-! ## A run that is stopped -/

/-- A task has stopped a run of construction on `g`. -/
structure Aborted (cx : Context) (g : Graph) (out : Outcome) (error : PlanningError)
    (tasks : List NodeView) : Prop where
  settled : settleAll? g = some out.graph
  /-- There is one task for each node that needs an implementation. -/
  pending : ∃ ids, pending? out.graph = some ids ∧ ids.mapM out.graph.view? = some tasks
  complete : ((executorOf cx).arrange tasks).Perm tasks
  logged : out.trace =
    ((executorOf cx).arrange tasks).flatMap fun view => (buildTask cx.catalog view).log
  first : ∃ before failing after, (executorOf cx).arrange tasks = before ++ failing :: after ∧
    (∀ view ∈ before, ∀ error, ¬ Fails cx.catalog view error) ∧ Fails cx.catalog failing error
  backing : Graph.Same Node.backing g out.graph

theorem settleAll?_backing {g : Graph} : Ensures (settleAll? g) (Graph.Same Node.backing g) :=
  Graph.frame_backing.foldlM g.order trivial fun _ _ hg => Graph.frame_backing.settleData? hg

theorem aborted_of_run {cx : Context} {g : Graph} {out : Outcome} {error : PlanningError}
    (hout : run? cx g = some out) (herror : out.result = .error error) :
    ∃ tasks, Aborted cx g out error tasks := by
  rw [run?_eq] at hout
  obtain ⟨⟨settled, ids, views⟩, hprepared, hout⟩ := Option.bind_eq_some_iff.1 hout
  obtain ⟨hsettled, hids, hviews⟩ := of_prepare? hprepared
  dsimp only at hout
  by_cases hfine : ∀ result ∈ views.map (buildTask cx.catalog), result.error? = none
  · rw [finish?_of_fine _ hfine] at hout
    obtain ⟨report, hok⟩ := storeAll?_ok [] out hout
    rw [hok] at herror
    cases herror
  · obtain ⟨found, hfound, heq⟩ := finish?_of_failure (executorOf cx) hfine
    rw [heq] at hout
    cases hout
    cases herror
    rw [Executor.arrange_map] at hfound ⊢
    refine ⟨views, hsettled, ⟨ids, hids, hviews⟩, Executor.arrange_perm _ _, ?_, ?_, ?_⟩
    · exact List.flatMap_map ..
    · rw [List.findSome?_map] at hfound
      obtain ⟨before, failing, after, hsplit, hfails, hbefore⟩ :=
        List.findSome?_eq_some_iff.1 hfound
      refine ⟨before, failing, after, hsplit, fun view hmem error hother => ?_, ?_⟩
      · have hnone := hbefore view hmem
        rw [Function.comp_apply, buildTask_error?_eq_some_iff.2 hother] at hnone
        cases hnone
      · exact buildTask_error?_eq_some_iff.1 hfails
    · exact settleAll?_backing _ hsettled

/-- A graph without implementations has none after a plan that failed. -/
theorem unbuilt_of_error {cx : Context} {g : Graph} {out : Outcome} {error : PlanningError}
    (hg : g.Unbuilt) (hout : plan? cx g = some out) (herror : out.result = .error error) :
    out.graph.Unbuilt := by
  obtain ⟨_, hunbuilt⟩ | ⟨swept, agreed, built, h⟩ := unbuilt_or_reaches hg hout
  · exact hunbuilt
  · obtain ⟨_, hbuilt, _⟩ | ⟨report, total, _, htotal, _⟩ := h.result
    · obtain ⟨tasks, habort⟩ := aborted_of_run h.builds hbuilt
      rw [h.graph]
      exact h.unbuilt.of_backing habort.backing
    · rw [herror] at htotal
      cases htotal

/-- The order in which tasks are run decides no more than which failure is reported.  A run that
fails has run every task and stores nothing. -/
theorem builds_in_any_order (catalog : Catalog) (config config' : Config)
    (executor executor' : Executor) (g : Graph) :
    Agree (run? ⟨catalog, config, executor⟩ g) (run? ⟨catalog, config', executor'⟩ g) ∧
      (∀ out error, run? ⟨catalog, config, executor⟩ g = some out → out.result = .error error →
        ∃ tasks, Aborted ⟨catalog, config, executor⟩ g out error tasks) ∧
      ∀ out error, g.Unbuilt → plan? ⟨catalog, config, executor⟩ g = some out →
        out.result = .error error → out.graph.Unbuilt := by
  refine ⟨?_, fun _ _ hout herror => aborted_of_run hout herror,
    fun _ _ hg hout herror => unbuilt_of_error hg hout herror⟩
  rw [run?_eq, run?_eq]
  cases prepare? g with
  | none => exact .lost
  | some tasks => exact agree_of_finish _ _ tasks.1 tasks.2.1 _

/-- Takes every node, and its build always ends in the same way. -/
def unconditional (name : String) (result : BuildResult) : Capability where
  name
  kind := .generic
  shapes := .both
  accepts _ := true
  preference _ := none
  build _ := result

/-- Builds of activations fail, and builds of poolings break down. -/
def faultyCatalog : Catalog where
  registrations :=
    [(.input, unconditional "source" (.built ⟨.generic, "source", none⟩)),
      (.activation, unconditional "saturate" (.failed ["out of registers"])),
      (.pooling, unconditional "window" (.crashed (some "overflow")))]

/-- An input that is read by an activation and by a pooling. -/
def twoFaults : List NodeDecl :=
  let layout : Layout := ⟨.ofExtents [1, 16, 8, 8], .f16, .bfyx, {}⟩
  [{ name := "image", op := .input, outputs := [layout] },
    { name := "clipped", op := .activation, inputs := [⟨⟨0⟩, 0⟩], outputs := [layout] },
    { name := "pooled", op := .pooling, inputs := [⟨⟨0⟩, 0⟩], outputs := [layout] }]

/-- One order comes upon the failed build first, the other upon the breakdown. -/
theorem builds_in_any_order_twoFaults : ∃ g, Graph.build? twoFaults = some (.ok g) ∧ g.Unbuilt ∧
    (∃ node, (run? ⟨faultyCatalog, {}, .serial⟩ g).map Outcome.error? =
      some (some (.build node .generic "saturate" ["out of registers"]))) ∧
    (run? ⟨faultyCatalog, {}, .reversed⟩ g).map Outcome.error? =
      some (some (.taskCrashed ⟨2⟩ "overflow")) ∧
    Agree (run? ⟨faultyCatalog, {}, .reversed⟩ g) (run? ⟨faultyCatalog, {}, .serial⟩ g) ∧
    (∃ out error tasks, run? ⟨faultyCatalog, {}, .reversed⟩ g = some out ∧
      out.result = .error error ∧ Aborted ⟨faultyCatalog, {}, .reversed⟩ g out error tasks) ∧
    ∃ out error, plan? ⟨faultyCatalog, {}, .reversed⟩ g = some out ∧
      out.result = .error error ∧ out.graph.Unbuilt := by
  refine ⟨_, rfl, by decide, ⟨_, rfl⟩, rfl, ?_⟩
  obtain ⟨hagree, haborted, hunbuilt⟩ :=
    builds_in_any_order faultyCatalog {} {} .reversed .serial _
  refine ⟨hagree, ?_, _, _, rfl, rfl, hunbuilt _ _ (by decide) rfl rfl⟩
  obtain ⟨tasks, htasks⟩ := haborted _ _ rfl rfl
  exact ⟨_, _, tasks, rfl, rfl, htasks⟩

end Construction

end LayoutPlanner
