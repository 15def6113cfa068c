/-
PackageOrder.Proofs.Discovery.Shortcut — whether a targeted run goes on.

Before the search for what a target depends on, a targeted run asks whether the
target has an unprocessed format at all, without planning anything. The answer is
that of the plan (`Targeting.needsProcessing_agrees`).
-/
import PackageOrder.Proofs.Discovery.Target
import PackageOrder.Proofs.Task.Plan

namespace PackageOrder

namespace Targeting

/-- **A targeted run goes on just if the plan would have a task for its target.** This
is asked of a description whose marks agree, as every task leaves them. -/
theorem needsProcessing_agrees {targeting : Targeting} {session after : Session}
    {target : EntryPoint}
    (hfound : (targeting.entryPoint? targeting.target).runFrom session = (.ok (some target), after))
    (hcompiled : target.compiledByAngular = true) (hagree : target.packageJson.MarksAgree)
    (considered : List FormatProperty) (allFormats : Bool) :
    (∃ needs, (targeting.needsProcessing considered allFormats).runFrom session = (.ok needs, after)
      ∧ (needs = true ↔ ∃ property ∈ target.packageJson.propertiesToProcess considered allFormats,
          target.packageJson.isProcessed property.name = false)
      ∧ (needs = true ↔ target.tasks considered allFormats ≠ [])
      ∧ ∀ sorted start finish queue, target ∈ sorted.entryPoints →
          (planTasks sorted considered allFormats).runFrom start = (.ok queue, finish) →
          (needs = true ↔ ∃ task ∈ queue.pending, task.entryPoint = target))
      ∧ ∀ task ∈ target.tasks considered allFormats,
          PackageJson.MarksAgree (target.packageJson.markProcessed task.markedProperties) := by
  have hneeds : (targeting.needsProcessing considered allFormats).runFrom session
      = (.ok (target.packageJson.needsProcessing considered allFormats), after) := by
    unfold needsProcessing
    rw [Run.runFrom_bind, hfound]
    dsimp only
    rw [hcompiled]
    rfl
  have hproperty := PackageJson.needsProcessing_iff hagree considered allFormats
  have htasks : target.packageJson.needsProcessing considered allFormats = true
      ↔ target.tasks considered allFormats ≠ [] := by
    rw [hproperty, Ne, EntryPoint.tasks, EntryPoint.tasksFor_eq_nil_iff]
    push Not
    simp only [Bool.not_eq_true]
  refine ⟨⟨_, hneeds, hproperty, htasks, ?_⟩,
    fun task => EntryPoint.marksAgree_of_mem_tasks hagree⟩
  intro sorted start finish queue hmem hplan
  rw [htasks, exists_mem_pending_iff hplan hmem]

/-- A target with two bundles, of which the one that two properties lead to is
processed. -/
def halfProcessedTargeting : Targeting where
  configuration := ⟨[{
    packageName := "a"
    range := "*"
    config := { entryPoints := [(".", { overrides := some [("es2015", .string "i.js"),
      ("main", .string "m.js"), ("module", .string "m.js"), ("typings", .string "i.d.ts"),
      (markerKey, .object [("main", .string toolVersion), ("module", .string toolVersion)])] })] } }],
    ""⟩
  reading := {}
  basePaths := ["/node_modules"]
  target := "/node_modules/a"

/-- It is gone on with for the other bundle. -/
theorem needsProcessing_agrees_halfProcessed :
    let session : Session := { tree := { root := [("node_modules", .folder [("a", importing "")])] } }
    ∃ target after,
      (halfProcessedTargeting.entryPoint? halfProcessedTargeting.target).runFrom session
          = (.ok (some target), after)
        ∧ target.compiledByAngular = true ∧ target.packageJson.MarksAgree
        ∧ (target.tasks [.module, .main, .es2015] true).map Task.property = [.es2015]
        ∧ ∃ needs, (halfProcessedTargeting.needsProcessing [.module, .main, .es2015] true).runFrom
            session = (.ok needs, after)
          ∧ (needs = true ↔ target.tasks [.module, .main, .es2015] true ≠ []) := by
  intro session
  have hfound : (((halfProcessedTargeting.entryPoint? halfProcessedTargeting.target).runFrom
      session).1.toOption.join.any fun target => target.compiledByAngular
        && decide target.packageJson.MarksAgree
        && decide ((target.tasks [.module, .main, .es2015] true).map Task.property = [.es2015]))
      = true := by
    decide +kernel
  rcases hrun : (halfProcessedTargeting.entryPoint? halfProcessedTargeting.target).runFrom session
    with ⟨failure | none | target, after⟩
  · rw [hrun] at hfound
    cases hfound
  · rw [hrun] at hfound
    cases hfound
  · rw [hrun] at hfound
    have htarget : (target.compiledByAngular && decide target.packageJson.MarksAgree
        && decide ((target.tasks [.module, .main, .es2015] true).map Task.property = [.es2015]))
        = true := hfound
    simp only [Bool.and_eq_true, decide_eq_true_eq] at htarget
    obtain ⟨⟨hcompiled, hagree⟩, htasks⟩ := htarget
    obtain ⟨needs, hneeds, _, h, _⟩ :=
      (needsProcessing_agrees hrun hcompiled hagree [.module, .main, .es2015] true).1
    exact ⟨target, after, rfl, hcompiled, hagree, htasks, needs, hneeds, h⟩

end Targeting

end PackageOrder
