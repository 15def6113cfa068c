/-
PackageOrder.Task.Progress — what has become of the tasks of a run.

A failure either ends the run (`strict`), or the entry-point's other tasks and
all tasks of what depends on it are dropped and the run goes on.
-/
import PackageOrder.Failure
import PackageOrder.Log
import PackageOrder.Task.Queue

namespace PackageOrder

/-- What became of the tasks of a run. -/
structure Summary where
  processed : List Task := []
  /-- The tasks that failed, with what was said about it. -/
  failed : List (Task × String) := []
  /-- The entry-points that were dropped because of a dependency. -/
  skipped : List EntryPoint := []

/-- A run under way. -/
structure Progress where
  queue : TaskQueue
  summary : Summary := {}

namespace Progress

/-- What is said about a failed task. -/
def failureNotes (progress : Progress) (task : Task) (message : String) : Log :=
  (.error, (Failure.taskFailed task.entryPoint.name task.property.name message).message) ::
    (progress.queue.skippedBy task).map fun skipped =>
      (.debug, "Skipping processing of " ++ skipped.name ++ " because its dependency "
        ++ task.entryPoint.name ++ " failed to compile.")

/-- The run after a task has ended, and what is said about it. -/
def settle (strict : Bool) (progress : Progress) (task : Task) :
    Outcome → Except Failure (Progress × Log)
  | .processed =>
    .ok ({ queue := progress.queue.complete task
           summary := { progress.summary with processed := progress.summary.processed ++ [task] } },
      [])
  | .failed message =>
    if strict then .error (.taskFailed task.entryPoint.name task.property.name message)
    else
      .ok ({ queue := progress.queue.fail task
             summary :=
              { progress.summary with
                failed := progress.summary.failed ++ [(task, message)]
                skipped := progress.summary.skipped ++ progress.queue.skippedBy task } },
        progress.failureNotes task message)

end Progress

end PackageOrder
