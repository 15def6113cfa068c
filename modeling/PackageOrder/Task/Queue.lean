/-
PackageOrder.Task.Queue — the tasks of a run and when they may start.

A task may start when no other task of its entry-point is under way, and
everything its entry-point depends on whose first task stands earlier has no
task left. What depends on it and stands earlier can only do so through a
cycle, and is not waited for.
-/
import PackageOrder.Graph
import PackageOrder.Task.Basic

namespace PackageOrder

/-- Tasks waiting and under way. -/
structure TaskQueue where
  /-- The tasks that have not started, in order. -/
  pending : List Task
  /-- The entry-points with a task under way. -/
  inProgress : List String := []
  /-- How many unfinished tasks an entry-point has. -/
  remaining : List (String × Nat)
  /-- The entry-points that an entry-point waits for. -/
  blockers : List (String × List String)
  /-- The entry-points with tasks that depend on an entry-point. -/
  dependants : List (String × List String)

namespace TaskQueue

/-! ## Making a queue -/

/-- The entry-points of tasks, in the order of their first tasks. -/
def pathsOf (tasks : List Task) : List String :=
  tasks.foldl (fun found task => if task.path ∈ found then found else found ++ [task.path]) []

/-- What an entry-point depends on whose first task stands before its own. -/
def earlierDependencies {α : Type} (graph : Graph α) (order : List String) (path : String) :
    List String :=
  (graph.dependencies path).filter fun other =>
    order.contains other && order.idxOf other < order.idxOf path

/-- The queue of some tasks. -/
def ofTasks {α : Type} (tasks : List Task) (graph : Graph α) : TaskQueue :=
  let order := pathsOf tasks
  { pending := tasks
    remaining := order.map fun path => (path, (tasks.filter (·.path = path)).length)
    blockers := order.map fun path => (path, earlierDependencies graph order path)
    dependants := order.map fun path => (path, (graph.dependants path).filter order.contains) }

/-! ## Looking at a queue -/

/-- How many unfinished tasks an entry-point has. -/
def unfinished (queue : TaskQueue) (path : String) : Nat :=
  (queue.remaining.lookup path).getD 0

/-- The entry-points that an entry-point waits for. -/
def blockersOf (queue : TaskQueue) (path : String) : List String :=
  (queue.blockers.lookup path).getD []

/-- The entry-points with tasks that depend on an entry-point. -/
def dependantsOf (queue : TaskQueue) (path : String) : List String :=
  (queue.dependants.lookup path).getD []

/-- Whether a task of an entry-point may start. -/
def isAvailable (queue : TaskQueue) (path : String) : Bool :=
  !queue.inProgress.contains path
    && (queue.blockersOf path).all fun blocker => queue.unfinished blocker == 0

/-- Whether nothing is left to do. -/
def isDone (queue : TaskQueue) : Bool :=
  queue.pending.isEmpty && queue.inProgress.isEmpty

/-! ## Changing a queue -/

/-- The first task in a list that may start, and the other ones. -/
def takeFirst? (available : String → Bool) : List Task → Option (Task × List Task)
  | [] => none
  | task :: rest =>
    if available task.path then some (task, rest)
    else (takeFirst? available rest).map fun (found, others) => (found, task :: others)

/-- Starts the first task that may start. -/
def next? (queue : TaskQueue) : Option (Task × TaskQueue) :=
  (takeFirst? queue.isAvailable queue.pending).map fun (task, rest) =>
    (task, { queue with pending := rest, inProgress := task.path :: queue.inProgress })

/-- The queue without an entry-point under way. -/
def stop (queue : TaskQueue) (path : String) : TaskQueue :=
  { queue with inProgress := queue.inProgress.filter (· ≠ path) }

/-- A task has been processed. -/
def complete (queue : TaskQueue) (task : Task) : TaskQueue :=
  { queue.stop task.path with
    remaining := queue.remaining.map fun (path, n) =>
      if path = task.path then (path, n - 1) else (path, n) }

/-- The entry-points whose tasks go when a task fails: its own and those that
depend on it. -/
def droppedBy (queue : TaskQueue) (task : Task) : List String :=
  task.path :: queue.dependantsOf task.path

/-- The entry-points of some tasks, each once. -/
def entryPointsOf : List Task → List EntryPoint
  | [] => []
  | task :: rest =>
    task.entryPoint :: (entryPointsOf rest).filter fun other => other.path ≠ task.path

/-- A task has failed. The tasks left of its entry-point and of everything that
depends on it go. -/
def fail (queue : TaskQueue) (task : Task) : TaskQueue :=
  let dropped := queue.droppedBy task
  { queue.stop task.path with
    pending := queue.pending.filter fun other => !dropped.contains other.path
    remaining := queue.remaining.map fun (path, n) =>
      if dropped.contains path then (path, 0) else (path, n) }

/-- The other entry-points that lose tasks when a task fails. -/
def skippedBy (queue : TaskQueue) (task : Task) : List EntryPoint :=
  entryPointsOf <| queue.pending.filter fun other =>
    (queue.droppedBy task).contains other.path && other.path ≠ task.path

end TaskQueue

end PackageOrder
