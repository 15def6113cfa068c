/-
PackageOrder.Task.Cluster — a coordinator that gives the tasks of a queue to
workers.

Before it waits for a message the coordinator gives every idle worker a task, as
long as there are tasks that may start. A message ends the task of the worker it
comes from, or the run.
-/
import PackageOrder.Task.Worker

namespace PackageOrder

/-- A coordinator: the run, and the task each worker is busy with. -/
structure Coordinator where
  progress : Progress
  assignments : List (Option Task)

/-- The start of a run with some workers. -/
def Coordinator.start (queue : TaskQueue) (workers : Nat) : Coordinator where
  progress := { queue }
  assignments := List.replicate workers none

/-- What giving out tasks came to: what was sent to which worker, what was
said, and what ended the run, if anything did. -/
structure Dispatch where
  coordinator : Coordinator
  sent : List (Nat × Task)
  log : Log
  failure : Option Failure

namespace Coordinator

/-! ## Giving out tasks -/

/-- Tasks for the idle ones among workers, which are counted from `worker` on:
the queue without them, the new assignments, and the tasks given out. -/
def fill (queue : TaskQueue) (worker : Nat) :
    List (Option Task) → TaskQueue × List (Option Task) × List (Nat × Task)
  | [] => (queue, [], [])
  | some task :: rest =>
    let (queue, others, given) := fill queue (worker + 1) rest
    (queue, some task :: others, given)
  | none :: rest =>
    match queue.next? with
    | none => (queue, none :: rest, [])
    | some (task, queue) =>
      let (queue, others, given) := fill queue (worker + 1) rest
      (queue, some task :: others, (worker, task) :: given)

/-- Why a worker cannot be given a task; an inbox may be missing or closed. -/
def inboxFault? (inboxes : List Bool) (worker : Nat) : Option Failure :=
  match inboxes[worker]? with
  | some true => none
  | some false => some (.workerCrashed worker "The worker is no longer accepting tasks.")
  | none => some (.workerCrashed worker "No such worker.")

/-- The tasks that reach their workers, those that were tried, and what stopped
the rest. -/
def deliver (inboxes : List Bool) :
    List (Nat × Task) → List (Nat × Task) × List (Nat × Task) × Option Failure
  | [] => ([], [], none)
  | (worker, task) :: rest =>
    match inboxFault? inboxes worker with
    | some failure => ([], [(worker, task)], some failure)
    | none =>
      let (sent, tried, failure) := deliver inboxes rest
      ((worker, task) :: sent, (worker, task) :: tried, failure)

/-- The first worker that is busy. -/
def busyWorker? (coordinator : Coordinator) : Option Nat :=
  coordinator.assignments.findIdx? Option.isSome

/-- What is said about a task that is given to a worker. -/
def dispatchNote (worker : Nat) (task : Task) : LogLevel × String :=
  (.debug, "Dispatching task " ++ task.describe ++ " to worker #" ++ toString worker ++ ".")

/-- Gives a task to every idle worker, as long as there are tasks that may
start. With no worker busy after that the run is stuck. -/
def dispatch (inboxes : List Bool) (coordinator : Coordinator) : Dispatch :=
  let (queue, assignments, given) := fill coordinator.progress.queue 0 coordinator.assignments
  let after : Coordinator :=
    { progress := { coordinator.progress with queue := queue }, assignments }
  let (sent, tried, failure) := deliver inboxes given
  { coordinator := after
    sent
    log := tried.map fun (worker, task) => dispatchNote worker task
    failure :=
      failure <|>
        if after.busyWorker?.isNone then some (.deadlock queue.pending.length) else none }

/-! ## Messages -/

/-- The coordinator after a message, and what is said about it. -/
def receive (strict : Bool) (coordinator : Coordinator) (worker : Nat) (text : String) :
    Except Failure (Coordinator × Log) :=
  match WorkerReport.read? text with
  | none => .error (.workerMessage worker text)
  | some (.error message) => .error (.workerCrashed worker message)
  | some (.ended outcome) =>
    match coordinator.assignments[worker]? with
    | some (some task) => do
      let (progress, log) ← coordinator.progress.settle strict task outcome
      return ({ progress, assignments := coordinator.assignments.set worker none }, log)
    | _ => .error (.workerMessage worker text)

/-- What ends a run when no message can come any more. -/
def abandoned (coordinator : Coordinator) : Failure :=
  .workerCrashed (coordinator.busyWorker?.getD 0) "All workers exited before their tasks completed."

/-! ## A run over given messages -/

/-- What a run over messages came to. -/
structure Service where
  result : Except Failure Summary
  sent : List (Nat × Task)
  unread : List (Nat × String)
  log : Log

/-- The tasks given out before the coordinator waits; none when nothing is left
to do. -/
def prepare (inboxes : List Bool) (coordinator : Coordinator) : Dispatch :=
  if coordinator.progress.queue.isDone then
    { coordinator, sent := [], log := [], failure := none }
  else coordinator.dispatch inboxes

/-- What a run came to that does not wait for a message. -/
def verdict? (inboxes : List Bool) (coordinator : Coordinator) :
    Option (Except Failure Summary) :=
  if coordinator.progress.queue.isDone then some (.ok coordinator.progress.summary)
  else (coordinator.dispatch inboxes).failure.map .error

/-- A run over messages that wait for the coordinator, after which no more
come. -/
def serve (strict : Bool) (inboxes : List Bool) :
    Coordinator → List (Nat × String) → Service
  | coordinator, [] =>
    let given := coordinator.prepare inboxes
    { result := (coordinator.verdict? inboxes).getD (.error given.coordinator.abandoned)
      sent := given.sent, unread := [], log := given.log }
  | coordinator, (worker, text) :: rest =>
    let given := coordinator.prepare inboxes
    match coordinator.verdict? inboxes with
    | some result =>
      { result, sent := given.sent, unread := (worker, text) :: rest, log := given.log }
    | none =>
      match given.coordinator.receive strict worker text with
      | .error failure =>
        { result := .error failure, sent := given.sent, unread := rest, log := given.log }
      | .ok (coordinator, log) =>
        let service := serve strict inboxes coordinator rest
        { service with
          sent := given.sent ++ service.sent
          log := given.log ++ log ++ service.log }

end Coordinator

/-! ## A run with workers -/

/-- Takes the item at an index that wraps around. -/
def takeAt {α : Type} (index : Nat) (items : List α) : Option (α × List α) :=
  let index := index % items.length
  items[index]?.map fun item => (item, items.eraseIdx index)

/-- At most some rounds of a run with workers. The reports that wait for the
coordinator are in `waiting`; `choice` says which of them it reads in which
round. -/
def clusterRounds (strict : Bool) (compiler : Compiler) (choice : Nat → Nat) :
    Nat → Coordinator → List (Nat × String) → Run Summary
  | 0, coordinator, _ => throw (.deadlock coordinator.progress.queue.pending.length)
  | rounds + 1, coordinator, waiting => do
    if coordinator.progress.queue.isDone then return coordinator.progress.summary
    let given := coordinator.dispatch (coordinator.assignments.map fun _ => true)
    Run.sayAll given.log
    if let some failure := given.failure then throw failure
    let reports ← given.sent.mapM fun (worker, task) => do
      return (worker, (← workerReport compiler worker (taskMessage task)).text)
    match takeAt (choice rounds) (waiting ++ reports) with
    | none => throw given.coordinator.abandoned
    | some ((worker, text), waiting) =>
      match given.coordinator.receive strict worker text with
      | .error failure => throw failure
      | .ok (coordinator, log) =>
        Run.sayAll log
        clusterRounds strict compiler choice rounds coordinator waiting

/-- Runs the tasks of a queue with some workers, at least one. Each round ends a
task, so their number bounds the rounds. -/
def runCluster (strict : Bool) (compiler : Compiler) (choice : Nat → Nat) (workers : Nat)
    (queue : TaskQueue) : Run Summary := do
  let workers := max workers 1
  Run.say .debug
    ("Running ngcc on ClusterExecutor (using " ++ toString workers ++ " worker threads).")
  clusterRounds strict compiler choice (queue.pending.length + 1)
    (Coordinator.start queue workers) []

end PackageOrder
