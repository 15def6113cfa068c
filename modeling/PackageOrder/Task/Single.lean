/-
PackageOrder.Task.Single — running the tasks one after the other.

Each round takes a task from those pending, so their number bounds the rounds.
-/
import PackageOrder.Session
import PackageOrder.Task.Progress

namespace PackageOrder

/-- A way of compiling tasks. -/
abbrev Compiler := Task → StateM Session CompileResult

/-- Compiles a task and keeps note of it. -/
def compileTask (compiler : Compiler) (task : Task) : StateM Session Outcome := do
  modify fun session => { session with compiled := session.compiled ++ [task] }
  return (← compiler task).outcome

namespace Run

/-- Writes messages. -/
def sayAll (log : Log) : Run Unit :=
  modifyThe Session fun session => { session with log := session.log ++ log }

/-- The run after a task has ended. -/
def settle (strict : Bool) (progress : Progress) (task : Task) (outcome : Outcome) :
    Run Progress := do
  match progress.settle strict task outcome with
  | .ok (after, log) =>
    sayAll log
    return after
  | .error failure => throw failure

end Run

/-- At most some rounds of a run on its own. -/
def runRounds (strict : Bool) (compiler : Compiler) : Nat → Progress → Run Progress
  | 0, progress => return progress
  | rounds + 1, progress =>
    match progress.queue.next? with
    | none => return progress
    | some (task, queue) => do
      let outcome ← compileTask compiler task
      runRounds strict compiler rounds
        (← Run.settle strict { progress with queue := queue } task outcome)

/-- Runs the tasks of a queue one after the other. -/
def runSingle (strict : Bool) (compiler : Compiler) (queue : TaskQueue) : Run Summary := do
  Run.say .debug "Running ngcc on SingleProcessExecutor."
  let progress ← runRounds strict compiler (queue.pending.length + 1) { queue }
  if progress.queue.isDone then return progress.summary
  throw (.deadlock progress.queue.pending.length)

end PackageOrder
