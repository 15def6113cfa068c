/-
PackageOrder.Processing — whole runs: find the entry-points, plan the tasks and
carry them out.
-/
import PackageOrder.Discovery.Target
import PackageOrder.Discovery.Walk
import PackageOrder.Options
import PackageOrder.Task.Cluster
import PackageOrder.Task.Plan

namespace PackageOrder

/-! ## Marking -/

/-- The properties that a task marks as processed. -/
def Task.markedProperties (task : Task) : List String :=
  task.marks.map FormatProperty.name ++ (if task.processTypings then ["typings"] else [])

/-- Compiles a task by marking its formats as processed. Marks that earlier
tasks have made in the package description are kept. -/
def markTask : Compiler := fun task => do
  let tree := (← get).tree
  let entryPoint := task.entryPoint
  match tree.format? entryPoint task.property with
  | none =>
    return .error
      ("Unable to determine the format of " ++ task.property.name ++ " for entry-point "
        ++ entryPoint.path) []
  | some format =>
    let message := "Compiling " ++ task.describe ++ " as " ++ format.name
    modify fun session => { session with log := session.log ++ [(.info, message)] }
    let path := Path.join entryPoint.path ["package.json"]
    let json := (tree.packageJson? path).getD entryPoint.packageJson
    match tree.writePackageJson path (json.markProcessed task.markedProperties) with
    | .ok written =>
      modify fun session => { session with tree := written }
      return .done
    | .error cause =>
      return .error (Failure.inaccessible path cause).message cause.message?.toList

/-! ## Finding -/

/-- The target of a run and what it depends on, if there is something left to
process. -/
def findTarget (setup : Setup) (targeting : Targeting) : Run (Option SortedEntryPoints) := do
  if !(← targeting.needsProcessing setup.properties setup.allFormats) then
    Run.say .debug "The target entry-point has already been processed"
    return none
  let sorted ← targeting.find
  match sorted.invalid.find? (·.entryPoint.path == targeting.target) with
  | some invalid => throw (.targetInvalid targeting.target invalid.missing)
  | none => return some sorted

/-- The entry-points of a run, unless there is nothing to do. -/
def findEntryPoints (setup : Setup) (configuration : Configuration) :
    Run (Option SortedEntryPoints) := do
  let reading : ImportReading := { mappings := setup.mappings }
  let (basePaths, log) := (← Run.tree).basePaths setup.basePath setup.mappings
  Run.sayAll log
  match setup.target with
  | some target => findTarget setup { configuration, reading, basePaths, target }
  | none => return some (← findAll configuration reading (!setup.ignoreManifest) basePaths)

/-! ## Running -/

/-- Carries out the tasks of a queue. -/
def carryOut (setup : Setup) (compiler : Compiler) (queue : TaskQueue) : Run Summary :=
  if setup.inParallel then runCluster setup.strict compiler (fun _ => 0) setup.workers queue
  else runSingle setup.strict compiler queue

/-- A whole run, on a machine that would use a number of workers. -/
def processPackages (options : Options) (machineWorkers : Nat) (compiler : Compiler) :
    Run Summary := do
  let setup ← options.setUp machineWorkers
  let configuration ← Configuration.load setup.projectPath
  match ← findEntryPoints setup configuration with
  | none => return {}
  | some sorted =>
    let queue ← planTasks sorted setup.properties setup.allFormats
    carryOut setup compiler queue

end PackageOrder
