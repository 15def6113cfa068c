/-
PackageOrder.Task.Plan — which formats are to be compiled, and the tasks for
them.

Of the properties that lead to the same bundle only the first is compiled; the
others are marked with it. Formats that were processed before make no task.
-/
import PackageOrder.Dependency.Order
import PackageOrder.EntryPoint.Marker
import PackageOrder.Task.Queue

namespace PackageOrder

open PackageOrder.Text

/-! ## Properties -/

namespace PackageJson

/-- The considered properties that lead to bundles which none before them and
none of the `seen` ones leads to. -/
def distinctBundles (json : PackageJson) : List String → List FormatProperty → List FormatProperty
  | _, [] => []
  | seen, property :: rest =>
    match json.formatPath? property with
    | none => distinctBundles json seen rest
    | some path =>
      if path ∈ seen then distinctBundles json seen rest
      else property :: distinctBundles json (path :: seen) rest

/-- The properties to compile: one for each bundle, or only the first one. -/
def propertiesToProcess (json : PackageJson) (considered : List FormatProperty)
    (allFormats : Bool) : List FormatProperty :=
  let distinct := json.distinctBundles [] considered
  if allFormats then distinct else distinct.take 1

/-- The properties that lead to the same bundle as a given one. -/
def sameBundle (json : PackageJson) (property : FormatProperty) : List FormatProperty :=
  match json.formatPath? property with
  | none => []
  | some path => FormatProperty.all.filter fun other => json.formatPath? other == some path

/-- For each considered property whose bundle is compiled, all properties that
lead to that bundle. -/
def equivalentProperties (json : PackageJson) (considered : List FormatProperty)
    (allFormats : Bool) : List (FormatProperty × List FormatProperty) :=
  let bundles := (json.propertiesToProcess considered allFormats).filterMap json.formatPath?
  let known := considered.filter fun property => (json.formatPath? property).any bundles.contains
  known.eraseDups.map fun property => (property, json.sameBundle property)

end PackageJson

/-! ## Tasks -/

namespace EntryPoint

/-- The tasks for some properties of an entry-point; the first one has its
types with it unless these were processed before. -/
def tasksFor (entryPoint : EntryPoint) : Bool → List FormatProperty → List Task
  | _, [] => []
  | processTypings, property :: rest =>
    if entryPoint.packageJson.isProcessed property.name then
      tasksFor entryPoint processTypings rest
    else
      { entryPoint, property, processTypings
        marks := entryPoint.packageJson.sameBundle property } :: tasksFor entryPoint false rest

/-- The tasks for an entry-point. -/
def tasks (entryPoint : EntryPoint) (considered : List FormatProperty) (allFormats : Bool) :
    List Task :=
  entryPoint.tasksFor (!entryPoint.packageJson.isProcessed "typings")
    (entryPoint.packageJson.propertiesToProcess considered allFormats)

/-- What is said about the formats that were processed before. -/
def processedNotes (entryPoint : EntryPoint) (considered : List FormatProperty)
    (allFormats : Bool) : Log :=
  ((entryPoint.packageJson.propertiesToProcess considered allFormats).filter
      (entryPoint.packageJson.isProcessed ·.name)).map fun property =>
    (.debug, "Skipping " ++ entryPoint.name ++ " : " ++ property.name ++ " (already compiled).")

/-- Whether an entry-point has none of the considered formats. -/
def isUnprocessable (considered : List FormatProperty) (entryPoint : EntryPoint) : Bool :=
  considered.all fun property => (entryPoint.formatPath? property).isNone

end EntryPoint

/-- What is said about an entry-point that cannot be processed. -/
def InvalidEntryPoint.note (invalid : InvalidEntryPoint) : LogLevel × String :=
  (.error, "Invalid entry-point " ++ invalid.entryPoint.path
    ++ ". It is missing required dependencies:\n"
    ++ intercalate "\n" (invalid.missing.map (" - " ++ ·)))

/-- The tasks for sorted entry-points, in order. -/
def SortedEntryPoints.tasks (sorted : SortedEntryPoints) (considered : List FormatProperty)
    (allFormats : Bool) : List Task :=
  sorted.entryPoints.flatMap (·.tasks considered allFormats)

/-- The queue of tasks for sorted entry-points. -/
def planTasks (sorted : SortedEntryPoints) (considered : List FormatProperty)
    (allFormats : Bool) : Run TaskQueue := do
  for invalid in sorted.invalid do
    let (level, message) := invalid.note
    Run.say level message
  for entryPoint in sorted.entryPoints do
    for (level, message) in entryPoint.processedNotes considered allFormats do
      Run.say level message
  let unprocessable := sorted.entryPoints.filter (EntryPoint.isUnprocessable considered)
  if !unprocessable.isEmpty then
    throw (.unprocessable (intercalate ", " (considered.map FormatProperty.name))
      (unprocessable.map EntryPoint.path))
  let tasks := sorted.tasks considered allFormats
  Run.say .debug
    ("Analyzed " ++ toString sorted.entryPoints.length ++ " entry-points in _s. (Total tasks: "
      ++ toString tasks.length ++ ")")
  return TaskQueue.ofTasks tasks sorted.graph

end PackageOrder
