/-
PackageOrder.Dependency.Order — entry-points in the order of their
dependencies.

Only entry-points that the Angular compiler made take part. One that lacks
something is broken; it is taken out of the graph together with everything that
depends on it. The rest is listed so that each comes after what it depends on.
-/
import PackageOrder.Dependency.Basic
import PackageOrder.EntryPoint.Inspect
import PackageOrder.EntryPoint.Sniff
import PackageOrder.Graph

namespace PackageOrder

open PackageOrder.Text

/-- An entry-point that cannot be processed, and what it lacks: specifiers, or
the path of a dependency that cannot be processed. -/
structure InvalidEntryPoint where
  entryPoint : EntryPoint
  missing : List String

/-- A dependency that the graph leaves out. -/
structure IgnoredDependency where
  entryPoint : EntryPoint
  path : String

/-- An entry-point and what its files import. -/
structure EntryPointWithInfo where
  entryPoint : EntryPoint
  info : DependencyInfo

/-- Entry-points in order, and those that are left out. -/
structure SortedEntryPoints where
  entryPoints : List EntryPoint
  invalid : List InvalidEntryPoint
  ignored : List IgnoredDependency
  graph : Graph EntryPoint

/-! ## Imports of an entry-point -/

/-- The syntax of modules in a format. -/
def BundleFormat.modules : BundleFormat → Script.ModuleSyntax
  | .esm5 | .esm2015 => .esm
  | .umd => .umd
  | .commonJs => .commonJs

/-- The first format of an entry-point that can be told, and its bundle. -/
def FileTree.sourceFormat? (tree : FileTree) (entryPoint : EntryPoint) :
    Option (BundleFormat × String) :=
  FormatProperty.all.findSome? fun property => do
    let path ← entryPoint.formatPath? property
    let format ← tree.format? entryPoint property
    return (format, tree.resolve [entryPoint.path, path])

/-- An entry-point with what its script and its types import; what the Angular
compiler did not make is not looked into. The imports of a script can be read
only in some formats. -/
def FileTree.withInfo (tree : FileTree) (readable : List BundleFormat)
    (mappings : Option PathMappings) (entryPoint : EntryPoint) :
    Except Failure EntryPointWithInfo :=
  if !entryPoint.compiledByAngular then .ok { entryPoint, info := {} }
  else
    match tree.sourceFormat? entryPoint with
    | none => .error (.noSourceFormat entryPoint.path)
    | some (format, path) =>
      if readable.contains format then
        let script := tree.collectDependencies format.modules mappings path
        let typings := tree.collectDependencies .declarations mappings entryPoint.typings
        .ok { entryPoint, info := script.union typings }
      else .error (.noDependencyHost entryPoint.path)

/-! ## The graph -/

/-- Whether an entry-point lacks something it does not do without. -/
def EntryPointWithInfo.isBroken (item : EntryPointWithInfo) : Bool :=
  !item.info.missing.isEmpty && !item.entryPoint.ignoreMissingDependencies

/-- What an entry-point depends on besides itself; nothing, if it is broken. -/
def EntryPointWithInfo.others (item : EntryPointWithInfo) : List String :=
  if item.isBroken then [] else item.info.dependencies.filter (· ≠ item.entryPoint.path)

/-- The graph of some entry-points. -/
def dependencyGraph (items : List EntryPointWithInfo) : Graph EntryPoint :=
  let nodes := items.foldl (fun graph item =>
    graph.addNode item.entryPoint.path item.entryPoint) {}
  items.foldl (fun graph item => item.others.foldl (fun graph path =>
    graph.addDependency item.entryPoint.path path) graph) nodes

/-- What the broken ones among some entry-points lack, by their paths. -/
def ownMissing (items : List EntryPointWithInfo) : List (String × List String) :=
  items.foldl (fun found item =>
    if item.isBroken then Json.Decoder.insertPair item.entryPoint.path item.info.missing found
    else found) []

/-- The paths of the entry-points that cannot be processed: the broken ones and
those that depend on them. -/
def invalidPaths (graph : Graph EntryPoint) (broken : List String) : SortedSet :=
  broken.foldl (fun found path => found.union (graph.dependants path))
    (SortedSet.ofList broken)

/-- What an entry-point that cannot be processed lacks: what it lacks itself, or
the first by path of its dependencies that cannot be processed. -/
def blame (graph : Graph EntryPoint) (missing : List (String × List String))
    (invalid : SortedSet) (path : String) : List String :=
  match missing.lookup path with
  | some own => own
  | none =>
    ((SortedSet.ofList (graph.directDependencies path)).find? (invalid.contains ·)).toList

/-- The graph without the entry-points that cannot be processed, and these by
increasing path. -/
def removeInvalid (graph : Graph EntryPoint) (missing : List (String × List String)) :
    Graph EntryPoint × List InvalidEntryPoint :=
  let invalid := invalidPaths graph (missing.map (·.1))
  let removed := invalid.filterMap fun path => (graph.data? path).map fun entryPoint =>
    { entryPoint, missing := blame graph missing invalid path }
  (invalid.foldl Graph.removeNode graph, removed)

/-! ## What is left out -/

/-- The deep imports of an entry-point that need no attention. The others are
reported. -/
def ignorableDeepImports (configuration : Configuration) (item : EntryPointWithInfo) :
    Run (List String) := do
  if item.info.deepImports.isEmpty then return []
  let entryPoint := item.entryPoint
  let config ← configuration.forPackage entryPoint.packageName entryPoint.packagePath
    entryPoint.packageVersion
  let (ignorable, notable) := item.info.deepImports.partition config.isIgnorable
  if !notable.isEmpty then
    Run.say .warn
      ("Entry point '" ++ entryPoint.name ++ "' contains deep imports into "
        ++ intercalate ", " (notable.map fun path => "'" ++ path ++ "'")
        ++ ". This is probably not a problem, but may cause the compilation of entry points to be "
        ++ "out of order.")
  return ignorable

/-- The dependencies of an entry-point that the graph leaves out. -/
def ignoredOf (configuration : Configuration) (graph : Graph EntryPoint)
    (item : EntryPointWithInfo) : Run (List IgnoredDependency) := do
  let unknown := item.others.filter (!graph.contains ·)
  let deep ← ignorableDeepImports configuration item
  return (unknown ++ deep).map ({ entryPoint := item.entryPoint, path := · })

/-! ## Sorting -/

/-- The paths to process in order: all of the graph, or the target and what it
depends on. -/
def processingOrder (graph : Graph EntryPoint) (target : Option EntryPoint) : List String :=
  match target with
  | none => graph.overallOrder
  | some target =>
    if target.compiledByAngular && graph.contains target.path then
      graph.dependencies target.path ++ [target.path]
    else []

/-- Sorts entry-points by what they import. -/
def sortEntryPoints (configuration : Configuration) (items : List EntryPointWithInfo)
    (target : Option EntryPoint) : Run SortedEntryPoints := do
  let items := items.filter (·.entryPoint.compiledByAngular)
  let whole := dependencyGraph items
  let ignored ← items.mapM (ignoredOf configuration whole)
  let (graph, invalid) := removeInvalid whole (ownMissing items)
  return {
    entryPoints := (processingOrder graph target).filterMap graph.data?
    invalid, graph
    ignored := ignored.flatten }

/-- The ways in which the imports of an entry-point are read. -/
structure ImportReading where
  /-- The formats in which scripts can be read. -/
  readable : List BundleFormat := [.esm5, .esm2015, .umd, .commonJs]
  mappings : Option PathMappings := none

/-- An entry-point with what it imports. -/
def withInfo (reading : ImportReading) (entryPoint : EntryPoint) : Run EntryPointWithInfo := do
  match (← Run.tree).withInfo reading.readable reading.mappings entryPoint with
  | .ok item => return item
  | .error failure => throw failure

/-- Reads the imports of entry-points and sorts them. -/
def readAndSort (configuration : Configuration) (reading : ImportReading)
    (entryPoints : List EntryPoint) (target : Option EntryPoint) : Run SortedEntryPoints := do
  sortEntryPoints configuration (← entryPoints.mapM (withInfo reading)) target

end PackageOrder
