/-
PackageOrder.Discovery.Target — one entry-point and those it depends on.

From the target the search goes breadth first through what the imports of each
entry-point lead to. A path is looked at again as long as nothing was found
there, but each found one only once; so the number of rounds is bounded by the
square of the number of paths there can be.
-/
import PackageOrder.Discovery.BasePaths
import PackageOrder.EntryPoint.Marker
import PackageOrder.Dependency.Order

namespace PackageOrder

open PackageOrder.Text

/-- The search for a target in some folders. -/
structure Targeting where
  configuration : Configuration
  reading : ImportReading
  basePaths : List String
  target : String

/-! ## The package of an entry-point -/

namespace FileTree

variable (tree : FileTree)

/-- The first folder with a package description on the way down from a folder. -/
def firstPackageBelow? (folder : String) : List String → Option String
  | [] => none
  | segment :: rest =>
    let folder := Path.join folder [segment]
    if tree.isEntryPoint folder then some folder else firstPackageBelow? folder rest

/-- The segments behind the last folder of installed packages, if there is one,
and those up to it. -/
def splitInstalled (segments : List String) : Option (List String × List String) :=
  match segments with
  | [] => none
  | segment :: rest =>
    match splitInstalled rest with
    | some (before, after) => some (segment :: before, after)
    | none => if segment = "node_modules" then some ([segment], rest) else none

/-- The package of an entry-point below a containing folder: the first folder
with a description on the way down, from behind the last folder of installed
packages. -/
def packageBelow? (entryPoint container : String) : Option String :=
  let segments := (Path.segments (Path.relative container entryPoint).toList).map String.ofList
  match splitInstalled segments with
  | none =>
    if tree.isEntryPoint container then some container
    else tree.firstPackageBelow? container segments
  | some (before, after) =>
    let folder := before.foldl (fun folder segment => Path.join folder [segment]) container
    tree.firstPackageBelow? folder after

/-- The climb from a path to just below the nearest folder of installed packages
or the root: the path there, and the one before it. -/
def climb : Nat → String → String → String × String
  | 0, inner, path => (inner, path)
  | steps + 1, inner, path =>
    let container := Path.dirname path
    if Path.isRoot container || Path.isPackageFolder container then (inner, path)
    else climb steps path container

/-- The package of an entry-point by the nearest folder of installed packages,
one level deeper for scoped names; without a description there the entry-point
itself. -/
def packageAbove (entryPoint : String) : String :=
  let (inner, path) := climb (entryPoint.length + 1) entryPoint entryPoint
  if tree.isEntryPoint path then path
  else if (Path.basename path none).toList.head? == some '@' && tree.isEntryPoint inner then inner
  else entryPoint

/-- The package of an entry-point, by the first of some folders that it lies
in. -/
def packagePath (basePaths : List String) (entryPoint : String) : String :=
  let found := basePaths.findSome? fun basePath =>
    if (dropHead? basePath.toList entryPoint.toList).isSome then
      tree.packageBelow? entryPoint basePath
    else none
  found.getD (tree.packageAbove entryPoint)

end FileTree

/-- Whether a description has a format among some that is not processed yet; if
not all are wanted, only the first of them counts. -/
def PackageJson.needsProcessing (json : PackageJson)
    (properties : List FormatProperty) (allFormats : Bool) : Bool :=
  let considered := properties.filter fun property => (json.formatPath? property).isSome
  let wanted := if allFormats then considered else considered.take 1
  wanted.any fun property => !json.isProcessed property.name

namespace Targeting

/-- The entry-point with a path, if there is one. -/
def entryPoint? (targeting : Targeting) (path : String) : Run (Option EntryPoint) := do
  let packagePath := (← Run.tree).packagePath targeting.basePaths path
  return (← inspect targeting.configuration packagePath path).entryPoint?

/-- Whether the target has a format left to process. -/
def needsProcessing (targeting : Targeting) (properties : List FormatProperty)
    (allFormats : Bool) : Run Bool := do
  match ← targeting.entryPoint? targeting.target with
  | none => throw (.targetMissing targeting.target)
  | some entryPoint =>
    return entryPoint.compiledByAngular
      && entryPoint.packageJson.needsProcessing properties allFormats

/-- A search: the entry-points found so far by their paths, the paths to be
looked at, and the target once it was found. -/
structure Search where
  found : List (String × EntryPointWithInfo) := []
  pending : List String
  target : Option EntryPoint := none

/-- The search after a path has been looked at. -/
def visit (targeting : Targeting) (search : Search) (path : String) : Run Search := do
  if (search.found.lookup path).isSome then return search
  match ← targeting.entryPoint? path with
  | none => return search
  | some entryPoint =>
    let target := if path = targeting.target then some entryPoint else search.target
    if !entryPoint.compiledByAngular then return { search with target }
    let item ← withInfo targeting.reading entryPoint
    let new := item.info.dependencies.filter fun dependency =>
      (search.found.lookup dependency).isNone
    return {
      found := search.found ++ [(path, item)]
      pending := search.pending ++ new
      target }

/-- At most some rounds of a search. -/
def searchWithin (targeting : Targeting) : Nat → Search → Run Search
  | 0, search => return search
  | rounds + 1, search =>
    match search.pending with
    | [] => return search
    | path :: rest => do
      searchWithin targeting rounds (← targeting.visit { search with pending := rest } path)

/-- The target and what it depends on, sorted. -/
def find (targeting : Targeting) : Run SortedEntryPoints := do
  let bound := Nat.pow ((← Run.tree).pathBound + 1) 2
  let search ← targeting.searchWithin bound { pending := [targeting.target] }
  match search.target with
  | none => throw (.targetMissing targeting.target)
  | some target =>
    sortEntryPoints targeting.configuration (search.found.map (·.2)) (some target)

end Targeting

end PackageOrder
